import BusNode.Proofs.Number.Binary
import BusNode.Proofs.Number.Decimal
/-!
# The text of binary numbers

* `ofRatio_shortest` — the digits that are written round to the number;
* `parse?_text` — the text of a finite number is a number that rounds to it, so no two finite numbers have one text
  (`text_injective`).
-/

namespace BusNode.Binary

variable {p : Precision}

/-- Decimals of equal value are rounded alike. -/
theorem ofRatio_eq_of_value (neg : Bool) {d e : Decimal} (h : d.value = e.value) :
    (ofRatio neg d.numerator d.denominator : Binary p) = ofRatio neg e.numerator e.denominator :=
  ofRatio_eq_of_ratio neg d.denominator_pos e.denominator_pos (Decimal.numerator_mul_denominator h)

theorem ofRatio_of_readsBack {x : Binary p} {d : Decimal} (h : x.readsBack d = true) :
    (ofRatio x.negative d.numerator d.denominator : Binary p) = x := beq_iff_eq.1 h

theorem ofRatio_exact {x : Binary p} (hx : x.isFinite = true) :
    (ofRatio x.negative x.exact.numerator x.exact.denominator : Binary p) = x := by
  refine Eq.trans (ofRatio_eq_of_ratio _ x.exact.denominator_pos (Nat.two_pow_pos _) ?_) (ofRatio_magnitude hx)
  unfold exact Decimal.numerator Decimal.denominator
  dsimp only
  rw [neg_neg, Int.toNat_natCast, Int.toNat_of_nonpos (by omega), Nat.pow_zero, Nat.mul_one, Nat.mul_assoc,
    ← Nat.mul_pow]

/-- **The digits that are written round to the number.** -/
theorem ofRatio_shortest (tie : Tie) {x : Binary p} (hx : x.isFinite = true) :
    (ofRatio x.negative (x.shortest tie).numerator (x.shortest tie).denominator : Binary p) = x := by
  unfold shortest
  split
  · rename_i h
    refine Eq.trans (ofRatio_eq_of_ratio _ (Decimal.denominator_pos _) (Nat.two_pow_pos _) ?_) (ofRatio_magnitude hx)
    rw [h, Nat.zero_mul]
    exact Nat.zero_mul _
  · rw [ofRatio_eq_of_value _ (Decimal.value_normalize _)]
    cases hfind : (List.range p.digits).findSome? (x.withDigits tie) with
    | none => exact ofRatio_exact hx
    | some d =>
      obtain ⟨k, -, hk⟩ := List.exists_of_findSome?_eq_some hfind
      exact ofRatio_of_readsBack (List.find?_some hk)

theorem isNormal_shortest (tie : Tie) (x : Binary p) : (x.shortest tie).IsNormal := by
  unfold shortest
  split
  · exact fun _ => rfl
  · exact Decimal.isNormal_normalize _

/-- **The text of a finite number is a number that rounds to it.** -/
theorem parse?_text (tie : Tie) (l : Layout) {x : Binary p} (hx : x.isFinite = true) :
    ∃ n, Numeral.parse? (x.text tie l).toList = some n ∧
      (ofRatio n.negative n.decimal.numerator n.decimal.denominator : Binary p) = x := by
  obtain ⟨n, hn, hneg, hvalue⟩ := Decimal.parse?_text (isNormal_shortest tie x) x.negative l
  refine ⟨n, ?_, ?_⟩
  · rw [text, String.toList_ofList]
    exact hn
  · rw [hneg, ofRatio_eq_of_value _ hvalue]
    exact ofRatio_shortest tie hx

theorem spells_text (tie : Tie) (l : Layout) (x : Binary p) : Numeral.Spells (x.text tie l) := by
  refine ⟨(x.shortest tie).numeral x.negative l, l.plus, ?_, ?_⟩
  · exact Decimal.isSpelt_numeral (isNormal_shortest tie x) x.negative l
  · rw [text, String.toList_ofList, Decimal.chars_numeral]

theorem text_injective (tie : Tie) (l : Layout) {x y : Binary p} (hx : x.isFinite = true) (hy : y.isFinite = true)
    (h : x.text tie l = y.text tie l) : x = y := by
  obtain ⟨n, hn, hnx⟩ := parse?_text tie l hx
  obtain ⟨m, hm, hmy⟩ := parse?_text tie l hy
  rw [h, hm] at hn
  obtain rfl := Option.some.inj hn
  exact hnx.symm.trans hmy

end BusNode.Binary
