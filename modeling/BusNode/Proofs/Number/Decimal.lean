import BusNode.Number.Decimal
import BusNode.Proofs.Json.Numeral
import Mathlib.Algebra.Order.Field.Rat
import Mathlib.Tactic.FieldSimp
import Mathlib.Tactic.Ring
/-!
# Decimals and their text

* `Decimal.value` — the number that a decimal is;
* `Decimal.numeral` — the parts of the text of a decimal; `Decimal.value_numeral` — they have its value;
* `Decimal.parse?_text` — so the text of a decimal reads back.
-/

namespace BusNode

namespace Decimal

/-! ## Values -/

/-- The number that a decimal is. -/
def value (d : Decimal) : ℚ := d.coefficient * 10 ^ d.exponent

theorem denominator_pos (d : Decimal) : 0 < d.denominator := Nat.pow_pos (by decide)

theorem numerator_eq (d : Decimal) : (d.numerator : ℚ) = d.value * d.denominator := by
  unfold numerator denominator value
  push_cast
  rw [mul_assoc, ← zpow_natCast, ← zpow_natCast, ← zpow_add₀ (by norm_num)]
  congr 2
  omega

/-- Equal values are equal quotients. -/
theorem numerator_mul_denominator {d e : Decimal} (h : d.value = e.value) :
    d.numerator * e.denominator = e.numerator * d.denominator := by
  have : (d.numerator : ℚ) * e.denominator = e.numerator * d.denominator := by
    rw [numerator_eq, numerator_eq, h]
    ring
  exact_mod_cast this

theorem value_stripZeros (c : Nat) (e : Int) : (stripZeros c e).value = (⟨c, e⟩ : Decimal).value := by
  induction c using Nat.strongRecOn generalizing e with
  | _ c ih =>
    unfold stripZeros
    split
    · rename_i h
      rw [ih (c / 10) (by omega)]
      have hc : (c : ℚ) = (c / 10 : Nat) * 10 := by
        have : c = c / 10 * 10 := by omega
        exact_mod_cast this
      unfold value
      dsimp only
      rw [hc, zpow_add₀ (by norm_num), zpow_one]
      ring
    · rfl

theorem value_normalize (d : Decimal) : d.normalize.value = d.value := by
  unfold normalize
  split
  · rename_i h
    unfold value
    rw [h]
    simp
  · exact value_stripZeros _ _

/-! ## Text -/

/-- A zero has no exponent. -/
def IsNormal (d : Decimal) : Prop := d.coefficient = 0 → d.exponent = 0

theorem coefficient_stripZeros_ne_zero {c : Nat} (hc : c ≠ 0) (e : Int) : (stripZeros c e).coefficient ≠ 0 := by
  induction c using Nat.strongRecOn generalizing e with
  | _ c ih =>
    unfold stripZeros
    split
    · exact ih (c / 10) (by omega) (by omega) (e + 1)
    · exact hc

theorem isNormal_normalize (d : Decimal) : d.normalize.IsNormal := by
  unfold normalize
  split
  · exact fun _ => rfl
  · rename_i h
    exact fun h0 => absurd h0 (coefficient_stripZeros_ne_zero h d.exponent)

/-- The parts of a decimal whose point stands where the exponent puts it. -/
def positionalNumeral (negative point : Bool) (d : Decimal) : Numeral :=
  let ds := d.digits
  if 0 ≤ d.exponent then
    ⟨negative, ds ++ List.replicate d.exponent.toNat '0', if point then ['0'] else [], none⟩
  else
    let k := (-d.exponent).toNat
    if k < ds.length then ⟨negative, ds.take (ds.length - k), ds.drop (ds.length - k), none⟩
    else ⟨negative, ['0'], List.replicate (k - ds.length) '0' ++ ds, none⟩

/-- The parts of a decimal with one digit before its point. -/
def scientificNumeral (negative point : Bool) (d : Decimal) : Numeral :=
  let e := d.leading
  ⟨negative, d.digits.take 1, if d.digits.length = 1 ∧ point then ['0'] else d.digits.drop 1,
    some (e < 0, Nat.toDigits 10 e.natAbs)⟩

def numeral (negative : Bool) (l : Layout) (d : Decimal) : Numeral :=
  if l.isPositional d.leading then d.positionalNumeral negative l.wholePoint
  else d.scientificNumeral negative l.significandPoint

/-! ## The text is that of the parts -/

theorem digits_ne_nil (d : Decimal) : d.digits ≠ [] := Nat.toDigits_ne_nil

theorem length_digits_pos (d : Decimal) : 0 < d.digits.length := List.length_pos_iff.2 d.digits_ne_nil

theorem chars_positionalNumeral (negative point plus : Bool) (d : Decimal) :
    (d.positionalNumeral negative point).chars plus = (if negative then ['-'] else []) ++ d.positional point := by
  have hlen := d.length_digits_pos
  unfold positionalNumeral positional
  dsimp only
  split
  · cases point <;> simp [Numeral.chars, Numeral.exponentChars]
  · split
    · have hne : (d.digits.drop (d.digits.length - (-d.exponent).toNat)).isEmpty = false := by
        rw [List.isEmpty_eq_false_iff, ne_eq, List.drop_eq_nil_iff]
        omega
      simp [Numeral.chars, Numeral.exponentChars, hne]
    · have hne : (List.replicate ((-d.exponent).toNat - d.digits.length) '0' ++ d.digits).isEmpty = false := by
        rw [List.isEmpty_eq_false_iff]
        exact List.append_ne_nil_of_right_ne_nil _ d.digits_ne_nil
      simp [Numeral.chars, Numeral.exponentChars, hne]

theorem chars_scientificNumeral (negative point plus : Bool) (d : Decimal) :
    (d.scientificNumeral negative point).chars plus =
      (if negative then ['-'] else []) ++ d.scientific point plus := by
  unfold scientificNumeral scientific
  cases hds : d.digits with
  | nil => exact absurd hds d.digits_ne_nil
  | cons c cs =>
    cases cs with
    | nil => cases point <;> simp [Numeral.chars, Numeral.exponentChars]
    | cons c' cs => simp [Numeral.chars, Numeral.exponentChars]

theorem chars_numeral (negative : Bool) (l : Layout) (d : Decimal) :
    (d.numeral negative l).chars l.plus = (if negative then ['-'] else []) ++ d.text l := by
  unfold numeral text
  split
  · exact chars_positionalNumeral _ _ _ _
  · exact chars_scientificNumeral _ _ _ _

/-! ## The parts are spelt as the grammar wants -/

theorem isDigit_digits (d : Decimal) : ∀ c ∈ d.digits, c.isDigit = true := isDigit_toDigits d.coefficient

theorem isDigit_replicate (n : Nat) : ∀ c ∈ List.replicate n '0', c.isDigit = true := by
  intro c hc
  rw [(List.mem_replicate.1 hc).2]
  decide

theorem isDigit_append {cs ds : List Char} (hcs : ∀ c ∈ cs, c.isDigit = true) (hds : ∀ c ∈ ds, c.isDigit = true) :
    ∀ c ∈ cs ++ ds, c.isDigit = true :=
  fun c hc => (List.mem_append.1 hc).elim (hcs c) (hds c)

/-- What begins with a digit other than zero is no whole number with a leading zero. -/
theorem canonicalWhole_of_head {c : Char} {cs : List Char} (hc : c ≠ '0') :
    Numeral.canonicalWhole (c :: cs) = true := by
  unfold Numeral.canonicalWhole
  split
  · cases ‹c :: cs = []›
  · exact absurd (List.cons.inj ‹c :: cs = _›).1 hc
  · rfl

theorem canonicalWhole_singleton (c : Char) : Numeral.canonicalWhole [c] = true := by
  by_cases hc : c = '0'
  · rw [hc]
    rfl
  · exact canonicalWhole_of_head hc

/-- The digits of a number other than zero begin with such a digit. -/
theorem digits_eq_cons {d : Decimal} (h : d.coefficient ≠ 0) : ∃ c cs, d.digits = c :: cs ∧ c ≠ '0' := by
  have hhead := head_toDigits_ne_zero h
  cases hds : d.digits with
  | nil => exact absurd hds d.digits_ne_nil
  | cons c cs =>
    unfold digits at hds
    simp only [hds, List.head_cons] at hhead
    exact ⟨c, cs, rfl, hhead⟩

theorem isSpelt_positionalNumeral {d : Decimal} (hd : d.IsNormal) (negative point : Bool) :
    (d.positionalNumeral negative point).IsSpelt := by
  unfold positionalNumeral
  dsimp only
  split
  · refine {
      whole := isDigit_append d.isDigit_digits (isDigit_replicate _)
      canonical := ?_
      fraction := fun c hc => ?_
      exponent := fun _ he => nomatch he }
    · dsimp only
      by_cases h0 : d.coefficient = 0
      · rw [hd h0, Int.toNat_zero, List.replicate_zero, List.append_nil]
        exact Numeral.canonicalWhole_toDigits _
      · obtain ⟨c, cs, hds, hc⟩ := digits_eq_cons h0
        rw [hds]
        exact canonicalWhole_of_head hc
    · dsimp only at hc
      split at hc
      · rw [List.mem_singleton.1 hc]
        decide
      · cases hc
  · rename_i hneg
    split
    · rename_i hlt
      refine {
        whole := fun c hc => d.isDigit_digits c (List.mem_of_mem_take hc)
        canonical := ?_
        fraction := fun c hc => d.isDigit_digits c (List.mem_of_mem_drop hc)
        exponent := fun _ he => nomatch he }
      have h0 : d.coefficient ≠ 0 := fun h0 => hneg (hd h0).ge
      obtain ⟨c, cs, hds, hc⟩ := digits_eq_cons h0
      obtain ⟨k, hk⟩ := Nat.exists_eq_succ_of_ne_zero (Nat.sub_ne_zero_of_lt hlt)
      dsimp only
      rw [hk, hds, List.take_succ_cons]
      exact canonicalWhole_of_head hc
    · exact {
        whole := isDigit_replicate 1
        canonical := rfl
        fraction := isDigit_append (isDigit_replicate _) d.isDigit_digits
        exponent := fun _ he => nomatch he }

theorem isSpelt_scientificNumeral (d : Decimal) (negative point : Bool) :
    (d.scientificNumeral negative point).IsSpelt := by
  refine {
    whole := fun c hc => d.isDigit_digits c (List.mem_of_mem_take hc)
    canonical := ?_
    fraction := fun c hc => ?_
    exponent := fun e he => ?_ }
  · show Numeral.canonicalWhole (d.digits.take 1) = true
    cases hds : d.digits with
    | nil => exact absurd hds d.digits_ne_nil
    | cons c cs => exact canonicalWhole_singleton c
  · unfold scientificNumeral at hc
    dsimp only at hc
    split at hc
    · exact isDigit_replicate 1 c hc
    · exact d.isDigit_digits c (List.mem_of_mem_drop hc)
  · obtain rfl := Option.some.inj he
    exact ⟨Nat.toDigits_ne_nil, isDigit_toDigits _⟩

theorem isSpelt_numeral {d : Decimal} (hd : d.IsNormal) (negative : Bool) (l : Layout) :
    (d.numeral negative l).IsSpelt := by
  unfold numeral
  split
  · exact isSpelt_positionalNumeral hd _ _
  · exact isSpelt_scientificNumeral _ _ _

/-! ## The parts have the value -/

theorem value_positionalNumeral (d : Decimal) (negative point : Bool) :
    (d.positionalNumeral negative point).decimal.value = d.value := by
  unfold positionalNumeral
  dsimp only
  split
  · rename_i hpos
    have hexp : d.exponent = (d.exponent.toNat : Int) := (Int.toNat_of_nonneg hpos).symm
    unfold Numeral.decimal value
    dsimp only
    rw [digitsValue_append, digitsValue_append, digitsValue_replicate_zero, digits, digitsValue_toDigits,
      List.length_replicate]
    have hfraction : digitsValue (if point then ['0'] else []) = 0 := by cases point <;> rfl
    rw [hfraction]
    push_cast
    rw [add_zero, add_zero, hexp, zpow_natCast, Int.toNat_natCast, zero_sub, zpow_neg, zpow_natCast]
    field_simp
  · split
    · rename_i hlt
      unfold Numeral.decimal value
      dsimp only
      rw [List.take_append_drop, digits, digitsValue_toDigits]
      congr 2
      rw [List.length_drop]
      unfold digits at hlt
      omega
    · rename_i hlt
      unfold Numeral.decimal value
      dsimp only
      have hzero : digitsValue ['0'] = 0 := rfl
      rw [digitsValue_append, digitsValue_append, digitsValue_replicate_zero, hzero, digits, digitsValue_toDigits,
        Nat.mul_zero, Nat.mul_zero, Nat.zero_add, Nat.zero_add]
      congr 2
      rw [List.length_append, List.length_replicate]
      unfold digits at hlt
      omega

theorem value_scientificNumeral (d : Decimal) (negative point : Bool) :
    (d.scientificNumeral negative point).decimal.value = d.value := by
  have hvalue : digitsValue d.digits = d.coefficient := digitsValue_toDigits d.coefficient
  have hexp : (if decide (d.leading < 0) = true then -(digitsValue (Nat.toDigits 10 d.leading.natAbs) : Int)
      else digitsValue (Nat.toDigits 10 d.leading.natAbs)) = d.leading := by
    rw [digitsValue_toDigits]
    split
    · rename_i h
      have := of_decide_eq_true h
      omega
    · rename_i h
      have : ¬d.leading < 0 := fun h' => h (decide_eq_true h')
      omega
  unfold scientificNumeral Numeral.decimal
  dsimp only
  rw [hexp]
  have hleading : d.leading = d.exponent + d.digits.length - 1 := rfl
  cases hds : d.digits with
  | nil => exact absurd hds d.digits_ne_nil
  | cons c cs =>
    rw [hds] at hvalue hleading
    cases cs with
    | nil =>
      have hleading : d.leading = d.exponent := by
        rw [hleading]
        simp
      cases point
      · simp only [value, List.take_succ_cons, List.take_zero, List.length_cons, List.length_nil, Bool.false_eq_true,
          and_false, if_false, List.drop_succ_cons, List.drop_zero, List.append_nil]
        rw [hvalue, hleading, Nat.cast_zero, sub_zero]
      · simp only [value, List.take_succ_cons, List.take_zero, List.length_cons, List.length_nil, and_self, if_true]
        have hzero : digitsValue ['0'] = 0 := rfl
        rw [digitsValue_append, hvalue, hleading, hzero]
        push_cast
        rw [zpow_sub₀ (by norm_num), List.length_singleton, pow_one, add_zero, zpow_one]
        field_simp
    | cons c' cs =>
      simp only [value, List.take_succ_cons, List.take_zero, List.length_cons, List.drop_succ_cons, List.drop_zero]
      rw [if_neg (by omega), List.singleton_append, hvalue, hleading]
      congr 2
      simp only [List.length_cons]
      push_cast
      omega

theorem value_numeral (d : Decimal) (negative : Bool) (l : Layout) :
    (d.numeral negative l).decimal.value = d.value := by
  unfold numeral
  split
  · exact value_positionalNumeral _ _ _
  · exact value_scientificNumeral _ _ _

/-- **The text of a decimal reads back** as a number with its sign and value. -/
theorem parse?_text {d : Decimal} (hd : d.IsNormal) (negative : Bool) (l : Layout) :
    ∃ n, Numeral.parse? ((if negative then ['-'] else []) ++ d.text l) = some n ∧ n.negative = negative ∧
      n.decimal.value = d.value := by
  refine ⟨d.numeral negative l, ?_, ?_, value_numeral d negative l⟩
  · rw [← chars_numeral]
    exact Numeral.parse?_chars (isSpelt_numeral hd negative l) l.plus
  · unfold numeral positionalNumeral scientificNumeral
    dsimp only
    split
    · split
      · rfl
      · split <;> rfl
    · rfl

end Decimal

end BusNode
