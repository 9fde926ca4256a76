import BusNode.Datapool.Check
import BusNode.Proofs.Number.Nearest
import BusNode.Proofs.Number.Text
import BusNode.Proofs.Success
import Mathlib.Data.Int.Log
import Mathlib.Data.Rat.Floor
/-!
# What a floating point literal means to a compiler

* `Literal.assemble` — a literal put together from the two texts of a decimal, one without exponent and one with it;
* `Literal.Denotes` — a text has a point, an exponent only where it is wanted, and the value of the digits of a number,
  so that it is rounded to this number and to no other;
* `float_literals_are_exact` — the literals of finite numbers do so, and there are no others; so the factors that a
  Datapool may have are the numbers above zero.

Of the digits it counts only that they are rounded to the number.
-/

namespace BusNode

/-! ## The exponent of the first digit -/

theorem length_toDigits (n : Nat) : (Nat.toDigits 10 n).length = Nat.log 10 n + 1 := by
  induction n using Nat.strongRecOn with
  | _ n ih =>
    rcases Nat.lt_or_ge n 10 with h | h
    · rw [Nat.toDigits_of_lt_base h, Nat.log_of_lt h]
      rfl
    · rw [Nat.toDigits_of_base_le (by decide) h, List.length_append, ih (n / 10) (by omega),
        Nat.log_of_one_lt_of_le (by decide) h]
      rfl

namespace Decimal

theorem value_nonneg (d : Decimal) : 0 ≤ d.value :=
  mul_nonneg (Nat.cast_nonneg _) (zpow_nonneg (by norm_num) _)

theorem value_eq_zero_iff {d : Decimal} : d.value = 0 ↔ d.coefficient = 0 := by
  unfold value
  rw [mul_eq_zero, Nat.cast_eq_zero]
  exact or_iff_left (zpow_ne_zero _ (by norm_num))

theorem leading_eq_log {d : Decimal} (h : d.value ≠ 0) : d.leading = Int.log 10 d.value := by
  have hpos : 0 < d.value := d.value_nonneg.lt_of_ne' h
  have hcoefficient : (0 : ℚ) < d.coefficient := by
    exact_mod_cast Nat.pos_of_ne_zero (mt value_eq_zero_iff.2 h)
  have hleading : d.leading = Nat.log 10 d.coefficient + d.exponent := by
    unfold leading digits
    rw [length_toDigits]
    push_cast
    ring
  refine eq_of_forall_le_iff fun k => ?_
  have hpow : ((10 : Nat) : ℚ) ^ k ≤ d.value ↔ ((10 : Nat) : ℚ) ^ (k - d.exponent) ≤ d.coefficient := by
    rw [zpow_sub₀ (by norm_num), div_le_iff₀ (zpow_pos (by norm_num) _)]
    rfl
  rw [← Int.zpow_le_iff_le_log (by decide) hpos, hpow, Int.zpow_le_iff_le_log (by decide) hcoefficient,
    Int.log_natCast, hleading]
  omega

/-- The digits before an exponent. -/
def significand (point : Bool) (d : Decimal) : List Char :=
  match d.digits with
  | [] => []
  | [c] => if point then [c, '.', '0'] else [c]
  | c :: cs => c :: '.' :: cs

/-- The exponent after the digits. -/
def exponentChars (d : Decimal) : List Char :=
  (if d.leading < 0 then ['-'] else []) ++ Nat.toDigits 10 d.leading.natAbs

theorem scientific_eq (point : Bool) (d : Decimal) :
    d.scientific point false = d.significand point ++ 'e' :: d.exponentChars := by
  unfold scientific significand exponentChars
  cases d.digits with
  | nil => rw [List.append_assoc]; rfl
  | cons c cs =>
    cases cs with
    | nil => rw [List.append_assoc]; rfl
    | cons c' cs => rw [List.append_assoc]; rfl

end Decimal

/-! ## Texts put together -/

namespace Literal

/-- A point after digits that have none. -/
def withPoint (cs : List Char) : List Char := if '.' ∈ cs then cs else cs ++ ['.', '0']

/-- The integer that is written; 0 if none is. -/
def integerOf (cs : List Char) : Int := ((Numeral.parse? cs).bind Numeral.integer?).getD 0

/-- The text without exponent, or the one with it if it is far from zero; with a point in any case. -/
def assemble (plain exponential : List Char) : List Char :=
  let (significand, r) := exponential.span (· ≠ 'e')
  let exponent := r.drop 1
  if -5 ≤ integerOf exponent ∧ integerOf exponent < 16 then withPoint plain
  else withPoint significand ++ 'e' :: exponent

/-- The sign of a number before digits. -/
def sign (negative : Bool) : List Char := if negative then ['-'] else []

variable {d : Decimal} {negative : Bool}

theorem integerOf_exponentChars (d : Decimal) : integerOf d.exponentChars = d.leading := by
  have hparse := Numeral.parse?_signed (decide (d.leading < 0)) d.leading.natAbs
  simp only [decide_eq_true_eq] at hparse
  unfold integerOf Decimal.exponentChars
  rw [hparse]
  have hdigits : digitsValue (Nat.toDigits 10 d.leading.natAbs) = d.leading.natAbs := digitsValue_toDigits _
  by_cases hneg : d.leading < 0
  · have hne : d.leading.natAbs ≠ 0 := by omega
    simp only [Option.bind_some, Numeral.integer?, Numeral.isWhole, hdigits, hneg, hne, List.isEmpty_nil,
      Option.isNone_none, Bool.and_self, Bool.not_true, Bool.false_eq_true, if_false, decide_true, Option.getD_some]
    omega
  · simp only [Option.bind_some, Numeral.integer?, Numeral.isWhole, hdigits, hneg, List.isEmpty_nil,
      Option.isNone_none, Bool.and_self, Bool.not_true, Bool.not_false, Bool.false_eq_true, if_false, if_true,
      decide_false, Option.getD_some]
    omega

/-- No digits have a point or an exponent, and no sign has. -/
theorem ne_of_mem_sign_append {ds : List Char} (hds : ∀ c ∈ ds, c.isDigit = true) :
    ∀ c ∈ sign negative ++ ds, c ≠ '.' ∧ c ≠ 'e' := by
  intro c hc
  rcases List.mem_append.1 hc with hc | hc
  · cases negative with
    | true =>
      obtain rfl := List.mem_singleton.1 hc
      decide
    | false => cases hc
  · have := hds c hc
    constructor <;> rintro rfl <;> cases this

theorem withPoint_of_digits {ds : List Char} (hds : ∀ c ∈ ds, c.isDigit = true) :
    withPoint (sign negative ++ ds) = sign negative ++ ds ++ ['.', '0'] :=
  if_neg fun h => (ne_of_mem_sign_append hds _ h).1 rfl

theorem withPoint_of_mem {cs : List Char} (h : '.' ∈ cs) : withPoint (sign negative ++ cs) = sign negative ++ cs :=
  if_pos (List.mem_append_right _ h)

theorem withPoint_positional (negative : Bool) (d : Decimal) :
    withPoint (sign negative ++ d.positional false) = sign negative ++ d.positional true := by
  unfold Decimal.positional
  dsimp only
  split
  · rw [if_neg Bool.false_ne_true, if_pos rfl, List.append_nil,
      withPoint_of_digits (Decimal.isDigit_append d.isDigit_digits (Decimal.isDigit_replicate _))]
    simp only [List.append_assoc]
  · split
    · exact withPoint_of_mem (by simp)
    · exact withPoint_of_mem (by simp)

theorem withPoint_significand (negative : Bool) (d : Decimal) :
    withPoint (sign negative ++ d.significand false) = sign negative ++ d.significand true := by
  have hdigits := d.isDigit_digits
  unfold Decimal.significand
  cases hds : d.digits with
  | nil => exact absurd hds d.digits_ne_nil
  | cons c cs =>
    rw [hds] at hdigits
    cases cs with
    | nil =>
      show withPoint (sign negative ++ [c]) = sign negative ++ [c, '.', '0']
      rw [withPoint_of_digits hdigits, List.append_assoc]
      rfl
    | cons c' cs => exact withPoint_of_mem (List.mem_cons_of_mem c List.mem_cons_self)

theorem mem_significand {c : Char} (h : c ∈ d.significand false) : c = '.' ∨ c ∈ d.digits := by
  unfold Decimal.significand at h
  cases hds : d.digits with
  | nil => exact absurd hds d.digits_ne_nil
  | cons c' cs =>
    rw [hds] at h
    cases cs with
    | nil => exact .inr h
    | cons c'' cs =>
      rcases List.mem_cons.1 h with rfl | h
      · exact .inr List.mem_cons_self
      · exact (List.mem_cons.1 h).imp_right (List.mem_cons_of_mem c')

/-- What stands before the exponent is without the letter of the exponent. -/
theorem ne_of_mem_sign_significand : ∀ c ∈ sign negative ++ d.significand false, c ≠ 'e' := by
  intro c hc
  rcases List.mem_append.1 hc with hc | hc
  · exact (ne_of_mem_sign_append d.isDigit_digits c (List.mem_append_left _ hc)).2
  · rcases mem_significand hc with rfl | hc
    · decide
    · exact (ne_of_mem_sign_append d.isDigit_digits c (List.mem_append_right (sign negative) hc)).2

/-- The text that is put together from those of digits after a sign. -/
def assembled (negative : Bool) (d : Decimal) : List Char :=
  assemble (sign negative ++ d.positional false) (sign negative ++ d.scientific false false)

/-- **The two texts of a decimal are put together to the text of the layout.** -/
theorem assembled_eq (negative : Bool) (d : Decimal) : assembled negative d = sign negative ++ d.text layout := by
  have hspan : (sign negative ++ d.scientific false false).span (· ≠ 'e') =
      (sign negative ++ d.significand false, 'e' :: d.exponentChars) := by
    rw [Decimal.scientific_eq, ← List.append_assoc]
    refine Numeral.span_append (fun c hc => decide_eq_true (ne_of_mem_sign_significand c hc)) fun c hc => ?_
    cases hc
    rfl
  have hlayout : layout.isPositional d.leading = true ↔ -5 ≤ d.leading ∧ d.leading < 16 := by
    refine decide_eq_true_iff.trans (and_congr_right fun _ => ?_)
    omega
  unfold assembled assemble Decimal.text
  rw [hspan]
  dsimp only
  rw [List.drop_succ_cons, List.drop_zero, integerOf_exponentChars, withPoint_positional, withPoint_significand]
  by_cases h : -5 ≤ d.leading ∧ d.leading < 16
  · rw [if_pos h, if_pos (hlayout.2 h)]
    rfl
  · rw [if_neg h, if_neg (mt hlayout.1 h), List.append_assoc]
    congr 1
    exact (Decimal.scientific_eq true d).symm

/-! ## What a literal denotes -/

/-- A text is a number with the sign of a binary number and the value of decimal digits, which is rounded to the binary
number and to no other; it has a point, and an exponent if the first digit is far from the point. -/
structure Denotes {p : Precision} (n : Numeral) (d : Decimal) (x : Binary p) : Prop where
  spelt : n.IsSpelt
  point : n.fraction ≠ []
  exponent : n.exponent = none ↔ d.value = 0 ∨ -5 ≤ Int.log 10 d.value ∧ Int.log 10 d.value ≤ 15
  sign : n.negative = x.negative
  value : n.decimal.value = d.value
  rounds : x.Rounds n.negative n.decimal.value
  only : ∀ y : Binary p, y.Rounds n.negative n.decimal.value → y = x

theorem fraction_positionalNumeral_ne_nil (negative : Bool) (d : Decimal) :
    (d.positionalNumeral negative true).fraction ≠ [] := by
  have hlength := d.length_digits_pos
  unfold Decimal.positionalNumeral
  dsimp only
  split
  · exact List.cons_ne_nil _ _
  · split
    · rw [ne_eq, List.drop_eq_nil_iff]
      omega
    · exact List.append_ne_nil_of_right_ne_nil _ d.digits_ne_nil

theorem fraction_scientificNumeral_ne_nil (negative : Bool) (d : Decimal) :
    (d.scientificNumeral negative true).fraction ≠ [] := by
  have hlength := d.length_digits_pos
  unfold Decimal.scientificNumeral
  dsimp only
  split
  · exact List.cons_ne_nil _ _
  · rename_i h
    rw [ne_eq, List.drop_eq_nil_iff]
    have : d.digits.length ≠ 1 := fun hone => h ⟨hone, rfl⟩
    omega

theorem exponent_positionalNumeral (negative point : Bool) (d : Decimal) :
    (d.positionalNumeral negative point).exponent = none := by
  unfold Decimal.positionalNumeral
  dsimp only
  split
  · rfl
  · split <;> rfl

theorem negative_numeral (negative : Bool) (l : Layout) (d : Decimal) : (d.numeral negative l).negative = negative := by
  unfold Decimal.numeral Decimal.positionalNumeral Decimal.scientificNumeral
  dsimp only
  split_ifs <;> rfl

/-- The layout tells small and great numbers by their value. -/
theorem isPositional_leading_iff (hd : d.IsNormal) : layout.isPositional d.leading = true ↔
    d.value = 0 ∨ -5 ≤ Int.log 10 d.value ∧ Int.log 10 d.value ≤ 15 := by
  refine decide_eq_true_iff.trans ?_
  by_cases h : d.value = 0
  · have hcoefficient := Decimal.value_eq_zero_iff.1 h
    have hleading : d.leading = 0 := by
      unfold Decimal.leading Decimal.digits
      rw [hcoefficient, hd hcoefficient, Nat.toDigits_zero]
      rfl
    rw [hleading]
    exact iff_of_true (by decide) (.inl h)
  · rw [Decimal.leading_eq_log h]
    exact (or_iff_right h).symm

/-- The text of digits that are rounded to a number denotes the number. -/
theorem denotes_numeral {p : Precision} {x : Binary p} (hd : d.IsNormal) (hx : x.Rounds x.negative d.value) :
    Denotes (d.numeral x.negative layout) d x := by
  have hnegative := negative_numeral x.negative layout d
  have hvalue := Decimal.value_numeral d x.negative layout
  refine {
    spelt := Decimal.isSpelt_numeral hd _ _
    point := ?_
    exponent := ?_
    sign := hnegative
    value := hvalue
    rounds := by rwa [hnegative, hvalue]
    only := fun y hy => ?_ }
  · unfold Decimal.numeral
    split
    · exact fraction_positionalNumeral_ne_nil _ _
    · exact fraction_scientificNumeral_ne_nil _ _
  · rw [← isPositional_leading_iff hd]
    unfold Decimal.numeral
    split
    · rename_i h
      exact iff_of_true (exponent_positionalNumeral _ _ _) h
    · rename_i h
      exact iff_of_false nofun h
  · rw [hnegative, hvalue] at hy
    exact hy.unique hx

theorem chars_numeral_layout (negative : Bool) (d : Decimal) :
    (d.numeral negative layout).chars false = assembled negative d := by
  rw [assembled_eq]
  exact Decimal.chars_numeral negative layout d

end Literal

/-! ## The literals of numbers -/

namespace Binary

variable {p : Precision} {x : Binary p}

/-- The digits that are written are rounded to the number. -/
theorem rounds_shortest (hp : 0 < p.fraction) (tie : Tie) (hx : x.isFinite = true) :
    x.Rounds x.negative (x.shortest tie).value := by
  have hvalue : ((x.shortest tie).numerator : ℚ) / (x.shortest tie).denominator = (x.shortest tie).value := by
    rw [Decimal.numerator_eq, mul_div_cancel_right₀]
    exact_mod_cast (x.shortest tie).denominator_pos.ne'
  have hrounds := rounds_ofRatio hp x.negative (x.shortest tie).numerator (x.shortest tie).denominator_pos
  rwa [ofRatio_shortest tie hx, hvalue] at hrounds

theorem magnitude_eq_zero_iff : x.magnitude = 0 ↔ x.body = 0 := by
  have hzero : p.magnitude 0 = 0 := by
    unfold Precision.magnitude
    rw [Nat.zero_div, if_pos rfl, Nat.zero_mod]
  have hinjective := p.magnitude_strictMono.injective.eq_iff (a := x.body) (b := 0)
  rwa [hzero] at hinjective

/-- The sign and the body tell whether a finite number is above zero. -/
theorem isPositive_iff (hx : x.isFinite = true) : x.isPositive = true ↔ 0 < x.value := by
  have hbody : x.body < p.infinity := of_decide_eq_true hx
  have hnotNaN : x.isNaN = false := isNaN_eq_false_iff.2 hbody.le
  have hnonneg : 0 ≤ x.absValue := div_nonneg (Nat.cast_nonneg _) (by positivity)
  have hpositive : 0 < x.absValue ↔ x.body ≠ 0 := by
    rw [absValue, div_pos_iff_of_pos_right (by positivity), Nat.cast_pos, Nat.pos_iff_ne_zero, ne_eq,
      magnitude_eq_zero_iff]
  unfold isPositive value
  cases hsign : x.negative with
  | true => simp [hnonneg]
  | false => simp [hnotNaN, hpositive]

end Binary

namespace Literal

/-- **The literal of a finite number is rounded to this number again.** -/
theorem rounded_eq {x : Binary64} (hx : x.isFinite = true) : rounded x = .ok x := by
  obtain ⟨n, hn, hround⟩ := Binary.parse?_text .away layout hx
  unfold rounded
  refine bind_eq_ok.2 ⟨x.text .away layout, if_pos hx, ?_⟩
  rw [hn]
  exact congrArg Except.ok hround

/-- The literals of a precision: one for each finite number, with the value of its digits and a suffix, and for nothing
else. -/
structure AreExact {p : Precision} (literal : Binary p → Except LiteralError String) (suffix : List Char)
    (told : Binary p → Binary64) : Prop where
  /-- It does not matter how the digits are found. -/
  digits : ∀ (x : Binary p) (d : Decimal), d.IsNormal → x.Rounds x.negative d.value →
    ∃ n, assembled x.negative d = n.chars false ∧ Denotes n d x
  finite : ∀ x : Binary p, x.isFinite = true → ∃ n, literal x = .ok (String.ofList (n.chars false ++ suffix)) ∧
    n.chars false = assembled x.negative (x.shortest .away) ∧ Denotes n (x.shortest .away) x
  refused : ∀ x : Binary p, x.isFinite = false → literal x = .error (.notFinite (told x))

theorem areExact {p : Precision} (hp : 0 < p.fraction) {literal : Binary p → Except LiteralError String}
    {suffix : List Char} {told : Binary p → Binary64}
    (hfinite : ∀ x, x.isFinite = true → literal x = .ok (x.text .away layout ++ String.ofList suffix))
    (hrefused : ∀ x, x.isFinite = false → literal x = .error (.notFinite (told x))) :
    AreExact literal suffix told where
  digits x d hd hx := ⟨_, (chars_numeral_layout x.negative d).symm, denotes_numeral hd hx⟩
  finite x hx := by
    refine ⟨_, ?_, chars_numeral_layout x.negative _,
      denotes_numeral (Binary.isNormal_shortest .away x) (Binary.rounds_shortest hp .away hx)⟩
    rw [hfinite x hx, chars_numeral_layout, assembled_eq, String.ofList_append]
    rfl
  refused := hrefused

end Literal

/-! ## Factors -/

namespace Element

/-- A factor is read back as it is, so that it is valid just if it is a number above zero. -/
theorem hasValidFactor_iff_pos {e : Element} :
    e.hasValidFactor = true ↔ e.factor.isFinite = true ∧ 0 < e.factor.value := by
  unfold hasValidFactor
  rw [Bool.and_eq_true]
  refine and_congr_right fun hfinite => ?_
  rw [Literal.rounded_eq hfinite, ← Binary.isPositive_iff hfinite]
  simp [hfinite]

theorem fault?_eq_factor_iff {e : Element} {sets : Nat} :
    e.fault? sets = some (.factor e.factor) ↔ ¬(e.factor.isFinite = true ∧ 0 < e.factor.value) := by
  have hother : (e.contents.findSome? e.contentFault?) ≠ some (.factor e.factor) := by
    intro h
    obtain ⟨c, -, h⟩ := List.exists_of_findSome?_eq_some h
    unfold contentFault? at h
    split at h
    · cases h
    · obtain ⟨v, -, h⟩ := Option.map_eq_some_iff.1 h
      cases h
  rw [← hasValidFactor_iff_pos]
  unfold fault?
  cases e.hasValidFactor with
  | false => simp
  | true =>
    refine iff_of_false ?_ (by simp)
    rw [if_neg (by simp)]
    split
    · nofun
    · exact hother

end Element

namespace Literal

/-- **Floating point literals lose nothing.** The literal of a finite number has a point, and an exponent just if the
first digit is far from it; it has the sign of the number and the value of its digits, whatever digits these are, and
so is rounded to the number again and to no other. Nothing else has a literal, and the factors of a Datapool are the
numbers above zero. -/
theorem float_literals_are_exact :
    AreExact double [] id ∧ AreExact single ['F'] Binary.convert ∧
    (∀ x : Binary64, x.isFinite = true → rounded x = .ok x) ∧
    (∀ x : Binary64, x.isFinite = false → rounded x = .error (.notFinite x)) ∧
    ∀ (e : Element) (sets : Nat), (e.hasValidFactor = true ↔ e.factor.isFinite = true ∧ 0 < e.factor.value) ∧
      (e.fault? sets = some (.factor e.factor) ↔ ¬(e.factor.isFinite = true ∧ 0 < e.factor.value)) := by
  have hdouble : ∀ x : Binary64, x.isFinite = false → double x = .error (.notFinite x) :=
    fun x hx => if_neg (Bool.eq_false_iff.1 hx)
  refine ⟨?_, ?_, fun x hx => rounded_eq hx, fun x hx => ?_, fun e sets => ?_⟩
  · refine areExact (by decide) (fun x hx => ?_) hdouble
    rw [double, if_pos hx, String.ofList_nil, String.append_empty]
  · exact areExact (by decide) (fun x hx => if_pos hx) fun x hx => if_neg (Bool.eq_false_iff.1 hx)
  · unfold rounded
    rw [hdouble x hx]
    rfl
  · exact ⟨Element.hasValidFactor_iff_pos, Element.fault?_eq_factor_iff⟩

/-- The least number above zero. -/
def leastPositive : Binary64 := ⟨1⟩

theorem float_literals_are_exact_least : leastPositive.isFinite = true ∧
    (∃ n, double leastPositive = .ok (String.ofList (n.chars false ++ [])) ∧
      Denotes n (leastPositive.shortest .away) leastPositive) ∧
    rounded leastPositive = .ok leastPositive := by
  have hfinite : leastPositive.isFinite = true := by decide
  obtain ⟨hdouble, -, hrounded, -⟩ := float_literals_are_exact
  obtain ⟨n, hn, -, hdenotes⟩ := hdouble.finite leastPositive hfinite
  exact ⟨hfinite, ⟨n, hn, hdenotes⟩, hrounded leastPositive hfinite⟩

end Literal

end BusNode
