import BusNode.Text.Digit
import Mathlib.Data.List.Basic
/-!
# Digits read back

* `digitsValue_toDigits` — the digits of a number have its value, so `decimal` and `decimalInt` are injective;
* `head_toDigits_ne_zero` — no digits but those of zero start with a zero;
* `hexUpper_injective` — so many hexadecimal digits tell the numbers that have no more.
-/

namespace BusNode

/-! ## Decimal digits -/

theorem digitsValue_eq (cs : List Char) : digitsValue cs = Nat.ofDigitChars 10 cs 0 :=
  Nat.ofDigitChars_eq_foldl.symm

theorem digitsValue_append (cs ds : List Char) :
    digitsValue (cs ++ ds) = 10 ^ ds.length * digitsValue cs + digitsValue ds := by
  simp only [digitsValue_eq]
  rw [Nat.ofDigitChars_append, Nat.ofDigitChars_eq_ofDigitChars_zero]

theorem digitsValue_replicate_zero (n : Nat) : digitsValue (List.replicate n '0') = 0 := by
  rw [digitsValue_eq, Nat.ofDigitChars_replicate_zero, Nat.mul_zero]

theorem digitsValue_toDigits (n : Nat) : digitsValue (Nat.toDigits 10 n) = n := by
  rw [digitsValue_eq, Nat.ofDigitChars_ten_toDigits]

theorem isDigit_toDigits (n : Nat) : ∀ c ∈ Nat.toDigits 10 n, c.isDigit = true :=
  fun _ hc => Nat.isDigit_of_mem_toDigits (by decide) (by decide) hc

theorem head_toDigits_ne_zero {n : Nat} (hn : n ≠ 0) : (Nat.toDigits 10 n).head Nat.toDigits_ne_nil ≠ '0' := by
  induction n using Nat.strongRecOn with
  | _ n ih =>
    rcases Nat.lt_or_ge n 10 with h | h
    · simp only [Nat.toDigits_of_lt_base h, List.head_cons]
      rwa [ne_eq, Nat.digitChar_eq_zero]
    · simp only [Nat.toDigits_of_base_le (by decide) h]
      rw [List.head_append_of_ne_nil Nat.toDigits_ne_nil]
      exact ih (n / 10) (by omega) (by omega)

theorem toDigits_injective {m n : Nat} (h : Nat.toDigits 10 m = Nat.toDigits 10 n) : m = n := by
  rw [← digitsValue_toDigits m, h, digitsValue_toDigits]

theorem toList_decimal (n : Nat) : (decimal n).toList = Nat.toDigits 10 n := String.toList_ofList

theorem decimal_injective {m n : Nat} (h : decimal m = decimal n) : m = n := by
  refine toDigits_injective ?_
  rw [← toList_decimal, h, toList_decimal]

theorem toList_decimalInt (i : Int) :
    (decimalInt i).toList = (if i < 0 then ['-'] else []) ++ Nat.toDigits 10 i.natAbs := by
  unfold decimalInt
  split
  · rw [String.toList_append, toList_decimal]
    rfl
  · rw [toList_decimal]
    rfl

theorem decimalInt_injective {i j : Int} (h : decimalInt i = decimalInt j) : i = j := by
  have h := congrArg String.toList h
  rw [toList_decimalInt, toList_decimalInt] at h
  -- a sign is no digit
  have hsign (n : Nat) (cs : List Char) : Nat.toDigits 10 n ≠ '-' :: cs := by
    intro hn
    have := isDigit_toDigits n '-' (hn ▸ List.mem_cons_self)
    revert this
    decide
  split at h <;> split at h
  · have := toDigits_injective (List.cons.inj h).2
    omega
  · exact absurd h.symm (hsign _ _)
  · exact absurd h (hsign _ _)
  · have := toDigits_injective h
    omega

/-! ## Hexadecimal digits -/

theorem upper_digitChar_inj : ∀ c < 16, ∀ d < 16, (Nat.digitChar c).toUpper = (Nat.digitChar d).toUpper → c = d := by
  decide

theorem hexDigits_injective {width m n : Nat} (hm : m < 16 ^ width) (hn : n < 16 ^ width)
    (h : (hexDigits width m).map Char.toUpper = (hexDigits width n).map Char.toUpper) : m = n := by
  induction width generalizing m n with
  | zero => omega
  | succ width ih =>
    rw [hexDigits, hexDigits, List.map_append, List.map_append] at h
    obtain ⟨hhigh, hlow⟩ := List.append_inj' h rfl
    have hhigh : m / 16 = n / 16 := by
      refine ih ?_ ?_ hhigh <;> rwa [Nat.div_lt_iff_lt_mul (by decide), ← Nat.pow_succ]
    have hlow : m % 16 = n % 16 :=
      upper_digitChar_inj _ (Nat.mod_lt _ (by decide)) _ (Nat.mod_lt _ (by decide)) (List.cons.inj hlow).1
    omega

theorem hexUpper_injective {width m n : Nat} (hm : m < 16 ^ width) (hn : n < 16 ^ width)
    (h : hexUpper width m = hexUpper width n) : m = n := by
  refine hexDigits_injective hm hn ?_
  have h := congrArg String.toList h
  unfold hexUpper at h
  rwa [String.toList_ofList, String.toList_ofList] at h

end BusNode
