import BusNode.Json.Text
import Mathlib.Data.List.Basic
/-!
# Quoted text read back

* `Text.decode_encode` — the inside of a string is decoded to the code points of the string;
* `Text.ofPoints_map_toNat` — the code points of a text are that text, for no character is a surrogate.
-/

namespace BusNode.Text

/-! ## Escapes -/

theorem hexValue?_digitChar : ∀ d < 16, hexValue? (Nat.digitChar d) = some d := by decide

theorem hexDigits_four (n : Nat) : hexDigits 4 n =
    [(n / 4096 % 16).digitChar, (n / 256 % 16).digitChar, (n / 16 % 16).digitChar, (n % 16).digitChar] := by
  simp only [hexDigits, Nat.div_div_eq_div_mul, List.nil_append, List.cons_append]

theorem hexPoint?_digits {n : Nat} (h : n < 2 ^ 16) :
    hexPoint? (n / 4096 % 16).digitChar (n / 256 % 16).digitChar (n / 16 % 16).digitChar (n % 16).digitChar =
      some n := by
  have hdigit (m : Nat) : hexValue? (m % 16).digitChar = some (m % 16) :=
    hexValue?_digitChar _ (Nat.mod_lt m (by decide))
  simp only [hexPoint?, hdigit]
  refine congrArg some ?_
  omega

theorem decode_letter {c e : Char} (h : escape? c = some e) (hc : c ≠ 'u') (r : List Char) :
    decode ('\\' :: c :: r) = (decode r).map (e.toNat :: ·) := by
  rw [decode.eq_3 c r fun _ _ _ _ _ hu _ => hc hu, h]
  cases decode r <;> rfl

theorem decode_point {a b c d : Char} {n : Nat} (h : hexPoint? a b c d = some n) (r : List Char) :
    decode ('\\' :: 'u' :: a :: b :: c :: d :: r) = (decode r).map (n :: ·) := by
  rw [decode.eq_2, h]
  cases decode r <;> rfl

theorem decode_bare {c : Char} (hc : c ≠ '\\') (hn : ¬c.toNat < 32) (r : List Char) :
    decode (c :: r) = (decode r).map (c.toNat :: ·) := by
  rw [decode.eq_4 c r (fun _ _ _ _ _ h _ => hc h) (fun _ _ h _ => hc h), if_neg (not_or.2 ⟨hc, hn⟩)]

/-- A character is decoded to its code point. -/
theorem decode_encodeChar (c : Char) (r : List Char) : decode (encodeChar c ++ r) = (decode r).map (c.toNat :: ·) := by
  unfold encodeChar
  -- the letters that escapes have
  iterate 7
    split
    · subst_vars
      exact decode_letter rfl (by decide) r
  split
  · rename_i h
    rw [hexDigits_four]
    exact decode_point (hexPoint?_digits (by omega)) r
  · rename_i hslash _ _ _ _ _ h
    exact decode_bare hslash h r

/-- **The inside of a string is decoded to the code points of the string.** -/
theorem decode_encode (cs : List Char) : decode (encode cs) = some (cs.map Char.toNat) := by
  induction cs with
  | nil => rfl
  | cons c cs ih =>
    show decode (encodeChar c ++ encode cs) = _
    rw [decode_encodeChar, ih]
    rfl

theorem encodeChar_of_isDigit {c : Char} (h : c.isDigit = true) : encodeChar c = [c] := by
  have hne {d : Char} (hd : d.isDigit = false) : c ≠ d := by
    rintro rfl
    rw [h] at hd
    cases hd
  have hn : ¬c.toNat < 32 := by
    have h48 : 48 ≤ c.toNat := (Char.isDigit_iff_toNat.1 h).1
    omega
  unfold encodeChar
  rw [if_neg (hne (by decide)), if_neg (hne (by decide)), if_neg (hne (by decide)), if_neg (hne (by decide)),
    if_neg (hne (by decide)), if_neg (hne (by decide)), if_neg (hne (by decide)), if_neg hn]

/-- Digits need no escapes. -/
theorem encode_of_isDigit {cs : List Char} (h : ∀ c ∈ cs, c.isDigit = true) : encode cs = cs := by
  induction cs with
  | nil => rfl
  | cons c cs ih =>
    show encodeChar c ++ encode cs = _
    rw [encodeChar_of_isDigit (h c List.mem_cons_self), ih fun d hd => h d (List.mem_cons_of_mem c hd)]
    rfl

/-! ## Code points -/

theorem not_surrogate (c : Char) : isLead c.toNat = false ∧ isTrail c.toNat = false := by
  have hc : c.toNat < 0xD800 ∨ 0xDFFF < c.toNat ∧ c.toNat < 0x110000 := c.valid
  unfold isLead isTrail
  simp only [Bool.and_eq_false_iff, decide_eq_false_iff_not]
  omega

/-- **The code points of a text are that text.** -/
theorem ofPoints_map_toNat (cs : List Char) : ofPoints (cs.map Char.toNat) = some cs := by
  induction cs with
  | nil => rfl
  | cons c cs ih =>
    obtain ⟨hlead, htrail⟩ := not_surrogate c
    rw [List.map_cons, ofPoints.eq_def]
    simp only [hlead, htrail, ih, Char.ofNat_toNat]
    rfl

end BusNode.Text
