import BusNode.Json.Numeral
import BusNode.Proofs.Text.Digit
import Mathlib.Data.List.TakeDrop
/-!
# The grammar of numbers

* `Numeral.chars` — a number spelt from its parts, `Numeral.IsSpelt` — what the grammar wants of them;
* `Numeral.parse?_chars` — the parts of a number that is spelt so are read back;
* `Numeral.parse?_decimal`, `Numeral.parse?_decimalInt` — whole numbers in particular;
* `Numeral.Spells` — a text that is a number.
-/

namespace BusNode.Numeral

/-! ## Spelling -/

/-- An exponent; `plus` says whether a positive one gets its sign. -/
def exponentChars (plus : Bool) : Option (Bool × List Char) → List Char
  | none => []
  | some (negative, ds) => 'e' :: (if negative then ['-'] else if plus then ['+'] else []) ++ ds

/-- A number from its parts. -/
def chars (plus : Bool) (n : Numeral) : List Char :=
  (if n.negative then ['-'] else []) ++ n.whole ++ (if n.fraction.isEmpty then [] else '.' :: n.fraction) ++
    exponentChars plus n.exponent

/-- The parts are digits, the whole without a leading zero. -/
structure IsSpelt (n : Numeral) : Prop where
  whole : ∀ c ∈ n.whole, c.isDigit = true
  canonical : canonicalWhole n.whole = true
  fraction : ∀ c ∈ n.fraction, c.isDigit = true
  exponent : ∀ e, n.exponent = some e → e.2 ≠ [] ∧ ∀ c ∈ e.2, c.isDigit = true

/-! ## Reading -/

/-- What has a property is read up to the first character that does not have it. -/
theorem span_append {p : Char → Bool} {ds r : List Char} (hds : ∀ c ∈ ds, p c = true)
    (hr : ∀ c ∈ r.head?, p c = false) : (ds ++ r).span p = (ds, r) := by
  rw [List.span_eq_takeWhile_dropWhile, List.takeWhile_append_of_pos hds, List.dropWhile_append_of_pos hds]
  cases r with
  | nil => rw [List.takeWhile_nil, List.append_nil, List.dropWhile_nil]
  | cons c r =>
    have hc : p c = false := hr c rfl
    rw [List.takeWhile_cons_of_neg (by simp [hc]), List.dropWhile_cons_of_neg (by simp [hc]), List.append_nil]

theorem exponent?_exponentChars (plus : Bool) {e : Option (Bool × List Char)}
    (he : ∀ d, e = some d → d.2 ≠ [] ∧ ∀ c ∈ d.2, c.isDigit = true) :
    exponent? (exponentChars plus e) = some e := by
  cases e with
  | none => rfl
  | some d =>
    obtain ⟨negative, ds⟩ := d
    obtain ⟨hne, hds⟩ := he _ rfl
    have hds' : (!ds.isEmpty && ds.all Char.isDigit) = true := by
      rw [Bool.and_eq_true, List.all_eq_true]
      exact ⟨by simpa using hne, hds⟩
    have hsign : ∀ c cs, ds = c :: cs → c ≠ '-' ∧ c ≠ '+' := by
      rintro c cs rfl
      have := hds c List.mem_cons_self
      constructor <;> rintro rfl <;> revert this <;> decide
    unfold exponentChars exponent?
    cases negative
    · cases plus
      · cases ds with
        | nil => exact absurd rfl hne
        | cons c cs =>
          obtain ⟨h1, h2⟩ := hsign c cs rfl
          simp [h1, h2] at hds' ⊢
          exact hds'
      · simpa using hds'
    · simpa using hds'

/-- An exponent does not start with a digit, nor with a point. -/
theorem head?_exponentChars (plus : Bool) (e : Option (Bool × List Char)) :
    ∀ c ∈ (exponentChars plus e).head?, c = 'e' := by
  intro c hc
  cases e with
  | none => cases hc
  | some d => exact (Option.some.inj hc).symm

/-- The parts of a number after its sign. -/
def unsigned? (negative : Bool) (cs : List Char) : Option Numeral := do
  let (whole, r) := cs.span Char.isDigit
  if !canonicalWhole whole then none
  match r with
  | '.' :: r =>
    let (fraction, r) := r.span Char.isDigit
    if fraction.isEmpty then none
    return ⟨negative, whole, fraction, ← exponent? r⟩
  | r => return ⟨negative, whole, [], ← exponent? r⟩

theorem parse?_negative (cs : List Char) : parse? ('-' :: cs) = unsigned? true cs := rfl

theorem parse?_positive {cs : List Char} (h : ∀ r, cs ≠ '-' :: r) : parse? cs = unsigned? false cs := by
  unfold parse?
  dsimp only
  split
  · exact absurd rfl (h _)
  · rfl

theorem unsigned?_whole {whole r : List Char} {e : Option (Bool × List Char)} (negative : Bool)
    (hwhole : ∀ c ∈ whole, c.isDigit = true) (hcanonical : canonicalWhole whole = true)
    (hr : ∀ c ∈ r.head?, c = 'e') (he : exponent? r = some e) :
    unsigned? negative (whole ++ r) = some ⟨negative, whole, [], e⟩ := by
  have hspan : (whole ++ r).span Char.isDigit = (whole, r) := by
    refine span_append hwhole fun c hc => ?_
    rw [hr c hc]
    decide
  unfold unsigned?
  rw [hspan]
  simp only [hcanonical]
  cases r with
  | nil =>
    rw [← Option.some.inj he]
    rfl
  | cons c r =>
    obtain rfl := hr c rfl
    show (do return (⟨negative, whole, [], ← exponent? ('e' :: r)⟩ : Numeral)) = _
    rw [he]
    rfl

theorem unsigned?_fraction {whole fraction r : List Char} {e : Option (Bool × List Char)} (negative : Bool)
    (hwhole : ∀ c ∈ whole, c.isDigit = true) (hcanonical : canonicalWhole whole = true)
    (hfraction : ∀ c ∈ fraction, c.isDigit = true) (hne : fraction ≠ []) (hr : ∀ c ∈ r.head?, c = 'e')
    (he : exponent? r = some e) :
    unsigned? negative (whole ++ '.' :: (fraction ++ r)) = some ⟨negative, whole, fraction, e⟩ := by
  have hspan : (whole ++ '.' :: (fraction ++ r)).span Char.isDigit = (whole, '.' :: (fraction ++ r)) := by
    refine span_append hwhole fun c hc => ?_
    rw [← Option.some.inj hc]
    decide
  have hspan' : (fraction ++ r).span Char.isDigit = (fraction, r) := by
    refine span_append hfraction fun c hc => ?_
    rw [hr c hc]
    decide
  have hne' : fraction.isEmpty = false := by simpa using hne
  unfold unsigned?
  rw [hspan]
  simp only [hcanonical, hspan', hne', he]
  rfl

/-- **A number that is spelt from its parts is read back.** -/
theorem parse?_chars {n : Numeral} (h : n.IsSpelt) (plus : Bool) : parse? (n.chars plus) = some n := by
  obtain ⟨negative, whole, fraction, exponent⟩ := n
  obtain ⟨hwhole, hcanonical, hfraction, hexponent⟩ := h
  dsimp only at hwhole hcanonical hfraction hexponent
  have hexp := exponent?_exponentChars plus hexponent
  have hhead := head?_exponentChars plus exponent
  have hbody : unsigned? negative (whole ++ ((if fraction.isEmpty then [] else '.' :: fraction) ++
      exponentChars plus exponent)) = some ⟨negative, whole, fraction, exponent⟩ := by
    cases fraction with
    | nil => exact unsigned?_whole negative hwhole hcanonical hhead hexp
    | cons f fs => exact unsigned?_fraction negative hwhole hcanonical hfraction (List.cons_ne_nil f fs) hhead hexp
  unfold chars
  rw [List.append_assoc, List.append_assoc]
  cases negative with
  | true => exact (parse?_negative _).trans hbody
  | false =>
    refine (parse?_positive fun r hr => ?_).trans hbody
    cases whole with
    | nil => cases hcanonical
    | cons w ws =>
      have := hwhole w List.mem_cons_self
      rw [(List.cons.inj hr).1] at this
      revert this
      decide

/-! ## Whole numbers -/

theorem canonicalWhole_toDigits (n : Nat) : canonicalWhole (Nat.toDigits 10 n) = true := by
  by_cases hn : n = 0
  · subst hn
    rw [Nat.toDigits_zero]
    rfl
  · have hhead := head_toDigits_ne_zero hn
    cases hds : Nat.toDigits 10 n with
    | nil => exact absurd hds Nat.toDigits_ne_nil
    | cons d ds =>
      simp only [hds, List.head_cons] at hhead
      unfold canonicalWhole
      split
      · cases ‹d :: ds = []›
      · exact absurd (List.cons.inj ‹d :: ds = _›).1 hhead
      · rfl

theorem isSpelt_signed (negative : Bool) (n : Nat) : (⟨negative, Nat.toDigits 10 n, [], none⟩ : Numeral).IsSpelt where
  whole := isDigit_toDigits n
  canonical := canonicalWhole_toDigits n
  fraction := fun _ hc => nomatch hc
  exponent := fun _ he => nomatch he

theorem chars_signed (negative plus : Bool) (n : Nat) :
    (⟨negative, Nat.toDigits 10 n, [], none⟩ : Numeral).chars plus =
      (if negative then ['-'] else []) ++ Nat.toDigits 10 n := by
  rw [chars, exponentChars, List.isEmpty_nil, if_pos rfl, List.append_nil, List.append_nil]

theorem parse?_signed (negative : Bool) (n : Nat) :
    parse? ((if negative then ['-'] else []) ++ Nat.toDigits 10 n) = some ⟨negative, Nat.toDigits 10 n, [], none⟩ := by
  rw [← chars_signed negative false]
  exact parse?_chars (isSpelt_signed negative n) false

theorem parse?_decimal (n : Nat) : parse? (BusNode.decimal n).toList = some ⟨false, Nat.toDigits 10 n, [], none⟩ := by
  rw [toList_decimal]
  exact parse?_signed false n

theorem parse?_decimalInt (i : Int) :
    parse? (decimalInt i).toList = some ⟨decide (i < 0), Nat.toDigits 10 i.natAbs, [], none⟩ := by
  rw [toList_decimalInt, ← parse?_signed]
  simp only [decide_eq_true_eq]

/-! ## Texts that are numbers -/

/-- The text spells a number. -/
def Spells (s : String) : Prop := ∃ (n : Numeral) (plus : Bool), n.IsSpelt ∧ s.toList = n.chars plus

theorem spells_decimal (n : Nat) : Spells (BusNode.decimal n) :=
  ⟨_, false, isSpelt_signed false n, (toList_decimal n).trans (chars_signed false false n).symm⟩

theorem spells_decimalInt (i : Int) : Spells (decimalInt i) := by
  refine ⟨_, false, isSpelt_signed (decide (i < 0)) i.natAbs, ?_⟩
  rw [toList_decimalInt, chars_signed]
  simp only [decide_eq_true_eq]

end BusNode.Numeral
