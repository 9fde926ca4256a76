import BusNode.Code.Literal
import BusNode.Proofs.Json.Numeral
/-!
# What an integer literal means to a compiler

The literals of integers are constant expressions, which are read and evaluated here as the language has it:

* `IntegerExpr` — a constant with a suffix, after a minus if need be, or a difference in parentheses, and its grammar
  (`IntegerExpr.parse?`);
* `Platform` — the widths of the integer types of a compiler with two's complement, and what an expression comes to
  there (`Platform.eval`): a result that its signed type does not hold has no value;
* `integer_literal_denotes` — the literal of an integer comes to this integer on every platform.

The digits of each constant are in the range that the language guarantees for its suffix, so that its type is the first
one of the suffix whatever the platform is.
-/

namespace BusNode

/-! ## Grammar -/

inductive IntegerSuffix where
  | none | u | l | ul | ll | ull
  deriving DecidableEq, Repr

namespace IntegerSuffix

def all : List IntegerSuffix := [.none, .u, .l, .ul, .ll, .ull]

def text : IntegerSuffix → String
  | .none => ""
  | .u => "U"
  | .l => "L"
  | .ul => "UL"
  | .ll => "LL"
  | .ull => "ULL"

/-- The greatest constant with the suffix that has the first type of the suffix on every platform. -/
def guaranteed : IntegerSuffix → Nat
  | .none => 2 ^ 15 - 1
  | .u => 2 ^ 16 - 1
  | .l => 2 ^ 31 - 1
  | .ul => 2 ^ 32 - 1
  | .ll => 2 ^ 63 - 1
  | .ull => 2 ^ 64 - 1

end IntegerSuffix

/-- Decimal digits with a suffix. -/
structure IntegerConstant where
  value : Nat
  suffix : IntegerSuffix
  deriving DecidableEq, Repr

/-- A constant, after a minus if it is negative. -/
structure IntegerTerm where
  negative : Bool
  constant : IntegerConstant
  deriving DecidableEq, Repr

inductive IntegerExpr where
  | term (t : IntegerTerm)
  /-- A difference in parentheses. -/
  | difference (t : IntegerTerm) (c : IntegerConstant)
  deriving DecidableEq, Repr

/-- A constant at the start of a text, and the rest of the text. Digits that start with a zero are not decimal. -/
def IntegerConstant.read? (cs : List Char) : Option (IntegerConstant × List Char) := do
  let (ds, r) := cs.span Char.isDigit
  if !Numeral.canonicalWhole ds then none
  let (letters, r) := r.span Char.isAlpha
  let suffix ← IntegerSuffix.all.find? (·.text.toList = letters)
  return (⟨digitsValue ds, suffix⟩, r)

def IntegerTerm.read? : List Char → Option (IntegerTerm × List Char)
  | '-' :: r => (IntegerConstant.read? r).map fun (c, r) => (⟨true, c⟩, r)
  | cs => (IntegerConstant.read? cs).map fun (c, r) => (⟨false, c⟩, r)

namespace IntegerExpr

def parse? : List Char → Option IntegerExpr
  | '(' :: cs =>
    match IntegerTerm.read? cs with
    | some (t, '-' :: r) =>
      match IntegerConstant.read? r with
      | some (c, [')']) => some (.difference t c)
      | _ => none
    | _ => none
  | cs =>
    match IntegerTerm.read? cs with
    | some (t, []) => some (.term t)
    | _ => none

def constants : IntegerExpr → List IntegerConstant
  | .term t => [t.constant]
  | .difference t c => [t.constant, c]

/-- How an integer of a type with a least value is written: the least one as a difference, any other one as its digits
after its sign. -/
def ofInt (least? : Option Int) (suffix : IntegerSuffix) (i : Int) : IntegerExpr :=
  if least? = some i then .difference ⟨true, (i + 1).natAbs, suffix⟩ ⟨1, suffix⟩
  else .term ⟨decide (i < 0), i.natAbs, suffix⟩

end IntegerExpr

/-! ## Platforms -/

inductive IntegerRank where
  | int | long | longLong
  deriving DecidableEq, Repr

namespace IntegerRank

def all : List IntegerRank := [.int, .long, .longLong]

def order : IntegerRank → Nat
  | .int => 0
  | .long => 1
  | .longLong => 2

end IntegerRank

structure IntegerType where
  signed : Bool
  rank : IntegerRank
  deriving DecidableEq, Repr

namespace IntegerSuffix

/-- The first type of the suffix. -/
def type : IntegerSuffix → IntegerType
  | .none => ⟨true, .int⟩
  | .u => ⟨false, .int⟩
  | .l => ⟨true, .long⟩
  | .ul => ⟨false, .long⟩
  | .ll => ⟨true, .longLong⟩
  | .ull => ⟨false, .longLong⟩

/-- The types that a constant with the suffix may have, of which it has the first one that holds it. -/
def types (s : IntegerSuffix) : List IntegerType :=
  (IntegerRank.all.filter (s.type.rank.order ≤ ·.order)).map (⟨s.type.signed, ·⟩)

end IntegerSuffix

/-- The bits of the integer types. -/
structure Platform where
  width : IntegerRank → Nat
  le_int : 16 ≤ width .int
  le_long : 32 ≤ width .long
  le_longLong : 64 ≤ width .longLong
  int_le_long : width .int ≤ width .long
  long_le_longLong : width .long ≤ width .longLong

/-- An integer with its type. -/
structure TypedInteger where
  type : IntegerType
  value : Int
  deriving DecidableEq, Repr

namespace Platform

variable (P : Platform)

def least (t : IntegerType) : Int := if t.signed then -2 ^ (P.width t.rank - 1) else 0

def greatest (t : IntegerType) : Int := if t.signed then 2 ^ (P.width t.rank - 1) - 1 else 2 ^ P.width t.rank - 1

def Holds (t : IntegerType) (i : Int) : Prop := P.least t ≤ i ∧ i ≤ P.greatest t

instance (t : IntegerType) (i : Int) : Decidable (P.Holds t i) := inferInstanceAs (Decidable (_ ∧ _))

/-- A result of a type: a signed type must hold it, an unsigned one counts in a circle. -/
def result? (t : IntegerType) (i : Int) : Option TypedInteger :=
  if P.Holds t i then some ⟨t, i⟩
  else if t.signed then none
  else some ⟨t, i % 2 ^ P.width t.rank⟩

/-- The type to which two operands are brought. -/
def common (s t : IntegerType) : IntegerType :=
  if s.signed = t.signed then (if s.rank.order ≤ t.rank.order then t else s)
  else
    let (u, g) := if s.signed then (t, s) else (s, t)
    if g.rank.order ≤ u.rank.order then u
    else if P.width u.rank < P.width g.rank then g
    else ⟨false, g.rank⟩

def constant? (c : IntegerConstant) : Option TypedInteger :=
  (c.suffix.types.find? fun t => P.Holds t c.value).map (⟨·, c.value⟩)

def term? (t : IntegerTerm) : Option TypedInteger := do
  let v ← P.constant? t.constant
  if t.negative then P.result? v.type (-v.value) else some v

/-- What an expression comes to, if all results on the way have a value. -/
def eval : IntegerExpr → Option TypedInteger
  | .term t => P.term? t
  | .difference t c => do
    let v ← P.term? t
    let w ← P.constant? c
    let s := P.common v.type w.type
    let v ← P.result? s v.value
    let w ← P.result? s w.value
    P.result? s (v.value - w.value)

/-- The one with the least widths. -/
def narrow : Platform where
  width
    | .int => 16
    | .long => 32
    | .longLong => 64
  le_int := Nat.le_refl _
  le_long := Nat.le_refl _
  le_longLong := Nat.le_refl _
  int_le_long := by decide
  long_le_longLong := by decide

end Platform

/-! ## Reading -/

/-- A constant ends where no digit or letter follows. -/
def EndsConstant (r : List Char) : Prop := ∀ c ∈ r.head?, c.isDigit = false ∧ c.isAlpha = false

namespace IntegerSuffix

theorem isAlpha_text (s : IntegerSuffix) : ∀ c ∈ s.text.toList, c.isAlpha = true := by
  have hall : s.text.toList.all Char.isAlpha = true := by cases s <;> rfl
  exact List.all_eq_true.1 hall

theorem find?_text (s : IntegerSuffix) : all.find? (·.text.toList = s.text.toList) = some s := by
  cases s <;> rfl

/-- No digit follows the digits of a constant, be it a letter of the suffix or what ends the constant. -/
theorem isDigit_head?_append (s : IntegerSuffix) {r : List Char} (hr : EndsConstant r) :
    ∀ c ∈ (s.text.toList ++ r).head?, c.isDigit = false := by
  intro c hc
  cases s with
  | none => exact (hr c hc).1
  | _ =>
    cases hc
    rfl

end IntegerSuffix

namespace IntegerConstant

/-- The digits of a constant and its suffix. -/
def chars (c : IntegerConstant) : List Char := Nat.toDigits 10 c.value ++ c.suffix.text.toList

theorem read?_chars (c : IntegerConstant) {r : List Char} (hr : EndsConstant r) :
    read? (c.chars ++ r) = some (c, r) := by
  have hletters : (c.suffix.text.toList ++ r).span Char.isAlpha = (c.suffix.text.toList, r) :=
    Numeral.span_append c.suffix.isAlpha_text fun d hd => (hr d hd).2
  have hdigits : (c.chars ++ r).span Char.isDigit = (Nat.toDigits 10 c.value, c.suffix.text.toList ++ r) := by
    unfold chars
    rw [List.append_assoc]
    exact Numeral.span_append (isDigit_toDigits c.value) (c.suffix.isDigit_head?_append hr)
  unfold read?
  rw [hdigits]
  simp only [Numeral.canonicalWhole_toDigits, hletters, c.suffix.find?_text, digitsValue_toDigits]
  rfl

/-- A constant starts with a digit. -/
theorem exists_chars_eq_cons (c : IntegerConstant) : ∃ d cs, c.chars = d :: cs ∧ d.isDigit = true := by
  unfold chars
  cases hds : Nat.toDigits 10 c.value with
  | nil => exact absurd hds Nat.toDigits_ne_nil
  | cons d ds => exact ⟨d, _, rfl, isDigit_toDigits c.value d (hds ▸ List.mem_cons_self)⟩

end IntegerConstant

namespace IntegerTerm

/-- A constant after a minus if it is negative. -/
def chars (t : IntegerTerm) : List Char := (if t.negative then ['-'] else []) ++ t.constant.chars

/-- A term starts with a digit or a minus. -/
theorem exists_chars_eq_cons (t : IntegerTerm) : ∃ d cs, t.chars = d :: cs ∧ d ≠ '(' := by
  obtain ⟨negative, c⟩ := t
  cases negative with
  | true => exact ⟨'-', _, rfl, by decide⟩
  | false =>
    obtain ⟨d, cs, hcs, hd⟩ := c.exists_chars_eq_cons
    refine ⟨d, cs, hcs, ?_⟩
    rintro rfl
    cases hd

theorem read?_chars (t : IntegerTerm) {r : List Char} (hr : EndsConstant r) : read? (t.chars ++ r) = some (t, r) := by
  obtain ⟨negative, c⟩ := t
  have hread := c.read?_chars hr
  cases negative with
  | true =>
    show (IntegerConstant.read? (c.chars ++ r)).map _ = _
    rw [hread]
    rfl
  | false =>
    obtain ⟨d, cs, hcs, hd⟩ := c.exists_chars_eq_cons
    have hsign : ∀ s, c.chars ++ r ≠ '-' :: s := by
      intro s hs
      rw [hcs] at hs
      obtain rfl := (List.cons.inj hs).1
      cases hd
    show read? (c.chars ++ r) = _
    rw [read?.eq_2 _ hsign, hread]
    rfl

end IntegerTerm

namespace IntegerExpr

def chars : IntegerExpr → List Char
  | .term t => t.chars
  | .difference t c => '(' :: (t.chars ++ '-' :: (c.chars ++ [')']))

/-- **An expression is read back from its text.** -/
theorem parse?_chars (e : IntegerExpr) : parse? e.chars = some e := by
  cases e with
  | term t =>
    obtain ⟨d, cs, hcs, hd⟩ := t.exists_chars_eq_cons
    have hread := t.read?_chars (r := []) nofun
    rw [List.append_nil] at hread
    have hterm : ∀ s, t.chars ≠ '(' :: s := by
      intro s hs
      rw [hcs] at hs
      exact hd (List.cons.inj hs).1
    show parse? t.chars = _
    rw [parse?.eq_2 _ hterm, hread]
  | difference t c =>
    have hminus : EndsConstant ('-' :: (c.chars ++ [')'])) := by
      intro d hd
      cases hd
      decide
    have hparen : EndsConstant [')'] := by
      intro d hd
      cases hd
      decide
    show (match IntegerTerm.read? (t.chars ++ '-' :: (c.chars ++ [')'])) with
      | some (t, '-' :: r) =>
        match IntegerConstant.read? r with
        | some (c, [')']) => some (IntegerExpr.difference t c)
        | _ => none
      | _ => none) = _
    rw [t.read?_chars hminus]
    simp only [c.read?_chars hparen]

end IntegerExpr

/-! ## Values -/

/-- An integer that the constants of a suffix stand for on every platform: the first type of the suffix always holds its
digits, and a difference is written where it would not. -/
structure IntegerSuffix.Covers (s : IntegerSuffix) (least? : Option Int) (i : Int) : Prop where
  signed : i < 0 → s.type.signed = true
  lower : -(s.guaranteed + 1) ≤ i
  upper : i ≤ s.guaranteed
  negative : least? = some i → i < 0
  least : least? ≠ some i → -s.guaranteed ≤ i

namespace Platform

variable {P : Platform} {s : IntegerSuffix} {least? : Option Int} {i : Int}

theorem two_pow_le {m n : Nat} (h : m ≤ n) : (2 : Int) ^ m ≤ 2 ^ n := by
  exact_mod_cast Nat.pow_le_pow_right (by decide) h

/-- The first type of a suffix holds the range of the suffix, and one value more below it. -/
theorem guaranteed_le_greatest (P : Platform) (s : IntegerSuffix) : (s.guaranteed : Int) ≤ P.greatest s.type := by
  have hint := P.le_int
  have hlong := P.le_long
  have hlongLong := P.le_longLong
  cases s with
  | none => exact Int.sub_le_sub_right (two_pow_le (m := 15) (n := P.width .int - 1) (by omega)) 1
  | u => exact Int.sub_le_sub_right (two_pow_le (m := 16) hint) 1
  | l => exact Int.sub_le_sub_right (two_pow_le (m := 31) (n := P.width .long - 1) (by omega)) 1
  | ul => exact Int.sub_le_sub_right (two_pow_le (m := 32) hlong) 1
  | ll => exact Int.sub_le_sub_right (two_pow_le (m := 63) (n := P.width .longLong - 1) (by omega)) 1
  | ull => exact Int.sub_le_sub_right (two_pow_le (m := 64) hlongLong) 1

theorem least_eq_of_signed {t : IntegerType} (h : t.signed = true) : P.least t = -(P.greatest t + 1) := by
  unfold least greatest
  rw [if_pos h, if_pos h]
  omega

theorem least_le_zero (t : IntegerType) : P.least t ≤ 0 := by
  unfold least
  split
  · have := two_pow_le (Nat.zero_le (P.width t.rank - 1))
    omega
  · exact Int.le_refl 0

theorem holds_of_natAbs_le {i : Int} (hi : i.natAbs ≤ s.guaranteed) (hsigned : i < 0 → s.type.signed = true) :
    P.Holds s.type i := by
  have hgreatest := P.guaranteed_le_greatest s
  refine ⟨?_, by omega⟩
  by_cases hneg : i < 0
  · rw [least_eq_of_signed (hsigned hneg)]
    omega
  · have := P.least_le_zero s.type
    omega

theorem result?_of_holds {t : IntegerType} (h : P.Holds t i) : P.result? t i = some ⟨t, i⟩ := if_pos h

/-- A constant in the range of its suffix has the first type of it. -/
theorem constant?_of_le {c : IntegerConstant} (h : c.value ≤ c.suffix.guaranteed) :
    P.constant? c = some ⟨c.suffix.type, c.value⟩ := by
  have hholds : P.Holds c.suffix.type c.value := holds_of_natAbs_le (by omega) (by omega)
  have hfirst : c.suffix.types.find? (fun t => P.Holds t c.value) = some c.suffix.type := by
    have htypes : ∃ rest, c.suffix.types = c.suffix.type :: rest := by
      cases c.suffix <;> exact ⟨_, rfl⟩
    obtain ⟨rest, hrest⟩ := htypes
    rw [hrest]
    exact List.find?_cons_of_pos (by simpa using hholds)
  unfold constant?
  rw [hfirst, Option.map_some]

theorem common_self (t : IntegerType) : P.common t t = t := by
  unfold common
  rw [if_pos rfl, if_pos (Nat.le_refl _)]

theorem term?_of_le {t : IntegerTerm} (h : t.constant.value ≤ t.constant.suffix.guaranteed)
    (hsigned : t.negative = true → t.constant.suffix.type.signed = true) :
    P.term? t = some ⟨t.constant.suffix.type, if t.negative then -(t.constant.value : Int) else t.constant.value⟩ := by
  unfold term?
  rw [constant?_of_le h]
  cases hnegative : t.negative with
  | true =>
    exact result?_of_holds (i := -(t.constant.value : Int)) (holds_of_natAbs_le (by omega) fun _ => hsigned hnegative)
  | false => rfl

/-- **An integer that is written with its suffix has its value and the type of the suffix**, whatever the platform. -/
theorem eval_ofInt (h : s.Covers least? i) : P.eval (.ofInt least? s i) = some ⟨s.type, i⟩ := by
  have hlower := h.lower
  have hupper := h.upper
  unfold IntegerExpr.ofInt
  split
  · rename_i hleast
    have hneg := h.negative hleast
    have hsigned := h.signed hneg
    have hone : 1 ≤ s.guaranteed := by cases s <;> decide
    have hterm : P.term? ⟨true, (i + 1).natAbs, s⟩ = some ⟨s.type, i + 1⟩ := by
      rw [term?_of_le (show (i + 1).natAbs ≤ s.guaranteed by omega) fun _ => hsigned]
      simp only [if_true, Option.some.injEq, TypedInteger.mk.injEq, true_and]
      omega
    have hconstant : P.constant? ⟨1, s⟩ = some ⟨s.type, 1⟩ := constant?_of_le hone
    have hnext : P.result? s.type (i + 1) = some ⟨s.type, i + 1⟩ :=
      result?_of_holds (holds_of_natAbs_le (by omega) fun _ => hsigned)
    have hunit : P.result? s.type 1 = some ⟨s.type, 1⟩ :=
      result?_of_holds (holds_of_natAbs_le hone (by omega))
    -- the least value is the one that a type with two's complement has below the range of the suffix
    have hresult : P.result? s.type (i + 1 - 1) = some ⟨s.type, i⟩ := by
      rw [Int.add_sub_cancel]
      have hgreatest := P.guaranteed_le_greatest s
      refine result?_of_holds ⟨?_, by omega⟩
      rw [least_eq_of_signed hsigned]
      omega
    unfold eval
    simp only [hterm, hconstant, Option.bind_eq_bind, Option.bind_some, common_self, hnext, hunit, hresult]
  · rename_i hleast
    have hlower := h.least hleast
    have hterm := term?_of_le (P := P) (t := ⟨decide (i < 0), i.natAbs, s⟩) (show i.natAbs ≤ s.guaranteed by omega)
      fun hneg => h.signed (of_decide_eq_true hneg)
    refine hterm.trans ?_
    simp only [decide_eq_true_eq, Option.some.injEq, TypedInteger.mk.injEq, true_and]
    split <;> omega

end Platform

theorem IntegerExpr.constants_ofInt {s : IntegerSuffix} {least? : Option Int} {i : Int} (h : s.Covers least? i) :
    ∀ c ∈ (ofInt least? s i).constants, c.value ≤ c.suffix.guaranteed := by
  have hlower := h.lower
  have hupper := h.upper
  unfold ofInt
  split
  · rename_i hleast
    have hneg := h.negative hleast
    have hone : 1 ≤ s.guaranteed := by cases s <;> decide
    have hdigits : (i + 1).natAbs ≤ s.guaranteed := by omega
    exact List.forall_mem_cons.2 ⟨hdigits, List.forall_mem_singleton.2 hone⟩
  · rename_i hleast
    have hlower := h.least hleast
    have hdigits : i.natAbs ≤ s.guaranteed := by omega
    exact List.forall_mem_singleton.2 hdigits

/-! ## Literals -/

/-- The integer that a value is, if it is of an integer type. -/
def Scalar.integer? : Scalar → Option Int
  | .u8 v => some v.toNat
  | .s8 v => some v.toInt
  | .u16 v => some v.toNat
  | .s16 v => some v.toInt
  | .u32 v => some v.toNat
  | .s32 v => some v.toInt
  | .u64 v => some v.toNat
  | .s64 v => some v.toInt
  | .f32 _ | .f64 _ => none

namespace ScalarType

/-- The least value of a signed type. -/
def least? : ScalarType → Option Int
  | .s8 => some (-2 ^ 7)
  | .s16 => some (-2 ^ 15)
  | .s32 => some (-2 ^ 31)
  | .s64 => some (-2 ^ 63)
  | _ => none

/-- The suffix of the literals of an integer type. -/
def suffix : ScalarType → IntegerSuffix
  | .u8 | .u16 => .u
  | .u32 => .ul
  | .u64 => .ull
  | .s32 => .l
  | .s64 => .ll
  | _ => .none

end ScalarType

namespace Literal

variable {s : IntegerSuffix} {i least : Int}

theorem toList_unsigned (n : Nat) (s : IntegerSuffix) :
    (unsigned n s.text).toList = (IntegerExpr.ofInt none s n).chars := by
  unfold unsigned
  rw [String.toList_append, toList_decimal]
  rfl

theorem toList_decimalInt_append (i : Int) (s : IntegerSuffix) :
    (decimalInt i ++ s.text).toList = (⟨decide (i < 0), i.natAbs, s⟩ : IntegerTerm).chars := by
  rw [String.toList_append, toList_decimalInt, List.append_assoc]
  simp only [IntegerTerm.chars, IntegerConstant.chars, decide_eq_true_eq]

theorem toList_signed (hleast : least < -1) :
    (signed i least s.text).toList = (IntegerExpr.ofInt (some least) s i).chars := by
  unfold signed IntegerExpr.ofInt
  by_cases h : i = least
  · have hneg : decide (i + 1 < 0) = true := decide_eq_true (by omega)
    have hterm := toList_decimalInt_append (i + 1) s
    rw [hneg] at hterm
    rw [if_pos h, if_pos (by rw [h])]
    show ("(" ++ decimalInt (i + 1) ++ s.text ++ "-1" ++ s.text ++ ")").toList =
      '(' :: ((⟨true, (i + 1).natAbs, s⟩ : IntegerTerm).chars ++ '-' :: ((⟨1, s⟩ : IntegerConstant).chars ++ [')']))
    rw [← hterm]
    simp only [String.toList_append, IntegerConstant.chars, List.append_assoc]
    rfl
  · rw [if_neg h, if_neg fun hsome => h (Option.some.inj hsome).symm]
    exact toList_decimalInt_append i s

end Literal

namespace Scalar

variable {v w : Scalar} {i : Int}

/-- How the literal of an integer is made. -/
inductive Writes (v : Scalar) (i : Int) : Prop
  | unsigned {n : Nat} (hi : i = n) (hn : n ≤ v.type.suffix.guaranteed) (hleast : v.type.least? = none)
    (h : Literal.scalar v = .ok (Literal.unsigned n v.type.suffix.text))
  | signed {k : Nat} (hsigned : v.type.suffix.type.signed = true) (hk : k ≠ 0)
    (hrange : 2 ^ k ≤ v.type.suffix.guaranteed + 1) (hlower : -2 ^ k ≤ i) (hupper : i < 2 ^ k)
    (hleast : v.type.least? = some (-2 ^ k))
    (h : Literal.scalar v = .ok (Literal.signed i (-2 ^ k) v.type.suffix.text))

theorem writes_integer? (h : v.integer? = some i) : v.Writes i := by
  cases v with
  | u8 v =>
    have hn := v.toNat_lt
    cases h
    exact .unsigned rfl (show v.toNat ≤ 2 ^ 16 - 1 by omega) rfl rfl
  | u16 v =>
    have hn := v.toNat_lt
    cases h
    exact .unsigned rfl (show v.toNat ≤ 2 ^ 16 - 1 by omega) rfl rfl
  | u32 v =>
    have hn := v.toNat_lt
    cases h
    exact .unsigned rfl (show v.toNat ≤ 2 ^ 32 - 1 by omega) rfl rfl
  | u64 v =>
    have hn := v.toNat_lt
    cases h
    exact .unsigned rfl (show v.toNat ≤ 2 ^ 64 - 1 by omega) rfl rfl
  | s8 v =>
    cases h
    have hrange : 2 ^ 7 ≤ IntegerSuffix.guaranteed .none + 1 := by decide
    exact .signed rfl (by decide) hrange v.le_toInt v.toInt_lt rfl rfl
  | s16 v =>
    cases h
    have hrange : 2 ^ 15 ≤ IntegerSuffix.guaranteed .none + 1 := by decide
    exact .signed rfl (by decide) hrange v.le_toInt v.toInt_lt rfl rfl
  | s32 v =>
    cases h
    have hrange : 2 ^ 31 ≤ IntegerSuffix.guaranteed .l + 1 := by decide
    exact .signed rfl (by decide) hrange v.le_toInt v.toInt_lt rfl rfl
  | s64 v =>
    cases h
    have hrange : 2 ^ 63 ≤ IntegerSuffix.guaranteed .ll + 1 := by decide
    exact .signed rfl (by decide) hrange v.le_toInt v.toInt_lt rfl rfl
  | f32 v => cases h
  | f64 v => cases h

/-- The range of a type is in that of its suffix, the least value aside. -/
theorem Writes.covers (h : v.Writes i) : v.type.suffix.Covers v.type.least? i := by
  cases h with
  | unsigned hi hn hleast =>
    rw [hleast]
    exact ⟨by omega, by omega, by omega, nofun, by omega⟩
  | @signed k hsigned hk hrange hlower hupper hleast =>
    have hpositive : 0 < 2 ^ k := Nat.two_pow_pos k
    have hcast : (2 : Int) ^ k = (2 ^ k : Nat) := by norm_cast
    rw [hleast]
    refine ⟨fun _ => hsigned, by omega, by omega, fun hi => ?_, fun hi => ?_⟩
    · have := Option.some.inj hi
      omega
    · have : -2 ^ k ≠ i := fun heq => hi (congrArg some heq)
      omega

theorem Writes.toList_scalar (h : v.Writes i) :
    ∃ text, Literal.scalar v = .ok text ∧ text.toList = (IntegerExpr.ofInt v.type.least? v.type.suffix i).chars := by
  cases h with
  | @unsigned n hi hn hleast h =>
    refine ⟨_, h, ?_⟩
    rw [hleast, hi]
    exact Literal.toList_unsigned n _
  | @signed k hsigned hk hrange hlower hupper hleast h =>
    refine ⟨_, h, ?_⟩
    rw [hleast]
    refine Literal.toList_signed ?_
    have hpow : 2 ^ 1 ≤ 2 ^ k := Nat.pow_le_pow_right (by decide) (Nat.one_le_iff_ne_zero.2 hk)
    have hcast : (2 : Int) ^ k = (2 ^ k : Nat) := by norm_cast
    omega

theorem exists_integer?_of_type (htype : w.type = v.type) (h : v.integer? = some i) : ∃ j, w.integer? = some j := by
  cases w with
  | f32 w => cases v <;> cases htype; cases h
  | f64 w => cases v <;> cases htype; cases h
  | _ => exact ⟨_, rfl⟩

theorem eq_of_integer? (htype : w.type = v.type) (hv : v.integer? = some i) (hw : w.integer? = some i) : w = v := by
  cases v <;> cases w <;> cases htype <;> cases hv <;> injection hw with hw
  · exact congrArg Scalar.u8 (UInt8.toNat_inj.1 (Int.ofNat.inj hw))
  · exact congrArg Scalar.s8 (Int8.toInt_inj.1 hw)
  · exact congrArg Scalar.u16 (UInt16.toNat_inj.1 (Int.ofNat.inj hw))
  · exact congrArg Scalar.s16 (Int16.toInt_inj.1 hw)
  · exact congrArg Scalar.u32 (UInt32.toNat_inj.1 (Int.ofNat.inj hw))
  · exact congrArg Scalar.s32 (Int32.toInt_inj.1 hw)
  · exact congrArg Scalar.u64 (UInt64.toNat_inj.1 (Int.ofNat.inj hw))
  · exact congrArg Scalar.s64 (Int64.toInt_inj.1 hw)

end Scalar

namespace Literal

/-- **An integer literal means its value in C.** It is a constant expression with the suffix of the type, the least
value of a signed type as a difference; no constant in it is beyond the range of its suffix, so that on every platform it
comes to the value without overflow; and no other value of the type has it. -/
theorem integer_literal_denotes (v : Scalar) (i : Int) (h : v.integer? = some i) :
    ∃ text e, scalar v = .ok text ∧ IntegerExpr.parse? text.toList = some e ∧
      e = .ofInt v.type.least? v.type.suffix i ∧
      (∀ c ∈ e.constants, c.value ≤ c.suffix.guaranteed) ∧
      (∀ P : Platform, P.eval e = some ⟨v.type.suffix.type, i⟩) ∧
      ∀ w : Scalar, w.type = v.type → scalar w = .ok text → w = v := by
  obtain ⟨text, htext, hchars⟩ := (Scalar.writes_integer? h).toList_scalar
  have hcovers := (Scalar.writes_integer? h).covers
  have hparse : IntegerExpr.parse? text.toList = some (.ofInt v.type.least? v.type.suffix i) := by
    rw [hchars, IntegerExpr.parse?_chars]
  refine ⟨text, _, htext, hparse, rfl, IntegerExpr.constants_ofInt hcovers, fun P => Platform.eval_ofInt hcovers, ?_⟩
  intro w htype hw
  obtain ⟨j, hj⟩ := Scalar.exists_integer?_of_type htype h
  obtain ⟨text', htext', hchars'⟩ := (Scalar.writes_integer? hj).toList_scalar
  obtain rfl : text = text' := Except.ok.inj (hw.symm.trans htext')
  -- the same text comes to both integers
  have hparse' : IntegerExpr.parse? text.toList = some (.ofInt w.type.least? w.type.suffix j) := by
    rw [hchars', IntegerExpr.parse?_chars]
  have heval := Platform.narrow.eval_ofInt (Scalar.writes_integer? hj).covers
  rw [← Option.some.inj (hparse.symm.trans hparse'), Platform.eval_ofInt hcovers] at heval
  obtain rfl : i = j := congrArg TypedInteger.value (Option.some.inj heval)
  exact Scalar.eq_of_integer? htype h hj

/-- The least value of all is a difference, of which both parts are in range. -/
theorem integer_literal_denotes_least : Scalar.integer? (.s64 Int64.minValue) = some (-2 ^ 63) ∧
    ∃ text e, scalar (.s64 Int64.minValue) = .ok text ∧ IntegerExpr.parse? text.toList = some e ∧
      e = .difference ⟨true, 2 ^ 63 - 1, .ll⟩ ⟨1, .ll⟩ ∧
      ∀ P : Platform, P.eval e = some ⟨⟨true, .longLong⟩, -2 ^ 63⟩ := by
  have h : Scalar.integer? (.s64 Int64.minValue) = some (-2 ^ 63) := rfl
  obtain ⟨text, e, htext, hparse, he, -, heval, -⟩ := integer_literal_denotes (.s64 Int64.minValue) (-2 ^ 63) h
  exact ⟨h, text, e, htext, hparse, he, heval⟩

end Literal

end BusNode
