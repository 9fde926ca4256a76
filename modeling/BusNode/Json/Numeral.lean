import BusNode.Number.Decimal
import BusNode.Text.Digit
/-!
# Numbers in JSON

The grammar of a number (`Numeral.parse?`) and what a reader makes of one:

* `Numeral.natural?`, `Numeral.integer?` — whole numbers, written without fraction, exponent or a negative zero;
* `Numeral.double?` — the binary number that the reader computes from 64-bit digits and powers of ten, which is not
  always the nearest one;
* `doubleText`, `singleText` — how a finite number is written.
-/

namespace BusNode

/-- A number by its parts; an empty fraction stands for none. -/
structure Numeral where
  negative : Bool
  whole : List Char
  fraction : List Char
  /-- The sign (negative or not) and the digits of the exponent. -/
  exponent : Option (Bool × List Char)
  deriving DecidableEq, Repr

namespace Numeral

/-! ## Grammar -/

/-- Whether the digits of a whole number have no leading zero. -/
def canonicalWhole : List Char → Bool
  | [] => false
  | '0' :: r => r.isEmpty
  | _ :: _ => true

/-- The exponent at the end of a number. -/
def exponent? : List Char → Option (Option (Bool × List Char))
  | [] => some none
  | c :: r =>
    if c = 'e' ∨ c = 'E' then
      let (neg, ds) : Bool × List Char := match r with
        | '-' :: ds => (true, ds)
        | '+' :: ds => (false, ds)
        | ds => (false, ds)
      if !ds.isEmpty && ds.all Char.isDigit then some (some (neg, ds)) else none
    else none

/-- The parts of a number. -/
def parse? (cs : List Char) : Option Numeral := do
  let (neg, cs) : Bool × List Char := match cs with
    | '-' :: r => (true, r)
    | _ => (false, cs)
  let (whole, r) := cs.span Char.isDigit
  if !canonicalWhole whole then none
  match r with
  | '.' :: r =>
    let (fraction, r) := r.span Char.isDigit
    if fraction.isEmpty then none
    return ⟨neg, whole, fraction, ← exponent? r⟩
  | r => return ⟨neg, whole, [], ← exponent? r⟩

def isWhole (n : Numeral) : Bool := n.fraction.isEmpty && n.exponent.isNone

/-- A number without sign, fraction and exponent. -/
def natural? (n : Numeral) : Option Nat :=
  if n.isWhole && !n.negative then some (digitsValue n.whole) else none

/-- A number without fraction and exponent; zero has no sign. -/
def integer? (n : Numeral) : Option Int :=
  if !n.isWhole then none
  else
    let v := digitsValue n.whole
    if !n.negative then some v else if v = 0 then none else some (-v)

/-- The exact value of a number without its sign. -/
def decimal (n : Numeral) : Decimal :=
  let e : Int := match n.exponent with
    | none => 0
    | some (neg, ds) => if neg then -(digitsValue ds : Int) else digitsValue ds
  ⟨digitsValue (n.whole ++ n.fraction), e - n.fraction.length⟩

/-! ## Binary value -/

/-- The digits that fit 64 bits, read on from `acc`, and how many were left over. -/
def significand (acc : Nat) : List Char → Nat × Nat
  | [] => (acc, 0)
  | c :: r =>
    let next := 10 * acc + (c.toNat - '0'.toNat)
    if next < 2 ^ 64 then significand next r else (acc, r.length + 1)

/-- `x / 10 ^ n`, in steps of at most `10 ^ 308`. -/
def scaleDown (x : Binary64) (n : Nat) : Binary64 :=
  if h : n ≤ 308 then x.div (.ofNat (10 ^ n))
  else if x.magnitude = 0 then x
  else scaleDown (x.div (.ofNat (10 ^ 308))) (n - 308)
termination_by n

/-- `s * 10 ^ e`, unless it is too large. -/
def scaled? (s : Nat) (e : Int) : Option Binary64 :=
  let x : Binary64 := .ofNat s
  if e < 0 then some (scaleDown x e.natAbs)
  else if e ≤ 308 then
    let y := x.mul (.ofNat (10 ^ e.toNat))
    if y.isFinite then some y else none
  else if s = 0 then some x else none

/-- The significand that is kept of a number, and the power of ten that goes with it. -/
def kept (n : Numeral) : Nat × Int :=
  let (w, beyond) := significand 0 n.whole
  let (s, dropped) := significand w n.fraction
  (s, (beyond : Int) - (n.fraction.length - dropped : Nat))

def int32Max : Int := 2 ^ 31 - 1
def int32Min : Int := -2 ^ 31

/-- The number without its sign. -/
def magnitude? (n : Numeral) : Option Binary64 :=
  let (s, e) := n.kept
  match n.exponent with
  | none => scaled? s e
  | some (neg, ds) =>
    let x := digitsValue ds
    if int32Max < x then if s ≠ 0 ∧ !neg then none else some .zero
    else scaled? s (if neg then max int32Min (e - x) else min int32Max (e + x))

/-- The number as a double; fails if it is too large. -/
def double? (n : Numeral) : Option Binary64 :=
  (magnitude? n).map fun x => if n.negative then x.neg else x

/-- The number as a single: a whole number of at most 64 bits is rounded once, any other first to a double. -/
def single? (n : Numeral) : Option Binary32 :=
  let v := digitsValue n.whole
  if n.isWhole && !n.negative && v < 2 ^ 64 then some (.ofNat v)
  else if n.isWhole && n.negative && v ≠ 0 && v ≤ 2 ^ 63 then some (.ofInt (-v))
  else n.double?.map Binary.convert

/-! ## Written form -/

/-- A number is written without exponent if its first digit stands between `10 ^ lo` and `10 ^ hi`, and always
with a point then; an exponent always has its sign. -/
def layout (lo hi : Int) : Layout := ⟨fun e => lo ≤ e ∧ e ≤ hi, true, false, true⟩

end Numeral

/-- A finite double as JSON text. -/
def doubleText (x : Binary64) : String := x.text .even (Numeral.layout (-5) 15)

/-- A finite single as JSON text. -/
def singleText (x : Binary32) : String := x.text .even (Numeral.layout (-6) 12)

end BusNode
