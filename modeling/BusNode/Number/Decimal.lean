import BusNode.Number.Binary
/-!
# Decimal text of floating point numbers

* `Binary.shortest` — a decimal with the fewest digits that reads back as the number, and of those the nearest;
* `Decimal.text` — a decimal spelt as a `Layout` says.

A decimal reads back iff rounding it gives the number again (`Binary.readsBack`), so nothing here depends on how
the digits are found.
-/

namespace BusNode

/-- The decimal `coefficient * 10 ^ exponent`. -/
structure Decimal where
  coefficient : Nat
  exponent : Int
  deriving DecidableEq, Repr

namespace Decimal

def numerator (d : Decimal) : Nat := d.coefficient * 10 ^ d.exponent.toNat
def denominator (d : Decimal) : Nat := 10 ^ (-d.exponent).toNat

/-- Drops the zeros at the end of a coefficient. -/
def stripZeros (c : Nat) (e : Int) : Decimal :=
  if h : c ≠ 0 ∧ c % 10 = 0 then stripZeros (c / 10) (e + 1) else ⟨c, e⟩
termination_by c
decreasing_by omega

def normalize (d : Decimal) : Decimal :=
  if d.coefficient = 0 then ⟨0, 0⟩ else stripZeros d.coefficient d.exponent

def digits (d : Decimal) : List Char := Nat.toDigits 10 d.coefficient

/-- The exponent of the first digit. -/
def leading (d : Decimal) : Int := d.exponent + d.digits.length - 1

end Decimal

/-! ## Shortest digits -/

/-- Which of two equally near decimals is taken. -/
inductive Tie where
  /-- The one further from zero. -/
  | away
  /-- The one whose last digit is even. -/
  | even
  deriving DecidableEq, Repr

def Tie.goesUp : Tie → Nat → Bool
  | .away, _ => true
  | .even, lower => lower % 2 = 1

/-- The exponent of the first decimal digit of `n / d`, for positive `n` and `d`. -/
def leadingExponent (n d : Nat) : Int :=
  if d ≤ n then ((Nat.toDigits 10 (n / d)).length : Int) - 1
  else -((Nat.toDigits 10 ((d + n - 1) / n - 1)).length : Int)

namespace Binary

variable {p : Precision}

/-- Whether the decimal, with the sign of the number, rounds to the number. -/
def readsBack (x : Binary p) (d : Decimal) : Bool :=
  (ofRatio x.negative d.numerator d.denominator : Binary p) == x

/-- The neighbours of the number on the grid of step `10 ^ u`, the nearer first. -/
def neighbours (tie : Tie) (x : Binary p) (u : Int) : List Decimal :=
  let n := x.magnitude * 10 ^ (-u).toNat
  let d := 2 ^ p.scale * 10 ^ u.toNat
  let lower := n / d
  let r := n % d
  if r = 0 then [⟨lower, u⟩]
  else if d < 2 * r ∨ (d = 2 * r ∧ tie.goesUp lower) then [⟨lower + 1, u⟩, ⟨lower, u⟩]
  else [⟨lower, u⟩, ⟨lower + 1, u⟩]

/-- The nearest decimal of `k + 1` digits that reads back, if one does. -/
def withDigits (tie : Tie) (x : Binary p) (k : Nat) : Option Decimal :=
  (x.neighbours tie (leadingExponent x.magnitude (2 ^ p.scale) - k)).find? x.readsBack

/-- All digits of a finite number. -/
def exact (x : Binary p) : Decimal := ⟨x.magnitude * 5 ^ p.scale, -(p.scale : Int)⟩

/-- The shortest decimal that reads back as the finite number `x`, without its sign. -/
def shortest (tie : Tie) (x : Binary p) : Decimal :=
  if x.magnitude = 0 then ⟨0, 0⟩
  else (((List.range p.digits).findSome? (x.withDigits tie)).getD x.exact).normalize

end Binary

/-! ## Spelling -/

/-- How a decimal is spelt. -/
structure Layout where
  /-- The exponents of the first digit for which no exponent is written. -/
  isPositional : Int → Bool
  /-- Whether a whole number gets `.0`. -/
  wholePoint : Bool
  /-- Whether a one-digit significand before an exponent gets `.0`. -/
  significandPoint : Bool
  /-- Whether a positive exponent gets its sign. -/
  plus : Bool

namespace Decimal

/-- The digits with the decimal point where the exponent puts it. -/
def positional (point : Bool) (d : Decimal) : List Char :=
  let ds := d.digits
  if 0 ≤ d.exponent then
    ds ++ List.replicate d.exponent.toNat '0' ++ (if point then ['.', '0'] else [])
  else
    let k := (-d.exponent).toNat
    if k < ds.length then ds.take (ds.length - k) ++ '.' :: ds.drop (ds.length - k)
    else '0' :: '.' :: List.replicate (k - ds.length) '0' ++ ds

/-- One digit before the point, then the exponent. -/
def scientific (point plus : Bool) (d : Decimal) : List Char :=
  let significand := match d.digits with
    | [] => []
    | [c] => if point then [c, '.', '0'] else [c]
    | c :: cs => c :: '.' :: cs
  let e := d.leading
  significand ++ 'e' :: (if e < 0 then ['-'] else if plus then ['+'] else []) ++ Nat.toDigits 10 e.natAbs

def text (l : Layout) (d : Decimal) : List Char :=
  if l.isPositional d.leading then d.positional l.wholePoint else d.scientific l.significandPoint l.plus

end Decimal

namespace Binary

variable {p : Precision}

/-- A finite number with its sign. -/
def text (tie : Tie) (l : Layout) (x : Binary p) : String :=
  String.ofList ((if x.negative then ['-'] else []) ++ (x.shortest tie).text l)

/-- Any number as messages show it: never with an exponent, and a whole number without a point. -/
def plainText (x : Binary p) : String :=
  if x.isNaN then "NaN"
  else if x.isFinite then x.text .away ⟨fun _ => true, false, false, false⟩
  else if x.negative then "-inf" else "inf"

end Binary

end BusNode
