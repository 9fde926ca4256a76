import BusNode.Number.Power
/-!
# Binary floating point numbers

A number is the bits that hold it, so two numbers are equal here iff they are the same bits; equality as numbers,
for which the zeros agree and a NaN agrees with nothing, is `Binary.same`.

* `Binary.magnitude` — a finite number as a multiple of the least positive number of its precision;
* `Binary.ofRatio` — the number nearest to a quotient, of two equally near ones the even one;
* `Binary.convert`, `Binary.mul`, `Binary.div` — each the exact result, rounded once.
-/

namespace BusNode

/-- A binary interchange format. -/
structure Precision where
  /-- Stored bits of the fraction. -/
  fraction : Nat
  /-- Bits of the biased exponent. -/
  exponent : Nat
  /-- Decimal digits that tell any two numbers of the format apart. -/
  digits : Nat
  deriving DecidableEq, Repr

namespace Precision

def single : Precision := ⟨23, 8, 9⟩
def double : Precision := ⟨52, 11, 17⟩

/-- Bits of a number. -/
def width (p : Precision) : Nat := 1 + p.exponent + p.fraction

/-- The bits of infinity, without the sign. -/
def infinity (p : Precision) : Nat := (2 ^ p.exponent - 1) * 2 ^ p.fraction

/-- The least positive number is `2 ^ -p.scale`. -/
def scale (p : Precision) : Nat := 2 ^ (p.exponent - 1) - 2 + p.fraction

end Precision

/-- A binary floating point number of precision `p`. -/
structure Binary (p : Precision) where
  bits : BitVec p.width
  deriving DecidableEq

abbrev Binary32 := Binary .single
abbrev Binary64 := Binary .double

instance (p : Precision) : Inhabited (Binary p) := ⟨⟨0⟩⟩

/-- The quotient `n / d` rounded to the nearest natural number, a half to the even one. -/
def roundHalfEven (n d : Nat) : Nat :=
  let t := n / d
  let r := n % d
  if 2 * r < d then t else if d < 2 * r then t + 1 else if t % 2 = 0 then t else t + 1

namespace Binary

variable {p : Precision}

/-! ## Fields -/

def negative (x : Binary p) : Bool := 2 ^ (p.width - 1) ≤ x.bits.toNat

/-- The bits without the sign. -/
def body (x : Binary p) : Nat := x.bits.toNat % 2 ^ (p.width - 1)

def isNaN (x : Binary p) : Bool := p.infinity < x.body
def isFinite (x : Binary p) : Bool := x.body < p.infinity

/-- A finite number without its sign is `magnitude x / 2 ^ p.scale`. -/
def magnitude (x : Binary p) : Nat :=
  let e := x.body / 2 ^ p.fraction
  let f := x.body % 2 ^ p.fraction
  if e = 0 then f else (2 ^ p.fraction + f) * 2 ^ (e - 1)

def ofBody (neg : Bool) (b : Nat) : Binary p :=
  ⟨BitVec.ofNat p.width ((if neg then 2 ^ (p.width - 1) else 0) + b)⟩

def infinite (neg : Bool) : Binary p := ofBody neg p.infinity

/-- One bit pattern that is not a number. -/
def nan : Binary p := ofBody false (p.infinity + 2 ^ (p.fraction - 1))

/-! ## Rounding -/

/-- The bits of the number nearest to `n / d`: the quotient is taken in the least unit, and its significand
cut to the precision; the significand's carry runs into the exponent as it should. -/
def roundBody (p : Precision) (n d : Nat) : Nat :=
  let n := n * 2 ^ p.scale
  let s := Nat.log2 (n / d) - p.fraction
  min (s * 2 ^ p.fraction + roundHalfEven n (d * 2 ^ s)) p.infinity

/-- The number nearest to `n / d`, or infinity past the greatest one. -/
def ofRatio (neg : Bool) (n d : Nat) : Binary p := ofBody neg (roundBody p n d)

def ofNat (n : Nat) : Binary p := ofRatio false n 1
def ofInt (i : Int) : Binary p := ofRatio (i < 0) i.natAbs 1

/-- The same number at another precision, rounded if need be. -/
def convert {r : Precision} (x : Binary p) : Binary r :=
  if x.isFinite then ofRatio x.negative x.magnitude (2 ^ p.scale)
  else if x.isNaN then nan
  else infinite x.negative

/-- The product of two finite numbers. -/
def mul (x y : Binary p) : Binary p :=
  ofRatio (x.negative != y.negative) (x.magnitude * y.magnitude) (2 ^ (2 * p.scale))

/-- The quotient of two finite numbers, the second not zero. -/
def div (x y : Binary p) : Binary p :=
  ofRatio (x.negative != y.negative) x.magnitude y.magnitude

def neg (x : Binary p) : Binary p := ofBody (!x.negative) x.body

/-! ## Comparison -/

/-- Equality as numbers. -/
def same (x y : Binary p) : Bool :=
  !x.isNaN && !y.isNaN && (x.bits == y.bits || (x.body == 0 && y.body == 0))

/-- Whether the number is above zero. -/
def isPositive (x : Binary p) : Bool := !x.isNaN && !x.negative && x.body != 0

def zero : Binary p := ofBody false 0
def one : Binary p := ofNat 1

end Binary

end BusNode
