import BusNode.Scalar
/-!
# Literals

* `Literal.scalar` — a value as a C constant with the suffix of its width;
* `Literal.double`, `Literal.single` — a floating point number as its shortest digits, always with a point;
* `Literal.rounded` — the number that a compiler makes of the literal of a number.
-/

namespace BusNode

/-- A number that no literal stands for. -/
inductive LiteralError where
  | notFinite (value : Binary64)
  deriving DecidableEq

def LiteralError.message : LiteralError → String
  | .notFinite value => s!"value {value.plainText} cannot be written as a C literal"

namespace Literal

/-! ## Integers -/

/-- The least value of a signed type has no constant of its own: the digits after its sign would not fit. -/
def signed (value least : Int) (suffix : String) : String :=
  if value = least then s!"({decimalInt (value + 1)}{suffix}-1{suffix})" else decimalInt value ++ suffix

def unsigned (value : Nat) (suffix : String) : String := decimal value ++ suffix

/-! ## Floating point numbers -/

/-- No exponent is written while the first digit stands between `10 ^ -5` and `10 ^ 15`. -/
def layout : Layout := ⟨fun e => -5 ≤ e ∧ e ≤ 15, true, true, false⟩

def double (x : Binary64) : Except LiteralError String :=
  if x.isFinite then .ok (x.text .away layout) else .error (.notFinite x)

def single (x : Binary32) : Except LiteralError String :=
  if x.isFinite then .ok (x.text .away layout ++ "F") else .error (.notFinite x.convert)

/-- The number nearest to the literal of `x`. -/
def rounded (x : Binary64) : Except LiteralError Binary64 := do
  let text ← double x
  match Numeral.parse? text.toList with
  | some n => .ok (.ofRatio n.negative n.decimal.numerator n.decimal.denominator)
  | none => .error (.notFinite x)

/-! ## Values -/

def scalar : Scalar → Except LiteralError String
  | .u8 v => .ok (unsigned v.toNat "U")
  | .u16 v => .ok (unsigned v.toNat "U")
  | .u32 v => .ok (unsigned v.toNat "UL")
  | .u64 v => .ok (unsigned v.toNat "ULL")
  | .s8 v => .ok (signed v.toInt (-2 ^ 7) "")
  | .s16 v => .ok (signed v.toInt (-2 ^ 15) "")
  | .s32 v => .ok (signed v.toInt (-2 ^ 31) "L")
  | .s64 v => .ok (signed v.toInt (-2 ^ 63) "LL")
  | .f32 v => single v
  | .f64 v => double v

/-- A byte in hexadecimal. -/
def hexByte (b : UInt8) : String := s!"0x{hexUpper 2 b.toNat}U"

/-- A word in hexadecimal. -/
def hexWord (w : UInt32) : String := s!"0x{hexUpper 8 w.toNat}UL"

def flag (b : Bool) : String := if b then "1U" else "0U"

/-- A count or a small number. -/
def count (n : Nat) : String := unsigned n "U"

/-- A number of up to 32 bits. -/
def long (n : Nat) : String := unsigned n "UL"

end Literal

end BusNode
