import BusNode.Number.Power
/-!
# Digits and letter case

Decimal and hexadecimal digits, and the letter case of ASCII: names in generated code are ASCII, so no other
letter is changed.
-/

namespace BusNode

/-- The decimal digits of a number. -/
def decimal (n : Nat) : String := String.ofList (Nat.toDigits 10 n)

/-- The decimal digits of an integer, after its sign. -/
def decimalInt (i : Int) : String := if i < 0 then "-" ++ decimal i.natAbs else decimal i.natAbs

/-- The value of decimal digits. -/
def digitsValue (cs : List Char) : Nat := cs.foldl (fun n c => 10 * n + (c.toNat - '0'.toNat)) 0

/-- The value of a hexadecimal digit in either case. -/
def hexValue? (c : Char) : Option Nat :=
  if c.isDigit then some (c.toNat - '0'.toNat)
  else if 'a' ≤ c ∧ c ≤ 'f' then some (c.toNat - 'a'.toNat + 10)
  else if 'A' ≤ c ∧ c ≤ 'F' then some (c.toNat - 'A'.toNat + 10)
  else none

/-- `width` hexadecimal digits of `n`, the lowest ones, in lower case. -/
def hexDigits : Nat → Nat → List Char
  | 0, _ => []
  | width + 1, n => hexDigits width (n / 16) ++ [Nat.digitChar (n % 16)]

/-- `width` hexadecimal digits in upper case. -/
def hexUpper (width n : Nat) : String := String.ofList ((hexDigits width n).map Char.toUpper)

/-- The text in ASCII upper case. -/
def upper (s : String) : String := s.map Char.toUpper

/-- The text in ASCII lower case. -/
def lower (s : String) : String := s.map Char.toLower

end BusNode
