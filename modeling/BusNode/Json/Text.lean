import BusNode.Text.Digit
/-!
# Quoted text

* `Text.encode` — the inside of a string: only `"`, `\` and control characters are escaped;
* `Text.decode` — the code points of the inside of a string, surrogates among them;
* `Text.ofPoints` — the text of code points, in which every surrogate must have its other half.
-/

namespace BusNode.Text

def encodeChar (c : Char) : List Char :=
  if c = '"' then ['\\', '"']
  else if c = '\\' then ['\\', '\\']
  else if c = '\x08' then ['\\', 'b']
  else if c = '\x0c' then ['\\', 'f']
  else if c = '\n' then ['\\', 'n']
  else if c = '\r' then ['\\', 'r']
  else if c = '\t' then ['\\', 't']
  else if c.toNat < 32 then ['\\', 'u'] ++ hexDigits 4 c.toNat
  else [c]

def encode (cs : List Char) : List Char := cs.flatMap encodeChar

/-- A string with its quotes. -/
def quote (s : String) : List Char := '"' :: encode s.toList ++ ['"']

/-- What a one-letter escape stands for. -/
def escape? : Char → Option Char
  | '"' => some '"'
  | '\\' => some '\\'
  | '/' => some '/'
  | 'b' => some '\x08'
  | 'f' => some '\x0c'
  | 'n' => some '\n'
  | 'r' => some '\r'
  | 't' => some '\t'
  | _ => none

/-- The number of four hexadecimal digits. -/
def hexPoint? (a b c d : Char) : Option Nat := do
  return (((← hexValue? a) * 16 + (← hexValue? b)) * 16 + (← hexValue? c)) * 16 + (← hexValue? d)

/-- The code points of the inside of a string; fails on a bad escape and on a bare control character. -/
def decode : List Char → Option (List Nat)
  | [] => some []
  | '\\' :: 'u' :: a :: b :: c :: d :: r => do
    let n ← hexPoint? a b c d
    return n :: (← decode r)
  | '\\' :: c :: r => do
    let e ← escape? c
    return e.toNat :: (← decode r)
  | c :: r => if c = '\\' ∨ c.toNat < 32 then none else (decode r).map (c.toNat :: ·)

def isLead (n : Nat) : Bool := 0xD800 ≤ n && n < 0xDC00
def isTrail (n : Nat) : Bool := 0xDC00 ≤ n && n < 0xE000

/-- The text of code points; fails on a surrogate without its other half. -/
def ofPoints : List Nat → Option (List Char)
  | [] => some []
  | n :: r =>
    if isTrail n then none
    else if isLead n then
      match r with
      | t :: r => if isTrail t then (ofPoints r).map (Char.ofNat (0x10000 + (n - 0xD800) * 0x400 + (t - 0xDC00)) :: ·)
        else none
      | [] => none
    else (ofPoints r).map (Char.ofNat n :: ·)

end BusNode.Text
