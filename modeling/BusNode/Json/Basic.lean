/-!
# JSON values

A value as written: the members of an object keep their order and may repeat, a number keeps its digits, and a
string whose escapes make no text (`Json.unpaired`) is a value that nobody can read.
-/

namespace BusNode

/-- The key of an object's member. -/
inductive Key where
  /-- A key spelt without escapes. -/
  | plain (s : String)
  /-- A key spelt with escapes. -/
  | escaped (s : String)
  /-- A key whose escapes make no text. -/
  | unpaired
  deriving DecidableEq, Repr

def Key.text? : Key → Option String
  | .plain s => some s
  | .escaped s => some s
  | .unpaired => none

inductive Json where
  | null
  | bool (b : Bool)
  /-- A number, as its text. -/
  | number (digits : String)
  | string (s : String)
  | unpaired
  | array (items : List Json)
  | object (members : List (Key × Json))
  deriving Repr, BEq, Inhabited

end BusNode
