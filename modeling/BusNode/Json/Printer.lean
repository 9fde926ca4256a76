import BusNode.Json.Basic
import BusNode.Json.Text
/-!
# Writing JSON text

* `Json.compact` — no blank at all;
* `Json.pretty` — a line for each item and member, two spaces for each level.
-/

namespace BusNode

/-- The text of a key; one that is no text is written as the empty string. -/
def Key.chars (k : Key) : List Char := Text.quote (k.text?.getD "")

namespace Json

/-- A value that is neither array nor object. -/
def leaf : Json → List Char
  | .null => "null".toList
  | .bool true => "true".toList
  | .bool false => "false".toList
  | .number ds => ds.toList
  | .string s => Text.quote s
  | _ => ['"', '"']

/-! ## Compact -/

mutual

def compactChars : Json → List Char
  | .array [] => ['[', ']']
  | .array (v :: vs) => '[' :: compactChars v ++ compactItems vs ++ [']']
  | .object [] => ['{', '}']
  | .object ((k, v) :: ms) => '{' :: k.chars ++ ':' :: compactChars v ++ compactMembers ms ++ ['}']
  | v => v.leaf

def compactItems : List Json → List Char
  | [] => []
  | v :: vs => ',' :: compactChars v ++ compactItems vs

def compactMembers : List (Key × Json) → List Char
  | [] => []
  | (k, v) :: ms => ',' :: k.chars ++ ':' :: compactChars v ++ compactMembers ms

end

def compact (v : Json) : String := String.ofList v.compactChars

/-! ## Pretty -/

/-- A new line at a level of nesting. -/
def newLine (level : Nat) : List Char := '\n' :: List.replicate (2 * level) ' '

mutual

def prettyChars (level : Nat) : Json → List Char
  | .array [] => ['[', ']']
  | .array (v :: vs) =>
    '[' :: newLine (level + 1) ++ prettyChars (level + 1) v ++ prettyItems (level + 1) vs ++ newLine level ++ [']']
  | .object [] => ['{', '}']
  | .object ((k, v) :: ms) =>
    '{' :: newLine (level + 1) ++ k.chars ++ ':' :: ' ' :: prettyChars (level + 1) v ++ prettyMembers (level + 1) ms ++
      newLine level ++ ['}']
  | v => v.leaf

def prettyItems (level : Nat) : List Json → List Char
  | [] => []
  | v :: vs => ',' :: newLine level ++ prettyChars level v ++ prettyItems level vs

def prettyMembers (level : Nat) : List (Key × Json) → List Char
  | [] => []
  | (k, v) :: ms => ',' :: newLine level ++ k.chars ++ ':' :: ' ' :: prettyChars level v ++ prettyMembers level ms

end

def pretty (v : Json) : String := String.ofList (v.prettyChars 0)

end Json

end BusNode
