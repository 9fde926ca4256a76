import BusNode.Text.Digit
/-!
# Initializers

* `Pointer` — the address of an object, a member or an item, or nothing;
* `Expr` — one value of an initializer on one line;
* `Row` — one entry of a braced initializer, itself braced or not, with its comment;
* `Row.braced` — the lines of rows between braces: every row but the last has a comma after it, and a comment stands
  at the end of the last line of its row.
-/

namespace BusNode

/-! ## Pointers -/

/-- A named object, or a member of it, or an item of either. -/
structure Place where
  object : String
  members : List String
  index : Option Nat
  deriving DecidableEq, Repr

/-- An address, or `NULL`. -/
abbrev Pointer := Option Place

namespace Place

/-- A whole object. -/
def whole (object : String) : Place := ⟨object, [], none⟩

/-- An item of an array. -/
def item (array : String) (index : Nat) : Place := ⟨array, [], some index⟩

def text (p : Place) : String :=
  String.join (p.object :: p.members.map ("." ++ ·)) ++
    match p.index with
    | none => ""
    | some i => s!"[{decimal i}]"

end Place

namespace Pointer

/-- `count` items of an array from `first` on. -/
def slice (array : String) (first count : Nat) : Pointer := if count = 0 then none else some (.item array first)

/-- Objects that are one variable if there is one of them and an array otherwise. -/
def select (count : Nat) (single array : String) : Pointer :=
  if count = 0 then none else if count = 1 then some (.whole single) else some (.item array 0)

/-- An object that may not exist. -/
def optional (name : Option String) : Pointer := name.map .whole

def text : Pointer → String
  | none => "NULL"
  | some p => "&" ++ p.text

end Pointer

/-! ## Values -/

inductive Expr where
  /-- A constant, as its text. -/
  | constant (text : String)
  | pointer (p : Pointer)
  /-- Values between braces. -/
  | list (items : List Expr)
  deriving Repr

namespace Expr

/-- Texts between braces on one line. -/
def inlineBraced (items : List String) : String := "\x7b " ++ ", ".intercalate items ++ " \x7d"

mutual

def text : Expr → String
  | .constant s => s
  | .pointer p => Pointer.text p
  | .list es => inlineBraced (texts es)

def texts : List Expr → List String
  | [] => []
  | e :: es => e.text :: texts es

end

mutual

/-- The addresses that a value takes. -/
def places : Expr → List Place
  | .constant _ => []
  | .pointer p => p.toList
  | .list es => placesList es

def placesList : List Expr → List Place
  | [] => []
  | e :: es => e.places ++ placesList es

end

end Expr

/-! ## Rows -/

inductive Row where
  | value (e : Expr) (comment : Option String)
  /-- Lines as they are. -/
  | lines (text : List String) (comment : Option String)
  | nested (rows : List Row) (comment : Option String)
  deriving Repr

namespace Row

def commented (e : Expr) (comment : String) : Row := .value e (some comment)
def constant (text : String) : Row := .value (.constant text) none
def noted (text comment : String) : Row := .value (.constant text) (some comment)
def pointer (p : Pointer) : Row := .value (.pointer p) none

def comment : Row → Option String
  | .value _ c => c
  | .lines _ c => c
  | .nested _ c => c

/-- One level of indentation. -/
def indent (line : String) : String := "   " ++ line

/-- What follows a row on its last line. -/
def ending (isLast : Bool) (comment : Option String) : String :=
  (if isLast then "" else ",") ++
    match comment with
    | none => ""
    | some c => s!" /* {c} */"

/-- Appends to the last of some lines. -/
def appendLast (suffix : String) : List String → List String
  | [] => []
  | [l] => [l ++ suffix]
  | l :: ls => l :: appendLast suffix ls

mutual

/-- The lines of a row without its comment. -/
def body : Row → List String
  | .value e _ => [e.text]
  | .lines ls _ => ls
  | .nested rows _ => "\x7b" :: inner rows ++ ["\x7d"]

/-- The lines of rows between their braces. -/
def inner : List Row → List String
  | [] => []
  | r :: rs => (appendLast (ending rs.isEmpty r.comment) r.body).map indent ++ inner rs

end

def braced (rows : List Row) : List String := "\x7b" :: inner rows ++ ["\x7d"]

mutual

/-- The addresses that a row takes. -/
def places : Row → List Place
  | .value e _ => e.places
  | .lines _ _ => []
  | .nested rows _ => placesList rows

def placesList : List Row → List Place
  | [] => []
  | r :: rs => r.places ++ placesList rs

end

end Row

end BusNode
