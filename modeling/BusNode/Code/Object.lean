import BusNode.Code.Row
/-!
# Objects of generated code

* `Object` — a variable or constant with its storage class, type, name and length;
* `Placement` — the memory region of an object that may change, and how the region is declared.
-/

namespace BusNode

/-! ## Objects -/

inductive Storage where
  /-- Defined here, seen everywhere. -/
  | shared
  /-- Defined here, seen here. -/
  | internal
  /-- Defined elsewhere. -/
  | external
  deriving DecidableEq, Repr

/-- The storage class with the blank after it. -/
def Storage.text : Storage → String
  | .shared => ""
  | .internal => "static "
  | .external => "extern "

/-- The length of an array: a number or the name of one. -/
inductive Length where
  | number (n : Nat)
  | symbol (name : String)
  deriving DecidableEq, Repr

def Length.text : Length → String
  | .number n => decimal n
  | .symbol s => s

structure Object where
  storage : Storage
  isConst : Bool
  type : String
  name : String
  /-- Given for an array. -/
  length : Option Length
  deriving DecidableEq, Repr

namespace Object

/-- A constant of this file. -/
def table (type name : String) (length : Nat) : Object := ⟨.internal, true, type, name, some (.number length)⟩

/-- A constant record of this file. -/
def record (type name : String) : Object := ⟨.internal, true, type, name, none⟩

/-- A constant record for everyone. -/
def sharedRecord (type name : String) : Object := ⟨.shared, true, type, name, none⟩

/-- A constant record that is defined elsewhere. -/
def externRecord (type name : String) : Object := ⟨.external, true, type, name, none⟩

/-- The declaration after the storage class. -/
def declarator (o : Object) : String :=
  (if o.isConst then "const " else "") ++ s!"{o.type} {o.name}" ++
    match o.length with
    | none => ""
    | some n => s!"[{n.text}]"

def text (o : Object) : String := o.storage.text ++ o.declarator

end Object

/-! ## Memory regions -/

/-- The memory for data of one safety level. -/
inductive Region where
  | safe
  | nonSafe
  deriving DecidableEq, Repr

namespace Region

def ofSafety (isSafety : Bool) : Region := if isSafety then .safe else .nonSafe

/-- The qualifier of an object in the region. -/
def qualifier : Region → String
  | .safe => "OSY_DPA_SAFE_RAM_DATA"
  | .nonSafe => "OSY_DPA_NON_SAFE_RAM_DATA"

/-- The line that opens the region. -/
def start : Region → String
  | .safe => "OSY_SAFE_RAM_DATA_START"
  | .nonSafe => "OSY_NON_SAFE_RAM_DATA_START"

/-- The line that closes the region. -/
def stop : Region → String
  | .safe => "OSY_SAFE_RAM_DATA_STOP"
  | .nonSafe => "OSY_NON_SAFE_RAM_DATA_STOP"

end Region

/-- A region, declared by lines around the object or by a qualifier after its storage class. -/
structure Placement where
  region : Region
  isWrapped : Bool
  deriving DecidableEq, Repr

namespace Placement

/-- The lines of an object in its place; `rest` is what follows the declaration on its line and after it. -/
def lines (p : Option Placement) (o : Object) (ending : String) (rest : List String) : List String :=
  match p with
  | none => (o.text ++ ending) :: rest
  | some ⟨r, true⟩ => r.start :: (o.text ++ ending) :: rest ++ [r.stop]
  | some ⟨r, false⟩ => (o.storage.text ++ r.qualifier ++ " " ++ o.declarator ++ ending) :: rest

end Placement

end BusNode
