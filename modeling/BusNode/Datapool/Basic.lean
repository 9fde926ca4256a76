import BusNode.Scalar
/-!
# Datapools

A Datapool is a named collection of variables: lists of elements, with alternative value sets (data sets) for each
list. Sizes are 32-bit words, as the run-time library keeps them; there is none where the bytes are too many.

* `word?` — the word of a number;
* `Element.size?`, `ElementList.dataSize?` — the bytes of an element and of a list.
-/

namespace BusNode

/-- The word that holds a number, if one does. -/
def word? (n : Nat) : Option UInt32 := if n < 2 ^ 32 then some (.ofNat n) else none

/-- What the diagnostic side may do with an element. -/
inductive ElementAccess where
  | readOnly
  | readWrite
  deriving DecidableEq, Repr

/-- A variable. -/
structure Element where
  name : String
  comment : String
  type : ScalarType
  /-- The length, if the element is an array. -/
  arraySize : Option UInt32
  default : Content
  min : Content
  max : Content
  /-- A content for each data set of the list. -/
  dataSetValues : List Content
  factor : Binary64
  offset : Binary64
  unit : String
  access : ElementAccess
  /-- Whether the diagnostic side hears of changes. -/
  reportsChanges : Bool
  nvmStartAddress : UInt32
  deriving DecidableEq

namespace Element

/-- An element that is not an array. -/
def scalar (name : String) (default min max : Scalar) : Element where
  name
  comment := ""
  type := default.type
  arraySize := none
  default := [default]
  min := [min]
  max := [max]
  dataSetValues := []
  factor := .one
  offset := .zero
  unit := ""
  access := .readWrite
  reportsChanges := false
  nvmStartAddress := 0

def isArray (e : Element) : Bool := e.arraySize.isSome

/-- The number of values that the element holds. -/
def count (e : Element) : UInt32 := e.arraySize.getD 1

/-- Bytes of the element. -/
def size? (e : Element) : Option UInt32 := word? (e.type.size.toNat * e.count.toNat)

/-- Whether the stored value has to be converted by factor and offset. -/
def isScaled (e : Element) : Bool := !e.factor.same .one || !e.offset.same .zero

end Element

/-- An alternative value set of a list. -/
structure DataSet where
  name : String
  comment : String
  deriving DecidableEq, Repr

/-- An ordered group of elements. -/
structure ElementList where
  name : String
  comment : String
  nvmStartAddress : UInt32
  nvmSize : UInt32
  nvmCrc : Bool
  elements : List Element
  dataSets : List DataSet
  deriving DecidableEq

namespace ElementList

def new (name : String) : ElementList := ⟨name, "", 0, 0, false, [], []⟩

/-- Bytes of all elements, summed up in their order. -/
def dataSize? (l : ElementList) : Option UInt32 :=
  l.elements.foldlM (fun sum e => do word? (sum.toNat + (← e.size?).toNat)) 0

/-- Bytes of all elements and of the checksum. -/
def storedSize? (l : ElementList) : Option UInt32 := do word? ((← l.dataSize?).toNat + if l.nvmCrc then 2 else 0)

end ElementList

/-- The role of a Datapool in the node. -/
inductive DatapoolKind where
  | generic
  | nvm
  | com
  | halc
  | halcNvm
  deriving DecidableEq, Repr

namespace DatapoolKind

/-- Whether the values are kept in non-volatile memory. -/
def isNvm : DatapoolKind → Bool
  | .nvm | .halcNvm => true
  | _ => false

def isHalc : DatapoolKind → Bool
  | .halc | .halcNvm => true
  | _ => false

end DatapoolKind

structure Datapool where
  name : String
  comment : String
  kind : DatapoolKind
  isSafety : Bool
  version : UInt8 × UInt8 × UInt8
  /-- The index of the application that owns it. -/
  owner : Option UInt64
  isPrivate : Bool
  nvmStartAddress : UInt32
  nvmSize : UInt32
  lists : List ElementList
  deriving DecidableEq

namespace Datapool

/-- A private Datapool without lists. -/
def new (name : String) (kind : DatapoolKind) (owner : Option UInt64) : Datapool :=
  ⟨name, "", kind, false, (1, 0, 0), owner, true, 0, 0, []⟩

-- Sums begin at the numeral zero, also where the zero of monoids is known.
attribute [local instance (high)] Zero.ofOfNat0

def elementCount (d : Datapool) : Nat := (d.lists.map (·.elements.length)).sum

/-- A Datapool without elements has no generated code. -/
def isEmpty (d : Datapool) : Bool := d.elementCount = 0

end Datapool

end BusNode
