import BusNode.Code.File
import BusNode.Datapool.Check
import BusNode.Datapool.Linkage
import BusNode.Report
/-!
# Code of Datapools

The pair of a Datapool defines its record and, for the application that owns it, the values object, the limits and the
data sets. Every list with elements is a member of the values object and has a table of element definitions; every
list has a row in the table of list definitions.

* `DatapoolCode.header`, `DatapoolCode.source` — the items of the two files;
* `DatapoolCode.generate` — the pair, or the first fault or size that does not fit.
-/

namespace BusNode

/-- A Datapool as one application sees it. -/
structure DatapoolCode where
  /-- The name of the application. -/
  application : String
  datapool : Datapool
  indexInApplication : Nat
  /-- The version of the Datapool layout. -/
  version : Nat
  /-- Whether scaling definitions are wanted. -/
  wantsScaling : Bool
  linkage : Linkage
  ownerProcessId : UInt8
  indexInOwner : Nat

namespace Datapool

/-! ## Names -/

def stem (d : Datapool) : String := lower d.name ++ "_data_pool"
def headerName (d : Datapool) : String := d.stem ++ ".h"

/-- The record of a Datapool. -/
def recordName (d : Datapool) : String := s!"gt_{d.name}_DataPool"

def valuesType (d : Datapool) : String := s!"T_{d.name}_DataPool_Values"
def valuesName (d : Datapool) : String := s!"gt_{d.name}_DataPoolValues"
def listType (d : Datapool) (l : ElementList) : String := s!"T_{d.name}_{l.name}_Values"

/-- The member of the values object that holds a list. -/
def listMember (l : ElementList) : String := s!"t_{l.name}"

/-- A constant of a list. -/
def listObject (d : Datapool) (l : ElementList) (marker what : String) : String := s!"{marker}_{d.name}_{l.name}_{what}"

def minName (d : Datapool) (l : ElementList) : String := d.listObject l "mt" "MinValues"
def maxName (d : Datapool) (l : ElementList) : String := d.listObject l "mt" "MaxValues"
def dataSetName (d : Datapool) (l : ElementList) : String := d.listObject l "mat" "DataSetValues"
def elementTableName (d : Datapool) (l : ElementList) : String := d.listObject l "mat" "ElementDefinitions"
def listTableName (d : Datapool) : String := s!"mat_{d.name}_ListDefinitions"
def remoteInfoName (d : Datapool) : String := s!"mt_{d.name}_RemoteInfo"
def scratchName (d : Datapool) : String := s!"mau8_{d.name}_NvmScratchBuffer"

/-! ## Sizes -/

/-- The lists that have a member in the values object. -/
def filledLists (d : Datapool) : List ElementList := d.lists.filter (!·.elements.isEmpty)

/-- Bytes to keep any one list with its checksum, at least one. -/
def scratchSize? (d : Datapool) : Option UInt32 := return (← d.lists.mapM ElementList.storedSize?).foldl max 1

end Datapool

namespace DatapoolCode

def isOwn (x : DatapoolCode) : Bool := !x.linkage.isRemote
def hasRemoteInfo (x : DatapoolCode) : Bool := 4 ≤ x.version || x.linkage.isRemote
def hasScratchBuffer (x : DatapoolCode) : Bool := 5 ≤ x.version && x.isOwn && x.datapool.kind.isNvm
def hasScaling (x : DatapoolCode) : Bool := x.wantsScaling && 5 ≤ x.version && x.isOwn

/-- Where data that may change is kept. -/
def placement (x : DatapoolCode) : Placement := ⟨.ofSafety x.datapool.isSafety, 3 ≤ x.version⟩

/-! ## Header -/

def valuesObject (x : DatapoolCode) (storage : Storage) : Object :=
  ⟨storage, false, x.datapool.valuesType, x.datapool.valuesName, none⟩

/-- The index and the numbers of elements and data sets of a list. -/
def listDefines (x : DatapoolCode) (l : ElementList) : List Item :=
  let list := s!"{upper x.datapool.name}_{upper l.name}"
  [Item.blank, .define s!"{list}_NUMBER_OF_ELEMENTS" "" (.number l.elements.length)] ++
    (l.elements.zipIdx.map fun (e, i) => Item.define s!"{list}_INDEX_{upper e.name}" "" (.number i)) ++
    [Item.define s!"{list}_NUMBER_OF_DATASETS" "" (.number l.dataSets.length)]

/-- The definitions that convert an element from and to its physical value. -/
def scalingDefines (x : DatapoolCode) (l : ElementList) (e : Element) : Except LiteralError (List Item) := do
  let factor ← Literal.double e.factor
  let offset ← Literal.double e.offset
  let base := s!"{upper x.datapool.name}_{upper l.name}_{upper e.name}"
  let value := s!"{x.datapool.valuesName}.{Datapool.listMember l}.{e.member}"
  let cell := if e.isArray then value ++ "[(index)]" else value
  return [
    .define s!"{base}_GET_SCALED" (if e.isArray then "(index)" else "()")
      (.text s!"(((float64){cell} * {factor}) + {offset})"),
    .define s!"{base}_SET_SCALED" (if e.isArray then "(index, value)" else "(value)")
      (.text s!"({cell} = ({e.type.cType})(((value) - {offset}) / {factor}))")]

/-- The scaling definitions of all elements that need them, under a heading if there are any. -/
def scaling (x : DatapoolCode) : Except LiteralError (List Item) := do
  let scaled := x.datapool.lists.flatMap fun l => (l.elements.filter Element.isScaled).map (l, ·)
  let items ← scaled.mapM fun (l, e) => x.scalingDefines l e
  return if scaled.isEmpty then [] else .heading "Scaling" :: items.flatten

/-- The types of the values object and its members. -/
def types (x : DatapoolCode) : List Item :=
  [Item.heading "Types"] ++
    (x.datapool.filledLists.flatMap fun l =>
      [Item.recordType (x.datapool.listType l) (l.elements.map Element.declaration), .blank]) ++
    [Item.recordType x.datapool.valuesType
      (x.datapool.filledLists.map fun l => s!"{x.datapool.listType l} {Datapool.listMember l};")]

def header (x : DatapoolCode) (id : Identifier) : Except LiteralError File := do
  let d := x.datapool
  let name := upper d.name
  let scaling ← if x.hasScaling then x.scaling else pure []
  return ⟨File.headerStart d.stem s!"Definition of Datapool {d.name}" ["osy_dpa_data_pool.h"] id ++
    [Item.blank,
      .define s!"{name}_DATA_POOL_INDEX" "" (.number x.indexInApplication),
      .define s!"{name}_NUMBER_OF_LISTS" "" (.number d.lists.length),
      .blank] ++
    (d.lists.zipIdx.map fun (l, i) => Item.define s!"{name}_LIST_INDEX_{upper l.name}" "" (.number i)) ++
    d.lists.flatMap x.listDefines ++
    scaling ++
    (if x.isOwn then x.types else []) ++
    [Item.heading "Global Variables"] ++
    (if x.isOwn then [Item.declare (x.valuesObject .external) (some x.placement)] else []) ++
    [Item.declare (.externRecord "T_osy_dpa_data_pool" d.recordName) none] ++
    File.headerEnd⟩

/-! ## Source -/

/-- The initializer of an element: one constant, or a braced one for each place of an array. -/
def contentExpr (e : Element) (c : Content) : Except LiteralError Expr := do
  let literals ← c.mapM Literal.scalar
  return if e.isArray then .list (literals.map .constant) else .constant (", ".intercalate literals)

/-- A row for each element of a list. -/
def contentRows (l : ElementList) (select : Element → Content) : Except LiteralError (List Row) :=
  l.elements.mapM fun e => return .commented (← contentExpr e (select e)) e.name

/-- The values object with the defaults. -/
def values (x : DatapoolCode) : Except LiteralError Item := do
  let rows ← x.datapool.filledLists.mapM fun l => return .nested (← contentRows l Element.default) (some l.name)
  return .object (x.valuesObject .shared) rows (some x.placement)

/-- The limits and data sets of a list. -/
def limits (x : DatapoolCode) (l : ElementList) : Except LiteralError (List Item) := do
  let d := x.datapool
  let least ← contentRows l Element.min
  let greatest ← contentRows l Element.max
  let sets ← l.dataSets.zipIdx.mapM fun (s, i) =>
    return Row.nested (← contentRows l fun e => e.dataSetValues.getD i []) (some s.name)
  return [Item.blank, .object (.record (d.listType l) (d.minName l)) least none,
      .blank, .object (.record (d.listType l) (d.maxName l)) greatest none] ++
    if l.dataSets.isEmpty then []
    else [Item.blank, .object (.table (d.listType l) (d.dataSetName l) l.dataSets.length) sets none]

/-- The definition of an element, as the table of its list has it. -/
structure ElementDefinition where
  name : String
  type : ScalarType
  isArray : Bool
  reportsChanges : Bool
  size : Nat
  value : Pointer
  min : Pointer
  max : Pointer
  deriving DecidableEq, Repr

def ElementDefinition.row (e : ElementDefinition) : Row :=
  .commented (.list [
    .constant (e.type.tag e.isArray),
    .constant (Literal.flag e.reportsChanges),
    .constant (Literal.count e.size),
    .pointer e.value,
    .pointer e.min,
    .pointer e.max]) e.name

/-- The cells of an element are its members in the values object and the limits, the first place for an array; only
the owner has them. -/
def elementDefinition (x : DatapoolCode) (l : ElementList) (e : Element) (size : Nat) : ElementDefinition :=
  let d := x.datapool
  let cell (object : String) (members : List String) : Pointer :=
    if x.isOwn then some ⟨object, members ++ [e.member], if e.isArray then some 0 else none⟩ else none
  { name := e.name
    type := e.type
    isArray := e.isArray
    reportsChanges := e.reportsChanges
    size
    value := cell d.valuesName [Datapool.listMember l]
    min := cell (d.minName l) []
    max := cell (d.maxName l) [] }

/-- The definitions of the elements, each with its size. -/
def elementRows (x : DatapoolCode) (l : ElementList) : Except Stop (List Row) :=
  l.elements.mapM fun e => return (x.elementDefinition l e (← Stop.unlessFits e.size?).toNat).row

/-- The tables of a list; a list without elements has none. -/
def listTables (x : DatapoolCode) (l : ElementList) : Except Stop (List Item) := do
  if l.elements.isEmpty then return []
  let limits ← if x.isOwn then (x.limits l).mapError .literal else pure []
  let rows ← x.elementRows l
  return limits ++ [Item.blank,
    .object (.table "T_osy_dpa_element_definition" (x.datapool.elementTableName l) l.elements.length) rows none]

/-- The definition of a list, as the table of lists has it. -/
structure ListDefinition where
  name : String
  elementCount : Nat
  dataSetCount : Nat
  nvmStartAddress : UInt32
  nvmSize : UInt32
  nvmCrc : Bool
  elements : Pointer
  dataSets : Pointer
  values : Pointer
  deriving DecidableEq, Repr

def ListDefinition.row (l : ListDefinition) : Row :=
  .nested [
    .noted (Literal.count l.elementCount) "number of elements",
    .noted (Literal.count l.dataSetCount) "number of datasets",
    .noted (Literal.hexWord l.nvmStartAddress) "NVM start address",
    .noted (Literal.long l.nvmSize.toNat) "NVM size",
    .noted (Literal.flag l.nvmCrc) "CRC active",
    .pointer l.elements,
    .pointer l.dataSets,
    .pointer l.values] (some l.name)

/-- A list without elements has no tables, and only the owner has data sets and values. -/
def listDefinition (x : DatapoolCode) (l : ElementList) : ListDefinition :=
  let d := x.datapool
  let isFilled := !l.elements.isEmpty
  { name := l.name
    elementCount := l.elements.length
    dataSetCount := l.dataSets.length
    nvmStartAddress := l.nvmStartAddress
    nvmSize := l.nvmSize
    nvmCrc := l.nvmCrc
    elements := if isFilled then some (.item (d.elementTableName l) 0) else none
    dataSets := if isFilled && x.isOwn then Pointer.slice (d.dataSetName l) 0 l.dataSets.length else none
    values := if isFilled && x.isOwn then some ⟨d.valuesName, [Datapool.listMember l], none⟩ else none }

def listTable (x : DatapoolCode) : List Item :=
  [Item.blank, .object (.table "T_osy_dpa_list_definition" x.datapool.listTableName x.datapool.lists.length)
    (x.datapool.lists.map fun l => (x.listDefinition l).row) none]

/-- The application that owns the Datapool, and the index there. -/
def remoteInfo (x : DatapoolCode) : List Item :=
  [Item.blank, .object (.record "T_osy_dpa_remote_info" x.datapool.remoteInfoName) [
    .noted (Literal.count x.ownerProcessId.toNat) "process ID of owning application",
    .noted (Literal.count x.indexInOwner) "index of Datapool in owning application"] none]

/-- The length of the scratch buffer, if there is to be one. -/
def scratchLength (x : DatapoolCode) : Except Stop Nat :=
  if x.hasScratchBuffer then return (← Stop.unlessFits x.datapool.scratchSize?).toNat else return 0

def scratchBuffer (x : DatapoolCode) (length : Nat) : List Item :=
  [Item.blank, .declare ⟨.internal, false, "uint8", x.datapool.scratchName, some (.number length)⟩ (some x.placement)]

/-- The record of the Datapool. -/
def recordRows (x : DatapoolCode) (scratchLength : Nat) : List Row :=
  let d := x.datapool
  [Row.commented (.list [.constant (Literal.hexByte d.version.1), .constant (Literal.hexByte d.version.2.1),
      .constant (Literal.hexByte d.version.2.2)]) "Datapool version",
    .noted (x.linkage.text x.version) "linkage",
    .noted (Literal.flag d.isSafety) "safety relevant",
    .noted (Literal.count d.lists.length) "number of lists",
    .pointer (some (.item d.listTableName 0))] ++
  (if x.hasRemoteInfo then [Row.pointer (some (.whole d.remoteInfoName))] else []) ++
  (if x.version < 5 then []
    else if x.hasScratchBuffer then
      [Row.pointer (some (.item d.scratchName 0)),
        .noted (Literal.count scratchLength) "NVM scratch buffer size"]
    else [Row.pointer none, .noted (Literal.count 0) "NVM scratch buffer size"]) ++
  [Row.noted (Literal.hexWord d.nvmStartAddress) "NVM start address",
    .noted (Literal.long d.nvmSize.toNat) "NVM size"]

/-- The items of the source, given the values object, the tables of the lists and the length of the buffer. -/
def sourceItems (x : DatapoolCode) (id : Identifier) (values : List Item) (tables : List (List Item))
    (scratchLength : Nat) : List Item :=
  let d := x.datapool
  File.sourceStart d.stem s!"Definition of Datapool {d.name}" [] id ++
    values ++
    [Item.heading "Module Global Constants"] ++
    tables.flatten ++
    x.listTable ++
    (if x.hasRemoteInfo then x.remoteInfo else []) ++
    (if x.hasScratchBuffer then x.scratchBuffer scratchLength else []) ++
    [Item.heading "Global Constants",
      .object (.sharedRecord "T_osy_dpa_data_pool" d.recordName) (x.recordRows scratchLength) none]

def source (x : DatapoolCode) (id : Identifier) : Except Stop File := do
  let values ← if x.isOwn then do pure [Item.heading "Global Variables", ← x.values.mapError .literal] else pure []
  let tables ← x.datapool.lists.mapM x.listTables
  return ⟨x.sourceItems id values tables (← x.scratchLength)⟩

/-! ## Pair -/

/-- What the pair is identified by: all that its text depends on. -/
def content (x : DatapoolCode) : Json :=
  .array [Datapool.codec.write x.datapool, Linkage.codec.write x.linkage, Codec.uint8.write x.ownerProcessId,
    .number (decimal x.indexInOwner), .number (decimal x.indexInApplication), .bool x.wantsScaling,
    .number (decimal x.version)]

def subject (x : DatapoolCode) : String := Event.artifact x.application x.datapool.stem

/-- Public linkage needs layout 4, and the Datapool must be without fault. -/
def check (x : DatapoolCode) : Report ExportError Unit :=
  let d := x.datapool
  if x.linkage = .remotePublic ∧ x.version < 4 then do
    .tell (.error x.subject s!"Public Datapool {d.name} requires subversion 4, got {decimal x.version}")
    .fail (.unsupported (.publicScope d.name))
  else match d.fault? with
    | some fault => Report.onError (.fail (.structural fault)) (.failure x.subject)
    | none => pure ()

def generate (x : DatapoolCode) (id : Identifier) : Report Stop Pair := do
  .lift x.check
  let header ← .ofExcept ((x.header id).mapError .literal)
  let source ← .ofExcept (x.source id)
  .tell (.debug x.subject
    s!"Generated Datapool {x.datapool.name} ({x.linkage.name}, subversion {decimal x.version})")
  return ⟨x.datapool.stem, header, source⟩

end DatapoolCode

end BusNode
