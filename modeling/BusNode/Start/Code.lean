import BusNode.CanOpen.Aggregate
import BusNode.Halc.Code
/-!
# Code of the start table

One pair of an application collects its Datapools and everything else that was generated for it in one record, from
which the run-time library starts. The application that hosts the diagnostic driver also has the driver's settings.
-/

namespace BusNode

/-- The diagnostic driver of an application. -/
structure DriverSettings where
  processId : UInt8
  server : ServerSettings
  /-- All interfaces of the node; those with a diagnosis server are used. -/
  interfaces : List BusInterface
  deriving DecidableEq, Repr

/-- What an application starts from. -/
structure StartCode where
  /-- The name of the application. -/
  application : String
  /-- The Datapools that the application sees, in its order. -/
  datapools : List Datapool
  /-- The stems of the communication pairs. -/
  protocols : List String
  hasCanOpen : Bool
  halc : List Halc.Variant
  driver : Option DriverSettings
  /-- The version of the layout. -/
  version : Nat

namespace BusInterface

def tag (i : BusInterface) : String :=
  match i.kind with
  | .can => "OSY_DPD_INTERFACE_CAN"
  | .ethernet => "OSY_DPD_INTERFACE_ETHERNET"

/-- The name of the interface; interfaces are counted from 1. -/
def displayName (i : BusInterface) : String :=
  match i.kind with
  | .can => busName i.number
  | .ethernet => s!"ETH{decimal (i.number.toNat + 1)}"

def row (i : BusInterface) : Row :=
  .commented (.list [
    .constant i.tag,
    .constant (Literal.count i.number.toNat),
    .constant (Literal.count i.nodeId.toNat),
    .constant (Literal.flag i.routing)]) i.displayName

end BusInterface

namespace StartCode

def stem : String := "osy_init"

/-- A name that the header defines. -/
def defined (name : String) : String := s!"{upper stem}_{name}"

def recordName : String := s!"gt_{stem}_Configuration"
def driverName : String := s!"gt_{stem}_DpdConfiguration"
def datapoolsName : String := s!"mapt_{stem}_DataPools"
def protocolsName : String := s!"mapt_{stem}_Protocols"
def interfacesName : String := s!"mat_{stem}_DpdInterfaces"

/-! ## Header -/

/-- The headers of everything that the record refers to. -/
def includes (x : StartCode) : List String :=
  "osy_init_configuration.h" :: x.datapools.map Datapool.headerName ++ x.protocols.map (· ++ ".h") ++
    (if x.hasCanOpen then [AggregateCode.stem ++ ".h"] else []) ++ x.halc.map (·.stem ++ ".h")

def header (x : StartCode) (id : Identifier) : File :=
  ⟨File.headerStart stem "Runtime initialization" x.includes id ++
    [Item.blank,
      .define (defined "NUMBER_OF_DATA_POOLS") "" (.number x.datapools.length),
      .define (defined "NUMBER_OF_PROTOCOLS") "" (.number x.protocols.length),
      .heading "Global Constants",
      .declare (.externRecord "T_osy_init_configuration" recordName) none] ++
    (if x.driver.isSome then [Item.declare (.externRecord "T_osy_dpd_configuration" driverName) none] else []) ++
    File.headerEnd⟩

/-! ## Source -/

/-- A table of addresses, as long as a defined name says, unless it has no rows. -/
def addressTable (type name length : String) (objects : List String) : List Item :=
  if objects.isEmpty then []
  else [Item.blank, .object ⟨.internal, true, s!"{type} * const", name, some (.symbol (defined length))⟩
    (objects.map fun o => .pointer (some (.whole o))) none]

/-- The interfaces and the record of the diagnostic driver. -/
def driverItems (d : DriverSettings) : List Item :=
  let used := d.interfaces.filter (·.diagnosisServer)
  (if used.isEmpty then []
    else [Item.object (.table "T_osy_dpd_interface_configuration" interfacesName used.length)
      (used.map BusInterface.row) none, .blank]) ++
  [Item.object (.sharedRecord "T_osy_dpd_configuration" driverName) [
    .noted (Literal.count d.processId.toNat) "process ID",
    .noted (Literal.count d.server.maxClients.toNat) "maximum number of clients",
    .noted (Literal.count d.server.maxParallelTransmissions.toNat) "maximum parallel transmissions",
    .noted (Literal.count d.server.maxTxBufferSize.toNat) "Tx message buffer size",
    .noted (Literal.count d.server.maxRoutingBufferSize.toNat) "Rx routing message buffer size",
    .noted (Literal.count used.length) "number of interfaces",
    .pointer (.slice interfacesName 0 used.length)] none, .blank]

/-- The record of a variant, if it was generated. -/
def halcPointer (x : StartCode) (v : Halc.Variant) : Pointer :=
  .optional (if v ∈ x.halc then some v.recordName else none)

def source (x : StartCode) (id : Identifier) : File :=
  ⟨File.sourceStart stem "Runtime initialization" [] id ++
    [Item.heading "Module Global Constants"] ++
    addressTable "T_osy_dpa_data_pool" datapoolsName "NUMBER_OF_DATA_POOLS" (x.datapools.map Datapool.recordName) ++
    addressTable "T_osy_com_protocol_configuration" protocolsName "NUMBER_OF_PROTOCOLS"
      (x.protocols.map CommCode.recordName) ++
    [Item.heading "Global Constants"] ++
    (match x.driver with
      | none => []
      | some d => driverItems d) ++
    [Item.object (.sharedRecord "T_osy_init_configuration" recordName) [
      .constant (defined "NUMBER_OF_DATA_POOLS"),
      .pointer (.slice datapoolsName 0 x.datapools.length),
      .constant (defined "NUMBER_OF_PROTOCOLS"),
      .pointer (.slice protocolsName 0 x.protocols.length),
      .commented (.pointer (.optional (if x.hasCanOpen then some AggregateCode.recordName else none))) "CANopen",
      .commented (.pointer (x.halcPointer .safe)) "safe HALC",
      .commented (.pointer (x.halcPointer .nonSafe)) "non-safe HALC"] none]⟩

/-! ## Pair -/

/-- What the pair is identified by. -/
def content (x : StartCode) : Json :=
  .array [.array (x.datapools.map fun d => .string d.name), .array (x.protocols.map .string), .bool x.hasCanOpen,
    .array (x.halc.map Halc.Variant.codec.write),
    (match x.driver with
      | none => .null
      | some d => .array [Codec.uint8.write d.processId, ServerSettings.codec.write d.server,
          .array (d.interfaces.map BusInterface.codec.write)]),
    .number (decimal x.version)]

def generate (x : StartCode) (id : Identifier) : Report ExportError Pair := do
  let subject := Event.artifact x.application stem
  if x.driver.isSome then
    .tell (.info subject "Application hosts the diagnostic protocol driver")
  .tell (.debug subject (s!"Generated init wrapper: {decimal x.datapools.length} Datapools, " ++
    s!"{decimal x.protocols.length} protocols, subversion {decimal x.version}"))
  return ⟨stem, x.header id, x.source id⟩

end StartCode

end BusNode
