import BusNode.CanOpen.Code
/-!
# Code of all CANopen managers together

One pair collects the managers of all interfaces. Its totals are sums of names that the headers of the managers define,
so that it stays right when a manager is generated anew; the instance tables of a kind are left out when there is none
of the kind.
-/

namespace BusNode

/-- All managers of an application. -/
structure AggregateCode where
  /-- The name of the application. -/
  application : String
  /-- By ascending interface. -/
  managers : List ManagerSummary
  /-- The version of the CANopen layout. -/
  version : Nat

/-- A kind of instance that the run-time library keeps. -/
structure InstanceKind where
  /-- The name of the table. -/
  table : String
  type : String
  /-- What the name of its number ends in. -/
  number : String
  count : ManagerSummary → Nat

namespace AggregateCode

def stem : String := "canopen_init"
def recordName : String := s!"gt_{stem}_InitConfig"

/-- A name that the header defines. -/
def defined (name : String) : String := s!"{upper stem}_{name}"

def kinds : List InstanceKind := [
  ⟨"ManagerInstances", "manager", "NUMBER_OF_MANAGERS", fun _ => 1⟩,
  ⟨"DeviceInstances", "device", "NUMBER_OF_DEVICES", ManagerSummary.devices⟩,
  ⟨"TxPdoInstances", "pdo", "NUMBER_OF_TX_PDOS", ManagerSummary.txPdos⟩,
  ⟨"RxPdoInstances", "pdo", "NUMBER_OF_RX_PDOS", ManagerSummary.rxPdos⟩]

/-- The names of a number in the headers of the managers. -/
def summands (managers : List ManagerSummary) (number : String) : List String :=
  managers.map fun m => s!"{ManagerCode.defineStem m.interface}_{number}"

-- Sums begin at the numeral zero, also where the zero of monoids is known.
attribute [local instance (high)] Zero.ofOfNat0

def total (x : AggregateCode) (k : InstanceKind) : Nat := (x.managers.map k.count).sum

/-- Whether the totals are 64-bit numbers. -/
def fits (x : AggregateCode) : Bool := kinds.all (x.total · < 2 ^ 64)

def header (x : AggregateCode) (id : Identifier) : File :=
  ⟨File.headerStart stem "CANopen initialization"
      ("osy_com_canopen_configuration.h" :: x.managers.map fun m => ManagerCode.stemOf m.interface ++ ".h") id ++
    [Item.blank, .define (defined "NUMBER_OF_MANAGERS") "" (.number x.managers.length)] ++
    (["NUMBER_OF_DEVICES", "NUMBER_OF_TX_PDOS", "NUMBER_OF_RX_PDOS"].map fun number =>
      Item.define (defined number) "" (.sum (summands x.managers number))) ++
    [Item.heading "Global Constants",
      .declare (.externRecord "T_osy_com_canopen_init_configuration" recordName) none] ++
    File.headerEnd⟩

def tableName (k : InstanceKind) : String := s!"mat_{stem}_{k.table}"

def instanceItems (x : AggregateCode) (k : InstanceKind) : List Item :=
  if x.total k = 0 then []
  else [Item.declare ⟨.internal, false, s!"T_osy_com_canopen_{k.type}_instance", tableName k,
    some (.symbol (defined k.number))⟩ (some ⟨.nonSafe, 2 ≤ x.version⟩)]

def configsName : String := s!"mapt_{stem}_ManagerConfigs"

def source (x : AggregateCode) (id : Identifier) : File :=
  ⟨File.sourceStart stem "CANopen initialization" [] id ++
    [Item.heading "Module Global Variables"] ++
    kinds.flatMap x.instanceItems ++
    [Item.heading "Module Global Constants",
      .object ⟨.internal, true, "T_osy_com_canopen_manager_configuration * const", configsName,
          some (.symbol (defined "NUMBER_OF_MANAGERS"))⟩
        (x.managers.map fun m => .pointer (some (.whole (ManagerCode.recordName m.interface)))) none,
      .heading "Global Constants",
      .object (.sharedRecord "T_osy_com_canopen_init_configuration" recordName)
        ([Row.constant (defined "NUMBER_OF_MANAGERS"), .pointer (some (.item configsName 0))] ++
          kinds.map fun k => Row.pointer (.slice (tableName k) 0 (x.total k))) none]⟩

/-- What the pair is identified by: all that its text depends on. -/
def content (x : AggregateCode) : Json :=
  .array [.array (x.managers.map fun m => .array [Codec.uint8.write m.interface, .number (decimal m.devices),
    .number (decimal m.txPdos), .number (decimal m.rxPdos)]), .number (decimal x.version)]

def generate (x : AggregateCode) (id : Identifier) : Report Stop Pair := do
  let subject := Event.artifact x.application stem
  if x.managers.isEmpty then
    .lift (.onError (.fail (.structural .noManager)) (.failure subject))
  else if !x.fits then
    .fail .overflow
  else
    .tell (.debug subject s!"Aggregated {decimal x.managers.length} managers, subversion {decimal x.version}")
    return ⟨stem, x.header id, x.source id⟩

end AggregateCode

end BusNode
