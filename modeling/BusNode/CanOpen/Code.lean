import BusNode.Can.Code
import BusNode.CanOpen.Startup
/-!
# Code of CANopen managers

The pair of the manager on one interface: the startup writes of every device, the devices, the PDOs of each direction
with their signals, and the record of the manager.

* `ManagerCode.plan` — the devices with their writes and the active PDOs with their devices, or the first fault;
* `ManagerCode.generate` — the pair, or the first fault.
-/

namespace BusNode

open Can CanOpen

/-- The manager on one interface. -/
structure ManagerCode where
  /-- The name of the application. -/
  application : String
  interface : UInt8
  manager : Manager
  /-- The CANopen messages of the interface, as the manager sees them. -/
  container : Container
  /-- The Datapool that holds the values of the signals. -/
  datapool : Datapool
  /-- The version of the CANopen layout. -/
  version : Nat

/-! ## Names -/

namespace ManagerCode

/-- The stem of the files of the manager on an interface. -/
def stemOf (interface : UInt8) : String := s!"canopen_mgr_{lower (busName interface)}"

/-- What the defined names of the manager start with. -/
def defineStem (interface : UInt8) : String := upper (stemOf interface)

/-- The record of the manager. -/
def recordName (interface : UInt8) : String := s!"gt_{stemOf interface}_ManagerConfiguration"

end ManagerCode

/-- The table sizes of a manager. -/
structure ManagerSummary where
  interface : UInt8
  devices : Nat
  txPdos : Nat
  rxPdos : Nat
  deriving DecidableEq, Repr

/-- Inactive PDOs are in no table. -/
def ManagerSummary.of (interface : UInt8) (m : Manager) (c : Container) : ManagerSummary :=
  ⟨interface, m.devices.length, c.txMessages.countP (·.pdoActive), c.rxMessages.countP (·.pdoActive)⟩

/-! ## Plan -/

structure DevicePlan where
  device : Device
  dcf : Dcf
  deriving DecidableEq

structure PdoPlan where
  message : Message
  /-- The place of its device in the manager's table. -/
  deviceIndex : Nat
  deriving DecidableEq

structure ManagerPlan where
  devices : List DevicePlan
  txPdos : List PdoPlan
  rxPdos : List PdoPlan
  deriving DecidableEq

/-- A row of the PDO table. -/
structure PdoRow where
  name : String
  canId : UInt32
  isExtended : Bool
  dlc : UInt16
  deviceIndex : Nat
  number : UInt16
  signalCount : Nat
  signals : Pointer
  deriving DecidableEq, Repr

def PdoRow.row (p : PdoRow) : Row :=
  .commented (.list [
    .constant (Literal.hexWord p.canId),
    .constant (Literal.flag p.isExtended),
    .constant (Literal.count p.dlc.toNat),
    .constant (Literal.count p.deviceIndex),
    .constant (Literal.count p.number.toNat),
    .constant (Literal.count p.signalCount),
    .pointer p.signals]) p.name

/-- The tables of the PDOs of one direction. -/
structure PdoTables where
  signals : List SignalRow
  pdos : List PdoRow
  deriving DecidableEq, Repr

namespace ManagerCode

def maxPdoNumber : Nat := 511

def list (x : ManagerCode) (dir : Direction) : Except ExportError ElementList :=
  match x.datapool.lists[dir.listIndex x.interface.toNat]? with
  | some l => .ok l
  | none => .error (.structural (.missingList x.datapool.name dir.name x.interface))

/-- The place of the device of a PDO. -/
def deviceOf (x : ManagerCode) (m : Message) : Except ExportError Nat :=
  let fail (fault : PdoFault) : Except ExportError Nat := .error (.structural (.pdo m.name fault))
  match m.owner with
  | none => fail .noOwner
  | some id => match x.manager.position? id with
    | none => fail (.unknownDevice id)
    | some i => if maxPdoNumber < m.pdoIndex.toNat then fail (.number m.pdoIndex) else .ok i

/-- The active PDOs of a direction; every message must have a device, be it active or not. -/
def pdos (x : ManagerCode) (dir : Direction) : Except ExportError (List PdoPlan) := do
  let _ ← x.list dir
  let plans ← (x.container.messages dir).mapM fun m => return (⟨m, ← x.deviceOf m⟩ : PdoPlan)
  return plans.filter (·.message.pdoActive)

def plan (x : ManagerCode) : Except ExportError ManagerPlan := do
  let tx ← x.pdos .tx
  let rx ← x.pdos .rx
  let devices ← x.manager.devices.mapM fun d => return (⟨d, ← d.writes x.manager x.container⟩ : DevicePlan)
  return ⟨devices, tx, rx⟩

/-! ## Tables -/

def stem (x : ManagerCode) : String := stemOf x.interface
def signalsName (x : ManagerCode) (dir : Direction) : String := s!"mau32_{x.stem}_{dir.name}PdoSignals"
def pdosName (x : ManagerCode) (dir : Direction) : String := s!"mat_{x.stem}_{dir.name}Pdos"
def devicesName (x : ManagerCode) : String := s!"mat_{x.stem}_Devices"
def dcfName (x : ManagerCode) (d : Device) : String := s!"mau8_{x.stem}_{d.name}_ConciseData"

def signalRow (l : ElementList) (m : Message) (s : Signal) : Except ExportError SignalRow :=
  match l.elements[s.elementIndex.toNat]? with
  | none => .error (.structural (.missingPdoElement m.name s.elementIndex l.name))
  | some e => match Descriptor.ofSignal s with
    | .ok d => .ok ⟨e.name, d⟩
    | .error fault => .error (.structural (.pdoSignal fault))

/-- Adds a PDO and its signals. -/
def addPdo (x : ManagerCode) (dir : Direction) (l : ElementList) (t : PdoTables) (p : PdoPlan) :
    Except ExportError PdoTables := do
  let m := p.message
  let rows ← m.signals.mapM (signalRow l m)
  let row : PdoRow := {
    name := m.name
    canId := m.canId
    isExtended := m.isExtended
    dlc := m.dlc
    deviceIndex := p.deviceIndex
    number := m.pdoIndex
    signalCount := m.signals.length
    signals := .slice (x.signalsName dir) t.signals.length m.signals.length }
  return ⟨t.signals ++ rows, t.pdos ++ [row]⟩

/-- The tables of a direction. -/
def tables (x : ManagerCode) (dir : Direction) (pdos : List PdoPlan) : Except ExportError PdoTables :=
  if pdos.isEmpty then .ok ⟨[], []⟩
  else do
    let l ← x.list dir
    pdos.foldlM (x.addPdo dir l) ⟨[], []⟩

/-! ## Header -/

def brief (x : ManagerCode) : String := s!"CANopen manager configuration for {busName x.interface}"

def header (x : ManagerCode) (id : Identifier) (p : ManagerPlan) : File :=
  let name := defineStem x.interface
  ⟨File.headerStart x.stem x.brief ["osy_com_canopen_configuration.h"] id ++
    [Item.blank,
      .define s!"{name}_NUMBER_OF_DEVICES" "" (.number p.devices.length),
      .define s!"{name}_NUMBER_OF_TX_PDOS" "" (.number p.txPdos.length),
      .define s!"{name}_NUMBER_OF_RX_PDOS" "" (.number p.rxPdos.length),
      .blank] ++
    (p.devices.zipIdx.map fun (d, i) => Item.define s!"{name}_DEVICE_INDEX_{upper d.device.name}" "" (.number i)) ++
    [Item.heading "Global Constants",
      .declare (.externRecord "T_osy_com_canopen_manager_configuration" (recordName x.interface)) none] ++
    File.headerEnd⟩

/-! ## Source -/

def dcfItems (x : ManagerCode) (d : DevicePlan) : List Item :=
  [Item.blank, .line s!"///concise DCF of device {d.device.name}",
    .listing (.table "uint8" (x.dcfName d.device) d.dcf.size) d.dcf.lines]

/-- A row of the device table; from layout 2 on with the sub-index of the factory reset. -/
def deviceRow (x : ManagerCode) (d : DevicePlan) : Row :=
  let v := d.device
  .commented (.list (
    [Expr.constant (Literal.count v.nodeId.toNat),
      .constant (Literal.flag v.optional),
      .constant (Literal.flag v.noInitialization)] ++
    (if x.version < 2 then []
      else [Expr.constant (Literal.count (if v.factorySettings then v.resetSubIndex.toNat else 0))]) ++
    [Expr.constant (Literal.count (if v.heartbeatProducing then v.heartbeatProducerTime.toNat else 0)),
      .constant (Literal.long d.dcf.size),
      .pointer (some (.item (x.dcfName v) 0))])) v.name

def pdoItems (x : ManagerCode) (dir : Direction) (t : PdoTables) : List Item :=
  CommCode.tableItems "uint32" (x.signalsName dir) (t.signals.map SignalRow.row) ++
    CommCode.tableItems "T_osy_com_canopen_pdo_configuration" (x.pdosName dir) (t.pdos.map PdoRow.row)

def startTag (m : Manager) : String :=
  if !m.startDevices then "OSY_COM_CANOPEN_NMT_START_NO"
  else if m.startAll then "OSY_COM_CANOPEN_NMT_START_ALL"
  else "OSY_COM_CANOPEN_NMT_START_YES"

def policyTag : FailurePolicy → String
  | .resetAll => "OSY_COM_CANOPEN_NMT_ERROR_RESET_ALL"
  | .resetFailed => "OSY_COM_CANOPEN_NMT_ERROR_RESET_FAILED"
  | .stopAll => "OSY_COM_CANOPEN_NMT_ERROR_STOP_ALL"

/-- The record of the manager; from layout 2 on with its SYNC times. -/
def recordRows (x : ManagerCode) (p : ManagerPlan) : List Row :=
  let m := x.manager
  [Row.noted (Literal.count x.interface.toNat) "CAN interface",
    .noted (Literal.count m.nodeId.toNat) "manager node ID",
    .noted (Literal.flag m.autostart) "autostart",
    .noted (startTag m) "NMT start",
    .noted (policyTag m.failurePolicy) "NMT error behaviour",
    .noted (Literal.count (if m.heartbeatProducing then m.heartbeatProducerTime.toNat else 0))
      "heartbeat producer time",
    .noted (Literal.count m.sdoTimeout.toNat) "SDO timeout"] ++
  (if x.version < 2 then []
    else [Row.noted (Literal.long m.syncTiming.1.toNat) "SYNC cycle time",
      .noted (Literal.long m.syncTiming.2.toNat) "SYNC window length"]) ++
  [Row.pointer (some (.whole x.datapool.recordName)),
    .noted (Literal.count (Direction.tx.listIndex x.interface.toNat)) "Tx list index",
    .noted (Literal.count (Direction.rx.listIndex x.interface.toNat)) "Rx list index",
    .noted (Literal.count p.devices.length) "number of devices",
    .pointer (.slice x.devicesName 0 p.devices.length),
    .noted (Literal.count p.txPdos.length) "number of Tx PDOs",
    .pointer (.slice (x.pdosName .tx) 0 p.txPdos.length),
    .noted (Literal.count p.rxPdos.length) "number of Rx PDOs",
    .pointer (.slice (x.pdosName .rx) 0 p.rxPdos.length)]

def source (x : ManagerCode) (id : Identifier) (p : ManagerPlan) : Except ExportError File := do
  let tx ← x.tables .tx p.txPdos
  let rx ← x.tables .rx p.rxPdos
  return ⟨File.sourceStart x.stem x.brief [x.datapool.headerName] id ++
    [Item.heading "Module Global Constants"] ++
    p.devices.flatMap x.dcfItems ++
    CommCode.tableItems "T_osy_com_canopen_device_configuration" x.devicesName (p.devices.map x.deviceRow) ++
    x.pdoItems .tx tx ++ x.pdoItems .rx rx ++
    [Item.heading "Global Constants",
      .object (.sharedRecord "T_osy_com_canopen_manager_configuration" (recordName x.interface)) (x.recordRows p)
        none]⟩

/-! ## Pair -/

/-- What the pair is identified by: all that its text depends on. -/
def content (x : ManagerCode) : Json :=
  .array [Codec.uint8.write x.interface, Manager.codec.write x.manager, Container.codec.write x.container,
    Datapool.codec.write x.datapool, .number (decimal x.version)]

def subject (x : ManagerCode) : String := Event.artifact x.application x.stem

def deviceEvent (x : ManagerCode) (d : DevicePlan) : Event :=
  .info x.subject (s!"Device {d.device.name} (node {decimal d.device.nodeId.toNat}): " ++
    s!"{decimal d.dcf.writes.length} concise entries, {decimal d.dcf.size} bytes")

def generate (x : ManagerCode) (id : Identifier) : Report ExportError Pair := do
  let p ← Report.onError (.ofExcept x.plan) (.failure x.subject)
  (p.devices.map x.deviceEvent).forM Report.tell
  let source ← .ofExcept (x.source id p)
  .tell (.debug x.subject
    s!"Generated manager with {decimal p.devices.length} devices, subversion {decimal x.version}")
  return ⟨x.stem, x.header id p, source⟩

end ManagerCode

end BusNode
