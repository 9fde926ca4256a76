import BusNode.CanOpen.Dcf
import BusNode.Report
/-!
# Startup writes

What a manager writes to a device at startup: the times and identifiers of the device, then each of its PDOs by
number, the received ones first. Only what the device's dictionary lets be written is written, and a PDO is switched
off while its mapping changes.

* `Device.writes` — the writes to a device, or the first fault of one of its PDOs.
-/

namespace BusNode.CanOpen

open Can (Message Direction Container)

/-! ## PDOs -/

/-- The transmission type of a PDO. -/
def transmissionType (m : Message) : Except PdoFault UInt8 :=
  match m.trigger with
  | .canOpenType0 => .ok 0
  | .canOpenType1To240 =>
    if 1 ≤ m.syncCount ∧ m.syncCount ≤ 240 then .ok m.syncCount else .error (.syncCount m.syncCount)
  | .canOpenType254 => .ok 254
  | .canOpenType255 => .ok 255
  | .cyclic | .onChange | .onEvent => .error .transmissionType

/-- The bit of a COB-ID that switches its PDO off. -/
def cobIdInvalid : UInt32 := 0x80000000

/-- The identifier of a PDO, without remote requests, and its format. -/
def cobId (m : Message) : UInt32 := m.canId ||| 0x40000000 ||| (if m.isExtended then 0x20000000 else 0)

/-- The objects of a PDO of a device. -/
structure PdoObjects where
  communication : UInt16
  mapping : UInt16
  /-- What the PDO is to the device. -/
  kind : String
  deriving DecidableEq, Repr

/-- A message that the manager sends is received by the device, and the other way round. -/
def PdoObjects.of (dir : Direction) (number : UInt16) : PdoObjects :=
  match dir with
  | .tx => ⟨0x1400 + number, 0x1600 + number, "RPDO"⟩
  | .rx => ⟨0x1800 + number, 0x1A00 + number, "TPDO"⟩

/-- The word of the object that a signal is mapped to: its length, sub-index and index. -/
def mappingWord (s : Can.Signal) : UInt32 :=
  s.bitLength.toUInt32 ||| (s.odSubIndex.toUInt32 <<< 8) ||| (s.odIndex.toUInt32 <<< 16)

/-- Writes that a condition asks for. -/
def when (condition : Bool) (writes : List Write) : List Write := if condition then writes else []

/-- Writes that a condition asks for, unless they have a fault. -/
def whenOk {ε : Type} (condition : Bool) (writes : Except ε (List Write)) : Except ε (List Write) :=
  if condition then writes else .ok []

/-- The inhibit time in steps of 100 microseconds. -/
def inhibitTime (m : Message) : Except PdoFault UInt16 :=
  if m.delayTime.toNat * 10 < 2 ^ 16 then .ok (m.delayTime * 10) else .error .inhibitTime

/-- The cycle time of a PDO that the device sends, the timeout of one that it receives. -/
def eventTime (dir : Direction) (m : Message) : Except PdoFault UInt16 :=
  let time := match dir with
    | .rx => m.cycleTime
    | .tx => m.timeout
  if time.toNat < 2 ^ 16 then .ok time.toUInt16 else .error .eventTime

/-- The communication parameters of an active PDO. -/
def parameterWrites (od : Dictionary) (dir : Direction) (m : Message) (o : PdoObjects) (label : String) :
    Except PdoFault (List Write) := do
  let c := o.communication
  let type ← whenOk (od.isWritable c 2) do
    return [.byte c 2 (← transmissionType m) s!"{label}: transmission type"]
  let inhibit ← whenOk (od.isWritable c 3) do
    return [.short c 3 (← inhibitTime m) s!"{label}: inhibit time"]
  let event ← whenOk (od.isWritable c 5) do
    return [.short c 5 (← eventTime dir m) s!"{label}: event time"]
  return type ++ inhibit ++ event ++
    when (dir = .rx && od.isWritable c 6) [.byte c 6 0 s!"{label}: SYNC start value"]

/-- The mapping of a PDO: cleared, set object by object, and counted. -/
def mappingWrites (m : Message) (o : PdoObjects) (label : String) : List Write :=
  [Write.byte o.mapping 0 0 s!"{label}: clear mapping"] ++
    (m.signals.zipIdx.map fun (s, i) =>
      Write.long o.mapping (UInt8.ofNat (i + 1)) (mappingWord s)
        s!"{label}: map 0x{hexUpper 4 s.odIndex.toNat}:{hexUpper 2 s.odSubIndex.toNat}") ++
    [Write.byte o.mapping 0 (UInt8.ofNat m.signals.length) s!"{label}: number of mapped objects"]

/-- The writes of one PDO: off, parameters, mapping, on. -/
def pdoWrites (od : Dictionary) (dir : Direction) (m : Message) : Except ExportError (List Write) := do
  let o := PdoObjects.of dir m.pdoIndex
  let label := s!"{o.kind}{decimal (m.pdoIndex.toNat + 1)} {m.name}"
  let mayDisable := od.isWritable o.communication 1
  let parameters ← whenOk m.pdoActive
    ((parameterWrites od dir m o label).mapError fun fault => .structural (.pdo m.name fault))
  let mayMap := od.isWritable o.mapping 0 && mayDisable
  if mayMap ∧ 2 ^ 8 ≤ m.signals.length then throw (.range "PDO mapping objects" m.signals.length (2 ^ 8))
  return when mayDisable [.long o.communication 1 (cobId m ||| cobIdInvalid) s!"{label}: disable"] ++
    parameters ++
    when mayMap (mappingWrites m o label) ++
    when (m.pdoActive && mayDisable) [.long o.communication 1 (cobId m) s!"{label}: set and enable"]

/-! ## Devices -/

namespace Manager

/-- The SYNC cycle and window; none while the manager sends no SYNC. -/
def syncTiming (m : Manager) : UInt32 × UInt32 := if m.syncProducing then (m.syncCycleTime, m.syncWindow) else (0, 0)

end Manager

namespace Device

/-- The manager is watched through the first entry of the heartbeat consumer object; the others are cleared. -/
def heartbeatConsumer (d : Device) (manager : Manager) (sub : UInt8) : UInt32 :=
  if sub = 1 then
    (if d.heartbeatConsuming then d.heartbeatConsumerTime.toUInt32 else 0) ||| (manager.nodeId.toUInt32 <<< 16)
  else 0

/-- The writes to the device's own objects. -/
def objectWrites (manager : Manager) (d : Device) : List Write :=
  let od := d.dictionary
  when (od.isWritable 0x1005 0) [.long 0x1005 0 0x80 "SYNC COB-ID"] ++
    when (od.isWritable 0x1006 0) [.long 0x1006 0 manager.syncTiming.1 "communication cycle period"] ++
    when (od.isWritable 0x1007 0) [.long 0x1007 0 manager.syncTiming.2 "synchronous window length"] ++
    when (od.isWritable 0x1014 0) [.long 0x1014 0 (0x80 + d.nodeId.toUInt32) "EMCY COB-ID"] ++
    ((od.subIndices 0x1016).filter (od.isWritable 0x1016)).map (fun sub =>
      Write.long 0x1016 sub (d.heartbeatConsumer manager sub) "heartbeat consumer time") ++
    when (od.isWritable 0x1017 0)
      [.short 0x1017 0 (if d.heartbeatProducing then d.heartbeatProducerTime else 0) "heartbeat producer time"]

/-- The messages of a device by ascending PDO number; those of one number keep their order. -/
def ownMessages (d : Device) (messages : List Message) : List Message :=
  (messages.filter (·.owner = some d.id)).mergeSort fun a b => a.pdoIndex ≤ b.pdoIndex

/-- The writes of the PDOs of one direction. -/
def directionWrites (c : Container) (d : Device) (dir : Direction) : Except ExportError (List Write) := do
  return (← (d.ownMessages (c.messages dir)).mapM (pdoWrites d.dictionary dir)).flatten

/-- All writes to a device. -/
def writes (manager : Manager) (c : Container) (d : Device) : Except ExportError Dcf := do
  let received ← d.directionWrites c .tx
  let sent ← d.directionWrites c .rx
  return ⟨d.objectWrites manager ++ received ++ sent⟩

end Device

end BusNode.CanOpen
