import BusNode.Json.Codec
/-!
# CANopen devices and managers

A manager runs on one CAN interface and starts up its devices; what it may write to a device stands in the device's
object dictionary.
-/

namespace BusNode.CanOpen

/-- A device, by the node that it is and the interface of it that is on the bus. -/
structure DeviceId where
  nodeIndex : UInt32
  interfaceNumber : UInt8
  deriving DecidableEq, Repr

/-- What a device lets others do with an entry of its dictionary. -/
inductive Access where
  | readOnly
  | writeOnly
  | readWrite
  /-- Read and write, may be mapped to received PDOs. -/
  | readWriteRpdo
  /-- Read and write, may be mapped to transmitted PDOs. -/
  | readWriteTpdo
  | constant
  deriving DecidableEq, Repr

def Access.isWritable : Access → Bool
  | .writeOnly | .readWrite | .readWriteRpdo | .readWriteTpdo => true
  | .readOnly | .constant => false

/-- A sub-index of an object. -/
structure Entry where
  name : String
  access : Access
  deriving DecidableEq, Repr

/-- The objects of a device by index, then by sub-index. -/
structure Dictionary where
  objects : SortedMap UInt16 (SortedMap UInt8 Entry)
  deriving DecidableEq

namespace Dictionary

def empty : Dictionary := ⟨.empty⟩

/-- Sets an entry, without a name. -/
def insert (d : Dictionary) (index : UInt16) (sub : UInt8) (access : Access) : Dictionary :=
  ⟨d.objects.insert index (((d.objects.get? index).getD .empty).insert sub ⟨"", access⟩)⟩

def entry? (d : Dictionary) (index : UInt16) (sub : UInt8) : Option Entry :=
  (d.objects.get? index).bind (·.get? sub)

/-- Whether the entry exists and may be written. -/
def isWritable (d : Dictionary) (index : UInt16) (sub : UInt8) : Bool :=
  match d.entry? index sub with
  | some e => e.access.isWritable
  | none => false

/-- The sub-indices of an object, ascending, without 0. -/
def subIndices (d : Dictionary) (index : UInt16) : List UInt8 :=
  match d.objects.get? index with
  | some o => o.keys.filter (· ≠ 0)
  | none => []

end Dictionary

structure Device where
  id : DeviceId
  name : String
  nodeId : UInt8
  optional : Bool
  noInitialization : Bool
  factorySettings : Bool
  /-- The sub-index of object 0x1011 that restores the factory settings. -/
  resetSubIndex : UInt8
  heartbeatProducing : Bool
  heartbeatProducerTime : UInt16
  heartbeatConsuming : Bool
  heartbeatConsumerTime : UInt16
  dictionary : Dictionary
  deriving DecidableEq

def Device.new (id : DeviceId) (name : String) (nodeId : UInt8) : Device :=
  ⟨id, name, nodeId, false, false, false, 0, false, 0, false, 0, .empty⟩

/-- What a manager does when a device that is not optional fails. -/
inductive FailurePolicy where
  | resetAll
  | resetFailed
  | stopAll
  deriving DecidableEq, Repr

structure Manager where
  nodeId : UInt8
  autostart : Bool
  startDevices : Bool
  startAll : Bool
  failurePolicy : FailurePolicy
  heartbeatProducing : Bool
  heartbeatProducerTime : UInt16
  /-- In milliseconds. -/
  sdoTimeout : UInt16
  syncProducing : Bool
  /-- In microseconds. -/
  syncCycleTime : UInt32
  /-- In microseconds. -/
  syncWindow : UInt32
  devices : List Device
  deriving DecidableEq

namespace Manager

/-- A manager without devices that starts on its own. -/
def new (nodeId : UInt8) : Manager :=
  ⟨nodeId, true, true, false, .resetAll, false, 0, 100, false, 0, 0, []⟩

/-- The first device of an identity. -/
def device? (m : Manager) (id : DeviceId) : Option Device := m.devices.find? (·.id = id)

/-- The place of the first device of an identity. -/
def position? (m : Manager) (id : DeviceId) : Option Nat := m.devices.findIdx? (·.id = id)

end Manager

end BusNode.CanOpen
