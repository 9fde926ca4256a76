import BusNode.CanOpen.Basic
/-!
# CAN protocols, messages and signals

A protocol has a container of messages for each CAN interface; the values of the signals of an interface stand in two
lists of the protocol's Datapool, one for each direction.
-/

namespace BusNode.Can

inductive ProtocolKind where
  | layer2
  | eCeS
  | eCoS
  | canOpen
  | j1939
  deriving DecidableEq, Repr

/-- When a message is sent. -/
inductive Trigger where
  | cyclic
  | onChange
  | onEvent
  /-- PDO transmission type 0: with a SYNC, after a change. -/
  | canOpenType0
  /-- PDO transmission types 1 to 240: with every n-th SYNC. -/
  | canOpenType1To240
  /-- PDO transmission type 254: an event of the manufacturer. -/
  | canOpenType254
  /-- PDO transmission type 255: an event of the device profile. -/
  | canOpenType255
  deriving DecidableEq, Repr

inductive ByteOrder where
  | intel
  | motorola
  deriving DecidableEq, Repr

/-- The part of a signal in a multiplexed message. -/
inductive MuxRole where
  | none
  | multiplexer
  /-- There only while the multiplexer has this value. -/
  | multiplexed (value : UInt16)
  deriving DecidableEq, Repr

structure Signal where
  bitStart : UInt16
  bitLength : UInt16
  byteOrder : ByteOrder
  mux : MuxRole
  /-- The element that holds the value, in the list of the direction. -/
  elementIndex : UInt32
  /-- The object that the signal is mapped to on a CANopen device. -/
  odIndex : UInt16
  odSubIndex : UInt8
  deriving DecidableEq, Repr

def Signal.new (elementIndex : UInt32) (bitStart bitLength : UInt16) : Signal :=
  ⟨bitStart, bitLength, .intel, .none, elementIndex, 0, 0⟩

structure Message where
  name : String
  comment : String
  canId : UInt32
  isExtended : Bool
  dlc : UInt16
  trigger : Trigger
  /-- The n of PDO transmission types 1 to 240. -/
  syncCount : UInt8
  cycleTime : UInt32
  /-- The least time between two transmissions, in milliseconds. -/
  delayTime : UInt16
  /-- When a received message counts as lost, in milliseconds; 0 for never. -/
  timeout : UInt32
  signals : List Signal
  /-- The CANopen device that the PDO belongs to. -/
  owner : Option CanOpen.DeviceId
  pdoIndex : UInt16
  pdoActive : Bool
  deriving DecidableEq, Repr

namespace Message

def new (name : String) (canId : UInt32) (dlc : UInt16) (trigger : Trigger) : Message :=
  ⟨name, "", canId, false, dlc, trigger, 0, 0, 0, 0, [], none, 0, true⟩

/-- The first multiplexer signal. -/
def multiplexer? (m : Message) : Option Signal := m.signals.find? (·.mux = .multiplexer)

def isMultiplexed (m : Message) : Bool := m.multiplexer?.isSome
def hasSignals (m : Message) : Bool := !m.signals.isEmpty

end Message

/-- A direction of a container. -/
inductive Direction where
  | tx
  | rx
  deriving DecidableEq, Repr

/-- The messages of one protocol on one interface. -/
structure Container where
  active : Bool
  txMessages : List Message
  rxMessages : List Message
  deriving DecidableEq, Repr

namespace Container

def empty : Container := ⟨false, [], []⟩

def messages (c : Container) : Direction → List Message
  | .tx => c.txMessages
  | .rx => c.rxMessages

def messageCount (c : Container) : Nat := c.txMessages.length + c.rxMessages.length

/-- Whether a message of either direction has a signal. -/
def hasSignals (c : Container) : Bool := (c.txMessages ++ c.rxMessages).any Message.hasSignals

end Container

structure Protocol where
  kind : ProtocolKind
  /-- The Datapool that holds the values of the signals. -/
  datapoolIndex : UInt64
  /-- One for each interface. -/
  containers : List Container
  deriving DecidableEq, Repr

/-- The list that holds the values of a direction of an interface. -/
def Direction.listIndex (interface : Nat) : Direction → Nat
  | .tx => 2 * interface
  | .rx => 2 * interface + 1

end BusNode.Can
