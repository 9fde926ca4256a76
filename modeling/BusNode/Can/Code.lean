import BusNode.Can.MuxGroup
import BusNode.Code.File
import BusNode.Datapool.Code
/-!
# Code of the communication stack

The pair of one protocol on one interface lists its messages and their signals. The signals of all messages of a
direction stand in one array, and every message, or from layout 2 on every multiplex group of it, has a slice of that
array; the groups and the status bytes of multiplexed messages are sliced in the same way.

* `CommCode.tables` — the tables of a direction, or the first fault;
* `CommCode.generate` — the pair, or the first fault.
-/

namespace BusNode

namespace Can

def Direction.name : Direction → String
  | .tx => "Tx"
  | .rx => "Rx"

/-- The names of a protocol in files and in the run-time library. -/
structure Stack where
  symbol : String
  tag : String

/-- CANopen is no part of the communication stack. -/
def ProtocolKind.stack : ProtocolKind → Except ExportError Stack
  | .layer2 => .ok ⟨"l2", "OSY_COM_PROTOCOL_L2"⟩
  | .eCeS => .ok ⟨"eces", "OSY_COM_PROTOCOL_ECES"⟩
  | .eCoS => .ok ⟨"ecos", "OSY_COM_PROTOCOL_ECOS"⟩
  | .j1939 => .ok ⟨"j1939", "OSY_COM_PROTOCOL_J1939"⟩
  | .canOpen => .error (.unsupported .canOpenProtocol)

/-- The stem of the files of a protocol on an interface. -/
def ProtocolKind.stem (p : ProtocolKind) (interface : UInt8) : Except ExportError String := do
  return s!"comm_{(← p.stack).symbol}_{lower (busName interface)}"

namespace Message

/-- The trigger in the message table; CANopen transmission types have none. -/
def triggerTag (m : Message) : Except ExportError String :=
  match m.trigger with
  | .cyclic => .ok "OSY_COM_TRIGGER_CYCLIC"
  | .onChange => .ok "OSY_COM_TRIGGER_ON_CHANGE"
  | .onEvent => .ok "OSY_COM_TRIGGER_ON_EVENT"
  | .canOpenType0 | .canOpenType1To240 | .canOpenType254 | .canOpenType255 => .error (.structural (.trigger m.name))

/-- How many counter values of a safety message may be missed before it counts as lost. -/
def counterGap (m : Message) : Nat :=
  if m.cycleTime = 0 then 0 else m.timeout.toNat / m.cycleTime.toNat - 1

end Message

end Can

open Can

/-- A protocol on one interface. -/
structure CommCode where
  /-- The name of the application. -/
  application : String
  protocol : ProtocolKind
  interface : UInt8
  container : Container
  /-- The Datapool that holds the values of the signals. -/
  datapool : Datapool
  /-- The version of the communication layout. -/
  version : Nat

/-! ## Tables -/

/-- A signal, with the name of its element. -/
structure SignalRow where
  element : String
  descriptor : Descriptor
  deriving DecidableEq, Repr

def SignalRow.row (s : SignalRow) : Row := .noted (Literal.hexWord s.descriptor.word) s.element

/-- A multiplex group of a message, with its slice of the signals. -/
structure MuxRow where
  message : String
  value : UInt16
  count : Nat
  signals : Pointer
  deriving DecidableEq, Repr

def MuxRow.row (m : MuxRow) : Row :=
  .commented (.list [.constant (Literal.count m.value.toNat), .constant (Literal.count m.count), .pointer m.signals])
    m.message

/-- What a message row says of the signals of the message. -/
inductive SignalSlice where
  /-- The slice of the signals, before layout 2. -/
  | signals (count : Nat) (first : Pointer)
  /-- The slices of the multiplex status and of the groups. -/
  | groups (count : Nat) (status first : Pointer)
  deriving DecidableEq, Repr

def SignalSlice.fields : SignalSlice → List Expr
  | .signals count first => [.constant (Literal.count count), .pointer first]
  | .groups count status first => [.constant (Literal.count count), .pointer status, .pointer first]

structure MessageRow where
  name : String
  canId : UInt32
  isExtended : Bool
  dlc : Nat
  trigger : String
  minInterval : Nat
  maxInterval : Nat
  content : SignalSlice
  deriving DecidableEq, Repr

def MessageRow.row (m : MessageRow) : Row :=
  .commented (.list ([
    Expr.constant (Literal.hexWord m.canId),
    .constant (Literal.flag m.isExtended),
    .constant (Literal.count m.dlc),
    .constant m.trigger,
    .constant (Literal.count m.minInterval),
    .constant (Literal.long m.maxInterval)] ++ m.content.fields)) m.name

/-- The counter gap of a safety message. -/
structure GapRow where
  message : String
  gap : Nat
  deriving DecidableEq, Repr

def GapRow.row (g : GapRow) : Row := .noted (Literal.long g.gap) g.message

/-- The tables of one direction. -/
structure CommTables where
  signals : List SignalRow
  groups : List MuxRow
  /-- The length of the status array. -/
  statusCount : Nat
  messages : List MessageRow
  gaps : List GapRow
  deriving DecidableEq, Repr

def CommTables.empty : CommTables := ⟨[], [], 0, [], []⟩

namespace CommCode

/-- The stem, where the protocol has one. -/
def stemOr (x : CommCode) : String := (x.protocol.stem x.interface).toOption.getD ""

/-- The list that holds the values of a direction. -/
def list (x : CommCode) (dir : Direction) : Except ExportError ElementList :=
  match x.datapool.lists[dir.listIndex x.interface.toNat]? with
  | some l => .ok l
  | none => .error (.structural (.missingList x.datapool.name dir.name x.interface))

def arrayName (x : CommCode) (dir : Direction) (marker what : String) : String :=
  s!"{marker}_{x.stemOr}_{dir.name}{what}"

def signalsName (x : CommCode) (dir : Direction) : String := x.arrayName dir "mau32" "Signals"
def groupsName (x : CommCode) (dir : Direction) : String := x.arrayName dir "mat" "MuxDefinitions"
def statusName (x : CommCode) (dir : Direction) : String := x.arrayName dir "mau8" "MuxStatus"
def messagesName (x : CommCode) (dir : Direction) : String := x.arrayName dir "mat" "Messages"
def gapsName (x : CommCode) : String := x.arrayName .rx "mau32" "MessageCounterGaps"

/-- The row of a signal of a message; its element must be in the list, and the signal must fit a descriptor. -/
def signalRow (l : ElementList) (m : Message) (s : Signal) : Except ExportError SignalRow :=
  match l.elements[s.elementIndex.toNat]? with
  | none => .error (.structural (.missingElement m.name s.elementIndex l.name))
  | some e => match Descriptor.ofSignal s with
    | .ok d => .ok ⟨e.name, d⟩
    | .error fault => .error (.structural (.signal e.name m.name fault))

/-- Adds a multiplex group of a message. -/
def addGroup (x : CommCode) (dir : Direction) (l : ElementList) (m : Message) (t : CommTables) (g : MuxGroup) :
    Except ExportError CommTables := do
  let rows ← (g.signals.filterMap (m.signals[·]?)).mapM (signalRow l m)
  return { t with
    signals := t.signals ++ rows
    groups := t.groups ++
      [⟨m.name, g.value, g.signals.length, .slice (x.signalsName dir) t.signals.length g.signals.length⟩] }

/-- Adds the signals of a message, and says where they are. -/
def addSignals (x : CommCode) (dir : Direction) (l : ElementList) (m : Message) (t : CommTables) :
    Except ExportError (CommTables × SignalSlice) := do
  if x.version < 2 then
    let rows ← m.signals.mapM (signalRow l m)
    return ({ t with signals := t.signals ++ rows },
      .signals m.signals.length (.slice (x.signalsName dir) t.signals.length m.signals.length))
  else
    let groups := MuxGroup.ofSignals m.signals
    let t' ← groups.foldlM (x.addGroup dir l m) t
    let n := groups.length
    let first := Pointer.slice (x.groupsName dir) t.groups.length n
    if m.isMultiplexed then
      return ({ t' with statusCount := t.statusCount + n },
        .groups n (.slice (x.statusName dir) t.statusCount n) first)
    else return (t', .groups n none first)

/-- Adds a message. Safety messages carry two bytes that are not the application's, and only changes of sent messages
are held back. -/
def addMessage (x : CommCode) (dir : Direction) (l : ElementList) (t : CommTables) (m : Message) :
    Except ExportError CommTables := do
  let trigger ← m.triggerTag
  if m.isMultiplexed ∧ x.version < 2 then throw (.unsupported (.multiplexed m.name))
  let isSafety := x.protocol = .eCeS
  let (t, content) ← x.addSignals dir l m t
  let row : MessageRow := {
    name := m.name
    canId := m.canId
    isExtended := m.isExtended
    dlc := if isSafety then m.dlc.toNat - 2 else m.dlc.toNat
    trigger
    minInterval := if dir = .tx ∧ m.trigger = .onChange then m.delayTime.toNat else 0
    maxInterval := match dir with
      | .tx => m.cycleTime.toNat
      | .rx => m.timeout.toNat
    content }
  return { t with
    messages := t.messages ++ [row]
    gaps := t.gaps ++ if dir = .rx ∧ isSafety then [⟨m.name, m.counterGap⟩] else [] }

/-- The tables of a direction. -/
def tables (x : CommCode) (dir : Direction) : Except ExportError CommTables := do
  let l ← x.list dir
  (x.container.messages dir).foldlM (x.addMessage dir l) .empty

/-! ## Header -/

def brief (x : CommCode) : String := s!"Communication stack configuration for {busName x.interface}"
def recordName (stem : String) : String := s!"gt_{stem}_ProtocolConfiguration"

/-- The number and the indices of the messages of a direction. -/
def messageDefines (x : CommCode) (dir : Direction) : List Item :=
  let name := s!"{upper x.stemOr}_"
  [Item.blank, .define s!"{name}NUMBER_OF_{upper dir.name}_MESSAGES" "" (.number (x.container.messages dir).length)] ++
    ((x.container.messages dir).zipIdx.map fun (m, i) =>
      Item.define s!"{name}{upper dir.name}_INDEX_{upper m.name}" "" (.number i))

def header (x : CommCode) (id : Identifier) : File :=
  ⟨File.headerStart x.stemOr x.brief ["osy_com_configuration.h"] id ++
    x.messageDefines .tx ++ x.messageDefines .rx ++
    [Item.heading "Global Constants",
      .declare (.externRecord "T_osy_com_protocol_configuration" (recordName x.stemOr)) none] ++
    File.headerEnd⟩

/-! ## Source -/

/-- The multiplex status of a direction; from layout 3 on it has its place in the Datapool's memory region. -/
def statusItems (x : CommCode) (dir : Direction) (t : CommTables) : List Item :=
  if t.statusCount = 0 then []
  else [Item.declare ⟨.internal, false, "uint8", x.statusName dir, some (.number t.statusCount)⟩
    (if 3 ≤ x.version then some ⟨.ofSafety x.datapool.isSafety, true⟩ else none)]

/-- A constant table, unless it has no rows. -/
def tableItems (type name : String) (rows : List Row) : List Item :=
  if rows.isEmpty then [] else [Item.blank, .object (.table type name rows.length) rows none]

def directionItems (x : CommCode) (dir : Direction) (t : CommTables) : List Item :=
  tableItems "uint32" (x.signalsName dir) (t.signals.map SignalRow.row) ++
    tableItems "T_osy_com_mux_definition" (x.groupsName dir) (t.groups.map MuxRow.row) ++
    tableItems "T_osy_com_message_configuration" (x.messagesName dir) (t.messages.map MessageRow.row)

/-- The record of the protocol. -/
def recordRows (x : CommCode) (tag : String) (tx rx : CommTables) : List Row := [
  .noted tag "protocol",
  .noted (Literal.count x.interface.toNat) "CAN interface",
  .pointer (some (.whole x.datapool.recordName)),
  .noted (Literal.count (Direction.tx.listIndex x.interface.toNat)) "Tx list index",
  .noted (Literal.count (Direction.rx.listIndex x.interface.toNat)) "Rx list index",
  .noted (Literal.count tx.messages.length) "number of Tx messages",
  .pointer (.slice (x.messagesName .tx) 0 tx.messages.length),
  .noted (Literal.count rx.messages.length) "number of Rx messages",
  .pointer (.slice (x.messagesName .rx) 0 rx.messages.length),
  .commented (.pointer (.slice x.gapsName 0 rx.gaps.length)) "Rx message counter gaps"]

def source (x : CommCode) (id : Identifier) (tag : String) (tx rx : CommTables) : File :=
  ⟨File.sourceStart x.stemOr x.brief [x.datapool.headerName] id ++
    (if tx.statusCount + rx.statusCount = 0 then []
      else .heading "Module Global Variables" :: (x.statusItems .tx tx ++ x.statusItems .rx rx)) ++
    [Item.heading "Module Global Constants"] ++
    x.directionItems .tx tx ++ x.directionItems .rx rx ++
    tableItems "uint32" x.gapsName (rx.gaps.map GapRow.row) ++
    [Item.heading "Global Constants",
      .object (.sharedRecord "T_osy_com_protocol_configuration" (recordName x.stemOr)) (x.recordRows tag tx rx) none]⟩

/-! ## Pair -/

/-- What the pair is identified by: all that its text depends on. -/
def content (x : CommCode) : Json :=
  .array [ProtocolKind.codec.write x.protocol, Codec.uint8.write x.interface, Container.codec.write x.container,
    Datapool.codec.write x.datapool, .number (decimal x.version)]

def subject (x : CommCode) : String := Event.artifact x.application x.stemOr

/-- A safety message should be monitored. -/
def timeoutWarnings (x : CommCode) : List Event :=
  if x.protocol = .eCeS then
    (x.container.rxMessages.filter (·.timeout = 0)).map fun m =>
      .warning x.subject s!"Safety message {m.name} has no timeout monitoring"
  else []

def generate (x : CommCode) (id : Identifier) : Report ExportError Pair := do
  let stem ← .ofExcept (x.protocol.stem x.interface)
  let stack ← .ofExcept x.protocol.stack
  if !x.container.hasSignals then
    .tell (.error x.subject s!"No message on {busName x.interface} carries a signal")
    Report.fail (.structural (.noSignals stem))
  else
    let tx ← Report.onError (.ofExcept (x.tables .tx)) (.failure x.subject)
    let rx ← Report.onError (.ofExcept (x.tables .rx)) (.failure x.subject)
    x.timeoutWarnings.forM Report.tell
    .tell (.debug x.subject (s!"Generated {decimal x.container.txMessages.length} Tx and " ++
      s!"{decimal x.container.rxMessages.length} Rx messages, subversion {decimal x.version}"))
    return ⟨stem, x.header id, x.source id stack.tag tx rx⟩

end CommCode

end BusNode
