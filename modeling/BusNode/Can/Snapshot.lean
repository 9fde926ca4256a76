import BusNode.Can.Basic
import BusNode.CanOpen.Snapshot
/-!
# CAN protocols in a snapshot
-/

namespace BusNode.Can

namespace ProtocolKind

def name : ProtocolKind → String
  | .layer2 => "Layer2"
  | .eCeS => "ECeS"
  | .eCoS => "ECoS"
  | .canOpen => "CanOpen"
  | .j1939 => "J1939"

def codec : Codec ProtocolKind := .enumeration [.layer2, .eCeS, .eCoS, .canOpen, .j1939] name

end ProtocolKind

namespace Trigger

def name : Trigger → String
  | .cyclic => "Cyclic"
  | .onChange => "OnChange"
  | .onEvent => "OnEvent"
  | .canOpenType0 => "CanOpenType0"
  | .canOpenType1To240 => "CanOpenType1To240"
  | .canOpenType254 => "CanOpenType254"
  | .canOpenType255 => "CanOpenType255"

def codec : Codec Trigger :=
  .enumeration [.cyclic, .onChange, .onEvent, .canOpenType0, .canOpenType1To240, .canOpenType254, .canOpenType255] name

end Trigger

namespace ByteOrder

def name : ByteOrder → String
  | .intel => "Intel"
  | .motorola => "Motorola"

def codec : Codec ByteOrder := .enumeration [.intel, .motorola] name

end ByteOrder

namespace MuxRole

def write : MuxRole → Json
  | .none => .string "None"
  | .multiplexer => .string "Multiplexer"
  | .multiplexed v => Codec.tagged "Multiplexed" (Codec.uint16.write v)

def read (j : Json) : Option MuxRole :=
  match Codec.unit? j with
  | some "None" => some .none
  | some "Multiplexer" => some .multiplexer
  | _ => match Codec.variant? j with
    | some ("Multiplexed", some payload) => (Codec.uint16.read payload).map .multiplexed
    | _ => Option.none

def codec : Codec MuxRole := ⟨write, read⟩

end MuxRole

namespace Signal

def codec : Codec Signal := .record
  (.cons "bit_start" .uint16 .required <|
   .cons "bit_length" .uint16 .required <|
   .cons "byte_order" ByteOrder.codec (.default .intel) <|
   .cons "mux" MuxRole.codec (.default .none) <|
   .cons "element_index" .uint32 .required <|
   .cons "od_index" .uint16 (.default 0) <|
   .cons "od_sub_index" .uint8 (.default 0) .nil)
  (fun s => (s.bitStart, s.bitLength, s.byteOrder, s.mux, s.elementIndex, s.odIndex, s.odSubIndex, ()))
  (fun (start, length, order, mux, element, index, sub, ()) => ⟨start, length, order, mux, element, index, sub⟩)

end Signal

namespace Message

def codec : Codec Message := .record
  (.cons "name" .string .required <|
   .cons "comment" .string (.default "") <|
   .cons "can_id" .uint32 .required <|
   .cons "is_extended" .bool (.default false) <|
   .cons "dlc" .uint16 .required <|
   .cons "tx_method" Trigger.codec .required <|
   .cons "canopen_sync_count" .uint8 (.default 0) <|
   .cons "cycle_time_ms" .uint32 (.default 0) <|
   .cons "delay_time_ms" .uint16 (.default 0) <|
   .cons "timeout_ms" .uint32 (.default 0) <|
   .cons "signals" (.list Signal.codec) .required <|
   .cons "canopen_owner" (.option CanOpen.DeviceId.codec) (.default none) <|
   .cons "canopen_pdo_index" .uint16 (.default 0) <|
   .cons "canopen_active" .bool (.default true) .nil)
  (fun m => (m.name, m.comment, m.canId, m.isExtended, m.dlc, m.trigger, m.syncCount, m.cycleTime, m.delayTime,
    m.timeout, m.signals, m.owner, m.pdoIndex, m.pdoActive, ()))
  (fun (name, comment, canId, isExtended, dlc, trigger, syncCount, cycleTime, delayTime, timeout, signals, owner,
      pdoIndex, pdoActive, ()) =>
    ⟨name, comment, canId, isExtended, dlc, trigger, syncCount, cycleTime, delayTime, timeout, signals, owner,
      pdoIndex, pdoActive⟩)

end Message

namespace Container

def codec : Codec Container := .record
  (.cons "active" .bool (.default false) <|
   .cons "tx_messages" (.list Message.codec) .required <|
   .cons "rx_messages" (.list Message.codec) .required .nil)
  (fun c => (c.active, c.txMessages, c.rxMessages, ()))
  (fun (active, tx, rx, ()) => ⟨active, tx, rx⟩)

end Container

namespace Protocol

def codec : Codec Protocol := .record
  (.cons "protocol" ProtocolKind.codec .required <|
   .cons "datapool_index" .uint64 .required <|
   .cons "containers" (.list Container.codec) .required .nil)
  (fun p => (p.kind, p.datapoolIndex, p.containers, ()))
  (fun (kind, datapoolIndex, containers, ()) => ⟨kind, datapoolIndex, containers⟩)

end Protocol

end BusNode.Can
