import BusNode.Can.Snapshot
import BusNode.Datapool.Snapshot
import BusNode.Halc.Snapshot
import BusNode.Json.Printer
import BusNode.Node.Basic
/-!
# Snapshots

* `Node.read` — the node of a JSON text;
* `Node.write` — the JSON text of a node, with every field.
-/

namespace BusNode

namespace ApplicationKind

def name : ApplicationKind → String
  | .programmable => "Programmable"
  | .parameterSetHalc => "ParameterSetHalc"
  | .binary => "Binary"

def codec : Codec ApplicationKind := .enumeration [.programmable, .parameterSetHalc, .binary] name

end ApplicationKind

namespace Application

def codec : Codec Application := .record
  (.cons "name" .string .required <|
   .cons "comment" .string (.default "") <|
   .cons "kind" ApplicationKind.codec .required <|
   .cons "code_format_version" .uint16 .required <|
   .cons "process_id" .uint8 .required <|
   .cons "active" .bool (.default true) .nil)
  (fun a => (a.name, a.comment, a.kind, a.formatVersion, a.processId, a.active, ()))
  (fun (name, comment, kind, formatVersion, processId, active, ()) =>
    ⟨name, comment, kind, formatVersion, processId, active⟩)

end Application

namespace BusKind

def name : BusKind → String
  | .can => "Can"
  | .ethernet => "Ethernet"

def codec : Codec BusKind := .enumeration [.can, .ethernet] name

end BusKind

namespace BusInterface

def codec : Codec BusInterface := .record
  (.cons "kind" BusKind.codec .required <|
   .cons "number" .uint8 .required <|
   .cons "node_id" .uint8 .required <|
   .cons "diagnosis_server" .bool (.default false) <|
   .cons "routing" .bool (.default false) <|
   .cons "bitrate_kbps" .uint32 (.default 0) .nil)
  (fun i => (i.kind, i.number, i.nodeId, i.diagnosisServer, i.routing, i.bitrate, ()))
  (fun (kind, number, nodeId, diagnosisServer, routing, bitrate, ()) =>
    ⟨kind, number, nodeId, diagnosisServer, routing, bitrate⟩)

end BusInterface

namespace ServerSettings

def codec : Codec ServerSettings := .record
  (.cons "dpd_data_block" (.option .uint64) .nothing <|
   .cons "max_clients" .uint8 .required <|
   .cons "max_parallel_transmissions" .uint8 .required <|
   .cons "max_tx_message_buffer_size" .uint16 .required <|
   .cons "max_rx_routing_message_buffer_size" .uint16 .required .nil)
  (fun s => (s.host, s.maxClients, s.maxParallelTransmissions, s.maxTxBufferSize, s.maxRoutingBufferSize, ()))
  (fun (host, clients, transmissions, tx, routing, ()) => ⟨host, clients, transmissions, tx, routing⟩)

end ServerSettings

namespace ModelError

/-- The text of an error; `reason` is what the JSON reader has to say. -/
def message (reason : String) : ModelError → String
  | .json => "Snapshot deserialization error: " ++ reason
  | .outOfRange collection index length =>
    "Index " ++ decimal index ++ " is out of range for " ++ collection ++ " (length " ++ decimal length ++ ")"

/-- Whether another error is the cause. -/
def hasSource : ModelError → Bool
  | .json => true
  | .outOfRange .. => false

end ModelError

namespace Node

def codec : Codec Node := .record
  (.cons "name" .string .required <|
   .cons "data_blocks" (.list Application.codec) .required <|
   .cons "datapools" (.list Datapool.codec) .required <|
   .cons "can_protocols" (.list Can.Protocol.codec) .required <|
   .cons "canopen_managers" (.sortedMap (2 ^ 8) UInt8.ofNat CanOpen.Manager.codec) (.default .empty) <|
   .cons "halc_config" (.option Halc.Config.codec) (.default none) <|
   .cons "com_interfaces" (.list BusInterface.codec) (.default []) <|
   .cons "server_settings" ServerSettings.codec (.default .standard) .nil)
  (fun n => (n.name, n.applications, n.datapools, n.protocols, n.managers, n.halc, n.interfaces, n.server, ()))
  (fun (name, applications, datapools, protocols, managers, halc, interfaces, server, ()) =>
    ⟨name, applications, datapools, protocols, managers, halc, interfaces, server⟩)

def read (text : String) : Except ModelError Node :=
  match (Json.parse? text).bind codec.read with
  | some n => .ok n
  | none => .error .json

def write (n : Node) : String := (codec.write n).pretty

end Node

end BusNode
