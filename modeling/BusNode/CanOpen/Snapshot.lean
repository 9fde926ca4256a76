import BusNode.CanOpen.Basic
/-!
# CANopen settings in a snapshot
-/

namespace BusNode.CanOpen

namespace DeviceId

def codec : Codec DeviceId := .record
  (.cons "node_index" .uint32 .required <| .cons "interface_number" .uint8 .required .nil)
  (fun d => (d.nodeIndex, d.interfaceNumber, ()))
  (fun (node, number, ()) => ⟨node, number⟩)

end DeviceId

namespace Access

def name : Access → String
  | .readOnly => "ReadOnly"
  | .writeOnly => "WriteOnly"
  | .readWrite => "ReadWrite"
  | .readWriteRpdo => "ReadWriteRpdo"
  | .readWriteTpdo => "ReadWriteTpdo"
  | .constant => "Constant"

def codec : Codec Access :=
  .enumeration [.readOnly, .writeOnly, .readWrite, .readWriteRpdo, .readWriteTpdo, .constant] name

end Access

namespace Entry

def codec : Codec Entry := .record
  (.cons "name" .string (.default "") <| .cons "access" Access.codec .required .nil)
  (fun e => (e.name, e.access, ()))
  (fun (name, access, ()) => ⟨name, access⟩)

end Entry

namespace Dictionary

def codec : Codec Dictionary := .record
  (.cons "objects" (.sortedMap (2 ^ 16) UInt16.ofNat (.sortedMap (2 ^ 8) UInt8.ofNat Entry.codec)) .required .nil)
  (fun d => (d.objects, ()))
  (fun (objects, ()) => ⟨objects⟩)

end Dictionary

namespace Device

def codec : Codec Device := .record
  (.cons "id" DeviceId.codec .required <|
   .cons "name" .string .required <|
   .cons "node_id" .uint8 .required <|
   .cons "optional" .bool (.default false) <|
   .cons "no_initialization" .bool (.default false) <|
   .cons "factory_settings_active" .bool (.default false) <|
   .cons "reset_node_sub_index" .uint8 (.default 0) <|
   .cons "heartbeat_producing" .bool (.default false) <|
   .cons "heartbeat_producer_time_ms" .uint16 (.default 0) <|
   .cons "heartbeat_consuming" .bool (.default false) <|
   .cons "heartbeat_consumer_time_ms" .uint16 (.default 0) <|
   .cons "object_dictionary" Dictionary.codec (.default .empty) .nil)
  (fun d => (d.id, d.name, d.nodeId, d.optional, d.noInitialization, d.factorySettings, d.resetSubIndex,
    d.heartbeatProducing, d.heartbeatProducerTime, d.heartbeatConsuming, d.heartbeatConsumerTime, d.dictionary, ()))
  (fun (id, name, nodeId, optional, noInitialization, factorySettings, resetSubIndex, producing, producerTime,
      consuming, consumerTime, dictionary, ()) =>
    ⟨id, name, nodeId, optional, noInitialization, factorySettings, resetSubIndex, producing, producerTime, consuming,
      consumerTime, dictionary⟩)

end Device

namespace FailurePolicy

def name : FailurePolicy → String
  | .resetAll => "ResetAllDevices"
  | .resetFailed => "ResetFailedDevice"
  | .stopAll => "StopAllDevices"

def codec : Codec FailurePolicy := .enumeration [.resetAll, .resetFailed, .stopAll] name

end FailurePolicy

namespace Manager

def codec : Codec Manager := .record
  (.cons "node_id" .uint8 .required <|
   .cons "autostart" .bool (.default false) <|
   .cons "start_devices" .bool (.default false) <|
   .cons "nmt_start_all" .bool (.default false) <|
   .cons "nmt_error_behavior" FailurePolicy.codec (.default .resetAll) <|
   .cons "heartbeat_producing" .bool (.default false) <|
   .cons "heartbeat_producer_time_ms" .uint16 (.default 0) <|
   .cons "sdo_timeout_ms" .uint16 (.default 0) <|
   .cons "sync_producing" .bool (.default false) <|
   .cons "sync_cycle_time_us" .uint32 (.default 0) <|
   .cons "sync_window_length_us" .uint32 (.default 0) <|
   .cons "devices" (.list Device.codec) (.default []) .nil)
  (fun m => (m.nodeId, m.autostart, m.startDevices, m.startAll, m.failurePolicy, m.heartbeatProducing,
    m.heartbeatProducerTime, m.sdoTimeout, m.syncProducing, m.syncCycleTime, m.syncWindow, m.devices, ()))
  (fun (nodeId, autostart, startDevices, startAll, failurePolicy, producing, producerTime, sdoTimeout, syncProducing,
      cycleTime, window, devices, ()) =>
    ⟨nodeId, autostart, startDevices, startAll, failurePolicy, producing, producerTime, sdoTimeout, syncProducing,
      cycleTime, window, devices⟩)

end Manager

end BusNode.CanOpen
