import BusNode.Can.Snapshot
import BusNode.Proofs.Json.Codec
/-!
# What written protocols and managers keep

Protocols, object dictionaries and managers hold no floating point numbers, so no two of them are written alike.
-/

namespace BusNode

open Codec.Faithful

/-! ## Devices and managers -/

namespace CanOpen

theorem DeviceId.faithful : codec.Faithful id :=
  record_id (by decide) (.cons uint32 <| .cons uint8 .nil) (fun _ => rfl) fun _ => rfl

theorem Access.faithful : codec.Faithful id := enumeration fun a => by cases a <;> rfl

theorem Entry.faithful : codec.Faithful id :=
  record_id (by decide) (.cons string <| .cons Access.faithful .nil) (fun _ => rfl) fun _ => rfl

theorem Dictionary.faithful : codec.Faithful id :=
  record_id (by decide) (.cons (sortedMap (sortedMap Entry.faithful)) .nil) (fun _ => rfl) fun _ => rfl

theorem Device.faithful : codec.Faithful (fun d => d) :=
  record_id (by decide) (.cons DeviceId.faithful <| .cons string <| .cons uint8 <| .cons bool <|
    .cons bool <| .cons bool <| .cons uint8 <| .cons bool <| .cons uint16 <| .cons bool <| .cons uint16 <|
    .cons Dictionary.faithful .nil) (fun _ => rfl) fun _ => rfl

theorem FailurePolicy.faithful : codec.Faithful id := enumeration fun p => by cases p <;> rfl

theorem Manager.faithful : codec.Faithful id :=
  record_id (by decide) (.cons uint8 <| .cons bool <| .cons bool <| .cons bool <|
    .cons FailurePolicy.faithful <| .cons bool <| .cons uint16 <| .cons uint16 <| .cons bool <| .cons uint32 <|
    .cons uint32 <| .cons (list_id Device.faithful) .nil) (fun _ => rfl) fun _ => rfl

end CanOpen

/-! ## Messages -/

namespace Can

theorem ProtocolKind.faithful : codec.Faithful id := enumeration fun k => by cases k <;> rfl

theorem Trigger.faithful : codec.Faithful id := enumeration fun t => by cases t <;> rfl

theorem ByteOrder.faithful : codec.Faithful id := enumeration fun o => by cases o <;> rfl

namespace MuxRole

theorem faithful : codec.Faithful id where
  plain r := by
    cases r with
    | none => exact .string "None"
    | multiplexer => exact .string "Multiplexer"
    | multiplexed v => exact isPlain_tagged (by decide) (uint16.plain v)
  view_eq r s h := by
    cases r with
    | none =>
      cases s with
      | none => rfl
      | multiplexer => exact absurd (Json.string.inj h) (by decide)
      | multiplexed w => cases h
    | multiplexer =>
      cases s with
      | none => exact absurd (Json.string.inj h) (by decide)
      | multiplexer => rfl
      | multiplexed w => cases h
    | multiplexed v =>
      cases s with
      | none => cases h
      | multiplexer => cases h
      | multiplexed w => exact congrArg multiplexed (uint16.view_eq v w (tagged_inj h).2)

end MuxRole

theorem Signal.faithful : codec.Faithful id :=
  record_id (by decide) (.cons uint16 <| .cons uint16 <| .cons ByteOrder.faithful <|
    .cons MuxRole.faithful <| .cons uint32 <| .cons uint16 <| .cons uint8 .nil) (fun _ => rfl) fun _ => rfl

theorem Message.faithful : codec.Faithful id :=
  record_id (by decide) (.cons string <| .cons string <| .cons uint32 <| .cons bool <| .cons uint16 <|
    .cons Trigger.faithful <| .cons uint8 <| .cons uint32 <| .cons uint16 <| .cons uint32 <|
    .cons (list_id Signal.faithful) <| .cons (option_id CanOpen.DeviceId.faithful fun _ h => nomatch h) <|
    .cons uint16 <| .cons bool .nil) (fun _ => rfl) fun _ => rfl

theorem Container.faithful : codec.Faithful id :=
  record_id (by decide) (.cons bool <| .cons (list_id Message.faithful) <|
    .cons (list_id Message.faithful) .nil) (fun _ => rfl) fun _ => rfl

theorem Protocol.faithful : codec.Faithful id :=
  record_id (by decide) (.cons ProtocolKind.faithful <| .cons uint64 <|
    .cons (list_id Container.faithful) .nil) (fun _ => rfl) fun _ => rfl

end Can

end BusNode
