import BusNode.Node.Snapshot
import BusNode.Proofs.Can.Snapshot
import BusNode.Proofs.Halc.Snapshot
/-!
# What a written node keeps

The applications and interfaces of a node and the settings of its diagnostic driver are told apart by what is written
of them, and all that is written of a node can be read (`Node.isPlain_write`).
-/

namespace BusNode

open Codec.Faithful

theorem ApplicationKind.faithful : codec.Faithful id := enumeration fun k => by cases k <;> rfl

theorem Application.faithful : codec.Faithful id :=
  record_id (by decide) (.cons string <| .cons string <| .cons ApplicationKind.faithful <| .cons uint16 <|
    .cons uint8 <| .cons bool .nil) (fun _ => rfl) fun _ => rfl

theorem BusKind.faithful : codec.Faithful id := enumeration fun k => by cases k <;> rfl

theorem BusInterface.faithful : codec.Faithful id :=
  record_id (by decide) (.cons BusKind.faithful <| .cons uint8 <| .cons uint8 <| .cons bool <| .cons bool <|
    .cons uint32 .nil) (fun _ => rfl) fun _ => rfl

theorem ServerSettings.faithful : codec.Faithful id :=
  record_id (by decide) (.cons (option_id uint64 fun _ h => nomatch h) <| .cons uint8 <| .cons uint8 <|
    .cons uint16 <| .cons uint16 .nil) (fun _ => rfl) fun _ => rfl

theorem Node.isPlain_write (n : Node) : (codec.write n).IsPlain :=
  .object (Fields.isPlain_key (by decide) _) <| Fields.Faithful.plain
    (.cons string <| .cons (list Application.faithful) <| .cons (list Datapool.faithful) <|
      .cons (list Can.Protocol.faithful) <| .cons (sortedMap CanOpen.Manager.faithful) <|
      .cons (option Halc.Config.faithful fun _ h => nomatch h) <| .cons (list BusInterface.faithful) <|
      .cons ServerSettings.faithful .nil) _

end BusNode
