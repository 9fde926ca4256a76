import BusNode.Halc.Snapshot
import BusNode.Proofs.Datapool.Snapshot
/-!
# What written hardware channels keep

Hardware channels are written with all that they have, save the numbers that are not finite.
-/

namespace BusNode.Halc

open Codec.Faithful

theorem SafetyMode.faithful : codec.Faithful id := enumeration fun m => by cases m <;> rfl

theorem Variant.faithful : codec.Faithful id := enumeration fun v => by cases v <;> rfl

theorem Parameter.faithful : codec.Faithful id :=
  record_id (by decide) (.cons string <| .cons ScalarType.faithful .nil) (fun _ => rfl) fun _ => rfl

namespace Channel

/-- The channel as far as it is written. -/
def written (c : Channel) : Channel := { c with values := c.values.map Scalar.written }

theorem faithful : codec.Faithful written := by
  refine record (by decide) (.cons string <| .cons string <| .cons bool <| .cons uint32 <|
    .cons (list Scalar.faithful) .nil) fun a b h => ?_
  simp only [Prod.map_apply, id_eq, Prod.mk.injEq] at h
  obtain ⟨h1, h2, h3, h4, h5, -⟩ := h
  cases a
  cases b
  simp_all [written]

end Channel

namespace Domain

/-- The domain as far as it is written. -/
def written (d : Domain) : Domain :=
  { d with domainValues := d.domainValues.map Scalar.written, channels := d.channels.map Channel.written }

theorem faithful : codec.Faithful written := by
  refine record (by decide) (.cons string <| .cons (list_id Parameter.faithful) <|
    .cons (list Scalar.faithful) <| .cons (list Channel.faithful) .nil) fun a b h => ?_
  simp only [Prod.map_apply, id_eq, Prod.mk.injEq] at h
  obtain ⟨h1, h2, h3, h4, -⟩ := h
  cases a
  cases b
  simp_all [written]

end Domain

namespace Config

/-- The configuration as far as it is written. -/
def written (c : Config) : Config := { c with domains := c.domains.map Domain.written }

theorem faithful : codec.Faithful written := by
  refine record (by decide) (.cons SafetyMode.faithful <|
    .cons (list Domain.faithful) .nil) fun a b h => ?_
  simp only [Prod.map_apply, id_eq, Prod.mk.injEq] at h
  obtain ⟨h1, h2, -⟩ := h
  cases a
  cases b
  simp_all [written]

end Config

end BusNode.Halc
