import BusNode.Proofs.Halc.Snapshot
import BusNode.Proofs.Node.Snapshot
import BusNode.Proofs.Success
import BusNode.Start.Code
/-!
# What a start pair depends on

Of the Datapools a start pair has the names only; all else of its input is in its content. Pairs of one content are the
same (`StartCode.pair_eq_of_content`).
-/

namespace BusNode

namespace DriverSettings

/-- What is written of a driver. -/
def json (d : DriverSettings) : Json :=
  .array [Codec.uint8.write d.processId, ServerSettings.codec.write d.server,
    .array (d.interfaces.map BusInterface.codec.write)]

theorem isPlain_json (d : DriverSettings) : d.json.IsPlain :=
  .cons (Codec.Faithful.uint8.plain d.processId) <|
  .cons (ServerSettings.faithful.plain d.server) <|
  .cons (BusInterface.faithful.list.plain d.interfaces) .nil

theorem json_injective : Function.Injective json := by
  intro d e h
  have h := Json.array.inj h
  simp only [List.cons.injEq, and_true] at h
  obtain ⟨hprocess, hserver, hinterfaces⟩ := h
  replace hprocess := Codec.Faithful.uint8.view_eq _ _ hprocess
  replace hserver := ServerSettings.faithful.view_eq _ _ hserver
  replace hinterfaces := BusInterface.faithful.list_id.view_eq _ _ hinterfaces
  cases d
  cases e
  simp_all

end DriverSettings

namespace StartCode

/-- What is written of the driver, if there is one. -/
def driverJson : Option DriverSettings → Json
  | none => .null
  | some d => d.json

theorem isPlain_driverJson : ∀ d, (driverJson d).IsPlain
  | none => .null
  | some d => d.isPlain_json

theorem driverJson_injective : Function.Injective driverJson := by
  rintro (_ | d) (_ | e) h
  · rfl
  · cases h
  · cases h
  · exact congrArg some (DriverSettings.json_injective h)

theorem content_eq (x : StartCode) : x.content =
    .array [.array (x.datapools.map fun d => .string d.name), .array (x.protocols.map .string), .bool x.hasCanOpen,
      .array (x.halc.map Halc.Variant.codec.write), driverJson x.driver, .number (decimal x.version)] := by
  unfold content
  cases x.driver <;> rfl

theorem isPlain_content (x : StartCode) : x.content.IsPlain := by
  rw [content_eq]
  exact
    .cons (.map (fun d => .string d.name) x.datapools) <|
    .cons (Codec.Faithful.string.list.plain x.protocols) <|
    .cons (.bool x.hasCanOpen) <|
    .cons (Halc.Variant.faithful.list.plain x.halc) <|
    .cons (isPlain_driverJson x.driver) <|
    .cons (.decimal x.version) .nil

/-- A Datapool of which only the name is left. -/
def named (name : String) : Datapool := Datapool.new name .generic none

/-- The input as far as its content has it. -/
def written (x : StartCode) : StartCode :=
  { x with application := "", datapools := x.datapools.map fun d => named d.name }

variable {x y : StartCode} {id : Identifier} {p q : Pair}

theorem header_written (x : StartCode) : x.written.header id = x.header id := by
  have hincludes : x.written.includes = x.includes := by
    unfold includes
    show "osy_init_configuration.h" :: ((x.datapools.map fun d => named d.name).map Datapool.headerName) ++ _ ++ _ ++
      _ = _
    rw [List.map_map]
    rfl
  have hlength : x.written.datapools.length = x.datapools.length := List.length_map _
  unfold header
  rw [hincludes, hlength]
  rfl

theorem source_written (x : StartCode) : x.written.source id = x.source id := by
  have hrecords : x.written.datapools.map Datapool.recordName = x.datapools.map Datapool.recordName := by
    show (x.datapools.map fun d => named d.name).map Datapool.recordName = _
    rw [List.map_map]
    rfl
  have hlength : x.written.datapools.length = x.datapools.length := List.length_map _
  unfold source
  rw [hrecords, hlength]
  rfl

theorem written_eq_of_content (h : x.content = y.content) : x.written = y.written := by
  rw [content_eq, content_eq] at h
  replace h := Json.array.inj h
  simp only [List.cons.injEq, Json.number.injEq, Json.array.injEq, Json.bool.injEq, and_true] at h
  obtain ⟨hdatapools, hprotocols, hcanOpen, hhalc, hdriver, hversion⟩ := h
  replace hdatapools : x.datapools.map (·.name) = y.datapools.map (·.name) := by
    refine List.map_injective_iff.2 (fun _ _ => Json.string.inj) ?_
    rw [List.map_map, List.map_map]
    exact hdatapools
  replace hdatapools : x.written.datapools = y.written.datapools := by
    have := congrArg (List.map named) hdatapools
    rwa [List.map_map, List.map_map] at this
  replace hprotocols := List.map_injective_iff.2 (fun _ _ => Json.string.inj) hprotocols
  replace hhalc : x.halc = y.halc := Halc.Variant.faithful.list_id.view_eq _ _ (congrArg Json.array hhalc)
  replace hdriver := driverJson_injective hdriver
  replace hversion := decimal_injective hversion
  cases x
  cases y
  simp_all [written]

theorem generate_eq_ok (h : (x.generate id).result = .ok p) : p = ⟨stem, x.header id, x.source id⟩ := by
  unfold generate at h
  dsimp only at h
  split at h
  · exact (Except.ok.inj h).symm
  · exact (Except.ok.inj h).symm

/-- **Pairs of one content are the same**, whoever asked for them. -/
theorem pair_eq_of_content (h : x.content = y.content) (hp : (x.generate id).result = .ok p)
    (hq : (y.generate id).result = .ok q) : p = q := by
  have hxy := written_eq_of_content h
  rw [generate_eq_ok hp, generate_eq_ok hq, ← header_written x, ← source_written x, hxy, header_written, source_written]

end StartCode

end BusNode
