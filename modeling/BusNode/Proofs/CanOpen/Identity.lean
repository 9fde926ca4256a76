import BusNode.CanOpen.Aggregate
import BusNode.Proofs.Can.Snapshot
import BusNode.Proofs.Datapool.Snapshot
import BusNode.Proofs.Success
/-!
# What CANopen pairs depend on

* `ManagerCode.pair_eq_of_content` — the pair of a manager has of its Datapool the names only, so that its content has
  all that it is generated of;
* `AggregateCode.pair_eq_of_content` — the content of the pair of all managers is all of its input.
-/

namespace BusNode

open Can CanOpen

/-! ## Managers -/

namespace ManagerCode

/-- The input as far as its content has it. -/
def written (x : ManagerCode) : ManagerCode := { x with application := "", datapool := x.datapool.written }

variable (x : ManagerCode) (dir : Direction) (l : ElementList) {id : Identifier}

theorem list_written : x.written.list dir = (x.list dir).map ElementList.written := by
  have hlist : x.written.datapool.lists[dir.listIndex x.written.interface.toNat]? =
      x.datapool.lists[dir.listIndex x.interface.toNat]?.map ElementList.written :=
    x.datapool.getElem?_written (dir.listIndex x.interface.toNat)
  unfold list
  rw [hlist]
  cases x.datapool.lists[dir.listIndex x.interface.toNat]? <;> rfl

theorem signalRow_written : signalRow l.written = signalRow l := by
  funext m s
  unfold signalRow
  rw [l.getElem?_written]
  cases l.elements[s.elementIndex.toNat]? <;> rfl

theorem addPdo_written : x.written.addPdo dir l.written = x.addPdo dir l := by
  funext t p
  unfold addPdo
  rw [signalRow_written]
  rfl

theorem tables_written (pdos : List PdoPlan) : x.written.tables dir pdos = x.tables dir pdos := by
  unfold tables
  split
  · rfl
  · rw [list_written]
    cases x.list dir with
    | error e => rfl
    | ok l =>
      show pdos.foldlM (x.written.addPdo dir l.written) ⟨[], []⟩ = _
      rw [addPdo_written]
      rfl

theorem pdos_written : x.written.pdos dir = x.pdos dir := by
  unfold pdos
  rw [list_written]
  cases x.list dir <;> rfl

theorem plan_written : x.written.plan = x.plan := by
  unfold plan
  rw [pdos_written, pdos_written]
  rfl

theorem source_written (p : ManagerPlan) : x.written.source id p = x.source id p := by
  unfold source
  rw [tables_written, tables_written]
  rfl

theorem generate_written (id : Identifier) : (x.written.generate id).result = (x.generate id).result := by
  unfold generate
  simp only [Report.result_bind, Report.result_ofExcept, Report.result_onError, Report.result_forM_tell,
    Report.result_tell, Report.result_pure, plan_written, source_written]
  rfl

theorem isPlain_content : x.content.IsPlain :=
  .cons (Codec.Faithful.uint8.plain x.interface) <|
  .cons (Manager.faithful.plain x.manager) <|
  .cons (Container.faithful.plain x.container) <|
  .cons (Datapool.faithful.plain x.datapool) <|
  .cons (.decimal x.version) .nil

theorem written_eq_of_content {x y : ManagerCode} (h : x.content = y.content) : x.written = y.written := by
  have h := Json.array.inj h
  simp only [List.cons.injEq, Json.number.injEq, and_true] at h
  obtain ⟨hinterface, hmanager, hcontainer, hdatapool, hversion⟩ := h
  have hinterface := Codec.Faithful.uint8.view_eq _ _ hinterface
  have hmanager := Manager.faithful.view_eq _ _ hmanager
  have hcontainer := Container.faithful.view_eq _ _ hcontainer
  have hdatapool := Datapool.faithful.view_eq _ _ hdatapool
  have hversion := decimal_injective hversion
  cases x
  cases y
  simp_all [written]

/-- **Pairs of one content are the same**, whoever asked for them. -/
theorem pair_eq_of_content {x y : ManagerCode} (h : x.content = y.content) {p q : Pair}
    (hp : (x.generate id).result = .ok p) (hq : (y.generate id).result = .ok q) : p = q := by
  rw [← generate_written, written_eq_of_content h, generate_written, hq] at hp
  exact (Except.ok.inj hp).symm

end ManagerCode

/-! ## All managers together -/

namespace AggregateCode

/-- What is written of the table sizes of a manager. -/
def summaryJson (m : ManagerSummary) : Json :=
  .array [Codec.uint8.write m.interface, .number (decimal m.devices), .number (decimal m.txPdos),
    .number (decimal m.rxPdos)]

theorem isPlain_summaryJson (m : ManagerSummary) : (summaryJson m).IsPlain :=
  .cons (Codec.Faithful.uint8.plain m.interface) <| .cons (.decimal m.devices) <| .cons (.decimal m.txPdos) <|
  .cons (.decimal m.rxPdos) .nil

theorem summaryJson_injective : Function.Injective summaryJson := by
  intro m n h
  have h := Json.array.inj h
  simp only [List.cons.injEq, Json.number.injEq, and_true] at h
  obtain ⟨hinterface, hdevices, htx, hrx⟩ := h
  have hinterface := Codec.Faithful.uint8.view_eq _ _ hinterface
  have hdevices := decimal_injective hdevices
  have htx := decimal_injective htx
  have hrx := decimal_injective hrx
  cases m
  cases n
  simp_all

theorem isPlain_content (x : AggregateCode) : x.content.IsPlain :=
  .cons (.map isPlain_summaryJson x.managers) <| .cons (.decimal x.version) .nil

theorem generate_eq_ok {x : AggregateCode} {id : Identifier} {p : Pair} (h : (x.generate id).result = .ok p) :
    p = ⟨stem, x.header id, x.source id⟩ := by
  unfold generate at h
  dsimp only at h
  split at h
  · rw [Report.result_lift, Report.result_onError, Report.result_fail] at h
    cases h
  · split at h
    · rw [Report.result_fail] at h
      cases h
    · exact (Except.ok.inj h).symm

/-- **Pairs of one content are the same**, whoever asked for them. -/
theorem pair_eq_of_content {x y : AggregateCode} (h : x.content = y.content) {id : Identifier} {p q : Pair}
    (hp : (x.generate id).result = .ok p) (hq : (y.generate id).result = .ok q) : p = q := by
  have h := Json.array.inj h
  simp only [List.cons.injEq, Json.number.injEq, Json.array.injEq, and_true] at h
  obtain ⟨hmanagers, hversion⟩ := h
  replace hmanagers : x.managers = y.managers := List.map_injective_iff.2 summaryJson_injective hmanagers
  replace hversion : x.version = y.version := decimal_injective hversion
  rw [generate_eq_ok hp, generate_eq_ok hq]
  cases x
  cases y
  cases hmanagers
  cases hversion
  rfl

end AggregateCode

end BusNode
