import BusNode.Can.Code
import BusNode.Proofs.Can.Snapshot
import BusNode.Proofs.Datapool.Snapshot
import BusNode.Proofs.Success
/-!
# What a communication pair depends on

Of the Datapool of its signals a pair has the names and the memory region only, so it is generated of what its content
has (`CommCode.generate_written`), and pairs of one content are the same (`CommCode.pair_eq_of_content`).
-/

namespace BusNode.CommCode

open Can

/-- The input as far as its content has it. -/
def written (x : CommCode) : CommCode := { x with application := "", datapool := x.datapool.written }

variable (x : CommCode) (dir : Direction) (l : ElementList)

/-! ## Tables -/

theorem list_written : x.written.list dir = (x.list dir).map ElementList.written := by
  have hlist : x.written.datapool.lists[dir.listIndex x.written.interface.toNat]? =
      x.datapool.lists[dir.listIndex x.interface.toNat]?.map ElementList.written :=
    x.datapool.getElem?_written (dir.listIndex x.interface.toNat)
  unfold list
  rw [hlist]
  cases x.datapool.lists[dir.listIndex x.interface.toNat]? <;> rfl

theorem signalRow_written : signalRow l.written = signalRow l := by
  funext m s
  unfold signalRow
  rw [l.getElem?_written]
  cases l.elements[s.elementIndex.toNat]? <;> rfl

theorem addGroup_written : x.written.addGroup dir l.written = x.addGroup dir l := by
  funext m t g
  unfold addGroup
  rw [signalRow_written]
  rfl

theorem addSignals_written : x.written.addSignals dir l.written = x.addSignals dir l := by
  funext m t
  unfold addSignals
  rw [signalRow_written, addGroup_written]
  rfl

theorem addMessage_written : x.written.addMessage dir l.written = x.addMessage dir l := by
  funext t m
  unfold addMessage
  rw [addSignals_written]
  rfl

theorem tables_written : x.written.tables dir = x.tables dir := by
  unfold tables
  rw [list_written]
  cases x.list dir with
  | error e => rfl
  | ok l =>
    show (x.container.messages dir).foldlM (x.written.addMessage dir l.written) .empty = _
    rw [addMessage_written]
    rfl

/-! ## Pair -/

theorem generate_written (id : Identifier) : (x.written.generate id).result = (x.generate id).result := by
  unfold generate
  simp only [Report.result_bind, Report.result_ofExcept]
  refine bind_congr fun stem => bind_congr fun stack => ?_
  have hcontainer : x.written.container = x.container := rfl
  rw [hcontainer]
  split
  · rfl
  · simp only [Report.result_bind, Report.result_ofExcept, Report.result_onError, Report.result_forM_tell,
      Report.result_tell, Report.result_pure, tables_written]
    rfl

theorem isPlain_content : x.content.IsPlain :=
  .cons (ProtocolKind.faithful.plain x.protocol) <|
  .cons (Codec.Faithful.uint8.plain x.interface) <|
  .cons (Container.faithful.plain x.container) <|
  .cons (Datapool.faithful.plain x.datapool) <|
  .cons (.decimal x.version) .nil

theorem written_eq_of_content {x y : CommCode} (h : x.content = y.content) : x.written = y.written := by
  have h := Json.array.inj h
  simp only [List.cons.injEq, Json.number.injEq, and_true] at h
  obtain ⟨hprotocol, hinterface, hcontainer, hdatapool, hversion⟩ := h
  have hprotocol := ProtocolKind.faithful.view_eq _ _ hprotocol
  have hinterface := Codec.Faithful.uint8.view_eq _ _ hinterface
  have hcontainer := Container.faithful.view_eq _ _ hcontainer
  have hdatapool := Datapool.faithful.view_eq _ _ hdatapool
  have hversion := decimal_injective hversion
  cases x
  cases y
  simp_all [written]

/-- **Pairs of one content are the same**, whoever asked for them. -/
theorem pair_eq_of_content {x y : CommCode} (h : x.content = y.content) {id : Identifier} {p q : Pair}
    (hp : (x.generate id).result = .ok p) (hq : (y.generate id).result = .ok q) : p = q := by
  rw [← generate_written, written_eq_of_content h, generate_written, hq] at hp
  exact (Except.ok.inj hp).symm

end BusNode.CommCode
