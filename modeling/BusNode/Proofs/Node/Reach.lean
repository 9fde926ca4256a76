import BusNode.Proofs.Can.Acceptance
import BusNode.Proofs.CanOpen.Acceptance
import BusNode.Proofs.Datapool.Acceptance
import BusNode.Proofs.Halc.Acceptance
import BusNode.Proofs.Node.Address
/-!
# Which Datapools an application reaches

* `Node.Reaches` — how an application reaches a Datapool: as its own, as the host of the diagnostic driver, or since the
  Datapool is open to all;
* `Node.decides_visibleDatapools` — the Datapools that an application sees are there unless one has a stray owner;
* `ExportError.IsOfSight` — the two errors for Datapools that are not reached as they should;
* `datapools_are_seen_as_reached` — an application sees just what it reaches, and no plan fails for what it sees.

Both errors ask of a Datapool what was settled when it became visible: that its owner sees it too, and that one that is
open to all is in a layout that has such Datapools. So neither is ever told.
-/

namespace BusNode

/-- What an export would say of a Datapool that is open to all before layout 4, or that its owner does not see. -/
inductive ExportError.IsOfSight : ExportError → Prop
  | publicScope (datapool : String) : IsOfSight (.unsupported (.publicScope datapool))
  | hiddenFromOwner (datapool application : String) :
    IsOfSight (.structural (.hiddenFromOwner datapool application))

/-- Layouts from 4 on are those of format versions from 4 on. -/
theorem FormatVersion.four_le_datapool? {v w : Nat} (h : datapool? v = some w) (hv : 4 ≤ v) : 4 ≤ w := by
  unfold datapool? at h
  split at h
  · cases h
    exact hv
  · split at h
    · cases h
      decide
    · cases h

namespace Node

/-! ## Reach -/

/-- The owner of the Datapool is the application of an index. -/
def Owns (i : Nat) (d : Datapool) : Prop := d.owner.map UInt64.toNat = some i

/-- The Datapool has an owner, which is another one than the application of an index. -/
def IsForeignTo (i : Nat) (d : Datapool) : Prop := ∃ owner, d.owner = some owner ∧ owner.toNat ≠ i

/-- The diagnostic driver runs on the application of an index. -/
def Hosts (n : Node) (i : Nat) : Prop := n.server.host.map UInt64.toNat = some i

/-- How an application whose code has a version reaches a Datapool. -/
inductive Reaches (n : Node) (i version : Nat) (d : Datapool) : Linkage → Prop
  | own (h : Owns i d) : n.Reaches i version d .own
  | hosted (h : IsForeignTo i d) (hprivate : d.isPrivate = true) (hhost : n.Hosts i) : n.Reaches i version d .remote
  | shared (h : IsForeignTo i d) (hpublic : d.isPrivate = false) (hv : 4 ≤ version) :
    n.Reaches i version d .remotePublic
  /-- Older code knows no Datapools that are open to all. -/
  | older (h : IsForeignTo i d) (hpublic : d.isPrivate = false) (hv : version < 4) (hhost : n.Hosts i) :
    n.Reaches i version d .remote

/-- The owner of the Datapool is none of the applications. -/
def IsStray (n : Node) (d : Datapool) (owner : UInt64) : Prop :=
  d.owner = some owner ∧ n.applications.length ≤ owner.toNat

variable {n : Node} {i version : Nat} {d : Datapool} {l : Linkage} {a : Application} {o : ExportOptions}
  {v : VisibleDatapool}

theorem link_eq_some_iff : n.link i version d = some l ↔ n.Reaches i version d l := by
  unfold link
  constructor
  · intro h
    obtain ⟨owner, howner, h⟩ := Option.bind_eq_some_iff.1 h
    split at h
    · rename_i hown
      cases h
      exact .own (by rw [Owns, howner, Option.map_some, hown])
    · rename_i hforeign
      have hforeign : IsForeignTo i d := ⟨owner, howner, hforeign⟩
      split at h
      · rename_i hopen
        cases h
        simp only [Bool.and_eq_true, Bool.not_eq_true', decide_eq_true_iff] at hopen
        exact .shared hforeign hopen.1 hopen.2
      · rename_i hclosed
        split at h
        · rename_i hhost
          have hhost : n.Hosts i := eq_of_beq hhost
          cases h
          cases hscope : d.isPrivate with
          | true => exact .hosted hforeign hscope hhost
          | false =>
            refine .older hforeign hscope (Nat.lt_of_not_le fun hv => hclosed ?_) hhost
            simp [hscope, hv]
        · cases h
  · intro h
    cases h with
    | own h =>
      obtain ⟨owner, howner, rfl⟩ := Option.map_eq_some_iff.1 h
      simp [howner]
    | hosted h hscope hhost =>
      obtain ⟨owner, howner, hne⟩ := h
      have hhost : n.isHost i = true := beq_iff_eq.2 hhost
      simp [howner, hne, hscope, hhost]
    | shared h hscope hv =>
      obtain ⟨owner, howner, hne⟩ := h
      simp [howner, hne, hscope, hv]
    | older h hscope hv hhost =>
      obtain ⟨owner, howner, hne⟩ := h
      have hhost : n.isHost i = true := beq_iff_eq.2 hhost
      simp [howner, hne, hscope, Nat.not_le.2 hv, hhost]

/-! ## Visible Datapools -/

theorem not_hasOwnerOf_iff : ¬n.HasOwnerOf d ↔ ∃ owner, n.IsStray d owner := by
  unfold HasOwnerOf IsStray
  simp only [Option.mem_def, not_forall, exists_prop, Nat.not_lt]

theorem decides_linkage? : Decides (n.linkage? i version d) (n.HasOwnerOf d) fun e =>
    ∃ owner, n.IsStray d owner ∧ e = .range "data blocks" owner.toNat n.applications.length := by
  constructor
  · intro l hl
    exact (linkage?_eq_ok.1 hl).1
  · intro e he
    unfold linkage? at he
    split at he
    · cases he
    · rename_i owner howner
      rcases bind_eq_error.1 he with he | ⟨a, ha, he⟩
      · unfold applicationAt application at he
        split at he
        · cases he
        · rename_i hnone
          cases he
          have hstray : n.IsStray d owner := ⟨howner, List.getElem?_eq_none_iff.1 hnone⟩
          exact ⟨not_hasOwnerOf_iff.2 ⟨owner, hstray⟩, owner, hstray, rfl⟩
      · cases he

/-- Only a stray owner keeps an application from seeing its Datapools. -/
theorem decides_visibleDatapools (n : Node) (i version : Nat) : Decides (n.visibleDatapools i version)
    (∀ d ∈ n.datapools, d.isEmpty = false → n.HasOwnerOf d) fun e => ∃ d ∈ n.datapools, d.isEmpty = false ∧
      ∃ owner, n.IsStray d owner ∧ e = .range "data blocks" owner.toNat n.applications.length := by
  refine Decides.congr (Decides.bind_pure (.mapM fun e he => ?_) _) forall_filled_iff
  obtain ⟨hat, hfilled⟩ := mem_filled.1 he
  refine (decides_linkage?.bind_pure _).mono ?_
  rintro _ ⟨owner, hstray, rfl⟩
  exact ⟨e.1, List.mem_of_getElem? hat, hfilled, owner, hstray, rfl⟩

theorem pairwise_visibleDatapools {vs : List VisibleDatapool} (h : n.visibleDatapools i version = .ok vs) :
    vs.Pairwise fun v w => v.index < w.index := by
  obtain ⟨-, rfl⟩ := visibleDatapools_eq_ok.1 h
  exact n.pairwise_linked i version

theorem mem_visibleDatapools {vs : List VisibleDatapool} (h : n.visibleDatapools i version = .ok vs) :
    v ∈ vs ↔ n.datapools[v.index]? = some v.datapool ∧ v.datapool.isEmpty = false ∧
      n.Reaches i version v.datapool v.linkage := by
  obtain ⟨-, rfl⟩ := visibleDatapools_eq_ok.1 h
  rw [mem_linked, link_eq_some_iff]

/-! ## Errors of Datapools -/

/-- The computation does not fail for what is seen. -/
def SparesSight {α : Type} (x : Except ExportError α) : Prop := FailsOnly x fun e => ¬e.IsOfSight

/-- The run does not end for what is seen. -/
def RunSparesSight {α : Type} (x : Except Stop α) : Prop := FailsOnly x fun s => ∀ e, s = .refused e → ¬e.IsOfSight

theorem SparesSight.refused {α : Type} {x : Except ExportError α} (h : SparesSight x) :
    RunSparesSight (x.mapError .refused) :=
  FailsOnly.mapError h fun _ he _ hrefused => Stop.refused.inj hrefused ▸ he

theorem RunSparesSight.error {α : Type} {e : ExportError} (h : ¬e.IsOfSight) :
    RunSparesSight (.error (.refused e) : Except Stop α) := SparesSight.refused (x := .error e) (.error h)

theorem RunSparesSight.overflow {α : Type} : RunSparesSight (.error .overflow : Except Stop α) := FailsOnly.error nofun

theorem sparesSight_layout {version? : Nat → Option Nat} {domain : String} :
    SparesSight (layout a version? domain) := by
  unfold layout
  split
  · exact .ok _
  · exact .error nofun

theorem sparesSight_applicationAt {k : Nat} : SparesSight (n.applicationAt k) := by
  unfold applicationAt application
  split
  · exact .ok _
  · exact .error nofun

theorem sparesSight_datapoolAt {k : Nat} : SparesSight (n.datapoolAt k) := by
  unfold datapoolAt datapool
  split
  · exact .ok _
  · exact .error nofun

theorem sparesSight_visibleDatapools : SparesSight (n.visibleDatapools i version) := by
  refine .of_decides (n.decides_visibleDatapools i version) ?_
  rintro _ ⟨d, -, -, owner, -, rfl⟩
  nofun

/-- The owner of a Datapool that someone sees sees it as its own. -/
theorem sparesSight_ownerView {k : Nat} (hat : n.datapools[v.index]? = some v.datapool)
    (hfilled : v.datapool.isEmpty = false) : SparesSight (n.ownerView a v k) := by
  unfold ownerView
  split
  · exact .ok _
  · rename_i owner howner
    refine sparesSight_applicationAt.bind fun b hb => sparesSight_visibleDatapools.bind fun view hview => ?_
    have hown : Owns owner.toNat v.datapool := by rw [Owns, howner, Option.map_some]
    have hmem : ⟨v.index, v.datapool, .own⟩ ∈ view := (mem_visibleDatapools hview).2 ⟨hat, hfilled, .own hown⟩
    split
    · exact .ok _
    · rename_i hnone
      have := List.findIdx?_eq_none_iff.1 hnone _ hmem
      simp at this

/-- A Datapool is shared only in layouts that have such Datapools. -/
theorem four_le_of_reaches_remotePublic (h : n.Reaches i version d .remotePublic) : 4 ≤ version := by
  cases h with
  | shared _ _ hv => exact hv

theorem layout_eq_ok {version? : Nat → Option Nat} {domain : String} {w : Nat} :
    layout a version? domain = .ok w ↔ version? a.formatVersion.toNat = some w := by
  unfold layout
  cases version? a.formatVersion.toNat <;> simp

/-- An artifact fails just as its source. -/
theorem sparesSight_artifact {s : Source} (h : RunSparesSight (s.generate (.ofContent s.content)).result) :
    RunSparesSight (do return ⟨s, ← s.generate (.ofContent s.content)⟩ : Report Stop Artifact).result := by
  rw [Report.result_bind]
  exact h.bind fun _ _ => .ok _

/-- A Datapool that is seen has code; what may be wrong with it is not how it is seen. -/
theorem sparesSight_datapool {k : Nat} {visible : List VisibleDatapool}
    (hvisible : n.visibleDatapools i a.formatVersion.toNat = .ok visible) (hv : v ∈ visible) :
    RunSparesSight (do (Artifact.datapool (← (n.datapoolCode a o v k).mapError .refused)).result) := by
  obtain ⟨hat, hfilled, hreaches⟩ := (mem_visibleDatapools hvisible).1 hv
  refine .bind (SparesSight.refused ?_) fun c hc => ?_
  · exact sparesSight_layout.bind fun _ _ => (sparesSight_ownerView hat hfilled).bind fun _ _ => .ok _
  · have hversion : c.linkage = .remotePublic → 4 ≤ c.version := by
      unfold datapoolCode at hc
      obtain ⟨version, hversion, hc⟩ := bind_eq_ok.1 (mapError_eq_ok.1 hc)
      obtain ⟨⟨process, index⟩, -, hc⟩ := bind_eq_ok.1 hc
      cases hc
      intro hremote
      rw [show v.linkage = .remotePublic from hremote] at hreaches
      exact FormatVersion.four_le_datapool? (layout_eq_ok.1 hversion) (four_le_of_reaches_remotePublic hreaches)
    refine sparesSight_artifact (s := .datapool c) (.of_decides (c.decides_generate _) ?_)
    rintro _ (he | _) e hrefused
    · cases hrefused
      cases he with
      | scope h => exact absurd (hversion h.1) (Nat.not_le.2 h.2)
      | fault _ h =>
        cases h with
        | check h => cases h <;> nofun
        | literal h => nofun
    · cases hrefused

/-! ## Errors of other parts -/

theorem sparesSight_interfacesOf : SparesSight (n.interfacesOf i) := by
  have hinterface {p : Can.Protocol} {d : Datapool} {c : Can.Container} {k : Nat} :
      SparesSight (n.interfaceOf? p d c k) := by
    unfold interfaceOf?
    split
    · exact .error nofun
    · dsimp only
      split
      · exact .ok _
      · split
        · exact .error nofun
        · split
          · exact .error nofun
          · exact .ok _
  refine .bind (.mapM fun p _ => sparesSight_datapoolAt.bind fun d _ => ?_) fun _ _ => .ok _
  split
  · exact .ok _
  · exact .bind (.mapM fun _ _ => hinterface) fun _ _ => .ok _

theorem sparesSight_comm (c : CommCode) : RunSparesSight (Artifact.comm c).result := by
  refine sparesSight_artifact (s := .comm c) (SparesSight.refused (.of_decides (c.decides_generate _) ?_))
  intro e he
  cases he with
  | unsupported h => cases h <;> nofun
  | structural h => cases h <;> nofun

theorem sparesSight_manager (c : ManagerCode) : RunSparesSight (Artifact.manager c).result := by
  refine sparesSight_artifact (s := .manager c) (SparesSight.refused (.of_decides (c.decides_generate _) ?_))
  intro e he
  cases he with
  | range h => nofun
  | structural h => cases h <;> nofun

theorem sparesSight_halc (c : HalcCode) : RunSparesSight (Artifact.halc c).result := by
  refine sparesSight_artifact (s := .halc c) (SparesSight.refused (.of_decides (c.decides_generate _) ?_))
  rintro e ⟨d, -, r, -, he⟩
  cases he <;> nofun

theorem sparesSight_aggregate (c : AggregateCode) : RunSparesSight (Artifact.aggregate c).result := by
  refine sparesSight_artifact (s := .aggregate c) ?_
  show RunSparesSight (c.generate _).result
  unfold AggregateCode.generate
  dsimp only
  split
  · rw [Report.result_lift, Report.result_onError, Report.result_fail]
    exact .error nofun
  · split
    · exact .overflow
    · exact .ok _

theorem sparesSight_protocolArtifact {e : ProtocolInterface} : RunSparesSight (n.protocolArtifact a e).result := by
  have hdatapool : SparesSight (n.comDatapool e.protocol) := by
    refine sparesSight_datapoolAt.bind fun d _ => ?_
    split
    · exact .error nofun
    · exact .ok _
  have hmanager : SparesSight (n.managerOn e.interface) := by
    unfold managerOn
    split
    · exact .ok _
    · exact .error nofun
  have hmanagerCode {d : Datapool} : SparesSight (n.managerCode a e d) :=
    sparesSight_layout.bind fun _ _ => hmanager.bind fun _ _ => .ok _
  have hcommCode {d : Datapool} : SparesSight (commCode a e d) := sparesSight_layout.bind fun _ _ => .ok _
  unfold protocolArtifact
  rw [Report.result_bind]
  refine hdatapool.refused.bind fun d _ => ?_
  split
  · rw [Report.result_bind]
    exact hmanagerCode.refused.bind fun c _ => sparesSight_manager c
  · rw [Report.result_bind]
    exact hcommCode.refused.bind fun c _ => sparesSight_comm c

theorem sparesSight_halcCode {taken : List Halc.Variant} : SparesSight (n.halcCode a taken d) := by
  unfold halcCode
  dsimp only
  split
  · exact .error nofun
  · split
    · exact .error nofun
    · exact sparesSight_layout.bind fun _ _ => .ok _

theorem sparesSight_halcArtifacts {taken : List Halc.Variant} {ds : List Datapool} :
    RunSparesSight (n.halcArtifacts a taken ds).result := by
  induction ds generalizing taken with
  | nil => exact .ok _
  | cons d ds ih =>
    unfold halcArtifacts
    simp only [Report.result_bind, Report.result_orRefuse, Report.result_pure]
    exact sparesSight_halcCode.refused.bind fun c _ => (sparesSight_halc c).bind fun _ _ => ih.bind fun _ _ => .ok _

theorem sparesSight_start (c : StartCode) : RunSparesSight (Artifact.start c).result := by
  refine sparesSight_artifact (s := .start c) (SparesSight.refused ?_)
  unfold StartCode.generate
  dsimp only
  split <;> exact .ok _

/-! ## Plans -/

theorem sparesSight_planProgrammable : RunSparesSight (n.planProgrammable i a o).result := by
  have haggregate {managers : List ManagerSummary} : SparesSight (aggregateCode a managers) :=
    sparesSight_layout.bind fun _ _ => .ok _
  unfold planProgrammable
  simp only [Report.result_bind, Report.result_orRefuse, Report.result_tell, Report.result_mapM]
  refine sparesSight_visibleDatapools.refused.bind fun visible hvisible => ?_
  have hvisible := mapError_eq_ok.1 hvisible
  refine sparesSight_interfacesOf.refused.bind fun interfaces _ => ?_
  refine FailsOnly.bind (.ok _) fun _ _ => ?_
  refine FailsOnly.bind (.mapM fun p hp => ?_) fun datapools _ => ?_
  · exact sparesSight_datapool hvisible (List.fst_mem_of_mem_zipIdx hp)
  refine FailsOnly.bind (.mapM fun _ _ => sparesSight_protocolArtifact) fun protocols _ => ?_
  split
  case' isTrue =>
    simp only [Report.result_bind, Report.result_orRefuse, Report.result_pure]
    refine FailsOnly.bind (.ok _) fun aggregate _ => ?_
  case' isFalse =>
    simp only [Report.result_bind, Report.result_orRefuse, Report.result_pure]
    refine haggregate.refused.bind fun c _ => ?_
    refine (sparesSight_aggregate c).bind fun d _ => FailsOnly.bind (.ok _) fun aggregate _ => ?_
  all_goals
    refine sparesSight_halcArtifacts.bind fun halc _ => ?_
    refine FailsOnly.bind (SparesSight.refused (sparesSight_layout.bind fun _ _ => .ok _)) fun c _ => ?_
    exact (sparesSight_start c).bind fun _ _ => .ok _

/-- No plan fails for a Datapool that is not reached as it should. -/
theorem sparesSight_plan (n : Node) (i : Nat) (o : ExportOptions) : RunSparesSight (n.plan i o).result := by
  unfold plan
  rw [Report.result_bind]
  refine sparesSight_applicationAt.refused.bind fun a _ => ?_
  split
  · exact .error nofun
  · split
    · exact sparesSight_planProgrammable
    · exact sparesSight_halcArtifacts
    · exact .error nofun

/-- **An application sees just the Datapools that it reaches**, unless one of the Datapools is of no application; and
what it sees is never the reason why its plan fails. -/
theorem datapools_are_seen_as_reached (n : Node) (i : Nat) :
    (∀ version, ((∃ e, n.visibleDatapools i version = .error e) ↔
        ∃ d ∈ n.datapools, d.isEmpty = false ∧ ∃ owner, n.IsStray d owner) ∧
      (∀ e, n.visibleDatapools i version = .error e → ∃ d ∈ n.datapools, d.isEmpty = false ∧
        ∃ owner, n.IsStray d owner ∧ e = .range "data blocks" owner.toNat n.applications.length) ∧
      ∀ vs, n.visibleDatapools i version = .ok vs → vs.Pairwise (fun v w => v.index < w.index) ∧
        ∀ v, v ∈ vs ↔ n.datapools[v.index]? = some v.datapool ∧ v.datapool.isEmpty = false ∧
          n.Reaches i version v.datapool v.linkage) ∧
    ∀ o e, (n.plan i o).result = .error e → (∀ datapool, e ≠ .refused (.unsupported (.publicScope datapool))) ∧
      ∀ datapool application, e ≠ .refused (.structural (.hiddenFromOwner datapool application)) := by
  constructor
  · intro version
    have hvisible := n.decides_visibleDatapools i version
    refine ⟨hvisible.exists_error_iff.trans ?_, fun e he => (hvisible.refuses e he).2, fun vs hvs => ?_⟩
    · simp only [not_forall, exists_prop, not_hasOwnerOf_iff]
    · exact ⟨pairwise_visibleDatapools hvs, fun v => mem_visibleDatapools hvs⟩
  · intro o e he
    have hspares := n.sparesSight_plan i o e he
    constructor
    · rintro datapool rfl
      exact hspares _ rfl (.publicScope datapool)
    · rintro datapool application rfl
      exact hspares _ rfl (.hiddenFromOwner datapool application)

/-- The panel has its own Datapool and the one of the pump; without the pump, no Datapool has an owner that is there. -/
theorem datapools_are_seen_as_reached_pumpStation :
    (∃ vs, pumpStation.visibleDatapools 1 3 = .ok vs ∧ vs.Pairwise (fun v w => v.index < w.index) ∧
      pumpStation.Reaches 1 3 recipe .own ∧ pumpStation.Reaches 1 3 speed .remote) ∧
    ∃ e, { pumpStation with applications := [] }.visibleDatapools 1 3 = .error e := by
  have hvs : pumpStation.visibleDatapools 1 3 = .ok [⟨0, recipe, .own⟩, ⟨2, speed, .remote⟩] := by decide +kernel
  obtain ⟨hpairwise, hmem⟩ := ((datapools_are_seen_as_reached pumpStation 1).1 3).2.2 _ hvs
  refine ⟨⟨_, hvs, hpairwise, ?_, ?_⟩, ?_⟩
  · exact ((hmem ⟨0, recipe, .own⟩).1 (by simp)).2.2
  · exact ((hmem ⟨2, speed, .remote⟩).1 (by simp)).2.2
  · exact ((datapools_are_seen_as_reached { pumpStation with applications := [] } 1).1 3).1.2
      ⟨recipe, by simp [pumpStation], rfl, 1, rfl, by decide⟩

end Node

end BusNode
