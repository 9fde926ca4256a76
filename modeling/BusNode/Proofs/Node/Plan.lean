import BusNode.Node.Plan
import BusNode.Proofs.Success
/-!
# What a plan consists of

* `Node.Parts` — the artifacts of an application that is compiled, by kind, and how each comes about
  (`Node.planProgrammable_eq_ok`);
* `Source.Generates` — the pair of a source, as the generation of its kind of code comes to it;
* `Artifact.IsGenerated` — the pair of an artifact is generated of its source, with the identifier of its content;
* `Node.protocolArtifact_eq_ok`, `Node.halcArtifacts_cons_eq_ok` — what the artifacts of protocols and of hardware
  channels are generated of;
* `Node.isGenerated_of_mem_plan` — every artifact of a plan is generated so.
-/

namespace BusNode

/-! ## Artifacts -/

/-- What the pair of a source is identified by. -/
def Source.content : Source → Json
  | .start x => x.content
  | .datapool x => x.content
  | .comm x => x.content
  | .manager x => x.content
  | .aggregate x => x.content
  | .halc x => x.content

/-- The pair of a source. -/
def Source.generate : Source → Identifier → Report Stop Pair
  | .start x => fun id => (x.generate id).lift
  | .datapool x => x.generate
  | .comm x => fun id => (x.generate id).lift
  | .manager x => fun id => (x.generate id).lift
  | .aggregate x => x.generate
  | .halc x => fun id => (x.generate id).lift

/-- The pair is the one that the generation of the kind of the source comes to. -/
def Source.Generates : Source → Identifier → Pair → Prop
  | .start x, id, p => (x.generate id).result = .ok p
  | .datapool x, id, p => (x.generate id).result = .ok p
  | .comm x, id, p => (x.generate id).result = .ok p
  | .manager x, id, p => (x.generate id).result = .ok p
  | .aggregate x, id, p => (x.generate id).result = .ok p
  | .halc x, id, p => (x.generate id).result = .ok p

theorem Source.generate_eq_ok {s : Source} {id : Identifier} {p : Pair} :
    (s.generate id).result = .ok p ↔ s.Generates id p := by
  cases s with
  | datapool x => exact Iff.rfl
  | aggregate x => exact Iff.rfl
  | _ x => exact Report.lift_eq_ok

namespace Artifact

/-- The bytes that are hashed for the identifier. -/
def hashed (a : Artifact) : ByteArray := a.source.content.compact.toUTF8

def identifier (a : Artifact) : Identifier := .ofContent a.source.content

/-- The pair is generated of the source, with the identifier of its content. -/
def IsGenerated (a : Artifact) : Prop := (a.source.generate a.identifier).result = .ok a.pair

theorem isGenerated_of_generate {s : Source} {a : Artifact}
    (h : (do return ⟨s, ← s.generate (.ofContent s.content)⟩ : Report Stop Artifact).result = .ok a) :
    a.IsGenerated ∧ a.source = s := by
  rw [Report.result_bind] at h
  obtain ⟨pair, hpair, h⟩ := bind_eq_ok.1 h
  cases h
  exact ⟨hpair, rfl⟩

variable {a : Artifact}

theorem IsGenerated.generates (h : a.IsGenerated) : a.source.Generates a.identifier a.pair := Source.generate_eq_ok.1 h

theorem IsGenerated.generate {s : Source} (h : a.IsGenerated) (hs : a.source = s) :
    s.Generates a.identifier a.pair := hs ▸ h.generates

theorem start_eq_ok {x : StartCode} (h : (start x).result = .ok a) : a.IsGenerated ∧ a.source = .start x :=
  isGenerated_of_generate h

theorem datapool_eq_ok {x : DatapoolCode} (h : (datapool x).result = .ok a) : a.IsGenerated ∧ a.source = .datapool x :=
  isGenerated_of_generate h

theorem comm_eq_ok {x : CommCode} (h : (comm x).result = .ok a) : a.IsGenerated ∧ a.source = .comm x :=
  isGenerated_of_generate h

theorem manager_eq_ok {x : ManagerCode} (h : (manager x).result = .ok a) : a.IsGenerated ∧ a.source = .manager x :=
  isGenerated_of_generate h

theorem aggregate_eq_ok {x : AggregateCode} (h : (aggregate x).result = .ok a) :
    a.IsGenerated ∧ a.source = .aggregate x := isGenerated_of_generate h

theorem halc_eq_ok {x : HalcCode} (h : (halc x).result = .ok a) : a.IsGenerated ∧ a.source = .halc x :=
  isGenerated_of_generate h

end Artifact

namespace Node

variable {n : Node} {application : Nat} {a : Application} {o : ExportOptions}

/-! ## Protocols and hardware channels -/

/-- A CANopen protocol has the pair of a manager, any other one a communication pair. -/
theorem protocolArtifact_eq_ok {e : ProtocolInterface} {q : Artifact} (h : (n.protocolArtifact a e).result = .ok q) :
    q.IsGenerated ∧ ∃ d, n.comDatapool e.protocol = .ok d ∧
      ((∃ x, e.protocol.kind = .canOpen ∧ n.managerCode a e d = .ok x ∧ q.source = .manager x) ∨
        ∃ x, e.protocol.kind ≠ .canOpen ∧ commCode a e d = .ok x ∧ q.source = .comm x) := by
  unfold protocolArtifact at h
  simp only [Report.result_bind, Report.result_orRefuse] at h
  obtain ⟨d, hd, h⟩ := mapError_bind_eq_ok.1 h
  split at h
  · rename_i hkind
    simp only [Report.result_bind, Report.result_orRefuse] at h
    obtain ⟨x, hx, h⟩ := mapError_bind_eq_ok.1 h
    obtain ⟨hgenerated, hsource⟩ := Artifact.manager_eq_ok h
    exact ⟨hgenerated, d, hd, .inl ⟨x, hkind, hx, hsource⟩⟩
  · rename_i hkind
    simp only [Report.result_bind, Report.result_orRefuse] at h
    obtain ⟨x, hx, h⟩ := mapError_bind_eq_ok.1 h
    obtain ⟨hgenerated, hsource⟩ := Artifact.comm_eq_ok h
    exact ⟨hgenerated, d, hd, .inr ⟨x, hkind, hx, hsource⟩⟩

theorem halcArtifacts_cons_eq_ok {taken : List Halc.Variant} {d : Datapool} {ds : List Datapool} {ps : List Artifact}
    (h : (n.halcArtifacts a taken (d :: ds)).result = .ok ps) :
    ∃ x p rest, n.halcCode a taken d = .ok x ∧ p.IsGenerated ∧ p.source = .halc x ∧
      (n.halcArtifacts a (taken ++ [x.variant]) ds).result = .ok rest ∧ ps = p :: rest := by
  unfold halcArtifacts at h
  simp only [Report.result_bind, Report.result_orRefuse, Report.result_pure] at h
  obtain ⟨x, hx, h⟩ := mapError_bind_eq_ok.1 h
  obtain ⟨p, hp, h⟩ := bind_eq_ok.1 h
  obtain ⟨rest, hrest, h⟩ := bind_eq_ok.1 h
  obtain ⟨hgenerated, hsource⟩ := Artifact.halc_eq_ok hp
  exact ⟨x, p, rest, hx, hgenerated, hsource, hrest, (pure_eq_ok.1 h).symm⟩

theorem isGenerated_halcArtifacts {taken : List Halc.Variant} {ds : List Datapool} {ps : List Artifact}
    (h : (n.halcArtifacts a taken ds).result = .ok ps) : ∀ p ∈ ps, p.IsGenerated := by
  induction ds generalizing taken ps with
  | nil =>
    cases h
    exact fun p hp => nomatch hp
  | cons d ds ih =>
    obtain ⟨x, p, rest, -, hp, -, hrest, rfl⟩ := halcArtifacts_cons_eq_ok h
    exact List.forall_mem_cons.2 ⟨hp, ih hrest⟩

/-! ## Plans -/

/-- The artifacts of an application that is compiled, by kind. -/
structure Parts where
  visible : List VisibleDatapool
  interfaces : List ProtocolInterface
  start : Artifact
  datapools : List Artifact
  protocols : List Artifact
  aggregate : List Artifact
  halc : List Artifact

namespace Parts

/-- All artifacts in order. -/
def artifacts (p : Parts) : List Artifact := p.start :: p.datapools ++ p.protocols ++ p.aggregate ++ p.halc

/-- The table sizes of the managers. -/
def managers (p : Parts) : List ManagerSummary := p.protocols.filterMap Artifact.summary?

/-- How the artifacts come about. -/
structure Of (n : Node) (application : Nat) (a : Application) (o : ExportOptions) (p : Parts) : Prop where
  visible : n.visibleDatapools application a.formatVersion.toNat = .ok p.visible
  interfaces : n.interfacesOf application = .ok p.interfaces
  datapools : List.Forall₂ (fun v d => ∃ x, n.datapoolCode a o v.1 v.2 = .ok x ∧ (Artifact.datapool x).result = .ok d)
    p.visible.zipIdx p.datapools
  protocols : List.Forall₂ (fun e d => (n.protocolArtifact a e).result = .ok d) p.interfaces p.protocols
  aggregate : p.managers = [] ∧ p.aggregate = [] ∨
    p.managers ≠ [] ∧ ∃ x d, aggregateCode a p.managers = .ok x ∧ (Artifact.aggregate x).result = .ok d ∧
      p.aggregate = [d]
  halc : (n.planHalc application a).result = .ok p.halc
  start : ∃ x, n.startCode application a (p.visible.map (·.datapool)) (p.protocols.filterMap Artifact.protocolStem?)
    (!p.managers.isEmpty) (p.halc.filterMap Artifact.variant?) = .ok x ∧ (Artifact.start x).result = .ok p.start

end Parts

/-- **What the plan of an application that is compiled consists of.** -/
theorem planProgrammable_eq_ok {as : List Artifact} (h : (n.planProgrammable application a o).result = .ok as) :
    ∃ p : Parts, p.Of n application a o ∧ as = p.artifacts := by
  unfold planProgrammable at h
  simp only [Report.result_bind, Report.result_orRefuse, Report.result_tell, Report.result_mapM] at h
  obtain ⟨visible, hvisible, h⟩ := mapError_bind_eq_ok.1 h
  obtain ⟨interfaces, hinterfaces, h⟩ := mapError_bind_eq_ok.1 h
  obtain ⟨-, -, h⟩ := bind_eq_ok.1 h
  obtain ⟨datapools, hdatapools, h⟩ := bind_eq_ok.1 h
  obtain ⟨protocols, hprotocols, h⟩ := bind_eq_ok.1 h
  have hdatapools := (mapM_eq_ok.1 hdatapools).imp fun _ _ => mapError_bind_eq_ok.1
  have hprotocols := mapM_eq_ok.1 hprotocols
  split at h
  · rename_i hmanagers
    simp only [Report.result_bind, Report.result_orRefuse, Report.result_pure] at h
    obtain ⟨aggregate, haggregate, h⟩ := bind_eq_ok.1 h
    obtain ⟨halc, hhalc, h⟩ := bind_eq_ok.1 h
    obtain ⟨x, hx, h⟩ := mapError_bind_eq_ok.1 h
    obtain ⟨start, hstart, h⟩ := bind_eq_ok.1 h
    cases haggregate
    exact ⟨⟨visible, interfaces, start, datapools, protocols, [], halc⟩, {
      visible := hvisible
      interfaces := hinterfaces
      datapools := hdatapools
      protocols := hprotocols
      aggregate := .inl ⟨List.isEmpty_iff.1 hmanagers, rfl⟩
      halc := hhalc
      start := ⟨x, hx, hstart⟩ }, (Except.ok.inj h).symm⟩
  · rename_i hmanagers
    simp only [Report.result_bind, Report.result_orRefuse, Report.result_pure] at h
    obtain ⟨y, hy, h⟩ := mapError_bind_eq_ok.1 h
    obtain ⟨d, hd, h⟩ := bind_eq_ok.1 h
    obtain ⟨aggregate, haggregate, h⟩ := bind_eq_ok.1 h
    obtain ⟨halc, hhalc, h⟩ := bind_eq_ok.1 h
    obtain ⟨x, hx, h⟩ := mapError_bind_eq_ok.1 h
    obtain ⟨start, hstart, h⟩ := bind_eq_ok.1 h
    cases haggregate
    exact ⟨⟨visible, interfaces, start, datapools, protocols, [d], halc⟩, {
      visible := hvisible
      interfaces := hinterfaces
      datapools := hdatapools
      protocols := hprotocols
      aggregate := .inr ⟨fun hnil => hmanagers (List.isEmpty_iff.2 hnil), y, d, hy, hd, rfl⟩
      halc := hhalc
      start := ⟨x, hx, hstart⟩ }, (Except.ok.inj h).symm⟩

theorem Parts.isGenerated {p : Parts} (h : p.Of n application a o) : ∀ d ∈ p.artifacts, d.IsGenerated := by
  intro d hd
  unfold artifacts at hd
  simp only [List.cons_append, List.mem_cons, List.mem_append] at hd
  rcases hd with rfl | ((hd | hd) | hd) | hd
  · obtain ⟨x, -, hx⟩ := h.start
    exact (Artifact.start_eq_ok hx).1
  · obtain ⟨-, -, x, -, hx⟩ := exists_of_mem_right h.datapools hd
    exact (Artifact.datapool_eq_ok hx).1
  · obtain ⟨e, -, he⟩ := exists_of_mem_right h.protocols hd
    exact (protocolArtifact_eq_ok he).1
  · rcases h.aggregate with ⟨-, hnil⟩ | ⟨-, x, d', -, hx, hone⟩
    · rw [hnil] at hd
      cases hd
    · rw [hone, List.mem_singleton] at hd
      exact hd ▸ (Artifact.aggregate_eq_ok hx).1
  · exact isGenerated_halcArtifacts h.halc d hd

theorem Parts.mem_artifacts {p : Parts} {d : Artifact} :
    d ∈ p.artifacts ↔ d = p.start ∨ d ∈ p.datapools ∨ d ∈ p.protocols ∨ d ∈ p.aggregate ∨ d ∈ p.halc := by
  unfold artifacts
  simp only [List.cons_append, List.mem_cons, List.mem_append, or_assoc]

/-- A plan is one of an application that is compiled, or one of hardware channels only. -/
theorem plan_eq_ok {as : List Artifact} (h : (n.plan application o).result = .ok as) :
    ∃ a, n.applicationAt application = .ok a ∧
      (a.kind = .programmable ∧ (∃ p : Parts, p.Of n application a o ∧ as = p.artifacts) ∨
        a.kind = .parameterSetHalc ∧ (n.planHalc application a).result = .ok as) := by
  unfold plan at h
  simp only [Report.result_bind, Report.result_orRefuse] at h
  obtain ⟨a, ha, h⟩ := mapError_bind_eq_ok.1 h
  refine ⟨a, ha, ?_⟩
  split at h
  · cases h
  · split at h
    · rename_i hkind
      exact .inl ⟨hkind, planProgrammable_eq_ok h⟩
    · rename_i hkind
      exact .inr ⟨hkind, h⟩
    · cases h

/-- The plan of an application that is compiled has these parts. -/
theorem exists_parts {as : List Artifact} (ha : n.applicationAt application = .ok a) (hkind : a.kind = .programmable)
    (h : (n.plan application o).result = .ok as) : ∃ p : Parts, p.Of n application a o ∧ as = p.artifacts := by
  obtain ⟨a', ha', ⟨-, hparts⟩ | ⟨hkind', -⟩⟩ := plan_eq_ok h
  · obtain rfl : a = a' := Except.ok.inj (ha.symm.trans ha')
    exact hparts
  · obtain rfl : a = a' := Except.ok.inj (ha.symm.trans ha')
    rw [hkind] at hkind'
    cases hkind'

/-- **Every artifact of a plan is generated of its source**, with the identifier of its content. -/
theorem isGenerated_of_mem_plan {as : List Artifact} (h : (n.plan application o).result = .ok as) :
    ∀ d ∈ as, d.IsGenerated := by
  obtain ⟨a, -, ⟨-, p, hp, rfl⟩ | ⟨-, hhalc⟩⟩ := plan_eq_ok h
  · exact Parts.isGenerated hp
  · exact isGenerated_halcArtifacts hhalc

end Node

end BusNode
