import BusNode.Proofs.Node.Link
/-!
# Private Datapools of others

An application that does not host the diagnostic driver does not see the private Datapools of others. Their owners,
and whether they have elements, decide about the places of other Datapools; nothing else of them comes into its plan.

* `Node.AlikeFor` — an application cannot tell two nodes apart;
* `Node.visibleDatapools_eq_of_alikeFor`, `Node.interfacesOf_eq_of_alikeFor` — it sees the same Datapools, and has the
  same protocols;
* `Node.ownerView_eq_of_alikeFor` — every Datapool that it sees has the same place in its owner;
* `Node.private_datapools_stay_hidden` — so its plan is the same.
-/

namespace BusNode

open Can

/-! ## What an application cannot tell apart -/

namespace Datapool

/-- The Datapool is a private one of another application. -/
def IsHiddenFrom (i : Nat) (d : Datapool) : Prop := d.isPrivate = true ∧ ∃ owner ∈ d.owner, owner.toNat ≠ i

/-- The Datapools are the same, or private ones of one other application that both have elements or both have none. -/
inductive AlikeFor (i : Nat) : Datapool → Datapool → Prop
  | same (d : Datapool) : AlikeFor i d d
  | hidden {d d' : Datapool} : d.IsHiddenFrom i → d'.IsHiddenFrom i → d.owner = d'.owner → d.isEmpty = d'.isEmpty →
    AlikeFor i d d'

variable {i : Nat} {d d' : Datapool}

theorem AlikeFor.owner (h : AlikeFor i d d') : d.owner = d'.owner := by
  cases h with
  | same => rfl
  | hidden _ _ howner _ => exact howner

theorem AlikeFor.isEmpty (h : AlikeFor i d d') : d.isEmpty = d'.isEmpty := by
  cases h with
  | same => rfl
  | hidden _ _ _ hempty => exact hempty

theorem AlikeFor.isPrivate (h : AlikeFor i d d') : d.isPrivate = d'.isPrivate := by
  cases h with
  | same => rfl
  | hidden hd hd' _ _ => exact hd.1.trans hd'.1.symm

theorem AlikeFor.eq_of_not_hidden (h : AlikeFor i d d') (hd : ¬ d.IsHiddenFrom i) : d = d' := by
  cases h with
  | same => rfl
  | hidden hhidden _ _ _ => exact absurd hhidden hd

theorem not_isHiddenFrom_of_owner (h : d.owner.map UInt64.toNat = some i) : ¬ d.IsHiddenFrom i := by
  rintro ⟨-, owner, howner, hne⟩
  rw [Option.mem_def.1 howner] at h
  exact hne (Option.some.inj h)

end Datapool

namespace Node

/-- The protocols are the same, or differ in their messages, and go with a private Datapool of another application. -/
inductive AlikeProtocols (n : Node) (i : Nat) : Protocol → Protocol → Prop
  | same (p : Protocol) : AlikeProtocols n i p p
  | hidden {p : Protocol} {d : Datapool} (containers : List Container) :
    n.datapools[p.datapoolIndex.toNat]? = some d → d.IsHiddenFrom i → AlikeProtocols n i p { p with containers }

/-- The nodes differ in no more than the private Datapools of other applications, the messages that go with these, and
what the nodes are called. -/
structure AlikeFor (i : Nat) (n n' : Node) : Prop where
  applications : n.applications = n'.applications
  managers : n.managers = n'.managers
  halc : n.halc = n'.halc
  interfaces : n.interfaces = n'.interfaces
  server : n.server = n'.server
  datapools : List.Forall₂ (Datapool.AlikeFor i) n.datapools n'.datapools
  protocols : List.Forall₂ (n.AlikeProtocols i) n.protocols n'.protocols

variable {n n' : Node} {i : Nat} {a : Application} {o : ExportOptions}

theorem applicationAt_eq_of_alikeFor (h : n.AlikeFor i n') (k : Nat) : n.applicationAt k = n'.applicationAt k := by
  unfold applicationAt application
  rw [h.applications]

theorem isHost_eq_of_alikeFor (h : n.AlikeFor i n') (k : Nat) : n.isHost k = n'.isHost k := by
  unfold isHost
  rw [h.server]

theorem linkage?_eq_of_alikeFor (h : n.AlikeFor i n') (k version : Nat) {d d' : Datapool} (hd : d.AlikeFor i d') :
    n.linkage? k version d = n'.linkage? k version d' := by
  unfold linkage?
  rw [hd.owner, hd.isPrivate]
  simp only [applicationAt_eq_of_alikeFor h, isHost_eq_of_alikeFor h]

/-! ## Visible Datapools -/

/-- A private Datapool of another application is not seen. -/
theorem linkage?_of_isHiddenFrom (hhost : n.isHost i = false) {d : Datapool} (hd : d.IsHiddenFrom i)
    {version : Nat} {l : Option Linkage} (h : n.linkage? i version d = .ok l) : l = none := by
  obtain ⟨hprivate, owner, howner, hne⟩ := hd
  rw [← (linkage?_eq_ok.1 h).2, link, Option.mem_def.1 howner, Option.bind_some, if_neg hne, hprivate, hhost]
  rfl

theorem filled_alikeFor (h : n.AlikeFor i n') :
    List.Forall₂ (fun e f => e.1.AlikeFor i f.1 ∧ e.2 = f.2) n.filled n'.filled :=
  List.rel_filter (fun e f he => by simp only [he.1.isEmpty]) (forall₂_zipIdx h.datapools 0)

/-- The application sees the same Datapools. -/
theorem visibleDatapools_eq_of_alikeFor (h : n.AlikeFor i n') (hhost : n.isHost i = false) (version : Nat) :
    n.visibleDatapools i version = n'.visibleDatapools i version := by
  unfold visibleDatapools
  refine congrArg (· >>= _) (mapM_eq_of_forall₂ (filled_alikeFor h) ?_)
  rintro ⟨d, k⟩ ⟨d', k'⟩ ⟨hd, hk⟩
  obtain rfl : k = k' := hk
  dsimp only
  rw [← linkage?_eq_of_alikeFor h i version hd]
  cases hd with
  | same => rfl
  | hidden hd _ _ _ =>
    cases hl : n.linkage? i version d with
    | error e => rfl
    | ok l =>
      obtain rfl := linkage?_of_isHiddenFrom hhost hd hl
      rfl

theorem visible_of_mem (hhost : n.isHost i = false) {version : Nat} {vs : List VisibleDatapool}
    (h : n.visibleDatapools i version = .ok vs) {v : VisibleDatapool} (hv : v ∈ vs) :
    n.datapools[v.index]? = some v.datapool ∧ ¬ v.datapool.IsHiddenFrom i := by
  obtain ⟨howners, rfl⟩ := visibleDatapools_eq_ok.1 h
  obtain ⟨hat, hfilled, hlink⟩ := mem_linked.1 hv
  refine ⟨hat, fun hhidden => ?_⟩
  have := linkage?_of_isHiddenFrom hhost hhidden
    (linkage?_eq_ok.2 ⟨howners _ (List.mem_of_getElem? hat) hfilled, hlink⟩)
  cases this

/-! ## Places in the owner -/

/-- Every application sees Datapools of the same indices. -/
theorem agree_visibleDatapools (h : n.AlikeFor i n') (k version : Nat) :
    Agree (fun vs ws => vs.map (·.index) = ws.map (·.index)) (n.visibleDatapools k version)
      (n'.visibleDatapools k version) := by
  have hstep : ∀ e f : Datapool × Nat, (e.1.AlikeFor i f.1 ∧ e.2 = f.2) →
      Agree (fun v w : Option VisibleDatapool => v.map (·.index) = w.map (·.index))
        (do return (← n.linkage? k version e.1).map fun l => (⟨e.2, e.1, l⟩ : VisibleDatapool))
        (do return (← n'.linkage? k version f.1).map fun l => (⟨f.2, f.1, l⟩ : VisibleDatapool)) := by
    rintro ⟨d, j⟩ ⟨d', j'⟩ ⟨hd, hj⟩
    obtain rfl : j = j' := hj
    rw [linkage?_eq_of_alikeFor h k version hd]
    refine (Agree.refl _).bind fun l l' hl => .ok ?_
    rw [hl]
    cases l' <;> rfl
  refine (Agree.mapM (filled_alikeFor h) hstep).bind fun vs ws hvs => .ok ?_
  have hindices : ∀ us : List (Option VisibleDatapool),
      (us.filterMap id).map (·.index) = (us.map (Option.map (·.index))).filterMap id := fun us => by
    rw [List.filterMap_map, List.map_filterMap]
    rfl
  rw [hindices, hindices, map_eq_of_forall₂ hvs fun _ _ => id]

/-- A Datapool has the same place in its owner. -/
theorem ownerView_eq_of_alikeFor (h : n.AlikeFor i n') (v : VisibleDatapool) (place : Nat) :
    n.ownerView a v place = n'.ownerView a v place := by
  unfold ownerView
  split
  · rfl
  · rename_i owner _
    rw [applicationAt_eq_of_alikeFor h]
    refine congrArg _ (funext fun b => Agree.eq ?_)
    refine (agree_visibleDatapools h owner.toNat b.formatVersion.toNat).bind fun vs ws hvs => ?_
    have hfind : vs.findIdx? (·.index = v.index) = ws.findIdx? (·.index = v.index) := by
      have := congrArg (List.findIdx? (· = v.index)) hvs
      rwa [List.findIdx?_map, List.findIdx?_map] at this
    rw [hfind]
    exact .refl _

/-! ## Datapools -/

/-- Protocols of a Datapool that the application sees are the same. -/
theorem AlikeProtocols.eq {p p' : Protocol} (h : n.AlikeProtocols i p p') {d : Datapool}
    (hd : n.datapools[p.datapoolIndex.toNat]? = some d) (hseen : ¬ d.IsHiddenFrom i) : p = p' := by
  cases h with
  | same => rfl
  | hidden containers hd' hhidden =>
    rw [hd] at hd'
    exact absurd (Option.some.inj hd' ▸ hhidden) hseen

theorem AlikeProtocols.kind {p p' : Protocol} (h : n.AlikeProtocols i p p') : p.kind = p'.kind := by
  cases h <;> rfl

theorem AlikeProtocols.datapoolIndex {p p' : Protocol} (h : n.AlikeProtocols i p p') :
    p.datapoolIndex = p'.datapoolIndex := by
  cases h <;> rfl

theorem protocolOf?_eq_of_alikeFor (h : n.AlikeFor i n') {index : Nat} {d : Datapool}
    (hd : n.datapools[index]? = some d) (hseen : ¬ d.IsHiddenFrom i) : n.protocolOf? index = n'.protocolOf? index := by
  refine find?_eq_of_forall₂ h.protocols (fun p p' hp => by rw [hp.datapoolIndex]) fun p p' hp hindex => ?_
  obtain rfl := of_decide_eq_true hindex
  exact hp.eq hd hseen

theorem datapoolCode_eq_of_alikeFor (h : n.AlikeFor i n') {v : VisibleDatapool}
    (hv : n.datapools[v.index]? = some v.datapool) (hseen : ¬ v.datapool.IsHiddenFrom i) (place : Nat) :
    n.datapoolCode a o v place = n'.datapoolCode a o v place := by
  have hnamed : n.namedDatapool v = n'.namedDatapool v := by
    unfold namedDatapool
    rw [protocolOf?_eq_of_alikeFor h hv hseen]
  unfold datapoolCode
  rw [ownerView_eq_of_alikeFor h, hnamed]

/-! ## Protocols -/

theorem datapoolAt_eq_of_alikeFor (h : n.AlikeFor i n') (k : Nat) :
    Agree (fun d d' => d.AlikeFor i d' ∧ n.datapools[k]? = some d) (n.datapoolAt k) (n'.datapoolAt k) := by
  have hrel := rel_getElem? h.datapools k
  unfold datapoolAt datapool
  rw [h.datapools.length_eq]
  generalize n.datapools[k]? = x at hrel ⊢
  generalize n'.datapools[k]? = y at hrel ⊢
  cases hrel with
  | none => exact .error _
  | some hd => exact .ok ⟨hd, rfl⟩

theorem protocolInterfaces_eq_of_alikeFor (h : n.AlikeFor i n') {p p' : Protocol} (hp : n.AlikeProtocols i p p') :
    n.protocolInterfaces i p = n'.protocolInterfaces i p' := by
  unfold protocolInterfaces
  rw [← hp.datapoolIndex]
  refine ((datapoolAt_eq_of_alikeFor h p.datapoolIndex.toNat).bind fun d d' hd => ?_).eq
  dsimp only
  rw [← hd.1.owner]
  by_cases howner : d.owner.map UInt64.toNat = some i
  · have hseen := Datapool.not_isHiddenFrom_of_owner howner
    obtain rfl := hd.1.eq_of_not_hidden hseen
    obtain rfl := hp.eq hd.2 hseen
    have hinterface : n.interfaceOf? p d = n'.interfaceOf? p d := by
      unfold interfaceOf? canInterface?
      rw [h.interfaces]
    rw [hinterface]
    exact .refl _
  · rw [if_pos howner, if_pos howner]
    exact .refl _

/-- The application has the same protocols. -/
theorem interfacesOf_eq_of_alikeFor (h : n.AlikeFor i n') : n.interfacesOf i = n'.interfacesOf i := by
  unfold interfacesOf
  rw [mapM_eq_of_forall₂ h.protocols fun p p' hp => protocolInterfaces_eq_of_alikeFor h hp]

theorem comDatapool_eq_of_alikeFor (h : n.AlikeFor i n') {p : Protocol} {d : Datapool}
    (hd : n.datapools[p.datapoolIndex.toNat]? = some d) (hseen : ¬ d.IsHiddenFrom i) :
    n.comDatapool p = n'.comDatapool p := by
  unfold comDatapool
  refine ((datapoolAt_eq_of_alikeFor h p.datapoolIndex.toNat).bind fun e e' he => ?_).eq
  obtain rfl : d = e := Option.some.inj (hd.symm.trans he.2)
  obtain rfl := he.1.eq_of_not_hidden hseen
  exact .refl _

theorem protocolArtifact_eq_of_alikeFor (h : n.AlikeFor i n') {e : ProtocolInterface} (he : n.IsInterface i e) :
    n.protocolArtifact a e = n'.protocolArtifact a e := by
  obtain ⟨d, hd, howner, -⟩ := he.datapool
  have hmanager : n.managerOn e.interface = n'.managerOn e.interface := by
    unfold managerOn
    rw [h.managers]
  unfold protocolArtifact managerCode
  rw [comDatapool_eq_of_alikeFor h hd (Datapool.not_isHiddenFrom_of_owner howner), hmanager]

/-! ## Hardware channels -/

theorem halcDatapools_eq_of_alikeFor (h : n.AlikeFor i n') : n.halcDatapools i = n'.halcDatapools i := by
  have howned : n.ownedBy i = n'.ownedBy i := by
    refine map_eq_of_forall₂ (List.rel_filter (fun e f he => ?_) (forall₂_zipIdx h.datapools 0)) fun e f he => he.2
    simp only [he.1.owner]
  unfold halcDatapools
  rw [← howned]
  refine congrArg _ (List.filterMap_congr fun k hk => ?_)
  obtain ⟨⟨d, k'⟩, hd, hk⟩ := List.mem_map.1 hk
  obtain rfl : k' = k := hk
  obtain ⟨hat, howner⟩ := List.mem_filter.1 hd
  have hat := List.mk_mem_zipIdx_iff_getElem?.1 hat
  have hrel := rel_getElem? h.datapools k'
  rw [hat] at hrel ⊢
  generalize n'.datapools[k']? = x at hrel ⊢
  cases hrel with
  | some hd => rw [hd.eq_of_not_hidden (Datapool.not_isHiddenFrom_of_owner (beq_iff_eq.1 howner))]

theorem planHalc_eq_of_alikeFor (h : n.AlikeFor i n') : n.planHalc i a = n'.planHalc i a := by
  have hcode : n.halcCode a = n'.halcCode a := by
    unfold halcCode
    rw [h.halc]
  have hartifacts (taken : List Halc.Variant) (ds : List Datapool) :
      n.halcArtifacts a taken ds = n'.halcArtifacts a taken ds := by
    induction ds generalizing taken with
    | nil => rfl
    | cons d ds ih =>
      unfold halcArtifacts
      rw [hcode]
      simp only [ih]
  unfold planHalc
  rw [halcDatapools_eq_of_alikeFor h, hartifacts]

/-! ## Plans -/

theorem datapoolArtifacts_eq_of_alikeFor (h : n.AlikeFor i n') (hhost : n.isHost i = false)
    {visible : List VisibleDatapool} (hvisible : n.visibleDatapools i a.formatVersion.toNat = .ok visible) :
    (visible.zipIdx.mapM fun (v, place) => Report.orRefuse (n.datapoolCode a o v place) >>= Artifact.datapool) =
      visible.zipIdx.mapM fun (v, place) => Report.orRefuse (n'.datapoolCode a o v place) >>= Artifact.datapool := by
  refine mapM_congr fun e he => ?_
  obtain ⟨v, place⟩ := e
  have hv := List.mem_of_getElem? (List.mk_mem_zipIdx_iff_getElem?.1 he)
  obtain ⟨hat, hseen⟩ := visible_of_mem hhost hvisible hv
  dsimp only
  rw [datapoolCode_eq_of_alikeFor h hat hseen]

theorem planProgrammable_eq_of_alikeFor (h : n.AlikeFor i n') (hhost : n.isHost i = false) :
    n.planProgrammable i a o = n'.planProgrammable i a o := by
  have hstart : n.startCode i a = n'.startCode i a := by
    unfold startCode
    rw [isHost_eq_of_alikeFor h, h.server, h.interfaces]
  unfold planProgrammable
  rw [← visibleDatapools_eq_of_alikeFor h hhost, ← interfacesOf_eq_of_alikeFor h, ← planHalc_eq_of_alikeFor h, ← hstart]
  cases hvisible : n.visibleDatapools i a.formatVersion.toNat with
  | error e => rfl
  | ok visible =>
    cases hinterfaces : n.interfacesOf i with
    | error e => rfl
    | ok interfaces =>
      have hdatapools := datapoolArtifacts_eq_of_alikeFor (o := o) h hhost hvisible
      have hprotocols : interfaces.mapM (n.protocolArtifact a) = interfaces.mapM (n'.protocolArtifact a) :=
        mapM_congr fun e he => protocolArtifact_eq_of_alikeFor h (isInterface_of_mem hinterfaces he)
      have hok {α : Type} (x : α) : Report.orRefuse (.ok x) = pure x := rfl
      simp only [hok, pure_bind, hdatapools, hprotocols]

/-- **Private Datapools of others stay hidden.** An application that does not host the diagnostic driver has the same
plan in two nodes that it cannot tell apart: the same artifacts, or the same fault, and the same is told on the way. -/
theorem private_datapools_stay_hidden (h : n.AlikeFor i n') (hhost : n.isHost i = false) (o : ExportOptions) :
    n.plan i o = n'.plan i o := by
  have hprogrammable (a : Application) := planProgrammable_eq_of_alikeFor (a := a) (o := o) h hhost
  have hhalc (a : Application) := planHalc_eq_of_alikeFor (a := a) h
  unfold plan
  simp only [applicationAt_eq_of_alikeFor h, hprogrammable, hhalc]

/-- The pump shows how fast it is to the panel, and keeps a Datapool to itself. -/
def well (own : Datapool) (messages : List Message) : Node := { Node.empty with
  name := own.name
  applications := [pump, { panel with formatVersion := 6 }]
  datapools := [own, { speed with isPrivate := false }, recipe]
  protocols := [⟨.layer2, 0, [⟨true, messages, []⟩]⟩] }

def valves : Datapool := { bus with name := "Valves" }

/-- The only element of this one has a default of a wrong type. -/
def leaks : Datapool := { Datapool.new "Leaks" .nvm (some 0) with
  lists := [{ ElementList.new "Depths" with
    elements := [{ Element.scalar "Depth" (.u8 0) (.u8 0) (.u8 9) with default := [.u16 0] }] }] }

/-- The panel has one plan, whether the pump can have one or not. -/
theorem private_datapools_stay_hidden_well : ∃ as,
    ((well valves []).plan 1 (.new "out")).result = .ok as ∧
    ((well leaks [Message.new "Open" 0x100 1 .cyclic]).plan 1 (.new "out")).result = .ok as ∧
    ((well valves []).plan 0 (.new "out")).result.toOption.isSome ∧
    ((well leaks [Message.new "Open" 0x100 1 .cyclic]).plan 0 (.new "out")).result.toOption.isNone := by
  obtain ⟨as, has⟩ : ∃ as, ((well valves []).plan 1 (.new "out")).result = .ok as := exists_eq_ok (by decide +kernel)
  have hvalves : valves.IsHiddenFrom 1 := ⟨rfl, 0, rfl, by decide⟩
  have halike : (well valves []).AlikeFor 1 (well leaks [Message.new "Open" 0x100 1 .cyclic]) := {
    applications := rfl
    managers := rfl
    halc := rfl
    interfaces := rfl
    server := rfl
    datapools := .cons (.hidden hvalves ⟨rfl, 0, rfl, by decide⟩ rfl rfl) (.cons (.same _) (.cons (.same _) .nil))
    protocols := .cons (.hidden _ rfl hvalves) .nil }
  have hsame := private_datapools_stay_hidden halike rfl (.new "out")
  exact ⟨as, has, (congrArg Report.result hsame).symm.trans has, by decide +kernel, by decide +kernel⟩

end Node

end BusNode
