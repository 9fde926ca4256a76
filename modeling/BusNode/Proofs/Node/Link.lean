import BusNode.Proofs.CanOpen.Tables
import BusNode.Proofs.Halc.Reference
import BusNode.Proofs.Node.Address
/-!
# Linked Datapools

A communication pair, the pair of a manager and a pair of hardware channels each link one Datapool.

* `Node.of_mem_protocolInterfaces`, `Node.mem_halcArtifacts` — which interfaces and hardware channels have a pair, and
  of which Datapool;
* `Artifact.Provides` — an artifact is that of a Datapool of a name;
* `Node.linked_datapools_are_generated` — the Datapool of a protocol is always generated along with it, one of hardware
  channels just if it has elements;
* `Node.unlinked_halc_bunker` — so hardware channels may link a Datapool that nothing provides.
-/

namespace BusNode

open Can CanOpen

/-- The Datapool that a pair links. -/
def Source.linked? : Source → Option Datapool
  | .comm x => some x.datapool
  | .manager x => some x.datapool
  | .halc x => some x.datapool
  | _ => none

/-- The artifact is that of a Datapool of the name: its header has the name that others include, and its source defines
the record. -/
structure Artifact.Provides (q : Artifact) (d : Datapool) : Prop where
  isDatapool : ∃ c, q.source = .datapool c
  header : q.pair.headerName = d.headerName
  record : ∃ rows, .object (.sharedRecord "T_osy_dpa_data_pool" d.recordName) rows none ∈ q.pair.source.items

theorem DatapoolCode.provides_of_generate {x : DatapoolCode} {d : Datapool} {q : Artifact}
    (hsource : q.source = .datapool x) (h : (x.generate q.identifier).result = .ok q.pair)
    (hname : x.datapool.name = d.name) : q.Provides d := by
  obtain ⟨-, header, source, -, hfile, hpair⟩ := generate_eq_ok h
  obtain ⟨values, tables, -, -, -, rfl⟩ := source_eq_ok.1 hfile
  have hrecord : x.datapool.recordName = d.recordName := by rw [Datapool.recordName, hname]; rfl
  refine ⟨⟨x, hsource⟩, ?_, x.recordRows x.datapool.scratchBytes, ?_⟩
  · rw [hpair]
    show lower x.datapool.name ++ "_data_pool" ++ ".h" = _
    rw [hname]
    rfl
  · rw [hpair, ← hrecord]
    simp only [sourceItems, List.mem_append, List.mem_cons, true_or, or_true]

namespace Node

variable {n : Node} {application : Nat} {a : Application} {o : ExportOptions} {q : Artifact} {d : Datapool}

/-! ## Protocols -/

/-- What an interface of a protocol that has code is. -/
structure IsInterface (n : Node) (application : Nat) (e : ProtocolInterface) : Prop where
  protocol : e.protocol ∈ n.protocols
  /-- The number of the interface is the place of its container. -/
  container : ∃ k < 2 ^ 8, e.interface = UInt8.ofNat k ∧ e.protocol.containers[k]? = some e.container
  active : e.container.active = true ∧ e.container.messageCount ≠ 0
  datapool : ∃ d, n.datapools[e.protocol.datapoolIndex.toNat]? = some d ∧
    d.owner.map UInt64.toNat = some application ∧ d.isEmpty = false

theorem interfaceOf?_eq_some {p : Protocol} {c : Container} {k : Nat} {e : ProtocolInterface}
    (h : n.interfaceOf? p d c k = .ok (some e)) :
    e = ⟨p, UInt8.ofNat k, c⟩ ∧ k < 2 ^ 8 ∧ (c.active = true ∧ c.messageCount ≠ 0) ∧ d.isEmpty = false := by
  unfold interfaceOf? at h
  split at h
  · cases h
  · rename_i hk
    dsimp only at h
    split at h
    · cases h
    · rename_i hactive
      split at h
      · cases h
      · split at h
        · cases h
        · rename_i hfilled
          simp only [Bool.or_eq_true, Bool.not_eq_true', decide_eq_true_eq, not_or, Bool.not_eq_false] at hactive
          exact ⟨(Option.some.inj (Except.ok.inj h)).symm, by omega, hactive, Bool.eq_false_iff.2 hfilled⟩

theorem isInterface_of_mem {es : List ProtocolInterface} (h : n.interfacesOf application = .ok es)
    {e : ProtocolInterface} (he : e ∈ es) : n.IsInterface application e := by
  obtain ⟨ess, hess, hes⟩ := bind_eq_ok.1 h
  obtain rfl := pure_eq_ok.1 hes
  obtain ⟨es, hes, he⟩ := List.mem_flatten.1 he
  obtain ⟨p, hp, h⟩ := exists_of_mem_right (mapM_eq_ok.1 hess) hes
  obtain ⟨d, hd, h⟩ := bind_eq_ok.1 h
  dsimp only at h
  split at h
  · obtain rfl := pure_eq_ok.1 h
    cases he
  · rename_i howner
    obtain ⟨found, hfound, h⟩ := bind_eq_ok.1 h
    obtain rfl := pure_eq_ok.1 h
    obtain ⟨e', hmem, rfl⟩ := List.mem_filterMap.1 he
    obtain ⟨⟨c, k⟩, hc, hinterface⟩ := exists_of_mem_right (mapM_eq_ok.1 hfound) hmem
    obtain ⟨rfl, hk, hactive, hfilled⟩ := interfaceOf?_eq_some hinterface
    exact {
      protocol := hp
      container := ⟨k, hk, rfl, List.mk_mem_zipIdx_iff_getElem?.1 hc⟩
      active := hactive
      datapool := ⟨d, datapoolAt_eq_ok.1 hd, not_not.1 howner, hfilled⟩ }

/-- The Datapool of a protocol is one of signals, with other names. -/
theorem comDatapool_eq_ok {p : Protocol} (h : n.comDatapool p = .ok d) :
    ∃ d', n.datapools[p.datapoolIndex.toNat]? = some d' ∧ d'.kind = .com ∧ d = d'.renameSignals p := by
  obtain ⟨d', hd', h⟩ := bind_eq_ok.1 h
  dsimp only at h
  split at h
  · cases h
  · rename_i hkind
    exact ⟨d', datapoolAt_eq_ok.1 hd', not_not.1 hkind, (pure_eq_ok.1 h).symm⟩

/-- The pair of a protocol links a Datapool of the application that has elements, by its name. -/
theorem linked?_of_protocolArtifact {e : ProtocolInterface} (he : n.IsInterface application e)
    (h : (n.protocolArtifact a e).result = .ok q) :
    ∃ (x : Datapool) (index : Nat) (d : Datapool), q.source.linked? = some x ∧ q.pair.Links x ∧ x.name = d.name ∧
      n.datapools[index]? = some d ∧ d.owner.map UInt64.toNat = some application ∧ d.isEmpty = false := by
  obtain ⟨hgenerated, x, hx, hsource⟩ := protocolArtifact_eq_ok h
  obtain ⟨d, hat, howner, hfilled⟩ := he.datapool
  obtain ⟨d', hat', -, rfl⟩ := comDatapool_eq_ok hx
  obtain rfl : d = d' := Option.some.inj (hat.symm.trans hat')
  have hname : (d.renameSignals e.protocol).name = d.name := by
    obtain ⟨lists, hlists⟩ := d.renameSignals_eq e.protocol
    rw [hlists]
  rcases hsource with ⟨y, -, hy, hsource⟩ | ⟨y, -, hy, hsource⟩
  · have hlinks := ManagerCode.links_of_generate (hgenerated.generate hsource)
    obtain ⟨version, -, hy⟩ := bind_eq_ok.1 hy
    obtain ⟨m, -, hy⟩ := bind_eq_ok.1 hy
    obtain rfl := pure_eq_ok.1 hy
    exact ⟨_, _, d, by rw [hsource]; rfl, hlinks, hname, hat, howner, hfilled⟩
  · have hlinks := CommCode.links_of_generate (hgenerated.generate hsource)
    obtain ⟨version, -, hy⟩ := bind_eq_ok.1 hy
    obtain rfl := pure_eq_ok.1 hy
    exact ⟨_, _, d, by rw [hsource]; rfl, hlinks, hname, hat, howner, hfilled⟩

/-! ## Hardware channels -/

theorem mem_halcDatapools (h : d ∈ n.halcDatapools application) :
    ∃ index : Nat, n.datapools[index]? = some d ∧ d.owner.map UInt64.toNat = some application ∧
      d.kind.isHalc = true := by
  obtain ⟨h, hkind⟩ := List.mem_filter.1 h
  obtain ⟨index, hindex, hd⟩ := List.mem_filterMap.1 h
  obtain ⟨⟨d', k⟩, hk, rfl⟩ := List.mem_map.1 hindex
  obtain ⟨hat, howner⟩ := List.mem_filter.1 hk
  have hat := List.mk_mem_zipIdx_iff_getElem?.1 hat
  obtain rfl : d' = d := Option.some.inj (hat.symm.trans hd)
  exact ⟨k, hd, beq_iff_eq.1 howner, hkind⟩

theorem halcCode_eq_ok {taken : List Halc.Variant} {x : HalcCode} (h : n.halcCode a taken d = .ok x) :
    x.datapool = d ∧ x.variant = .ofSafety d.isSafety ∧ x.variant ∉ taken := by
  unfold halcCode at h
  dsimp only at h
  split at h
  · cases h
  · rename_i htaken
    split at h
    · cases h
    · obtain ⟨version, -, h⟩ := bind_eq_ok.1 h
      obtain rfl := pure_eq_ok.1 h
      exact ⟨rfl, rfl, htaken⟩

theorem mem_halcArtifacts {taken : List Halc.Variant} {ds : List Datapool} {ps : List Artifact}
    (h : (n.halcArtifacts a taken ds).result = .ok ps) (hq : q ∈ ps) :
    q.IsGenerated ∧ ∃ d ∈ ds, ∃ x, x.datapool = d ∧ q.source = .halc x := by
  induction ds generalizing taken ps with
  | nil =>
    cases h
    cases hq
  | cons d ds ih =>
    obtain ⟨x, p, rest, hx, hgenerated, hsource, hrest, rfl⟩ := halcArtifacts_cons_eq_ok h
    rcases List.mem_cons.1 hq with rfl | hq
    · exact ⟨hgenerated, d, .head _, x, (halcCode_eq_ok hx).1, hsource⟩
    · obtain ⟨hgenerated, d', hd', hsource⟩ := ih hrest hq
      exact ⟨hgenerated, d', .tail _ hd', hsource⟩

/-! ## Plans -/

/-- A Datapool of the application that has elements is generated with it. -/
theorem Parts.Of.exists_provides {p : Parts} (h : p.Of n application a o) {index : Nat}
    (hat : n.datapools[index]? = some d) (howner : d.owner.map UInt64.toNat = some application)
    (hfilled : d.isEmpty = false) : ∃ q ∈ p.artifacts, q.Provides d ∧
      ∃ c v, q.source = .datapool c ∧ c.datapool = n.namedDatapool v ∧ v.datapool = d ∧ v.index = index := by
  have hv : ⟨index, d, .own⟩ ∈ p.visible := h.mem_visible.2 ⟨hat, hfilled, link_eq_own.2 howner⟩
  obtain ⟨place, hplace⟩ := List.getElem?_of_mem hv
  obtain ⟨c, f, hf, hsource, hpair, hcode, hname, -, -⟩ := h.addressed hplace
  refine ⟨f, Parts.mem_artifacts.2 (.inr (.inl (List.mem_of_getElem? hf.2))),
    DatapoolCode.provides_of_generate hsource hpair hname, c, _, hsource, (datapoolCode_eq_ok hcode).1, rfl, rfl⟩

/-- Where an artifact of an application that is compiled comes from. -/
theorem Parts.Of.origin {p : Parts} (h : p.Of n application a o) (hq : q ∈ p.artifacts) :
    (∃ x, q.source = .start x) ∨
      (∃ v ∈ p.visible, ∃ c, q.source = .datapool c ∧ c.datapool = n.namedDatapool v) ∨
      (∃ e ∈ p.interfaces, (n.protocolArtifact a e).result = .ok q) ∨
      (∃ x, q.source = .aggregate x) ∨
      ∃ x, q.source = .halc x ∧ x.datapool ∈ n.halcDatapools application := by
  rcases Parts.mem_artifacts.1 hq with rfl | hq | hq | hq | hq
  · obtain ⟨x, -, hx⟩ := h.start
    exact .inl ⟨x, (Artifact.start_eq_ok hx).2⟩
  · obtain ⟨⟨v, i⟩, hv, x, hcode, hx⟩ := exists_of_mem_right h.datapools hq
    exact .inr (.inl ⟨v, List.mem_of_getElem? (List.mk_mem_zipIdx_iff_getElem?.1 hv), x,
      (Artifact.datapool_eq_ok hx).2, (datapoolCode_eq_ok hcode).1⟩)
  · exact .inr (.inr (.inl (exists_of_mem_right h.protocols hq)))
  · rcases h.aggregate with ⟨-, hnil⟩ | ⟨-, x, d, -, hx, hone⟩
    · rw [hnil] at hq
      cases hq
    · obtain rfl := List.mem_singleton.1 (hone ▸ hq)
      exact .inr (.inr (.inr (.inl ⟨x, (Artifact.aggregate_eq_ok hx).2⟩)))
  · obtain ⟨-, d, hd, x, rfl, hx⟩ := mem_halcArtifacts h.halc hq
    exact .inr (.inr (.inr (.inr ⟨x, hx, hd⟩)))

/-- A Datapool that is generated is one that the application sees, maybe with other names. -/
theorem Parts.Of.visible_of_mem {p : Parts} (h : p.Of n application a o) (hq : q ∈ p.artifacts) {c : DatapoolCode}
    (hsource : q.source = .datapool c) : ∃ v ∈ p.visible, c.datapool = n.namedDatapool v := by
  rcases h.origin hq with ⟨x, hx⟩ | ⟨v, hv, c', hc', hnamed⟩ | ⟨e, -, he⟩ | ⟨x, hx⟩ | ⟨x, hx, -⟩
  · rw [hx] at hsource
    cases hsource
  · rw [hc'] at hsource
    obtain rfl := Source.datapool.inj hsource
    exact ⟨v, hv, hnamed⟩
  · obtain ⟨-, d, -, ⟨x, -, -, hx⟩ | ⟨x, -, -, hx⟩⟩ := protocolArtifact_eq_ok he
    · rw [hx] at hsource
      cases hsource
    · rw [hx] at hsource
      cases hsource
  · rw [hx] at hsource
    cases hsource
  · rw [hx] at hsource
    cases hsource

/-- **Which linked Datapools are generated.** A pair that links a Datapool refers to nothing else outside of itself and
the run-time library. The Datapool of a protocol is part of the plan; a Datapool of hardware channels is just if it has
elements. -/
theorem linked_datapools_are_generated {as : List Artifact} (ha : n.applicationAt application = .ok a)
    (hkind : a.kind = .programmable) (h : (n.plan application o).result = .ok as) (hq : q ∈ as)
    (hd : q.source.linked? = some d) :
    q.pair.Links d ∧
      ((∀ x, q.source ≠ .halc x) → ∃ f ∈ as, f.Provides d) ∧
      ∀ x, q.source = .halc x →
        ((∃ f ∈ as, f.Provides d ∧ ∃ c, f.source = .datapool c ∧ c.datapool = d) ↔ d.isEmpty = false) := by
  obtain ⟨p, hp, rfl⟩ := exists_parts ha hkind h
  rcases hp.origin hq with ⟨x, hx⟩ | ⟨v, -, c, hc, -⟩ | ⟨e, he, hartifact⟩ | ⟨x, hx⟩ | ⟨x, hx, hmem⟩
  · rw [hx] at hd
    cases hd
  · rw [hc] at hd
    cases hd
  · obtain ⟨x, index, d', hx, hlinks, hname, hat, howner, hfilled⟩ :=
      linked?_of_protocolArtifact (isInterface_of_mem hp.interfaces he) hartifact
    obtain rfl : x = d := Option.some.inj (hx.symm.trans hd)
    refine ⟨hlinks, fun _ => ?_, fun y hy => ?_⟩
    · obtain ⟨f, hf, hprovides, -⟩ := hp.exists_provides hat howner hfilled
      refine ⟨f, hf, hprovides.isDatapool, ?_, ?_⟩
      · rw [hprovides.header, Datapool.headerName, Datapool.stem, ← hname]
        rfl
      · rw [Datapool.recordName, hname]
        exact hprovides.record
    · obtain ⟨-, -, -, ⟨z, -, -, hz⟩ | ⟨z, -, -, hz⟩⟩ := protocolArtifact_eq_ok hartifact
      · rw [hz] at hy
        cases hy
      · rw [hz] at hy
        cases hy
  · rw [hx] at hd
    cases hd
  · have hgenerated := (Parts.isGenerated hp q hq).generate hx
    rw [hx] at hd
    obtain rfl := Option.some.inj hd
    obtain ⟨index, hat, howner, hhalc⟩ := mem_halcDatapools hmem
    -- Only Datapools of signals are renamed, so what is generated is the Datapool as it is.
    have hsame {v : VisibleDatapool} (hv : (n.namedDatapool v).kind = x.datapool.kind) :
        n.namedDatapool v = v.datapool := by
      refine namedDatapool_of_ne_com fun hcom => ?_
      rw [← hv, namedDatapool_kind, hcom] at hhalc
      cases hhalc
    refine ⟨HalcCode.links_of_generate hgenerated, fun hnot => absurd hx (hnot x), fun y _ => ⟨?_, fun hfilled => ?_⟩⟩
    · rintro ⟨f, hf, -, c, hsource, hc⟩
      obtain ⟨v, hmem, hv⟩ := hp.visible_of_mem hf hsource
      obtain ⟨-, hfilled, -⟩ := hp.mem_visible.1 hmem
      rw [hc] at hv
      rwa [hv, hsame (congrArg Datapool.kind hv).symm]
    · obtain ⟨f, hf, hprovides, c, v, hsource, hc, hv, -⟩ := hp.exists_provides hat howner hfilled
      refine ⟨f, hf, hprovides, c, hsource, ?_⟩
      rw [hc, hsame (by rw [namedDatapool_kind, hv]), hv]

/-- A Datapool of hardware channels and one of the signals of a lamp. -/
def lights : Datapool := { Datapool.new "Lights" .halc (some 0) with
  lists := [{ ElementList.new "Outputs" with elements := [Element.scalar "Lamp" (.u8 0) (.u8 0) (.u8 1)] }] }

def bus : Datapool := { Datapool.new "Bus" .com (some 0) with lists := lights.lists ++ [ElementList.new "Rx"] }

/-- A cabin whose lamp is switched over a bus. -/
def cabin : Node := { Node.empty with
  name := "Cabin"
  applications := [⟨"Panel", "", .programmable, 6, 0, true⟩]
  datapools := [lights, bus]
  protocols := [
    ⟨.layer2, 1, [⟨true, [{ Message.new "Switch" 0x100 1 .onChange with signals := [Signal.new 0 0 1] }], []⟩]⟩]
  halc := some ⟨.oneLevelAllNonSafe, [⟨"DigitalOut", [], [], [⟨"Lamp", "", false, 1, []⟩]⟩]⟩
  interfaces := [⟨.can, 0, 1, false, false, 125⟩] }

theorem linked_datapools_are_generated_cabin : ∃ as, (cabin.plan 0 (.new "out")).result = .ok as ∧
    (∃ q ∈ as, ∃ x, q.source.linked? = some x ∧ x.name = "Bus" ∧ q.pair.Links x ∧ ∃ f ∈ as, f.Provides x) ∧
    ∃ q ∈ as, q.source.linked? = some lights ∧ q.pair.Links lights ∧ ∃ f ∈ as, f.Provides lights := by
  obtain ⟨as, has, ⟨q, hq, hvariant, hname⟩, r, hr, hvariant', hlinked'⟩ := exists_eq_ok_of_any
    (x := (cabin.plan 0 (.new "out")).result)
    (p := fun as => (∃ q ∈ as, q.variant? = none ∧ q.source.linked?.map Datapool.name = some "Bus") ∧
      ∃ q ∈ as, q.variant? = some .nonSafe ∧ q.source.linked? = some lights) (by decide +kernel)
  obtain ⟨x, hlinked, hname⟩ := Option.map_eq_some_iff.1 hname
  have hnot : ∀ y, q.source ≠ .halc y := fun y hy => by
    rw [Artifact.variant?, hy] at hvariant
    cases hvariant
  obtain ⟨y, hy⟩ : ∃ y, r.source = .halc y := by
    unfold Artifact.variant? at hvariant'
    split at hvariant'
    · exact ⟨_, by assumption⟩
    · cases hvariant'
  obtain ⟨hlinks, hprovided, -⟩ := linked_datapools_are_generated rfl rfl has hq hlinked
  obtain ⟨hlinks', -, hiff⟩ := linked_datapools_are_generated rfl rfl has hr hlinked'
  obtain ⟨f, hf, hprovides, -⟩ := (hiff y hy).2 rfl
  exact ⟨as, has, ⟨q, hq, x, hlinked, hname, hlinks, hprovided hnot⟩, r, hr, hlinked', hlinks', f, hf, hprovides⟩

/-- Hardware channels whose Datapool has no elements. -/
def dark : Datapool := Datapool.new "Lights" .halc (some 0)

def bunker : Node := { cabin with name := "Bunker", datapools := [dark], protocols := [] }

/-- **A link to nothing.** The hardware channels of the bunker include a header that no artifact of the plan has, and
take the address of a record that none declares. -/
theorem unlinked_halc_bunker : ∃ as, (bunker.plan 0 (.new "out")).result = .ok as ∧
    ∃ q ∈ as, dark.headerName ∈ q.pair.included ∧ .whole dark.recordName ∈ q.pair.places ∧
      ∀ f ∈ as, f.pair.headerName ≠ dark.headerName ∧ ¬ f.pair.source.Declares dark.recordName :=
  exists_eq_ok_of_any (by decide +kernel)

end Node

end BusNode
