import BusNode.Proofs.Node.Closure
import BusNode.Proofs.Node.FileName
/-!
# What is planned

* `Node.demands` — what an application needs to be generated, in order, read off the node;
* `Demand.IsMetBy` — the artifact that a demand is met by: what it is generated of, and its stem;
* `Node.plan_is_complete` — a plan meets the demands one by one and has nothing else, and an application that is no
  known one has no plan.

The demands are a filter of the node for each kind of artifact. The plan finds its artifacts one after another and may
stop at each; that it comes to its end is what makes it complete.
-/

namespace BusNode

open Can CanOpen

/-! ## Demands -/

/-- What is needed for an application. -/
inductive Demand where
  | start
  | datapool (v : VisibleDatapool)
  /-- The messages of a protocol on the CAN interface of a number. -/
  | bus (p : Protocol) (c : Container) (number : Nat)
  | aggregate
  /-- The hardware channels of a Datapool. -/
  | halc (d : Datapool)

/-- The artifact is generated of what the demand asks for, and named after it. -/
def Demand.IsMetBy (n : Node) : Demand → Artifact → Prop
  | .start, x => x.IsGenerated ∧ (∃ y, x.source = .start y) ∧ x.pair.stem = "osy_init"
  | .datapool v, x => x.IsGenerated ∧
    (∃ y, x.source = .datapool y ∧ y.datapool = n.namedDatapool v ∧ y.linkage = v.linkage) ∧
    x.pair.stem = lower v.datapool.name ++ "_data_pool"
  | .bus p c number, x => x.IsGenerated ∧
    ((p.kind = .canOpen ∧ ∃ y, x.source = .manager y ∧ y.interface.toNat = number ∧ y.container = c ∧
        n.comDatapool p = .ok y.datapool ∧ x.pair.stem = "canopen_mgr_" ++ lower (busName y.interface)) ∨
      p.kind ≠ .canOpen ∧ ∃ y s, x.source = .comm y ∧ y.protocol = p.kind ∧ y.interface.toNat = number ∧
        y.container = c ∧ n.comDatapool p = .ok y.datapool ∧ p.kind.stack = .ok s ∧
        x.pair.stem = "comm_" ++ s.symbol ++ "_" ++ lower (busName y.interface))
  | .aggregate, x => x.IsGenerated ∧ (∃ y, x.source = .aggregate y) ∧ x.pair.stem = "canopen_init"
  | .halc d, x => x.IsGenerated ∧ ∃ y, x.source = .halc y ∧ y.datapool = d ∧ y.variant = .ofSafety d.isSafety ∧
    x.pair.stem = y.variant.stem

namespace Node

/-- Whether the Datapool of a protocol is the application's. -/
def owns (n : Node) (i : Nat) (p : Protocol) : Bool :=
  n.datapools[p.datapoolIndex.toNat]?.any (·.owner.map UInt64.toNat = some i)

/-- The containers of a protocol that are active and have messages, with their interfaces. -/
def busy (p : Protocol) : List (Container × Nat) :=
  p.containers.zipIdx.filter fun e => e.1.active && e.1.messageCount ≠ 0

/-- The protocols of an application on their interfaces. -/
def buses (n : Node) (i : Nat) : List (Protocol × Container × Nat) :=
  (n.protocols.filter (n.owns i)).flatMap fun p => (busy p).map (p, ·)

/-- The Datapools of hardware channels of an application. -/
def channels (n : Node) (i : Nat) : List Datapool :=
  n.datapools.filter fun d => d.owner.map UInt64.toNat == some i && d.kind.isHalc

/-- **What an application needs**, in order. -/
def demands (n : Node) (i : Nat) (a : Application) : List Demand :=
  match a.kind with
  | .programmable =>
    .start :: (n.linked i a.formatVersion.toNat).map .datapool ++
      (n.buses i).map (fun b => .bus b.1 b.2.1 b.2.2) ++
      (if (n.buses i).any (·.1.kind = .canOpen) then [.aggregate] else []) ++
      (n.channels i).map .halc
  | .parameterSetHalc => (n.channels i).map .halc
  | .binary => []

variable {n : Node} {i : Nat} {a : Application} {o : ExportOptions}

/-! ## Protocols -/

/-- The interface of a protocol is found just if it is busy. -/
theorem interfaceOf?_eq_ok {p : Protocol} {d : Datapool} {c : Container} {k : Nat} {r : Option ProtocolInterface}
    (h : n.interfaceOf? p d c k = .ok r) :
    k < 2 ^ 8 ∧ r = if c.active && c.messageCount ≠ 0 then some ⟨p, UInt8.ofNat k, c⟩ else none := by
  unfold interfaceOf? at h
  split at h
  · cases h
  · rename_i hk
    refine ⟨by omega, ?_⟩
    dsimp only at h
    split at h
    · rename_i hidle
      have hidle : ¬ (c.active && c.messageCount ≠ 0) = true := by
        simp only [Bool.or_eq_true, Bool.not_eq_true', decide_eq_true_eq] at hidle
        rcases hidle with hidle | hidle <;> simp [hidle]
      rw [if_neg hidle]
      exact (Except.ok.inj h).symm
    · rename_i hbusy
      have hbusy : (c.active && c.messageCount ≠ 0) = true := by simpa using hbusy
      rw [if_pos hbusy]
      split at h
      · cases h
      · split at h
        · cases h
        · exact (Except.ok.inj h).symm

/-- The interface that is made of a container of a protocol. -/
def toInterface (b : Protocol × Container × Nat) : ProtocolInterface := ⟨b.1, UInt8.ofNat b.2.2, b.2.1⟩

/-- The interfaces of a protocol are its busy containers, if the application owns its Datapool. -/
theorem protocolInterfaces_eq_ok {p : Protocol} {es : List ProtocolInterface}
    (h : n.protocolInterfaces i p = .ok es) :
    if n.owns i p then
      (∀ e ∈ busy p, e.2 < 2 ^ 8) ∧ es = (busy p).map fun e => toInterface (p, e)
    else es = [] := by
  obtain ⟨d, hd, h⟩ := bind_eq_ok.1 h
  rw [owns, datapoolAt_eq_ok.1 hd, Option.any_some]
  dsimp only at h
  split at h
  · rename_i howner
    rw [if_neg (by simpa using howner)]
    exact (pure_eq_ok.1 h).symm
  · rename_i howner
    rw [if_pos (decide_eq_true (not_not.1 howner))]
    obtain ⟨found, hfound, h⟩ := bind_eq_ok.1 h
    obtain rfl := pure_eq_ok.1 h
    have hfound := mapM_eq_ok.1 hfound
    have hmap : p.containers.zipIdx.map (fun e => if e.1.active && e.1.messageCount ≠ 0 then
        some (toInterface (p, e)) else none) = found.map id :=
      map_eq_of_forall₂ hfound fun e r hr => (interfaceOf?_eq_ok hr).2.symm
    constructor
    · intro e he
      obtain ⟨r, -, hr⟩ := exists_of_mem_left hfound (List.mem_filter.1 he).1
      exact (interfaceOf?_eq_ok hr).1
    · rw [List.map_id] at hmap
      rw [← hmap, List.filterMap_map, busy, ← List.filterMap_eq_map, List.filterMap_filter]
      rfl

/-- **The interfaces of an application** are its buses. -/
theorem interfacesOf_eq_ok {es : List ProtocolInterface} (h : n.interfacesOf i = .ok es) :
    (∀ b ∈ n.buses i, b.2.2 < 2 ^ 8) ∧ es = (n.buses i).map toInterface := by
  obtain ⟨ess, hess, hes⟩ := bind_eq_ok.1 h
  obtain rfl := pure_eq_ok.1 hes
  replace hess := mapM_eq_ok.1 hess
  unfold buses
  clear h hes
  generalize n.protocols = ps at hess ⊢
  induction hess with
  | nil => exact ⟨nofun, rfl⟩
  | @cons p es ps ess hp _ ih =>
    obtain ⟨hlt, hrest⟩ := ih
    replace hp := protocolInterfaces_eq_ok hp
    rw [List.filter_cons, List.flatten_cons, hrest]
    split at hp
    · rename_i howned
      obtain ⟨hlt', rfl⟩ := hp
      rw [if_pos howned, List.flatMap_cons, List.map_append, List.map_map]
      refine ⟨fun b hb => ?_, rfl⟩
      rcases List.mem_append.1 hb with hb | hb
      · obtain ⟨e, he, rfl⟩ := List.mem_map.1 hb
        exact hlt' e he
      · exact hlt b hb
    · rename_i hother
      obtain rfl := hp
      rw [if_neg hother]
      exact ⟨hlt, rfl⟩

/-- The pair of a protocol meets the demand of its bus. -/
theorem isMetBy_protocolArtifact {b : Protocol × Container × Nat} (hb : b.2.2 < 2 ^ 8) {x : Artifact}
    (h : (n.protocolArtifact a (toInterface b)).result = .ok x) : (Demand.bus b.1 b.2.1 b.2.2).IsMetBy n x := by
  obtain ⟨p, c, k⟩ := b
  have hnumber : (UInt8.ofNat k).toNat = k := UInt8.toNat_ofNat_of_lt' hb
  obtain ⟨hgenerated, d, hd, ⟨y, hkind, hy, hsource⟩ | ⟨y, hkind, hy, hsource⟩⟩ := protocolArtifact_eq_ok h
  · have hstem := Artifact.hasStem hgenerated
    rw [hsource] at hstem
    obtain ⟨version, -, hy⟩ := bind_eq_ok.1 hy
    obtain ⟨m, -, hy⟩ := bind_eq_ok.1 hy
    obtain rfl := pure_eq_ok.1 hy
    exact ⟨hgenerated, .inl ⟨hkind, _, hsource, hnumber, rfl, hd, hstem⟩⟩
  · have hstem := Artifact.hasStem hgenerated
    rw [hsource] at hstem
    obtain ⟨version, -, hy⟩ := bind_eq_ok.1 hy
    obtain rfl := pure_eq_ok.1 hy
    obtain ⟨s, hs, hstem⟩ := bind_eq_ok.1 hstem
    exact ⟨hgenerated, .inr ⟨hkind, _, s, hsource, rfl, hnumber, rfl, hd, hs, (pure_eq_ok.1 hstem).symm⟩⟩

/-! ## Hardware channels -/

/-- The Datapools of hardware channels are found as they stand in the node. -/
theorem halcDatapools_eq (n : Node) (i : Nat) : n.halcDatapools i = n.channels i := by
  have hat : ∀ e ∈ n.datapools.zipIdx.filter (·.1.owner.map UInt64.toNat == some i), n.datapools[e.2]? = some e.1 :=
    fun e he => List.mk_mem_zipIdx_iff_getElem?.1 (List.mem_filter.1 he).1
  have hown : (n.ownedBy i).filterMap (n.datapools[·]?) =
      (n.datapools.zipIdx.filter (·.1.owner.map UInt64.toNat == some i)).map (·.1) := by
    rw [ownedBy, List.filterMap_map, ← List.filterMap_eq_map]
    exact List.filterMap_congr hat
  have hfst : (n.datapools.zipIdx.filter (·.1.owner.map UInt64.toNat == some i)).map (·.1) =
      n.datapools.filter (·.owner.map UInt64.toNat == some i) := by
    rw [← List.zipIdx_map_fst 0 n.datapools, List.filter_map, List.zipIdx_map_fst]
    rfl
  unfold halcDatapools channels
  rw [hown, hfst, List.filter_filter]
  exact List.filter_congr fun d _ => Bool.and_comm _ _

/-- **One pair for each Datapool of hardware channels**, of the variant of its safety, and no variant twice. -/
theorem halcArtifacts_eq_ok {taken : List Halc.Variant} {ds : List Datapool} {xs : List Artifact}
    (h : (n.halcArtifacts a taken ds).result = .ok xs) :
    List.Forall₂ (fun d x => (Demand.halc d).IsMetBy n x) ds xs ∧
      (ds.map fun d => Halc.Variant.ofSafety d.isSafety).Nodup ∧
      ∀ d ∈ ds, Halc.Variant.ofSafety d.isSafety ∉ taken := by
  induction ds generalizing taken xs with
  | nil =>
    cases h
    exact ⟨.nil, .nil, fun d hd => nomatch hd⟩
  | cons d ds ih =>
    obtain ⟨y, x, rest, hy, hgenerated, hsource, hrest, rfl⟩ := halcArtifacts_cons_eq_ok h
    have hstem := Artifact.hasStem hgenerated
    rw [hsource] at hstem
    obtain ⟨hdatapool, hvariant, htaken⟩ := halcCode_eq_ok hy
    obtain ⟨hmet, hnodup, hfree⟩ := ih hrest
    refine ⟨.cons ⟨hgenerated, y, hsource, hdatapool, hvariant, hstem⟩ hmet, ?_, fun e he => ?_⟩
    · -- the variant of the first one is taken for all others
      refine List.nodup_cons.2 ⟨fun hd => ?_, hnodup⟩
      obtain ⟨e, he, hsame⟩ := List.mem_map.1 hd
      exact hfree e he (List.mem_append_right _ (List.mem_singleton.2 (hsame.trans hvariant.symm)))
    · rcases List.mem_cons.1 he with rfl | he
      · exact hvariant ▸ htaken
      · exact fun hin => hfree e he (List.mem_append_left _ hin)

theorem planHalc_eq_ok {xs : List Artifact} (h : (n.planHalc i a).result = .ok xs) :
    List.Forall₂ (fun d x => (Demand.halc d).IsMetBy n x) (n.channels i) xs ∧
      ((n.channels i).map fun d => Halc.Variant.ofSafety d.isSafety).Nodup := by
  unfold planHalc at h
  rw [halcDatapools_eq] at h
  exact ⟨(halcArtifacts_eq_ok h).1, (halcArtifacts_eq_ok h).2.1⟩

/-! ## Plans -/

theorem isSome_summary? {x : Artifact} {b : Protocol × Container × Nat}
    (h : (Demand.bus b.1 b.2.1 b.2.2).IsMetBy n x) : x.summary?.isSome = decide (b.1.kind = .canOpen) := by
  obtain ⟨-, ⟨hkind, y, hy, -⟩ | ⟨hkind, y, s, hy, -⟩⟩ := h
  · rw [Artifact.summary?, hy, hkind]
    rfl
  · rw [Artifact.summary?, hy]
    exact (decide_eq_false hkind).symm

/-- The parts of a plan meet the demands of an application that is compiled. -/
theorem Parts.Of.meets {p : Parts} (h : p.Of n i a o) (hkind : a.kind = .programmable) :
    List.Forall₂ (fun w x => w.IsMetBy n x) (n.demands i a) p.artifacts := by
  have hstart : Demand.start.IsMetBy n p.start := by
    obtain ⟨y, -, hy⟩ := h.start
    obtain ⟨hgenerated, hsource⟩ := Artifact.start_eq_ok hy
    have hstem := Artifact.hasStem hgenerated
    rw [hsource] at hstem
    exact ⟨hgenerated, ⟨y, hsource⟩, hstem⟩
  have hdatapools : List.Forall₂ (fun v x => (Demand.datapool v).IsMetBy n x)
      (n.linked i a.formatVersion.toNat) p.datapools := by
    rw [(visibleDatapools_eq_ok.1 h.visible).2, ← List.zipIdx_map_fst 0 p.visible, List.forall₂_map_left_iff]
    refine h.datapools.imp fun v x ⟨y, hy, hx⟩ => ?_
    obtain ⟨hgenerated, hsource⟩ := Artifact.datapool_eq_ok hx
    obtain ⟨hdatapool, -, hlinkage, -⟩ := datapoolCode_eq_ok hy
    exact ⟨hgenerated, ⟨y, hsource, hdatapool, hlinkage⟩, stem_datapool hy hx⟩
  have hprotocols : List.Forall₂ (fun b x => (Demand.bus b.1 b.2.1 b.2.2).IsMetBy n x) (n.buses i) p.protocols := by
    obtain ⟨hlt, hinterfaces⟩ := interfacesOf_eq_ok h.interfaces
    have hartifacts := h.protocols
    rw [hinterfaces, List.forall₂_map_left_iff] at hartifacts
    refine ((List.forall₂_and_left _ _).2 ⟨hlt, hartifacts⟩).imp fun b x hb => ?_
    exact isMetBy_protocolArtifact hb.1 hb.2
  have hany : (n.buses i).any (·.1.kind = .canOpen) = !p.managers.isEmpty := by
    have hsome : (n.buses i).map (fun b => decide (b.1.kind = .canOpen)) = p.protocols.map (·.summary?.isSome) :=
      map_eq_of_forall₂ hprotocols fun b x hb => (isSome_summary? hb).symm
    have hempty : p.managers.isEmpty = !p.protocols.any (·.summary?.isSome) := by
      rw [Bool.eq_iff_iff, List.isEmpty_iff, Parts.managers, List.filterMap_eq_nil_iff]
      simp
    rw [hempty, Bool.not_not]
    have := congrArg (List.any · id) hsome
    simpa using this
  have haggregate : List.Forall₂ (Demand.IsMetBy n)
      (if (n.buses i).any (·.1.kind = .canOpen) then [.aggregate] else []) p.aggregate := by
    rw [hany]
    rcases h.aggregate with ⟨hnil, hnone⟩ | ⟨hsome, y, x, -, hx, hone⟩
    · rw [hnil, hnone]
      exact .nil
    · obtain ⟨hgenerated, hsource⟩ := Artifact.aggregate_eq_ok hx
      have hstem := Artifact.hasStem hgenerated
      rw [hsource] at hstem
      rw [if_pos (by simpa using hsome), hone]
      exact .cons ⟨hgenerated, ⟨y, hsource⟩, hstem⟩ .nil
  have hhalc := (planHalc_eq_ok h.halc).1
  unfold demands Parts.artifacts
  rw [hkind]
  exact List.rel_append (List.rel_append (List.rel_append (.cons hstart (List.forall₂_map_left_iff.2 hdatapools))
    (List.forall₂_map_left_iff.2 hprotocols)) haggregate) (List.forall₂_map_left_iff.2 hhalc)

theorem isKnown_iff {v : Nat} : FormatVersion.isKnown v = true ↔ 1 ≤ v ∧ v ≤ 6 := by
  rw [FormatVersion.isKnown, Bool.and_eq_true, decide_eq_true_eq, decide_eq_true_eq]
  rfl

theorem result_plan (ha : n.applicationAt i = .ok a) : (n.plan i o).result =
    if !FormatVersion.isKnown a.formatVersion.toNat then
      .error (.refused (.unsupported (.unknownVersion a.formatVersion a.name)))
    else match a.kind with
      | .programmable => (n.planProgrammable i a o).result
      | .parameterSetHalc => (n.planHalc i a).result
      | .binary => .error (.refused (.unsupported (.binary a.name))) := by
  rw [plan, Report.result_bind, Report.result_orRefuse, ha]
  show Report.result (if _ then _ else _) = _
  rw [apply_ite Report.result]
  cases a.kind <;> rfl

/-- **A plan is complete**: it is there for known versions only, meets the demands of the application one by one and
in order, and has no variant of hardware channels twice. An application of an unknown version and one that is no code
have no plan, whatever else the node holds. -/
theorem plan_is_complete (ha : n.applicationAt i = .ok a) (o : ExportOptions) :
    (∀ xs, (n.plan i o).result = .ok xs →
      (1 ≤ a.formatVersion.toNat ∧ a.formatVersion.toNat ≤ 6) ∧ a.kind ≠ .binary ∧
        List.Forall₂ (Demand.IsMetBy n) (n.demands i a) xs ∧
        ((n.channels i).map fun d => Halc.Variant.ofSafety d.isSafety).Nodup) ∧
      (a.kind = .binary ∨ ¬ (1 ≤ a.formatVersion.toNat ∧ a.formatVersion.toNat ≤ 6) →
        ∃ cause, (n.plan i o).result = .error (.refused (.unsupported cause))) := by
  have hunknown : ¬ (1 ≤ a.formatVersion.toNat ∧ a.formatVersion.toNat ≤ 6) →
      (n.plan i o).result = .error (.refused (.unsupported (.unknownVersion a.formatVersion a.name))) := by
    intro h
    rw [← isKnown_iff, Bool.not_eq_true] at h
    rw [result_plan ha, h]
    rfl
  have hbinary : (1 ≤ a.formatVersion.toNat ∧ a.formatVersion.toNat ≤ 6) → a.kind = .binary →
      (n.plan i o).result = .error (.refused (.unsupported (.binary a.name))) := by
    intro h hkind
    rw [← isKnown_iff] at h
    rw [result_plan ha, h, hkind]
    rfl
  constructor
  · intro xs hxs
    have hversion : 1 ≤ a.formatVersion.toNat ∧ a.formatVersion.toNat ≤ 6 := by
      by_contra hnot
      rw [hunknown hnot] at hxs
      cases hxs
    obtain ⟨a', ha', hplan⟩ := plan_eq_ok hxs
    obtain rfl : a = a' := Except.ok.inj (ha.symm.trans ha')
    rcases hplan with ⟨hkind, p, hp, rfl⟩ | ⟨hkind, hhalc⟩
    · exact ⟨hversion, by rw [hkind]; decide, hp.meets hkind, (planHalc_eq_ok hp.halc).2⟩
    · obtain ⟨hmet, hnodup⟩ := planHalc_eq_ok hhalc
      refine ⟨hversion, by rw [hkind]; decide, ?_, hnodup⟩
      rw [demands, hkind]
      exact List.forall₂_map_left_iff.2 hmet
  · intro h
    by_cases hversion : 1 ≤ a.formatVersion.toNat ∧ a.formatVersion.toNat ≤ 6
    · exact ⟨_, hbinary hversion (h.resolve_right (not_not.2 hversion))⟩
    · exact ⟨_, hunknown hversion⟩

theorem plan_is_complete_lift : ∃ a xs, lift.applicationAt 0 = .ok a ∧ (lift.plan 0 (.new "out")).result = .ok xs ∧
    xs.map (·.pair.stem) = ["osy_init", "lights_data_pool", "bus_data_pool", "doors_data_pool", "comm_l2_can1",
      "canopen_mgr_can1", "canopen_mgr_can2", "canopen_init", "halc_config_nonsafe"] ∧
    List.Forall₂ (Demand.IsMetBy lift) (lift.demands 0 a) xs := by
  obtain ⟨xs, hxs, hstems⟩ := exists_eq_ok_of_any (x := (lift.plan 0 (.new "out")).result)
    (p := fun xs => xs.map (·.pair.stem) = ["osy_init", "lights_data_pool", "bus_data_pool", "doors_data_pool",
      "comm_l2_can1", "canopen_mgr_can1", "canopen_mgr_can2", "canopen_init", "halc_config_nonsafe"])
    (by decide +kernel)
  obtain ⟨-, -, hmet, -⟩ := (plan_is_complete rfl (.new "out")).1 xs hxs
  exact ⟨_, xs, rfl, hxs, hstems, hmet⟩

end Node

end BusNode
