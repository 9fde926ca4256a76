import BusNode.Proofs.CanOpen.Aggregate
import BusNode.Proofs.Node.FileName
import BusNode.Proofs.Start.Reference
/-!
# The start table and the managers together

Two pairs of an application are about its other pairs: the start table and the pair of all CANopen managers. What they
refer to is collected while the other pairs are planned, and the sums of the managers meet the numbers of their headers
in the compiler only.

* `Node.Parts.Of.start_offers`, `Node.Parts.Of.managers_offer` — what either of them refers to is in the plan;
* `Node.numberOf?_managers` — the names that are added up are defined once, by the header of their manager;
* `Node.start_and_managers_are_closed` — so both refer to nothing that is not generated, and count what there is.
-/

namespace BusNode

open Can CanOpen

/-! ## What pairs offer -/

theorem DatapoolCode.offers_of_provides {q : Artifact} {d : Datapool} (h : q.Provides d) :
    q.pair.Offers d.headerName d.recordName := by
  obtain ⟨rows, hrows⟩ := h.record
  exact ⟨h.header, File.has_of_mem hrows rfl⟩

theorem CommCode.offers_of_generate {x : CommCode} {id : Identifier} {p : Pair} (h : (x.generate id).result = .ok p) :
    p.Offers (p.stem ++ ".h") (recordName p.stem) := by
  obtain ⟨stack, tx, rx, -, -, -, -, -, rfl⟩ := generate_eq_ok h
  refine ⟨rfl, File.has_of_mem (i := .object (.sharedRecord "T_osy_com_protocol_configuration" (recordName x.stemOr))
    (x.recordRows stack.tag tx rx) none) ?_ rfl⟩
  simp only [source, List.mem_append, List.mem_cons, true_or, or_true]

theorem HalcCode.offers_of_generate {x : HalcCode} {id : Identifier} {p : Pair} (h : (x.generate id).result = .ok p) :
    p.Offers (x.variant.stem ++ ".h") x.variant.recordName := by
  obtain ⟨f, hf, rfl⟩ := generate_eq_ok h
  obtain ⟨code, -, rfl⟩ := exists_code hf
  refine ⟨rfl, File.has_of_mem (i := .object (.sharedRecord "T_osy_hal_configuration" x.variant.recordName)
    (x.recordRows (code.map (·.2))) none) ?_ rfl⟩
  simp only [sourceItems, List.mem_append, List.mem_cons, true_or, or_true]

namespace Artifact

variable {q : Artifact}

theorem source_of_summary? {m : ManagerSummary} (h : q.summary? = some m) :
    ∃ x, q.source = .manager x ∧ m = .of x.interface x.manager x.container := by
  unfold summary? at h
  split at h
  · exact ⟨_, by assumption, (Option.some.inj h).symm⟩
  · cases h

theorem source_of_protocolStem? {stem : String} (h : q.protocolStem? = some stem) :
    ∃ x, q.source = .comm x ∧ stem = q.pair.stem := by
  unfold protocolStem? at h
  split at h
  · exact ⟨_, by assumption, (Option.some.inj h).symm⟩
  · cases h

theorem source_of_variant? {v : Halc.Variant} (h : q.variant? = some v) : ∃ x, q.source = .halc x ∧ v = x.variant := by
  unfold variant? at h
  split at h
  · exact ⟨_, by assumption, (Option.some.inj h).symm⟩
  · cases h

end Artifact

namespace Node

variable {n : Node} {application : Nat} {a : Application} {o : ExportOptions} {p : Parts} {q : Artifact}

theorem startCode_eq_ok {ds : List Datapool} {protocols : List String} {hasCanOpen : Bool} {halc : List Halc.Variant}
    {x : StartCode} (h : n.startCode application a ds protocols hasCanOpen halc = .ok x) :
    x.datapools = ds ∧ x.protocols = protocols ∧ x.hasCanOpen = hasCanOpen ∧ x.halc = halc := by
  obtain ⟨version, -, h⟩ := bind_eq_ok.1 h
  cases h
  exact ⟨rfl, rfl, rfl, rfl⟩

theorem aggregateCode_eq_ok {managers : List ManagerSummary} {x : AggregateCode}
    (h : aggregateCode a managers = .ok x) : x.managers = managers := by
  obtain ⟨version, -, h⟩ := bind_eq_ok.1 h
  cases h
  rfl

/-! ## Parts of a plan -/

namespace Parts

variable {s g : Artifact}

/-- The start table refers to artifacts of its plan. -/
theorem Of.start_offers (h : p.Of n application a o) : ∃ x, p.start.source = .start x ∧
    (x.generate p.start.identifier).result = .ok p.start.pair ∧ x.hasCanOpen = !p.managers.isEmpty ∧
    x.halc = p.halc.filterMap Artifact.variant? ∧
    ∀ r ∈ x.referred, ∃ q ∈ p.artifacts.map (·.pair), q.Offers r.1 r.2 := by
  obtain ⟨x, hx, hstart⟩ := h.start
  obtain ⟨hgenerated, hsource⟩ := Artifact.start_eq_ok hstart
  obtain ⟨hdatapools, hprotocols, hcanOpen, hhalc⟩ := startCode_eq_ok hx
  refine ⟨x, hsource, hgenerated.generate hsource, hcanOpen, hhalc, fun r hr => ?_⟩
  have hoffers {q : Artifact} (hq : q ∈ p.artifacts) (ho : q.pair.Offers r.1 r.2) :
      ∃ q ∈ p.artifacts.map (·.pair), q.Offers r.1 r.2 := ⟨_, List.mem_map_of_mem hq, ho⟩
  unfold StartCode.referred at hr
  rw [hdatapools, hprotocols, hcanOpen, hhalc] at hr
  rcases List.mem_append.1 hr with hr | hr
  · rcases List.mem_append.1 hr with hr | hr
    · rcases List.mem_append.1 hr with hr | hr
      · obtain ⟨d, hd, rfl⟩ := List.mem_map.1 hr
        obtain ⟨v, hv, rfl⟩ := List.mem_map.1 hd
        obtain ⟨place, hplace⟩ := List.getElem?_of_mem hv
        obtain ⟨c, f, hf, hfsource, hpair, -, hname, -, -⟩ := h.addressed hplace
        exact hoffers (mem_artifacts.2 (.inr (.inl (List.mem_of_getElem? hf.2))))
          (DatapoolCode.offers_of_provides (DatapoolCode.provides_of_generate hfsource hpair hname))
      · obtain ⟨stem, hstem, rfl⟩ := List.mem_map.1 hr
        obtain ⟨q, hq, hstem⟩ := List.mem_filterMap.1 hstem
        obtain ⟨y, hy, rfl⟩ := Artifact.source_of_protocolStem? hstem
        have hq := mem_artifacts.2 (.inr (.inr (.inl hq)))
        exact hoffers hq (CommCode.offers_of_generate ((isGenerated h q hq).generate hy))
    · split at hr
      · rename_i hmanagers
        obtain rfl := List.mem_singleton.1 hr
        rcases h.aggregate with ⟨hnil, -⟩ | ⟨-, y, d, -, hy, hone⟩
        · rw [hnil] at hmanagers
          cases hmanagers
        · obtain ⟨hgenerated, hsource⟩ := Artifact.aggregate_eq_ok hy
          have hd : d ∈ p.artifacts := mem_artifacts.2 (.inr (.inr (.inr (.inl (hone ▸ List.mem_singleton_self d)))))
          exact hoffers hd (AggregateCode.offers_of_generate (hgenerated.generate hsource))
      · cases hr
  · obtain ⟨v, hv, rfl⟩ := List.mem_map.1 hr
    obtain ⟨q, hq, hv⟩ := List.mem_filterMap.1 hv
    obtain ⟨y, hy, rfl⟩ := Artifact.source_of_variant? hv
    have hq := mem_artifacts.2 (.inr (.inr (.inr (.inr hq))))
    exact hoffers hq (HalcCode.offers_of_generate ((isGenerated h q hq).generate hy))

/-- The artifact of all managers is that of the managers of its plan. -/
theorem Of.exists_aggregate (h : p.Of n application a o) (hg : g ∈ p.aggregate) : ∃ x, g.source = .aggregate x ∧
    (x.generate g.identifier).result = .ok g.pair ∧ x.managers = p.managers := by
  rcases h.aggregate with ⟨-, hnil⟩ | ⟨-, x, d, hx, hd, hone⟩
  · rw [hnil] at hg
    cases hg
  · obtain rfl := List.mem_singleton.1 (hone ▸ hg)
    obtain ⟨hgenerated, hsource⟩ := Artifact.aggregate_eq_ok hd
    exact ⟨x, hsource, hgenerated.generate hsource, aggregateCode_eq_ok hx⟩

/-- The pair of all managers refers to artifacts of its plan. -/
theorem Of.managers_offer (h : p.Of n application a o) {x : AggregateCode} (hx : x.managers = p.managers) :
    ∀ r ∈ x.referred, ∃ q ∈ p.artifacts.map (·.pair), q.Offers r.1 r.2 := by
  intro r hr
  obtain ⟨m, hm, rfl⟩ := List.mem_map.1 hr
  rw [hx] at hm
  obtain ⟨q, hq, hm⟩ := List.mem_filterMap.1 hm
  obtain ⟨y, hy, rfl⟩ := Artifact.source_of_summary? hm
  have hq := mem_artifacts.2 (.inr (.inr (.inl hq)))
  exact ⟨_, List.mem_map_of_mem hq, ManagerCode.offers_of_generate ((isGenerated h q hq).generate hy)⟩

/-- Which artifact of a plan is of which part. -/
theorem Of.part_of_kind (h : p.Of n application a o) (hq : q ∈ p.artifacts) :
    (q.source.kind = .start → q = p.start) ∧ (q.source.kind = .aggregate → q ∈ p.aggregate) ∧
      (q.source.kind = .halc → q ∈ p.halc) := by
  obtain ⟨hstart, hdatapools, hprotocols, haggregate, hhalc⟩ := h.kinds
  have hkind {ks : List ArtifactKind} {as : List Artifact} (has : AllOf ks as) (hq : q ∈ as) : q.source.kind ∈ ks :=
    (has q hq).2
  rcases mem_artifacts.1 hq with rfl | hq | hq | hq | hq
  · rw [List.mem_singleton.1 (hkind hstart (.head _))]
    exact ⟨fun _ => rfl, nofun, nofun⟩
  · rw [List.mem_singleton.1 (hkind hdatapools hq)]
    exact ⟨nofun, nofun, nofun⟩
  · rcases List.mem_cons.1 (hkind hprotocols hq) with hmanager | hcomm
    · rw [hmanager]
      exact ⟨nofun, nofun, nofun⟩
    · rw [List.mem_singleton.1 hcomm]
      exact ⟨nofun, nofun, nofun⟩
  · rw [List.mem_singleton.1 (hkind haggregate hq)]
    exact ⟨nofun, fun _ => hq, nofun⟩
  · rw [List.mem_singleton.1 (hkind hhalc hq)]
    exact ⟨nofun, nofun, fun _ => hq⟩

end Parts

/-! ## Numbers of the managers -/

/-- The header of a manager, with its interface. -/
def managerHeader? (q : Artifact) : Option (UInt8 × File) :=
  match q.source with
  | .manager x => some (x.interface, q.pair.header)
  | _ => none

/-- The headers of the managers of a plan, by their interfaces. -/
def managerHeaders (as : List Artifact) : List (UInt8 × File) := as.filterMap managerHeader?

theorem mem_managerHeaders {as : List Artifact} (has : ∀ q ∈ as, q.IsGenerated) {e : UInt8 × File}
    (he : e ∈ managerHeaders as) :
    ∃ q ∈ as, ∃ x pl, q.source = .manager x ∧ x.plan = .ok pl ∧ e = (x.interface, x.header q.identifier pl) := by
  obtain ⟨q, hq, he⟩ := List.mem_filterMap.1 he
  unfold managerHeader? at he
  split at he
  · rename_i x hx
    obtain ⟨pl, f, hpl, -, hpair⟩ := ManagerCode.generate_eq_ok ((has q hq).generate hx)
    refine ⟨q, hq, x, pl, hx, hpl, ?_⟩
    rw [← Option.some.inj he, hpair]
  · cases he

/-- **The name of a number of a manager stands for the number**, where no two managers are of one interface. -/
theorem numberOf?_managers {as : List Artifact} (has : ∀ q ∈ as, q.IsGenerated)
    (hdistinct : ((managerHeaders as).map (·.1)).Nodup) {m : ManagerSummary} (hq : q ∈ as) (hm : q.summary? = some m)
    {k : InstanceKind} (hk : k ∈ AggregateCode.countedKinds) :
    numberOf? ((managerHeaders as).map (·.2)) (ManagerCode.defineStem m.interface ++ "_" ++ k.number) =
      some (k.count m) := by
  obtain ⟨x, hx, rfl⟩ := Artifact.source_of_summary? hm
  obtain ⟨pl, f, hpl, -, hpair⟩ := ManagerCode.generate_eq_ok ((has q hq).generate hx)
  have hmem : (x.interface, x.header q.identifier pl) ∈ managerHeaders as := by
    refine List.mem_filterMap.2 ⟨q, hq, ?_⟩
    unfold managerHeader?
    rw [hx, hpair]
  have hother : ∀ e ∈ managerHeaders as, e.1 ≠ x.interface →
      e.2.meanings (ManagerCode.defineStem x.interface ++ "_" ++ k.number) = [] := by
    intro e he hne
    obtain ⟨q', -, y, pl', -, -, rfl⟩ := mem_managerHeaders has he
    exact ManagerCode.meanings_header_of_ne hne k.number
  refine numberOf?_of_meanings ?_
  rw [List.flatMap_map]
  exact (flatMap_eq_of_nodup hdistinct hmem hother).trans (AggregateCode.meanings_manager hpl hk)

/-! ## Closedness -/

/-- The start table of a plan refers to the plan and counts its rows, and it starts CANopen and hardware channels just
if they are planned. -/
structure StartsPlan (as : List Artifact) (s : Artifact) : Prop where
  closed : s.pair.ClosedIn (as.map (·.pair))
  datapools : s.pair.Counts (StartCode.defined "NUMBER_OF_DATA_POOLS") StartCode.datapoolsName
  protocols : s.pair.Counts (StartCode.defined "NUMBER_OF_PROTOCOLS") StartCode.protocolsName
  pointers : ∃ canOpen safe nonSafe, s.pair.source.StartsFrom canOpen safe nonSafe ∧
    (canOpen = none ↔ ∀ q ∈ as, q.source.kind ≠ .aggregate) ∧
    (safe = none ↔ ∀ q ∈ as, q.variant? ≠ some .safe) ∧
    (nonSafe = none ↔ ∀ q ∈ as, q.variant? ≠ some .nonSafe)

/-- The pair of all managers refers to the plan, and its sums have the values that the headers of the managers give
them. -/
structure SumsPlan (as : List Artifact) (g : Artifact) : Prop where
  closed : g.pair.ClosedIn (as.map (·.pair))
  sums : ∀ k ∈ AggregateCode.kinds, ∃ value,
    AggregateCode.Sums g.pair (numberOf? ((managerHeaders as).map (·.2))) k value

theorem Parts.Of.startsPlan (h : p.Of n application a o) : StartsPlan p.artifacts p.start := by
  obtain ⟨x, hx, hgenerated, hcanOpen, hhalc, hoffers⟩ := h.start_offers
  have hself : p.start.pair ∈ p.artifacts.map (·.pair) := List.mem_map_of_mem (mem_artifacts.2 (.inl rfl))
  obtain ⟨hdatapools, hprotocols⟩ := StartCode.counts_of_generate hgenerated
  have hvariant (v : Halc.Variant) : x.halcPointer v = none ↔ ∀ q ∈ p.artifacts, q.variant? ≠ some v := by
    have hmem : v ∈ x.halc ↔ ∃ q ∈ p.artifacts, q.variant? = some v := by
      rw [hhalc, List.mem_filterMap]
      constructor
      · rintro ⟨q, hq, hv⟩
        exact ⟨q, mem_artifacts.2 (.inr (.inr (.inr (.inr hq)))), hv⟩
      · rintro ⟨q, hq, hv⟩
        obtain ⟨y, hy, -⟩ := Artifact.source_of_variant? hv
        exact ⟨q, (h.part_of_kind hq).2.2 (by rw [hy]; rfl), hv⟩
    unfold StartCode.halcPointer
    by_cases hv : v ∈ x.halc
    · rw [if_pos hv]
      refine iff_of_false (fun h => nomatch h) fun hnone => ?_
      obtain ⟨q, hq, hv⟩ := hmem.1 hv
      exact hnone q hq hv
    · rw [if_neg hv]
      exact iff_of_true rfl fun q hq hv' => hv (hmem.2 ⟨q, hq, hv'⟩)
  refine ⟨StartCode.closedIn_of_generate hgenerated hself hoffers, hdatapools, hprotocols, _, _, _,
    StartCode.startsFrom_of_generate hgenerated, ?_, hvariant .safe, hvariant .nonSafe⟩
  rw [hcanOpen]
  rcases h.aggregate with ⟨hmanagers, hnil⟩ | ⟨hmanagers, y, d, -, hd, hone⟩
  · rw [hmanagers]
    refine iff_of_true rfl fun q hq hkind => ?_
    have := (h.part_of_kind hq).2.1 hkind
    rw [hnil] at this
    cases this
  · rw [List.isEmpty_eq_false_iff.2 hmanagers]
    refine iff_of_false (fun h => nomatch h) fun hnone => ?_
    have hmem : d ∈ p.artifacts := mem_artifacts.2 (.inr (.inr (.inr (.inl (hone ▸ List.mem_singleton_self d)))))
    exact hnone d hmem (by rw [(Artifact.aggregate_eq_ok hd).2]; rfl)

theorem Parts.Of.sumsPlan (h : p.Of n application a o) (hdistinct : ((managerHeaders p.artifacts).map (·.1)).Nodup)
    {g : Artifact} (hg : g ∈ p.aggregate) : SumsPlan p.artifacts g := by
  obtain ⟨x, -, hgenerated, hmanagers⟩ := h.exists_aggregate hg
  have hself : g.pair ∈ p.artifacts.map (·.pair) := List.mem_map_of_mem (mem_artifacts.2 (.inr (.inr (.inr (.inl hg)))))
  refine ⟨AggregateCode.closedIn_of_generate hgenerated hself (h.managers_offer hmanagers), fun k hk => ⟨x.total k, ?_⟩⟩
  refine AggregateCode.sums_of_generate hgenerated (fun m hm k hk => ?_) hk
  rw [hmanagers] at hm
  obtain ⟨q, hq, hm⟩ := List.mem_filterMap.1 hm
  exact numberOf?_managers (isGenerated h) hdistinct (mem_artifacts.2 (.inr (.inr (.inl hq)))) hm hk

/-- **The start table and the pair of all managers refer to nothing that is not generated**, and what they count is
there. -/
theorem start_and_managers_are_closed {as : List Artifact} (ha : n.applicationAt application = .ok a)
    (hkind : a.kind = .programmable) (h : (n.plan application o).result = .ok as)
    (hdistinct : ((managerHeaders as).map (·.1)).Nodup) :
    (∃ s ∈ as, s.source.kind = .start) ∧ (∀ s ∈ as, s.source.kind = .start → StartsPlan as s) ∧
      ∀ g ∈ as, g.source.kind = .aggregate → SumsPlan as g := by
  obtain ⟨p, hp, rfl⟩ := exists_parts ha hkind h
  refine ⟨⟨p.start, Parts.mem_artifacts.2 (.inl rfl), ?_⟩, fun s hs hkind => ?_, fun g hg hkind => ?_⟩
  · obtain ⟨x, hx, -⟩ := hp.start_offers
    rw [hx]
    rfl
  · rw [(hp.part_of_kind hs).1 hkind]
    exact hp.startsPlan
  · exact hp.sumsPlan hdistinct ((hp.part_of_kind hg).2.1 hkind)

/-- The doors of a cabin, two on the first bus and one on the second. -/
def doors : Datapool := { Datapool.new "Doors" .com (some 0) with
  lists := [ElementList.new "Tx1",
    { ElementList.new "Rx1" with elements := [.scalar "Left" (.u8 0) (.u8 0) (.u8 1)] },
    ElementList.new "Tx2",
    { ElementList.new "Rx2" with elements := [.scalar "Rear" (.u8 0) (.u8 0) (.u8 1)] }] }

/-- What a door sends. -/
def position (owner : DeviceId) (name : String) : Message :=
  { Message.new name 0x181 1 .canOpenType255 with signals := [Signal.new 0 0 8], owner := some owner }

/-- A cabin whose doors are driven over CANopen. -/
def lift : Node := { cabin with
  name := "Lift"
  datapools := [lights, bus, doors]
  protocols := cabin.protocols ++
    [⟨.canOpen, 2, [⟨true, [], [position ⟨1, 0⟩ "Left"]⟩, ⟨true, [], [position ⟨3, 1⟩ "Rear"]⟩]⟩]
  managers := (SortedMap.empty.insert 0 { Manager.new 1 with
    devices := [.new ⟨1, 0⟩ "DoorLeft" 1, .new ⟨2, 0⟩ "DoorRight" 2] }).insert 1 { Manager.new 1 with
      devices := [.new ⟨3, 1⟩ "DoorRear" 1] }
  interfaces := [⟨.can, 0, 1, false, false, 125⟩, ⟨.can, 1, 1, false, false, 125⟩] }

theorem start_and_managers_are_closed_lift : ∃ as, (lift.plan 0 (.new "out")).result = .ok as ∧
    (managerHeaders as).map (·.1) = [0, 1] ∧ (∃ q ∈ as, q.variant? = some .nonSafe) ∧
    (∃ s ∈ as, s.source.kind = .start ∧ StartsPlan as s) ∧
    ∃ g ∈ as, g.source.kind = .aggregate ∧ SumsPlan as g := by
  obtain ⟨as, has, hinterfaces, hhalc, g, hg, hkind⟩ := exists_eq_ok_of_any (x := (lift.plan 0 (.new "out")).result)
    (p := fun as => (managerHeaders as).map (·.1) = [0, 1] ∧ (∃ q ∈ as, q.variant? = some .nonSafe) ∧
      ∃ g ∈ as, g.source.kind = .aggregate) (by decide +kernel)
  obtain ⟨⟨s, hs, hstart⟩, hstarts, hsums⟩ :=
    start_and_managers_are_closed rfl rfl has (by rw [hinterfaces]; decide)
  exact ⟨as, has, hinterfaces, hhalc, ⟨s, hs, hstart, hstarts s hs hstart⟩, g, hg, hkind, hsums g hg hkind⟩

end Node

end BusNode
