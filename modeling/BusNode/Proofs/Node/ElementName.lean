import BusNode.Proofs.Can.Rename
import BusNode.Proofs.Can.SignalRow
import BusNode.Proofs.Node.Closure
/-!
# Names of elements in rows and headers

Elements with signals are named after messages twice: for the pair of a protocol by this protocol, and for the pair of
the Datapool by the first protocol that has it.

* `Artifact.signalRows` — the rows of the signals of a direction;
* `Node.HeaderNames` — the header of the Datapool of a protocol defines an index by a name;
* `Node.rows_name_elements` — what a row and the header call an element; it is the same name where the protocol of the
  row is the first one;
* `Node.misnamed_ferry` — and may be another name where it is not.
-/

namespace BusNode

open Can CanOpen

/-! ## The header of a Datapool -/

/-- The header of a Datapool defines the index of every element by its name. -/
theorem DatapoolCode.define_mem_header {x : DatapoolCode} {id : Identifier} {p : Pair} {l : ElementList} {e : Element}
    {list element : Nat} (h : (x.generate id).result = .ok p) (hl : x.datapool.lists[list]? = some l)
    (he : l.elements[element]? = some e) :
    .define s!"{upper x.datapool.name}_{upper l.name}_INDEX_{upper e.name}" "" (.number element) ∈ p.header.items := by
  obtain ⟨-, header, source, hheader, -, rfl⟩ := generate_eq_ok h
  obtain ⟨scaling, -, rfl⟩ := header_eq_ok.1 hheader
  have hdefine : .define s!"{upper x.datapool.name}_{upper l.name}_INDEX_{upper e.name}" "" (.number element) ∈
      x.listDefines l := by
    refine List.mem_append_left _ (List.mem_append_right _ (List.mem_map.2 ⟨(e, element), ?_, rfl⟩))
    exact List.mk_mem_zipIdx_iff_getElem?.2 he
  have hlists : .define s!"{upper x.datapool.name}_{upper l.name}_INDEX_{upper e.name}" "" (.number element) ∈
      x.datapool.lists.flatMap x.listDefines := List.mem_flatMap.2 ⟨l, List.mem_of_getElem? hl, hdefine⟩
  simp only [headerItems, List.mem_append, hlists, true_or, or_true]

/-! ## Rows and headers -/

/-- The rows of the signals of a direction. -/
def Artifact.signalRows (q : Artifact) (dir : Direction) : List Row :=
  match q.source with
  | .comm x => q.pair.source.rows (x.signalsName dir)
  | .manager x => q.pair.source.rows (x.signalsName dir)
  | _ => []

/-- Whether a row is one value with a comment is seen from the row. -/
instance (r : Row) (text comment : String) : Decidable (r = .noted text comment) :=
  match r with
  | .value (.constant s) (some c) => decidable_of_iff (s = text ∧ c = comment) (by simp [Row.noted])
  | .value (.constant _) none => .isFalse nofun
  | .value (.pointer _) _ => .isFalse nofun
  | .value (.list _) _ => .isFalse nofun
  | .lines _ _ => .isFalse nofun
  | .nested _ _ => .isFalse nofun

namespace Node

variable {n : Node} {application : Nat} {a : Application} {o : ExportOptions} {q : Artifact} {e : ProtocolInterface}
  {dir : Direction} {w : UInt32} {name : String}

/-- The name that a protocol gives to an element of an interface and a direction. -/
def elementName? (n : Node) (p : Protocol) (e : ProtocolInterface) (dir : Direction) (element : Nat) : Option String :=
  n.datapools[e.protocol.datapoolIndex.toNat]?.bind fun d =>
    d.elementName? p (dir.listIndex e.interface.toNat) element

/-- Among the artifacts is that of the Datapool of the interface, and its header defines the index of an element of the
direction by the name. -/
def HeaderNames (n : Node) (as : List Artifact) (e : ProtocolInterface) (dir : Direction) (name : String)
    (element : Nat) : Prop :=
  ∃ d l f, n.datapools[e.protocol.datapoolIndex.toNat]? = some d ∧
    d.lists[dir.listIndex e.interface.toNat]? = some l ∧ f ∈ as ∧ f.Provides d ∧
    .define s!"{upper d.name}_{upper l.name}_INDEX_{upper name}" "" (.number element) ∈ f.pair.header.items

/-- The protocol of an interface names the element of every row. -/
theorem elementName?_of_mem_signalRows (hq : (n.protocolArtifact a e).result = .ok q)
    (hr : .noted (Literal.hexWord w) name ∈ q.signalRows dir) :
    n.elementName? e.protocol e dir (Descriptor.ofWord w).elementIndex.toNat = some name := by
  obtain ⟨hgenerated, x, hx, hsource⟩ := protocolArtifact_eq_ok hq
  obtain ⟨d, hd, -, rfl⟩ := comDatapool_eq_ok hx
  have hlist {l : ElementList}
      (hl : (d.renameSignals e.protocol).lists[dir.listIndex e.interface.toNat]? = some l) (hnames : l.Names w name) :
      n.elementName? e.protocol e dir (Descriptor.ofWord w).elementIndex.toNat = some name := by
    obtain ⟨v, hv, hname⟩ := hnames
    unfold elementName?
    rw [hd]
    exact Datapool.elementName?_eq_some.2 ⟨l, v, hl, hv, hname⟩
  unfold Artifact.signalRows at hr
  rcases hsource with ⟨y, -, hy, hsource⟩ | ⟨y, -, hy, hsource⟩
  · rw [hsource] at hr
    obtain ⟨l, hl, hnames⟩ := ManagerCode.names_of_mem_rows (hgenerated.generate hsource) hr
    obtain ⟨version, -, hy⟩ := bind_eq_ok.1 hy
    obtain ⟨m, -, hy⟩ := bind_eq_ok.1 hy
    obtain rfl := pure_eq_ok.1 hy
    exact hlist (ManagerCode.list_eq_ok.1 hl) hnames
  · rw [hsource] at hr
    obtain ⟨l, hl, hnames⟩ := CommCode.names_of_mem_rows (hgenerated.generate hsource) hr
    obtain ⟨version, -, hy⟩ := bind_eq_ok.1 hy
    obtain rfl := pure_eq_ok.1 hy
    exact hlist (CommCode.list_eq_ok.1 hl) hnames

/-- A Datapool of signals that has a protocol is named by the first one. -/
theorem exists_protocolOf? {p : Protocol} (hp : p ∈ n.protocols) :
    ∃ first, n.protocolOf? p.datapoolIndex.toNat = some first :=
  Option.isSome_iff_exists.1 (List.find?_isSome.2 ⟨p, hp, decide_eq_true rfl⟩)

theorem namedDatapool_of_com {v : VisibleDatapool} {first : Protocol} (hkind : v.datapool.kind = .com)
    (hfirst : n.protocolOf? v.index = some first) : n.namedDatapool v = v.datapool.renameSignals first := by
  unfold namedDatapool
  rw [if_pos hkind, hfirst]

/-- The first protocol of the Datapool names the elements in its header. -/
theorem Parts.Of.headerNames {p : Parts} (h : p.Of n application a o) (he : n.IsInterface application e)
    (hq : (n.protocolArtifact a e).result = .ok q) {element : Nat}
    (hname : n.elementName? e.protocol e dir element = some name) :
    ∃ first named, n.protocolOf? e.protocol.datapoolIndex.toNat = some first ∧
      n.elementName? first e dir element = some named ∧ n.HeaderNames p.artifacts e dir named element := by
  obtain ⟨d, hd, howner, hfilled⟩ := he.datapool
  obtain ⟨-, x, hx, -⟩ := protocolArtifact_eq_ok hq
  obtain ⟨d', hd', hkind, -⟩ := comDatapool_eq_ok hx
  obtain rfl : d = d' := Option.some.inj (hd.symm.trans hd')
  obtain ⟨first, hfirst⟩ := exists_protocolOf? he.protocol
  obtain ⟨f, hf, hprovides, c, v, hsource, hc, rfl, hindex⟩ := h.exists_provides hd howner hfilled
  rw [namedDatapool_of_com hkind (hindex ▸ hfirst)] at hc
  unfold elementName? at hname
  rw [hd] at hname
  obtain ⟨l, u, hl, hu, -⟩ := Datapool.elementName?_eq_some.1 hname
  -- The protocol of the row and the first one leave the places of the elements as they are.
  have hsame (p : Protocol) : (v.datapool.renameSignals p).shapes = v.datapool.shapes :=
    v.datapool.shapes_renameSignals p
  obtain ⟨l₀, -, hl₀, hlist₀, -⟩ := Datapool.exists_element (hsame e.protocol).symm hl hu
  obtain ⟨l₁, u₁, hl₁, hlist₁, hu₁⟩ :=
    Datapool.exists_element ((hsame first).trans (hsame e.protocol).symm) hl hu
  have hdefine :=
    DatapoolCode.define_mem_header ((Parts.isGenerated h f hf).generate hsource) (hc.symm ▸ hl₁) hu₁
  obtain ⟨lists, hlists⟩ := v.datapool.renameSignals_eq first
  have hdatapool : c.datapool.name = v.datapool.name := by rw [hc, hlists]
  rw [hdatapool, hlist₁, ← hlist₀] at hdefine
  refine ⟨first, u₁.name, hfirst, ?_, v.datapool, l₀, f, hd, hl₀, hf, hprovides, hdefine⟩
  unfold elementName?
  rw [hd]
  exact Datapool.elementName?_eq_some.2 ⟨l₁, u₁, hl₁, hu₁, rfl⟩

/-- **Rows and headers name the same elements, where the first protocol of a Datapool is meant.** A row has the name
that its own protocol gives to the element of its index, the header of the Datapool has the name that the first
protocol of the Datapool gives to it. -/
theorem rows_name_elements {as : List Artifact} (ha : n.applicationAt application = .ok a)
    (hkind : a.kind = .programmable) (h : (n.plan application o).result = .ok as) (hq : q ∈ as)
    (hr : .noted (Literal.hexWord w) name ∈ q.signalRows dir) :
    ∃ e first named, n.IsInterface application e ∧ (n.protocolArtifact a e).result = .ok q ∧
      n.protocolOf? e.protocol.datapoolIndex.toNat = some first ∧
      n.elementName? e.protocol e dir (Descriptor.ofWord w).elementIndex.toNat = some name ∧
      n.elementName? first e dir (Descriptor.ofWord w).elementIndex.toNat = some named ∧
      n.HeaderNames as e dir named (Descriptor.ofWord w).elementIndex.toNat ∧
      (first = e.protocol → n.HeaderNames as e dir name (Descriptor.ofWord w).elementIndex.toNat) := by
  obtain ⟨p, hp, rfl⟩ := exists_parts ha hkind h
  have hnone (hs : ∀ x, q.source ≠ .comm x) (hm : ∀ x, q.source ≠ .manager x) : False := by
    unfold Artifact.signalRows at hr
    split at hr
    · exact hs _ (by assumption)
    · exact hm _ (by assumption)
    · cases hr
  rcases hp.origin hq with ⟨x, hx⟩ | ⟨-, -, x, hx, -⟩ | ⟨e, he, hartifact⟩ | ⟨x, hx⟩ | ⟨x, hx, -⟩
  · exact (hnone (by simp [hx]) (by simp [hx])).elim
  · exact (hnone (by simp [hx]) (by simp [hx])).elim
  · have hinterface := isInterface_of_mem hp.interfaces he
    have hname := elementName?_of_mem_signalRows hartifact hr
    obtain ⟨first, named, hfirst, hnamed, hheader⟩ := hp.headerNames hinterface hartifact hname
    refine ⟨e, first, named, hinterface, hartifact, hfirst, hname, hnamed, hheader, ?_⟩
    rintro rfl
    rw [hname] at hnamed
    exact Option.some.inj hnamed ▸ hheader
  · exact (hnone (by simp [hx]) (by simp [hx])).elim
  · exact (hnone (by simp [hx]) (by simp [hx])).elim

/-- The rows of a lamp and of a door, each of the only protocol of its Datapool. -/
theorem rows_name_elements_lift : ∃ as, (lift.plan 0 (.new "out")).result = .ok as ∧
    (∃ q ∈ as, .noted (Literal.hexWord 0) "Switch_Lamp" ∈ q.signalRows .tx ∧
      ∃ e, lift.HeaderNames as e .tx "Switch_Lamp" 0) ∧
    ∃ q ∈ as, .noted (Literal.hexWord 0xE00) "Left_Left" ∈ q.signalRows .rx ∧
      ∃ e, lift.HeaderNames as e .rx "Left_Left" 0 := by
  obtain ⟨as, has, ⟨q, hq, r, hr, rfl⟩, q', hq', r', hr', rfl⟩ := exists_eq_ok_of_any
    (x := (lift.plan 0 (.new "out")).result)
    (p := fun as => (∃ q ∈ as, ∃ r ∈ q.signalRows .tx, r = .noted (Literal.hexWord 0) "Switch_Lamp") ∧
      ∃ q ∈ as, ∃ r ∈ q.signalRows .rx, r = .noted (Literal.hexWord 0xE00) "Left_Left") (by decide +kernel)
  have hfirst : ∀ p ∈ lift.protocols, lift.protocolOf? p.datapoolIndex.toNat = some p := by decide
  obtain ⟨e, first, -, he, -, hprotocol, -, -, -, hsame⟩ := rows_name_elements rfl rfl has hq hr
  obtain ⟨e', first', -, he', -, hprotocol', -, -, -, hsame'⟩ := rows_name_elements rfl rfl has hq' hr'
  rw [hfirst _ he.protocol] at hprotocol
  rw [hfirst _ he'.protocol] at hprotocol'
  exact ⟨as, has, ⟨q, hq, hr, e, hsame (Option.some.inj hprotocol).symm⟩,
    q', hq', hr', e', hsame' (Option.some.inj hprotocol').symm⟩

/-- The signals of two buses. -/
def helm : Datapool := { Datapool.new "Helm" .com (some 0) with
  lists := [
    { ElementList.new "Tx1" with elements := [.scalar "Raw" (.u8 0) (.u8 0) (.u8 1)] },
    ElementList.new "Rx1",
    { ElementList.new "Tx2" with elements := [.scalar "Raw" (.u8 0) (.u8 0) (.u8 1)] },
    ElementList.new "Rx2"] }

/-- A ferry whose Datapool has a protocol on each bus. -/
def ferry : Node := { Node.empty with
  name := "Ferry"
  applications := [⟨"Bridge", "", .programmable, 6, 0, true⟩]
  datapools := [helm]
  protocols := [
    ⟨.layer2, 0, [⟨true, [{ Message.new "Lamp" 0x100 1 .onChange with signals := [Signal.new 0 0 1] }], []⟩]⟩,
    ⟨.j1939, 0, [⟨true, [], []⟩,
      ⟨true, [{ Message.new "Horn" 0x200 1 .onChange with signals := [Signal.new 0 0 1] }], []⟩]⟩]
  interfaces := [⟨.can, 0, 1, false, false, 125⟩, ⟨.can, 1, 1, false, false, 125⟩] }

/-- **A row that names no element.** The horn has its row under a name that no header of the plan defines, since the
Datapool is named after the messages of the other protocol only. -/
theorem misnamed_ferry : ∃ as, (ferry.plan 0 (.new "out")).result = .ok as ∧
    (∃ q ∈ as, ∃ r ∈ q.signalRows .tx, r = .noted (Literal.hexWord 0) "Horn_Raw") ∧
    ∀ f ∈ as, f.pair.header.meanings "HELM_TX2_INDEX_HORN_RAW" = [] :=
  exists_eq_ok_of_any (by decide +kernel)

end Node

end BusNode
