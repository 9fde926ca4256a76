import BusNode.Proofs.Disk.Path
import BusNode.Proofs.Node.Link
import BusNode.Proofs.Node.Stem
/-!
# The stems of a plan

The files of an application are named after what they are generated of. Nothing compares these names, so two artifacts
may have one.

* `Source.HasStem.plain` — a stem is one component of a path if the names of Datapools are;
* `Node.Separates` — what has to differ: the names of the visible Datapools without regard to case, and the kinds and
  interfaces of protocols;
* `Node.nodup_stems_iff` — no two artifacts of a plan have one stem just if they do;
* `Node.plain_of_mem_plan` — and no stem leads elsewhere if no name of a Datapool does.
-/

namespace BusNode

open Can CanOpen

/-! ## Separators -/

theorem toLower_eq_separator {c : Char} (h : c.toLower = '/') : c = '/' := by
  unfold Char.toLower at h
  split at h
  · rename_i hupper
    have hA : 65 ≤ c.toNat := UInt32.le_iff_toNat_le.1 hupper.1
    have hZ : c.toNat ≤ 90 := UInt32.le_iff_toNat_le.1 hupper.2
    have hval : c.toNat + 32 = 47 := by
      have h := congrArg (fun c : Char => c.val.toNat) h
      dsimp only at h
      rw [UInt32.toNat_add, Nat.mod_eq_of_lt] at h
      · exact h
      · show c.val.toNat + 32 < 2 ^ 32
        have : c.val.toNat = c.toNat := rfl
        omega
    omega
  · exact h

theorem separator_notMem_lower {s : String} (h : '/' ∉ s.toList) : '/' ∉ (lower s).toList := by
  unfold lower
  rw [String.toList_map, List.mem_map]
  rintro ⟨c, hc, hlower⟩
  exact h (toLower_eq_separator hlower ▸ hc)

theorem separator_notMem_append {s t : String} (hs : '/' ∉ s.toList) (ht : '/' ∉ t.toList) : '/' ∉ (s ++ t).toList := by
  rw [String.toList_append, List.mem_append, not_or]
  exact ⟨hs, ht⟩

theorem separator_notMem_busName (interface : UInt8) : '/' ∉ (lower (busName interface)).toList := by
  rw [toList_lower_busName, List.mem_append, not_or]
  refine ⟨by decide, fun hdigit => ?_⟩
  have := isDigit_toDigits _ _ hdigit
  revert this
  decide

/-- Only the name of a Datapool can lead elsewhere. -/
theorem Source.HasStem.plain {s : Source} {stem : String} (h : s.HasStem stem)
    (hname : ∀ x, s = .datapool x → '/' ∉ x.datapool.name.toList) : '/' ∉ stem.toList := by
  cases s with
  | start x =>
    obtain rfl := h
    decide
  | datapool x =>
    obtain rfl := h
    exact separator_notMem_append (separator_notMem_lower (hname x rfl)) (by decide)
  | comm x =>
    obtain ⟨stack, hstack, h⟩ := bind_eq_ok.1 h
    obtain rfl := pure_eq_ok.1 h
    have hsymbol : '/' ∉ stack.symbol.toList := by
      cases hkind : x.protocol <;> rw [hkind] at hstack <;> cases hstack <;> decide
    refine separator_notMem_append (separator_notMem_append (separator_notMem_append ?_ hsymbol) ?_)
      (separator_notMem_busName x.interface)
    · decide
    · decide
  | manager x =>
    obtain rfl := h
    exact separator_notMem_append (s := "canopen_mgr_") (by decide) (separator_notMem_busName x.interface)
  | aggregate x =>
    obtain rfl := h
    decide
  | halc x =>
    obtain rfl := h
    unfold HalcCode.stem
    cases x.variant <;> decide

/-! ## Stems of a kind -/

theorem busName_injective {i j : UInt8} (h : lower (busName i) = lower (busName j)) : i = j := by
  have h := congrArg String.toList h
  rw [toList_lower_busName, toList_lower_busName, List.append_cancel_left_eq] at h
  have := toDigits_injective h
  exact UInt8.toNat_inj.1 (by omega)

theorem Datapool.stem_eq_iff {d e : Datapool} : d.stem = e.stem ↔ lower d.name = lower e.name := by
  unfold stem
  exact String.append_left_inj _

theorem ManagerCode.stemOf_injective {i j : UInt8} (h : stemOf i = stemOf j) : i = j :=
  busName_injective ((String.append_right_inj "canopen_mgr_").1 h)

theorem Halc.Variant.stem_injective {v w : Halc.Variant} (h : v.stem = w.stem) : v = w := by
  revert h
  cases v <;> cases w <;> decide

/-- The symbols of two protocols differ before they end. -/
theorem Can.ProtocolKind.eq_of_symbol {k l : ProtocolKind} {s t : Stack} (hs : k.stack = .ok s) (ht : l.stack = .ok t)
    {u w : List Char} (h : s.symbol.toList ++ '_' :: u = t.symbol.toList ++ '_' :: w) : k = l := by
  cases k <;> cases hs <;> cases l <;> cases ht <;> first | rfl | simp at h

theorem Can.ProtocolKind.stem_injective {k l : ProtocolKind} {i j : UInt8} {stem : String} (hk : k.stem i = .ok stem)
    (hl : l.stem j = .ok stem) : k = l ∧ i = j := by
  obtain ⟨s, hs, hk⟩ := bind_eq_ok.1 hk
  obtain ⟨t, ht, hl⟩ := bind_eq_ok.1 hl
  have hstem : "comm_" ++ s.symbol ++ "_" ++ lower (busName i) = "comm_" ++ t.symbol ++ "_" ++ lower (busName j) :=
    (pure_eq_ok.1 hk).trans (pure_eq_ok.1 hl).symm
  have hlist : s.symbol.toList ++ '_' :: (lower (busName i)).toList =
      t.symbol.toList ++ '_' :: (lower (busName j)).toList := by
    have h := congrArg String.toList hstem
    simp only [String.toList_append, List.append_assoc, List.append_cancel_left_eq] at h
    exact h
  obtain rfl := eq_of_symbol hs ht hlist
  obtain rfl := Except.ok.inj (hs.symm.trans ht)
  exact ⟨rfl, busName_injective ((String.append_right_inj _).1 hstem)⟩

/-! ## Kinds of artifacts -/

/-- The artifacts are generated, and of these kinds. -/
def AllOf (ks : List ArtifactKind) (as : List Artifact) : Prop := ∀ x ∈ as, x.IsGenerated ∧ x.source.kind ∈ ks

namespace AllOf

variable {ks ls : List ArtifactKind} {as bs : List Artifact}

theorem append (has : AllOf ks as) (hbs : AllOf ls bs) : AllOf (ks ++ ls) (as ++ bs) := by
  intro x hx
  rcases List.mem_append.1 hx with hx | hx
  · exact ⟨(has x hx).1, List.mem_append_left _ (has x hx).2⟩
  · exact ⟨(hbs x hx).1, List.mem_append_right _ (hbs x hx).2⟩

/-- Artifacts of different kinds do not get in the way of each other. -/
theorem nodup_stems_append (has : AllOf ks as) (hbs : AllOf ls bs) (hkinds : ∀ k ∈ ks, k ∉ ls) :
    ((as ++ bs).map (·.pair.stem)).Nodup ↔ (as.map (·.pair.stem)).Nodup ∧ (bs.map (·.pair.stem)).Nodup := by
  have hdisjoint : List.Disjoint (as.map (·.pair.stem)) (bs.map (·.pair.stem)) := by
    intro stem hstem hstem'
    obtain ⟨x, hx, rfl⟩ := List.mem_map.1 hstem
    obtain ⟨y, hy, hsame⟩ := List.mem_map.1 hstem'
    have hkind := Artifact.kind_eq_of_stem (has x hx).1 (hbs y hy).1 hsame.symm
    exact hkinds _ (has x hx).2 (hkind ▸ (hbs y hy).2)
  rw [List.map_append, List.nodup_append', and_iff_left hdisjoint]

end AllOf

/-! ## Plans -/

namespace Node

variable {n : Node} {application : Nat} {a : Application} {o : ExportOptions} {as : List Artifact}

/-- The names that files are named after differ: those of the Datapools that the application sees without regard to
case, and for its protocols the kind or the interface. -/
structure Separates (n : Node) (application : Nat) (a : Application) : Prop where
  datapools : ∀ vs, n.visibleDatapools application a.formatVersion.toNat = .ok vs →
    (vs.map fun v => lower v.datapool.name).Nodup
  protocols : ∀ es, n.interfacesOf application = .ok es → (es.map fun e => (e.protocol.kind, e.interface)).Nodup

/-- What the pair of a Datapool is named after. -/
theorem stem_datapool {v : VisibleDatapool} {i : Nat} {c : DatapoolCode} {x : Artifact}
    (hc : n.datapoolCode a o v i = .ok c) (hx : (Artifact.datapool c).result = .ok x) :
    x.pair.stem = v.datapool.stem := by
  obtain ⟨hgenerated, hsource⟩ := Artifact.datapool_eq_ok hx
  have hstem := Artifact.hasStem hgenerated
  rw [hsource] at hstem
  rw [hstem, Datapool.stem_eq_iff, (datapoolCode_eq_ok hc).1, namedDatapool_name]

/-- What the pair of a protocol is named after. -/
theorem stem_protocolArtifact {e : ProtocolInterface} {x : Artifact} (h : (n.protocolArtifact a e).result = .ok x) :
    e.protocol.kind = .canOpen ∧ x.source.kind = .manager ∧ x.pair.stem = ManagerCode.stemOf e.interface ∨
      e.protocol.kind ≠ .canOpen ∧ x.source.kind = .comm ∧ e.protocol.kind.stem e.interface = .ok x.pair.stem := by
  obtain ⟨hgenerated, d, -, ⟨y, hkind, hy, hsource⟩ | ⟨y, hkind, hy, hsource⟩⟩ := protocolArtifact_eq_ok h
  · have hstem := Artifact.hasStem hgenerated
    rw [hsource] at hstem ⊢
    obtain ⟨version, -, hy⟩ := bind_eq_ok.1 hy
    obtain ⟨m, -, hy⟩ := bind_eq_ok.1 hy
    obtain rfl := pure_eq_ok.1 hy
    exact .inl ⟨hkind, rfl, hstem⟩
  · have hstem := Artifact.hasStem hgenerated
    rw [hsource] at hstem ⊢
    obtain ⟨version, -, hy⟩ := bind_eq_ok.1 hy
    obtain rfl := pure_eq_ok.1 hy
    exact .inr ⟨hkind, rfl, hstem⟩

/-- The pairs of two interfaces have one stem just if they are of one kind of protocol and of one bus. -/
theorem stem_protocolArtifact_eq_iff {e f : ProtocolInterface} {x y : Artifact}
    (hx : (n.protocolArtifact a e).result = .ok x) (hy : (n.protocolArtifact a f).result = .ok y) :
    (e.protocol.kind, e.interface) = (f.protocol.kind, f.interface) ↔ x.pair.stem = y.pair.stem := by
  have hkinds := Artifact.kind_eq_of_stem (protocolArtifact_eq_ok hx).1 (protocolArtifact_eq_ok hy).1
  rw [Prod.mk.injEq]
  rcases stem_protocolArtifact hx with ⟨he, hxkind, hxstem⟩ | ⟨he, hxkind, hxstem⟩ <;>
    rcases stem_protocolArtifact hy with ⟨hf, hykind, hystem⟩ | ⟨hf, hykind, hystem⟩
  · rw [he, hf, hxstem, hystem]
    exact ⟨fun h => congrArg _ h.2, fun h => ⟨rfl, ManagerCode.stemOf_injective h⟩⟩
  · refine iff_of_false (fun h => hf (h.1 ▸ he)) fun h => ?_
    have := hkinds h
    rw [hxkind, hykind] at this
    cases this
  · refine iff_of_false (fun h => he (h.1 ▸ hf)) fun h => ?_
    have := hkinds h
    rw [hxkind, hykind] at this
    cases this
  · constructor
    · rintro ⟨hkind, hinterface⟩
      rw [hkind, hinterface] at hxstem
      exact Except.ok.inj (hxstem.symm.trans hystem)
    · intro h
      rw [h] at hxstem
      exact ProtocolKind.stem_injective hxstem hystem

/-- Hardware channels of one variant are not taken twice. -/
theorem nodup_stems_halcArtifacts {taken : List Halc.Variant} {ds : List Datapool}
    (h : (n.halcArtifacts a taken ds).result = .ok as) :
    (as.map (·.pair.stem)).Nodup ∧ ∀ v ∈ taken, v.stem ∉ as.map (·.pair.stem) := by
  induction ds generalizing taken as with
  | nil =>
    cases h
    exact ⟨.nil, fun v _ hv => nomatch hv⟩
  | cons d ds ih =>
    obtain ⟨x, p, rest, hx, hgenerated, hsource, hrest, rfl⟩ := halcArtifacts_cons_eq_ok h
    obtain ⟨hnodup, hfree⟩ := ih hrest
    have hstem : p.pair.stem = x.variant.stem := by
      have := Artifact.hasStem hgenerated
      rwa [hsource] at this
    rw [List.map_cons, hstem]
    refine ⟨List.nodup_cons.2 ⟨hfree _ (by simp), hnodup⟩, fun v hv => ?_⟩
    refine List.mem_cons.not.2 (not_or.2 ⟨fun hsame => ?_, ?_⟩)
    · exact (halcCode_eq_ok hx).2.2 (Halc.Variant.stem_injective hsame ▸ hv)
    · exact hfree v (List.mem_append_left _ hv)

/-- The kinds of the artifacts of an application that is compiled. -/
theorem Parts.Of.kinds {p : Parts} (h : p.Of n application a o) :
    AllOf [.start] [p.start] ∧ AllOf [.datapool] p.datapools ∧ AllOf [.manager, .comm] p.protocols ∧
      AllOf [.aggregate] p.aggregate ∧ AllOf [.halc] p.halc := by
  refine ⟨fun x hx => ?_, fun x hx => ?_, fun x hx => ?_, fun x hx => ?_, fun x hx => ?_⟩
  · obtain rfl := List.mem_singleton.1 hx
    obtain ⟨y, -, hy⟩ := h.start
    obtain ⟨hgenerated, hsource⟩ := Artifact.start_eq_ok hy
    exact ⟨hgenerated, by rw [hsource]; exact .head _⟩
  · obtain ⟨-, -, y, -, hy⟩ := exists_of_mem_right h.datapools hx
    obtain ⟨hgenerated, hsource⟩ := Artifact.datapool_eq_ok hy
    exact ⟨hgenerated, by rw [hsource]; exact .head _⟩
  · obtain ⟨e, -, he⟩ := exists_of_mem_right h.protocols hx
    refine ⟨(protocolArtifact_eq_ok he).1, ?_⟩
    rcases stem_protocolArtifact he with ⟨-, hkind, -⟩ | ⟨-, hkind, -⟩ <;> simp [hkind]
  · rcases h.aggregate with ⟨-, hnil⟩ | ⟨-, y, d, -, hy, hone⟩
    · rw [hnil] at hx
      cases hx
    · obtain rfl := List.mem_singleton.1 (hone ▸ hx)
      obtain ⟨hgenerated, hsource⟩ := Artifact.aggregate_eq_ok hy
      exact ⟨hgenerated, by rw [hsource]; exact .head _⟩
  · obtain ⟨hgenerated, d, -, y, -, hsource⟩ := mem_halcArtifacts h.halc hx
    exact ⟨hgenerated, by rw [hsource]; exact .head _⟩

theorem Parts.Of.nodup_stems_iff {p : Parts} (h : p.Of n application a o) :
    (p.artifacts.map (·.pair.stem)).Nodup ↔ n.Separates application a := by
  obtain ⟨hstart, hdatapools, hprotocols, haggregate, hhalc⟩ := h.kinds
  have hone : (p.aggregate.map (·.pair.stem)).Nodup := by
    rcases h.aggregate with ⟨-, hnil⟩ | ⟨-, y, d, -, -, hone⟩
    · rw [hnil]
      exact .nil
    · rw [hone]
      exact List.nodup_singleton _
  have hvisible : (p.visible.map fun v => lower v.datapool.name).Nodup ↔ (p.datapools.map (·.pair.stem)).Nodup := by
    rw [← List.zipIdx_map_fst 0 p.visible, List.map_map]
    refine nodup_map_iff_of_forall₂ h.datapools ?_
    rintro v w x y ⟨c, hc, hx⟩ ⟨c', hc', hy⟩
    rw [stem_datapool hc hx, stem_datapool hc' hy]
    exact Datapool.stem_eq_iff.symm
  have hinterfaces : (p.interfaces.map fun e => (e.protocol.kind, e.interface)).Nodup ↔
      (p.protocols.map (·.pair.stem)).Nodup :=
    nodup_map_iff_of_forall₂ h.protocols fun _ _ _ _ => stem_protocolArtifact_eq_iff
  -- Every part but two has all its stems apart, and no stem of a part is one of another part.
  have hnodup : (p.artifacts.map (·.pair.stem)).Nodup ↔
      (p.datapools.map (·.pair.stem)).Nodup ∧ (p.protocols.map (·.pair.stem)).Nodup := by
    have htables := hstart.append hdatapools
    have hbuses := htables.append hprotocols
    show (([p.start] ++ p.datapools ++ p.protocols ++ p.aggregate ++ p.halc).map (·.pair.stem)).Nodup ↔ _
    rw [(hbuses.append haggregate).nodup_stems_append hhalc (by decide),
      hbuses.nodup_stems_append haggregate (by decide), htables.nodup_stems_append hprotocols (by decide),
      hstart.nodup_stems_append hdatapools (by decide), and_iff_left (nodup_stems_halcArtifacts h.halc).1,
      and_iff_left hone, and_iff_right (show ([p.start].map (·.pair.stem)).Nodup from List.nodup_singleton _)]
  rw [hnodup, ← hvisible, ← hinterfaces]
  constructor
  · rintro ⟨hnames, hbuses⟩
    refine ⟨fun vs hvs => ?_, fun es hes => ?_⟩
    · rwa [Except.ok.inj (hvs.symm.trans h.visible)]
    · rwa [Except.ok.inj (hes.symm.trans h.interfaces)]
  · exact fun hseparates => ⟨hseparates.datapools _ h.visible, hseparates.protocols _ h.interfaces⟩

/-- **When no two artifacts of a plan have one stem.** -/
theorem nodup_stems_iff (ha : n.applicationAt application = .ok a) (h : (n.plan application o).result = .ok as) :
    (as.map (·.pair.stem)).Nodup ↔ (a.kind = .programmable → n.Separates application a) := by
  obtain ⟨a', ha', hplan⟩ := plan_eq_ok h
  obtain rfl : a = a' := Except.ok.inj (ha.symm.trans ha')
  rcases hplan with ⟨hkind, p, hp, rfl⟩ | ⟨hkind, hhalc⟩
  · rw [hp.nodup_stems_iff, hkind]
    exact ⟨fun hseparates _ => hseparates, fun hseparates => hseparates rfl⟩
  · rw [hkind]
    exact iff_of_true (nodup_stems_halcArtifacts hhalc).1 fun hne => nomatch hne

/-- Where the names of Datapools are components of paths, so are all stems. -/
theorem plain_of_mem_plan (hnames : ∀ d ∈ n.datapools, '/' ∉ d.name.toList) (h : (n.plan application o).result = .ok as)
    {x : Artifact} (hx : x ∈ as) : '/' ∉ x.pair.stem.toList := by
  refine (Artifact.hasStem (isGenerated_of_mem_plan h x hx)).plain fun c hsource => ?_
  obtain ⟨a, -, ⟨-, p, hp, rfl⟩ | ⟨-, hhalc⟩⟩ := plan_eq_ok h
  · obtain ⟨v, hv, hc⟩ := hp.visible_of_mem hx hsource
    rw [hc, namedDatapool_name]
    exact hnames _ (List.mem_of_getElem? (hp.mem_visible.1 hv).1)
  · obtain ⟨-, d, -, y, -, hy⟩ := mem_halcArtifacts hhalc hx
    rw [hy] at hsource
    cases hsource

end Node

end BusNode
