import BusNode.Proofs.Can.Rename
import BusNode.Proofs.Node.Plan
/-!
# What an application sees

* `Node.link` — how an application reaches a Datapool whose owner is there;
* `Node.visibleDatapools_eq_ok` — the Datapools that an application sees are those with elements and a linkage, if all
  their owners are there;
* `Node.pairwise_linked` — they come by ascending index, so the place of a Datapool is found by its index
  (`Node.getElem?_of_findIdx?`, `Node.place_unique`).
-/

namespace BusNode

namespace Node

variable {n : Node} {i version : Nat} {d : Datapool} {v : VisibleDatapool}

theorem namedDatapool_eq (n : Node) (v : VisibleDatapool) : ∃ lists, n.namedDatapool v = { v.datapool with lists } := by
  unfold namedDatapool
  split
  · split
    · rename_i p _
      exact v.datapool.renameSignals_eq p
    · exact ⟨v.datapool.lists, rfl⟩
  · exact ⟨v.datapool.lists, rfl⟩

theorem namedDatapool_name (n : Node) (v : VisibleDatapool) : (n.namedDatapool v).name = v.datapool.name := by
  obtain ⟨lists, h⟩ := n.namedDatapool_eq v
  rw [h]

theorem namedDatapool_kind (n : Node) (v : VisibleDatapool) : (n.namedDatapool v).kind = v.datapool.kind := by
  obtain ⟨lists, h⟩ := n.namedDatapool_eq v
  rw [h]

/-- Only Datapools of signals are renamed. -/
theorem namedDatapool_of_ne_com (h : v.datapool.kind ≠ .com) : n.namedDatapool v = v.datapool := if_neg h

/-! ## Linkage -/

theorem applicationAt_eq_ok {a : Application} : n.applicationAt i = .ok a ↔ n.applications[i]? = some a := by
  unfold applicationAt application
  rw [mapError_eq_ok]
  cases n.applications[i]? <;> simp

theorem datapoolAt_eq_ok : n.datapoolAt i = .ok d ↔ n.datapools[i]? = some d := by
  unfold datapoolAt datapool
  rw [mapError_eq_ok]
  cases n.datapools[i]? <;> simp

/-- The owner of a Datapool, if it has one, is an application of the node. -/
def HasOwnerOf (n : Node) (d : Datapool) : Prop := ∀ owner ∈ d.owner, owner.toNat < n.applications.length

/-- How an application reaches a Datapool whose owner is there, if it does. -/
def link (n : Node) (i version : Nat) (d : Datapool) : Option Linkage :=
  d.owner.bind fun owner =>
    if owner.toNat = i then some .own
    else if !d.isPrivate && 4 ≤ version then some .remotePublic
    else if n.isHost i then some .remote
    else none

theorem linkage?_eq_ok {l : Option Linkage} :
    n.linkage? i version d = .ok l ↔ n.HasOwnerOf d ∧ n.link i version d = l := by
  unfold linkage? HasOwnerOf link
  cases howner : d.owner with
  | none => simp
  | some owner =>
    simp only [bind_eq_ok, pure_eq_ok, applicationAt_eq_ok, Option.mem_some_iff, forall_eq', Option.bind_some]
    constructor
    · rintro ⟨a, ha, rfl⟩
      exact ⟨(List.getElem?_eq_some_iff.1 ha).1, rfl⟩
    · rintro ⟨hlt, rfl⟩
      exact ⟨_, List.getElem?_eq_getElem hlt, rfl⟩

theorem link_eq_own : n.link i version d = some .own ↔ d.owner.map UInt64.toNat = some i := by
  unfold link
  cases d.owner with
  | none => simp
  | some owner =>
    by_cases h : owner.toNat = i
    · simp [h]
    · rw [Option.bind_some, if_neg h, Option.map_some, Option.some.injEq]
      refine iff_of_false ?_ h
      split
      · simp
      · split <;> simp

/-! ## Visible Datapools -/

/-- What an application sees of a Datapool of an index, be it empty or not. -/
def seen? (n : Node) (i version : Nat) (e : Datapool × Nat) : Option VisibleDatapool :=
  (n.link i version e.1).map fun l => ⟨e.2, e.1, l⟩

/-- The Datapools with elements, with their indices. -/
def filled (n : Node) : List (Datapool × Nat) := n.datapools.zipIdx.filter fun e => !e.1.isEmpty

/-- The Datapools that an application sees, if all owners are there. -/
def linked (n : Node) (i version : Nat) : List VisibleDatapool := n.filled.filterMap (n.seen? i version)

theorem mem_filled {e : Datapool × Nat} : e ∈ n.filled ↔ n.datapools[e.2]? = some e.1 ∧ e.1.isEmpty = false := by
  obtain ⟨d, k⟩ := e
  unfold filled
  rw [List.mem_filter, List.mk_mem_zipIdx_iff_getElem?]
  simp

theorem forall_filled_iff {p : Datapool → Prop} :
    (∀ e ∈ n.filled, p e.1) ↔ ∀ d ∈ n.datapools, d.isEmpty = false → p d := by
  constructor
  · intro h d hd hfilled
    obtain ⟨k, hk⟩ := List.getElem?_of_mem hd
    exact h (d, k) (mem_filled.2 ⟨hk, hfilled⟩)
  · intro h e he
    obtain ⟨hat, hfilled⟩ := mem_filled.1 he
    exact h e.1 (List.mem_of_getElem? hat) hfilled

theorem seen?_eq_some {e : Datapool × Nat} : n.seen? i version e = some v ↔
    e = (v.datapool, v.index) ∧ n.link i version v.datapool = some v.linkage := by
  obtain ⟨d, k⟩ := e
  obtain ⟨index, datapool, linkage⟩ := v
  simp only [seen?, Option.map_eq_some_iff, VisibleDatapool.mk.injEq, Prod.mk.injEq]
  constructor
  · rintro ⟨l, hl, rfl, rfl, rfl⟩
    exact ⟨⟨rfl, rfl⟩, hl⟩
  · rintro ⟨⟨rfl, rfl⟩, hl⟩
    exact ⟨linkage, hl, rfl, rfl, rfl⟩

/-- **What an application sees.** -/
theorem visibleDatapools_eq_ok {vs : List VisibleDatapool} : n.visibleDatapools i version = .ok vs ↔
    (∀ d ∈ n.datapools, d.isEmpty = false → n.HasOwnerOf d) ∧ n.linked i version = vs := by
  have hstep (e : Datapool × Nat) (r : Option VisibleDatapool) :
      (do return (← n.linkage? i version e.1).map fun l => (⟨e.2, e.1, l⟩ : VisibleDatapool)) = .ok r ↔
        n.HasOwnerOf e.1 ∧ n.seen? i version e = r := by
    simp only [bind_eq_ok, pure_eq_ok, linkage?_eq_ok, seen?]
    constructor
    · rintro ⟨-, ⟨he, rfl⟩, rfl⟩
      exact ⟨he, rfl⟩
    · rintro ⟨he, rfl⟩
      exact ⟨_, ⟨he, rfl⟩, rfl⟩
  have hmapM (r : List (Option VisibleDatapool)) :
      n.filled.mapM (fun e => do
        return (← n.linkage? i version e.1).map fun l => (⟨e.2, e.1, l⟩ : VisibleDatapool)) = .ok r ↔
        (∀ e ∈ n.filled, n.HasOwnerOf e.1) ∧ n.filled.map (n.seen? i version) = r := by
    rw [mapM_eq_ok]
    simp only [hstep]
    rw [List.forall₂_and_left, ← List.forall₂_eq_eq_eq, List.forall₂_map_left_iff]
  have hlinked : (n.filled.map (n.seen? i version)).filterMap id = n.linked i version := by
    rw [List.filterMap_map]
    rfl
  rw [← forall_filled_iff]
  show (n.filled.mapM _ >>= fun linked => pure (linked.filterMap id) : Except ExportError _) = .ok vs ↔ _
  rw [bind_eq_ok]
  simp only [hmapM, pure_eq_ok]
  constructor
  · rintro ⟨r, ⟨h, rfl⟩, rfl⟩
    exact ⟨h, hlinked.symm⟩
  · rintro ⟨h, rfl⟩
    exact ⟨_, ⟨h, rfl⟩, hlinked⟩

theorem mem_linked : v ∈ n.linked i version ↔ n.datapools[v.index]? = some v.datapool ∧
    v.datapool.isEmpty = false ∧ n.link i version v.datapool = some v.linkage := by
  unfold linked
  rw [List.mem_filterMap]
  constructor
  · rintro ⟨e, he, hv⟩
    obtain ⟨rfl, hlink⟩ := seen?_eq_some.1 hv
    obtain ⟨hat, hfilled⟩ := mem_filled.1 he
    exact ⟨hat, hfilled, hlink⟩
  · rintro ⟨hat, hfilled, hlink⟩
    exact ⟨_, mem_filled.2 ⟨hat, hfilled⟩, seen?_eq_some.2 ⟨rfl, hlink⟩⟩

theorem Parts.Of.mem_visible {a : Application} {o : ExportOptions} {p : Parts} (h : p.Of n i a o) :
    v ∈ p.visible ↔ n.datapools[v.index]? = some v.datapool ∧ v.datapool.isEmpty = false ∧
      n.link i a.formatVersion.toNat v.datapool = some v.linkage := by
  rw [← (visibleDatapools_eq_ok.1 h.visible).2, mem_linked]

/-- Visible Datapools come in the order of the node. -/
theorem pairwise_linked (n : Node) (i version : Nat) :
    (n.linked i version).Pairwise fun v w => v.index < w.index := by
  have hzip : n.datapools.zipIdx.Pairwise fun e f => e.2 < f.2 := by
    have hrange : (n.datapools.zipIdx.map Prod.snd).Pairwise (· < ·) := by
      rw [List.zipIdx_map_snd]
      exact List.pairwise_lt_range'
    exact List.pairwise_map.1 hrange
  refine List.pairwise_filterMap.2 ((hzip.filter _).imp fun {e f} hlt v hv w hw => ?_)
  obtain ⟨rfl, -⟩ := seen?_eq_some.1 hv
  obtain ⟨rfl, -⟩ := seen?_eq_some.1 hw
  exact hlt

/-- A Datapool has one place. -/
theorem place_unique {w : VisibleDatapool} {j k : Nat} (hv : (n.linked i version)[j]? = some v)
    (hw : (n.linked i version)[k]? = some w) (h : v.index = w.index) : j = k := by
  have hascending {j k : Nat} {v w : VisibleDatapool} (hv : (n.linked i version)[j]? = some v)
      (hw : (n.linked i version)[k]? = some w) (hlt : j < k) : v.index < w.index := by
    obtain ⟨hj, rfl⟩ := List.getElem?_eq_some_iff.1 hv
    obtain ⟨hk, rfl⟩ := List.getElem?_eq_some_iff.1 hw
    exact List.pairwise_iff_getElem.1 (n.pairwise_linked i version) j k hj hk hlt
  rcases Nat.lt_trichotomy j k with hlt | rfl | hlt
  · have := hascending hv hw hlt
    omega
  · rfl
  · have := hascending hw hv hlt
    omega

/-- The place that is found for an index is one of that index. -/
theorem getElem?_of_findIdx? {vs : List VisibleDatapool} {index place : Nat}
    (h : vs.findIdx? (·.index = index) = some place) : ∃ v, vs[place]? = some v ∧ v.index = index := by
  obtain ⟨hlt, hindex, -⟩ := List.findIdx?_eq_some_iff_getElem.1 h
  exact ⟨_, List.getElem?_eq_getElem hlt, by simpa using hindex⟩

end Node

end BusNode
