import BusNode.Code.File
import Mathlib.Data.List.Nodup
/-!
# Objects of a file and the references to them

* `File.objects` — what a file declares or defines; `File.Shows` — a file has a table with its rows;
* `Slice` — so many items of an array from a pointer on; `File.Resolves` — it lies within an array of the file;
* `Tiles` — slices that are, one after the other, all items of an array; `Tiles.disjoint` and `Tiles.resolves` are
  what follows for each slice.
-/

namespace BusNode

/-! ## Objects -/

/-- The object that an item declares, with an initializer or without. -/
def Item.object? : Item → Option Object
  | .declare o _ | .object o _ _ | .inlineObject o _ _ | .listing o _ => some o
  | _ => none

namespace File

def objects (f : File) : List Object := f.items.filterMap Item.object?

theorem mem_objects {f : File} {i : Item} {o : Object} (hi : i ∈ f.items) (ho : i.object? = some o) : o ∈ f.objects :=
  List.mem_filterMap.2 ⟨i, hi, ho⟩

/-- The file has an array of the name and the length. -/
def HasArray (f : File) (array : String) (n : Nat) : Prop :=
  ∃ o ∈ f.objects, o.name = array ∧ o.length = some (.number n)

/-- The table stands in the file, unless it has no rows. -/
def Shows (f : File) (type name : String) (rows : List Row) : Prop :=
  rows ≠ [] → Item.object (.table type name rows.length) rows none ∈ f.items

theorem Shows.hasArray {f : File} {type name : String} {rows : List Row} (h : f.Shows type name rows)
    (hrows : rows.length ≠ 0) : f.HasArray name rows.length :=
  ⟨_, mem_objects (h (List.length_pos_iff.1 (Nat.pos_of_ne_zero hrows))) rfl, rfl, rfl⟩

end File

/-! ## Slices -/

/-- So many items from an address on. -/
structure Slice where
  count : Nat
  first : Pointer
  deriving DecidableEq, Repr

namespace Slice

/-- The items of a slice. -/
def items (s : Slice) : List Place :=
  match s.first with
  | some ⟨array, members, some i⟩ => (List.range' i s.count).map fun k => ⟨array, members, some k⟩
  | _ => []

theorem items_slice (array : String) (first count : Nat) :
    (⟨count, .slice array first count⟩ : Slice).items = (List.range' first count).map (Place.item array) := by
  unfold Pointer.slice
  split
  · rename_i h
    rw [h]
    rfl
  · rfl

end Slice

theorem Pointer.slice_eq_none {array : String} {first count : Nat} :
    Pointer.slice array first count = none ↔ count = 0 := by
  unfold Pointer.slice
  split <;> simp [*]

theorem Pointer.slice_eq_some {array : String} {first count : Nat} {p : Place}
    (h : Pointer.slice array first count = some p) : p = .item array first := by
  unfold Pointer.slice at h
  split at h
  · cases h
  · exact (Option.some.inj h).symm

/-- The slice is `NULL` just if it is empty, and else lies within an array of the file. -/
def File.Resolves (f : File) (s : Slice) : Prop :=
  (s.first = none ↔ s.count = 0) ∧
    ∀ p, s.first = some p → ∃ array i n, p = .item array i ∧ f.HasArray array n ∧ i + s.count ≤ n

theorem File.resolves_whole {f : File} {array : String} {n : Nat} (hf : n ≠ 0 → f.HasArray array n) :
    f.Resolves ⟨n, .slice array 0 n⟩ := by
  refine ⟨Pointer.slice_eq_none, fun p hp => ?_⟩
  have hn : n ≠ 0 := fun h0 => by
    rw [Pointer.slice_eq_none.2 h0] at hp
    cases hp
  exact ⟨array, 0, n, Pointer.slice_eq_some hp, hf hn, Nat.le_of_eq (Nat.zero_add n)⟩

/-! ## Tilings -/

/-- Slices of an array of `n` items that are, one after the other, all of its items. -/
structure Tiles (array : String) (n : Nat) (slices : List Slice) : Prop where
  items : slices.flatMap Slice.items = (List.range n).map (Place.item array)
  pointer : ∀ s ∈ slices, ∃ first, s.first = .slice array first s.count

namespace Tiles

variable {array : String} {n : Nat} {slices : List Slice}

theorem nil (array : String) : Tiles array 0 [] := ⟨rfl, fun _ hs => nomatch hs⟩

/-- A further slice starts where the array ended before. -/
theorem snoc (h : Tiles array n slices) (count : Nat) :
    Tiles array (n + count) (slices ++ [⟨count, .slice array n count⟩]) := by
  refine ⟨?_, fun s hs => ?_⟩
  · have hrange : List.range (n + count) = List.range n ++ List.range' n count := by
      have := @List.range'_append_1 0 n count
      rw [Nat.zero_add] at this
      rw [List.range_eq_range', List.range_eq_range', this]
    rw [List.flatMap_append, h.items, List.flatMap_singleton, Slice.items_slice, ← List.map_append, hrange]
  · rcases List.mem_append.1 hs with hs | hs
    · exact h.pointer s hs
    · obtain rfl := List.mem_singleton.1 hs
      exact ⟨n, rfl⟩

/-- Different slices share no item. -/
theorem disjoint (h : Tiles array n slices) : slices.Pairwise fun s t => s.items.Disjoint t.items := by
  have hnodup : (slices.flatMap Slice.items).Nodup := by
    rw [h.items]
    exact List.nodup_range.map fun i j e => by simpa [Place.item] using e
  exact (List.nodup_flatMap.1 hnodup).2

/-- A slice that is not empty ends where the array does, or before. -/
theorem bounds (h : Tiles array n slices) {first count : Nat} (hs : ⟨count, .slice array first count⟩ ∈ slices)
    (hcount : count ≠ 0) : first + count ≤ n := by
  have hlast : Place.item array (first + count - 1) ∈ slices.flatMap Slice.items := by
    refine List.mem_flatMap.2 ⟨_, hs, ?_⟩
    rw [Slice.items_slice]
    exact List.mem_map.2 ⟨_, List.mem_range'_1.2 (by omega), rfl⟩
  rw [h.items] at hlast
  obtain ⟨k, hk, e⟩ := List.mem_map.1 hlast
  have hk := List.mem_range.1 hk
  have e : k = first + count - 1 := by simpa [Place.item] using e
  omega

/-- Every slice of a tiled array of a file resolves there. -/
theorem resolves (h : Tiles array n slices) {f : File} (hf : n ≠ 0 → f.HasArray array n) {s : Slice}
    (hs : s ∈ slices) : f.Resolves s := by
  obtain ⟨first, e⟩ := h.pointer s hs
  have hmem : ⟨s.count, .slice array first s.count⟩ ∈ slices := e ▸ hs
  rw [File.Resolves, e]
  refine ⟨Pointer.slice_eq_none, fun p hp => ?_⟩
  have hcount : s.count ≠ 0 := fun h0 => by
    rw [Pointer.slice_eq_none.2 h0] at hp
    cases hp
  have hle := h.bounds hmem hcount
  exact ⟨array, first, n, Pointer.slice_eq_some hp, hf (by omega), hle⟩

end Tiles

end BusNode
