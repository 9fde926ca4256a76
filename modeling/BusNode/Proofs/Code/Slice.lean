import BusNode.Proofs.Code.Declared
import BusNode.Proofs.Success
/-!
# Reading slices

* `Slice.read` — the rows of an array that a slice points to;
* `Tiles.map_read` — slices that tile an array of several parts, each of the length of its part, read the parts;
* `Tiles.forall₂_read` — so if the rows of an array are related to items in groups, each slice reads the rows of its
  group.
-/

namespace BusNode

variable {α β γ : Type}

/-- What is related to items in groups is itself in groups. -/
theorem forall₂_flatMap {R : β → α → Prop} {f : γ → List β} {groups : List γ} {rows : List α}
    (h : List.Forall₂ R (groups.flatMap f) rows) :
    ∃ parts, rows = parts.flatten ∧ List.Forall₂ (fun g part => List.Forall₂ R (f g) part) groups parts := by
  induction groups generalizing rows with
  | nil =>
    obtain rfl := List.forall₂_nil_left_iff.1 h
    exact ⟨[], rfl, .nil⟩
  | cons g groups ih =>
    rw [List.flatMap_cons] at h
    obtain ⟨parts, hparts, hrest⟩ := ih (List.forall₂_drop_append rows _ _ h.flip).flip
    exact ⟨rows.take (f g).length :: parts, by rw [List.flatten_cons, ← hparts, List.take_append_drop],
      .cons (List.forall₂_take_append rows _ _ h.flip).flip hrest⟩

/-- The rows of an array that a slice of it points to. -/
def Slice.read (s : Slice) (rows : List α) : List α := s.items.filterMap fun p => p.index.bind (rows[·]?)

namespace Tiles

variable {array : String} {rows : List α} {slices : List Slice}

theorem length_read (h : Tiles array rows.length slices) {s : Slice} (hs : s ∈ slices) :
    (s.read rows).length = s.count := by
  obtain ⟨first, hfirst⟩ := h.pointer s hs
  have hs' : (⟨s.count, .slice array first s.count⟩ : Slice) = s := by rw [← hfirst]
  have hitems : s.items = (List.range' first s.count).map (Place.item array) := by
    rw [← Slice.items_slice, hs']
  have hin : ∀ p ∈ s.items, (p.index.bind (rows[·]?)).isSome := by
    intro p hp
    rw [hitems] at hp
    obtain ⟨i, hi, rfl⟩ := List.mem_map.1 hp
    have hi := List.mem_range'_1.1 hi
    have hle := h.bounds (hs'.symm ▸ hs) (show s.count ≠ 0 by omega)
    show rows[i]?.isSome
    rw [List.getElem?_eq_getElem (by omega)]
    rfl
  rw [Slice.read, List.filterMap_length_eq_length.2 hin, hitems, List.length_map, List.length_range']

/-- One after the other, the slices read the whole array. -/
theorem flatten_read (h : Tiles array rows.length slices) : (slices.map (·.read rows)).flatten = rows := by
  have hrange : (List.range rows.length).filterMap (rows[·]?) = rows := by
    have hmap : (List.range rows.length).map (rows[·]?) = rows.map some := by
      refine List.ext_getElem (by simp) fun k hk hk' => ?_
      simp
    have hid : (List.range rows.length).filterMap (rows[·]?) =
        ((List.range rows.length).map (rows[·]?)).filterMap id := by
      rw [List.filterMap_map]
      rfl
    rw [hid, hmap, List.filterMap_map]
    exact List.filterMap_some
  rw [← List.flatMap_def]
  unfold Slice.read
  rw [← List.filterMap_flatMap, h.items, List.filterMap_map]
  exact hrange

theorem map_read {parts : List (List α)} (h : Tiles array parts.flatten.length slices)
    (hcount : slices.map (·.count) = parts.map List.length) : slices.map (·.read parts.flatten) = parts := by
  refine List.eq_iff_flatten_eq.2 ⟨h.flatten_read, ?_⟩
  rw [List.map_map, ← hcount]
  exact List.map_congr_left fun s hs => h.length_read hs

/-- Each slice reads the rows of its group. -/
theorem forall₂_read {R : β → α → Prop} {f : γ → List β} {groups : List γ} (h : Tiles array rows.length slices)
    (hcount : slices.map (·.count) = groups.map fun g => (f g).length)
    (hrows : List.Forall₂ R (groups.flatMap f) rows) :
    List.Forall₂ (fun g s => List.Forall₂ R (f g) (s.read rows)) groups slices := by
  obtain ⟨parts, rfl, hparts⟩ := forall₂_flatMap hrows
  have hlength : slices.map (·.count) = parts.map List.length :=
    hcount.trans (map_eq_of_forall₂ hparts fun _ _ h => h.length_eq)
  rw [← List.forall₂_map_right_iff, h.map_read hlength]
  exact hparts

end Tiles

end BusNode
