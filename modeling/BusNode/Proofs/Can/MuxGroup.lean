import BusNode.Can.MuxGroup
/-!
# Multiplex groups

* `MuxGroup.ofSignals_eq_nil` — just a message without signals has no groups;
* `MuxGroup.length_members` — every index of a group is one of a signal of the message.
-/

namespace BusNode.Can

/-- The signals of a group. -/
def MuxGroup.members (signals : List Signal) (g : MuxGroup) : List Signal := g.signals.filterMap (signals[·]?)

namespace MuxGroup

variable {signals : List Signal}

theorem lt_of_mem_withRole {role : MuxRole} {i : Nat} (h : i ∈ withRole role signals) : i < signals.length := by
  obtain ⟨⟨s, j⟩, hj, rfl⟩ := List.mem_map.1 h
  exact (List.mem_zipIdx' (List.mem_filter.1 hj).1).1

theorem ofSignals_eq_nil : ofSignals signals = [] ↔ signals = [] := by
  unfold ofSignals
  split
  · rename_i h
    exact iff_of_true rfl (List.isEmpty_iff.1 h)
  · rename_i h
    refine iff_of_false ?_ (fun h' => h (List.isEmpty_iff.2 h'))
    split
    · exact List.cons_ne_nil _ _
    · split <;> simp_all

theorem lt_of_mem_ofSignals {g : MuxGroup} (hg : g ∈ ofSignals signals) {i : Nat} (hi : i ∈ g.signals) :
    i < signals.length := by
  unfold ofSignals at hg
  split at hg
  · cases hg
  · split at hg
    · obtain rfl := List.mem_singleton.1 hg
      exact List.mem_range.1 hi
    · rename_i m hm
      obtain ⟨v, -, rfl⟩ := List.mem_map.1 hg
      rcases List.mem_cons.1 hi with rfl | hi
      · exact (List.findIdx?_eq_some_iff_findIdx_eq.1 hm).1
      · exact (List.mem_append.1 hi).elim lt_of_mem_withRole lt_of_mem_withRole

theorem length_members {g : MuxGroup} (hg : g ∈ ofSignals signals) :
    (g.members signals).length = g.signals.length := by
  refine List.filterMap_length_eq_length.2 fun i hi => ?_
  rw [List.getElem?_eq_getElem (lt_of_mem_ofSignals hg hi)]
  rfl

end MuxGroup

/-- A multiplexed message has groups. -/
theorem Message.ofSignals_ne_nil {m : Message} (h : m.isMultiplexed = true) : MuxGroup.ofSignals m.signals ≠ [] := by
  intro h0
  rw [isMultiplexed, multiplexer?, MuxGroup.ofSignals_eq_nil.1 h0] at h
  cases h

end BusNode.Can
