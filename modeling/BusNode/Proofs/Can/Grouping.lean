import BusNode.Proofs.Can.MuxGroup
import Mathlib.Data.List.Nodup
import Mathlib.Data.List.Sort
/-!
# Grouping by role

* `MuxGroup.Groups` — what the groups of the signals of a message are to be, said without the way they are found;
* `MuxGroup.groups_by_role` — they are that and nothing else: no signal is in a group twice, one that is always there is
  in every group, and one that depends on a value is in one group;
* `MuxGroup.exists_mem_ofSignals` — the signals that no group has are the multiplexers after the first.
-/

namespace BusNode.Can.MuxGroup

variable {signals : List Signal}

/-! ## Values -/

theorem mem_insertValue {v w : UInt16} {ws : List UInt16} : w ∈ insertValue v ws ↔ w = v ∨ w ∈ ws := by
  induction ws with
  | nil => exact List.mem_cons
  | cons u us ih =>
    unfold insertValue
    split
    · exact List.mem_cons
    · split
      · rename_i h
        subst h
        simp
      · rw [List.mem_cons, ih, List.mem_cons, or_left_comm]

theorem pairwise_insertValue {v : UInt16} {ws : List UInt16} (h : ws.Pairwise (· < ·)) :
    (insertValue v ws).Pairwise (· < ·) := by
  induction ws with
  | nil => exact List.pairwise_singleton _ v
  | cons u us ih =>
    obtain ⟨hu, hus⟩ := List.pairwise_cons.1 h
    unfold insertValue
    split
    · rename_i hlt
      refine List.pairwise_cons.2 ⟨fun w hw => ?_, h⟩
      rcases List.mem_cons.1 hw with rfl | hw
      · exact hlt
      · exact UInt16.lt_trans hlt (hu w hw)
    · split
      · exact h
      · rename_i hnot hne
        have hlt : u < v := UInt16.lt_of_le_of_ne (UInt16.not_lt.1 hnot) (Ne.symm hne)
        refine List.pairwise_cons.2 ⟨fun w hw => ?_, ih hus⟩
        rcases mem_insertValue.1 hw with rfl | hw
        · exact hlt
        · exact hu w hw

theorem pairwise_values : (values signals).Pairwise (· < ·) := by
  unfold values
  induction signals.filterMap fun s => dependsOn? s.mux with
  | nil => exact .nil
  | cons v vs ih => exact pairwise_insertValue ih

theorem dependsOn?_eq_some {role : MuxRole} {v : UInt16} : dependsOn? role = some v ↔ role = .multiplexed v := by
  cases role <;> simp [dependsOn?]

/-! ## Roles -/

/-- The signal of the index has the role. -/
def HasRole (signals : List Signal) (role : MuxRole) (i : Nat) : Prop := ∃ s, signals[i]? = some s ∧ s.mux = role

theorem HasRole.lt {role : MuxRole} {i : Nat} (h : HasRole signals role i) : i < signals.length := by
  obtain ⟨s, hs, -⟩ := h
  exact (List.getElem?_eq_some_iff.1 hs).1

/-- A signal has one role. -/
theorem HasRole.eq {role role' : MuxRole} {i : Nat} (h : HasRole signals role i) (h' : HasRole signals role' i) :
    role = role' := by
  obtain ⟨s, hs, rfl⟩ := h
  obtain ⟨s', hs', rfl⟩ := h'
  rw [Option.some.inj (hs.symm.trans hs')]

theorem mem_values {v : UInt16} : v ∈ values signals ↔ ∃ i, HasRole signals (.multiplexed v) i := by
  have hfold (vs : List UInt16) : v ∈ vs.foldr insertValue [] ↔ v ∈ vs := by
    induction vs with
    | nil => rfl
    | cons w vs ih => rw [List.foldr_cons, mem_insertValue, ih, List.mem_cons]
  unfold values HasRole
  rw [hfold, List.mem_filterMap]
  simp only [dependsOn?_eq_some]
  constructor
  · rintro ⟨s, hs, hrole⟩
    obtain ⟨i, hi⟩ := List.mem_iff_getElem?.1 hs
    exact ⟨i, s, hi, hrole⟩
  · rintro ⟨i, s, hi, hrole⟩
    exact ⟨s, List.mem_of_getElem? hi, hrole⟩

/-- The list has the numbers with the property, ascending. -/
def Enumerates (P : Nat → Prop) (is : List Nat) : Prop := is.Pairwise (· < ·) ∧ ∀ i, i ∈ is ↔ P i

theorem Enumerates.eq {P : Nat → Prop} {is js : List Nat} (h : Enumerates P is) (h' : Enumerates P js) : is = js :=
  h.1.eq_of_mem_iff h'.1 fun i => (h.2 i).trans (h'.2 i).symm

theorem enumerates_withRole (role : MuxRole) : Enumerates (HasRole signals role) (withRole role signals) := by
  constructor
  · have hrange : (signals.zipIdx.map (·.2)).Pairwise (· < ·) := by
      rw [List.zipIdx_map_snd]
      exact List.pairwise_lt_range'
    exact hrange.sublist (List.filter_sublist.map _)
  · intro i
    simp only [withRole, List.mem_map, List.mem_filter, decide_eq_true_eq, HasRole]
    constructor
    · rintro ⟨⟨s, j⟩, ⟨hs, hrole⟩, rfl⟩
      exact ⟨s, List.mem_zipIdx_iff_getElem?.1 hs, hrole⟩
    · rintro ⟨s, hs, hrole⟩
      exact ⟨(s, i), ⟨List.mem_zipIdx_iff_getElem?.2 hs, hrole⟩, rfl⟩

/-- The first multiplexer. -/
def IsSelector (signals : List Signal) (m : Nat) : Prop :=
  HasRole signals .multiplexer m ∧ ∀ i < m, ¬HasRole signals .multiplexer i

theorem findIdx?_eq_some {m : Nat} : signals.findIdx? (·.mux = .multiplexer) = some m ↔ IsSelector signals m := by
  rw [List.findIdx?_eq_some_iff_getElem]
  simp only [IsSelector, HasRole, decide_eq_true_eq]
  constructor
  · rintro ⟨hm, hrole, hbefore⟩
    refine ⟨⟨_, List.getElem?_eq_getElem hm, hrole⟩, ?_⟩
    rintro i hi ⟨s, hs, hs'⟩
    obtain ⟨hlt, rfl⟩ := List.getElem?_eq_some_iff.1 hs
    exact hbefore i hi hs'
  · rintro ⟨⟨s, hs, hrole⟩, hbefore⟩
    obtain ⟨hlt, rfl⟩ := List.getElem?_eq_some_iff.1 hs
    exact ⟨hlt, hrole, fun i hi hi' => hbefore i hi ⟨_, List.getElem?_eq_getElem (by omega), hi'⟩⟩

theorem IsSelector.eq {m m' : Nat} (h : IsSelector signals m) (h' : IsSelector signals m') : m = m' :=
  Option.some.inj ((findIdx?_eq_some.2 h).symm.trans (findIdx?_eq_some.2 h'))

theorem findIdx?_eq_none :
    signals.findIdx? (·.mux = .multiplexer) = none ↔ ∀ i, ¬HasRole signals .multiplexer i := by
  rw [List.findIdx?_eq_none_iff]
  constructor
  · rintro h i ⟨s, hs, hrole⟩
    exact absurd hrole (by simpa using h s (List.mem_of_getElem? hs))
  · intro h s hs
    obtain ⟨i, hi⟩ := List.mem_iff_getElem?.1 hs
    exact decide_eq_false fun hrole => h i ⟨s, hi, hrole⟩

/-- A message with a multiplexer has a first one. -/
theorem exists_isSelector {i : Nat} (h : HasRole signals .multiplexer i) : ∃ m, IsSelector signals m := by
  cases hfind : signals.findIdx? (·.mux = .multiplexer) with
  | none => exact absurd h (findIdx?_eq_none.1 hfind i)
  | some m => exact ⟨m, findIdx?_eq_some.1 hfind⟩

/-! ## Groups -/

/-- The values that have a group: those that signals depend on, and 0 if there are none. -/
def HasGroup (signals : List Signal) (v : UInt16) : Prop :=
  (∃ i, HasRole signals (.multiplexed v) i) ∨ v = 0 ∧ ∀ w i, ¬HasRole signals (.multiplexed w) i

/-- What the groups of the signals of a message are to be. -/
inductive Groups (signals : List Signal) : List MuxGroup → Prop
  | empty (h : signals = []) : Groups signals []
  /-- Without a multiplexer, one group of all signals. -/
  | plain (hne : signals ≠ []) (h : ∀ i, ¬HasRole signals .multiplexer i) :
    Groups signals [⟨0, List.range signals.length⟩]
  /-- With a multiplexer, a group for each value: the first multiplexer, the signals of the value, and the signals that
  are always there. -/
  | multiplexed {m : Nat} {groups : List MuxGroup} (hm : IsSelector signals m)
    (ascending : (groups.map (·.value)).Pairwise (· < ·)) (values : ∀ v, v ∈ groups.map (·.value) ↔ HasGroup signals v)
    (members : ∀ g ∈ groups, ∃ own always, g.signals = m :: (own ++ always) ∧
      Enumerates (HasRole signals (.multiplexed g.value)) own ∧ Enumerates (HasRole signals .none) always) :
    Groups signals groups

/-- The values that have a group, ascending. -/
def groupValues (signals : List Signal) : List UInt16 :=
  match values signals with
  | [] => [0]
  | vs => vs

theorem ofSignals_of_isSelector {m : Nat} (h : IsSelector signals m) : ofSignals signals =
    (groupValues signals).map fun v => ⟨v, m :: (withRole (.multiplexed v) signals ++ withRole .none signals)⟩ := by
  have hne : ¬signals.isEmpty = true := fun h0 => by
    have := h.1.lt
    rw [List.isEmpty_iff.1 h0] at this
    cases this
  unfold ofSignals
  rw [if_neg hne, findIdx?_eq_some.2 h]
  rfl

theorem ofSignals_of_plain (hne : signals ≠ []) (h : ∀ i, ¬HasRole signals .multiplexer i) :
    ofSignals signals = [⟨0, List.range signals.length⟩] := by
  unfold ofSignals
  rw [if_neg (mt List.isEmpty_iff.1 hne), findIdx?_eq_none.2 h]

theorem pairwise_groupValues : (groupValues signals).Pairwise (· < ·) := by
  unfold groupValues
  split
  · exact List.pairwise_singleton _ 0
  · exact pairwise_values

theorem mem_groupValues {v : UInt16} : v ∈ groupValues signals ↔ HasGroup signals v := by
  have hnone : values signals = [] ↔ ∀ w i, ¬HasRole signals (.multiplexed w) i := by
    rw [List.eq_nil_iff_forall_not_mem]
    exact forall_congr' fun w => mem_values.not.trans not_exists
  unfold groupValues HasGroup
  split
  · rename_i h
    have h := hnone.1 h
    simp [h]
  · rename_i h
    rw [mem_values, or_iff_left]
    exact fun h' => h (hnone.2 h'.2)

theorem groups_ofSignals (signals : List Signal) : Groups signals (ofSignals signals) := by
  by_cases hne : signals = []
  · rw [ofSignals_eq_nil.2 hne]
    exact .empty hne
  · by_cases hplain : ∀ i, ¬HasRole signals .multiplexer i
    · rw [ofSignals_of_plain hne hplain]
      exact .plain hne hplain
    · obtain ⟨i, hi⟩ := not_forall_not.1 hplain
      obtain ⟨m, hm⟩ := exists_isSelector hi
      have hvalues : (ofSignals signals).map (·.value) = groupValues signals := by
        rw [ofSignals_of_isSelector hm, List.map_map]
        exact List.map_id _
      refine .multiplexed hm (hvalues ▸ pairwise_groupValues) (fun v => hvalues ▸ mem_groupValues) fun g hg => ?_
      rw [ofSignals_of_isSelector hm] at hg
      obtain ⟨v, -, rfl⟩ := List.mem_map.1 hg
      exact ⟨_, _, rfl, enumerates_withRole _, enumerates_withRole _⟩

/-- No other groups are what the groups are to be. -/
theorem Groups.eq {groups : List MuxGroup} (h : Groups signals groups) : ofSignals signals = groups := by
  cases h with
  | empty h => exact ofSignals_eq_nil.2 h
  | plain hne h => exact ofSignals_of_plain hne h
  | multiplexed hm ascending values members =>
    have hvalues : groupValues signals = groups.map (·.value) :=
      pairwise_groupValues.eq_of_mem_iff ascending fun v => mem_groupValues.trans (values v).symm
    rw [ofSignals_of_isSelector hm, hvalues, List.map_map]
    refine (List.map_congr_left fun g hg => ?_).trans (List.map_id groups)
    obtain ⟨own, always, hsignals, hown, halways⟩ := members g hg
    rw [Function.comp_apply, ← hown.eq (enumerates_withRole _), ← halways.eq (enumerates_withRole _), ← hsignals]
    rfl

/-! ## Members -/

/-- The indices of the group of a value. -/
theorem mem_signals {m : Nat} (hm : IsSelector signals m) {g : MuxGroup} (hg : g ∈ ofSignals signals) {i : Nat} :
    i ∈ g.signals ↔ i = m ∨ HasRole signals (.multiplexed g.value) i ∨ HasRole signals .none i := by
  rw [ofSignals_of_isSelector hm] at hg
  obtain ⟨v, -, rfl⟩ := List.mem_map.1 hg
  rw [List.mem_cons, List.mem_append, (enumerates_withRole _).2, (enumerates_withRole _).2]

theorem nodup_signals {g : MuxGroup} (hg : g ∈ ofSignals signals) : g.signals.Nodup := by
  have hnodup {P : Nat → Prop} {is : List Nat} (h : Enumerates P is) : is.Nodup := h.1.imp Nat.ne_of_lt
  have h := groups_ofSignals signals
  generalize ofSignals signals = groups at hg h
  cases h with
  | empty => cases hg
  | plain =>
    rw [List.mem_singleton.1 hg]
    exact List.nodup_range
  | multiplexed hm _ _ members =>
    obtain ⟨own, always, hsignals, hown, halways⟩ := members g hg
    rw [hsignals, List.nodup_cons, List.nodup_append', List.mem_append, hown.2, halways.2]
    refine ⟨?_, hnodup hown, hnodup halways, ?_⟩
    · rintro (h | h) <;> cases hm.1.eq h
    · intro i hi hi'
      cases ((hown.2 i).1 hi).eq ((halways.2 i).1 hi')

/-- A signal that is always there is in every group. -/
theorem mem_of_none {g : MuxGroup} (hg : g ∈ ofSignals signals) {i : Nat} (hi : HasRole signals .none i) :
    i ∈ g.signals := by
  by_cases hplain : ∀ i, ¬HasRole signals .multiplexer i
  · have hne : signals ≠ [] := List.length_pos_iff.1 (Nat.zero_lt_of_lt hi.lt)
    rw [ofSignals_of_plain hne hplain] at hg
    rw [List.mem_singleton.1 hg]
    exact List.mem_range.2 hi.lt
  · obtain ⟨j, hj⟩ := not_forall_not.1 hplain
    obtain ⟨m, hm⟩ := exists_isSelector hj
    exact (mem_signals hm hg).2 (.inr (.inr hi))

/-- In a message with a multiplexer, a signal that depends on a value is in the group of the value only. -/
theorem existsUnique_of_multiplexed {m : Nat} (hm : IsSelector signals m) {v : UInt16} {i : Nat}
    (hi : HasRole signals (.multiplexed v) i) : ∃! g, g ∈ ofSignals signals ∧ i ∈ g.signals := by
  have hgroups := ofSignals_of_isSelector hm
  have hv : v ∈ groupValues signals := mem_groupValues.2 (.inl ⟨i, hi⟩)
  refine ⟨_, ⟨hgroups ▸ List.mem_map_of_mem hv, ?_⟩, ?_⟩
  · exact List.mem_cons_of_mem _ (List.mem_append_left _ (((enumerates_withRole _).2 i).2 hi))
  · rintro g ⟨hg, hmem⟩
    have hvalue : g.value = v := by
      rcases (mem_signals hm hg).1 hmem with rfl | h | h
      · cases hm.1.eq hi
      · cases h.eq hi
        rfl
      · cases h.eq hi
    rw [hgroups] at hg
    obtain ⟨w, -, rfl⟩ := List.mem_map.1 hg
    rw [show w = v from hvalue]

/-- **Groups follow the roles of the signals**, whatever their order: they are what they are to be and nothing else. -/
theorem groups_by_role (signals : List Signal) :
    (∀ groups, ofSignals signals = groups ↔ Groups signals groups) ∧
      (∀ g ∈ ofSignals signals, g.signals.Nodup ∧ ∀ i, HasRole signals .none i → i ∈ g.signals) ∧
      ∀ m, IsSelector signals m → ∀ v i, HasRole signals (.multiplexed v) i →
        ∃! g, g ∈ ofSignals signals ∧ i ∈ g.signals :=
  ⟨fun _ => ⟨fun h => h ▸ groups_ofSignals signals, Groups.eq⟩,
    fun _ hg => ⟨nodup_signals hg, fun _ => mem_of_none hg⟩, fun _ hm _ _ => existsUnique_of_multiplexed hm⟩

/-- A multiplexer after the first. -/
def IsShadowed (signals : List Signal) (i : Nat) : Prop :=
  HasRole signals .multiplexer i ∧ ∃ j < i, HasRole signals .multiplexer j

/-- The signals that no group has are the multiplexers after the first. -/
theorem exists_mem_ofSignals {i : Nat} (h : i < signals.length) :
    (∃ g ∈ ofSignals signals, i ∈ g.signals) ↔ ¬IsShadowed signals i := by
  by_cases hplain : ∀ i, ¬HasRole signals .multiplexer i
  · have hne : signals ≠ [] := List.length_pos_iff.1 (Nat.zero_lt_of_lt h)
    rw [ofSignals_of_plain hne hplain]
    exact iff_of_true ⟨_, List.mem_singleton_self _, List.mem_range.2 h⟩ fun h' => hplain i h'.1
  · obtain ⟨j, hj⟩ := not_forall_not.1 hplain
    obtain ⟨m, hm⟩ := exists_isSelector hj
    constructor
    · rintro ⟨g, hg, hi⟩ ⟨hrole, j, hji, hj⟩
      rcases (mem_signals hm hg).1 hi with rfl | h | h
      · exact hm.2 j hji hj
      · cases h.eq hrole
      · cases h.eq hrole
    · intro hfirst
      have hgroup : ∃ g, g ∈ ofSignals signals := List.exists_mem_of_ne_nil _ fun h0 => by
        rw [ofSignals_eq_nil.1 h0] at h
        cases h
      obtain ⟨g, hg⟩ := hgroup
      have hrole : HasRole signals signals[i].mux i := ⟨_, List.getElem?_eq_getElem h, rfl⟩
      cases hmux : signals[i].mux with
      | none => exact ⟨g, hg, mem_of_none hg (hmux ▸ hrole)⟩
      | multiplexer =>
        have hi : IsSelector signals i := ⟨hmux ▸ hrole, fun j hji hj => hfirst ⟨hmux ▸ hrole, j, hji, hj⟩⟩
        exact ⟨g, hg, (mem_signals hm hg).2 (.inl (hi.eq hm))⟩
      | multiplexed v => exact (existsUnique_of_multiplexed hm (hmux ▸ hrole)).exists

/-- A multiplexer in the midst of what depends on it, with a gap in the values. -/
example : ofSignals [{ Signal.new 0 8 8 with mux := .multiplexed 7 }, { Signal.new 1 0 8 with mux := .multiplexer },
      Signal.new 2 32 8, { Signal.new 3 8 8 with mux := .multiplexed 2 },
      { Signal.new 4 16 8 with mux := .multiplexed 7 }] =
    [⟨2, [1, 3, 2]⟩, ⟨7, [1, 0, 4, 2]⟩] := by decide

end BusNode.Can.MuxGroup
