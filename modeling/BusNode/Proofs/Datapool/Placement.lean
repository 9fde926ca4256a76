import BusNode.Proofs.Code.Placement
import BusNode.Proofs.Datapool.Shape
/-!
# Variables of a Datapool

The owner of a Datapool declares its values in the header and defines them in the source, where the buffer for
non-volatile lists stands as well. All else that the pair declares is constant.

* `DatapoolCode.keeps_header`, `DatapoolCode.keeps_source` — the variables of the files, all in the place of the
  Datapool.
-/

namespace BusNode.DatapoolCode

variable {x : DatapoolCode} {l : ElementList} {items : List Item} {id : Identifier}

/-! ## Header -/

theorem isStill_types : ∀ i ∈ x.types, i.IsStill := by
  intro i hi
  simp only [DatapoolCode.types, List.mem_append, List.mem_cons, List.mem_flatMap, List.not_mem_nil, or_false] at hi
  obtain (rfl | ⟨l, -, rfl | rfl⟩) | rfl := hi <;> trivial

theorem isStill_scaling (h : x.scaling = .ok items) : ∀ i ∈ items, i.IsStill := by
  intro i hi
  obtain rfl | ⟨-, -, -, rfl⟩ := mem_scaling h hi <;> trivial

theorem isStill_listDefines : ∀ i ∈ x.listDefines l, i.IsStill := by
  intro i hi
  simp only [listDefines, List.mem_append, List.mem_cons, List.mem_map, List.not_mem_nil, or_false] at hi
  obtain ((rfl | rfl) | ⟨_, _, rfl⟩) | rfl := hi <;> trivial

/-- The header of the owner declares the values object. -/
theorem keeps_header (hown : x.isOwn = true) {scaling : List Item} (hscaling : ∀ i ∈ scaling, i.IsStill) :
    Keeps x.placement (x.headerItems id scaling) [x.valuesObject .external] := by
  have hvalues : Keeps x.placement [.declare (x.valuesObject .external) (some x.placement)]
      [x.valuesObject .external] := .declare rfl
  have hrecord : ∀ i ∈ [Item.declare (.externRecord "T_osy_dpa_data_pool" x.datapool.recordName) none],
      i.IsStill := List.forall_mem_singleton.2 ⟨rfl, rfl⟩
  unfold headerItems
  rw [if_pos hown, if_pos hown]
  refine ((hvalues.after_still fun i hi => ?_).then_still hrecord).then_still File.isStill_headerEnd
  simp only [List.mem_append, List.mem_cons, List.mem_map, List.mem_flatMap, List.not_mem_nil, or_false] at hi
  obtain ((((((hi | hi) | hi) | hi) | hi) | hi) | hi) := hi
  · exact File.isStill_headerStart i hi
  · obtain rfl | rfl | rfl | rfl := hi <;> trivial
  · obtain ⟨_, _, rfl⟩ := hi
    trivial
  · obtain ⟨l, -, hi⟩ := hi
    exact isStill_listDefines i hi
  · exact hscaling i hi
  · exact isStill_types i hi
  · obtain rfl := hi
    trivial

/-! ## Source -/

theorem isStill_limits (h : x.limits l = .ok items) : ∀ i ∈ items, i.IsStill := by
  obtain ⟨least, -, h⟩ := bind_eq_ok.1 h
  obtain ⟨greatest, -, h⟩ := bind_eq_ok.1 h
  obtain ⟨sets, -, h⟩ := bind_eq_ok.1 h
  rw [← pure_eq_ok.1 h]
  intro i hi
  rcases List.mem_append.1 hi with hi | hi
  · simp only [List.mem_cons, List.not_mem_nil, or_false] at hi
    obtain rfl | rfl | rfl | rfl := hi
    · trivial
    · exact ⟨rfl, rfl⟩
    · trivial
    · exact ⟨rfl, rfl⟩
  · split at hi
    · cases hi
    · exact Item.isStill_after_blank hi ⟨rfl, rfl⟩

theorem isStill_listTables (h : x.listTables l = .ok items) : ∀ i ∈ items, i.IsStill := by
  obtain ⟨-, rfl⟩ | ⟨-, -, limits, hlimits, rfl⟩ := listTables_eq_ok.1 h
  · exact fun i hi => nomatch hi
  · intro i hi
    rcases List.mem_append.1 hi with hi | hi
    · obtain ⟨-, hlimits⟩ | ⟨-, rfl⟩ := hlimits
      · exact isStill_limits hlimits i hi
      · cases hi
    · exact Item.isStill_after_blank hi ⟨rfl, rfl⟩

/-- The buffer that a list is read to and written from. -/
def scratchObject (x : DatapoolCode) : Object :=
  ⟨.internal, false, "uint8", x.datapool.scratchName, some (.number x.datapool.scratchBytes)⟩

/-- What the source of the owner defines that may change. -/
def sourceVariables (x : DatapoolCode) : List Object :=
  x.valuesObject .shared :: if x.hasScratchBuffer then [x.scratchObject] else []

/-- The source of the owner defines the values object and the buffer. -/
theorem keeps_source {i : Item} (hvalues : x.values = .ok i) {tables : List (List Item)}
    (htables : List.Forall₂ (fun l items => x.listTables l = .ok items) x.datapool.lists tables) :
    Keeps x.placement (x.sourceItems id [.heading "Global Variables", i] tables x.datapool.scratchBytes)
      x.sourceVariables := by
  obtain ⟨rows, -, hvalues⟩ := bind_eq_ok.1 hvalues
  obtain rfl := pure_eq_ok.1 hvalues
  have hobject : Keeps x.placement
      [.heading "Global Variables", .object (x.valuesObject .shared) rows (some x.placement)]
      [x.valuesObject .shared] := .still trivial (.object rows rfl)
  have hscratch : Keeps x.placement (if x.hasScratchBuffer then x.scratchBuffer x.datapool.scratchBytes else [])
      (if x.hasScratchBuffer then [x.scratchObject] else []) := by
    split
    · exact .still trivial (.declare rfl)
    · exact .nil
  have hheading : ∀ i ∈ [Item.heading "Module Global Constants"], i.IsStill := List.forall_mem_singleton.2 trivial
  have hstill : ∀ i ∈ tables.flatten, i.IsStill := by
    intro i hi
    obtain ⟨items, hitems, hi⟩ := List.mem_flatten.1 hi
    obtain ⟨l, -, hl⟩ := exists_of_mem_right htables hitems
    exact isStill_listTables hl i hi
  have hlists : ∀ i ∈ x.listTable, i.IsStill := fun i hi => Item.isStill_after_blank hi ⟨rfl, rfl⟩
  have hremote : ∀ i ∈ if x.hasRemoteInfo then x.remoteInfo else [], i.IsStill := by
    intro i hi
    split at hi
    · exact Item.isStill_after_blank hi ⟨rfl, rfl⟩
    · cases hi
  have hrecord : ∀ i ∈ [Item.heading "Global Constants",
      .object (.sharedRecord "T_osy_dpa_data_pool" x.datapool.recordName)
        (x.recordRows x.datapool.scratchBytes) none], i.IsStill :=
    List.forall_mem_cons.2 ⟨trivial, List.forall_mem_singleton.2 ⟨rfl, rfl⟩⟩
  have hstart : ∀ i ∈ File.sourceStart x.datapool.stem s!"Definition of Datapool {x.datapool.name}" [] id, i.IsStill :=
    File.isStill_sourceStart
  have hfront := ((hobject.after_still hstart).then_still hheading).then_still hstill
  exact (((hfront.then_still hlists).then_still hremote).append hscratch).then_still hrecord

end BusNode.DatapoolCode
