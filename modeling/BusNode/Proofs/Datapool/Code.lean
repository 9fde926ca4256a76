import BusNode.Proofs.Datapool.Initializer
import BusNode.Proofs.Datapool.Word
/-!
# What a Datapool pair is made of

* `generate_eq_ok` — a pair is generated of a Datapool without fault only;
* `header_eq_ok`, `source_eq_ok`, `listTables_eq_ok` — the parts of its files.
-/

namespace BusNode.DatapoolCode

variable {x : DatapoolCode} {id : Identifier} {l : ElementList}

theorem check_eq_ok : x.check.result = .ok () ↔
    ¬(x.linkage = .remotePublic ∧ x.version < 4) ∧ x.datapool.fault? = none := by
  unfold check
  dsimp only
  split
  · rename_i h
    simp only [Report.result_bind, Report.result_fail, bind_eq_ok]
    exact iff_of_false (fun ⟨_, _, h⟩ => nomatch h) fun h' => h'.1 h
  · rename_i h
    split
    · rename_i fault hfault
      rw [Report.result_onError, Report.result_fail]
      exact iff_of_false (fun h => nomatch h) fun h' => by rw [h'.2] at hfault; cases hfault
    · rename_i hfault
      exact iff_of_true rfl ⟨h, hfault⟩

theorem lists_ne_nil (h : x.check.result = .ok ()) : x.datapool.lists ≠ [] := by
  intro hnil
  have hempty := (Datapool.fault?_eq_none.1 (check_eq_ok.1 h).2).1
  simp [Datapool.isEmpty, Datapool.elementCount, hnil] at hempty

theorem generate_eq_ok {pair : Pair} (h : (x.generate id).result = .ok pair) :
    x.check.result = .ok () ∧ ∃ header source, x.header id = .ok header ∧ x.source id = .ok source ∧
      pair = ⟨x.datapool.stem, header, source⟩ := by
  unfold generate at h
  simp only [Report.result_bind, Report.result_lift, Report.result_ofExcept, Report.result_tell, Report.result_pure,
    bind_eq_ok, mapError_eq_ok] at h
  obtain ⟨⟨⟩, hcheck, header, hheader, source, hsource, -, -, h⟩ := h
  cases h
  exact ⟨hcheck, header, source, hheader, hsource, rfl⟩

/-! ## Header -/

/-- The items of the header, given its scaling definitions. -/
def headerItems (x : DatapoolCode) (id : Identifier) (scaling : List Item) : List Item :=
  File.headerStart x.datapool.stem s!"Definition of Datapool {x.datapool.name}" ["osy_dpa_data_pool.h"] id ++
    [Item.blank,
      .define s!"{upper x.datapool.name}_DATA_POOL_INDEX" "" (.number x.indexInApplication),
      .define s!"{upper x.datapool.name}_NUMBER_OF_LISTS" "" (.number x.datapool.lists.length),
      .blank] ++
    (x.datapool.lists.zipIdx.map fun (l, i) =>
      Item.define s!"{upper x.datapool.name}_LIST_INDEX_{upper l.name}" "" (.number i)) ++
    x.datapool.lists.flatMap x.listDefines ++
    scaling ++
    (if x.isOwn then x.types else []) ++
    [Item.heading "Global Variables"] ++
    (if x.isOwn then [Item.declare (x.valuesObject .external) (some x.placement)] else []) ++
    [Item.declare (.externRecord "T_osy_dpa_data_pool" x.datapool.recordName) none] ++
    File.headerEnd

/-- The scaling definitions are macros under a heading. -/
theorem mem_scaling {items : List Item} (h : x.scaling = .ok items) {i : Item} (hi : i ∈ items) :
    i = .heading "Scaling" ∨ ∃ name parameters text, i = .define name parameters (.text text) := by
  obtain ⟨defines, hdefines, h⟩ := bind_eq_ok.1 h
  rw [← pure_eq_ok.1 h] at hi
  split at hi
  · cases hi
  · rcases List.mem_cons.1 hi with rfl | hi
    · exact .inl rfl
    · obtain ⟨d, hd, hi⟩ := List.mem_flatten.1 hi
      obtain ⟨⟨l, e⟩, -, he⟩ := exists_of_mem_right (mapM_eq_ok.1 hdefines) hd
      obtain ⟨factor, -, he⟩ := bind_eq_ok.1 he
      obtain ⟨offset, -, he⟩ := bind_eq_ok.1 he
      rw [← pure_eq_ok.1 he] at hi
      simp only [List.mem_cons, List.not_mem_nil, or_false] at hi
      obtain rfl | rfl := hi <;> exact .inr ⟨_, _, _, rfl⟩

theorem header_eq_ok {f : File} : x.header id = .ok f ↔
    ∃ scaling, (x.hasScaling = true ∧ x.scaling = .ok scaling ∨ x.hasScaling = false ∧ scaling = []) ∧
      f = ⟨x.headerItems id scaling⟩ := by
  unfold header
  dsimp only
  constructor
  · intro h
    split at h
    · rename_i hs
      obtain ⟨scaling, hscaling, h⟩ := bind_eq_ok.1 h
      exact ⟨scaling, .inl ⟨hs, hscaling⟩, (pure_eq_ok.1 h).symm⟩
    · rename_i hs
      exact ⟨[], .inr ⟨Bool.eq_false_iff.2 hs, rfl⟩, (pure_eq_ok.1 h).symm⟩
  · rintro ⟨scaling, ⟨hs, hscaling⟩ | ⟨hs, rfl⟩, rfl⟩
    · rw [if_pos hs, hscaling]
      rfl
    · rw [hs]
      rfl

theorem types_subset_header {scaling : List Item} (hown : x.isOwn = true) {i : Item} (hi : i ∈ x.types) :
    i ∈ x.headerItems id scaling := by
  unfold headerItems
  rw [if_pos hown]
  simp only [List.mem_append, hi, true_or, or_true]

/-! ## Source -/

/-- The table of the elements of a list. -/
def elementTable (x : DatapoolCode) (l : ElementList) : Item :=
  .object (.table "T_osy_dpa_element_definition" (x.datapool.elementTableName l) l.elements.length)
    (l.elements.map fun e => (x.elementDefinition l e e.bytes).row) none

theorem elementRows_eq_ok {rows : List Row} : x.elementRows l = .ok rows ↔
    (∀ e ∈ l.elements, e.bytes < 2 ^ 32) ∧ rows = l.elements.map fun e => (x.elementDefinition l e e.bytes).row := by
  unfold elementRows
  rw [mapM_eq_ok, eq_comm (a := rows), ← List.forall₂_eq_eq_eq, List.forall₂_map_left_iff, ← List.forall₂_and_left]
  have hrow (e : Element) := Stop.unlessFits_word? (fun size => (x.elementDefinition l e size).row) e.bytes
  simp only [Element.size?_eq, hrow, ite_eq_iff, Except.ok.injEq, reduceCtorEq, and_false, or_false]

theorem listTables_eq_ok {items : List Item} : x.listTables l = .ok items ↔
    (l.elements = [] ∧ items = []) ∨ (l.elements ≠ [] ∧ (∀ e ∈ l.elements, e.bytes < 2 ^ 32) ∧
      ∃ limits, (x.isOwn = true ∧ x.limits l = .ok limits ∨ x.isOwn = false ∧ limits = []) ∧
        items = limits ++ [Item.blank, x.elementTable l]) := by
  unfold listTables
  dsimp only
  constructor
  · intro h
    split at h
    · rename_i he
      exact .inl ⟨List.isEmpty_iff.1 he, (pure_eq_ok.1 h).symm⟩
    · rename_i he
      refine .inr ⟨fun h => he (List.isEmpty_iff.2 h), ?_⟩
      split at h
      · rename_i ho
        obtain ⟨limits, hlimits, h⟩ := mapError_bind_eq_ok.1 h
        obtain ⟨rows, hrows, h⟩ := bind_eq_ok.1 h
        obtain ⟨hfits, rfl⟩ := elementRows_eq_ok.1 hrows
        exact ⟨hfits, limits, .inl ⟨ho, hlimits⟩, (pure_eq_ok.1 h).symm⟩
      · rename_i ho
        obtain ⟨limits, hlimits, h⟩ := bind_eq_ok.1 h
        obtain rfl := pure_eq_ok.1 hlimits
        obtain ⟨rows, hrows, h⟩ := bind_eq_ok.1 h
        obtain ⟨hfits, rfl⟩ := elementRows_eq_ok.1 hrows
        exact ⟨hfits, [], .inr ⟨Bool.eq_false_iff.2 ho, rfl⟩, (pure_eq_ok.1 h).symm⟩
  · rintro (⟨he, rfl⟩ | ⟨he, hfits, limits, ⟨ho, hlimits⟩ | ⟨ho, rfl⟩, rfl⟩)
    · rw [he]
      rfl
    · rw [if_neg fun h => he (List.isEmpty_iff.1 h), if_pos ho, hlimits, elementRows_eq_ok.2 ⟨hfits, rfl⟩]
      rfl
    · rw [if_neg fun h => he (List.isEmpty_iff.1 h), ho, elementRows_eq_ok.2 ⟨hfits, rfl⟩]
      rfl

section Source

variable {values : List Item} {tables : List (List Item)} {length : Nat} {i : Item}

theorem listTable_subset_source (hi : i ∈ x.listTable) : i ∈ x.sourceItems id values tables length := by
  simp only [sourceItems, List.mem_append, hi, true_or, or_true]

theorem remoteInfo_subset_source (h : x.hasRemoteInfo = true) (hi : i ∈ x.remoteInfo) :
    i ∈ x.sourceItems id values tables length := by
  unfold sourceItems
  rw [if_pos h]
  simp only [List.mem_append, hi, true_or, or_true]

theorem scratchBuffer_subset_source (h : x.hasScratchBuffer = true) (hi : i ∈ x.scratchBuffer length) :
    i ∈ x.sourceItems id values tables length := by
  unfold sourceItems
  rw [if_pos h]
  simp only [List.mem_append, hi, true_or, or_true]

/-- Without a buffer, no length of one shows. -/
theorem sourceItems_eq (h : x.hasScratchBuffer = false) (m n : Nat) :
    x.sourceItems id values tables m = x.sourceItems id values tables n := by
  unfold sourceItems recordRows
  rw [h]
  rfl

end Source

theorem scratchLength_eq : x.scratchLength =
    if x.hasScratchBuffer = true then
      if x.datapool.scratchBytes < 2 ^ 32 then .ok x.datapool.scratchBytes else .error .overflow
    else .ok 0 := by
  unfold scratchLength
  rw [Datapool.scratchSize?_eq]
  split
  · exact Stop.unlessFits_word? id x.datapool.scratchBytes
  · rfl

/-- The file has the exact length of the buffer, if that is a word. -/
theorem scratchLength_eq_ok {values : List Item} {tables : List (List Item)} {f : File} :
    (return ⟨x.sourceItems id values tables (← x.scratchLength)⟩) = Except.ok f ↔
      (x.hasScratchBuffer = true → x.datapool.scratchBytes < 2 ^ 32) ∧
        f = ⟨x.sourceItems id values tables x.datapool.scratchBytes⟩ := by
  rw [scratchLength_eq]
  cases hscratch : x.hasScratchBuffer with
  | false =>
    rw [if_neg (by decide), ← sourceItems_eq hscratch 0]
    show Except.ok _ = _ ↔ _
    simp [eq_comm]
  | true =>
    rw [if_pos rfl]
    split
    · rename_i hfits
      show Except.ok _ = _ ↔ _
      simp [hfits, eq_comm]
    · rename_i hlarge
      exact iff_of_false (fun h => nomatch h) fun h => hlarge (h.1 rfl)

theorem source_eq_ok {f : File} : x.source id = .ok f ↔
    ∃ values tables,
      (x.isOwn = true ∧ (∃ i, x.values = .ok i ∧ values = [Item.heading "Global Variables", i]) ∨
        x.isOwn = false ∧ values = []) ∧
      List.Forall₂ (fun l items => x.listTables l = .ok items) x.datapool.lists tables ∧
      (x.hasScratchBuffer = true → x.datapool.scratchBytes < 2 ^ 32) ∧
      f = ⟨x.sourceItems id values tables x.datapool.scratchBytes⟩ := by
  unfold source
  dsimp only
  constructor
  · intro h
    split at h
    · rename_i ho
      obtain ⟨i, hi, h⟩ := mapError_bind_eq_ok.1 h
      obtain ⟨values, hvalues, h⟩ := bind_eq_ok.1 h
      obtain ⟨tables, htables, h⟩ := bind_eq_ok.1 h
      exact ⟨values, tables, .inl ⟨ho, i, hi, (pure_eq_ok.1 hvalues).symm⟩, mapM_eq_ok.1 htables,
        scratchLength_eq_ok.1 h⟩
    · rename_i ho
      obtain ⟨values, hvalues, h⟩ := bind_eq_ok.1 h
      obtain rfl := pure_eq_ok.1 hvalues
      obtain ⟨tables, htables, h⟩ := bind_eq_ok.1 h
      exact ⟨[], tables, .inr ⟨Bool.eq_false_iff.2 ho, rfl⟩, mapM_eq_ok.1 htables, scratchLength_eq_ok.1 h⟩
  · rintro ⟨values, tables, ⟨ho, i, hi, rfl⟩ | ⟨ho, rfl⟩, htables, hf⟩
    · rw [if_pos ho, hi, mapM_eq_ok.2 htables]
      exact scratchLength_eq_ok.2 hf
    · rw [ho, mapM_eq_ok.2 htables]
      exact scratchLength_eq_ok.2 hf

end BusNode.DatapoolCode
