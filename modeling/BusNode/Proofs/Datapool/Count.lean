import BusNode.Proofs.Datapool.Size
/-!
# Counts of a Datapool

The rows of lists and the record of a Datapool have counts, and pointers to what is counted. The source makes counts,
pointers and arrays each in its own place.

* `DatapoolCode.CountsList` — what the row of a list counts; `CountsList.resolves_dataSets_iff` — the count of data sets
  has no array just where a list has data sets but no elements to have values of;
* `DatapoolCode.CountsRecord` — what the record counts;
* `DatapoolCode.counts_match_pointers` — all that stands in the source of the owner.
-/

namespace BusNode

namespace DatapoolCode

variable {x : DatapoolCode} {id : Identifier} {f : File} {l : ElementList} {r : ListDefinition}

/-! ## Rows of lists -/

/-- The row of a list counts its elements, with their definitions, and its data sets, with their values if the list has
elements. -/
structure CountsList (x : DatapoolCode) (f : File) (l : ElementList) (r : ListDefinition) : Prop where
  elementCount : r.elementCount = l.elements.length
  elements : r.elements = .slice (x.datapool.elementTableName l) 0 r.elementCount
  elementTable : f.Shows "T_osy_dpa_element_definition" (x.datapool.elementTableName l)
    (l.elements.map fun e => (x.elementDefinition l e e.bytes).row)
  dataSetCount : r.dataSetCount = l.dataSets.length
  dataSets : r.dataSets = if l.elements = [] then none else Pointer.slice (x.datapool.dataSetName l) 0 r.dataSetCount
  dataSetTable : l.elements ≠ [] →
    ∃ rows, HoldsDataSets l rows ∧ f.Shows (x.datapool.listType l) (x.datapool.dataSetName l) rows

namespace CountsList

theorem resolves_elements (h : x.CountsList f l r) : f.Resolves ⟨r.elementCount, r.elements⟩ := by
  rw [h.elements]
  refine File.resolves_whole fun hn => ?_
  have harray := h.elementTable.hasArray
  rw [List.length_map, ← h.elementCount] at harray
  exact harray hn

/-- Only of a list with data sets and without elements the count of data sets has no array. -/
theorem resolves_dataSets_iff (h : x.CountsList f l r) :
    f.Resolves ⟨r.dataSetCount, r.dataSets⟩ ↔ l.elements ≠ [] ∨ l.dataSets = [] := by
  rw [h.dataSets]
  by_cases hempty : l.elements = []
  · rw [if_pos hempty, h.dataSetCount]
    constructor
    · intro hresolves
      exact .inr (List.length_eq_zero_iff.1 (hresolves.1.1 rfl))
    · rintro (hne | hnil)
      · exact absurd hempty hne
      · rw [hnil]
        exact ⟨iff_of_true rfl rfl, fun p hp => nomatch hp⟩
  · rw [if_neg hempty]
    refine iff_of_true (File.resolves_whole fun hn => ?_) (.inl hempty)
    obtain ⟨rows, hrows, hshows⟩ := h.dataSetTable hempty
    have hlength : rows.length = r.dataSetCount := by
      rw [h.dataSetCount, ← List.Forall₂.length_eq hrows, List.length_zipIdx]
    have harray := hshows.hasArray
    rw [hlength] at harray
    exact harray hn

end CountsList

theorem elements_listDefinition (l : ElementList) :
    (x.listDefinition l).elements = .slice (x.datapool.elementTableName l) 0 l.elements.length := by
  unfold listDefinition Pointer.slice
  cases l.elements <;> rfl

theorem dataSets_listDefinition (hown : x.isOwn = true) (l : ElementList) : (x.listDefinition l).dataSets =
    if l.elements = [] then none else Pointer.slice (x.datapool.dataSetName l) 0 l.dataSets.length := by
  unfold listDefinition
  rw [hown]
  cases l.elements <;> rfl

section Source

variable {scaling values : List Item} {tables : List (List Item)}

/-- The table of the elements of a list stands in the source. -/
theorem shows_elementTable (id : Identifier) (scaling values : List Item)
    (htables : List.Forall₂ (fun l items => x.listTables l = .ok items) x.datapool.lists tables)
    (hl : l ∈ x.datapool.lists) :
    (x.pairOf id scaling values tables).source.Shows "T_osy_dpa_element_definition" (x.datapool.elementTableName l)
      (l.elements.map fun e => (x.elementDefinition l e e.bytes).row) := by
  intro hrows
  have hfilled : l ∈ x.datapool.filledLists := by
    refine mem_filledLists.2 ⟨hl, fun hempty => hrows ?_⟩
    rw [hempty]
    rfl
  obtain ⟨limits, -, hsub⟩ := exists_listTables id values htables hfilled
  rw [List.length_map]
  exact hsub (x.elementTable l) (by simp)

/-- The table of the data sets of a list stands in the source. -/
theorem Defines.shows_dataSets {pair : Pair} (h : x.Defines pair) (hl : l ∈ x.datapool.filledLists) :
    ∃ rows, HoldsDataSets l rows ∧
      pair.source.Shows (x.datapool.listType l) (x.datapool.dataSetName l) rows := by
  by_cases hempty : l.dataSets = []
  · refine ⟨[], ?_, fun hne => absurd rfl hne⟩
    unfold HoldsDataSets
    rw [hempty]
    exact .nil
  · obtain ⟨rows, hrows, hitem⟩ := h.dataSets l hl hempty
    have hlength : l.dataSets.length = rows.length := by
      rw [← List.Forall₂.length_eq hrows, List.length_zipIdx]
    exact ⟨rows, hrows, fun _ => hlength ▸ hitem⟩

theorem countsList_listDefinition (hown : x.isOwn = true)
    (htables : List.Forall₂ (fun l items => x.listTables l = .ok items) x.datapool.lists tables)
    (hdefines : x.Defines (x.pairOf id scaling values tables)) (hl : l ∈ x.datapool.lists) :
    x.CountsList (x.pairOf id scaling values tables).source l (x.listDefinition l) where
  elementCount := rfl
  elements := elements_listDefinition l
  elementTable := shows_elementTable id scaling values htables hl
  dataSetCount := rfl
  dataSets := dataSets_listDefinition hown l
  dataSetTable hne := hdefines.shows_dataSets (mem_filledLists.2 ⟨hl, hne⟩)

/-! ## The record -/

/-- The bytes of the buffer that the record counts. -/
def scratchCount (x : DatapoolCode) : Nat := if x.hasScratchBuffer then x.datapool.scratchBytes else 0

/-- The record counts the lists, and, from layout 5 on, the bytes of the buffer. -/
structure CountsRecord (x : DatapoolCode) (rows : List Row) : Prop where
  lists : [Row.noted (Literal.count x.datapool.lists.length) "number of lists",
    .pointer (.slice x.datapool.listTableName 0 x.datapool.lists.length)] <:+: rows
  scratch : 5 ≤ x.version → [Row.pointer (.slice x.datapool.scratchName 0 x.scratchCount),
    .noted (Literal.count x.scratchCount) "NVM scratch buffer size"] <:+: rows
  noScratch : x.version < 5 → ∀ size, Row.noted size "NVM scratch buffer size" ∉ rows

theorem countsRecord_recordRows (hlists : x.datapool.lists ≠ []) :
    x.CountsRecord (x.recordRows x.datapool.scratchBytes) := by
  have hpointer : Pointer.slice x.datapool.listTableName 0 x.datapool.lists.length =
      some (.item x.datapool.listTableName 0) := if_neg fun h => hlists (List.length_eq_zero_iff.1 h)
  have hscratch : 5 ≤ x.version → (if x.version < 5 then []
      else if x.hasScratchBuffer then
        [Row.pointer (some (.item x.datapool.scratchName 0)),
          .noted (Literal.count x.datapool.scratchBytes) "NVM scratch buffer size"]
      else [Row.pointer none, .noted (Literal.count 0) "NVM scratch buffer size"]) =
      [Row.pointer (.slice x.datapool.scratchName 0 x.scratchCount),
        .noted (Literal.count x.scratchCount) "NVM scratch buffer size"] := by
    intro hversion
    have hsize : x.datapool.scratchBytes ≠ 0 := Nat.pos_iff_ne_zero.1 x.datapool.scratchBytes_pos
    rw [if_neg (by omega), scratchCount]
    split
    · rw [Pointer.slice, if_neg hsize]
    · rfl
  refine ⟨?_, fun hversion => ?_, fun hversion size hmem => ?_⟩
  · rw [hpointer]
    unfold recordRows
    dsimp only
    rw [List.append_assoc, List.append_assoc]
    exact ⟨[_, _, _], _, rfl⟩
  · rw [← hscratch hversion]
    exact ⟨_, _, rfl⟩
  · have hcomments : (x.recordRows x.datapool.scratchBytes).map Row.comment =
        [some "Datapool version", some "linkage", some "safety relevant", some "number of lists", none] ++
          (if x.hasRemoteInfo then [none] else []) ++ [some "NVM start address", some "NVM size"] := by
      unfold recordRows
      dsimp only
      rw [if_pos hversion]
      split <;> rfl
    have hcomment : some "NVM scratch buffer size" ∈ (x.recordRows x.datapool.scratchBytes).map Row.comment :=
      List.mem_map.2 ⟨_, hmem, rfl⟩
    rw [hcomments] at hcomment
    revert hcomment
    split <;> decide

theorem resolves_listTable : (x.pairOf id scaling values tables).source.Resolves
    ⟨x.datapool.lists.length, .slice x.datapool.listTableName 0 x.datapool.lists.length⟩ := by
  refine File.resolves_whole fun _ => ?_
  exact ⟨_, File.mem_objects (listTable_subset_source (.tail _ (.head _))) rfl, rfl, rfl⟩

theorem resolves_scratchBuffer : (x.pairOf id scaling values tables).source.Resolves
    ⟨x.scratchCount, .slice x.datapool.scratchName 0 x.scratchCount⟩ := by
  refine File.resolves_whole fun hcount => ?_
  unfold scratchCount at hcount ⊢
  by_cases hscratch : x.hasScratchBuffer = true
  · rw [if_pos hscratch]
    exact ⟨_, File.mem_objects (scratchBuffer_subset_source hscratch (.tail _ (.head _))) rfl, rfl, rfl⟩
  · rw [if_neg hscratch] at hcount
    exact absurd rfl hcount

end Source

/-! ## Pair -/

/-- The parts of a pair of the owner. -/
theorem exists_parts {pair : Pair} (h : (x.generate id).result = .ok pair) (hown : x.linkage = .own) :
    ∃ scaling values tables, pair = x.pairOf id scaling values tables ∧ x.datapool.lists ≠ [] ∧
      List.Forall₂ (fun l items => x.listTables l = .ok items) x.datapool.lists tables ∧
      x.Defines (x.pairOf id scaling values tables) := by
  obtain ⟨hcheck, header, source, hheader, hsource, rfl⟩ := generate_eq_ok h
  have hfits (l : ElementList) (hl : l ∈ x.datapool.lists) : ∀ e ∈ l.elements, e.Fits l.dataSets.length :=
    ((Datapool.fault?_eq_none.1 (check_eq_ok.1 hcheck).2).2 l hl).2
  obtain ⟨scaling, -, rfl⟩ := header_eq_ok.1 hheader
  obtain ⟨values, tables, ⟨hown, i, hi, hvalues⟩ | ⟨hother, -⟩, htables, -, rfl⟩ := source_eq_ok.1 hsource
  · exact ⟨scaling, values, tables, rfl, lists_ne_nil hcheck, htables, defines hown hfits hi hvalues htables⟩
  · rw [isOwn_iff.2 hown] at hother
    cases hother

/-- **Counts belong to arrays, but those of data sets that have no values.** In the source of the owner the row of a
list counts its elements with the array of their definitions, and the record counts the lists with the array of their
rows and the bytes of the buffer with the buffer; of none there is no address. The number of data sets comes with the
array of their values if the list has elements, and with no address if it has none. -/
theorem counts_match_pointers (x : DatapoolCode) (id : Identifier) (pair : Pair)
    (h : (x.generate id).result = .ok pair) (hown : x.linkage = .own) :
    (∃ defs : List ListDefinition,
      Item.object (.table "T_osy_dpa_list_definition" x.datapool.listTableName x.datapool.lists.length)
        (defs.map ListDefinition.row) none ∈ pair.source.items ∧
      List.Forall₂ (fun l r => x.CountsList pair.source l r ∧ pair.source.Resolves ⟨r.elementCount, r.elements⟩ ∧
        (pair.source.Resolves ⟨r.dataSetCount, r.dataSets⟩ ↔ l.elements ≠ [] ∨ l.dataSets = []))
        x.datapool.lists defs) ∧
    ∃ rows, Item.object (.sharedRecord "T_osy_dpa_data_pool" x.datapool.recordName) rows none ∈ pair.source.items ∧
      x.CountsRecord rows ∧
      pair.source.Resolves ⟨x.datapool.lists.length, .slice x.datapool.listTableName 0 x.datapool.lists.length⟩ ∧
      pair.source.Resolves ⟨x.scratchCount, .slice x.datapool.scratchName 0 x.scratchCount⟩ := by
  obtain ⟨scaling, values, tables, rfl, hlists, htables, hdefines⟩ := exists_parts h hown
  constructor
  · refine ⟨x.datapool.lists.map x.listDefinition, ?_, ?_⟩
    · rw [List.map_map]
      simp [pairOf, sourceItems, listTable, Function.comp_def]
    · rw [List.forall₂_map_right_iff, List.forall₂_same]
      intro l hl
      have hcounts := countsList_listDefinition (isOwn_iff.2 hown) htables hdefines hl
      exact ⟨hcounts, hcounts.resolves_elements, hcounts.resolves_dataSets_iff⟩
  · refine ⟨x.recordRows x.datapool.scratchBytes, ?_, countsRecord_recordRows hlists, resolves_listTable,
      resolves_scratchBuffer⟩
    simp [pairOf, sourceItems]

theorem counts_match_pointers_recipe : ∃ pair, ((recipeCode .own).generate ⟨"00000000"⟩).result = .ok pair ∧
    (recipeCode .own).scratchCount = 7 ∧ pair.source.Resolves ⟨7, .slice recipe.scratchName 0 7⟩ := by
  obtain ⟨pair, hpair⟩ : ∃ pair, ((recipeCode .own).generate ⟨"00000000"⟩).result = .ok pair :=
    exists_eq_ok (by decide +kernel)
  obtain ⟨-, rows, -, -, -, hscratch⟩ := counts_match_pointers (recipeCode .own) ⟨"00000000"⟩ pair hpair rfl
  have hcount : (recipeCode .own).scratchCount = 7 := by decide +kernel
  rw [hcount] at hscratch
  exact ⟨pair, hpair, hcount, hscratch⟩

/-- A list that is still empty, but has a data set. -/
def emptyPreset : ElementList := { ElementList.new "Spare" with dataSets := [⟨"Slow", ""⟩] }

/-- A mill with settings and an empty list. -/
def mill : Datapool := { Datapool.new "Mill" .generic (some 0) with
  lists := [{ ElementList.new "Settings" with elements := [.scalar "Speed" (.u8 1) (.u8 0) (.u8 9)] }, emptyPreset] }

def millCode : DatapoolCode := ⟨"Panel", mill, 0, 5, false, .own, 3, 0⟩

/-- The row of the empty list counts a data set and has no address for it. -/
theorem dataSets_without_values_mill : millCode.linkage = .own ∧
    ∃ pair, (millCode.generate ⟨"00000000"⟩).result = .ok pair ∧ ∃ defs : List ListDefinition,
      Item.object (.table "T_osy_dpa_list_definition" mill.listTableName mill.lists.length)
        (defs.map ListDefinition.row) none ∈ pair.source.items ∧
      ∃ r ∈ defs, 0 < r.dataSetCount ∧ r.dataSets = none := by
  obtain ⟨pair, hpair⟩ : ∃ pair, (millCode.generate ⟨"00000000"⟩).result = .ok pair :=
    exists_eq_ok (by decide +kernel)
  obtain ⟨scaling, values, tables, rfl, -⟩ := exists_parts hpair rfl
  refine ⟨rfl, _, hpair, mill.lists.map millCode.listDefinition, ?_, millCode.listDefinition emptyPreset, ?_, ?_⟩
  · rw [List.map_map]
    simp [pairOf, sourceItems, listTable, millCode, Function.comp_def]
  · exact List.mem_map_of_mem (.tail _ (.head _))
  · decide

end DatapoolCode

end BusNode
