import BusNode.Proofs.Datapool.Code
/-!
# Shape of a Datapool pair

* `DatapoolCode.Defines` — the owner of a Datapool defines its storage, each initializer in the shape of its type;
* `DatapoolCode.Refers` — another application defines no storage, and points to none;
* `datapool_shape` — which of them a pair is, and that every address and every length of its source is right.
-/

namespace BusNode

namespace DatapoolCode

/-- The types of the values object and of its lists stand in the header, and the values, limits and data sets in the
source have their shape. -/
structure Defines (x : DatapoolCode) (pair : Pair) : Prop where
  valuesType : Item.recordType x.datapool.valuesType (x.datapool.filledLists.map fun l =>
    memberText (x.datapool.listType l) (Datapool.listMember l) none) ∈ pair.header.items
  listTypes : ∀ l ∈ x.datapool.filledLists, Item.recordType (x.datapool.listType l) (l.elements.map fun e =>
    memberText e.type.cType e.member (e.arraySize.map UInt32.toNat)) ∈ pair.header.items
  values : ∃ rows, x.HoldsDefaults rows ∧
    Item.object (x.valuesObject .shared) rows (some x.placement) ∈ pair.source.items
  min : ∀ l ∈ x.datapool.filledLists, ∃ rows, l.IsStruct Element.min rows ∧
    Item.object (.record (x.datapool.listType l) (x.datapool.minName l)) rows none ∈ pair.source.items
  max : ∀ l ∈ x.datapool.filledLists, ∃ rows, l.IsStruct Element.max rows ∧
    Item.object (.record (x.datapool.listType l) (x.datapool.maxName l)) rows none ∈ pair.source.items
  dataSets : ∀ l ∈ x.datapool.filledLists, l.dataSets ≠ [] → ∃ rows, HoldsDataSets l rows ∧
    Item.object (.table (x.datapool.listType l) (x.datapool.dataSetName l) l.dataSets.length) rows none ∈
      pair.source.items

/-- The objects of the pair are its tables and records, and all pointers to cells, values and data sets are `NULL`. -/
structure Refers (x : DatapoolCode) (pair : Pair) : Prop where
  header : pair.header.objects = [.externRecord "T_osy_dpa_data_pool" x.datapool.recordName]
  source : pair.source.objects =
    (x.datapool.filledLists.map fun l =>
      .table "T_osy_dpa_element_definition" (x.datapool.elementTableName l) l.elements.length) ++
    [.table "T_osy_dpa_list_definition" x.datapool.listTableName x.datapool.lists.length,
      .record "T_osy_dpa_remote_info" x.datapool.remoteInfoName,
      .sharedRecord "T_osy_dpa_data_pool" x.datapool.recordName]
  elements : ∀ l ∈ x.datapool.filledLists, ∃ defs : List ElementDefinition,
    Item.object (.table "T_osy_dpa_element_definition" (x.datapool.elementTableName l) l.elements.length)
      (defs.map ElementDefinition.row) none ∈ pair.source.items ∧
    ∀ e ∈ defs, e.value = none ∧ e.min = none ∧ e.max = none
  lists : ∃ defs : List ListDefinition,
    Item.object (.table "T_osy_dpa_list_definition" x.datapool.listTableName x.datapool.lists.length)
      (defs.map ListDefinition.row) none ∈ pair.source.items ∧
    ∀ l ∈ defs, l.dataSets = none ∧ l.values = none

/-! ## Storage of the owner -/

section Owner

variable {x : DatapoolCode} {id : Identifier} {l : ElementList} {pair : Pair}

theorem declaration_eq_memberText (e : Element) :
    e.declaration = memberText e.type.cType e.member (e.arraySize.map UInt32.toNat) := by
  unfold Element.declaration
  cases e.arraySize <;> rfl

theorem mem_filledLists : l ∈ x.datapool.filledLists ↔ l ∈ x.datapool.lists ∧ l.elements ≠ [] := by
  simp [Datapool.filledLists]

/-- The tables of a list with elements stand in the source. -/
theorem exists_listTables (id : Identifier) (values : List Item) {tables : List (List Item)}
    (htables : List.Forall₂ (fun l items => x.listTables l = .ok items) x.datapool.lists tables)
    (hl : l ∈ x.datapool.filledLists) :
    ∃ limits, (x.isOwn = true ∧ x.limits l = .ok limits ∨ x.isOwn = false ∧ limits = []) ∧
      ∀ i ∈ limits ++ [Item.blank, x.elementTable l], i ∈ x.sourceItems id values tables x.datapool.scratchBytes := by
  obtain ⟨hl, he⟩ := mem_filledLists.1 hl
  obtain ⟨items, hitems, h⟩ := exists_of_mem_left htables hl
  obtain ⟨h0, -⟩ | ⟨-, -, limits, hlimits, rfl⟩ := listTables_eq_ok.1 h
  · exact absurd h0 he
  · refine ⟨limits, hlimits, fun i hi => ?_⟩
    have hmem : i ∈ tables.flatten := List.mem_flatten.2 ⟨_, hitems, hi⟩
    unfold sourceItems
    simp only [List.mem_append, hmem, true_or, or_true]

theorem defines {scaling values : List Item} {tables : List (List Item)} {i : Item} (hown : x.isOwn = true)
    (hfits : ∀ l ∈ x.datapool.lists, ∀ e ∈ l.elements, e.Fits l.dataSets.length) (hi : x.values = .ok i)
    (hvalues : values = [Item.heading "Global Variables", i])
    (htables : List.Forall₂ (fun l items => x.listTables l = .ok items) x.datapool.lists tables) :
    x.Defines ⟨x.datapool.stem, ⟨x.headerItems id scaling⟩,
      ⟨x.sourceItems id values tables x.datapool.scratchBytes⟩⟩ := by
  have hlists (l : ElementList) (hl : l ∈ x.datapool.filledLists) :
      ∃ least greatest sets, l.IsStruct Element.min least ∧ l.IsStruct Element.max greatest ∧ HoldsDataSets l sets ∧
        Item.object (.record (x.datapool.listType l) (x.datapool.minName l)) least none ∈
          x.sourceItems id values tables x.datapool.scratchBytes ∧
        Item.object (.record (x.datapool.listType l) (x.datapool.maxName l)) greatest none ∈
          x.sourceItems id values tables x.datapool.scratchBytes ∧
        (l.dataSets ≠ [] →
          Item.object (.table (x.datapool.listType l) (x.datapool.dataSetName l) l.dataSets.length) sets none ∈
            x.sourceItems id values tables x.datapool.scratchBytes) := by
    obtain ⟨limits, hlimits, hsub⟩ := exists_listTables id values htables hl
    obtain ⟨-, hlimits⟩ | ⟨ho, -⟩ := hlimits
    · obtain ⟨least, greatest, sets, hleast, hgreatest, hsets, rfl⟩ :=
        limits_eq_ok hlimits (hfits l (mem_filledLists.1 hl).1)
      refine ⟨least, greatest, sets, hleast, hgreatest, hsets, hsub _ (by simp), hsub _ (by simp), fun hne => ?_⟩
      refine hsub _ (List.mem_append_left _ (List.mem_append_right _ ?_))
      rw [if_neg (by rwa [List.isEmpty_iff])]
      simp
    · rw [hown] at ho
      cases ho
  obtain ⟨rows, hrows, rfl⟩ := values_eq_ok hi hfits
  refine {
    valuesType := types_subset_header hown ?_
    listTypes := fun l hl => types_subset_header hown ?_
    values := ⟨rows, hrows, ?_⟩
    min := fun l hl => ?_
    max := fun l hl => ?_
    dataSets := fun l hl hne => ?_ }
  · exact List.mem_append_right _ (List.mem_singleton_self _)
  · simp only [← declaration_eq_memberText]
    refine List.mem_append_left _ (List.mem_append_right _ (List.mem_flatMap.2 ⟨l, hl, ?_⟩))
    exact List.mem_cons_self
  · unfold sourceItems
    rw [hvalues]
    simp
  · obtain ⟨least, -, -, hleast, -, -, hmem, -⟩ := hlists l hl
    exact ⟨least, hleast, hmem⟩
  · obtain ⟨-, greatest, -, -, hgreatest, -, -, hmem, -⟩ := hlists l hl
    exact ⟨greatest, hgreatest, hmem⟩
  · obtain ⟨-, -, sets, -, -, hsets, -, -, hmem⟩ := hlists l hl
    exact ⟨sets, hsets, hmem hne⟩

/-! ## Addresses of the owner -/

namespace Defines

variable (h : x.Defines pair)
include h

theorem hasMember_list (hl : l ∈ x.datapool.filledLists) :
    pair.HasMember x.datapool.valuesType (x.datapool.listType l) (Datapool.listMember l) none :=
  ⟨_, List.mem_append_left _ h.valuesType, List.mem_map.2 ⟨l, hl, rfl⟩⟩

theorem hasMember_element (hl : l ∈ x.datapool.filledLists) {e : Element} (he : e ∈ l.elements) :
    pair.HasMember (x.datapool.listType l) e.type.cType e.member (e.arraySize.map UInt32.toNat) :=
  ⟨_, List.mem_append_left _ (h.listTypes l hl), List.mem_map.2 ⟨e, he, rfl⟩⟩

theorem mem_objects_values : x.valuesObject .shared ∈ pair.objects := by
  obtain ⟨rows, -, hmem⟩ := h.values
  exact Pair.mem_objects (List.mem_append_right _ hmem) rfl

theorem designates_list (hl : l ∈ x.datapool.filledLists) :
    pair.Designates ⟨x.datapool.valuesName, [Datapool.listMember l], none⟩ :=
  Pair.designates_member h.mem_objects_values rfl (.member (h.hasMember_list hl) (.here _ _)) (List.cons_ne_nil _ _)

theorem designates_value (hl : l ∈ x.datapool.filledLists) {e : Element} (he : e ∈ l.elements) :
    pair.Designates ⟨x.datapool.valuesName, [Datapool.listMember l, e.member], if e.isArray then some 0 else none⟩ := by
  rw [Element.isArray, ← Option.isSome_map (f := UInt32.toNat)]
  exact Pair.designates_member h.mem_objects_values rfl
    (.member (h.hasMember_list hl) (.member (h.hasMember_element hl he) (.here _ _))) (List.cons_ne_nil _ _)

/-- The cell of an element in a record of its list. -/
theorem designates_cell (hl : l ∈ x.datapool.filledLists) {e : Element} (he : e ∈ l.elements) {name : String}
    {rows : List Row} (hmem : Item.object (.record (x.datapool.listType l) name) rows none ∈ pair.source.items) :
    pair.Designates ⟨name, [e.member], if e.isArray then some 0 else none⟩ := by
  have ho := Pair.mem_objects (List.mem_append_right _ hmem) rfl
  rw [Element.isArray, ← Option.isSome_map (f := UInt32.toNat)]
  exact Pair.designates_member ho rfl (.member (h.hasMember_element hl he) (.here _ _)) (List.cons_ne_nil _ _)

theorem designates_dataSets (hl : l ∈ x.datapool.filledLists) (hne : l.dataSets.length ≠ 0) :
    pair.Designates (.item (x.datapool.dataSetName l) 0) := by
  obtain ⟨rows, -, hmem⟩ := h.dataSets l hl (List.length_pos_iff.1 (Nat.pos_of_ne_zero hne))
  exact Pair.designates_item (Pair.mem_objects (List.mem_append_right _ hmem) rfl) rfl (Nat.pos_of_ne_zero hne)

/-- The cells of an element definition. -/
theorem designates_definition (hl : l ∈ x.datapool.filledLists) {e : Element} (he : e ∈ l.elements) {size : Nat}
    {p : Place} (hp : (x.elementDefinition l e size).value = some p ∨ (x.elementDefinition l e size).min = some p ∨
      (x.elementDefinition l e size).max = some p) : pair.Designates p := by
  obtain ⟨least, -, hleast⟩ := h.min l hl
  obtain ⟨greatest, -, hgreatest⟩ := h.max l hl
  have hcell {object : String} {members : List String} (hq : pair.Designates
      ⟨object, members ++ [e.member], if e.isArray then some 0 else none⟩)
      (hp : (if x.isOwn then some (⟨object, members ++ [e.member], if e.isArray then some 0 else none⟩ : Place)
        else none) = some p) : pair.Designates p := by
    split at hp
    · exact Option.some.inj hp ▸ hq
    · cases hp
  obtain hp | hp | hp := hp
  · exact hcell (h.designates_value hl he) hp
  · exact hcell (h.designates_cell hl he hleast) hp
  · exact hcell (h.designates_cell hl he hgreatest) hp

end Defines

end Owner

/-! ## Every application -/

section Items

variable {x : DatapoolCode} {id : Identifier} {pair : Pair} {p : Place}

theorem mem_places_elementDefinition {e : ElementDefinition} (h : p ∈ e.row.places) :
    e.value = some p ∨ e.min = some p ∨ e.max = some p := by
  simpa [ElementDefinition.row, Row.commented, Row.places, Expr.places, Expr.placesList] using h

/-- Only lists with elements have addresses in the table of lists, and only the owner's have storage. -/
theorem mem_places_listDefinition {l : ElementList} (h : p ∈ (x.listDefinition l).row.places) :
    l.elements ≠ [] ∧ (p = .item (x.datapool.elementTableName l) 0 ∨ (x.isOwn = true ∧
      (l.dataSets.length ≠ 0 ∧ p = .item (x.datapool.dataSetName l) 0 ∨
        p = ⟨x.datapool.valuesName, [Datapool.listMember l], none⟩))) := by
  have hpointers : (x.listDefinition l).elements = some p ∨ (x.listDefinition l).dataSets = some p ∨
      (x.listDefinition l).values = some p := by
    simpa [ListDefinition.row, Row.noted, Row.pointer, Row.places, Row.placesList, Expr.places] using h
  unfold listDefinition at hpointers
  cases he : l.elements with
  | nil => simp [he] at hpointers
  | cons e es =>
    refine ⟨List.cons_ne_nil _ _, ?_⟩
    cases ho : x.isOwn <;> simp only [he, ho] at hpointers
    · obtain hp | hp | hp := hpointers
      · exact .inl (Option.some.inj hp).symm
      · cases hp
      · cases hp
    · obtain hp | hp | hp := hpointers
      · exact .inl (Option.some.inj hp).symm
      · have hne : l.dataSets.length ≠ 0 := fun h0 => by
          rw [h0] at hp
          cases hp
        exact .inr ⟨rfl, .inl ⟨hne, Pointer.slice_eq_some hp⟩⟩
      · exact .inr ⟨rfl, .inr (Option.some.inj hp).symm⟩

theorem mem_places_recordRows {length : Nat} (h : p ∈ Row.placesList (x.recordRows length)) :
    p = .item x.datapool.listTableName 0 ∨ (x.hasRemoteInfo = true ∧ p = .whole x.datapool.remoteInfoName) ∨
      (x.hasScratchBuffer = true ∧ p = .item x.datapool.scratchName 0) := by
  obtain ⟨r, hr, hp⟩ := Row.mem_placesList.1 h
  simp only [recordRows, List.mem_append, List.mem_cons, List.not_mem_nil, or_false] at hr
  obtain (((rfl | rfl | rfl | rfl | rfl) | hr) | hr) | (rfl | rfl) := hr
  · cases hp
  · cases hp
  · cases hp
  · cases hp
  · exact .inl (List.mem_singleton.1 hp)
  · split at hr
    · rename_i hremote
      obtain rfl := List.mem_singleton.1 hr
      exact .inr (.inl ⟨hremote, List.mem_singleton.1 hp⟩)
    · cases hr
  · split at hr
    · cases hr
    · split at hr
      · rename_i hscratch
        simp only [List.mem_cons, List.not_mem_nil, or_false] at hr
        obtain rfl | rfl := hr
        · exact .inr (.inr ⟨hscratch, List.mem_singleton.1 hp⟩)
        · cases hp
      · simp only [List.mem_cons, List.not_mem_nil, or_false] at hr
        obtain rfl | rfl := hr <;> cases hp
  · cases hp
  · cases hp

end Items

/-! ## The source -/

section Source

variable {x : DatapoolCode} {id : Identifier} {scaling values : List Item} {tables : List (List Item)} {l : ElementList}

/-- The pair of these parts. -/
def pairOf (x : DatapoolCode) (id : Identifier) (scaling values : List Item) (tables : List (List Item)) : Pair :=
  ⟨x.datapool.stem, ⟨x.headerItems id scaling⟩, ⟨x.sourceItems id values tables x.datapool.scratchBytes⟩⟩

theorem accepts_limits {limits : List Item} {pair : Pair}
    (hfits : ∀ e ∈ l.elements, e.Fits l.dataSets.length) (hlimits : x.limits l = .ok limits) :
    ∀ i ∈ limits, pair.Accepts i := by
  obtain ⟨least, greatest, sets, hleast, hgreatest, hsets, rfl⟩ := limits_eq_ok hlimits hfits
  intro i hi
  rcases List.mem_append.1 hi with hi | hi
  · simp only [List.mem_cons, List.not_mem_nil, or_false] at hi
    obtain rfl | rfl | rfl | rfl := hi
    · exact Pair.accepts_of_places_eq_nil trivial rfl
    · exact Pair.accepts_of_places_eq_nil (.inl rfl) hleast.places_eq_nil
    · exact Pair.accepts_of_places_eq_nil trivial rfl
    · exact Pair.accepts_of_places_eq_nil (.inl rfl) hgreatest.places_eq_nil
  · split at hi
    · cases hi
    · simp only [List.mem_cons, List.not_mem_nil, or_false] at hi
      obtain rfl | rfl := hi
      · exact Pair.accepts_of_places_eq_nil trivial rfl
      · have hlength : l.dataSets.length = sets.length := by
          have := List.Forall₂.length_eq hsets
          rwa [List.length_zipIdx] at this
        exact Pair.accepts_of_places_eq_nil (.inr (hlength ▸ rfl)) hsets.places_eq_nil

variable (htables : List.Forall₂ (fun l items => x.listTables l = .ok items) x.datapool.lists tables)
include htables

theorem designates_elementTable (hl : l ∈ x.datapool.filledLists) :
    (x.pairOf id scaling values tables).Designates (.item (x.datapool.elementTableName l) 0) := by
  obtain ⟨limits, -, hsub⟩ := exists_listTables id values htables hl
  have hmem : x.elementTable l ∈ (x.pairOf id scaling values tables).items :=
    List.mem_append_right _ (hsub _ (by simp))
  have ho : Object.table "T_osy_dpa_element_definition" (x.datapool.elementTableName l) l.elements.length ∈
      (x.pairOf id scaling values tables).objects := Pair.mem_objects hmem rfl
  exact Pair.designates_item ho rfl (List.length_pos_iff.2 (mem_filledLists.1 hl).2)

/-- The addresses in the table of lists. -/
theorem accepts_listTable (hdefines : x.isOwn = true → x.Defines (x.pairOf id scaling values tables)) :
    ∀ i ∈ x.listTable, (x.pairOf id scaling values tables).Accepts i := by
  intro i hi
  simp only [listTable, List.mem_cons, List.not_mem_nil, or_false] at hi
  obtain rfl | rfl := hi
  · exact Pair.accepts_of_places_eq_nil trivial rfl
  refine ⟨.inr (by rw [List.length_map]; rfl), fun p hp => ?_⟩
  obtain ⟨r, hr, hp⟩ := Row.mem_placesList.1 hp
  obtain ⟨l, hl, rfl⟩ := List.mem_map.1 hr
  obtain ⟨he, rfl | ⟨ho, ⟨hne, rfl⟩ | rfl⟩⟩ := mem_places_listDefinition hp
  · exact designates_elementTable htables (mem_filledLists.2 ⟨hl, he⟩)
  · exact (hdefines ho).designates_dataSets (mem_filledLists.2 ⟨hl, he⟩) hne
  · exact (hdefines ho).designates_list (mem_filledLists.2 ⟨hl, he⟩)

theorem accepts_tables (hfits : ∀ l ∈ x.datapool.lists, ∀ e ∈ l.elements, e.Fits l.dataSets.length)
    (hdefines : x.isOwn = true → x.Defines (x.pairOf id scaling values tables)) :
    ∀ i ∈ tables.flatten, (x.pairOf id scaling values tables).Accepts i := by
  intro i hi
  obtain ⟨items, hitems, hi⟩ := List.mem_flatten.1 hi
  obtain ⟨l, hl, h⟩ := exists_of_mem_right htables hitems
  obtain ⟨-, rfl⟩ | ⟨he, -, limits, hlimits, rfl⟩ := listTables_eq_ok.1 h
  · cases hi
  have hfilled : l ∈ x.datapool.filledLists := mem_filledLists.2 ⟨hl, he⟩
  rcases List.mem_append.1 hi with hi | hi
  · obtain ⟨-, hlimits⟩ | ⟨-, rfl⟩ := hlimits
    · exact accepts_limits (hfits l hl) hlimits i hi
    · cases hi
  simp only [List.mem_cons, List.not_mem_nil, or_false] at hi
  obtain rfl | rfl := hi
  · exact Pair.accepts_of_places_eq_nil trivial rfl
  refine ⟨.inr (by rw [List.length_map]; rfl), fun p hp => ?_⟩
  obtain ⟨r, hr, hp⟩ := Row.mem_placesList.1 hp
  obtain ⟨e, he, rfl⟩ := List.mem_map.1 hr
  have hpointers := mem_places_elementDefinition hp
  cases ho : x.isOwn with
  | true => exact (hdefines ho).designates_definition hfilled he hpointers
  | false => simp [elementDefinition, ho] at hpointers

omit htables in
/-- The record points to the table of lists, and to the remote info and the buffer if it has them. -/
theorem designates_of_mem_recordRows (hlists : x.datapool.lists ≠ []) {p : Place}
    (hp : p ∈ Row.placesList (x.recordRows x.datapool.scratchBytes)) :
    (x.pairOf id scaling values tables).Designates p := by
  have hmem {i : Item} (h : i ∈ x.sourceItems id values tables x.datapool.scratchBytes) {o : Object}
      (ho : i.object? = some o) : o ∈ (x.pairOf id scaling values tables).objects :=
    Pair.mem_objects (List.mem_append_right _ h) ho
  obtain rfl | ⟨hremote, rfl⟩ | ⟨hscratch, rfl⟩ := mem_places_recordRows hp
  · have ho := hmem (listTable_subset_source (.tail _ (.head _))) rfl
    exact Pair.designates_item ho rfl (List.length_pos_iff.2 hlists)
  · have ho := hmem (remoteInfo_subset_source hremote (.tail _ (.head _))) rfl
    exact Pair.designates_whole ho rfl
  · have ho := hmem (scratchBuffer_subset_source hscratch (.tail _ (.head _))) rfl
    exact Pair.designates_item ho rfl x.datapool.scratchBytes_pos

/-- **Every table has the length of its rows, and every address designates something that the pair declares.** -/
theorem accepts_source (hcheck : x.check.result = .ok ())
    (hvalues : ∀ i ∈ values, (x.pairOf id scaling values tables).Accepts i)
    (hdefines : x.isOwn = true → x.Defines (x.pairOf id scaling values tables)) :
    ∀ i ∈ x.sourceItems id values tables x.datapool.scratchBytes, (x.pairOf id scaling values tables).Accepts i := by
  obtain ⟨-, hfits⟩ := Datapool.fault?_eq_none.1 (check_eq_ok.1 hcheck).2
  intro i hi
  simp only [sourceItems, List.mem_append] at hi
  obtain ((((((hi | hi) | hi) | hi) | hi) | hi) | hi) | hi := hi
  · obtain ⟨-, hplaces, hcount⟩ := File.of_mem_sourceStart hi
    exact Pair.accepts_of_places_eq_nil hcount hplaces
  · exact hvalues i hi
  · obtain rfl := List.mem_singleton.1 hi
    exact Pair.accepts_of_places_eq_nil trivial rfl
  · exact accepts_tables htables (fun l hl => (hfits l hl).2) hdefines i hi
  · exact accepts_listTable htables hdefines i hi
  · split at hi
    · simp only [remoteInfo, List.mem_cons, List.not_mem_nil, or_false] at hi
      obtain rfl | rfl := hi
      · exact Pair.accepts_of_places_eq_nil trivial rfl
      · exact Pair.accepts_of_places_eq_nil (.inl rfl) rfl
    · cases hi
  · split at hi
    · simp only [scratchBuffer, List.mem_cons, List.not_mem_nil, or_false] at hi
      obtain rfl | rfl := hi <;> exact Pair.accepts_of_places_eq_nil trivial rfl
    · cases hi
  · simp only [List.mem_cons, List.not_mem_nil, or_false] at hi
    obtain rfl | rfl := hi
    · exact Pair.accepts_of_places_eq_nil trivial rfl
    · exact ⟨.inl rfl, fun p hp => designates_of_mem_recordRows (lists_ne_nil hcheck) hp⟩

end Source

/-! ## No storage of others -/

section Other

variable {x : DatapoolCode} {id : Identifier} {scaling : List Item} {tables : List (List Item)}

theorem objects_of_tables {lists : List ElementList} (hother : x.isOwn = false)
    (htables : List.Forall₂ (fun l items => x.listTables l = .ok items) lists tables) :
    tables.flatten.filterMap Item.object? = (lists.filter (!·.elements.isEmpty)).map fun l =>
      .table "T_osy_dpa_element_definition" (x.datapool.elementTableName l) l.elements.length := by
  induction htables with
  | nil => rfl
  | @cons l items lists tables h _ ih =>
    rw [List.flatten_cons, List.filterMap_append, ih]
    obtain ⟨he, rfl⟩ | ⟨he, -, limits, ⟨hown, -⟩ | ⟨-, rfl⟩, rfl⟩ := listTables_eq_ok.1 h
    · rw [List.filter_cons_of_neg (by simp [he])]
      rfl
    · rw [hother] at hown
      cases hown
    · rw [List.filter_cons_of_pos (by simp [he])]
      rfl

theorem object?_of_mem_listDefines {l : ElementList} {i : Item} (h : i ∈ x.listDefines l) : i.object? = none := by
  simp only [listDefines, List.mem_append, List.mem_cons, List.mem_map, List.not_mem_nil, or_false] at h
  obtain ((rfl | rfl) | ⟨_, _, rfl⟩) | rfl := h <;> rfl

theorem objects_of_header (hother : x.isOwn = false) :
    (⟨x.headerItems id []⟩ : File).objects = [.externRecord "T_osy_dpa_data_pool" x.datapool.recordName] := by
  have hstart (includes : List String) (brief : String) :
      (File.headerStart x.datapool.stem brief includes id).filterMap Item.object? = [] :=
    List.filterMap_eq_nil_iff.2 fun i hi => File.object?_of_mem_headerStart hi
  have hindices (f : ElementList × Nat → String) :
      (x.datapool.lists.zipIdx.map fun e => Item.define (f e) "" (.number e.2)).filterMap Item.object? = [] := by
    refine List.filterMap_eq_nil_iff.2 fun i hi => ?_
    obtain ⟨e, -, rfl⟩ := List.mem_map.1 hi
    rfl
  have hlists : (x.datapool.lists.flatMap x.listDefines).filterMap Item.object? = [] := by
    refine List.filterMap_eq_nil_iff.2 fun i hi => ?_
    obtain ⟨l, -, hi⟩ := List.mem_flatMap.1 hi
    exact object?_of_mem_listDefines hi
  unfold File.objects headerItems
  rw [hother]
  simp only [List.filterMap_append, hstart, hindices fun e => _, hlists]
  rfl

theorem objects_of_source (hother : x.isOwn = false)
    (htables : List.Forall₂ (fun l items => x.listTables l = .ok items) x.datapool.lists tables) :
    (⟨x.sourceItems id [] tables x.datapool.scratchBytes⟩ : File).objects =
      (x.datapool.filledLists.map fun l =>
        .table "T_osy_dpa_element_definition" (x.datapool.elementTableName l) l.elements.length) ++
      [.table "T_osy_dpa_list_definition" x.datapool.listTableName x.datapool.lists.length,
        .record "T_osy_dpa_remote_info" x.datapool.remoteInfoName,
        .sharedRecord "T_osy_dpa_data_pool" x.datapool.recordName] := by
  have hstart (includes : List String) (brief : String) :
      (File.sourceStart x.datapool.stem brief includes id).filterMap Item.object? = [] :=
    List.filterMap_eq_nil_iff.2 fun i hi => (File.of_mem_sourceStart hi).1
  have hremote : x.hasRemoteInfo = true := by
    have : x.linkage.isRemote = true := by simpa [isOwn] using hother
    rw [hasRemoteInfo, this, Bool.or_true]
  have hscratch : x.hasScratchBuffer = false := by
    rw [hasScratchBuffer, hother, Bool.and_false, Bool.false_and]
  unfold File.objects sourceItems
  rw [hremote, hscratch, if_pos rfl, if_neg (by decide)]
  simp only [List.filterMap_append, hstart, objects_of_tables hother htables, List.append_assoc]
  rfl

theorem refers (hother : x.isOwn = false)
    (htables : List.Forall₂ (fun l items => x.listTables l = .ok items) x.datapool.lists tables) :
    x.Refers (x.pairOf id [] [] tables) where
  header := objects_of_header hother
  source := objects_of_source hother htables
  elements l hl := by
    obtain ⟨limits, -, hsub⟩ := exists_listTables id [] htables hl
    refine ⟨l.elements.map fun e => x.elementDefinition l e e.bytes, ?_, fun e he => ?_⟩
    · rw [List.map_map]
      exact hsub _ (by simp [elementTable, Function.comp_def])
    · obtain ⟨e, -, rfl⟩ := List.mem_map.1 he
      simp [elementDefinition, hother]
  lists := by
    refine ⟨x.datapool.lists.map x.listDefinition, ?_, fun l hl => ?_⟩
    · rw [List.map_map]
      simp [pairOf, sourceItems, listTable, Function.comp_def]
    · obtain ⟨l, -, rfl⟩ := List.mem_map.1 hl
      simp [listDefinition, hother]

end Other

/-! ## The pair -/

theorem isOwn_iff {x : DatapoolCode} : x.isOwn = true ↔ x.linkage = .own := by
  simp [isOwn, Linkage.isRemote]

/-- **The initializers of a Datapool have the declared shape.** The owner defines the storage, every other application
none, and all addresses and lengths in the source are those of declared things. -/
theorem datapool_shape (x : DatapoolCode) (id : Identifier) (pair : Pair) (h : (x.generate id).result = .ok pair) :
    (x.linkage = .own → x.Defines pair) ∧ (x.linkage ≠ .own → x.Refers pair) ∧
      ∀ i ∈ pair.source.items, pair.Accepts i := by
  obtain ⟨hcheck, _, _, hheader, hsource, rfl⟩ := generate_eq_ok h
  have hfits (l : ElementList) (hl : l ∈ x.datapool.lists) : ∀ e ∈ l.elements, e.Fits l.dataSets.length :=
    ((Datapool.fault?_eq_none.1 (check_eq_ok.1 hcheck).2).2 l hl).2
  obtain ⟨scaling, hscaling, rfl⟩ := header_eq_ok.1 hheader
  obtain ⟨values, tables, ⟨hown, i, hi, hvalues⟩ | ⟨hother, rfl⟩, htables, -, rfl⟩ := source_eq_ok.1 hsource
  · have hdefines : x.Defines (x.pairOf id scaling values tables) := defines hown hfits hi hvalues htables
    refine ⟨fun _ => hdefines, fun hne => absurd (isOwn_iff.1 hown) hne,
      accepts_source htables hcheck ?_ fun _ => hdefines⟩
    obtain ⟨rows, hrows, rfl⟩ := values_eq_ok hi hfits
    intro i hi
    simp only [hvalues, List.mem_cons, List.not_mem_nil, or_false] at hi
    obtain rfl | rfl := hi
    · exact Pair.accepts_of_places_eq_nil trivial rfl
    · exact Pair.accepts_of_places_eq_nil (.inl rfl) hrows.places_eq_nil
  · have hnone : scaling = [] := by
      obtain ⟨hs, -⟩ | ⟨-, hs⟩ := hscaling
      · simp [hasScaling, hother] at hs
      · exact hs
    subst hnone
    refine ⟨fun ho => ?_, fun _ => refers hother htables, accepts_source htables hcheck ?_ ?_⟩
    · rw [isOwn_iff.2 ho] at hother
      cases hother
    · exact fun _ hi => nomatch hi
    · intro hown
      rw [hother] at hown
      cases hown

/-- A recipe with an array, two data sets and a list without elements, kept in non-volatile memory. -/
def recipe : Datapool where
  name := "Recipe"
  comment := ""
  kind := .nvm
  isSafety := true
  version := (1, 2, 3)
  owner := some 0
  isPrivate := false
  nvmStartAddress := 0
  nvmSize := 64
  lists := [
    { ElementList.new "Speeds" with
      nvmCrc := true
      dataSets := [⟨"Slow", ""⟩, ⟨"Fast", ""⟩]
      elements := [
        { Element.scalar "Limits" (.u16 1) (.u16 0) (.u16 9) with
          arraySize := some 2
          default := [.u16 1, .u16 2]
          min := [.u16 0, .u16 0]
          max := [.u16 8, .u16 9]
          dataSetValues := [[.u16 1, .u16 1], [.u16 7, .u16 8]] },
        { Element.scalar "Offset" (.s8 0) (.s8 (-128)) (.s8 127) with
          dataSetValues := [[.s8 (-1)], [.s8 1]] }] },
    ElementList.new "Spare"]

/-- The recipe for its owner, or for another application. -/
def recipeCode (linkage : Linkage) : DatapoolCode := ⟨"Mixer", recipe, 0, 5, false, linkage, 3, 1⟩

theorem datapool_shape_recipe :
    (∃ pair, ((recipeCode .own).generate ⟨"00000000"⟩).result = .ok pair ∧ (recipeCode .own).Defines pair ∧
      ∀ i ∈ pair.source.items, pair.Accepts i) ∧
    (∃ pair, ((recipeCode .remotePublic).generate ⟨"00000000"⟩).result = .ok pair ∧
      (recipeCode .remotePublic).Refers pair ∧ ∀ i ∈ pair.source.items, pair.Accepts i) := by
  obtain ⟨own, hown⟩ : ∃ pair, ((recipeCode .own).generate ⟨"00000000"⟩).result = .ok pair :=
    exists_eq_ok (by decide +kernel)
  obtain ⟨other, hother⟩ : ∃ pair, ((recipeCode .remotePublic).generate ⟨"00000000"⟩).result = .ok pair :=
    exists_eq_ok (by decide +kernel)
  have h := datapool_shape (recipeCode .own) ⟨"00000000"⟩ own hown
  have h' := datapool_shape (recipeCode .remotePublic) ⟨"00000000"⟩ other hother
  exact ⟨⟨own, hown, h.1 rfl, h.2.2⟩, other, hother, h'.2.1 (by decide), h'.2.2⟩

end DatapoolCode

end BusNode
