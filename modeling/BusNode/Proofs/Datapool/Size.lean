import BusNode.Proofs.Code.Size
import BusNode.Proofs.Datapool.Shape
/-!
# Arrays of a Datapool pair

Every table of the pair has rows. The record types have members of the sizes of the elements.

* `DatapoolCode.recordTypes` — the record types that the owner defines;
* `DatapoolCode.isSized_of_generate` — the tables have items, and no other record type is defined;
* `DatapoolCode.hasItems_iff` — the members have items just if no element is an array of none.
-/

namespace BusNode.DatapoolCode

variable {number? : String → Option Nat} {types : List RecordType} {id : Identifier} {p : Pair} {x : DatapoolCode}
  {l : ElementList} {items : List Item}

/-! ## Record types -/

/-- The record types of the values object and its members. -/
def recordTypes (x : DatapoolCode) : List RecordType :=
  (x.datapool.filledLists.map fun l =>
    ⟨x.datapool.listType l, l.elements.map fun e => ⟨e.type.cType, e.member, e.arraySize.map UInt32.toNat⟩⟩) ++
  [⟨x.datapool.valuesType,
    x.datapool.filledLists.map fun l => ⟨x.datapool.listType l, Datapool.listMember l, none⟩⟩]

theorem item_listType (l : ElementList) :
    RecordType.item ⟨x.datapool.listType l,
      l.elements.map fun e => ⟨e.type.cType, e.member, e.arraySize.map UInt32.toNat⟩⟩ =
    .recordType (x.datapool.listType l) (l.elements.map Element.declaration) := by
  unfold RecordType.item
  rw [List.map_map]
  exact congrArg _ (List.map_congr_left fun e _ => (declaration_eq_memberText e).symm)

theorem item_valuesType (x : DatapoolCode) :
    RecordType.item ⟨x.datapool.valuesType,
      x.datapool.filledLists.map fun l => ⟨x.datapool.listType l, Datapool.listMember l, none⟩⟩ =
    .recordType x.datapool.valuesType
      (x.datapool.filledLists.map fun l => s!"{x.datapool.listType l} {Datapool.listMember l};") := by
  unfold RecordType.item
  rw [List.map_map]
  rfl

/-- The record types stand in the header of the owner, and nothing else does that declares something. -/
theorem isSized_types (hsub : ∀ t ∈ x.recordTypes, t ∈ types) : ∀ i ∈ x.types, i.IsSized number? types := by
  intro i hi
  simp only [DatapoolCode.types, List.mem_append, List.mem_cons, List.mem_flatMap, List.not_mem_nil, or_false] at hi
  obtain (rfl | ⟨l, hl, rfl | rfl⟩) | rfl := hi
  · trivial
  · exact ⟨_, hsub _ (List.mem_append_left _ (List.mem_map_of_mem hl)), item_listType l⟩
  · trivial
  · exact ⟨_, hsub _ (List.mem_append_right _ (List.mem_singleton_self _)), item_valuesType x⟩

theorem item_mem_types {t : RecordType} (ht : t ∈ x.recordTypes) : t.item ∈ x.types := by
  rcases List.mem_append.1 ht with ht | ht
  · obtain ⟨l, hl, rfl⟩ := List.mem_map.1 ht
    rw [item_listType]
    exact List.mem_append_left _ (List.mem_append_right _ (List.mem_flatMap.2 ⟨l, hl, .head _⟩))
  · obtain rfl := List.mem_singleton.1 ht
    rw [item_valuesType]
    exact List.mem_append_right _ (List.mem_singleton_self _)

/-! ## Header -/

theorem isSized_scaling (h : x.scaling = .ok items) : ∀ i ∈ items, i.IsSized number? types := by
  intro i hi
  obtain rfl | ⟨-, -, -, rfl⟩ := mem_scaling h hi <;> trivial

theorem isSized_listDefines : ∀ i ∈ x.listDefines l, i.IsSized number? types := by
  intro i hi
  simp only [listDefines, List.mem_append, List.mem_cons, List.mem_map, List.not_mem_nil, or_false] at hi
  obtain ((rfl | rfl) | ⟨_, _, rfl⟩) | rfl := hi <;> trivial

theorem isSized_header {scaling : List Item} (hsub : x.isOwn = true → ∀ t ∈ x.recordTypes, t ∈ types)
    (hscaling : ∀ i ∈ scaling, i.IsSized number? types) : ∀ i ∈ x.headerItems id scaling, i.IsSized number? types := by
  intro i hi
  simp only [headerItems, List.mem_append, List.mem_cons, List.mem_map, List.mem_flatMap, List.not_mem_nil,
    or_false] at hi
  obtain ((((((((hi | hi) | hi) | hi) | hi) | hi) | hi) | hi) | hi) | hi := hi
  · exact File.isSized_headerStart i hi
  · obtain rfl | rfl | rfl | rfl := hi <;> trivial
  · obtain ⟨_, _, rfl⟩ := hi
    trivial
  · obtain ⟨l, -, hi⟩ := hi
    exact isSized_listDefines i hi
  · exact hscaling i hi
  · split at hi
    · exact isSized_types (hsub (by assumption)) i hi
    · cases hi
  · obtain rfl := hi
    trivial
  · split at hi
    · obtain rfl := List.mem_singleton.1 hi
      exact Object.hasItems_of_length rfl
    · cases hi
  · obtain rfl := hi
    exact Object.hasItems_of_length rfl
  · exact File.isSized_headerEnd i hi

/-! ## Source -/

/-- A list has a table of data sets only if it has data sets. -/
theorem isSized_limits (h : x.limits l = .ok items) : ∀ i ∈ items, i.IsSized number? types := by
  obtain ⟨least, -, h⟩ := bind_eq_ok.1 h
  obtain ⟨greatest, -, h⟩ := bind_eq_ok.1 h
  obtain ⟨sets, -, h⟩ := bind_eq_ok.1 h
  rw [← pure_eq_ok.1 h]
  intro i hi
  rcases List.mem_append.1 hi with hi | hi
  · simp only [List.mem_cons, List.not_mem_nil, or_false] at hi
    obtain rfl | rfl | rfl | rfl := hi
    · trivial
    · exact Object.hasItems_of_length rfl
    · trivial
    · exact Object.hasItems_of_length rfl
  · split at hi
    · cases hi
    · rename_i hsets
      exact Item.isSized_after_blank hi (Object.hasItems_table _ _ (mt List.isEmpty_iff_length_eq_zero.2 hsets))

/-- A list has a table of elements only if it has elements. -/
theorem isSized_listTables (h : x.listTables l = .ok items) : ∀ i ∈ items, i.IsSized number? types := by
  obtain ⟨-, rfl⟩ | ⟨helements, -, limits, hlimits, rfl⟩ := listTables_eq_ok.1 h
  · exact fun i hi => nomatch hi
  · intro i hi
    rcases List.mem_append.1 hi with hi | hi
    · obtain ⟨-, hlimits⟩ | ⟨-, rfl⟩ := hlimits
      · exact isSized_limits hlimits i hi
      · cases hi
    · exact Item.isSized_after_blank hi (Object.hasItems_table _ _ (mt List.length_eq_zero_iff.1 helements))

theorem isSized_source {values : List Item} {tables : List (List Item)} (hlists : x.datapool.lists ≠ [])
    (hvalues : ∀ i ∈ values, i.IsSized number? types)
    (htables : List.Forall₂ (fun l items => x.listTables l = .ok items) x.datapool.lists tables) :
    ∀ i ∈ x.sourceItems id values tables x.datapool.scratchBytes, i.IsSized number? types := by
  intro i hi
  simp only [sourceItems, List.mem_append] at hi
  obtain ((((((hi | hi) | hi) | hi) | hi) | hi) | hi) | hi := hi
  · exact File.isSized_sourceStart i hi
  · exact hvalues i hi
  · obtain rfl := List.mem_singleton.1 hi
    trivial
  · obtain ⟨items, hitems, hi⟩ := List.mem_flatten.1 hi
    obtain ⟨l, -, hl⟩ := exists_of_mem_right htables hitems
    exact isSized_listTables hl i hi
  · exact Item.isSized_after_blank hi (Object.hasItems_table _ _ (mt List.length_eq_zero_iff.1 hlists))
  · split at hi
    · exact Item.isSized_after_blank hi (Object.hasItems_of_length rfl)
    · cases hi
  · split at hi
    · refine Item.isSized_after_blank hi ?_
      rintro _ ⟨⟩
      exact ⟨_, rfl, x.datapool.scratchBytes_pos⟩
    · cases hi
  · simp only [List.mem_cons, List.not_mem_nil, or_false] at hi
    obtain rfl | rfl := hi
    · trivial
    · exact Object.hasItems_of_length rfl

/-! ## The pair -/

/-- The values object is a record, and every table of the pair has rows. -/
theorem isSized_of_generate (h : (x.generate id).result = .ok p)
    (hsub : x.isOwn = true → ∀ t ∈ x.recordTypes, t ∈ types) : ∀ i ∈ p.items, i.IsSized number? types := by
  obtain ⟨hcheck, header, source, hheader, hsource, rfl⟩ := generate_eq_ok h
  obtain ⟨scaling, hscaling, rfl⟩ := header_eq_ok.1 hheader
  obtain ⟨values, tables, hvalues, htables, -, rfl⟩ := source_eq_ok.1 hsource
  have hscaling : ∀ i ∈ scaling, i.IsSized number? types := by
    obtain ⟨-, hscaling⟩ | ⟨-, rfl⟩ := hscaling
    · exact isSized_scaling hscaling
    · exact fun i hi => nomatch hi
  have hvalues : ∀ i ∈ values, i.IsSized number? types := by
    obtain ⟨-, v, hv, rfl⟩ | ⟨-, rfl⟩ := hvalues
    · obtain ⟨rows, -, hv⟩ := bind_eq_ok.1 hv
      obtain rfl := pure_eq_ok.1 hv
      intro i hi
      simp only [List.mem_cons, List.not_mem_nil, or_false] at hi
      obtain rfl | rfl := hi
      · trivial
      · exact Object.hasItems_of_length rfl
    · exact fun i hi => nomatch hi
  intro i hi
  rcases List.mem_append.1 hi with hi | hi
  · exact isSized_header hsub hscaling i hi
  · exact isSized_source (lists_ne_nil hcheck) hvalues htables i hi

theorem item_mem_of_generate (h : (x.generate id).result = .ok p) (hown : x.isOwn = true) {t : RecordType}
    (ht : t ∈ x.recordTypes) : t.item ∈ p.items := by
  obtain ⟨-, header, source, hheader, -, rfl⟩ := generate_eq_ok h
  obtain ⟨scaling, -, rfl⟩ := header_eq_ok.1 hheader
  exact List.mem_append_left _ (types_subset_header hown (item_mem_types ht))

/-- **The members of the record types have items just if no element is an array of none.** -/
theorem hasItems_iff : (∀ t ∈ x.recordTypes, t.HasItems) ↔
    ∀ l ∈ x.datapool.lists, ∀ e ∈ l.elements, e.arraySize ≠ some 0 := by
  constructor
  · intro h l hl e he hzero
    have hfilled : l ∈ x.datapool.filledLists := mem_filledLists.2 ⟨hl, List.ne_nil_of_mem he⟩
    have hpos := h _ (List.mem_append_left _ (List.mem_map_of_mem hfilled)) _ (List.mem_map_of_mem he) 0
      (by rw [hzero]; rfl)
    exact Nat.lt_irrefl 0 hpos
  · intro h t ht m hm n hn
    rcases List.mem_append.1 ht with ht | ht
    · obtain ⟨l, hl, rfl⟩ := List.mem_map.1 ht
      obtain ⟨e, he, rfl⟩ := List.mem_map.1 hm
      obtain ⟨size, hsize, rfl⟩ := Option.map_eq_some_iff.1 hn
      refine Nat.pos_of_ne_zero fun hzero => h l (mem_filledLists.1 hl).1 e he ?_
      rw [hsize, UInt32.toNat_inj.1 (hzero.trans UInt32.toNat_zero.symm)]
    · obtain rfl := List.mem_singleton.1 ht
      obtain ⟨l, -, rfl⟩ := List.mem_map.1 hm
      cases hn

end BusNode.DatapoolCode
