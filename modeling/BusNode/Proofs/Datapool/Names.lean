import BusNode.Proofs.Code.Names
import BusNode.Proofs.Datapool.Identity
/-!
# Names in the header of a Datapool

All names that the header defines begin with that of the Datapool. What comes after it is a key: of the Datapool
itself, of the index of a list, or of a list and of what is said of it.

* `DatapoolCode.keys` — all keys; `DatapoolCode.definedNames_header` — they are what the header defines;
* `DatapoolCode.typeNames_header` — the types that it defines.
-/

namespace BusNode

namespace DatapoolCode

variable {x : DatapoolCode} {id : Identifier} {l : ElementList} {t : String}

/-! ## Keys -/

/-- The keys of a Datapool, whatever its lists are. -/
def ownKeys (id : Identifier) : List String :=
  ["DATA_POOL_H", "DATA_POOL_PROJECT_ID" ++ "_" ++ id.digits, "DATA_POOL_INDEX", "NUMBER_OF_LISTS"]

/-- The key of the index of a list. -/
def indexKey (l : ElementList) : String := "LIST_INDEX" ++ "_" ++ upper l.name

/-- After the name of a list, the names of the indices of its elements. -/
def indexEndings (l : ElementList) : List String := l.elements.map fun e => "INDEX" ++ "_" ++ upper e.name

/-- After the name of a list, the names of the scaling definitions of its elements. -/
def scalingEndings (x : DatapoolCode) (l : ElementList) : List String :=
  if x.hasScaling then
    (l.elements.filter Element.isScaled).flatMap fun e =>
      [upper e.name ++ "_" ++ "GET_SCALED", upper e.name ++ "_" ++ "SET_SCALED"]
  else []

/-- After the name of a list, the names of its numbers and indices. -/
def numberEndings (l : ElementList) : List String :=
  ["NUMBER_OF_ELEMENTS"] ++ indexEndings l ++ ["NUMBER_OF_DATASETS"]

/-- All that the names of a list go on with after its own name. -/
def endings (x : DatapoolCode) (l : ElementList) : List String := numberEndings l ++ x.scalingEndings l

/-- The keys of a list. -/
def listKeys (x : DatapoolCode) (l : ElementList) : List String := (x.endings l).map (upper l.name ++ "_" ++ ·)

def keys (x : DatapoolCode) (id : Identifier) : List String :=
  ownKeys id ++ x.datapool.lists.map indexKey ++ x.datapool.lists.flatMap x.listKeys

/-! ### Numbers and indices of a list -/

theorem mem_indexEndings : t ∈ indexEndings l ↔ ∃ e ∈ l.elements, t = "INDEX" ++ "_" ++ upper e.name := by
  simp [indexEndings, eq_comm]

/-- The first word of a key tells a number from an index. -/
theorem notMem_indexEndings {w : List Char} (ht : (words t).head? = some w) (hw : w ≠ "INDEX".toList) :
    t ∉ indexEndings l := by
  intro hmem
  have hindex : words "INDEX" = ["INDEX".toList] := by decide
  obtain ⟨e, -, rfl⟩ := mem_indexEndings.1 hmem
  rw [words_join, hindex] at ht
  exact hw (Option.some.inj ht).symm

theorem nodup_indexEndings_iff : (indexEndings l).Nodup ↔ (l.elements.map fun e => upper e.name).Nodup := by
  have hnames : indexEndings l = (l.elements.map fun e => upper e.name).map ("INDEX" ++ "_" ++ ·) := by
    rw [List.map_map]
    rfl
  rw [hnames, List.nodup_map_iff fun s t => join_right_inj.1]

/-- A number is not called like an index. -/
theorem nodup_numberEndings_iff : (numberEndings l).Nodup ↔ (l.elements.map fun e => upper e.name).Nodup := by
  have helements : "NUMBER_OF_ELEMENTS" ∉ indexEndings l :=
    notMem_indexEndings (w := "NUMBER".toList) (by decide) (by decide)
  have hdataSets : "NUMBER_OF_DATASETS" ∉ indexEndings l :=
    notMem_indexEndings (w := "NUMBER".toList) (by decide) (by decide)
  have hne : "NUMBER_OF_ELEMENTS" ≠ "NUMBER_OF_DATASETS" := by decide
  simp [numberEndings, List.nodup_append', helements, hdataSets, hne, nodup_indexEndings_iff]

/-! ## Names of the header -/

theorem upper_stem (d : Datapool) : upper d.stem = upper d.name ++ "_DATA_POOL" := by
  have hending : upper "_data_pool" = "_DATA_POOL" := by
    rw [← String.toList_inj, toList_upper]
    decide
  unfold Datapool.stem
  rw [upper_append, upper_lower, hending]

theorem definedNames_start (brief : String) (includes : List String) :
    File.definedNames ⟨File.headerStart x.datapool.stem brief includes id ++ [Item.blank,
      .define s!"{upper x.datapool.name}_DATA_POOL_INDEX" "" (.number x.indexInApplication),
      .define s!"{upper x.datapool.name}_NUMBER_OF_LISTS" "" (.number x.datapool.lists.length), .blank]⟩ =
      (ownKeys id).map (upper x.datapool.name ++ "_" ++ ·) := by
  have hsymbol : "_DATA_POOL" ++ ("_PROJECT_ID_" ++ id.digits) =
      "_" ++ ("DATA_POOL_PROJECT_ID" ++ ("_" ++ id.digits)) := by
    simp only [← String.append_assoc]
    rfl
  rw [File.definedNames_append, File.definedNames_headerStart, Identifier.symbol, upper_stem]
  simp only [ownKeys, toString, List.map_cons, List.map_nil, String.append_assoc, hsymbol]
  rfl

theorem indexKey_eq (s : String) (l : ElementList) :
    s ++ "_LIST_INDEX_" ++ upper l.name = s ++ "_" ++ indexKey l := by
  have hliteral : "_LIST_INDEX_" = "_" ++ "LIST_INDEX" ++ "_" := rfl
  rw [hliteral, indexKey]
  simp only [String.append_assoc]

theorem definedNames_indices : File.definedNames ⟨x.datapool.lists.zipIdx.map fun (l, i) =>
      Item.define s!"{upper x.datapool.name}_LIST_INDEX_{upper l.name}" "" (.number i)⟩ =
    (x.datapool.lists.map indexKey).map (upper x.datapool.name ++ "_" ++ ·) := by
  rw [List.map_map]
  refine File.definedNames_zipIdx x.datapool.lists fun a => ?_
  exact congrArg some (indexKey_eq (upper x.datapool.name) a.1)

theorem definedNames_listDefines (l : ElementList) : File.definedNames ⟨x.listDefines l⟩ =
    (numberEndings l).map (upper x.datapool.name ++ "_" ++ upper l.name ++ "_" ++ ·) := by
  have hliteral : "_INDEX_" = "_" ++ "INDEX" ++ "_" := rfl
  have helements : File.definedNames ⟨l.elements.zipIdx.map fun a =>
      Item.define (upper x.datapool.name ++ "_" ++ upper l.name ++ "_INDEX_" ++ upper a.1.name) "" (.number a.2)⟩ =
      (indexEndings l).map (upper x.datapool.name ++ "_" ++ upper l.name ++ "_" ++ ·) := by
    rw [indexEndings, List.map_map]
    refine File.definedNames_zipIdx l.elements fun a => congrArg some ?_
    simp only [hliteral, Function.comp_apply, String.append_assoc]
  unfold listDefines numberEndings
  rw [File.definedNames_append, File.definedNames_append, List.map_append, List.map_append, ← helements]
  simp only [toString, List.map_cons, List.map_nil, String.append_assoc]
  rfl

/-- The numbers and indices of a list are defined once just if its elements have different names. -/
theorem nodup_listDefines_iff :
    (File.definedNames ⟨x.listDefines l⟩).Nodup ↔ (l.elements.map fun e => upper e.name).Nodup := by
  rw [definedNames_listDefines, List.nodup_map_iff fun s t => join_right_inj.1, nodup_numberEndings_iff]

theorem definedNames_scalingDefines {e : Element} {items : List Item} (h : x.scalingDefines l e = .ok items) :
    File.definedNames ⟨items⟩ =
      [upper e.name ++ "_" ++ "GET_SCALED", upper e.name ++ "_" ++ "SET_SCALED"].map
        (upper x.datapool.name ++ "_" ++ upper l.name ++ "_" ++ ·) := by
  obtain ⟨factor, -, h⟩ := bind_eq_ok.1 h
  obtain ⟨offset, -, h⟩ := bind_eq_ok.1 h
  obtain rfl := pure_eq_ok.1 h
  simp only [List.map_cons, List.map_nil, String.append_assoc]
  simp only [File.definedNames, List.filterMap_cons, Item.definedName?, toString, String.append_assoc]
  rfl

/-- The scaling definitions are those of the elements that have some, list by list. -/
theorem definedNames_scaling {items : List Item}
    (h : x.hasScaling = true ∧ x.scaling = .ok items ∨ x.hasScaling = false ∧ items = []) :
    File.definedNames ⟨items⟩ = x.datapool.lists.flatMap fun l =>
      (x.scalingEndings l).map (upper x.datapool.name ++ "_" ++ upper l.name ++ "_" ++ ·) := by
  obtain ⟨hscaling, h⟩ | ⟨hscaling, rfl⟩ := h
  · obtain ⟨defines, hdefines, h⟩ := bind_eq_ok.1 h
    have hnames : File.definedNames ⟨defines.flatten⟩ = (scaled x.datapool).flatMap fun p =>
        [upper p.2.name ++ "_" ++ "GET_SCALED", upper p.2.name ++ "_" ++ "SET_SCALED"].map
          (upper x.datapool.name ++ "_" ++ upper p.1.name ++ "_" ++ ·) :=
      File.definedNames_flatten ((mapM_eq_ok.1 hdefines).imp fun _ _ => definedNames_scalingDefines)
    have hitems : File.definedNames ⟨items⟩ = File.definedNames ⟨defines.flatten⟩ := by
      rw [← pure_eq_ok.1 h]
      split
      · rename_i hempty
        have hnil : defines = [] := by
          have hlength := (mapM_eq_ok.1 hdefines).length_eq
          rw [List.isEmpty_iff.1 hempty] at hlength
          exact List.length_eq_zero_iff.1 hlength.symm
        rw [hnil]
        rfl
      · rfl
    rw [hitems, hnames, scaled, List.flatMap_assoc]
    refine List.flatMap_congr fun l _ => ?_
    rw [scalingEndings, if_pos hscaling, List.flatMap_map, List.map_flatMap]
  · symm
    refine List.flatMap_eq_nil_iff.2 fun l _ => ?_
    rw [scalingEndings, hscaling]
    rfl

theorem definedNames_types : File.definedNames ⟨if x.isOwn then x.types else []⟩ = [] := by
  split
  · have hlists : x.datapool.filledLists.flatMap (fun l => File.definedNames
        ⟨[Item.recordType (x.datapool.listType l) (l.elements.map Element.declaration), .blank]⟩) = [] :=
      List.flatMap_eq_nil_iff.2 fun _ _ => rfl
    unfold types
    rw [File.definedNames_append, File.definedNames_append, File.definedNames_flatMap, hlists]
    rfl
  · rfl

/-- **The header defines its keys**, each after the name of the Datapool. -/
theorem definedNames_header {header : File} (h : x.header id = .ok header) :
    header.definedNames.Perm ((x.keys id).map (upper x.datapool.name ++ "_" ++ ·)) := by
  obtain ⟨scaling, hscaling, rfl⟩ := header_eq_ok.1 h
  have hlists : (x.datapool.lists.flatMap (fun l => File.definedNames ⟨x.listDefines l⟩) ++
      File.definedNames ⟨scaling⟩).Perm
      ((x.datapool.lists.flatMap x.listKeys).map (upper x.datapool.name ++ "_" ++ ·)) := by
    rw [definedNames_scaling hscaling, List.map_flatMap]
    refine (List.flatMap_append_perm ..).trans (List.Perm.of_eq (List.flatMap_congr fun l _ => ?_))
    rw [definedNames_listDefines, listKeys, endings, ← List.map_append, List.map_map]
    refine List.map_congr_left fun t _ => ?_
    exact (join_assoc _ _ t).symm
  have hvalues : File.definedNames
      ⟨if x.isOwn then [Item.declare (x.valuesObject .external) (some x.placement)] else []⟩ = [] := by
    split <;> rfl
  have hglobals : File.definedNames ⟨[Item.heading "Global Variables"]⟩ = [] := rfl
  have hrecord : File.definedNames
      ⟨[Item.declare (.externRecord "T_osy_dpa_data_pool" x.datapool.recordName) none]⟩ = [] := rfl
  have hend : File.definedNames ⟨File.headerEnd⟩ = [] := rfl
  unfold headerItems
  iterate 8 rw [File.definedNames_append]
  rw [definedNames_start, definedNames_indices, File.definedNames_flatMap, definedNames_types, hvalues, hglobals,
    hrecord, hend, keys, List.map_append, List.map_append]
  simp only [List.append_nil, List.append_assoc]
  exact (hlists.append_left _).append_left _

/-! ## Types of the header -/

theorem typeName?_of_mem_scaling {items : List Item} (h : x.scaling = .ok items) : ∀ i ∈ items, i.typeName? = none := by
  intro i hi
  obtain rfl | ⟨-, -, -, rfl⟩ := mem_scaling h hi <;> rfl

theorem typeName?_of_mem_listDefines : ∀ i ∈ x.listDefines l, i.typeName? = none := by
  intro i hi
  simp only [listDefines, List.mem_append, List.mem_cons, List.mem_map, List.not_mem_nil, or_false] at hi
  obtain ((rfl | rfl) | ⟨_, _, rfl⟩) | rfl := hi <;> rfl

theorem typeNames_types :
    File.typeNames ⟨x.types⟩ = x.datapool.filledLists.map x.datapool.listType ++ [x.datapool.valuesType] := by
  have hlists : x.datapool.filledLists.map x.datapool.listType =
      x.datapool.filledLists.flatMap fun l => [x.datapool.listType l] := List.map_eq_flatMap
  unfold types
  rw [File.typeNames_append, File.typeNames_append, File.typeNames_flatMap, hlists]
  rfl

/-- **The owner defines the types of the lists with elements and that of the values**, and nobody else defines any. -/
theorem typeNames_header {header : File} (h : x.header id = .ok header) : header.typeNames =
    if x.isOwn then x.datapool.filledLists.map x.datapool.listType ++ [x.datapool.valuesType] else [] := by
  obtain ⟨scaling, hscaling, rfl⟩ := header_eq_ok.1 h
  have hscaling : File.typeNames ⟨scaling⟩ = [] := by
    obtain ⟨-, hscaling⟩ | ⟨-, rfl⟩ := hscaling
    · exact File.typeNames_eq_nil (typeName?_of_mem_scaling hscaling)
    · rfl
  have hindices : File.typeNames ⟨x.datapool.lists.zipIdx.map fun (l, i) =>
      Item.define s!"{upper x.datapool.name}_LIST_INDEX_{upper l.name}" "" (.number i)⟩ = [] := by
    refine File.typeNames_eq_nil fun i hi => ?_
    obtain ⟨a, -, rfl⟩ := List.mem_map.1 hi
    rfl
  have hlists : x.datapool.lists.flatMap (fun l => File.typeNames ⟨x.listDefines l⟩) = [] :=
    List.flatMap_eq_nil_iff.2 fun _ _ => File.typeNames_eq_nil typeName?_of_mem_listDefines
  have hend (names : List String) : names ++ [] ++ [] ++ [] ++ [] = names := by simp only [List.append_nil]
  unfold headerItems
  iterate 9 rw [File.typeNames_append]
  rw [File.typeNames_headerStart, hindices, File.typeNames_flatMap, hlists, hscaling]
  split
  · rw [typeNames_types]
    exact hend _
  · rfl

end DatapoolCode

end BusNode
