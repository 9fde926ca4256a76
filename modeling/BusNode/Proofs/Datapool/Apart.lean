import BusNode.Proofs.Datapool.Acceptance
import BusNode.Proofs.Datapool.Names
/-!
# Names of a Datapool apart

Names of lists and elements may have underscores, and names of the header are joined by underscores. So different names
can make one key.

* `DatapoolCode.NamesApart` — the names of lists and elements make no key twice; `DatapoolCode.nodup_keys_iff` — no key
  is made twice in another way;
* `DatapoolCode.PlainNames` — names that are apart, seen from each name;
* `DatapoolCode.header_names` — just where names are apart the header defines everything once;
  `names_redefined_rack` — names that are not.
-/

namespace BusNode

namespace DatapoolCode

variable {x : DatapoolCode} {id : Identifier} {l : ElementList} {t : String}

/-! ## Keys made once -/

/-- The names of lists and elements make no key twice. -/
structure NamesApart (x : DatapoolCode) : Prop where
  /-- No key of a list is the key of the index of a list. -/
  indices : ∀ l ∈ x.datapool.lists, ∀ l' ∈ x.datapool.lists, indexKey l ∉ x.listKeys l'
  /-- Where the name of a list extends that of another one, both together still make no key twice. -/
  lists : ∀ l ∈ x.datapool.lists, ∀ l' ∈ x.datapool.lists, ∀ r, upper l'.name = upper l.name ++ "_" ++ r →
    ∀ t ∈ x.endings l', r ++ "_" ++ t ∉ x.endings l
  /-- No index of an element is called like a scaling definition in its list. -/
  elements : ∀ l ∈ x.datapool.lists, ∀ t ∈ indexEndings l, t ∉ x.scalingEndings l

theorem mem_scalingEndings : t ∈ x.scalingEndings l ↔ x.hasScaling = true ∧ ∃ e ∈ l.elements, e.isScaled = true ∧
    (t = upper e.name ++ "_" ++ "GET_SCALED" ∨ t = upper e.name ++ "_" ++ "SET_SCALED") := by
  unfold scalingEndings
  split <;> simp [*, and_assoc]

theorem mem_endings : t ∈ x.endings l ↔
    t = "NUMBER_OF_ELEMENTS" ∨ t ∈ indexEndings l ∨ t = "NUMBER_OF_DATASETS" ∨ t ∈ x.scalingEndings l := by
  simp [endings, numberEndings]

/-! ### Keys of a list and keys of the Datapool -/

/-- The words of a key end as only a key of a list does, or have the word `INDEX` somewhere before the last one. -/
def IsOfList (ws : List (List Char)) : Prop :=
  (∃ w ∈ ["ELEMENTS", "DATASETS", "SCALED"].map String.toList, ws.getLast? = some w) ∨ "INDEX".toList ∈ ws.dropLast

theorem IsOfList.append {ws : List (List Char)} (h : IsOfList ws) (ws' : List (List Char)) : IsOfList (ws' ++ ws) := by
  have hne : ws ≠ [] := by
    rintro rfl
    obtain ⟨w, -, hw⟩ | hw := h <;> cases hw
  obtain ⟨w, hw, hlast⟩ | hindex := h
  · refine .inl ⟨w, hw, ?_⟩
    rw [List.getLast?_append_of_ne_nil _ hne, hlast]
  · refine .inr ?_
    rw [List.dropLast_append_of_ne_nil hne]
    exact List.mem_append_right _ hindex

theorem isOfList_of_mem_endings (h : t ∈ x.endings l) : IsOfList (words t) := by
  rw [mem_endings, mem_indexEndings, mem_scalingEndings] at h
  obtain rfl | ⟨e, -, rfl⟩ | rfl | ⟨-, e, -, -, rfl | rfl⟩ := h
  · exact .inl ⟨_, .head _, by decide⟩
  · refine .inr ?_
    have hindex : words "INDEX" = ["INDEX".toList] := by decide
    rw [words_join, List.dropLast_append_of_ne_nil (words_ne_nil _), hindex]
    exact .head _
  · exact .inl ⟨_, .tail _ (.head _), by decide⟩
  · rw [words_join]
    exact IsOfList.append (.inl ⟨_, .tail _ (.tail _ (.head _)), by decide⟩) _
  · rw [words_join]
    exact IsOfList.append (.inl ⟨_, .tail _ (.tail _ (.head _)), by decide⟩) _

theorem words_digits (hid : ∀ c ∈ id.digits.toList, hexValue? c ≠ none) :
    words ("DATA_POOL_PROJECT_ID" ++ "_" ++ id.digits) = words "DATA_POOL_PROJECT_ID" ++ [id.digits.toList] := by
  have hplain : '_' ∉ id.digits.toList := fun h => hid _ h (by decide)
  rw [words_join, words_of_plain hplain]

theorem not_isOfList_of_mem_ownKeys (hid : ∀ c ∈ id.digits.toList, hexValue? c ≠ none) (h : t ∈ ownKeys id) :
    ¬IsOfList (words t) := by
  simp only [ownKeys, List.mem_cons, List.not_mem_nil, or_false] at h
  obtain rfl | rfl | rfl | rfl := h
  · unfold IsOfList
    decide
  · rw [words_digits hid]
    -- All the last words of keys of lists have an `S`, which is no digit.
    have hS : ∀ w ∈ ["ELEMENTS", "DATASETS", "SCALED"].map String.toList, 'S' ∈ w := by decide
    rintro (⟨w, hw, hlast⟩ | hindex)
    · rw [List.getLast?_concat] at hlast
      obtain rfl := Option.some.inj hlast
      exact hid 'S' (hS _ hw) (by decide)
    · rw [List.dropLast_concat] at hindex
      revert hindex
      decide
  · unfold IsOfList
    decide
  · unfold IsOfList
    decide

theorem words_indexKey (l : ElementList) :
    words (indexKey l) = "LIST".toList :: "INDEX".toList :: words (upper l.name) := by
  have hindex : words "LIST_INDEX" = ["LIST".toList, "INDEX".toList] := by decide
  rw [indexKey, words_join, hindex]
  rfl

theorem nodup_ownKeys (hid : ∀ c ∈ id.digits.toList, hexValue? c ≠ none) : (ownKeys id).Nodup := by
  have hlength : (words ("DATA_POOL_PROJECT_ID" ++ "_" ++ id.digits)).length = 5 := by
    rw [words_digits hid]
    rfl
  have hne {s : String} (hs : (words s).length ≠ 5) : s ≠ "DATA_POOL_PROJECT_ID" ++ "_" ++ id.digits := by
    rintro rfl
    exact hs hlength
  refine List.nodup_cons.2 ⟨fun hmem => ?_, List.nodup_cons.2 ⟨fun hmem => ?_, by decide⟩⟩
  · rcases List.mem_cons.1 hmem with h | h
    · exact hne (by decide) h
    · revert h
      decide
  · simp only [List.mem_cons, List.not_mem_nil, or_false] at hmem
    rcases hmem with h | h
    · exact hne (by decide) h.symm
    · exact hne (by decide) h.symm

theorem disjoint_ownKeys_indices : List.Disjoint (ownKeys id) (x.datapool.lists.map indexKey) := by
  intro t ht hindex
  obtain ⟨l, -, rfl⟩ := List.mem_map.1 hindex
  have hfirst : (words (indexKey l)).head? = some "LIST".toList := by rw [words_indexKey, List.head?_cons]
  simp only [ownKeys, List.mem_cons, List.not_mem_nil, or_false] at ht
  obtain h | h | h | h := ht <;> rw [h] at hfirst
  · exact absurd hfirst (by decide)
  · have hdata : words "DATA_POOL_PROJECT_ID" = ["DATA", "POOL", "PROJECT", "ID"].map String.toList := by decide
    rw [words_join, hdata] at hfirst
    exact absurd (Option.some.inj hfirst) (by decide)
  · exact absurd hfirst (by decide)
  · exact absurd hfirst (by decide)

theorem mem_listKeys : t ∈ x.listKeys l ↔ ∃ s ∈ x.endings l, upper l.name ++ "_" ++ s = t := List.mem_map

theorem disjoint_ownKeys_lists (hid : ∀ c ∈ id.digits.toList, hexValue? c ≠ none) :
    List.Disjoint (ownKeys id) (x.datapool.lists.flatMap x.listKeys) := by
  intro t ht hlist
  obtain ⟨l, -, hl⟩ := List.mem_flatMap.1 hlist
  obtain ⟨s, hs, rfl⟩ := mem_listKeys.1 hl
  refine not_isOfList_of_mem_ownKeys hid ht ?_
  rw [words_join]
  exact (isOfList_of_mem_endings hs).append _

/-! ### Keys of one list -/

theorem nodup_scalingEndings (h : (l.elements.map fun e => upper e.name).Nodup) : (x.scalingEndings l).Nodup := by
  have hget : words "GET_SCALED" = ["GET".toList, "SCALED".toList] := by decide
  have hset : words "SET_SCALED" = ["SET".toList, "SCALED".toList] := by decide
  have hdifferent (s t : String) : s ++ "_" ++ "GET_SCALED" ≠ t ++ "_" ++ "SET_SCALED" := by
    intro hsame
    have hwords := congrArg words hsame
    rw [words_join, words_join, hget, hset] at hwords
    have hlast := (List.append_inj' hwords rfl).2
    revert hlast
    decide
  unfold scalingEndings
  split
  · refine List.nodup_flatMap.2 ⟨fun e _ => ?_, ?_⟩
    · simp [hdifferent]
    · have hpairwise : (l.elements.filter Element.isScaled).Pairwise fun e e' => upper e.name ≠ upper e'.name :=
        (List.pairwise_map.1 h).filter _
      refine hpairwise.imp fun hne t ht ht' => ?_
      simp only [List.mem_cons, List.not_mem_nil, or_false] at ht ht'
      rcases ht with rfl | rfl <;> rcases ht' with h' | h'
      · exact hne (join_left_inj.1 h')
      · exact hdifferent _ _ h'
      · exact hdifferent _ _ h'.symm
      · exact hne (join_left_inj.1 h')
  · exact List.nodup_nil

/-- The last word of a key tells a number from a scaling definition. -/
theorem notMem_scalingEndings {w : List Char} (ht : (words t).getLast? = some w) (hw : w ≠ "SCALED".toList) :
    t ∉ x.scalingEndings l := by
  intro hmem
  have hget : (words "GET_SCALED").getLast? = some "SCALED".toList := by decide
  have hset : (words "SET_SCALED").getLast? = some "SCALED".toList := by decide
  obtain ⟨-, e, -, -, rfl | rfl⟩ := mem_scalingEndings.1 hmem
  · rw [words_join, List.getLast?_append_of_ne_nil _ (words_ne_nil _), hget] at ht
    exact hw (Option.some.inj ht).symm
  · rw [words_join, List.getLast?_append_of_ne_nil _ (words_ne_nil _), hset] at ht
    exact hw (Option.some.inj ht).symm

/-- With elements of different names, only an index and a scaling definition can be called the same. -/
theorem nodup_endings_iff (h : (l.elements.map fun e => upper e.name).Nodup) :
    (x.endings l).Nodup ↔ ∀ t ∈ indexEndings l, t ∉ x.scalingEndings l := by
  have hscaled : "NUMBER_OF_ELEMENTS" ∉ x.scalingEndings l ∧ "NUMBER_OF_DATASETS" ∉ x.scalingEndings l :=
    ⟨notMem_scalingEndings (w := "ELEMENTS".toList) (by decide) (by decide),
      notMem_scalingEndings (w := "DATASETS".toList) (by decide) (by decide)⟩
  unfold endings
  rw [List.nodup_append', and_iff_right (nodup_numberEndings_iff.2 h), and_iff_right (nodup_scalingEndings h)]
  constructor
  · intro hdisjoint t ht
    exact hdisjoint (List.mem_append_left _ (List.mem_append_right _ ht))
  · intro happart t ht
    simp only [numberEndings, List.mem_append, List.mem_singleton] at ht
    rcases ht with (rfl | ht) | rfl
    · exact hscaled.1
    · exact happart t ht
    · exact hscaled.2

/-! ### Keys of several lists -/

/-- Lists of different names share a key only if the name of one extends that of the other. -/
theorem disjoint_listKeys_iff (h : (x.datapool.lists.map fun l => upper l.name).Nodup) :
    x.datapool.lists.Pairwise (fun l l' => List.Disjoint (x.listKeys l) (x.listKeys l')) ↔
      ∀ l ∈ x.datapool.lists, ∀ l' ∈ x.datapool.lists, ∀ r, upper l'.name = upper l.name ++ "_" ++ r →
        ∀ t ∈ x.endings l', r ++ "_" ++ t ∉ x.endings l := by
  constructor
  · intro hpairwise l hl l' hl' r hr t ht hmem
    have hsymm : Std.Symm fun l l' => List.Disjoint (x.listKeys l) (x.listKeys l') := ⟨fun _ _ hd => hd.symm⟩
    have hne : l ≠ l' := by
      rintro rfl
      exact ne_join_left _ r hr
    refine hpairwise.forall hl hl' hne (mem_listKeys.2 ⟨_, hmem, rfl⟩) (mem_listKeys.2 ⟨t, ht, ?_⟩)
    rw [hr, join_assoc]
  · intro hextends
    refine (List.pairwise_map.1 h).imp_of_mem fun {l l'} hl hl' hne k hk hk' => ?_
    obtain ⟨t, ht, rfl⟩ := mem_listKeys.1 hk
    obtain ⟨t', ht', hsame⟩ := mem_listKeys.1 hk'
    rcases join_eq_join.1 hsame.symm with ⟨hname, -⟩ | ⟨r, hr, rfl⟩ | ⟨r, hr, rfl⟩
    · exact hne hname
    · exact hextends l hl l' hl' r hr t' ht' ht
    · exact hextends l' hl' l hl r hr t ht ht'

/-- **With lists and elements of different names, keys are made once if and only if the names are apart.** -/
theorem nodup_keys_iff (hid : ∀ c ∈ id.digits.toList, hexValue? c ≠ none)
    (hlists : (x.datapool.lists.map fun l => upper l.name).Nodup)
    (helements : ∀ l ∈ x.datapool.lists, (l.elements.map fun e => upper e.name).Nodup) :
    (x.keys id).Nodup ↔ x.NamesApart := by
  have hindices : (x.datapool.lists.map indexKey).Nodup := by
    have hnames : x.datapool.lists.map indexKey =
        (x.datapool.lists.map fun l => upper l.name).map ("LIST_INDEX" ++ "_" ++ ·) := by
      rw [List.map_map]
      rfl
    rw [hnames]
    exact hlists.map fun s t => join_right_inj.1
  have hstart : (ownKeys id ++ x.datapool.lists.map indexKey).Nodup :=
    List.nodup_append'.2 ⟨nodup_ownKeys hid, hindices, disjoint_ownKeys_indices⟩
  have hlist : ∀ l ∈ x.datapool.lists, ((x.listKeys l).Nodup ↔ ∀ t ∈ indexEndings l, t ∉ x.scalingEndings l) := by
    intro l hl
    rw [← nodup_endings_iff (helements l hl), listKeys, List.nodup_map_iff fun s t => join_right_inj.1]
  have hapart : List.Disjoint (ownKeys id ++ x.datapool.lists.map indexKey) (x.datapool.lists.flatMap x.listKeys) ↔
      ∀ l ∈ x.datapool.lists, ∀ l' ∈ x.datapool.lists, indexKey l ∉ x.listKeys l' := by
    rw [List.disjoint_append_left, and_iff_right (disjoint_ownKeys_lists hid)]
    simp [List.Disjoint]
  unfold keys
  rw [List.nodup_append', and_iff_right hstart, List.nodup_flatMap, forall₂_congr hlist, hapart,
    disjoint_listKeys_iff hlists]
  constructor
  · rintro ⟨⟨helements, hlists⟩, hindices⟩
    exact ⟨hindices, hlists, helements⟩
  · intro h
    exact ⟨⟨h.elements, h.lists⟩, h.indices⟩

/-! ## Types apart -/

theorem listType_inj {d : Datapool} {l l' : ElementList} : d.listType l = d.listType l' ↔ l.name = l'.name := by
  simp [Datapool.listType, toString, String.append_left_inj, String.append_right_inj]

theorem valuesType_eq (d : Datapool) : d.valuesType = d.listType (.new "DataPool") := by
  have hliteral : "_DataPool_Values" = "_" ++ ("DataPool" ++ "_Values") := rfl
  simp only [Datapool.valuesType, Datapool.listType, ElementList.new, toString, hliteral, String.append_assoc]

/-- The type of a list is that of the values only if the list has their name. -/
theorem nodup_types_iff {d : Datapool} (h : (d.lists.map ElementList.name).Nodup) :
    (d.filledLists.map d.listType ++ [d.valuesType]).Nodup ↔ ∀ l ∈ d.filledLists, l.name ≠ "DataPool" := by
  have hlists : (d.filledLists.map d.listType).Nodup := by
    have hnames : d.filledLists.Pairwise fun l l' => l.name ≠ l'.name := (List.pairwise_map.1 h).filter _
    exact List.pairwise_map.2 (hnames.imp fun hne hsame => hne (listType_inj.1 hsame))
  rw [List.nodup_append', and_iff_right hlists, and_iff_right (List.nodup_singleton _), valuesType_eq,
    List.disjoint_singleton]
  constructor
  · intro hnot l hl hname
    exact hnot (List.mem_map.2 ⟨l, hl, listType_inj.2 hname⟩)
  · intro hne hmem
    obtain ⟨l, hl, hsame⟩ := List.mem_map.1 hmem
    exact hne l hl (listType_inj.1 hsame)

/-! ## Pair -/

/-- Names that are apart whatever they have in common otherwise; capital letters do not matter. -/
structure PlainNames (x : DatapoolCode) : Prop where
  /-- No list is called `LIST`, or so and more after an underscore. -/
  lists : ∀ l ∈ x.datapool.lists, ¬Begins "LIST" (upper l.name)
  /-- No list is called like another one and more after an underscore. -/
  extensions : ∀ l ∈ x.datapool.lists, ∀ l' ∈ x.datapool.lists, ¬Extends (upper l.name) (upper l'.name)
  /-- No element is called `INDEX`, or so and more after an underscore. -/
  elements : ∀ l ∈ x.datapool.lists, ∀ e ∈ l.elements, ¬Begins "INDEX" (upper e.name)

theorem PlainNames.namesApart (h : x.PlainNames) : x.NamesApart where
  indices l _ l' hl' hmem := by
    obtain ⟨t, -, hsame⟩ := mem_listKeys.1 hmem
    have hindex : indexKey l = "LIST" ++ "_" ++ ("INDEX" ++ "_" ++ upper l.name) := by
      rw [join_assoc]
      rfl
    rw [hindex] at hsame
    exact h.lists l' hl' (begins_of_join_of_plain (by decide) hsame.symm)
  lists l hl l' hl' r hr _ _ _ := h.extensions l hl l' hl' ⟨r, hr⟩
  elements l hl t hindex hscaling := by
    obtain ⟨e, -, rfl⟩ := mem_indexEndings.1 hindex
    obtain ⟨-, e', he', -, hsame | hsame⟩ := mem_scalingEndings.1 hscaling
    · exact h.elements l hl e' he' (begins_of_join_of_plain (by decide) hsame)
    · exact h.elements l hl e' he' (begins_of_join_of_plain (by decide) hsame)

theorem nodup_definedNames_iff {header : File} (h : x.header id = .ok header)
    (hid : ∀ c ∈ id.digits.toList, hexValue? c ≠ none) (hlists : (x.datapool.lists.map fun l => upper l.name).Nodup)
    (helements : ∀ l ∈ x.datapool.lists, (l.elements.map fun e => upper e.name).Nodup) :
    header.definedNames.Nodup ↔ x.NamesApart := by
  rw [(definedNames_header h).nodup_iff, List.nodup_map_iff fun s t => join_right_inj.1]
  exact nodup_keys_iff hid hlists helements

theorem nodup_typeNames_iff {header : File} (h : x.header id = .ok header)
    (hlists : (x.datapool.lists.map fun l => upper l.name).Nodup) :
    header.typeNames.Nodup ↔ (x.linkage = .own → ∀ l ∈ x.datapool.filledLists, l.name ≠ "DataPool") := by
  have hnames : (x.datapool.lists.map ElementList.name).Nodup := by
    refine List.Nodup.of_map upper ?_
    rwa [List.map_map]
  rw [typeNames_header h, ← isOwn_iff]
  split
  · rename_i hown
    rw [nodup_types_iff hnames]
    exact (imp_iff_right hown).symm
  · rename_i hother
    exact iff_of_true List.nodup_nil fun hown => absurd hown hother

/-- **A Datapool header defines every name once, if the names of lists and elements are apart.** Of a Datapool whose
lists, and whose elements in each list, have different names whatever their capitals are, names are defined twice just
if a key of a list is the key of the index of a list, or of another list whose name extends that of the first one, or if
an index is called like a scaling definition; types just if a list with elements has the name of the values. -/
theorem header_names (x : DatapoolCode) (content : Json) (pair : Pair)
    (h : (x.generate (.ofContent content)).result = .ok pair)
    (hlists : (x.datapool.lists.map fun l => upper l.name).Nodup)
    (helements : ∀ l ∈ x.datapool.lists, (l.elements.map fun e => upper e.name).Nodup) :
    (pair.header.definedNames.Nodup ↔ x.NamesApart) ∧
    (pair.header.typeNames.Nodup ↔ (x.linkage = .own → ∀ l ∈ x.datapool.filledLists, l.name ≠ "DataPool")) ∧
    (x.NamesApart → ∀ name ∈ pair.header.definedNames, ∃ m, pair.header.meanings name = [m]) ∧
    (x.PlainNames → x.NamesApart) := by
  obtain ⟨-, header, source, hheader, -, rfl⟩ := generate_eq_ok h
  have hnames : header.definedNames.Nodup ↔ x.NamesApart :=
    nodup_definedNames_iff hheader (Identifier.digits_ofContent content) hlists helements
  refine ⟨hnames, nodup_typeNames_iff hheader hlists, fun happart name hname => ?_, PlainNames.namesApart⟩
  have hone : header.definedNames.count name = 1 := List.count_eq_one_of_mem (hnames.2 happart) hname
  rw [← header.length_meanings] at hone
  exact List.length_eq_one_iff.1 hone

/-- A scale with two belts of the same elements, one of them scaled. -/
def scale : Datapool :=
  let elements := [
    { Element.scalar "Weight" (.u16 0) (.u16 0) (.u16 900) with factor := .ofNat 2 },
    .scalar "Speed" (.u8 0) (.u8 0) (.u8 9)]
  { Datapool.new "Scale" .generic (some 0) with
    lists := [{ ElementList.new "Infeed" with elements }, { ElementList.new "Outfeed" with elements }] }

/-- A Datapool for its owner, with scaling definitions. -/
def ownerCode (d : Datapool) : DatapoolCode := ⟨"Panel", d, 0, 5, true, .own, 3, 0⟩

theorem header_names_scale :
    ∃ pair, ((ownerCode scale).generate (.ofContent (ownerCode scale).content)).result = .ok pair ∧
      pair.header.definedNames.Nodup ∧ pair.header.typeNames.Nodup := by
  obtain ⟨pair, hpair⟩ :
      ∃ pair, ((ownerCode scale).generate (.ofContent (ownerCode scale).content)).result = .ok pair :=
    (exists_generate_iff ⟨""⟩ _).1 (exists_eq_ok (by decide +kernel))
  obtain ⟨hnames, htypes, -, hplain⟩ :=
    header_names (ownerCode scale) _ pair hpair (by decide +kernel) (by decide +kernel)
  have happart : (ownerCode scale).PlainNames := ⟨by decide +kernel, by decide +kernel, by decide +kernel⟩
  exact ⟨pair, hpair, hnames.2 (hplain happart), htypes.2 fun _ => by decide +kernel⟩

/-- A rack with a list of its lists, and one called like its values. -/
def rack : Datapool :=
  { Datapool.new "Rack" .generic (some 0) with
    lists := [
      { ElementList.new "List" with elements := [.scalar "Slot" (.u8 0) (.u8 0) (.u8 9)] },
      { ElementList.new "Slot" with elements := [.scalar "Card" (.u8 0) (.u8 0) (.u8 9)] },
      { ElementList.new "DataPool" with elements := [.scalar "Card" (.u8 0) (.u8 0) (.u8 9)] }] }

/-- An element of the list of lists takes the name of the index of the list that it is called like, and the type of the
last list that of the values. -/
theorem names_redefined_rack :
    (rack.lists.map fun l => upper l.name).Nodup ∧
    (∀ l ∈ rack.lists, (l.elements.map fun e => upper e.name).Nodup) ∧
    ∃ pair, ((ownerCode rack).generate (.ofContent (ownerCode rack).content)).result = .ok pair ∧
      ¬pair.header.definedNames.Nodup ∧ ¬pair.header.typeNames.Nodup := by
  have hlists : (rack.lists.map fun l => upper l.name).Nodup := by decide +kernel
  have helements : ∀ l ∈ rack.lists, (l.elements.map fun e => upper e.name).Nodup := by decide +kernel
  obtain ⟨pair, hpair⟩ : ∃ pair, ((ownerCode rack).generate (.ofContent (ownerCode rack).content)).result = .ok pair :=
    (exists_generate_iff ⟨""⟩ _).1 (exists_eq_ok (by decide +kernel))
  refine ⟨hlists, helements, pair, hpair, ?_, ?_⟩
  all_goals obtain ⟨-, header, source, hheader, -, rfl⟩ := generate_eq_ok hpair
  · rw [nodup_definedNames_iff hheader (Identifier.digits_ofContent _) hlists helements]
    intro happart
    exact happart.indices _ (.tail _ (.head _)) _ (.head _) (by decide +kernel)
  · rw [nodup_typeNames_iff hheader hlists]
    intro hnames
    exact hnames rfl { ElementList.new "DataPool" with elements := [.scalar "Card" (.u8 0) (.u8 0) (.u8 9)] }
      (by decide +kernel) rfl

end DatapoolCode

end BusNode
