import BusNode.Disk.Path
import Mathlib.Data.List.Basic
/-!
# Paths of files in a directory

* `Path.IsName` — a text names something in a directory: it is one component, and one that leads there;
* `Path.ofString_joinPath` — joining a name to a directory adds it as the last component;
* `joinPath_injective`, `joinPath_joinPath_injective` — so different names have different paths.
-/

namespace BusNode

namespace Path

/-- The text is one component of a path, and leads from a directory to something in it. -/
structure IsName (c : String) : Prop where
  plain : '/' ∉ c.toList
  notIdle : isIdle c = false
  notOuter : c ≠ ".."

/-! ## Components -/

theorem ofString_of_plain {c : String} (h : '/' ∉ c.toList) : ofString c = [c] := by
  have hsplit : (['/'].intercalate [c.toList]).splitOn '/' = [c.toList] :=
    List.splitOn_intercalate '/' (by simpa using h) (by simp)
  rw [List.intercalate_singleton] at hsplit
  unfold ofString
  rw [hsplit, List.map_singleton, String.ofList_toList]

/-- A separator ends a component. -/
theorem ofString_append_separator (s t : String) : ofString (s ++ "/" ++ t) = ofString s ++ ofString t := by
  have hlist : (s ++ "/" ++ t).toList = s.toList ++ '/' :: t.toList := by
    rw [String.append_assoc, String.toList_append, String.toList_append]
    rfl
  unfold ofString
  rw [hlist, List.splitOn, List.splitOnP_append_cons _ _ (by simp), List.map_append]
  rfl

theorem ofString_separator (s : String) : ofString (s ++ "/") = ofString s ++ [""] := by
  have := ofString_append_separator s ""
  rwa [String.append_empty] at this

theorem eq_append_of_endsWith {s : String} (h : s.endsWith "/" = true) : ∃ t, s = t ++ "/" := by
  rw [String.endsWith_eq_endsWith_toSlice, String.Slice.endsWith_string_iff, String.copy_toSlice] at h
  obtain ⟨l, hl⟩ := h
  refine ⟨String.ofList l, ?_⟩
  rw [← String.toList_inj, String.toList_append, ← hl]
  simp only [String.toList_ofList]

theorem intercalate_concat {α : Type} (separator c : List α) :
    ∀ {init : List (List α)}, init ≠ [] →
      separator.intercalate (init ++ [c]) = separator.intercalate init ++ separator ++ c
  | [], h => absurd rfl h
  | [a], _ => by simp
  | a :: b :: init, _ => by
    have ih : separator.intercalate (b :: init ++ [c]) = separator.intercalate (b :: init) ++ separator ++ c :=
      intercalate_concat separator c (by simp)
    simp only [List.cons_append, List.intercalate_cons_cons, List.append_assoc] at ih ⊢
    rw [ih]

/-- The last component is empty only where there is nothing after a separator. -/
theorem getLast?_ofString {s : String} (h : (ofString s).getLast? = some "") : s = "" ∨ s.endsWith "/" = true := by
  unfold ofString at h
  rw [List.getLast?_map, Option.map_eq_some_iff] at h
  obtain ⟨c, hc, hnil⟩ := h
  obtain rfl : c = [] := by rw [← String.toList_ofList (l := c), hnil]; rfl
  obtain ⟨init, hinit⟩ := List.getLast?_eq_some_iff.1 hc
  have hjoin : ['/'].intercalate (s.toList.splitOn '/') = s.toList := List.intercalate_splitOn '/'
  rw [hinit] at hjoin
  by_cases hfirst : init = []
  · left
    rw [hfirst] at hjoin
    exact String.toList_inj.1 hjoin.symm
  · right
    rw [String.endsWith_eq_endsWith_toSlice, String.Slice.endsWith_string_iff, String.copy_toSlice]
    refine ⟨['/'].intercalate init, ?_⟩
    rw [← hjoin, intercalate_concat _ _ hfirst, List.append_nil]
    rfl

/-- Joining a name to a directory adds it as the last component. -/
theorem ofString_joinPath (dir : String) {name : String} (h : '/' ∉ name.toList) :
    ofString (joinPath dir name) = (ofString dir).child name := by
  have habsolute : ¬ name.startsWith "/" = true := by
    rw [String.startsWith_string_iff]
    rintro ⟨l, hl⟩
    exact h (hl ▸ .head _)
  unfold joinPath
  rw [if_neg habsolute]
  by_cases hempty : dir = ""
  · rw [hempty, if_pos (.inl rfl), String.empty_append, ofString_of_plain h]
    rfl
  by_cases hends : dir.endsWith "/" = true
  · obtain ⟨t, rfl⟩ := eq_append_of_endsWith hends
    rw [if_pos (.inr hends), ofString_append_separator, ofString_of_plain h, ofString_separator]
    simp [child]
  · have hlast : (ofString dir).getLast? ≠ some "" := fun hlast => (getLast?_ofString hlast).elim hempty hends
    rw [if_neg (by simp [hempty, hends]), ofString_append_separator, ofString_of_plain h, child, if_neg hlast]

/-! ## Directories -/

/-- A path as a directory, without a separator at its end. -/
def folder (p : Path) : Path := if p.getLast? = some "" then p.dropLast else p

theorem child_eq (p : Path) (name : String) : p.child name = p.folder ++ [name] := rfl

theorem folder_child {p : Path} {name : String} (h : IsName name) : (p.child name).folder = p.child name := by
  have hne : name ≠ "" := fun hname => by
    have := h.notIdle
    rw [hname] at this
    cases this
  refine if_neg ?_
  rw [child_eq, List.getLast?_concat]
  exact fun hlast => hne (Option.some.inj hlast)

/-- The name of a file with an extension. -/
theorem isName_append {stem extension : String} (hstem : '/' ∉ stem.toList)
    (h : extension = ".h" ∨ extension = ".c") : IsName (stem ++ extension) := by
  have hlast : (stem ++ extension).toList.getLast? = some 'h' ∨ (stem ++ extension).toList.getLast? = some 'c' := by
    rw [String.toList_append, List.getLast?_append]
    rcases h with rfl | rfl
    · exact .inl rfl
    · exact .inr rfl
  refine ⟨?_, Bool.eq_false_iff.2 fun hidle => ?_, fun houter => ?_⟩
  · rw [String.toList_append, List.mem_append, not_or]
    refine ⟨hstem, ?_⟩
    rcases h with rfl | rfl <;> decide
  · unfold isIdle at hidle
    simp only [Bool.or_eq_true, decide_eq_true_eq] at hidle
    rcases hidle with hidle | hidle <;> rw [hidle] at hlast <;> revert hlast <;> decide
  · rw [houter] at hlast
    revert hlast
    decide

/-- What has no separator ends the last component. -/
theorem ofString_append_of_plain {s t : String} (ht : '/' ∉ t.toList) :
    ∃ q c, '/' ∉ c.toList ∧ ofString (s ++ t) = q ++ [c ++ t] := by
  induction hlength : s.toList.length using Nat.strongRecOn generalizing s with
  | _ k ih =>
    by_cases hs : '/' ∈ s.toList
    · obtain ⟨l, r, hlist⟩ := List.append_of_mem hs
      have hsplit : s = String.ofList l ++ "/" ++ String.ofList r := by
        rw [← String.toList_inj, String.toList_append, String.toList_append, hlist, List.append_assoc]
        simp only [String.toList_ofList]
        rfl
      have hshorter : (String.ofList r).toList.length < k := by
        rw [← hlength, hlist, String.toList_ofList, List.length_append, List.length_cons]
        omega
      obtain ⟨q, c, hc, hr⟩ := ih _ hshorter rfl
      refine ⟨ofString (String.ofList l) ++ q, c, hc, ?_⟩
      rw [hsplit, String.append_assoc, ofString_append_separator, hr, List.append_assoc]
    · refine ⟨[], s, hs, ?_⟩
      rw [ofString_of_plain, List.nil_append]
      rw [String.toList_append, List.mem_append, not_or]
      exact ⟨hs, ht⟩

/-- The path of a file with an extension ends in a name, whatever its stem is. -/
theorem exists_isName (dir stem : String) {extension : String} (h : extension = ".h" ∨ extension = ".c") :
    ∃ q c, ofString (joinPath dir (stem ++ extension)) = q ++ [c] ∧ IsName c := by
  have hjoin : ∃ s, joinPath dir (stem ++ extension) = s ++ extension := by
    unfold joinPath
    split
    · exact ⟨stem, rfl⟩
    · split
      · exact ⟨dir ++ stem, (String.append_assoc ..).symm⟩
      · exact ⟨dir ++ "/" ++ stem, (String.append_assoc ..).symm⟩
  obtain ⟨s, hs⟩ := hjoin
  have hplain : '/' ∉ extension.toList := by rcases h with rfl | rfl <;> decide
  obtain ⟨q, c, hc, hpath⟩ := ofString_append_of_plain hplain
  exact ⟨q, c ++ extension, hs ▸ hpath, isName_append hc h⟩

end Path

/-- Different names have different paths. -/
theorem joinPath_injective {dir a b : String} (ha : '/' ∉ a.toList) (hb : '/' ∉ b.toList)
    (h : joinPath dir a = joinPath dir b) : a = b := by
  have h := congrArg Path.ofString h
  rw [Path.ofString_joinPath dir ha, Path.ofString_joinPath dir hb] at h
  exact List.singleton_inj.1 (List.append_cancel_left h)

/-- Files of different directories of one directory have different paths. -/
theorem joinPath_joinPath_injective {dir a b x y : String} (ha : Path.IsName a) (hb : Path.IsName b)
    (hx : '/' ∉ x.toList) (hy : '/' ∉ y.toList) (h : joinPath (joinPath dir a) x = joinPath (joinPath dir b) y) :
    a = b ∧ x = y := by
  have h := congrArg Path.ofString h
  rw [Path.ofString_joinPath _ hx, Path.ofString_joinPath _ hy, Path.ofString_joinPath _ ha.plain,
    Path.ofString_joinPath _ hb.plain, Path.child_eq, Path.child_eq _ y, Path.folder_child ha,
    Path.folder_child hb] at h
  obtain ⟨hfolder, hname⟩ := List.append_inj' h rfl
  exact ⟨List.singleton_inj.1 (List.append_cancel_left hfolder), List.singleton_inj.1 hname⟩

end BusNode
