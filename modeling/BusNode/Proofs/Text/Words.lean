import BusNode.Text.Digit
import Mathlib.Data.List.Basic
/-!
# Words of names

Names are joined by underscores, and may have underscores themselves. Where a joined name is cut is not known, so two
joins of different names may be one name.

* `words` — the parts of a name between its underscores; the words of a join are those of both names (`words_join`);
* `join_eq_join` — the ways in which two joins are one name;
* `Extends`, `Begins` — a name is another one and more after an underscore, or may also be the other one;
  `begins_of_join` is what the names of two joins have to do with each other.
-/

namespace BusNode

/-! ## Letter case -/

theorem toList_upper (s : String) : (upper s).toList = s.toList.map Char.toUpper := String.toList_map

theorem upper_append (s t : String) : upper (s ++ t) = upper s ++ upper t := by
  rw [← String.toList_inj]
  simp only [toList_upper, String.toList_append, List.map_append]

theorem toUpper_toLower (c : Char) : c.toLower.toUpper = c.toUpper := by
  by_cases h : c.val ≥ 'A'.val ∧ c.val ≤ 'Z'.val
  · have hA : 65 ≤ c.toNat := UInt32.le_iff_toNat_le.1 h.1
    have hZ : c.toNat ≤ 90 := UInt32.le_iff_toNat_le.1 h.2
    have hletters : ∀ n < 91, 65 ≤ n → (Char.ofNat n).toLower.toUpper = (Char.ofNat n).toUpper := by decide
    rw [← Char.ofNat_toNat c]
    exact hletters c.toNat (by omega) hA
  · unfold Char.toLower
    rw [dif_neg h]

theorem upper_lower (s : String) : upper (lower s) = upper s := by
  rw [← String.toList_inj, toList_upper, toList_upper, lower, String.toList_map, List.map_map]
  exact List.map_congr_left fun c _ => toUpper_toLower c

theorem upper_join (s t : String) : upper (s ++ "_" ++ t) = upper s ++ "_" ++ upper t := by
  have hunderscore : upper "_" = "_" := by
    rw [← String.toList_inj, toList_upper]
    decide
  rw [upper_append, upper_append, hunderscore]

/-! ## Words -/

/-- The parts of a name between its underscores. -/
def words (s : String) : List (List Char) := s.toList.splitOn '_'

theorem words_ne_nil (s : String) : words s ≠ [] := List.splitOn_ne_nil _ _

theorem words_of_plain {s : String} (h : '_' ∉ s.toList) : words s = [s.toList] := by
  have hsplit : (['_'].intercalate [s.toList]).splitOn '_' = [s.toList] :=
    List.splitOn_intercalate '_' (by simpa using h) (by simp)
  rwa [List.intercalate_singleton] at hsplit

theorem toList_join (s t : String) : (s ++ "_" ++ t).toList = s.toList ++ '_' :: t.toList := by
  rw [String.append_assoc, String.toList_append, String.toList_append]
  rfl

/-- The words of a join are those of both names. -/
theorem words_join (s t : String) : words (s ++ "_" ++ t) = words s ++ words t := by
  unfold words
  rw [toList_join, List.splitOn, List.splitOnP_append_cons _ _ (by simp)]
  rfl

theorem words_injective {s t : String} (h : words s = words t) : s = t := by
  have hs : ['_'].intercalate (words s) = s.toList := List.intercalate_splitOn '_'
  have ht : ['_'].intercalate (words t) = t.toList := List.intercalate_splitOn '_'
  rw [← String.toList_inj, ← hs, h, ht]

theorem words_inj {s t : String} : words s = words t ↔ s = t := ⟨words_injective, congrArg words⟩

/-! ## Joins -/

theorem join_left_inj {s t u : String} : s ++ "_" ++ u = t ++ "_" ++ u ↔ s = t := by
  rw [← words_inj, words_join, words_join, List.append_left_inj, words_inj]

theorem join_right_inj {s t u : String} : u ++ "_" ++ s = u ++ "_" ++ t ↔ s = t := by
  rw [← words_inj, words_join, words_join, List.append_right_inj, words_inj]

theorem join_assoc (s t u : String) : s ++ "_" ++ (t ++ "_" ++ u) = s ++ "_" ++ t ++ "_" ++ u := by
  simp only [String.append_assoc]

/-- A name is no join with itself. -/
theorem ne_join_left (s t : String) : s ≠ s ++ "_" ++ t := by
  intro h
  have hwords := congrArg words h
  rw [words_join, List.self_eq_append_right] at hwords
  exact words_ne_nil t hwords

theorem ne_join_right (s t : String) : t ≠ s ++ "_" ++ t := by
  intro h
  have hwords := congrArg words h
  rw [words_join, List.self_eq_append_left] at hwords
  exact words_ne_nil s hwords

/-- Two joins are one name only if they join the same names, or the first name of one goes on, after an underscore, as
the second one of the other begins. -/
theorem join_eq_join {s t s' t' : String} : s ++ "_" ++ t = s' ++ "_" ++ t' ↔
    (s = s' ∧ t = t') ∨ (∃ r, s' = s ++ "_" ++ r ∧ t = r ++ "_" ++ t') ∨
      ∃ r, s = s' ++ "_" ++ r ∧ t' = r ++ "_" ++ t := by
  constructor
  · intro h
    -- What lies between the two places where the names are joined is nothing, or begins with an underscore.
    have hcut {s t s' t' : String} {r : List Char} (hs : s'.toList = s.toList ++ r)
        (ht : '_' :: t.toList = r ++ '_' :: t'.toList) :
        (s = s' ∧ t = t') ∨ ∃ r, s' = s ++ "_" ++ r ∧ t = r ++ "_" ++ t' := by
      cases r with
      | nil =>
        rw [List.append_nil, String.toList_inj] at hs
        rw [List.nil_append, List.cons.injEq, String.toList_inj] at ht
        exact .inl ⟨hs.symm, ht.2⟩
      | cons c r =>
        obtain ⟨rfl, hrest⟩ : '_' = c ∧ t.toList = r ++ '_' :: t'.toList := List.cons.inj ht
        refine .inr ⟨String.ofList r, String.toList_inj.1 ?_, String.toList_inj.1 ?_⟩
        · rw [toList_join, String.toList_ofList, hs]
        · rw [toList_join, String.toList_ofList, hrest]
    rw [← String.toList_inj, toList_join, toList_join] at h
    obtain ⟨r, hs, ht⟩ | ⟨r, hs, ht⟩ := List.append_eq_append_iff.1 h
    · obtain hsame | hmore := hcut hs ht
      · exact .inl hsame
      · exact .inr (.inl hmore)
    · obtain ⟨rfl, rfl⟩ | hmore := hcut hs ht
      · exact .inl ⟨rfl, rfl⟩
      · exact .inr (.inr hmore)
  · rintro (⟨rfl, rfl⟩ | ⟨r, rfl, rfl⟩ | ⟨r, rfl, rfl⟩)
    · rfl
    · exact join_assoc s r t'
    · exact (join_assoc s' r t).symm

/-! ## Extensions -/

/-- The second name is the first one and more after an underscore. -/
def Extends (s t : String) : Prop := ∃ r, t = s ++ "_" ++ r

theorem extends_iff {s t : String} : Extends s t ↔ s.toList ++ ['_'] <+: t.toList := by
  constructor
  · rintro ⟨r, rfl⟩
    rw [toList_join]
    exact ⟨r.toList, by simp⟩
  · rintro ⟨r, hr⟩
    refine ⟨String.ofList r, ?_⟩
    rw [← String.toList_inj, toList_join, String.toList_ofList, ← hr, List.append_assoc]
    rfl

instance (s t : String) : Decidable (Extends s t) := decidable_of_iff _ extends_iff.symm

/-- The second name is the first one, or extends it. -/
def Begins (s t : String) : Prop := t = s ∨ Extends s t

instance (s t : String) : Decidable (Begins s t) := inferInstanceAs (Decidable (t = s ∨ Extends s t))

/-- Where two joins are one name, the first name of one begins that of the other. -/
theorem begins_of_join {s t s' t' : String} (h : s ++ "_" ++ t = s' ++ "_" ++ t') : Begins s s' ∨ Begins s' s := by
  rcases join_eq_join.1 h with ⟨rfl, -⟩ | ⟨r, hr, -⟩ | ⟨r, hr, -⟩
  · exact .inl (.inl rfl)
  · exact .inl (.inr ⟨r, hr⟩)
  · exact .inr (.inr ⟨r, hr⟩)

/-- A first name without an underscore begins every other one. -/
theorem begins_of_join_of_plain {s t s' t' : String} (hs : '_' ∉ s.toList) (h : s ++ "_" ++ t = s' ++ "_" ++ t') :
    Begins s s' := by
  rcases begins_of_join h with h | rfl | ⟨r, rfl⟩
  · exact h
  · exact .inl rfl
  · rw [toList_join] at hs
    exact absurd (by simp) hs

end BusNode
