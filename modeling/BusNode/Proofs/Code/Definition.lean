import BusNode.Code.File
import BusNode.Proofs.Success
import Mathlib.Data.List.Nodup
/-!
# Defined names

* `File.meanings` — what a file says that a name stands for; more than one meaning is as bad as none;
* `numberOf?` — the number that a name stands for after some headers;
* `Meaning.value?` — the number of a meaning, by the numbers of the names in it.
-/

namespace BusNode

/-! ## Meanings -/

/-- What an item says that a name stands for. -/
def Item.meaning? (name : String) : Item → Option Meaning
  | .openGuard guard => if guard = name then some (.text "") else none
  | .define defined parameters meaning =>
    if defined = name then some (if parameters.isEmpty then meaning else .text meaning.render) else none
  | .defineIdentifier stem id =>
    if id.symbol stem = name then
      some (.text s!"void {lower stem}_project_id_{lower id.digits}(void) \x7b\x7d")
    else none
  | _ => none

def File.meanings (f : File) (name : String) : List Meaning := f.items.filterMap (Item.meaning? name)

/-- The number that a name stands for where some headers are included. -/
def numberOf? (headers : List File) (name : String) : Option Nat :=
  match headers.flatMap (File.meanings · name) with
  | [.number n] => some n
  | _ => none

theorem numberOf?_of_meanings {headers : List File} {name : String} {n : Nat}
    (h : headers.flatMap (File.meanings · name) = [.number n]) : numberOf? headers name = some n := by
  unfold numberOf?
  rw [h]

-- Sums begin at the numeral zero, also where the zero of monoids is known.
attribute [local instance (high)] Zero.ofOfNat0

/-- The number of a meaning, by the numbers of names. -/
def Meaning.value? (number? : String → Option Nat) : Meaning → Option Nat
  | .number n => some n
  | .sum names => (names.mapM number?).map List.sum
  | .text _ => none

/-- A sum of names that stand for numbers is the sum of the numbers. -/
theorem Meaning.value?_sum {α : Type} {number? : String → Option Nat} {name : α → String} {count : α → Nat}
    {l : List α} (h : ∀ a ∈ l, number? (name a) = some (count a)) :
    (Meaning.sum (l.map name)).value? number? = some (l.map count).sum := by
  have hnumbers : (l.map name).mapM number? = some (l.map count) := by
    rw [List.mapM_map]
    calc l.mapM (number? ∘ name) = l.mapM fun a => pure (count a) := mapM_congr h
      _ = some (l.map count) := List.mapM_pure
  show ((l.map name).mapM number?).map List.sum = _
  rw [hnumbers]
  rfl

/-! ## Names of a stem -/

/-- Names of one stem differ if they go on with different letters. -/
theorem ne_of_suffix_letter {stem : List Char} {s t : String} {c d : Char} (hs : stem ++ ['_', c] <+: s.toList)
    (ht : stem ++ ['_', d] <+: t.toList) (h : c ≠ d) : s ≠ t := by
  rintro rfl
  have hsame : stem ++ ['_', c] = stem ++ ['_', d] :=
    (List.prefix_of_prefix_length_le hs ht (Nat.le_of_eq (by simp))).eq_of_length (by simp)
  rw [List.append_cancel_left_eq] at hsame
  exact h (List.cons.inj (List.cons.inj hsame).2).1

theorem prefix_append {stem own : String} {cs : List Char} (h : cs <+: own.toList) :
    stem.toList ++ cs <+: (stem ++ own).toList := by
  rw [String.toList_append]
  exact (List.prefix_append_right_inj _).2 h

theorem prefix_append_right {s : String} {cs : List Char} (h : cs <+: s.toList) (t : String) :
    cs <+: (s ++ t).toList := by
  rw [String.toList_append]
  exact h.trans (List.prefix_append _ _)

/-! ## Meanings in headers -/

namespace File

variable {f : File} {name stem brief : String} {includes : List String} {id : Identifier}

theorem meanings_eq_nil (h : ∀ i ∈ f.items, i.meaning? name = none) : f.meanings name = [] :=
  List.filterMap_eq_nil_iff.2 h

theorem meanings_define (defined : String) (meaning : Meaning) (rest : List Item) :
    meanings ⟨.define defined "" meaning :: rest⟩ name =
      (if defined = name then [meaning] else []) ++ meanings ⟨rest⟩ name := by
  by_cases h : defined = name
  · have hmeaning : (Item.define defined "" meaning).meaning? name = some meaning := if_pos h
    rw [if_pos h]
    exact List.filterMap_cons_some hmeaning
  · have hmeaning : (Item.define defined "" meaning).meaning? name = none := if_neg h
    rw [if_neg h]
    exact List.filterMap_cons_none hmeaning

/-- After its stem, a name that the opening of a header defines goes on with an `H` or a `P`. -/
theorem meaning?_of_mem_headerStart {c : Char} (hname : (upper stem).toList ++ ['_', c] <+: name.toList)
    (hguard : c ≠ 'H') (hidentifier : c ≠ 'P') {i : Item} (hi : i ∈ headerStart stem brief includes id) :
    i.meaning? name = none := by
  simp only [headerStart, List.mem_append, List.mem_cons, List.mem_map, List.not_mem_nil, or_false] at hi
  obtain ((rfl | rfl | rfl | rfl) | ⟨_, _, rfl⟩) | (rfl | rfl | rfl) := hi
  · rfl
  · exact if_neg (ne_of_suffix_letter (prefix_append (by decide)) hname hguard.symm)
  · rfl
  · rfl
  · rfl
  · rfl
  · rfl
  · exact if_neg (ne_of_suffix_letter (prefix_append_right (prefix_append (by decide)) _) hname hidentifier.symm)

theorem meanings_headerStart_append {c : Char} (hname : (upper stem).toList ++ ['_', c] <+: name.toList)
    (hguard : c ≠ 'H') (hidentifier : c ≠ 'P') (rest : List Item) :
    File.meanings ⟨headerStart stem brief includes id ++ rest⟩ name = File.meanings ⟨rest⟩ name := by
  have hstart : (headerStart stem brief includes id).filterMap (Item.meaning? name) = [] :=
    List.filterMap_eq_nil_iff.2 fun _ => meaning?_of_mem_headerStart hname hguard hidentifier
  unfold meanings
  rw [List.filterMap_append, hstart, List.nil_append]

end File

/-- Where one header out of some defines a name, it is known by that header. -/
theorem flatMap_eq_of_nodup {α β γ : Type} {l : List α} {key : α → β} {f : α → List γ} (hnodup : (l.map key).Nodup)
    {a : α} (ha : a ∈ l) (hother : ∀ b ∈ l, key b ≠ key a → f b = []) : l.flatMap f = f a := by
  obtain ⟨before, after, rfl⟩ := List.append_of_mem ha
  have hnil {bs : List α} (h : ∀ b ∈ bs, b ∈ before ++ a :: after ∧ key b ≠ key a) : bs.flatMap f = [] :=
    List.flatMap_eq_nil_iff.2 fun b hb => hother b (h b hb).1 (h b hb).2
  rw [List.map_append, List.map_cons, List.nodup_middle, List.nodup_cons, List.mem_append, not_or] at hnodup
  obtain ⟨⟨hbefore, hafter⟩, -⟩ := hnodup
  rw [List.flatMap_append, List.flatMap_cons, hnil fun b hb => ⟨List.mem_append_left _ hb, fun h => hbefore ?_⟩,
    hnil fun b hb => ⟨List.mem_append_right _ (.tail _ hb), fun h => hafter ?_⟩, List.append_nil, List.nil_append]
  · exact List.mem_map.2 ⟨b, hb, h⟩
  · exact List.mem_map.2 ⟨b, hb, h⟩

end BusNode
