import BusNode.Proofs.Can.Layout
import BusNode.Proofs.Code.Address
/-!
# Declarations of a name

* `File.declarations` — the items of a file that declare an object of a name;
* `File.Tabulates` — of a name a file declares a table and nothing else, and nothing at all if the table has no rows;
* `ending` — the last letters of a name, by which the objects of a file are told apart;
* `nodup_map_iff`, `nodup_filterMap_iff` — where what is declared has keys, no key has more than one declaration just if
  the keys differ.
-/

namespace BusNode

/-- The last three letters of a name, the last one first. -/
def ending (name : String) : List Char := name.toList.reverse.take 3

theorem ending_append (s : String) {t : String} {cs : List Char} (ht : ending t = cs) (hcs : cs.length = 3) :
    ending (s ++ t) = cs := by
  have hlength : 3 ≤ t.toList.reverse.length := by
    rw [← ht, ending, List.length_take] at hcs
    omega
  unfold ending at ht ⊢
  rw [String.toList_append, List.reverse_append, List.take_append_of_le_length hlength, ht]

theorem ne_of_ending {s t : String} (h : ending s ≠ ending t) : s ≠ t := ne_of_apply_ne ending h

/-- A choice by a name of another ending. -/
theorem ite_of_ending {α : Type} {s t : String} {u v : α} (h : ending s ≠ ending t) : (if s = t then u else v) = v :=
  if_neg (ne_of_ending h)

/-! ## Keys -/

/-- What some elements give is what the choice of them gives. -/
theorem flatMap_ite {α γ : Type} {p : α → Prop} [DecidablePred p] {f : α → List γ} {l : List α} :
    (l.flatMap fun a => if p a then f a else []) = (l.filter p).flatMap f := by
  induction l with
  | nil => rfl
  | cons a l ih =>
    rw [List.flatMap_cons, List.filter_cons, ih]
    by_cases h : p a <;> simp [h]

section

variable {α β γ : Type} [DecidableEq β] {l : List α}

/-- Keys, which some elements may lack, differ just if each key belongs to one element. -/
theorem nodup_filterMap_iff {key : α → Option β} :
    (l.filterMap key).Nodup ↔ ∀ a ∈ l, ∀ b, key a = some b → (l.filter (key · = some b)).length = 1 := by
  have hcount (b : β) : (l.filterMap key).count b = (l.filter (key · = some b)).length := by
    rw [List.count_filterMap, List.countP_eq_length_filter]
    exact congrArg List.length (List.filter_congr fun a _ => by simp [Bool.beq_eq_decide_eq])
  constructor
  · intro h a ha b hb
    rw [← hcount]
    exact List.count_eq_one_of_mem h (List.mem_filterMap.2 ⟨a, ha, hb⟩)
  · intro h
    refine List.nodup_iff_count_le_one.2 fun b => ?_
    by_cases hb : b ∈ l.filterMap key
    · obtain ⟨a, ha, hab⟩ := List.mem_filterMap.1 hb
      exact Nat.le_of_eq ((hcount b).trans (h a ha b hab))
    · rw [List.count_eq_zero.2 hb]
      exact Nat.zero_le 1

/-- Keys differ just if what the elements of a key give is what one of them gives. -/
theorem nodup_map_iff {key : α → β} (f : α → γ) :
    (l.map key).Nodup ↔ ∀ a ∈ l, (l.filter (key · = key a)).map f = [f a] := by
  have hlength : (l.map key).Nodup ↔ ∀ a ∈ l, (l.filter (key · = key a)).length = 1 := by
    rw [← List.filterMap_eq_map, nodup_filterMap_iff]
    simp
  rw [hlength]
  refine forall₂_congr fun a ha => ⟨fun hone => ?_, fun hone => ?_⟩
  · obtain ⟨b, hb⟩ := List.length_eq_one_iff.1 hone
    have hab : a ∈ [b] := hb ▸ List.mem_filter.2 ⟨ha, decide_eq_true rfl⟩
    rw [hb, List.mem_singleton.1 hab, List.map_singleton]
  · simpa using congrArg List.length hone

end

namespace File

variable {name type table : String} {rows : List Row} {is js : List Item}

/-- The items that declare an object of the name. -/
def declarations (f : File) (name : String) : List Item := f.items.filter fun i => i.object?.any (·.name = name)

theorem declarations_append : declarations ⟨is ++ js⟩ name = declarations ⟨is⟩ name ++ declarations ⟨js⟩ name :=
  List.filter_append ..

theorem declarations_flatMap {α : Type} {f : α → List Item} {l : List α} :
    declarations ⟨l.flatMap f⟩ name = l.flatMap fun a => declarations ⟨f a⟩ name :=
  List.filter_flatMap ..

theorem declarations_eq_nil (h : ∀ i ∈ is, ∀ o, i.object? = some o → o.name ≠ name) : declarations ⟨is⟩ name = [] := by
  refine List.filter_eq_nil_iff.2 fun i hi hany => ?_
  obtain ⟨o, ho, hname⟩ : ∃ o, i.object? = some o ∧ o.name = name := by simpa [Option.any_eq_true] using hany
  exact h i hi o ho hname

theorem declarations_sourceStart {stem brief : String} {includes : List String} {id : Identifier} :
    declarations ⟨sourceStart stem brief includes id⟩ name = [] :=
  declarations_eq_nil fun i hi o ho => by
    rw [(of_mem_sourceStart hi).1] at ho
    cases ho

/-- A record that other files know, at the end of a file. -/
theorem declarations_sharedRecord {title record : String} : declarations
    ⟨[Item.heading title, .object (.sharedRecord type record) rows none]⟩ name =
      if record = name then [.object (.sharedRecord type record) rows none] else [] := by
  by_cases h : record = name <;> simp [declarations, Item.object?, Object.sharedRecord, h]

/-- The declaration of a table, if it has rows. -/
def tableDeclaration (type name : String) (rows : List Row) : List Item :=
  if rows.isEmpty then [] else [.object (.table type name rows.length) rows none]

theorem declarations_tableItems : declarations ⟨CommCode.tableItems type table rows⟩ name =
    if table = name then tableDeclaration type table rows else [] := by
  unfold CommCode.tableItems tableDeclaration declarations
  split
  · exact (ite_self _).symm
  · split <;> rename_i h <;> simp [Item.object?, Object.table, h]

/-- The table is all that the file declares of its name; without rows there is no table. -/
def Tabulates (f : File) (type name : String) (rows : List Row) : Prop :=
  f.declarations name = tableDeclaration type name rows

theorem Tabulates.shows {f : File} (h : f.Tabulates type name rows) : f.Shows type name rows := by
  intro hrows
  have hmem : .object (.table type name rows.length) rows none ∈ f.declarations name := by
    rw [h, tableDeclaration, if_neg (by rwa [List.isEmpty_iff])]
    exact List.mem_singleton_self _
  exact (List.mem_filter.1 hmem).1

/-- A table and the number of its rows agree. -/
theorem Tabulates.resolves {f : File} {n : Nat} (h : f.Tabulates type name rows) (hn : rows.length = n) :
    f.Resolves ⟨n, .slice name 0 n⟩ :=
  hn ▸ resolves_whole h.shows.hasArray

end File

end BusNode
