import BusNode.Proofs.Code.Definition
import BusNode.Proofs.Text.Words
/-!
# The names that a file defines

* `File.definedNames`, `File.typeNames` — the names that a file defines, and the types, each as often as it does;
* `File.length_meanings` — a name has as many meanings in a file as it is defined there;
* `Identifier.digits_ofContent` — the symbol of a pair ends with digits.
-/

namespace BusNode

namespace Item

/-- The name that the item defines. -/
def definedName? : Item → Option String
  | .openGuard name | .define name _ _ => some name
  | .defineIdentifier stem id => some (id.symbol stem)
  | _ => none

/-- The type that the item defines. -/
def typeName? : Item → Option String
  | .recordType name _ => some name
  | _ => none

/-- An item has a meaning for the name that it defines, and for no other. -/
theorem meaning?_eq_none_iff (i : Item) (name : String) : i.meaning? name = none ↔ i.definedName? ≠ some name := by
  have hif (defined : String) (m : Meaning) :
      (if defined = name then some m else none) = none ↔ some defined ≠ some name := by
    by_cases h : defined = name <;> simp [h]
  cases i with
  | openGuard guard => exact hif guard _
  | define defined parameters meaning => exact hif defined _
  | defineIdentifier stem id => exact hif (id.symbol stem) _
  | _ => exact iff_of_true rfl nofun

end Item

namespace File

def definedNames (f : File) : List String := f.items.filterMap Item.definedName?
def typeNames (f : File) : List String := f.items.filterMap Item.typeName?

/-- A name has as many meanings in a file as it is defined there. -/
theorem length_meanings (f : File) (name : String) : (f.meanings name).length = f.definedNames.count name := by
  unfold meanings definedNames
  induction f.items with
  | nil => rfl
  | cons i is ih =>
    by_cases hname : i.definedName? = some name
    · obtain ⟨m, hm⟩ := Option.ne_none_iff_exists'.1 ((i.meaning?_eq_none_iff name).not_left.2 hname)
      rw [List.filterMap_cons_some hm, List.filterMap_cons_some hname, List.length_cons, List.count_cons_self, ih]
    · rw [List.filterMap_cons_none ((i.meaning?_eq_none_iff name).2 hname), ih, List.filterMap_cons]
      cases hother : i.definedName? with
      | none => rfl
      | some defined =>
        have hne : defined ≠ name := fun h => hname (hother.trans (congrArg some h))
        exact (List.count_cons_of_ne hne).symm

section Parts

variable {is js : List Item} {stem brief : String} {includes : List String} {id : Identifier}

theorem definedNames_append : definedNames ⟨is ++ js⟩ = definedNames ⟨is⟩ ++ definedNames ⟨js⟩ :=
  List.filterMap_append

theorem typeNames_append : typeNames ⟨is ++ js⟩ = typeNames ⟨is⟩ ++ typeNames ⟨js⟩ := List.filterMap_append

theorem definedNames_flatMap {α : Type} {f : α → List Item} {l : List α} :
    definedNames ⟨l.flatMap f⟩ = l.flatMap fun a => definedNames ⟨f a⟩ :=
  List.filterMap_flatMap ..

theorem typeNames_flatMap {α : Type} {f : α → List Item} {l : List α} :
    typeNames ⟨l.flatMap f⟩ = l.flatMap fun a => typeNames ⟨f a⟩ :=
  List.filterMap_flatMap ..

/-- The names of items that were made one group after the other. -/
theorem definedNames_flatten {α : Type} {f : α → List String} {l : List α} {groups : List (List Item)}
    (h : List.Forall₂ (fun a is => definedNames ⟨is⟩ = f a) l groups) :
    definedNames ⟨groups.flatten⟩ = l.flatMap f := by
  induction h with
  | nil => rfl
  | cons ha _ ih => rw [List.flatten_cons, definedNames_append, ih, ha, List.flatMap_cons]

/-- Where numbered things are defined, their names are defined in order. -/
theorem definedNames_zipIdx {α : Type} (l : List α) {item : α × Nat → Item} {name : α → String}
    (h : ∀ a, (item a).definedName? = some (name a.1)) : definedNames ⟨l.zipIdx.map item⟩ = l.map name := by
  have hnames : (l.zipIdx.map item).filterMap Item.definedName? = (l.zipIdx.map Prod.fst).map name := by
    rw [List.filterMap_map, List.map_map, ← List.filterMap_eq_map]
    exact List.filterMap_congr fun a _ => h a
  rwa [List.zipIdx_map_fst] at hnames

theorem typeNames_eq_nil (h : ∀ i ∈ is, i.typeName? = none) : typeNames ⟨is⟩ = [] := List.filterMap_eq_nil_iff.2 h

theorem definedNames_headerStart :
    definedNames ⟨headerStart stem brief includes id⟩ = [upper stem ++ "_H", id.symbol stem] := by
  have hincludes : definedNames ⟨includes.map Item.includes⟩ = [] := by
    refine List.filterMap_eq_nil_iff.2 fun i hi => ?_
    obtain ⟨file, -, rfl⟩ := List.mem_map.1 hi
    rfl
  unfold headerStart
  rw [definedNames_append, definedNames_append, hincludes]
  rfl

theorem typeNames_headerStart : typeNames ⟨headerStart stem brief includes id⟩ = [] := by
  refine typeNames_eq_nil fun i hi => ?_
  simp only [headerStart, List.mem_append, List.mem_cons, List.mem_map, List.not_mem_nil, or_false] at hi
  obtain ((rfl | rfl | rfl | rfl) | ⟨_, _, rfl⟩) | (rfl | rfl | rfl) := hi <;> rfl

end Parts

end File

/-! ## Identifiers -/

theorem mem_hexDigits {width n : Nat} {c : Char} (h : c ∈ hexDigits width n) : ∃ d < 16, c = Nat.digitChar d := by
  induction width generalizing n with
  | zero => cases h
  | succ width ih =>
    rcases List.mem_append.1 h with h | h
    · exact ih h
    · exact ⟨n % 16, Nat.mod_lt _ (by decide), List.mem_singleton.1 h⟩

/-- What an identifier of some content has are digits. -/
theorem Identifier.digits_ofContent (content : Json) : ∀ c ∈ (ofContent content).digits.toList, hexValue? c ≠ none := by
  have hdigit : ∀ d < 16, hexValue? (Nat.digitChar d).toUpper ≠ none := by decide
  intro c hc
  unfold ofContent at hc
  rw [String.toList_join, List.mem_flatMap] at hc
  obtain ⟨s, hs, hc⟩ := hc
  obtain ⟨b, -, rfl⟩ := List.mem_map.1 hs
  rw [hexUpper, String.toList_ofList] at hc
  obtain ⟨d, hd, rfl⟩ := List.mem_map.1 hc
  obtain ⟨d, hlt, rfl⟩ := mem_hexDigits hd
  exact hdigit d hlt

end BusNode
