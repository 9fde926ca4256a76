import BusNode.Code.File
import Mathlib.Data.List.Basic
/-!
# The symbols of a pair

* `File.defined`, `File.expanded` — the symbols that the identifier lines of a file define and that its check lines
  expand;
* `File.Defines`, `File.Expands` — a file does so for one identifier and no other;
* `Pair.Carries` — the header defines the symbol of an identifier, and the source expands it;
* `Identifier.symbol_injective` — two identifiers make two symbols of one stem.
-/

namespace BusNode

theorem Identifier.symbol_injective (stem : String) : Function.Injective fun id : Identifier => id.symbol stem := by
  rintro ⟨s⟩ ⟨t⟩ h
  have h : upper stem ++ "_PROJECT_ID_" ++ s = upper stem ++ "_PROJECT_ID_" ++ t := h
  rw [(String.append_right_inj _).1 h]

/-! ## Symbols of a file -/

namespace Item

/-- The symbol that the item defines for its header. -/
def defined? : Item → Option String
  | .defineIdentifier stem id => some (id.symbol stem)
  | _ => none

/-- The symbol that the item expands to check the header. -/
def expanded? : Item → Option String
  | .checkIdentifier stem id => some (id.symbol stem)
  | _ => none

/-- Whether the item has nothing to do with identifiers. -/
def isUnmarked : Item → Bool
  | .defineIdentifier .. | .checkIdentifier .. => false
  | _ => true

theorem defined?_of_isUnmarked {i : Item} (h : i.isUnmarked = true) : i.defined? = none := by
  cases i <;> first | rfl | cases h

theorem expanded?_of_isUnmarked {i : Item} (h : i.isUnmarked = true) : i.expanded? = none := by
  cases i <;> first | rfl | cases h

theorem unmarked_map {α : Type} {f : α → Item} (h : ∀ a, (f a).isUnmarked = true) (l : List α) :
    (l.map f).all isUnmarked = true := by
  rw [List.all_map, List.all_eq_true]
  exact fun a _ => h a

theorem unmarked_flatMap {α : Type} {f : α → List Item} (h : ∀ a, (f a).all isUnmarked = true) (l : List α) :
    (l.flatMap f).all isUnmarked = true := by
  rw [List.all_flatMap, List.all_eq_true]
  exact fun a _ => h a

theorem unmarked_flatten {ls : List (List Item)} (h : ∀ l ∈ ls, l.all isUnmarked = true) :
    ls.flatten.all isUnmarked = true := by
  rw [List.all_flatten, List.all_eq_true]
  exact h

end Item

namespace File

/-- The symbols that the file defines. -/
def defined (f : File) : List String := f.items.filterMap Item.defined?

/-- The symbols that the file expands. -/
def expanded (f : File) : List String := f.items.filterMap Item.expanded?

/-- The file defines the symbol of the identifier, by the lines of it, and no other. -/
structure Defines (f : File) (stem : String) (id : Identifier) : Prop where
  defined : f.defined = [id.symbol stem]
  lines : id.defineLines stem <:+: f.lines

/-- The file expands the symbol of the identifier, on a line of its own, and no other. -/
structure Expands (f : File) (stem : String) (id : Identifier) : Prop where
  expanded : f.expanded = [id.symbol stem]
  line : id.checkLine stem ∈ f.lines

variable {stem brief : String} {incs : List String} {id : Identifier} {rest : List Item}

theorem defines_header (h : rest.all Item.isUnmarked = true) :
    Defines ⟨headerStart stem brief incs id ++ rest⟩ stem id := by
  constructor
  · have hrest : rest.filterMap Item.defined? = [] :=
      List.filterMap_eq_nil_iff.2 fun i hi => Item.defined?_of_isUnmarked (List.all_eq_true.1 h i hi)
    have hincs : (incs.map Item.includes).filterMap Item.defined? = [] := by
      rw [List.filterMap_map]
      exact List.filterMap_eq_nil_iff.2 fun _ _ => rfl
    unfold defined headerStart
    simp only [List.filterMap_append, hrest, hincs]
    rfl
  · have hmem : Item.defineIdentifier stem id ∈ headerStart stem brief incs id ++ rest :=
      List.mem_append_left _ (List.mem_append_right _ (by simp))
    obtain ⟨before, after, hitems⟩ := List.append_of_mem hmem
    refine ⟨before.flatMap Item.lines, after.flatMap Item.lines, ?_⟩
    unfold lines
    rw [hitems, List.flatMap_append, List.flatMap_cons, List.append_assoc]
    rfl

theorem expands_source (h : rest.all Item.isUnmarked = true) :
    Expands ⟨sourceStart stem brief incs id ++ rest⟩ stem id := by
  constructor
  · have hrest : rest.filterMap Item.expanded? = [] :=
      List.filterMap_eq_nil_iff.2 fun i hi => Item.expanded?_of_isUnmarked (List.all_eq_true.1 h i hi)
    have hincs : (incs.map Item.includes).filterMap Item.expanded? = [] := by
      rw [List.filterMap_map]
      exact List.filterMap_eq_nil_iff.2 fun _ _ => rfl
    unfold expanded sourceStart
    simp only [List.filterMap_append, hrest, hincs]
    rfl
  · have hmem : Item.checkIdentifier stem id ∈ sourceStart stem brief incs id ++ rest :=
      List.mem_append_left _ (List.mem_append_right _ (by simp))
    exact List.mem_flatMap.2 ⟨_, hmem, List.mem_singleton_self _⟩

end File

/-- The header of the pair defines the symbol of the identifier, and the source expands it. -/
structure Pair.Carries (p : Pair) (id : Identifier) : Prop where
  header : p.header.Defines p.stem id
  source : p.source.Expands p.stem id

end BusNode
