import BusNode.Proofs.Code.Address
import BusNode.Proofs.Code.Definition
/-!
# Sizes of arrays

* `Length.value?`, `File.number?` — the number that the length of an array stands for, by what a header defines;
* `RecordType` — a record type with its members, which are arrays or not;
* `Item.IsSized` — an array that an item declares has items, and a record type is one of some given ones.
-/

namespace BusNode

/-! ## Lengths -/

/-- The number of a length, by the numbers of names. -/
def Length.value? (number? : String → Option Nat) : Length → Option Nat
  | .number n => some n
  | .symbol name => number? name

/-- The number that a name stands for in a header, by the numbers of the names that are added up there. -/
def File.number? (f : File) (number? : String → Option Nat) (name : String) : Option Nat :=
  match f.meanings name with
  | [m] => m.value? number?
  | _ => none

theorem File.number?_of_meanings {f : File} {number? : String → Option Nat} {name : String} {m : Meaning}
    (h : f.meanings name = [m]) : f.number? number? name = m.value? number? := by
  unfold File.number?
  rw [h]

/-! ## Record types -/

/-- A member of a record type. -/
structure Member where
  type : String
  name : String
  /-- Given for an array. -/
  length : Option Nat
  deriving DecidableEq

def Member.text (m : Member) : String := memberText m.type m.name m.length

structure RecordType where
  name : String
  members : List Member
  deriving DecidableEq

namespace RecordType

/-- The declaration of the type. -/
def item (t : RecordType) : Item := .recordType t.name (t.members.map Member.text)

/-- Every array among the members has an item. -/
def HasItems (t : RecordType) : Prop := ∀ m ∈ t.members, ∀ n, m.length = some n → 0 < n

end RecordType

/-! ## Items -/

/-- An array has an item, by the numbers of names. -/
def Object.HasItems (number? : String → Option Nat) (o : Object) : Prop :=
  ∀ n, o.length = some n → ∃ k, n.value? number? = some k ∧ 0 < k

/-- An array that is declared has an item, and a record type is one of the given ones. -/
def Item.IsSized (number? : String → Option Nat) (types : List RecordType) : Item → Prop
  | .declare o _ | .object o _ _ | .inlineObject o _ _ | .listing o _ => o.HasItems number?
  | .recordType name members => ∃ t ∈ types, t.item = .recordType name members
  | .initializer _ _ => False
  | _ => True

variable {number? : String → Option Nat} {types : List RecordType}

theorem Object.hasItems_of_length {o : Object} (h : o.length = none) : o.HasItems number? := by
  intro n hn
  rw [h] at hn
  cases hn

theorem Object.hasItems_table (type name : String) {n : Nat} (hn : n ≠ 0) :
    (table type name n).HasItems number? := by
  rintro _ ⟨⟩
  exact ⟨n, rfl, Nat.pos_of_ne_zero hn⟩

/-- A symbol whose number is known. -/
theorem Object.hasItems_symbol {o : Object} {name : String} {k : Nat} (hlength : o.length = some (.symbol name))
    (hname : number? name = some k) (hk : k ≠ 0) : o.HasItems number? := by
  intro n hn
  obtain rfl := Option.some.inj (hlength.symm.trans hn)
  exact ⟨k, hname, Nat.pos_of_ne_zero hk⟩

/-- An item after an empty line. -/
theorem Item.isSized_after_blank {i j : Item} (hj : j ∈ [.blank, i]) (h : i.IsSized number? types) :
    j.IsSized number? types := by
  rcases List.mem_cons.1 hj with rfl | hj
  · trivial
  · exact List.mem_singleton.1 hj ▸ h

namespace File

variable {stem brief : String} {includes : List String} {id : Identifier}

/-- The opening of a header declares nothing. -/
theorem isSized_headerStart : ∀ i ∈ headerStart stem brief includes id, i.IsSized number? types := by
  intro i hi
  simp only [headerStart, List.mem_append, List.mem_cons, List.mem_map, List.not_mem_nil, or_false] at hi
  obtain ((rfl | rfl | rfl | rfl) | ⟨_, _, rfl⟩) | (rfl | rfl | rfl) := hi <;> trivial

theorem isSized_headerEnd : ∀ i ∈ headerEnd, i.IsSized number? types := by
  intro i hi
  simp only [headerEnd, List.mem_cons, List.not_mem_nil, or_false] at hi
  obtain rfl | rfl := hi <;> trivial

/-- The opening of a source declares nothing. -/
theorem isSized_sourceStart : ∀ i ∈ sourceStart stem brief includes id, i.IsSized number? types := by
  intro i hi
  simp only [sourceStart, List.mem_append, List.mem_cons, List.mem_map, List.not_mem_nil, or_false] at hi
  obtain ((rfl | rfl | rfl | rfl) | ⟨_, _, rfl⟩) | (rfl | rfl | rfl) := hi <;> trivial

end File

end BusNode
