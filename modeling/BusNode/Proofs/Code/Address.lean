import BusNode.Proofs.Code.Declared
/-!
# Addresses in a pair

* `File.places` — the addresses that the initializers of a file take;
* `Pair.Leads` — members that lead from one type to another, by the record types of a pair;
* `Pair.Designates` — an address is one of a declared object, of a member of it, or of an item of either.
-/

namespace BusNode

/-! ## Places -/

/-- The addresses that an item takes. -/
def Item.places : Item → List Place
  | .object _ rows _ => Row.placesList rows
  | .inlineObject _ value _ => value.places
  | .initializer _ rows => Row.placesList rows
  | _ => []

def File.places (f : File) : List Place := f.items.flatMap Item.places

/-- The length of a table is its number of rows. -/
def Item.IsCounted : Item → Prop
  | .object o rows _ => o.length = none ∨ o.length = some (.number rows.length)
  | _ => True

theorem Expr.placesList_map_constant (texts : List String) : Expr.placesList (texts.map .constant) = [] := by
  induction texts with
  | nil => rfl
  | cons _ _ ih => exact ih

theorem Row.mem_placesList {rows : List Row} {p : Place} : p ∈ Row.placesList rows ↔ ∃ r ∈ rows, p ∈ r.places := by
  induction rows with
  | nil => simp [Row.placesList]
  | cons r rows ih => simp [Row.placesList, ih]

theorem Row.placesList_eq_nil {rows : List Row} (h : ∀ r ∈ rows, r.places = []) : Row.placesList rows = [] := by
  rw [List.eq_nil_iff_forall_not_mem]
  intro p hp
  obtain ⟨r, hr, hp⟩ := Row.mem_placesList.1 hp
  rw [h r hr] at hp
  cases hp

/-- The opening of a source declares nothing and takes no address. -/
theorem File.of_mem_sourceStart {stem brief : String} {includes : List String} {id : Identifier} {i : Item}
    (h : i ∈ File.sourceStart stem brief includes id) : i.object? = none ∧ i.places = [] ∧ i.IsCounted := by
  simp only [sourceStart, List.mem_append, List.mem_cons, List.mem_map, List.not_mem_nil, or_false] at h
  obtain ((rfl | rfl | rfl | rfl) | ⟨_, _, rfl⟩) | (rfl | rfl | rfl) := h <;> exact ⟨rfl, rfl, trivial⟩

/-- The opening of a header declares nothing. -/
theorem File.object?_of_mem_headerStart {stem brief : String} {includes : List String} {id : Identifier} {i : Item}
    (h : i ∈ File.headerStart stem brief includes id) : i.object? = none := by
  simp only [headerStart, List.mem_append, List.mem_cons, List.mem_map, List.not_mem_nil, or_false] at h
  obtain ((rfl | rfl | rfl | rfl) | ⟨_, _, rfl⟩) | (rfl | rfl | rfl) := h <;> rfl

/-! ## Members -/

/-- The declaration of a member of a record type. -/
def memberText (type name : String) : Option Nat → String
  | none => s!"{type} {name};"
  | some n => s!"{type} {name}[{decimal n}];"

namespace Pair

def items (p : Pair) : List Item := p.header.items ++ p.source.items

def objects (p : Pair) : List Object := p.header.objects ++ p.source.objects

/-- A record type of the pair has the member. -/
def HasMember (p : Pair) (record type name : String) (length : Option Nat) : Prop :=
  ∃ members, Item.recordType record members ∈ p.items ∧ memberText type name length ∈ members

/-- The members lead from something of the first type and length to something of the second. -/
inductive Leads (p : Pair) : String → Option Nat → List String → String → Option Nat → Prop
  | here (type : String) (n : Option Nat) : p.Leads type n [] type n
  | member {record type name type' : String} {n n' : Option Nat} {names : List String} :
    p.HasMember record type name n → p.Leads type n names type' n' → p.Leads record none (name :: names) type' n'

/-- The address is one of an object of the pair or of a member of it. It has an index on arrays only, and the item is
one of the array; a member of length 0 has its start. -/
def Designates (p : Pair) (a : Place) : Prop :=
  ∃ o ∈ p.objects, o.name = a.object ∧ ∃ length type n, o.length = length.map .number ∧
    p.Leads o.type length a.members type n ∧
    ∀ i, a.index = some i → ∃ k, n = some k ∧ (i < k ∨ (i = 0 ∧ a.members ≠ []))

variable {p : Pair} {o : Object}

theorem mem_objects {i : Item} (hi : i ∈ p.items) (ho : i.object? = some o) : o ∈ p.objects := by
  rcases List.mem_append.1 hi with h | h
  · exact List.mem_append_left _ (File.mem_objects h ho)
  · exact List.mem_append_right _ (File.mem_objects h ho)

theorem designates_whole (ho : o ∈ p.objects) (hlength : o.length = none) : p.Designates (.whole o.name) :=
  ⟨o, ho, rfl, none, o.type, none, hlength, .here _ _, fun _ hi => nomatch hi⟩

theorem designates_item (ho : o ∈ p.objects) {n i : Nat} (hlength : o.length = some (.number n)) (hi : i < n) :
    p.Designates (.item o.name i) :=
  ⟨o, ho, rfl, some n, o.type, some n, hlength, .here _ _, fun _ h => ⟨n, rfl, .inl (Option.some.inj h ▸ hi)⟩⟩

/-- A member of a record, by its start if it is an array. -/
theorem designates_member (ho : o ∈ p.objects) (hlength : o.length = none) {names : List String} {type : String}
    {n : Option Nat} (h : p.Leads o.type none names type n) (hnames : names ≠ []) :
    p.Designates ⟨o.name, names, if n.isSome then some 0 else none⟩ := by
  refine ⟨o, ho, rfl, none, type, n, hlength, h, fun i hi => ?_⟩
  cases n with
  | none => cases hi
  | some k =>
    obtain rfl : 0 = i := Option.some.inj hi
    exact ⟨k, rfl, .inr ⟨rfl, hnames⟩⟩

/-- A table has the length of its rows, and every address that the item takes is one of the pair. -/
def Accepts (p : Pair) (i : Item) : Prop := i.IsCounted ∧ ∀ a ∈ i.places, p.Designates a

theorem accepts_of_places_eq_nil {i : Item} (hcount : i.IsCounted) (hplaces : i.places = []) : p.Accepts i :=
  ⟨hcount, fun a ha => by
    rw [hplaces] at ha
    cases ha⟩

end Pair

end BusNode
