import BusNode.Datapool.Code
import BusNode.Proofs.Code.Address
/-!
# What a pair refers to

* `File.included` — the files that a file includes; `File.Declares` — a name of one of its objects;
* `Pair.Links` — a pair includes the header of a Datapool and takes the address of its record, and else refers to the
  run-time library and to itself only.
-/

namespace BusNode

/-! ## Inclusions and addresses -/

/-- The file that an item includes. -/
def Item.included? : Item → Option String
  | .includes file => some file
  | _ => none

/-- The item includes nothing and takes such addresses only. -/
def Item.Takes (i : Item) (P : Place → Prop) : Prop := i.included? = none ∧ ∀ a ∈ i.places, P a

theorem Item.takes_of_places {i : Item} {P : Place → Prop} (hinclude : i.included? = none) (hplaces : i.places = []) :
    i.Takes P := by
  refine ⟨hinclude, fun a ha => ?_⟩
  rw [hplaces] at ha
  cases ha

theorem Expr.placesList_eq_nil {es : List Expr} (h : ∀ e ∈ es, e.places = []) : Expr.placesList es = [] := by
  induction es with
  | nil => rfl
  | cons e es ih =>
    have hhead : e.places = [] := h e (.head _)
    have htail := ih fun e' he' => h e' (.tail _ he')
    unfold placesList
    rw [hhead, htail, List.append_nil]

/-- An address is taken of an array only if it has items. -/
theorem Pointer.mem_toList_slice {array : String} {first count : Nat} {a : Place}
    (h : a ∈ Option.toList (Pointer.slice array first count)) : a.object = array ∧ count ≠ 0 := by
  rw [Option.mem_toList] at h
  refine ⟨congrArg Place.object (slice_eq_some h), fun h0 => ?_⟩
  rw [slice_eq_none.2 h0] at h
  cases h

namespace File

def included (f : File) : List String := f.items.filterMap Item.included?

def Declares (f : File) (name : String) : Prop := ∃ o ∈ f.objects, o.name = name

instance (f : File) (name : String) : Decidable (f.Declares name) :=
  inferInstanceAs (Decidable (∃ o ∈ f.objects, o.name = name))

variable {f : File} {i : Item}

theorem declares_of_mem {o : Object} (hi : i ∈ f.items) (ho : i.object? = some o) : f.Declares o.name :=
  ⟨o, mem_objects hi ho, rfl⟩

/-- What a slice of the file points to is declared there. -/
theorem Resolves.declares {s : Slice} {a : Place} (h : f.Resolves s) (ha : a ∈ s.first.toList) :
    f.Declares a.object := by
  rw [Option.mem_toList] at ha
  obtain ⟨array, i, n, rfl, ⟨o, ho, hname, -⟩, -⟩ := h.2 a ha
  exact ⟨o, ho, hname⟩

variable {stem brief file : String} {includes : List String} {id : Identifier}

/-- A header includes what it is asked to. -/
theorem included_headerStart (h : i ∈ headerStart stem brief includes id) (hfile : i.included? = some file) :
    file = "stwtypes.h" ∨ file ∈ includes := by
  simp only [headerStart, List.mem_append, List.mem_cons, List.mem_map, List.not_mem_nil, or_false] at h
  obtain ((rfl | rfl | rfl | rfl) | ⟨name, hname, rfl⟩) | (rfl | rfl | rfl) := h
  · cases hfile
  · cases hfile
  · cases hfile
  · exact .inl (Option.some.inj hfile).symm
  · exact .inr (Option.some.inj hfile ▸ hname)
  · cases hfile
  · cases hfile
  · cases hfile

/-- A source includes its own header and what it is asked to. -/
theorem included_sourceStart (h : i ∈ sourceStart stem brief includes id) (hfile : i.included? = some file) :
    file = "stwtypes.h" ∨ file = stem ++ ".h" ∨ file ∈ includes := by
  simp only [sourceStart, List.mem_append, List.mem_cons, List.mem_map, List.not_mem_nil, or_false] at h
  obtain ((rfl | rfl | rfl | rfl) | ⟨name, hname, rfl⟩) | (rfl | rfl | rfl) := h
  · cases hfile
  · cases hfile
  · exact .inl (Option.some.inj hfile).symm
  · exact .inr (.inl (Option.some.inj hfile).symm)
  · exact .inr (.inr (Option.some.inj hfile ▸ hname))
  · cases hfile
  · cases hfile
  · cases hfile

/-- The opening of a header takes no address. -/
theorem places_of_mem_headerStart (h : i ∈ headerStart stem brief includes id) : i.places = [] := by
  simp only [headerStart, List.mem_append, List.mem_cons, List.mem_map, List.not_mem_nil, or_false] at h
  obtain ((rfl | rfl | rfl | rfl) | ⟨_, _, rfl⟩) | (rfl | rfl | rfl) := h <;> rfl

end File

/-! ## Links to Datapools -/

namespace Pair

/-- The headers of the run-time library that pairs with a Datapool include. -/
def runtimeHeaders : List String :=
  ["stwtypes.h", "osy_com_configuration.h", "osy_com_canopen_configuration.h", "osy_hal_configuration.h"]

def included (p : Pair) : List String := p.header.included ++ p.source.included

def places (p : Pair) : List Place := p.header.places ++ p.source.places

/-- The pair refers to the Datapool, and else to the run-time library and to itself only. -/
structure Links (p : Pair) (d : Datapool) : Prop where
  header : d.headerName ∈ p.included
  record : .whole d.recordName ∈ p.places
  headers : ∀ file ∈ p.included, file ∈ runtimeHeaders ∨ file = p.headerName ∨ file = d.headerName
  addresses : ∀ a ∈ p.places, a = .whole d.recordName ∨ p.source.Declares a.object

section Items

variable {p : Pair} {brief brief' : String} {includes includes' : List String} {id id' : Identifier} {P : Place → Prop}

/-- A pair whose files include nothing after their opening includes what the openings are asked to. -/
theorem of_mem_included
    (hheader : ∀ i ∈ p.header.items, i ∈ File.headerStart p.stem brief includes id ∨
      i.included? = none ∧ i.places = [])
    (hsource : ∀ i ∈ p.source.items, i ∈ File.sourceStart p.stem brief' includes' id' ∨ i.Takes P)
    {file : String} (h : file ∈ p.included) :
    file = "stwtypes.h" ∨ file = p.headerName ∨ file ∈ includes ++ includes' := by
  rcases List.mem_append.1 h with h | h
  · obtain ⟨i, hi, hfile⟩ := List.mem_filterMap.1 h
    rcases hheader i hi with hi | ⟨hnone, -⟩
    · rcases File.included_headerStart hi hfile with hstandard | hmem
      · exact .inl hstandard
      · exact .inr (.inr (List.mem_append_left _ hmem))
    · rw [hnone] at hfile
      cases hfile
  · obtain ⟨i, hi, hfile⟩ := List.mem_filterMap.1 h
    rcases hsource i hi with hi | ⟨hnone, -⟩
    · rcases File.included_sourceStart hi hfile with hstandard | hown | hmem
      · exact .inl hstandard
      · exact .inr (.inl hown)
      · exact .inr (.inr (List.mem_append_right _ hmem))
    · rw [hnone] at hfile
      cases hfile

/-- A pair takes the addresses that its source takes after its opening. -/
theorem of_mem_places
    (hheader : ∀ i ∈ p.header.items, i ∈ File.headerStart p.stem brief includes id ∨
      i.included? = none ∧ i.places = [])
    (hsource : ∀ i ∈ p.source.items, i ∈ File.sourceStart p.stem brief' includes' id' ∨ i.Takes P)
    {a : Place} (h : a ∈ p.places) : P a := by
  rcases List.mem_append.1 h with h | h
  · obtain ⟨i, hi, ha⟩ := List.mem_flatMap.1 h
    rcases hheader i hi with hi | ⟨-, hnil⟩
    · rw [File.places_of_mem_headerStart hi] at ha
      cases ha
    · rw [hnil] at ha
      cases ha
  · obtain ⟨i, hi, ha⟩ := List.mem_flatMap.1 h
    rcases hsource i hi with hi | ⟨-, hplaces⟩
    · rw [(File.of_mem_sourceStart hi).2.1] at ha
      cases ha
    · exact hplaces a ha

/-- A pair links a Datapool if its files include nothing after their opening and their items refer as they may. -/
theorem links_of_items {d : Datapool}
    (hheader : ∀ i ∈ p.header.items, i ∈ File.headerStart p.stem brief includes id ∨
      i.included? = none ∧ i.places = [])
    (hsource : ∀ i ∈ p.source.items, i ∈ File.sourceStart p.stem brief' includes' id' ∨
      i.Takes fun a => a = .whole d.recordName ∨ p.source.Declares a.object)
    (hincludes : ∀ file ∈ includes ++ includes', file ∈ runtimeHeaders ∨ file = d.headerName)
    (hlinked : .includes d.headerName ∈ p.items)
    (hrecord : ∃ i ∈ p.source.items, .whole d.recordName ∈ i.places) : p.Links d := by
  refine ⟨?_, ?_, fun file hfile => ?_, fun a => of_mem_places hheader hsource⟩
  · rcases List.mem_append.1 hlinked with h | h
    · exact List.mem_append_left _ (List.mem_filterMap.2 ⟨_, h, rfl⟩)
    · exact List.mem_append_right _ (List.mem_filterMap.2 ⟨_, h, rfl⟩)
  · obtain ⟨i, hi, ha⟩ := hrecord
    exact List.mem_append_right _ (List.mem_flatMap.2 ⟨i, hi, ha⟩)
  · rcases of_mem_included hheader hsource hfile with rfl | rfl | hmem
    · exact .inl (by decide)
    · exact .inr (.inl rfl)
    · exact (hincludes file hmem).imp_right .inr

end Items

end Pair

end BusNode
