import BusNode.Proofs.Code.Reference
/-!
# Pairs that refer to other pairs

* `File.rows` — the rows of the object of a name; `File.Has` — an object of a name and a storage class;
* `Pair.Offers` — a pair has a header of a name, and defines a record for everyone;
* `Pair.ClosedIn` — every header that a pair includes and every record whose address it takes is offered by a pair, or
  else of the run-time library or of the pair itself.
-/

namespace BusNode

namespace File

/-- The rows of the objects of the name. -/
def rows (f : File) (name : String) : List Row := f.items.flatMap fun
  | .object o rows _ => if o.name = name then rows else []
  | _ => []

theorem rows_append (is js : List Item) (name : String) :
    rows ⟨is ++ js⟩ name = rows ⟨is⟩ name ++ rows ⟨js⟩ name := List.flatMap_append

/-- The opening of a source has no rows. -/
theorem rows_sourceStart (stem brief : String) (includes : List String) (id : Identifier) (name : String) :
    rows ⟨sourceStart stem brief includes id⟩ name = [] := by
  refine List.flatMap_eq_nil_iff.2 fun i hi => ?_
  have hobject := (of_mem_sourceStart hi).1
  split
  · cases hobject
  · rfl

/-- The file has an object of the name and the storage class. -/
def Has (f : File) (name : String) (storage : Storage) : Prop := ∃ o ∈ f.objects, o.name = name ∧ o.storage = storage

theorem has_of_mem {f : File} {i : Item} {o : Object} (hi : i ∈ f.items) (ho : i.object? = some o) :
    f.Has o.name o.storage := ⟨o, mem_objects hi ho, rfl, rfl⟩

end File

namespace Pair

/-- The header has the name, and the source defines the record for everyone. -/
def Offers (p : Pair) (header record : String) : Prop := p.headerName = header ∧ p.source.Has record .shared

/-- The headers of the run-time library. -/
def libraryHeaders : List String := "osy_init_configuration.h" :: runtimeHeaders

/-- The pair refers to itself, to the run-time library and to what the pairs offer only. -/
structure ClosedIn (p : Pair) (ps : List Pair) : Prop where
  headers : ∀ file ∈ p.included, file ∈ libraryHeaders ∨ ∃ q ∈ ps, q.headerName = file
  addresses : ∀ a ∈ p.places, p.source.Has a.object .internal ∨ ∃ q ∈ ps, q.source.Has a.object .shared

/-- A pair is closed if its files include nothing after their opening, and headers and records go together: the header
of what is referred to is included, and the record is taken. -/
theorem closedIn_of_items {p : Pair} {ps : List Pair} {referred : List (String × String)} {brief brief' : String}
    {includes : List String} {id id' : Identifier} (hself : p ∈ ps)
    (hoffers : ∀ r ∈ referred, ∃ q ∈ ps, q.Offers r.1 r.2)
    (hheader : ∀ i ∈ p.header.items, i ∈ File.headerStart p.stem brief includes id ∨
      i.included? = none ∧ i.places = [])
    (hsource : ∀ i ∈ p.source.items, i ∈ File.sourceStart p.stem brief' [] id' ∨
      i.Takes fun a => p.source.Has a.object .internal ∨ a.object ∈ referred.map (·.2))
    (hincludes : ∀ file ∈ includes, file ∈ libraryHeaders ∨ file ∈ referred.map (·.1)) : p.ClosedIn ps := by
  refine ⟨fun file hfile => ?_, fun a ha => ?_⟩
  · rcases of_mem_included hheader hsource hfile with rfl | rfl | hmem
    · exact .inl (by decide)
    · exact .inr ⟨p, hself, rfl⟩
    · rw [List.append_nil] at hmem
      refine (hincludes file hmem).imp_right fun hreferred => ?_
      obtain ⟨r, hr, rfl⟩ := List.mem_map.1 hreferred
      obtain ⟨q, hq, hname, -⟩ := hoffers r hr
      exact ⟨q, hq, hname⟩
  · refine (of_mem_places hheader hsource ha).imp_right fun hreferred => ?_
    obtain ⟨r, hr, hrecord⟩ := List.mem_map.1 hreferred
    obtain ⟨q, hq, -, hhas⟩ := hoffers r hr
    exact ⟨q, hq, hrecord ▸ hhas⟩

end Pair

end BusNode
