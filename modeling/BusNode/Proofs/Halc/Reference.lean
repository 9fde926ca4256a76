import BusNode.Proofs.Code.Reference
import BusNode.Proofs.Halc.Identity
import BusNode.Proofs.Halc.Object
/-!
# What a pair of hardware channels refers to

The records of a domain are constants, and the row of the domain points to the object with these records
(`HalcCode.IsCode.exists_object`), so beside its own records the pair refers to its Datapool only
(`HalcCode.links_of_generate`).
-/

namespace BusNode

open Halc

namespace HalcCode

variable {x : HalcCode} {id : Identifier} {pair : Pair} {d : Domain} {i : Item} {a : Place}

/-! ## Records -/

theorem IsRecord.places_eq_nil {r : Entry} {e : Expr} (h : IsRecord d r e) : e.places = [] := by
  obtain ⟨⟨literals, rfl, -⟩, -⟩ := h
  refine Expr.placesList_eq_nil fun e he => ?_
  rcases List.mem_cons.1 he with rfl | he
  · rfl
  · obtain ⟨s, -, rfl⟩ := List.mem_map.1 he
    rfl

theorem IsObject.inner {channels : Pointer} {objects : List Item} (h : x.IsObject d channels objects)
    (hi : i ∈ objects) : i.included? = none ∧ i.places = [] := by
  cases h with
  | own hown he =>
    obtain rfl := List.mem_singleton.1 hi
    exact ⟨rfl, he.places_eq_nil⟩
  | absent hown h => cases hi
  | single h he =>
    obtain rfl := List.mem_singleton.1 hi
    exact ⟨rfl, he.places_eq_nil⟩
  | array h hrows =>
    obtain rfl := List.mem_singleton.1 hi
    refine ⟨rfl, Row.placesList_eq_nil fun r hr => ?_⟩
    obtain ⟨c, -, e, rfl, he⟩ := exists_of_mem_right hrows hr
    exact he.places_eq_nil

namespace IsCode

variable {c : List Item × DomainRow}

/-- The items of a domain take no address. -/
theorem inner (h : x.IsCode d c) (hi : i ∈ c.1) : i.included? = none ∧ i.places = [] := by
  obtain ⟨objects, hobject, hitems⟩ := h.items
  rw [hitems] at hi
  obtain ⟨j, hj, hi⟩ := List.mem_flatMap.1 hi
  rcases List.mem_cons.1 hi with rfl | hi
  · exact ⟨rfl, rfl⟩
  · obtain rfl := List.mem_singleton.1 hi
    exact hobject.inner hj

/-- The row of a domain points to an object among its items. -/
theorem exists_object (h : x.IsCode d c) (ha : a ∈ c.2.channels.toList) :
    ∃ i ∈ c.1, ∃ o, i.object? = some o ∧ o.name = a.object := by
  obtain ⟨objects, hobject, hitems⟩ := h.items
  rw [Option.mem_toList] at ha
  rcases hobject.object with ⟨hnone, -⟩ | ⟨b, i, o, hb, rfl, ho, hname, -⟩
  · cases ha.symm.trans hnone
  · obtain rfl := Option.some.inj (ha.symm.trans hb)
    refine ⟨i, ?_, o, ho, hname⟩
    rw [hitems]
    exact List.mem_flatMap.2 ⟨i, .head _, .tail _ (.head _)⟩

end IsCode

/-! ## The pair -/

/-- What the header says that it is. -/
def brief (x : HalcCode) : String :=
  match x.variant with
  | .safe => "Safe hardware channel configuration"
  | .nonSafe => "Non-safe hardware channel configuration"

theorem inner_of_mem_header (hi : i ∈ (x.header id).items) :
    i ∈ File.headerStart x.stem x.brief ["osy_hal_configuration.h", x.datapool.headerName] id ∨
      i.included? = none ∧ i.places = [] := by
  simp only [header, File.headerEnd, List.mem_append, List.mem_cons, List.mem_map, List.mem_flatMap, List.not_mem_nil,
    or_false] at hi
  rcases hi with (((((hi | hi) | hi) | hi) | hi) | hi) | hi
  · exact .inl hi
  · right
    rcases hi with rfl | rfl <;> exact ⟨rfl, rfl⟩
  · obtain ⟨-, -, rfl⟩ := hi
    exact .inr ⟨rfl, rfl⟩
  · obtain rfl := hi
    exact .inr ⟨rfl, rfl⟩
  · obtain ⟨-, -, rfl | rfl⟩ := hi <;> exact .inr ⟨rfl, rfl⟩
  · right
    rcases hi with rfl | rfl <;> exact ⟨rfl, rfl⟩
  · right
    rcases hi with rfl | rfl <;> exact ⟨rfl, rfl⟩

/-- The record of the variant. -/
def recordRows (x : HalcCode) (rows : List DomainRow) : List Row := [
  .constant x.variant.tag,
  .constant x.mode.tag,
  .pointer (some (.whole x.datapool.recordName)),
  .noted (Literal.count rows.length) "number of domains",
  .pointer (.slice x.domainsName 0 rows.length)]

theorem mem_places_recordRows {rows : List DomainRow} (ha : a ∈ Row.placesList (x.recordRows rows)) :
    a = .whole x.datapool.recordName ∨ a.object = x.domainsName ∧ rows.length ≠ 0 := by
  have ha : a = .whole x.datapool.recordName ∨ a ∈ (Pointer.slice x.domainsName 0 rows.length).toList := by
    simpa [recordRows, Row.noted, Row.pointer, Row.constant, Row.placesList, Row.places, Expr.places] using ha
  exact ha.imp_right Pointer.mem_toList_slice

/-- The items of the source, given the records and rows of the domains. -/
def sourceItems (x : HalcCode) (id : Identifier) (records : List (List Item)) (rows : List DomainRow) : List Item :=
  File.sourceStart x.stem "Hardware channel configuration" [] id ++
    [Item.heading "Module Global Constants"] ++
    records.flatten ++
    (if rows.isEmpty then []
      else [Item.blank, .object (.table "T_osy_hal_domain_configuration" x.domainsName rows.length)
        (rows.map DomainRow.row) none]) ++
    [Item.heading "Global Constants",
      .object (.sharedRecord "T_osy_hal_configuration" x.variant.recordName) (x.recordRows rows) none]

variable {code : List (List Item × DomainRow)} {c : List Item × DomainRow}

theorem exists_code {f : File} (h : x.source id = .ok f) : ∃ code, List.Forall₂ x.IsCode x.domains code ∧
    f = ⟨x.sourceItems id (code.map (·.1)) (code.map (·.2))⟩ := by
  obtain ⟨code, hcode, h⟩ := bind_eq_ok.1 h
  refine ⟨code, (mapM_eq_ok.1 hcode).imp fun _ _ => domainCode_eq_ok, ?_⟩
  rw [← pure_eq_ok.1 h, sourceItems, ← List.flatMap_def]
  rfl

theorem mem_sourceItems_of_code {rows : List DomainRow} (hc : c ∈ code) (hi : i ∈ c.1) :
    i ∈ x.sourceItems id (code.map (·.1)) rows := by
  have := List.mem_flatten_of_mem (List.mem_map_of_mem (f := (·.1)) hc) hi
  simp only [sourceItems, List.mem_append, this, true_or, or_true]

/-- The table of domains is there if it has rows. -/
theorem declares_domainsName {records : List (List Item)} {rows : List DomainRow} (h : rows.length ≠ 0) :
    File.Declares ⟨x.sourceItems id records rows⟩ x.domainsName := by
  have hne : rows.isEmpty ≠ true := fun hnil => h (List.length_eq_zero_iff.2 (List.isEmpty_iff.1 hnil))
  have htable : .object (.table "T_osy_hal_domain_configuration" x.domainsName rows.length) (rows.map DomainRow.row)
      none ∈ x.sourceItems id records rows := by
    simp only [sourceItems, if_neg hne, List.mem_append, List.mem_cons, true_or, or_true]
  exact File.declares_of_mem htable rfl

/-- The record refers to the Datapool and to the table of domains, and this to the objects of the domains. -/
theorem takes_of_mem_sourceItems (h : List.Forall₂ x.IsCode x.domains code)
    (hi : i ∈ x.sourceItems id (code.map (·.1)) (code.map (·.2))) :
    i ∈ File.sourceStart x.stem "Hardware channel configuration" [] id ∨
      i.Takes fun a => a = .whole x.datapool.recordName ∨
        File.Declares ⟨x.sourceItems id (code.map (·.1)) (code.map (·.2))⟩ a.object := by
  have hi' := hi
  simp only [sourceItems, List.mem_append, List.mem_cons, List.not_mem_nil, or_false] at hi'
  rcases hi' with (((hi' | rfl) | hi') | hi') | rfl | rfl
  · exact .inl hi'
  · exact .inr (Item.takes_of_places rfl rfl)
  · obtain ⟨items, hitems, hi'⟩ := List.mem_flatten.1 hi'
    obtain ⟨c, hc, rfl⟩ := List.mem_map.1 hitems
    obtain ⟨d, -, hd⟩ := exists_of_mem_right h hc
    obtain ⟨hinclude, hplaces⟩ := hd.inner hi'
    exact .inr (Item.takes_of_places hinclude hplaces)
  · right
    split at hi'
    · cases hi'
    · simp only [List.mem_cons, List.not_mem_nil, or_false] at hi'
      rcases hi' with rfl | rfl
      · exact Item.takes_of_places rfl rfl
      · refine ⟨rfl, fun a ha => .inr ?_⟩
        obtain ⟨row, hrow, ha⟩ := Row.mem_placesList.1 ha
        obtain ⟨r, hr, rfl⟩ := List.mem_map.1 hrow
        obtain ⟨c, hc, rfl⟩ := List.mem_map.1 hr
        have ha : a ∈ c.2.channels.toList := by
          simpa [DomainRow.row, Row.commented, Row.places, Expr.places, Expr.placesList] using ha
        obtain ⟨d, -, hd⟩ := exists_of_mem_right h hc
        obtain ⟨i, hi, o, ho, hname⟩ := hd.exists_object ha
        rw [← hname]
        exact File.declares_of_mem (mem_sourceItems_of_code hc hi) ho
  · exact .inr (Item.takes_of_places rfl rfl)
  · refine .inr ⟨rfl, fun a ha => ?_⟩
    rcases mem_places_recordRows ha with rfl | ⟨hobject, hlength⟩
    · exact .inl rfl
    · rw [hobject]
      exact .inr (declares_domainsName hlength)

/-- **The pair of a variant refers to its Datapool**, and else to the run-time library and itself. -/
theorem links_of_generate (h : (x.generate id).result = .ok pair) : pair.Links x.datapool := by
  obtain ⟨f, hf, rfl⟩ := generate_eq_ok h
  obtain ⟨code, hcode, rfl⟩ := exists_code hf
  refine Pair.links_of_items (fun i hi => inner_of_mem_header hi)
    (fun i hi => takes_of_mem_sourceItems hcode hi) ?_ ?_ ?_
  · intro file hfile
    simp only [List.append_nil, List.mem_cons, List.not_mem_nil, or_false] at hfile
    rcases hfile with rfl | rfl
    · exact .inl (by decide)
    · exact .inr rfl
  · refine List.mem_append_left _ ?_
    simp only [header, File.headerStart, List.mem_append, List.mem_cons, List.map_cons, true_or, or_true]
  · refine ⟨.object (.sharedRecord "T_osy_hal_configuration" x.variant.recordName)
      (x.recordRows (code.map (·.2))) none, ?_, ?_⟩
    · simp only [sourceItems, List.mem_append, List.mem_cons, true_or, or_true]
    · refine Row.mem_placesList.2 ⟨.pointer (some (.whole x.datapool.recordName)), ?_, .head _⟩
      simp only [recordRows, List.mem_cons, true_or, or_true]

end HalcCode

end BusNode
