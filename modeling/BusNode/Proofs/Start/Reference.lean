import BusNode.Proofs.Code.Closure
import BusNode.Proofs.Code.Definition
import BusNode.Proofs.Start.Identity
/-!
# What the start table refers to

* `StartCode.referred` — the headers and records of everything that an application starts from;
* `StartCode.closedIn_of_generate` — the start pair is closed where all of them are offered;
* `StartCode.counts_of_generate` — its numbers of Datapools and protocols are the numbers of rows of its arrays;
* `StartCode.startsFrom_of_generate` — the addresses at the end of its record.
-/

namespace BusNode

/-- A name that the header defines is the number of rows of an array of the source. -/
def Pair.Counts (p : Pair) (name array : String) : Prop := numberOf? [p.header] name = some (p.source.rows array).length

/-- The record of the start table ends in the CANopen managers and the hardware channels of both variants. -/
def File.StartsFrom (f : File) (canOpen safe nonSafe : Pointer) : Prop :=
  (f.rows StartCode.recordName).drop 4 =
    [.commented (.pointer canOpen) "CANopen", .commented (.pointer safe) "safe HALC",
      .commented (.pointer nonSafe) "non-safe HALC"]

namespace StartCode

/-- The header and the record of everything that the table refers to. -/
def referred (x : StartCode) : List (String × String) :=
  x.datapools.map (fun d => (d.headerName, d.recordName)) ++
    x.protocols.map (fun stem => (stem ++ ".h", CommCode.recordName stem)) ++
    (if x.hasCanOpen then [(AggregateCode.stem ++ ".h", AggregateCode.recordName)] else []) ++
    x.halc.map fun v => (v.stem ++ ".h", v.recordName)

variable {x : StartCode} {id : Identifier} {p : Pair} {i : Item} {a : Place}

/-! ## Closedness -/

theorem includes_eq (x : StartCode) : x.includes = "osy_init_configuration.h" :: x.referred.map (·.1) := by
  unfold includes referred
  simp only [List.map_append, List.map_map, List.cons_append]
  cases x.hasCanOpen <;> rfl

/-- A table of addresses takes those of its objects. -/
theorem takes_of_mem_addressTable {type name length : String} {objects : List String}
    (hi : i ∈ addressTable type name length objects) : i.Takes fun a => a.object ∈ objects := by
  unfold addressTable at hi
  split at hi
  · cases hi
  · simp only [List.mem_cons, List.not_mem_nil, or_false] at hi
    rcases hi with rfl | rfl
    · exact Item.takes_of_places rfl rfl
    · refine ⟨rfl, fun a ha => ?_⟩
      obtain ⟨r, hr, ha⟩ := Row.mem_placesList.1 ha
      obtain ⟨o, ho, rfl⟩ := List.mem_map.1 hr
      obtain rfl : a = .whole o := List.mem_singleton.1 ha
      exact ho

/-- An address table that has rows is there. -/
theorem has_addressTable {f : File} {type name length : String} {objects : List String}
    (h : ∀ i ∈ addressTable type name length objects, i ∈ f.items) (hne : objects.length ≠ 0) :
    f.Has name .internal := by
  have hempty : ¬ objects.isEmpty = true := fun hnil => hne (List.length_eq_zero_iff.2 (List.isEmpty_iff.1 hnil))
  unfold addressTable at h
  rw [if_neg hempty] at h
  exact File.has_of_mem (h _ (.tail _ (.head _))) rfl

/-- The record of the driver points to the interfaces, if there are any. -/
theorem takes_of_mem_driverItems {d : DriverSettings} {f : File} (hsub : ∀ i ∈ driverItems d, i ∈ f.items)
    (hi : i ∈ driverItems d) : i.Takes fun a => f.Has a.object .internal := by
  have hplaces : Row.placesList ((d.interfaces.filter (·.diagnosisServer)).map BusInterface.row) = [] := by
    refine Row.placesList_eq_nil fun r hr => ?_
    obtain ⟨i, -, rfl⟩ := List.mem_map.1 hr
    rfl
  unfold driverItems at hi hsub
  simp only [List.mem_append, List.mem_cons, List.not_mem_nil, or_false] at hi
  rcases hi with hi | rfl | rfl
  · split at hi
    · cases hi
    · simp only [List.mem_cons, List.not_mem_nil, or_false] at hi
      rcases hi with rfl | rfl
      · exact Item.takes_of_places rfl hplaces
      · exact Item.takes_of_places rfl rfl
  · refine ⟨rfl, fun a ha => ?_⟩
    have ha : a ∈ (Pointer.slice interfacesName 0 (d.interfaces.filter (·.diagnosisServer)).length).toList := by
      simpa [Item.places, Row.noted, Row.pointer, Row.placesList, Row.places, Expr.places] using ha
    obtain ⟨hobject, hcount⟩ := Pointer.mem_toList_slice ha
    have hempty : ¬ (d.interfaces.filter (·.diagnosisServer)).isEmpty = true := fun hnil =>
      hcount (List.length_eq_zero_iff.2 (List.isEmpty_iff.1 hnil))
    dsimp only at hsub
    rw [if_neg hempty] at hsub
    have hhas : f.Has interfacesName .internal := File.has_of_mem (hsub _ (.head _)) rfl
    show f.Has a.object .internal
    rwa [hobject]
  · exact Item.takes_of_places rfl rfl

/-- The rows of the record. -/
def recordRows (x : StartCode) : List Row := [
  .constant (defined "NUMBER_OF_DATA_POOLS"),
  .pointer (.slice datapoolsName 0 x.datapools.length),
  .constant (defined "NUMBER_OF_PROTOCOLS"),
  .pointer (.slice protocolsName 0 x.protocols.length),
  .commented (.pointer (.optional (if x.hasCanOpen then some AggregateCode.recordName else none))) "CANopen",
  .commented (.pointer (x.halcPointer .safe)) "safe HALC",
  .commented (.pointer (x.halcPointer .nonSafe)) "non-safe HALC"]

theorem mem_toList_halcPointer {v : Halc.Variant} (ha : a ∈ (x.halcPointer v).toList) :
    v ∈ x.halc ∧ a.object = v.recordName := by
  rw [Option.mem_toList] at ha
  unfold halcPointer at ha
  split at ha
  · rename_i hv
    exact ⟨hv, congrArg Place.object (Option.some.inj ha).symm⟩
  · cases ha

theorem mem_places_recordRows (ha : a ∈ Row.placesList x.recordRows) :
    (a.object = datapoolsName ∧ x.datapools.length ≠ 0) ∨ (a.object = protocolsName ∧ x.protocols.length ≠ 0) ∨
      a.object ∈ x.referred.map (·.2) := by
  have ha : a ∈ (Pointer.slice datapoolsName 0 x.datapools.length).toList ∨
      a ∈ (Pointer.slice protocolsName 0 x.protocols.length).toList ∨
      a ∈ (Pointer.optional (if x.hasCanOpen then some AggregateCode.recordName else none)).toList ∨
      a ∈ (x.halcPointer .safe).toList ∨ a ∈ (x.halcPointer .nonSafe).toList := by
    simpa [recordRows, Row.constant, Row.pointer, Row.commented, Row.placesList, Row.places, Expr.places] using ha
  refine ha.imp Pointer.mem_toList_slice (.imp Pointer.mem_toList_slice fun ha => ?_)
  have hhalc {v : Halc.Variant} (ha : a ∈ (x.halcPointer v).toList) : a.object ∈ x.referred.map (·.2) := by
    obtain ⟨hv, hobject⟩ := mem_toList_halcPointer ha
    have hmem : (v.stem ++ ".h", v.recordName) ∈ x.referred :=
      List.mem_append_right _ (List.mem_map_of_mem (f := fun v => (Halc.Variant.stem v ++ ".h", v.recordName)) hv)
    exact List.mem_map.2 ⟨_, hmem, hobject.symm⟩
  rcases ha with ha | ha | ha
  · rw [Option.mem_toList] at ha
    split at ha
    · rename_i hcanOpen
      obtain rfl : Place.whole AggregateCode.recordName = a := Option.some.inj ha
      have hmem : (AggregateCode.stem ++ ".h", AggregateCode.recordName) ∈ x.referred := by
        unfold referred
        rw [if_pos hcanOpen]
        simp only [List.mem_append, List.mem_cons, true_or, or_true]
      exact List.mem_map.2 ⟨_, hmem, rfl⟩
    · cases ha
  · exact hhalc ha
  · exact hhalc ha

/-- What the source has of the driver, if there is one. -/
def driverCode (driver : Option DriverSettings) : List Item := (driver.map driverItems).getD []

theorem source_eq (x : StartCode) (id : Identifier) : x.source id =
    ⟨File.sourceStart stem "Runtime initialization" [] id ++ [Item.heading "Module Global Constants"] ++
      addressTable "T_osy_dpa_data_pool" datapoolsName "NUMBER_OF_DATA_POOLS" (x.datapools.map Datapool.recordName) ++
      addressTable "T_osy_com_protocol_configuration" protocolsName "NUMBER_OF_PROTOCOLS"
        (x.protocols.map CommCode.recordName) ++
      [Item.heading "Global Constants"] ++ driverCode x.driver ++
      [Item.object (.sharedRecord "T_osy_init_configuration" recordName) x.recordRows none]⟩ := by
  unfold source
  cases x.driver <;> rfl

theorem inner_of_mem_header (hi : i ∈ (x.header id).items) :
    i ∈ File.headerStart stem "Runtime initialization" x.includes id ∨ i.included? = none ∧ i.places = [] := by
  simp only [header, File.headerEnd, List.mem_append, List.mem_cons, List.not_mem_nil, or_false] at hi
  rcases hi with ((hi | hi) | hi) | hi
  · exact .inl hi
  · right
    rcases hi with rfl | rfl | rfl | rfl | rfl <;> exact ⟨rfl, rfl⟩
  · right
    split at hi
    · obtain rfl := List.mem_singleton.1 hi
      exact ⟨rfl, rfl⟩
    · cases hi
  · right
    rcases hi with rfl | rfl <;> exact ⟨rfl, rfl⟩

theorem mem_referred_of_datapool {d : Datapool} (hd : d ∈ x.datapools) : (d.headerName, d.recordName) ∈ x.referred := by
  have := List.mem_map_of_mem (f := fun d => (Datapool.headerName d, d.recordName)) hd
  simp only [referred, List.mem_append, this, true_or]

theorem mem_referred_of_protocol {s : String} (hs : s ∈ x.protocols) :
    (s ++ ".h", CommCode.recordName s) ∈ x.referred := by
  have := List.mem_map_of_mem (f := fun s => (s ++ ".h", CommCode.recordName s)) hs
  simp only [referred, List.mem_append, this, true_or, or_true]

/-- The source refers to its own tables and to the records that the application starts from. -/
theorem takes_of_mem_source (hi : i ∈ (x.source id).items) :
    i ∈ File.sourceStart stem "Runtime initialization" [] id ∨
      i.Takes fun a => (x.source id).Has a.object .internal ∨ a.object ∈ x.referred.map (·.2) := by
  have hdatapools : ∀ i ∈ addressTable "T_osy_dpa_data_pool" datapoolsName "NUMBER_OF_DATA_POOLS"
      (x.datapools.map Datapool.recordName), i ∈ (x.source id).items := fun i hi => by
    simp only [source_eq, List.mem_append, hi, true_or, or_true]
  have hprotocols : ∀ i ∈ addressTable "T_osy_com_protocol_configuration" protocolsName "NUMBER_OF_PROTOCOLS"
      (x.protocols.map CommCode.recordName), i ∈ (x.source id).items := fun i hi => by
    simp only [source_eq, List.mem_append, hi, true_or, or_true]
  have hdriver : ∀ i ∈ driverCode x.driver, i ∈ (x.source id).items := fun i hi => by
    simp only [source_eq, List.mem_append, hi, true_or, or_true]
  rw [source_eq] at hi
  simp only [List.mem_append, List.mem_cons, List.not_mem_nil, or_false] at hi
  rcases hi with (((((hi | rfl) | hi) | hi) | rfl) | hi) | rfl
  · exact .inl hi
  · exact .inr (Item.takes_of_places rfl rfl)
  · refine .inr ((takes_of_mem_addressTable hi).imp_right fun h a ha => .inr ?_)
    obtain ⟨d, hd, hrecord⟩ := List.mem_map.1 (h a ha)
    exact List.mem_map.2 ⟨_, mem_referred_of_datapool hd, hrecord⟩
  · refine .inr ((takes_of_mem_addressTable hi).imp_right fun h a ha => .inr ?_)
    obtain ⟨s, hs, hrecord⟩ := List.mem_map.1 (h a ha)
    exact List.mem_map.2 ⟨_, mem_referred_of_protocol hs, hrecord⟩
  · exact .inr (Item.takes_of_places rfl rfl)
  · right
    cases hsome : x.driver with
    | none =>
      rw [hsome] at hi
      cases hi
    | some d =>
      rw [hsome] at hi hdriver
      exact (takes_of_mem_driverItems hdriver hi).imp_right fun h a ha => .inl (h a ha)
  · refine .inr ⟨rfl, fun a ha => ?_⟩
    rcases mem_places_recordRows ha with ⟨hobject, hn⟩ | ⟨hobject, hn⟩ | hmem
    · exact .inl (hobject ▸ has_addressTable hdatapools (by rwa [List.length_map]))
    · exact .inl (hobject ▸ has_addressTable hprotocols (by rwa [List.length_map]))
    · exact .inr hmem

/-- **The start pair refers to what the application starts from**, and else to the run-time library and itself. -/
theorem closedIn_of_generate {ps : List Pair} (h : (x.generate id).result = .ok p) (hself : p ∈ ps)
    (hoffers : ∀ r ∈ x.referred, ∃ q ∈ ps, q.Offers r.1 r.2) : p.ClosedIn ps := by
  obtain rfl := generate_eq_ok h
  refine Pair.closedIn_of_items hself hoffers (fun i hi => inner_of_mem_header hi)
    (fun i hi => takes_of_mem_source hi) fun file hfile => ?_
  rw [includes_eq, List.mem_cons] at hfile
  refine hfile.imp_left ?_
  rintro rfl
  decide

/-! ## Numbers -/

theorem meanings_header {name : String} {c : Char} (hname : (upper stem).toList ++ ['_', c] <+: name.toList)
    (hguard : c ≠ 'H') (hidentifier : c ≠ 'P') :
    (x.header id).meanings name =
      (if defined "NUMBER_OF_DATA_POOLS" = name then [.number x.datapools.length] else []) ++
      if defined "NUMBER_OF_PROTOCOLS" = name then [.number x.protocols.length] else [] := by
  have hend : File.meanings ⟨[Item.heading "Global Constants",
      .declare (.externRecord "T_osy_init_configuration" recordName) none] ++
      (if x.driver.isSome then [Item.declare (.externRecord "T_osy_dpd_configuration" driverName) none] else []) ++
      File.headerEnd⟩ name = [] := by
    cases x.driver <;> rfl
  unfold header
  simp only [List.append_assoc]
  rw [File.meanings_headerStart_append hname hguard hidentifier]
  show File.meanings ⟨.define _ "" _ :: .define _ "" _ :: _⟩ name = _
  rw [File.meanings_define, File.meanings_define]
  exact congrArg _ ((congrArg _ hend).trans (List.append_nil _))

theorem rows_addressTable (type table length name : String) (objects : List String) :
    File.rows ⟨addressTable type table length objects⟩ name =
      if table = name then objects.map fun o => Row.pointer (some (.whole o)) else [] := by
  unfold addressTable
  split
  · rename_i hnil
    rw [List.isEmpty_iff.1 hnil, List.map_nil, ite_self]
    rfl
  · exact List.append_nil _

/-- No name of the driver is one of the start table. -/
theorem rows_driverItems {d : DriverSettings} {name : String} (hinterfaces : interfacesName ≠ name)
    (hdriver : driverName ≠ name) : File.rows ⟨driverItems d⟩ name = [] := by
  refine List.flatMap_eq_nil_iff.2 fun i hi => ?_
  simp only [driverItems, List.mem_append, List.mem_cons, List.not_mem_nil, or_false] at hi
  rcases hi with hi | rfl | rfl
  · split at hi
    · cases hi
    · simp only [List.mem_cons, List.not_mem_nil, or_false] at hi
      rcases hi with rfl | rfl
      · exact if_neg hinterfaces
      · rfl
  · exact if_neg hdriver
  · rfl

/-- The rows of the source by their objects. -/
theorem rows_source {name : String} (hinterfaces : interfacesName ≠ name) (hdriver : driverName ≠ name) :
    (x.source id).rows name =
      (if datapoolsName = name then (x.datapools.map Datapool.recordName).map fun o => Row.pointer (some (.whole o))
        else []) ++
      (if protocolsName = name then (x.protocols.map CommCode.recordName).map fun o => Row.pointer (some (.whole o))
        else []) ++
      if recordName = name then x.recordRows else [] := by
  have hrows : File.rows ⟨driverCode x.driver⟩ name = [] := by
    cases x.driver with
    | none => rfl
    | some d => exact rows_driverItems hinterfaces hdriver
  rw [source_eq, File.rows_append, File.rows_append, File.rows_append, File.rows_append, File.rows_append,
    File.rows_append, File.rows_sourceStart, rows_addressTable, rows_addressTable, hrows]
  show [] ++ [] ++ _ ++ _ ++ [] ++ [] ++ ((if recordName = name then x.recordRows else []) ++ []) = _
  simp only [List.append_nil, List.nil_append]

theorem meanings_numberOfDatapools (x : StartCode) (id : Identifier) :
    (x.header id).meanings (defined "NUMBER_OF_DATA_POOLS") = [.number x.datapools.length] := by
  rw [meanings_header (c := 'N') (by decide +kernel) (by decide) (by decide), if_pos rfl, if_neg (by decide +kernel),
    List.append_nil]

theorem meanings_numberOfProtocols (x : StartCode) (id : Identifier) :
    (x.header id).meanings (defined "NUMBER_OF_PROTOCOLS") = [.number x.protocols.length] := by
  rw [meanings_header (c := 'N') (by decide +kernel) (by decide) (by decide), if_neg (by decide +kernel), if_pos rfl,
    List.nil_append]

/-- **The numbers of Datapools and protocols are those of the rows of their arrays.** -/
theorem counts_of_generate (h : (x.generate id).result = .ok p) :
    p.Counts (defined "NUMBER_OF_DATA_POOLS") datapoolsName ∧
      p.Counts (defined "NUMBER_OF_PROTOCOLS") protocolsName := by
  obtain rfl := generate_eq_ok h
  have hdatapoolRows : ((x.source id).rows datapoolsName).length = x.datapools.length := by
    rw [rows_source (by decide) (by decide), if_pos rfl, if_neg (by decide), if_neg (by decide)]
    simp only [List.append_nil, List.length_map]
  have hprotocolRows : ((x.source id).rows protocolsName).length = x.protocols.length := by
    rw [rows_source (by decide) (by decide), if_neg (by decide), if_pos rfl, if_neg (by decide)]
    simp only [List.append_nil, List.nil_append, List.length_map]
  unfold Pair.Counts numberOf?
  rw [hdatapoolRows, hprotocolRows, List.flatMap_singleton, List.flatMap_singleton, meanings_numberOfDatapools,
    meanings_numberOfProtocols]
  exact ⟨rfl, rfl⟩

/-- The record ends in the addresses of what is not in the arrays. -/
theorem startsFrom_of_generate (h : (x.generate id).result = .ok p) :
    p.source.StartsFrom (.optional (if x.hasCanOpen then some AggregateCode.recordName else none))
      (x.halcPointer .safe) (x.halcPointer .nonSafe) := by
  obtain rfl := generate_eq_ok h
  unfold File.StartsFrom
  rw [rows_source (by decide) (by decide), if_neg (by decide), if_neg (by decide), if_pos rfl]
  rfl

end StartCode

end BusNode
