import BusNode.Proofs.Can.Layout
import BusNode.Proofs.CanOpen.Tables
import BusNode.Proofs.Datapool.Size
import BusNode.Proofs.Node.Closure
/-!
# Arrays of generated pairs

C has no arrays without items, so every table stands under the condition that it has rows, and the length that it is
declared with is the number of them, or a name for it. The members of the record types of a Datapool are declared with
the sizes of its elements, which nothing checks.

* `Source.recordTypes` — the record types that a pair defines;
* `Source.isSized_of_generate` — every array of a pair has items, and its record types are those of its source;
* `Source.arrays_have_items` — the members of the record types have items just if no element is an array of none.
-/

namespace BusNode

open Can CanOpen

variable {number? : String → Option Nat} {types : List RecordType} {id : Identifier} {p : Pair}

/-! ## Communication -/

namespace CommCode

variable {x : CommCode} {dir : Direction}

theorem isSized_tableItems {type name : String} {rows : List Row} :
    ∀ i ∈ tableItems type name rows, i.IsSized number? types := by
  intro i hi
  unfold tableItems at hi
  split at hi
  · cases hi
  · rename_i hrows
    exact Item.isSized_after_blank hi (Object.hasItems_table _ _ (mt List.isEmpty_iff_length_eq_zero.2 hrows))

theorem isSized_directionItems {t : CommTables} : ∀ i ∈ x.directionItems dir t, i.IsSized number? types := by
  intro i hi
  unfold directionItems at hi
  rcases List.mem_append.1 hi with hi | hi
  · rcases List.mem_append.1 hi with hi | hi <;> exact isSized_tableItems i hi
  · exact isSized_tableItems i hi

theorem isSized_statusItems {t : CommTables} : ∀ i ∈ x.statusItems dir t, i.IsSized number? types := by
  intro i hi
  unfold statusItems at hi
  split at hi
  · cases hi
  · rename_i hcount
    obtain rfl := List.mem_singleton.1 hi
    rintro _ ⟨⟩
    exact ⟨_, rfl, Nat.pos_of_ne_zero hcount⟩

theorem isSized_messageDefines : ∀ i ∈ x.messageDefines dir, i.IsSized number? types := by
  intro i hi
  simp only [messageDefines, List.mem_append, List.mem_cons, List.mem_map, List.not_mem_nil, or_false] at hi
  obtain (rfl | rfl) | ⟨_, _, rfl⟩ := hi <;> trivial

theorem isSized_of_generate (h : (x.generate id).result = .ok p) : ∀ i ∈ p.items, i.IsSized number? types := by
  obtain ⟨stack, tx, rx, -, -, -, -, -, rfl⟩ := generate_eq_ok h
  intro i hi
  rcases List.mem_append.1 hi with hi | hi
  · simp only [header, List.mem_append, List.mem_cons, List.not_mem_nil, or_false] at hi
    obtain (((hi | hi) | hi) | rfl | rfl) | hi := hi
    · exact File.isSized_headerStart i hi
    · exact isSized_messageDefines i hi
    · exact isSized_messageDefines i hi
    · trivial
    · exact Object.hasItems_of_length rfl
    · exact File.isSized_headerEnd i hi
  · simp only [source, List.mem_append, List.mem_cons, List.not_mem_nil, or_false] at hi
    obtain (((((hi | hi) | rfl) | hi) | hi) | hi) | rfl | rfl := hi
    · exact File.isSized_sourceStart i hi
    · split at hi
      · cases hi
      · simp only [List.mem_cons, List.mem_append] at hi
        obtain rfl | hi | hi := hi
        · trivial
        · exact isSized_statusItems i hi
        · exact isSized_statusItems i hi
    · trivial
    · exact isSized_directionItems i hi
    · exact isSized_directionItems i hi
    · exact isSized_tableItems i hi
    · trivial
    · exact Object.hasItems_of_length rfl

end CommCode

/-! ## CANopen managers -/

namespace ManagerCode

variable {x : ManagerCode} {dir : Direction}

/-- The writes of a device begin with the number of them, so there are bytes even if there is no write. -/
theorem isSized_dcfItems {d : DevicePlan} : ∀ i ∈ x.dcfItems d, i.IsSized number? types := by
  intro i hi
  simp only [dcfItems, List.mem_cons, List.not_mem_nil, or_false] at hi
  obtain rfl | rfl | rfl := hi
  · trivial
  · trivial
  · exact Object.hasItems_table _ _ (Nat.ne_of_gt (Nat.lt_of_lt_of_le (by decide) (Nat.le_add_right 4 _)))

theorem isSized_pdoItems {t : PdoTables} : ∀ i ∈ x.pdoItems dir t, i.IsSized number? types := by
  intro i hi
  unfold pdoItems at hi
  rcases List.mem_append.1 hi with hi | hi <;> exact CommCode.isSized_tableItems i hi

theorem isSized_of_generate (h : (x.generate id).result = .ok p) : ∀ i ∈ p.items, i.IsSized number? types := by
  obtain ⟨q, f, -, hf, rfl⟩ := generate_eq_ok h
  obtain ⟨tx, rx, -, -, rfl⟩ := source_eq_ok hf
  intro i hi
  rcases List.mem_append.1 hi with hi | hi
  · simp only [header, List.mem_append, List.mem_cons, List.mem_map, List.not_mem_nil, or_false] at hi
    obtain (((hi | hi) | ⟨_, _, rfl⟩) | rfl | rfl) | hi := hi
    · exact File.isSized_headerStart i hi
    · obtain rfl | rfl | rfl | rfl | rfl := hi <;> trivial
    · trivial
    · trivial
    · exact Object.hasItems_of_length rfl
    · exact File.isSized_headerEnd i hi
  · simp only [sourceItems, List.mem_append, List.mem_cons, List.mem_flatMap, List.not_mem_nil, or_false] at hi
    obtain (((((hi | rfl) | ⟨_, _, hi⟩) | hi) | hi) | hi) | rfl | rfl := hi
    · exact File.isSized_sourceStart i hi
    · trivial
    · exact isSized_dcfItems i hi
    · exact CommCode.isSized_tableItems i hi
    · exact isSized_pdoItems i hi
    · exact isSized_pdoItems i hi
    · trivial
    · exact Object.hasItems_of_length rfl

end ManagerCode

/-! ## All managers together -/

/-- A header has the numbers of a manager, and no name of another one. -/
structure ManagerSummary.StandsIn (m : ManagerSummary) (f : File) : Prop where
  own : ∀ k ∈ AggregateCode.countedKinds,
    f.meanings (ManagerCode.defineStem m.interface ++ "_" ++ k.number) = [.number (k.count m)]
  other : ∀ interface, m.interface ≠ interface → ∀ suffix,
    f.meanings (ManagerCode.defineStem interface ++ "_" ++ suffix) = []

/-- The summary of a manager stands in its header. -/
theorem ManagerCode.standsIn_of_generate {x : ManagerCode} (h : (x.generate id).result = .ok p) :
    (ManagerSummary.of x.interface x.manager x.container).StandsIn p.header := by
  obtain ⟨q, f, hq, -, rfl⟩ := generate_eq_ok h
  exact ⟨fun k hk => AggregateCode.meanings_manager hq hk, fun _ hne suffix => meanings_header_of_ne hne suffix⟩

/-- Where no two managers are of one interface, their numbers are known by their headers. -/
theorem ManagerSummary.numberOf?_eq {ms : List ManagerSummary} {headers : List File}
    (hdistinct : (ms.map (·.interface)).Nodup) (hheaders : List.Forall₂ StandsIn ms headers) {m : ManagerSummary}
    (hm : m ∈ ms) {k : InstanceKind} (hk : k ∈ AggregateCode.countedKinds) :
    numberOf? headers (ManagerCode.defineStem m.interface ++ "_" ++ k.number) = some (k.count m) := by
  have hmeanings (m' : ManagerSummary) (f : File) (h : m'.StandsIn f) :
      (if m'.interface = m.interface then [Meaning.number (k.count m')] else []) =
        f.meanings (ManagerCode.defineStem m.interface ++ "_" ++ k.number) := by
    split
    · rename_i hsame
      rw [← hsame, h.own k hk]
    · rename_i hne
      exact (h.other _ hne _).symm
  refine numberOf?_of_meanings ?_
  rw [List.flatMap_def, ← map_eq_of_forall₂ hheaders hmeanings, ← List.flatMap_def,
    flatMap_eq_of_nodup hdistinct hm fun m' _ hne => if_neg hne, if_pos rfl]

namespace AggregateCode

variable {x : AggregateCode}

theorem managers_ne_nil (h : (x.generate id).result = .ok p) : x.managers ≠ [] := by
  intro hnil
  unfold generate at h
  rw [hnil] at h
  cases h

theorem isSized_header : ∀ i ∈ (x.header id).items, i.IsSized number? types := by
  intro i hi
  simp only [header, List.mem_append, List.mem_cons, List.mem_map, List.not_mem_nil, or_false] at hi
  obtain (((hi | hi) | ⟨_, _, rfl⟩) | rfl | rfl) | hi := hi
  · exact File.isSized_headerStart i hi
  · obtain rfl | rfl := hi <;> trivial
  · trivial
  · trivial
  · exact Object.hasItems_of_length rfl
  · exact File.isSized_headerEnd i hi

/-- An instance table is there only if the managers have something of its kind, and there is a manager. -/
theorem isSized_of_generate (h : (x.generate id).result = .ok p)
    (hnumbers : ∀ m ∈ x.managers, ∀ k ∈ countedKinds,
      number? (ManagerCode.defineStem m.interface ++ "_" ++ k.number) = some (k.count m)) :
    ∀ i ∈ p.items, i.IsSized (p.header.number? number?) types := by
  have hnumber {k : InstanceKind} (hk : k ∈ kinds) :
      p.header.number? number? (defined k.number) = some (x.total k) := by
    obtain ⟨m, hm, hvalue⟩ := (sums_of_generate h hnumbers hk).meaning
    rw [File.number?_of_meanings hm, hvalue]
  have hmanagers : x.total ⟨"ManagerInstances", "manager", "NUMBER_OF_MANAGERS", fun _ => 1⟩ ≠ 0 := by
    unfold total
    rw [List.map_const', List.sum_replicate_nat, Nat.mul_one]
    exact fun h0 => managers_ne_nil h (List.length_eq_zero_iff.1 h0)
  obtain rfl := generate_eq_ok h
  intro i hi
  rcases List.mem_append.1 hi with hi | hi
  · exact isSized_header i hi
  · rcases mem_source.1 hi with hi | rfl | ⟨k, hk, htotal, rfl⟩ | rfl | rfl | rfl | rfl
    · exact File.isSized_sourceStart i hi
    · trivial
    · exact Object.hasItems_symbol rfl (hnumber hk) htotal
    · trivial
    · exact Object.hasItems_symbol rfl (hnumber (.head _)) hmanagers
    · trivial
    · exact Object.hasItems_of_length rfl

end AggregateCode

/-! ## Hardware channels -/

namespace HalcCode

variable {x : HalcCode} {d : Halc.Domain}

/-- The record types of the domains. -/
def recordTypes (x : HalcCode) : List RecordType :=
  x.domains.map fun d => ⟨x.channelType d,
    ⟨"uint32", "u32_UseCase", none⟩ ::
      d.parameters.map fun q => ⟨q.type.cType, s!"{q.type.marker false}_{q.name}", none⟩⟩

theorem item_channelType (d : Halc.Domain) :
    RecordType.item ⟨x.channelType d, ⟨"uint32", "u32_UseCase", none⟩ ::
      d.parameters.map fun q => ⟨q.type.cType, s!"{q.type.marker false}_{q.name}", none⟩⟩ =
    .recordType (x.channelType d) ("uint32 u32_UseCase;" :: d.parameters.map Halc.Parameter.declaration) := by
  have hdeclaration (q : Halc.Parameter) :
      memberText q.type.cType s!"{q.type.marker false}_{q.name}" none = q.declaration := by
    show q.type.cType ++ " " ++ (q.type.marker false ++ "_" ++ q.name) ++ ";" =
      q.type.cType ++ " " ++ q.type.marker false ++ "_" ++ q.name ++ ";"
    simp only [String.append_assoc]
  unfold RecordType.item
  rw [List.map_cons, List.map_map]
  exact congrArg _ (congrArg₂ _ (by decide) (List.map_congr_left fun q _ => hdeclaration q))

theorem hasItems_recordTypes : ∀ t ∈ x.recordTypes, t.HasItems := by
  intro t ht m hm n hn
  obtain ⟨d, -, rfl⟩ := List.mem_map.1 ht
  rcases List.mem_cons.1 hm with rfl | hm
  · cases hn
  · obtain ⟨q, -, rfl⟩ := List.mem_map.1 hm
    cases hn

theorem item_mem_header {t : RecordType} (ht : t ∈ x.recordTypes) : t.item ∈ (x.header id).items := by
  obtain ⟨d, hd, rfl⟩ := List.mem_map.1 ht
  rw [item_channelType]
  have hmem : .recordType (x.channelType d) ("uint32 u32_UseCase;" :: d.parameters.map Halc.Parameter.declaration) ∈
      x.domains.flatMap fun d => [Item.blank, .recordType (x.channelType d)
        ("uint32 u32_UseCase;" :: d.parameters.map Halc.Parameter.declaration)] :=
    List.mem_flatMap.2 ⟨d, hd, .tail _ (.head _)⟩
  simp only [header, List.mem_append, hmem, true_or, or_true]

theorem isSized_header (hsub : ∀ t ∈ x.recordTypes, t ∈ types) :
    ∀ i ∈ (x.header id).items, i.IsSized number? types := by
  intro i hi
  simp only [header, List.mem_append, List.mem_cons, List.mem_map, List.mem_flatMap, List.not_mem_nil, or_false] at hi
  obtain (((((hi | hi) | ⟨_, _, rfl⟩) | rfl) | ⟨d, hd, rfl | rfl⟩) | rfl | rfl) | hi := hi
  · exact File.isSized_headerStart i hi
  · obtain rfl | rfl := hi <;> trivial
  · trivial
  · trivial
  · trivial
  · exact ⟨_, hsub _ (List.mem_map_of_mem hd), item_channelType d⟩
  · trivial
  · exact Object.hasItems_of_length rfl
  · exact File.isSized_headerEnd i hi

/-- A domain has an array only for two channels or more. -/
theorem isSized_domainRecords {items : List Item} {channels : Pointer}
    (h : x.domainRecords d = .ok (items, channels)) : ∀ i ∈ items, i.IsSized number? types := by
  unfold domainRecords at h
  split at h
  · split at h
    · obtain ⟨values, -, h⟩ := bind_eq_ok.1 h
      cases h
      exact fun i hi => Item.isSized_after_blank hi (Object.hasItems_of_length rfl)
    · cases h
      exact fun i hi => nomatch hi
  · obtain ⟨values, -, h⟩ := bind_eq_ok.1 h
    cases h
    exact fun i hi => Item.isSized_after_blank hi (Object.hasItems_of_length rfl)
  · rename_i cs hnone _
    obtain ⟨rows, hrows, h⟩ := bind_eq_ok.1 h
    cases h
    have hlength := (mapM_eq_ok.1 hrows).length_eq
    exact fun i hi => Item.isSized_after_blank hi
      (Object.hasItems_table _ _ fun h0 => hnone (List.length_eq_zero_iff.1 (hlength.trans h0)))

theorem isSized_of_generate (h : (x.generate id).result = .ok p) (hsub : ∀ t ∈ x.recordTypes, t ∈ types) :
    ∀ i ∈ p.items, i.IsSized number? types := by
  obtain ⟨source, hsource, rfl⟩ := generate_eq_ok h
  obtain ⟨code, hcode, hsource⟩ := bind_eq_ok.1 hsource
  obtain rfl := pure_eq_ok.1 hsource
  intro i hi
  rcases List.mem_append.1 hi with hi | hi
  · exact isSized_header hsub i hi
  · simp only [List.mem_append, List.mem_cons, List.mem_flatMap, List.not_mem_nil, or_false] at hi
    obtain (((hi | rfl) | ⟨r, hr, hi⟩) | hi) | rfl | rfl := hi
    · exact File.isSized_sourceStart i hi
    · trivial
    · obtain ⟨d, -, hd⟩ := exists_of_mem_right (mapM_eq_ok.1 hcode) hr
      obtain ⟨⟨items, channels⟩, hrecords, hd⟩ := bind_eq_ok.1 hd
      obtain rfl := pure_eq_ok.1 hd
      exact isSized_domainRecords hrecords i hi
    · split at hi
      · cases hi
      · rename_i hrows
        exact Item.isSized_after_blank hi (Object.hasItems_table _ _ (mt List.isEmpty_iff_length_eq_zero.2 hrows))
    · trivial
    · exact Object.hasItems_of_length rfl

end HalcCode

/-! ## Start -/

namespace StartCode

variable {x : StartCode}

/-- A table of addresses is as long as the number that its name stands for, and has a row. -/
theorem isSized_addressTable {type name length : String} {objects : List String}
    (hlength : number? (defined length) = some objects.length) :
    ∀ i ∈ addressTable type name length objects, i.IsSized number? types := by
  intro i hi
  unfold addressTable at hi
  split at hi
  · cases hi
  · rename_i hobjects
    exact Item.isSized_after_blank hi
      (Object.hasItems_symbol rfl hlength (mt List.isEmpty_iff_length_eq_zero.2 hobjects))

theorem isSized_driverItems {d : DriverSettings} : ∀ i ∈ driverItems d, i.IsSized number? types := by
  intro i hi
  simp only [driverItems, List.mem_append, List.mem_cons, List.not_mem_nil, or_false] at hi
  obtain hi | rfl | rfl := hi
  · split at hi
    · cases hi
    · rename_i hused
      simp only [List.mem_cons, List.not_mem_nil, or_false] at hi
      obtain rfl | rfl := hi
      · exact Object.hasItems_table _ _ (mt List.isEmpty_iff_length_eq_zero.2 hused)
      · trivial
  · exact Object.hasItems_of_length rfl
  · trivial

theorem isSized_header : ∀ i ∈ (x.header id).items, i.IsSized number? types := by
  intro i hi
  simp only [header, List.mem_append, List.mem_cons, List.not_mem_nil, or_false] at hi
  obtain ((hi | hi) | hi) | hi := hi
  · exact File.isSized_headerStart i hi
  · obtain rfl | rfl | rfl | rfl | rfl := hi
    · trivial
    · trivial
    · trivial
    · trivial
    · exact Object.hasItems_of_length rfl
  · split at hi
    · obtain rfl := List.mem_singleton.1 hi
      exact Object.hasItems_of_length rfl
    · cases hi
  · exact File.isSized_headerEnd i hi

theorem isSized_of_generate (h : (x.generate id).result = .ok p) :
    ∀ i ∈ p.items, i.IsSized (p.header.number? number?) types := by
  obtain rfl := generate_eq_ok h
  have hdatapools : (x.header id).number? number? (defined "NUMBER_OF_DATA_POOLS") =
      some (x.datapools.map Datapool.recordName).length := by
    rw [File.number?_of_meanings (meanings_numberOfDatapools x id), List.length_map]
    rfl
  have hprotocols : (x.header id).number? number? (defined "NUMBER_OF_PROTOCOLS") =
      some (x.protocols.map CommCode.recordName).length := by
    rw [File.number?_of_meanings (meanings_numberOfProtocols x id), List.length_map]
    rfl
  intro i hi
  rcases List.mem_append.1 hi with hi | hi
  · exact isSized_header i hi
  · rw [source_eq] at hi
    simp only [List.mem_append, List.mem_cons, List.not_mem_nil, or_false] at hi
    obtain (((((hi | rfl) | hi) | hi) | rfl) | hi) | rfl := hi
    · exact File.isSized_sourceStart i hi
    · trivial
    · exact isSized_addressTable hdatapools i hi
    · exact isSized_addressTable hprotocols i hi
    · trivial
    · unfold driverCode at hi
      cases hdriver : x.driver with
      | none =>
        rw [hdriver] at hi
        cases hi
      | some d =>
        rw [hdriver] at hi
        exact isSized_driverItems i hi
    · exact Object.hasItems_of_length rfl

end StartCode

/-! ## Sources -/

namespace Source

/-- The record types that the pair of a source defines; of a Datapool, only the owner does. -/
def recordTypes : Source → List RecordType
  | .datapool x => if x.isOwn then x.recordTypes else []
  | .halc x => x.recordTypes
  | _ => []

/-- The elements that the pair of a source defines storage for. -/
def elements : Source → List Element
  | .datapool x => if x.isOwn then x.datapool.lists.flatMap (·.elements) else []
  | _ => []

/-- The managers whose numbers the pair of a source adds up. -/
def managers : Source → List ManagerSummary
  | .aggregate x => x.managers
  | _ => []

variable {s : Source} {headers : List File}

/-- **Every array that a pair declares has items**, by the numbers that its header defines and the headers of the
managers, and no record types are defined but those of the source. -/
theorem isSized_of_generate (h : (s.generate id).result = .ok p) (hdistinct : (s.managers.map (·.interface)).Nodup)
    (hheaders : List.Forall₂ ManagerSummary.StandsIn s.managers headers) :
    ∀ i ∈ p.items, i.IsSized (p.header.number? (numberOf? headers)) s.recordTypes := by
  replace h := generate_eq_ok.1 h
  cases s with
  | start x => exact StartCode.isSized_of_generate h
  | datapool x =>
    refine DatapoolCode.isSized_of_generate h fun hown t ht => ?_
    show t ∈ if x.isOwn then x.recordTypes else []
    rwa [if_pos hown]
  | comm x => exact CommCode.isSized_of_generate h
  | manager x => exact ManagerCode.isSized_of_generate h
  | aggregate x =>
    exact AggregateCode.isSized_of_generate h fun m hm k hk => ManagerSummary.numberOf?_eq hdistinct hheaders hm hk
  | halc x => exact HalcCode.isSized_of_generate h fun t ht => ht

/-- The record types of a source stand in its pair. -/
theorem item_mem_of_generate (h : (s.generate id).result = .ok p) {t : RecordType} (ht : t ∈ s.recordTypes) :
    t.item ∈ p.items := by
  replace h := generate_eq_ok.1 h
  cases s with
  | datapool x =>
    have ht : t ∈ if x.isOwn then x.recordTypes else [] := ht
    split at ht
    · exact DatapoolCode.item_mem_of_generate h (by assumption) ht
    · cases ht
  | halc x =>
    obtain ⟨f, -, rfl⟩ := HalcCode.generate_eq_ok h
    exact List.mem_append_left _ (HalcCode.item_mem_header ht)
  | start x => cases ht
  | comm x => cases ht
  | manager x => cases ht
  | aggregate x => cases ht

/-- The members of record types have items just if no element is an array of none. -/
theorem hasItems_iff : (∀ t ∈ s.recordTypes, t.HasItems) ↔ ∀ e ∈ s.elements, e.arraySize ≠ some 0 := by
  cases s with
  | datapool x =>
    show (∀ t ∈ if x.isOwn then x.recordTypes else [], t.HasItems) ↔
      ∀ e ∈ if x.isOwn then x.datapool.lists.flatMap (·.elements) else [], e.arraySize ≠ some 0
    split
    · rw [DatapoolCode.hasItems_iff]
      simp only [List.mem_flatMap, forall_exists_index, and_imp]
      exact ⟨fun h e l hl he => h l hl e he, fun h l hl e he => h e l hl he⟩
    · exact iff_of_true (fun t ht => nomatch ht) fun e he => nomatch he
  | halc x => exact iff_of_true HalcCode.hasItems_recordTypes fun e he => nomatch he
  | start x => exact iff_of_true (fun t ht => nomatch ht) fun e he => nomatch he
  | comm x => exact iff_of_true (fun t ht => nomatch ht) fun e he => nomatch he
  | manager x => exact iff_of_true (fun t ht => nomatch ht) fun e he => nomatch he
  | aggregate x => exact iff_of_true (fun t ht => nomatch ht) fun e he => nomatch he

/-- **Arrays have items, but for those of a Datapool that are declared with none.** -/
theorem arrays_have_items (h : (s.generate id).result = .ok p) (hdistinct : (s.managers.map (·.interface)).Nodup)
    (hheaders : List.Forall₂ ManagerSummary.StandsIn s.managers headers) :
    (∀ i ∈ p.items, i.IsSized (p.header.number? (numberOf? headers)) s.recordTypes) ∧
      (∀ t ∈ s.recordTypes, t.item ∈ p.items) ∧
      ((∀ t ∈ s.recordTypes, t.HasItems) ↔ ∀ e ∈ s.elements, e.arraySize ≠ some 0) :=
  ⟨isSized_of_generate h hdistinct hheaders, fun _ => item_mem_of_generate h, hasItems_iff⟩

/-- The manager of one bus of a lift, with one door. -/
def doorManager (interface : UInt8) (name : String) : ManagerCode :=
  ⟨"Lift", interface, { Manager.new 1 with devices := [.new ⟨1, interface⟩ name 1] },
    ⟨true, [], [Node.position ⟨1, interface⟩ name]⟩, Node.doors, 2⟩

/-- The managers of both buses. -/
def doorManagers : AggregateCode :=
  ⟨"Lift", [doorManager 0 "Left", doorManager 1 "Rear"].map fun x => .of x.interface x.manager x.container, 2⟩

/-- The arrays of a recipe and of its record types, and those of two managers whose numbers are in their headers. -/
theorem arrays_have_items_lift :
    (∃ p, ((Source.datapool (DatapoolCode.recipeCode .own)).generate ⟨"00000000"⟩).result = .ok p ∧
      (∀ i ∈ p.items, i.IsSized (p.header.number? (numberOf? [])) (DatapoolCode.recipeCode .own).recordTypes) ∧
      ∀ t ∈ (DatapoolCode.recipeCode .own).recordTypes, t.item ∈ p.items ∧ t.HasItems) ∧
    ∃ left rear p, ((doorManager 0 "Left").generate ⟨"00000000"⟩).result = .ok left ∧
      ((doorManager 1 "Rear").generate ⟨"00000000"⟩).result = .ok rear ∧
      ((Source.aggregate doorManagers).generate ⟨"00000000"⟩).result = .ok p ∧
      ∀ i ∈ p.items, i.IsSized (p.header.number? (numberOf? [left.header, rear.header])) [] := by
  obtain ⟨recipe, hrecipe⟩ : ∃ p, ((Source.datapool (DatapoolCode.recipeCode .own)).generate ⟨"00000000"⟩).result =
    .ok p := exists_eq_ok (by decide +kernel)
  obtain ⟨left, hleft⟩ : ∃ p, ((doorManager 0 "Left").generate ⟨"00000000"⟩).result = .ok p :=
    exists_eq_ok (by decide +kernel)
  obtain ⟨rear, hrear⟩ : ∃ p, ((doorManager 1 "Rear").generate ⟨"00000000"⟩).result = .ok p :=
    exists_eq_ok (by decide +kernel)
  obtain ⟨both, hboth⟩ : ∃ p, ((Source.aggregate doorManagers).generate ⟨"00000000"⟩).result = .ok p := ⟨_, rfl⟩
  obtain ⟨hsized, hitems, hhas⟩ := arrays_have_items hrecipe .nil .nil
  obtain ⟨hlift, -⟩ := arrays_have_items hboth (by decide)
    (.cons (ManagerCode.standsIn_of_generate hleft) (.cons (ManagerCode.standsIn_of_generate hrear) .nil))
  exact ⟨⟨recipe, hrecipe, hsized, fun t ht => ⟨hitems t ht, hhas.2 (by decide) t ht⟩⟩,
    left, rear, both, hleft, hrear, hboth, hlift⟩

/-- A Datapool with an array of no values. -/
def dash : Datapool := { Datapool.new "Dash" .generic (some 0) with
  lists := [{ ElementList.new "Lamps" with
    elements := [.scalar "Beam" (.u8 0) (.u8 0) (.u8 1),
      { Element.scalar "Gaps" (.u8 0) (.u8 0) (.u8 1) with
        arraySize := some 0, default := [], min := [], max := [] }] }] }

/-- The array of no values is accepted, and declared. -/
theorem empty_array_dash : ∃ p, ((Source.datapool ⟨"Meter", dash, 0, 5, true, .own, 0, 0⟩).generate
    ⟨"00000000"⟩).result = .ok p ∧ "   uint8 au8_Gaps[0];" ∈ p.header.lines :=
  exists_eq_ok_of_any (by decide +kernel)

end Source

end BusNode
