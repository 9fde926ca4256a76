import BusNode.CanOpen.Aggregate
import BusNode.Proofs.CanOpen.Identity
import BusNode.Proofs.CanOpen.Startup
import BusNode.Proofs.Code.Closure
import BusNode.Proofs.Code.Definition
import BusNode.Proofs.Node.Stem
/-!
# The numbers of CANopen managers and their sums

The pair of all managers adds up names that the headers of the managers define. The managers count what they list, the
pair of all of them counts what they are made of.

* `ManagerCode.defineStem_append_inj` — a defined name tells its manager;
* `ManagerCode.meanings_header` — the header of a manager has the numbers of its summary, and no name of another one;
* `AggregateCode.closedIn_of_generate` — the pair of all managers is closed where their pairs are;
* `AggregateCode.Sums` — a name of its header is a sum that has a value, and a table is there just if the value is
  positive (`AggregateCode.sums_of_generate`).
-/

namespace BusNode

open Can CanOpen

/-! ## Defined names of managers -/

namespace ManagerCode

theorem toUpper_of_isDigit {c : Char} (h : c.isDigit = true) : c.toUpper = c := by
  have h57 : c.toNat ≤ 57 := (Char.isDigit_iff_toNat.1 h).2
  refine dif_neg fun ⟨ha, _⟩ => ?_
  have h97 : 97 ≤ c.toNat := UInt32.le_iff_toNat_le.1 ha
  omega

theorem toList_defineStem (interface : UInt8) :
    (defineStem interface).toList = "CANOPEN_MGR_CAN".toList ++ Nat.toDigits 10 (interface.toNat + 1) := by
  have hdigits : (Nat.toDigits 10 (interface.toNat + 1)).map Char.toUpper = Nat.toDigits 10 (interface.toNat + 1) :=
    (List.map_congr_left fun c hc => toUpper_of_isDigit (isDigit_toDigits _ c hc)).trans (List.map_id _)
  show (String.map Char.toUpper ("canopen_mgr_" ++ lower (busName interface))).toList = _
  rw [String.toList_map, String.toList_append, toList_lower_busName, List.map_append, List.map_append, hdigits]
  rfl

/-- Digits in front of an underscore are known by the whole. -/
theorem digits_append_inj {ds es r s : List Char} (hds : ∀ c ∈ ds, c.isDigit = true) (hes : ∀ c ∈ es, c.isDigit = true)
    (h : ds ++ '_' :: r = es ++ '_' :: s) : ds = es ∧ r = s := by
  have htake (cs : List Char) (hcs : ∀ c ∈ cs, c.isDigit = true) (t : List Char) :
      (cs ++ '_' :: t).takeWhile Char.isDigit = cs := by
    rw [List.takeWhile_append_of_pos hcs]
    exact List.append_nil cs
  have hdigits : ds = es := by rw [← htake ds hds r, h, htake es hes s]
  subst hdigits
  rw [List.append_cancel_left_eq] at h
  exact ⟨rfl, (List.cons.inj h).2⟩

/-- A defined name tells its manager. -/
theorem defineStem_append_inj {i j : UInt8} {s t : String} (h : defineStem i ++ "_" ++ s = defineStem j ++ "_" ++ t) :
    i = j ∧ s = t := by
  have h := congrArg String.toList h
  simp only [String.toList_append, toList_defineStem, List.append_assoc, List.append_cancel_left_eq] at h
  obtain ⟨hdigits, hrest⟩ := digits_append_inj (isDigit_toDigits _) (isDigit_toDigits _) h
  have := toDigits_injective hdigits
  exact ⟨UInt8.toNat_inj.1 (by omega), String.toList_injective hrest⟩

variable {x : ManagerCode} {p : ManagerPlan} {id : Identifier} {pair : Pair}

/-- The names that a manager gives to its numbers and devices. -/
def numbers (x : ManagerCode) (p : ManagerPlan) : List Item :=
  let name := defineStem x.interface
  [.define s!"{name}_NUMBER_OF_DEVICES" "" (.number p.devices.length),
    .define s!"{name}_NUMBER_OF_TX_PDOS" "" (.number p.txPdos.length),
    .define s!"{name}_NUMBER_OF_RX_PDOS" "" (.number p.rxPdos.length),
    .blank] ++
  (p.devices.zipIdx.map fun (d, i) => Item.define s!"{name}_DEVICE_INDEX_{upper d.device.name}" "" (.number i)) ++
  [Item.heading "Global Constants",
    .declare (.externRecord "T_osy_com_canopen_manager_configuration" (recordName x.interface)) none] ++
  File.headerEnd

theorem header_eq : x.header id p =
    ⟨File.headerStart x.stem x.brief ["osy_com_canopen_configuration.h"] id ++ .blank :: x.numbers p⟩ := by
  unfold header numbers
  simp only [List.append_assoc, List.cons_append, List.nil_append]

/-- The header of a manager defines no name of another one. -/
theorem meanings_header_of_ne {interface : UInt8} (hne : x.interface ≠ interface) (suffix : String) :
    (x.header id p).meanings (defineStem interface ++ "_" ++ suffix) = [] := by
  have hother (own rest : String) : defineStem x.interface ++ ("_" ++ own) ++ rest ≠
      defineStem interface ++ "_" ++ suffix := fun h => by
    rw [String.append_assoc, String.append_assoc, ← String.append_assoc] at h
    exact hne (defineStem_append_inj h).1
  have hwhole (own : String) : defineStem x.interface ++ ("_" ++ own) ≠ defineStem interface ++ "_" ++ suffix :=
    fun h => by
    rw [← String.append_assoc] at h
    exact hne (defineStem_append_inj h).1
  refine File.meanings_eq_nil fun i hi => ?_
  rw [header_eq, List.mem_append, List.mem_cons] at hi
  rcases hi with hi | rfl | hi
  · simp only [File.headerStart, List.mem_append, List.mem_cons, List.mem_map, List.not_mem_nil, or_false] at hi
    obtain ((rfl | rfl | rfl | rfl) | ⟨_, _, rfl⟩) | (rfl | rfl | rfl) := hi
    · rfl
    · exact if_neg (hwhole "H")
    · rfl
    · rfl
    · rfl
    · rfl
    · rfl
    · exact if_neg (hother "PROJECT_ID_" id.digits)
  · rfl
  · simp only [numbers, File.headerEnd, List.mem_append, List.mem_cons, List.mem_map, List.not_mem_nil, or_false] at hi
    obtain (((rfl | rfl | rfl | rfl) | ⟨⟨d, k⟩, -, rfl⟩) | rfl | rfl) | rfl | rfl := hi
    · exact if_neg (hwhole "NUMBER_OF_DEVICES")
    · exact if_neg (hwhole "NUMBER_OF_TX_PDOS")
    · exact if_neg (hwhole "NUMBER_OF_RX_PDOS")
    · rfl
    · exact if_neg (hother "DEVICE_INDEX_" (upper d.device.name))
    · rfl
    · rfl
    · rfl
    · rfl

/-- The names that the header of a manager defines with an `N` after its stem. -/
theorem meanings_header {suffix : String} (hsuffix : ['N'] <+: suffix.toList) :
    (x.header id p).meanings (defineStem x.interface ++ "_" ++ suffix) =
      (if "NUMBER_OF_DEVICES" = suffix then [.number p.devices.length] else []) ++
      ((if "NUMBER_OF_TX_PDOS" = suffix then [.number p.txPdos.length] else []) ++
      if "NUMBER_OF_RX_PDOS" = suffix then [.number p.rxPdos.length] else []) := by
  have hsame (own : String) : (defineStem x.interface ++ ("_" ++ own) = defineStem x.interface ++ "_" ++ suffix) ↔
      own = suffix := by
    rw [← String.append_assoc, String.append_right_inj]
  have hprefix : (upper x.stem).toList ++ ['_', 'N'] <+: (defineStem x.interface ++ "_" ++ suffix).toList := by
    rw [String.append_assoc]
    refine prefix_append ?_
    rw [String.toList_append]
    exact (List.prefix_cons_inj _).2 hsuffix
  have hrest : File.meanings ⟨.blank :: ((p.devices.zipIdx.map fun (d, i) =>
      Item.define s!"{defineStem x.interface}_DEVICE_INDEX_{upper d.device.name}" "" (.number i)) ++
      [Item.heading "Global Constants",
        .declare (.externRecord "T_osy_com_canopen_manager_configuration" (recordName x.interface)) none] ++
      File.headerEnd)⟩ (defineStem x.interface ++ "_" ++ suffix) = [] := by
    refine File.meanings_eq_nil fun i hi => ?_
    simp only [File.headerEnd, List.mem_append, List.mem_cons, List.mem_map, List.not_mem_nil, or_false] at hi
    obtain rfl | (⟨⟨d, k⟩, -, rfl⟩ | rfl | rfl) | rfl | rfl := hi
    · rfl
    · refine if_neg (ne_of_suffix_letter (c := 'D') ?_ hprefix (by decide))
      exact prefix_append_right (prefix_append (by decide)) _
    · rfl
    · rfl
    · rfl
    · rfl
  rw [header_eq, File.meanings_headerStart_append hprefix (by decide) (by decide)]
  show File.meanings ⟨.define (defineStem x.interface ++ ("_" ++ "NUMBER_OF_DEVICES")) "" _ ::
    .define (defineStem x.interface ++ ("_" ++ "NUMBER_OF_TX_PDOS")) "" _ ::
    .define (defineStem x.interface ++ ("_" ++ "NUMBER_OF_RX_PDOS")) "" _ :: _⟩ _ = _
  rw [File.meanings_define, File.meanings_define, File.meanings_define]
  simp only [hsame]
  exact congrArg _ (congrArg _ ((congrArg _ hrest).trans (List.append_nil _)))

/-- The active messages of a direction are what a manager lists. -/
theorem length_of_pdos_eq_ok {dir : Direction} {ps : List PdoPlan} (h : x.pdos dir = .ok ps) :
    ps.length = (x.container.messages dir).countP (·.pdoActive) := by
  obtain ⟨plans, rfl, hplans⟩ := pdos_eq_ok h
  have hmessages : x.container.messages dir = plans.map (·.message) := by
    rw [← List.forall₂_eq_eq_eq, List.forall₂_map_right_iff]
    exact hplans.imp fun m p hp => hp.1.symm
  rw [hmessages, List.countP_map, List.countP_eq_length_filter]
  rfl

/-- **A manager lists what its summary counts.** -/
theorem summary_of_plan (h : x.plan = .ok p) : ManagerSummary.of x.interface x.manager x.container =
    ⟨x.interface, p.devices.length, p.txPdos.length, p.rxPdos.length⟩ := by
  obtain ⟨htx, hrx, hdevices⟩ := plan_eq_ok h
  rw [length_of_pdos_eq_ok htx, length_of_pdos_eq_ok hrx, ← hdevices.length_eq]
  rfl

/-- The header and the record of a manager are named after its interface. -/
theorem offers_of_generate (h : (x.generate id).result = .ok pair) :
    pair.Offers (stemOf x.interface ++ ".h") (recordName x.interface) := by
  obtain ⟨p, f, -, hf, rfl⟩ := generate_eq_ok h
  obtain ⟨tx, -, hf⟩ := bind_eq_ok.1 hf
  obtain ⟨rx, -, hf⟩ := bind_eq_ok.1 hf
  obtain rfl := pure_eq_ok.1 hf
  refine ⟨rfl, File.has_of_mem (i := .object (.sharedRecord "T_osy_com_canopen_manager_configuration"
    (recordName x.interface)) (x.recordRows p) none) ?_ rfl⟩
  simp only [List.mem_append, List.mem_cons, true_or, or_true]

end ManagerCode

/-! ## All managers together -/

namespace AggregateCode

/-- The header and the record of every manager. -/
def referred (x : AggregateCode) : List (String × String) :=
  x.managers.map fun m => (ManagerCode.stemOf m.interface ++ ".h", ManagerCode.recordName m.interface)

/-- The kinds that managers have numbers of. -/
def countedKinds : List InstanceKind := kinds.tail

variable {x : AggregateCode} {id : Identifier} {p : Pair} {i : Item} {a : Place} {k : InstanceKind}

/-- **The header of a manager says what its summary counts**, under a name of each kind. -/
theorem meanings_manager {y : ManagerCode} {pl : ManagerPlan} (hplan : y.plan = .ok pl) (hk : k ∈ countedKinds) :
    (y.header id pl).meanings (ManagerCode.defineStem y.interface ++ "_" ++ k.number) =
      [.number (k.count (.of y.interface y.manager y.container))] := by
  rw [ManagerCode.summary_of_plan hplan]
  simp only [countedKinds, kinds, List.tail_cons, List.mem_cons, List.not_mem_nil, or_false] at hk
  rcases hk with rfl | rfl | rfl <;> rw [ManagerCode.meanings_header (by decide)] <;> simp

/-- The table of a kind. -/
def instanceTable (k : InstanceKind) : Object :=
  ⟨.internal, false, s!"T_osy_com_canopen_{k.type}_instance", tableName k, some (.symbol (defined k.number))⟩

theorem mem_instanceItems : i ∈ x.instanceItems k ↔
    x.total k ≠ 0 ∧ i = .declare (instanceTable k) (some ⟨.nonSafe, 2 ≤ x.version⟩) := by
  unfold instanceItems
  split
  · rename_i hzero
    exact iff_of_false (fun h => nomatch h) fun h => h.1 hzero
  · rename_i htotal
    rw [List.mem_singleton]
    exact (and_iff_right htotal).symm

/-- A table tells its kind. -/
theorem eq_of_tableName {k' : InstanceKind} (hk : k ∈ kinds) (hk' : k' ∈ kinds) (h : tableName k = tableName k') :
    k = k' := by
  have hnodup : (kinds.map tableName).Nodup := by decide
  exact List.inj_on_of_nodup_map hnodup hk hk' h

theorem tableName_ne (hk : k ∈ kinds) : tableName k ≠ configsName ∧ tableName k ≠ recordName := by
  have hall : ∀ name ∈ kinds.map tableName, name ≠ configsName ∧ name ≠ recordName := by decide
  exact hall _ (List.mem_map_of_mem hk)

theorem tableName_ne_recordName (hk : k ∈ kinds) (interface : UInt8) :
    tableName k ≠ ManagerCode.recordName interface := by
  have htable : ∀ name ∈ kinds.map tableName, name.toList.head? = some 'm' := by decide
  have hrecord : (ManagerCode.recordName interface).toList.head? = some 'g' := by
    show ("gt_" ++ ManagerCode.stemOf interface ++ "_ManagerConfiguration").toList.head? = _
    rw [String.toList_append, String.toList_append]
    rfl
  intro h
  have := htable _ (List.mem_map_of_mem hk)
  rw [h, hrecord] at this
  cases this

/-- The array of the managers. -/
def configsTable : Object :=
  ⟨.internal, true, "T_osy_com_canopen_manager_configuration * const", configsName,
    some (.symbol (defined "NUMBER_OF_MANAGERS"))⟩

def configsRows (x : AggregateCode) : List Row :=
  x.managers.map fun m => .pointer (some (.whole (ManagerCode.recordName m.interface)))

/-- The record of all managers. -/
def record : Object := .sharedRecord "T_osy_com_canopen_init_configuration" recordName

def recordRows (x : AggregateCode) : List Row :=
  [Row.constant (defined "NUMBER_OF_MANAGERS"), .pointer (some (.item configsName 0))] ++
    kinds.map fun k => Row.pointer (.slice (tableName k) 0 (x.total k))

theorem mem_source : i ∈ (x.source id).items ↔
    i ∈ File.sourceStart stem "CANopen initialization" [] id ∨ i = .heading "Module Global Variables" ∨
      (∃ k ∈ kinds, x.total k ≠ 0 ∧ i = .declare (instanceTable k) (some ⟨.nonSafe, 2 ≤ x.version⟩)) ∨
      i = .heading "Module Global Constants" ∨ i = .object configsTable x.configsRows none ∨
      i = .heading "Global Constants" ∨ i = .object record x.recordRows none := by
  have hinstances : i ∈ kinds.flatMap x.instanceItems ↔
      ∃ k ∈ kinds, x.total k ≠ 0 ∧ i = .declare (instanceTable k) (some ⟨.nonSafe, 2 ≤ x.version⟩) := by
    rw [List.mem_flatMap]
    exact exists_congr fun k => and_congr_right fun _ => mem_instanceItems
  rw [← hinstances]
  unfold source
  simp only [List.mem_append, List.mem_cons, List.not_mem_nil, or_false, or_assoc]
  rfl

/-- The objects of the source. -/
theorem mem_objects_source {o : Object} : o ∈ (x.source id).objects ↔
    (∃ k ∈ kinds, x.total k ≠ 0 ∧ o = instanceTable k) ∨ o = configsTable ∨ o = record := by
  constructor
  · intro ho
    obtain ⟨i, hi, ho⟩ := List.mem_filterMap.1 ho
    rcases mem_source.1 hi with hi | rfl | ⟨k, hk, htotal, rfl⟩ | rfl | rfl | rfl | rfl
    · rw [(File.of_mem_sourceStart hi).1] at ho
      cases ho
    · cases ho
    · exact .inl ⟨k, hk, htotal, (Option.some.inj ho).symm⟩
    · cases ho
    · exact .inr (.inl (Option.some.inj ho).symm)
    · cases ho
    · exact .inr (.inr (Option.some.inj ho).symm)
  · rintro (⟨k, hk, htotal, rfl⟩ | rfl | rfl)
    · exact File.mem_objects (mem_source.2 (.inr (.inr (.inl ⟨k, hk, htotal, rfl⟩)))) rfl
    · exact File.mem_objects (mem_source.2 (.inr (.inr (.inr (.inr (.inl rfl)))))) rfl
    · exact File.mem_objects (mem_source.2 (.inr (.inr (.inr (.inr (.inr (.inr rfl))))))) rfl

theorem mem_places_configsRows : a ∈ Row.placesList x.configsRows ↔
    ∃ m ∈ x.managers, a = .whole (ManagerCode.recordName m.interface) := by
  rw [Row.mem_placesList]
  constructor
  · rintro ⟨r, hr, ha⟩
    obtain ⟨m, hm, rfl⟩ := List.mem_map.1 hr
    exact ⟨m, hm, List.mem_singleton.1 ha⟩
  · rintro ⟨m, hm, rfl⟩
    exact ⟨_, List.mem_map_of_mem hm, List.mem_singleton_self _⟩

theorem mem_places_recordRows : a ∈ Row.placesList x.recordRows ↔
    a = .item configsName 0 ∨ ∃ k ∈ kinds, x.total k ≠ 0 ∧ a = .item (tableName k) 0 := by
  have hslice (k : InstanceKind) : a ∈ (Row.pointer (.slice (tableName k) 0 (x.total k))).places ↔
      x.total k ≠ 0 ∧ a = .item (tableName k) 0 := by
    show a ∈ (Pointer.slice (tableName k) 0 (x.total k)).toList ↔ _
    rw [Option.mem_toList]
    constructor
    · intro ha
      refine ⟨fun hzero => ?_, Pointer.slice_eq_some ha⟩
      rw [Pointer.slice_eq_none.2 hzero] at ha
      cases ha
    · rintro ⟨htotal, rfl⟩
      exact if_neg htotal
  rw [Row.mem_placesList]
  constructor
  · rintro ⟨r, hr, ha⟩
    rcases List.mem_append.1 hr with hr | hr
    · simp only [List.mem_cons, List.not_mem_nil, or_false] at hr
      rcases hr with rfl | rfl
      · cases ha
      · exact .inl (List.mem_singleton.1 ha)
    · obtain ⟨k, hk, rfl⟩ := List.mem_map.1 hr
      exact .inr ⟨k, hk, (hslice k).1 ha⟩
  · rintro (rfl | ⟨k, hk, hplace⟩)
    · exact ⟨_, List.mem_append_left _ (.tail _ (.head _)), List.mem_singleton_self _⟩
    · exact ⟨_, List.mem_append_right _ (List.mem_map_of_mem hk), (hslice k).2 hplace⟩

/-- The addresses of the source: the managers, their array, and the tables of the kinds that there is something of. -/
theorem mem_places_source : a ∈ (x.source id).places ↔
    (∃ m ∈ x.managers, a = .whole (ManagerCode.recordName m.interface)) ∨ a = .item configsName 0 ∨
      ∃ k ∈ kinds, x.total k ≠ 0 ∧ a = .item (tableName k) 0 := by
  rw [← mem_places_configsRows, ← mem_places_recordRows]
  constructor
  · intro ha
    obtain ⟨i, hi, ha⟩ := List.mem_flatMap.1 ha
    rcases mem_source.1 hi with hi | rfl | ⟨k, -, -, rfl⟩ | rfl | rfl | rfl | rfl
    · rw [(File.of_mem_sourceStart hi).2.1] at ha
      cases ha
    · cases ha
    · cases ha
    · cases ha
    · exact .inl ha
    · cases ha
    · exact .inr ha
  · rintro (ha | ha)
    · exact List.mem_flatMap.2 ⟨_, mem_source.2 (.inr (.inr (.inr (.inr (.inl rfl))))), ha⟩
    · exact List.mem_flatMap.2 ⟨_, mem_source.2 (.inr (.inr (.inr (.inr (.inr (.inr rfl)))))), ha⟩

theorem offers_of_generate (h : (x.generate id).result = .ok p) : p.Offers (stem ++ ".h") recordName := by
  obtain rfl := generate_eq_ok h
  exact ⟨rfl, record, mem_objects_source.2 (.inr (.inr rfl)), rfl, rfl⟩

theorem inner_of_mem_header (hi : i ∈ (x.header id).items) :
    i ∈ File.headerStart stem "CANopen initialization" ("osy_com_canopen_configuration.h" :: x.referred.map (·.1)) id ∨
      i.included? = none ∧ i.places = [] := by
  have hincludes : x.referred.map (·.1) = x.managers.map fun m => ManagerCode.stemOf m.interface ++ ".h" :=
    List.map_map ..
  rw [hincludes]
  unfold header at hi
  rcases List.mem_append.1 hi with hi | hi
  · rcases List.mem_append.1 hi with hi | hi
    · rcases List.mem_append.1 hi with hi | hi
      · rcases List.mem_append.1 hi with hi | hi
        · exact .inl hi
        · simp only [List.mem_cons, List.not_mem_nil, or_false] at hi
          rcases hi with rfl | rfl <;> exact .inr ⟨rfl, rfl⟩
      · obtain ⟨number, -, rfl⟩ := List.mem_map.1 hi
        exact .inr ⟨rfl, rfl⟩
    · simp only [List.mem_cons, List.not_mem_nil, or_false] at hi
      rcases hi with rfl | rfl <;> exact .inr ⟨rfl, rfl⟩
  · simp only [File.headerEnd, List.mem_cons, List.not_mem_nil, or_false] at hi
    rcases hi with rfl | rfl <;> exact .inr ⟨rfl, rfl⟩

/-- **The pair of all managers refers to their pairs**, and else to the run-time library and itself. -/
theorem closedIn_of_generate {ps : List Pair} (h : (x.generate id).result = .ok p) (hself : p ∈ ps)
    (hoffers : ∀ r ∈ x.referred, ∃ q ∈ ps, q.Offers r.1 r.2) : p.ClosedIn ps := by
  have hpair := generate_eq_ok h
  have hsource : ∀ i ∈ (x.source id).items, i ∈ File.sourceStart stem "CANopen initialization" [] id ∨
      i.Takes fun a => (x.source id).Has a.object .internal ∨ a.object ∈ x.referred.map (·.2) := by
    intro i hi
    have htakes {a : Place} (ha : a ∈ i.places) : (x.source id).Has a.object .internal ∨
        a.object ∈ x.referred.map (·.2) := by
      rcases mem_places_source.1 (List.mem_flatMap.2 ⟨i, hi, ha⟩) with ⟨m, hm, rfl⟩ | rfl | ⟨k, hk, htotal, rfl⟩
      · refine .inr (List.mem_map.2 ⟨_, List.mem_map_of_mem hm, rfl⟩)
      · exact .inl ⟨configsTable, mem_objects_source.2 (.inr (.inl rfl)), rfl, rfl⟩
      · exact .inl ⟨instanceTable k, mem_objects_source.2 (.inl ⟨k, hk, htotal, rfl⟩), rfl, rfl⟩
    rcases mem_source.1 hi with hi | rfl | ⟨k, hk, htotal, rfl⟩ | rfl | rfl | rfl | rfl
    · exact .inl hi
    all_goals exact .inr ⟨rfl, fun a ha => htakes ha⟩
  subst hpair
  refine Pair.closedIn_of_items hself hoffers (fun i hi => inner_of_mem_header hi) hsource fun file hfile => ?_
  refine (List.mem_cons.1 hfile).imp_left ?_
  rintro rfl
  decide

/-! ## Sums -/

/-- A name of the header is a sum of names, or a number, and has a value by the numbers of the names; a table of such
a length is there, and its address is taken, just if the value is positive. -/
structure Sums (p : Pair) (number? : String → Option Nat) (k : InstanceKind) (value : Nat) : Prop where
  meaning : ∃ m, p.header.meanings (defined k.number) = [m] ∧ m.value? number? = some value
  declared : p.source.Declares (tableName k) ↔ 0 < value
  referenced : (∃ a ∈ p.source.places, a.object = tableName k) ↔ 0 < value
  length : ∀ o ∈ p.source.objects, o.name = tableName k → o.length = some (.symbol (defined k.number))

theorem declares_source (hk : k ∈ kinds) : (x.source id).Declares (tableName k) ↔ 0 < x.total k := by
  rw [Nat.pos_iff_ne_zero]
  constructor
  · rintro ⟨o, ho, hname⟩
    rcases mem_objects_source.1 ho with ⟨k', hk', htotal, rfl⟩ | rfl | rfl
    · exact eq_of_tableName hk' hk hname ▸ htotal
    · exact absurd hname.symm (tableName_ne hk).1
    · exact absurd hname.symm (tableName_ne hk).2
  · exact fun htotal => ⟨instanceTable k, mem_objects_source.2 (.inl ⟨k, hk, htotal, rfl⟩), rfl⟩

theorem length_of_mem_source (hk : k ∈ kinds) {o : Object} (ho : o ∈ (x.source id).objects)
    (hname : o.name = tableName k) : o.length = some (.symbol (defined k.number)) := by
  rcases mem_objects_source.1 ho with ⟨k', hk', -, rfl⟩ | rfl | rfl
  · rw [← eq_of_tableName hk' hk hname]
    rfl
  · exact absurd hname.symm (tableName_ne hk).1
  · exact absurd hname.symm (tableName_ne hk).2

/-- The address of a table is taken just if it is there. -/
theorem takes_source (hk : k ∈ kinds) : (∃ a ∈ (x.source id).places, a.object = tableName k) ↔ 0 < x.total k := by
  rw [Nat.pos_iff_ne_zero]
  constructor
  · rintro ⟨a, ha, hname⟩
    rcases mem_places_source.1 ha with ⟨m, -, rfl⟩ | rfl | ⟨k', hk', htotal, rfl⟩
    · exact absurd hname (tableName_ne_recordName hk m.interface).symm
    · exact absurd hname.symm (tableName_ne hk).1
    · exact eq_of_tableName hk' hk hname ▸ htotal
  · exact fun htotal => ⟨_, mem_places_source.2 (.inr (.inr ⟨k, hk, htotal, rfl⟩)), rfl⟩

theorem defined_inj {s t : String} : defined s = defined t ↔ s = t := String.append_right_inj _

/-- The numbers that the header defines. -/
theorem meanings_header {number : String} (hnumber : ['N'] <+: number.toList) :
    (x.header id).meanings (defined number) =
      (if "NUMBER_OF_MANAGERS" = number then [.number x.managers.length] else []) ++
      ((if "NUMBER_OF_DEVICES" = number then [.sum (summands x.managers "NUMBER_OF_DEVICES")] else []) ++
      ((if "NUMBER_OF_TX_PDOS" = number then [.sum (summands x.managers "NUMBER_OF_TX_PDOS")] else []) ++
      if "NUMBER_OF_RX_PDOS" = number then [.sum (summands x.managers "NUMBER_OF_RX_PDOS")] else [])) := by
  have hprefix : (upper stem).toList ++ ['_', 'N'] <+: (defined number).toList := by
    show _ <+: (upper stem ++ "_" ++ number).toList
    rw [String.append_assoc]
    refine prefix_append ?_
    rw [String.toList_append]
    exact (List.prefix_cons_inj _).2 hnumber
  have hend : File.meanings ⟨[Item.heading "Global Constants",
      .declare (.externRecord "T_osy_com_canopen_init_configuration" recordName) none] ++ File.headerEnd⟩
      (defined number) = [] := rfl
  unfold header
  simp only [List.append_assoc]
  rw [File.meanings_headerStart_append hprefix (by decide) (by decide)]
  show File.meanings ⟨.define _ "" _ :: .define _ "" _ :: .define _ "" _ :: .define _ "" _ :: _⟩ _ = _
  rw [File.meanings_define, File.meanings_define, File.meanings_define, File.meanings_define]
  simp only [defined_inj]
  exact congrArg _ (congrArg _ (congrArg _ ((congrArg _ hend).trans (List.append_nil _))))

/-- What the name of a kind stands for. -/
theorem meanings_of_mem_kinds (hk : k ∈ kinds) : (x.header id).meanings (defined k.number) =
    [if k.number = "NUMBER_OF_MANAGERS" then .number x.managers.length else .sum (summands x.managers k.number)] := by
  simp only [kinds, List.mem_cons, List.not_mem_nil, or_false] at hk
  rcases hk with rfl | rfl | rfl | rfl
  all_goals
    rw [meanings_header (by decide)]
    simp

/-- **The sums have values where the managers have numbers**, and tell which tables there are. -/
theorem sums_of_generate {number? : String → Option Nat} (h : (x.generate id).result = .ok p)
    (hnumbers : ∀ m ∈ x.managers, ∀ k ∈ countedKinds,
      number? (ManagerCode.defineStem m.interface ++ "_" ++ k.number) = some (k.count m))
    (hk : k ∈ kinds) : Sums p number? k (x.total k) := by
  obtain rfl := generate_eq_ok h
  refine ⟨⟨_, meanings_of_mem_kinds hk, ?_⟩, declares_source hk, takes_source hk,
    fun o ho => length_of_mem_source hk ho⟩
  rcases List.mem_cons.1 hk with rfl | hcounted
  · rw [if_pos rfl]
    show some x.managers.length = some (x.managers.map fun _ => 1).sum
    rw [List.map_const', List.sum_replicate_nat, Nat.mul_one]
  · have hne : ∀ k ∈ countedKinds, k.number ≠ "NUMBER_OF_MANAGERS" := by simp [countedKinds, kinds]
    rw [if_neg (hne k hcounted)]
    exact Meaning.value?_sum fun m hm => hnumbers m hm k hcounted

end AggregateCode

end BusNode
