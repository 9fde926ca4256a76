import BusNode.Proofs.Can.Reference
import BusNode.Proofs.CanOpen.Startup
/-!
# Tables of CANopen managers

* `PdoTables.Holds` — the tables hold PDOs: a row for each, and slices that follow each other without a gap;
* `ManagerCode.tables_eq_ok` — so the tables of a direction hold all its PDOs;
* `ManagerCode.links_of_generate` — beside its own arrays the pair of a manager refers to its Datapool only.
-/

namespace BusNode

open Can CanOpen

/-- The signals of a PDO. -/
def PdoRow.slice (r : PdoRow) : Slice := ⟨r.signalCount, r.signals⟩

/-- The row stands for the PDO. -/
structure PdoPlan.IsRow (p : PdoPlan) (r : PdoRow) : Prop where
  name : r.name = p.message.name
  device : r.deviceIndex = p.deviceIndex
  count : r.signalCount = p.message.signals.length

/-- The tables hold the PDOs: a row for each PDO and signal in order, and slices of the signals that follow each other
from the first one to the last. -/
structure PdoTables.Holds (t : PdoTables) (x : ManagerCode) (dir : Direction) (l : ElementList) (pdos : List PdoPlan) :
    Prop where
  rows : List.Forall₂ PdoPlan.IsRow pdos t.pdos
  signals : List.Forall₂ (fun s r => ManagerCode.signalRow l s.1 s.2 = .ok r)
    (pdos.flatMap fun p => p.message.signals.map (p.message, ·)) t.signals
  slices : Tiles (x.signalsName dir) t.signals.length (t.pdos.map PdoRow.slice)

namespace ManagerCode

variable {x : ManagerCode} {dir : Direction} {l : ElementList} {pdos : List PdoPlan} {p : PdoPlan} {t u : PdoTables}
  {id : Identifier} {pair : Pair} {i : Item} {a : Place}

/-! ## PDOs -/

/-- A signal that has a row is checked, and its element is in the list. -/
theorem signalRow_eq_ok {m : Message} {s : Signal} {r : SignalRow} (h : signalRow l m s = .ok r) :
    Descriptor.ofSignal s = .ok r.descriptor ∧
      ∃ e, l.elements[s.elementIndex.toNat]? = some e ∧ e.name = r.element := by
  unfold signalRow at h
  split at h
  · cases h
  · rename_i e he
    split at h
    · rename_i d hd
      cases h
      exact ⟨hd, e, he, rfl⟩
    · cases h

theorem holds_snoc (h : t.Holds x dir l pdos) (hp : x.addPdo dir l t p = .ok u) : u.Holds x dir l (pdos ++ [p]) := by
  obtain ⟨rows, hrows, hu⟩ := bind_eq_ok.1 hp
  have hrows := mapM_eq_ok.1 hrows
  cases hu
  refine {
    rows := List.rel_append h.rows (.cons ⟨rfl, rfl, rfl⟩ .nil)
    signals := ?_
    slices := ?_ }
  · rw [List.flatMap_append, List.flatMap_singleton]
    exact List.rel_append h.signals (List.forall₂_map_left_iff.2 hrows)
  · rw [List.length_append, ← hrows.length_eq, List.map_append]
    exact h.slices.snoc _

/-- **The tables of a direction hold all its PDOs.** -/
theorem tables_eq_ok (h : x.tables dir pdos = .ok t) :
    (pdos = [] ∧ t = ⟨[], []⟩) ∨ ∃ l, x.list dir = .ok l ∧ t.Holds x dir l pdos := by
  unfold tables at h
  split at h
  · rename_i hnil
    exact .inl ⟨List.isEmpty_iff.1 hnil, (Except.ok.inj h).symm⟩
  · obtain ⟨l, hl, h⟩ := bind_eq_ok.1 h
    refine .inr ⟨l, hl, foldlM_eq_ok_induction (fun done t => t.Holds x dir l done) h ⟨.nil, .nil, .nil _⟩ ?_⟩
    exact fun done p _ t u ht hu => holds_snoc ht hu

theorem tiles_of_tables (h : x.tables dir pdos = .ok t) :
    t.pdos.length = pdos.length ∧ Tiles (x.signalsName dir) t.signals.length (t.pdos.map PdoRow.slice) := by
  rcases tables_eq_ok h with ⟨rfl, rfl⟩ | ⟨l, -, hholds⟩
  · exact ⟨rfl, .nil _⟩
  · exact ⟨hholds.rows.length_eq.symm, hholds.slices⟩

/-! ## References -/

/-- The items of the source, given the tables of both directions. -/
def sourceItems (x : ManagerCode) (id : Identifier) (q : ManagerPlan) (tx rx : PdoTables) : List Item :=
  File.sourceStart x.stem x.brief [x.datapool.headerName] id ++
    [Item.heading "Module Global Constants"] ++
    q.devices.flatMap x.dcfItems ++
    CommCode.tableItems "T_osy_com_canopen_device_configuration" x.devicesName (q.devices.map x.deviceRow) ++
    x.pdoItems .tx tx ++ x.pdoItems .rx rx ++
    [Item.heading "Global Constants",
      .object (.sharedRecord "T_osy_com_canopen_manager_configuration" (recordName x.interface)) (x.recordRows q) none]

theorem source_eq_ok {q : ManagerPlan} {f : File} (h : x.source id q = .ok f) :
    ∃ tx rx, x.tables .tx q.txPdos = .ok tx ∧ x.tables .rx q.rxPdos = .ok rx ∧ f = ⟨x.sourceItems id q tx rx⟩ := by
  obtain ⟨tx, htx, h⟩ := bind_eq_ok.1 h
  obtain ⟨rx, hrx, h⟩ := bind_eq_ok.1 h
  exact ⟨tx, rx, htx, hrx, (pure_eq_ok.1 h).symm⟩

/-- The tables of a direction refer to each other only. -/
theorem takes_pdoItems {f : File} (h : x.tables dir pdos = .ok t) (hsub : ∀ i ∈ x.pdoItems dir t, i ∈ f.items)
    (hi : i ∈ x.pdoItems dir t) : i.Takes fun a => f.Declares a.object := by
  obtain ⟨-, htiles⟩ := tiles_of_tables h
  have hsignals : f.Shows "uint32" (x.signalsName dir) (t.signals.map SignalRow.row) :=
    CommCode.shows_of_subset fun i hi => hsub i (List.mem_append_left _ hi)
  have harray (hn : t.signals.length ≠ 0) : f.HasArray (x.signalsName dir) t.signals.length := by
    have := hsignals.hasArray (by rwa [List.length_map])
    rwa [List.length_map] at this
  unfold pdoItems at hi
  rcases List.mem_append.1 hi with hi | hi
  · refine CommCode.takes_of_mem_tableItems (fun row hrow a ha => ?_) hi
    obtain ⟨s, -, rfl⟩ := List.mem_map.1 hrow
    cases ha
  · refine CommCode.takes_of_mem_tableItems (fun row hrow a ha => ?_) hi
    obtain ⟨r, hr, rfl⟩ := List.mem_map.1 hrow
    refine (htiles.resolves harray (List.mem_map_of_mem hr)).declares ?_
    simpa [PdoRow.row, PdoRow.slice, Row.commented, Row.places, Expr.places, Expr.placesList] using ha

/-- The record points to the Datapool and to the tables. -/
theorem mem_places_recordRows {q : ManagerPlan} (ha : a ∈ Row.placesList (x.recordRows q)) :
    a = .whole x.datapool.recordName ∨ (a.object = x.devicesName ∧ q.devices.length ≠ 0) ∨
      (a.object = x.pdosName .tx ∧ q.txPdos.length ≠ 0) ∨ (a.object = x.pdosName .rx ∧ q.rxPdos.length ≠ 0) := by
  have ha : a = .whole x.datapool.recordName ∨ a ∈ (Pointer.slice x.devicesName 0 q.devices.length).toList ∨
      a ∈ (Pointer.slice (x.pdosName .tx) 0 q.txPdos.length).toList ∨
      a ∈ (Pointer.slice (x.pdosName .rx) 0 q.rxPdos.length).toList := by
    unfold recordRows at ha
    split at ha <;>
      simpa [Row.noted, Row.pointer, Row.placesList, Row.places, Expr.places] using ha
  exact ha.imp_right (.imp Pointer.mem_toList_slice (.imp Pointer.mem_toList_slice Pointer.mem_toList_slice))

theorem declares_tableItems {f : File} {type name : String} {rows : List Row}
    (h : ∀ i ∈ CommCode.tableItems type name rows, i ∈ f.items) (hrows : rows.length ≠ 0) : f.Declares name := by
  obtain ⟨o, ho, hname, -⟩ := (CommCode.shows_of_subset h).hasArray hrows
  exact ⟨o, ho, hname⟩

/-- The device table points to the writes of every device. -/
theorem takes_devices {q : ManagerPlan} {f : File} (hsub : ∀ i ∈ q.devices.flatMap x.dcfItems, i ∈ f.items)
    (hi : i ∈ CommCode.tableItems "T_osy_com_canopen_device_configuration" x.devicesName
      (q.devices.map x.deviceRow)) : i.Takes fun a => f.Declares a.object := by
  refine CommCode.takes_of_mem_tableItems (fun row hrow a ha => ?_) hi
  obtain ⟨e, he, rfl⟩ := List.mem_map.1 hrow
  obtain rfl : a = .item (x.dcfName e.device) 0 := by
    unfold deviceRow at ha
    split at ha <;>
      simpa [Row.commented, Row.places, Expr.places, Expr.placesList] using ha
  have hlisting : .listing (.table "uint8" (x.dcfName e.device) e.dcf.size) e.dcf.lines ∈ x.dcfItems e :=
    .tail _ (.tail _ (.head _))
  exact File.declares_of_mem (hsub _ (List.mem_flatMap.2 ⟨e, he, hlisting⟩)) rfl

theorem takes_dcfItems {e : DevicePlan} {P : Place → Prop} (hi : i ∈ x.dcfItems e) : i.Takes P := by
  simp only [dcfItems, List.mem_cons, List.not_mem_nil, or_false] at hi
  rcases hi with rfl | rfl | rfl <;> exact Item.takes_of_places rfl rfl

theorem inner_of_mem_header {q : ManagerPlan} (hi : i ∈ (x.header id q).items) :
    i ∈ File.headerStart x.stem x.brief ["osy_com_canopen_configuration.h"] id ∨
      i.included? = none ∧ i.places = [] := by
  simp only [header, File.headerEnd, List.mem_append, List.mem_cons, List.mem_map, List.not_mem_nil, or_false] at hi
  rcases hi with (((hi | hi) | hi) | hi) | hi
  · exact .inl hi
  · right
    rcases hi with rfl | rfl | rfl | rfl | rfl <;> exact ⟨rfl, rfl⟩
  · obtain ⟨-, -, rfl⟩ := hi
    exact .inr ⟨rfl, rfl⟩
  · right
    rcases hi with rfl | rfl <;> exact ⟨rfl, rfl⟩
  · right
    rcases hi with rfl | rfl <;> exact ⟨rfl, rfl⟩

/-- The record refers to the Datapool and to the tables, and these refer to each other. -/
theorem takes_of_mem_sourceItems {q : ManagerPlan} {tx rx : PdoTables} (htx : x.tables .tx q.txPdos = .ok tx)
    (hrx : x.tables .rx q.rxPdos = .ok rx) (hi : i ∈ x.sourceItems id q tx rx) :
    i ∈ File.sourceStart x.stem x.brief [x.datapool.headerName] id ∨
      i.Takes fun a => a = .whole x.datapool.recordName ∨ File.Declares ⟨x.sourceItems id q tx rx⟩ a.object := by
  obtain ⟨htxLength, -⟩ := tiles_of_tables htx
  obtain ⟨hrxLength, -⟩ := tiles_of_tables hrx
  have hdcf : ∀ i ∈ q.devices.flatMap x.dcfItems, i ∈ x.sourceItems id q tx rx := fun i hi => by
    simp only [sourceItems, List.mem_append, hi, true_or, or_true]
  have hdevices : ∀ i ∈ CommCode.tableItems "T_osy_com_canopen_device_configuration" x.devicesName
      (q.devices.map x.deviceRow), i ∈ x.sourceItems id q tx rx := fun i hi => by
    simp only [sourceItems, List.mem_append, hi, true_or, or_true]
  have htxItems : ∀ i ∈ x.pdoItems .tx tx, i ∈ x.sourceItems id q tx rx := fun i hi => by
    simp only [sourceItems, List.mem_append, hi, true_or, or_true]
  have hrxItems : ∀ i ∈ x.pdoItems .rx rx, i ∈ x.sourceItems id q tx rx := fun i hi => by
    simp only [sourceItems, List.mem_append, hi, true_or, or_true]
  simp only [sourceItems, List.mem_append, List.mem_cons, List.not_mem_nil, or_false] at hi
  rcases hi with (((((hi | rfl) | hi) | hi) | hi) | hi) | rfl | rfl
  · exact .inl hi
  · exact .inr (Item.takes_of_places rfl rfl)
  · obtain ⟨e, -, hi⟩ := List.mem_flatMap.1 hi
    exact .inr (takes_dcfItems hi)
  · exact .inr ((takes_devices hdcf hi).imp_right fun h a ha => .inr (h a ha))
  · exact .inr ((takes_pdoItems htx htxItems hi).imp_right fun h a ha => .inr (h a ha))
  · exact .inr ((takes_pdoItems hrx hrxItems hi).imp_right fun h a ha => .inr (h a ha))
  · exact .inr (Item.takes_of_places rfl rfl)
  · refine .inr ⟨rfl, fun a ha => ?_⟩
    rcases mem_places_recordRows ha with rfl | ⟨ha, hn⟩ | ⟨ha, hn⟩ | ⟨ha, hn⟩
    · exact .inl rfl
    · rw [ha]
      exact .inr (declares_tableItems hdevices (by rwa [List.length_map]))
    · rw [ha]
      exact .inr (declares_tableItems (fun i hi => htxItems i (List.mem_append_right _ hi))
        (by rwa [List.length_map, htxLength]))
    · rw [ha]
      exact .inr (declares_tableItems (fun i hi => hrxItems i (List.mem_append_right _ hi))
        (by rwa [List.length_map, hrxLength]))

/-- **The pair of a manager refers to its Datapool**, and else to the run-time library and itself. -/
theorem links_of_generate (h : (x.generate id).result = .ok pair) : pair.Links x.datapool := by
  obtain ⟨q, f, -, hf, rfl⟩ := generate_eq_ok h
  obtain ⟨tx, rx, htx, hrx, rfl⟩ := source_eq_ok hf
  refine Pair.links_of_items (fun i hi => inner_of_mem_header hi)
    (fun i hi => takes_of_mem_sourceItems htx hrx hi) ?_ ?_ ?_
  · intro file hfile
    simp only [List.mem_append, List.mem_singleton] at hfile
    rcases hfile with rfl | rfl
    · exact .inl (by decide)
    · exact .inr rfl
  · refine List.mem_append_right _ ?_
    simp only [sourceItems, File.sourceStart, List.mem_append, List.mem_cons, List.map_cons, true_or, or_true]
  · refine ⟨.object (.sharedRecord "T_osy_com_canopen_manager_configuration" (recordName x.interface)) (x.recordRows q)
      none, ?_, ?_⟩
    · simp only [sourceItems, List.mem_append, List.mem_cons, true_or, or_true]
    · refine Row.mem_placesList.2 ⟨.pointer (some (.whole x.datapool.recordName)), ?_, .head _⟩
      simp only [recordRows, List.mem_append, List.mem_cons, true_or, or_true]

end ManagerCode

end BusNode
