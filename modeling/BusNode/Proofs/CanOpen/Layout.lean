import BusNode.Proofs.Can.SignalRow
import BusNode.Proofs.CanOpen.Aggregate
import BusNode.Proofs.CanOpen.Dcf
import BusNode.Proofs.CanOpen.Reconfiguration
import BusNode.Proofs.CanOpen.Tables
import BusNode.Proofs.Code.Declarations
import BusNode.Proofs.Code.Slice
/-!
# Layout of the pair of a CANopen manager

* `ManagerCode.declarations_source` — what the source of a manager declares of any name;
* `ManagerCode.LaysDevices` — the device table, and the array of the startup writes that each row points to;
* `ManagerCode.LaysDevices.declared_once_iff` — each of these arrays has its name alone just if the names of the devices
  differ;
* `ManagerCode.LaysPdos` — the tables of the PDOs of a direction and of their signals;
* `ManagerCode.Counts` — the numbers of devices and PDOs, in the header, the record and the tables;
* `ManagerCode.manager_layout` — all of this holds of every pair that is generated.
-/

namespace BusNode

open Can CanOpen

namespace ManagerCode

/-! ## Statements -/

/-- The array of the startup writes of a device. -/
def dcfTable (x : ManagerCode) (p : DevicePlan) : Item :=
  .listing (.table "uint8" (x.dcfName p.device) p.dcf.size) p.dcf.lines

/-- The row of a device: its node first, and last the size of its array and the address of the array. -/
def IsDeviceRow (x : ManagerCode) (p : DevicePlan) (r : Row) : Prop :=
  ∃ settings, r = .commented (.list (.constant (Literal.count p.device.nodeId.toNat) :: settings ++
    [.constant (Literal.long p.dcf.size), .pointer (some (.item (x.dcfName p.device) 0))])) p.device.name

/-- The devices in the source of a manager. -/
structure LaysDevices (x : ManagerCode) (f : File) (devices : List DevicePlan) : Prop where
  /-- All devices of the manager, each with its own writes. -/
  writes : List.Forall₂ (fun d p => p.device = d ∧ d.writes x.manager x.container = .ok p.dcf) x.manager.devices devices
  table : ∃ rows, f.Tabulates "T_osy_com_canopen_device_configuration" x.devicesName rows ∧
    List.Forall₂ x.IsDeviceRow devices rows
  /-- Of the name of an array, the file declares the arrays of the devices that share their name. -/
  arrays : ∀ p ∈ devices, f.declarations (x.dcfName p.device) =
    (devices.filter (·.device.name = p.device.name)).map x.dcfTable
  /-- An array is initialized with the bytes of the writes, which are as many as its length says. -/
  bytes : ∀ p ∈ devices, (items? p.dcf.lines).map (List.map (·.1)) = some p.dcf.bytes ∧
    p.dcf.bytes.length = p.dcf.size

/-- The row of a PDO. -/
structure IsPdoRow (x : ManagerCode) (m : Message) (r : PdoRow) : Prop where
  name : r.name = m.name
  canId : r.canId = m.canId
  isExtended : r.isExtended = m.isExtended
  dlc : r.dlc = m.dlc
  number : r.number = m.pdoIndex
  signalCount : r.signalCount = m.signals.length
  /-- There is no address just if there is no signal. -/
  signals : r.signals = none ↔ m.signals = []
  /-- The device is the first of those with the identity of the owner. -/
  device : ∃ h : r.deviceIndex < x.manager.devices.length, m.owner = some x.manager.devices[r.deviceIndex].id ∧
    ∀ d ∈ x.manager.devices.take r.deviceIndex, m.owner ≠ some d.id

/-- The active messages of a direction. -/
def activeMessages (x : ManagerCode) (dir : Direction) : List Message := (x.container.messages dir).filter (·.pdoActive)

/-- The PDOs of a direction in the source of a manager. -/
structure LaysPdos (x : ManagerCode) (f : File) (dir : Direction) (t : PdoTables) : Prop where
  rows : List.Forall₂ x.IsPdoRow (x.activeMessages dir) t.pdos
  pdos : f.Tabulates "T_osy_com_canopen_pdo_configuration" (x.pdosName dir) (t.pdos.map PdoRow.row)
  signals : f.Tabulates "uint32" (x.signalsName dir) (t.signals.map SignalRow.row)
  /-- One after the other, the slices of the PDOs are the whole array of signals. -/
  slices : Tiles (x.signalsName dir) t.signals.length (t.pdos.map PdoRow.slice)
  resolves : ∀ r ∈ t.pdos, f.Resolves r.slice
  /-- The slice of a PDO has the rows of its signals. -/
  content : ∃ l, x.list dir = .ok l ∧ List.Forall₂ (fun m s =>
    List.Forall₂ (fun g r => signalRow l m g = .ok r) m.signals (s.read t.signals)) (x.activeMessages dir)
      (t.pdos.map PdoRow.slice)

/-- The numbers of a manager: in its summary, its tables, its header and its record, where an address is missing just if
the number before it is zero. -/
structure Counts (x : ManagerCode) (pair : Pair) (s : ManagerSummary) (devices tx rx : Nat) : Prop where
  summary : s.devices = devices ∧ s.txPdos = tx ∧ s.rxPdos = rx
  header : pair.header.meanings (defineStem x.interface ++ "_" ++ "NUMBER_OF_DEVICES") = [.number devices] ∧
    pair.header.meanings (defineStem x.interface ++ "_" ++ "NUMBER_OF_TX_PDOS") = [.number tx] ∧
    pair.header.meanings (defineStem x.interface ++ "_" ++ "NUMBER_OF_RX_PDOS") = [.number rx]
  record : ∃ settings, pair.source.declarations (recordName x.interface) =
    [.object (.sharedRecord "T_osy_com_canopen_manager_configuration" (recordName x.interface)) (settings ++
      [.noted (Literal.count devices) "number of devices", .pointer (.slice x.devicesName 0 devices),
        .noted (Literal.count tx) "number of Tx PDOs", .pointer (.slice (x.pdosName .tx) 0 tx),
        .noted (Literal.count rx) "number of Rx PDOs", .pointer (.slice (x.pdosName .rx) 0 rx)]) none]
  resolves : pair.source.Resolves ⟨devices, .slice x.devicesName 0 devices⟩ ∧
    pair.source.Resolves ⟨tx, .slice (x.pdosName .tx) 0 tx⟩ ∧ pair.source.Resolves ⟨rx, .slice (x.pdosName .rx) 0 rx⟩

variable {x : ManagerCode} {id : Identifier} {q : ManagerPlan} {tx rx t : PdoTables} {dir dir' : Direction}
  {d e : Device} {name : String}

/-! ## Names -/

@[simp] theorem ending_devicesName : ending x.devicesName = ['s', 'e', 'c'] := ending_append _ rfl rfl

@[simp] theorem ending_pdosName : ending (x.pdosName dir) = ['s', 'o', 'd'] := ending_append _ rfl rfl

@[simp] theorem ending_signalsName : ending (x.signalsName dir) = ['s', 'l', 'a'] := ending_append _ rfl rfl

@[simp] theorem ending_dcfName : ending (x.dcfName d) = ['a', 't', 'a'] := ending_append _ rfl rfl

@[simp] theorem ending_recordName (interface : UInt8) : ending (recordName interface) = ['n', 'o', 'i'] :=
  ending_append _ rfl rfl

theorem dcfName_eq_iff : x.dcfName d = x.dcfName e ↔ d.name = e.name := by
  simp [dcfName, toString, String.append_left_inj, String.append_right_inj]

theorem signalsName_eq_iff : x.signalsName dir = x.signalsName dir' ↔ dir = dir' :=
  ⟨signalsName_inj, fun h => h ▸ rfl⟩

theorem pdosName_eq_iff : x.pdosName dir = x.pdosName dir' ↔ dir = dir' := by
  cases dir <;> cases dir' <;>
    simp [pdosName, Direction.name, toString, String.append_left_inj, String.append_right_inj]

/-! ## Declarations -/

/-- The record of the manager. -/
def recordItem (x : ManagerCode) (q : ManagerPlan) : Item :=
  .object (.sharedRecord "T_osy_com_canopen_manager_configuration" (recordName x.interface)) (x.recordRows q) none

theorem declarations_dcfItems (p : DevicePlan) : File.declarations ⟨x.dcfItems p⟩ name =
    if x.dcfName p.device = name then [x.dcfTable p] else [] := by
  by_cases h : x.dcfName p.device = name <;>
    simp [File.declarations, dcfItems, dcfTable, Item.object?, Object.table, h]

theorem declarations_pdoItems : File.declarations ⟨x.pdoItems dir t⟩ name =
    (if x.signalsName dir = name then File.tableDeclaration "uint32" (x.signalsName dir) (t.signals.map SignalRow.row)
      else []) ++
    if x.pdosName dir = name then File.tableDeclaration "T_osy_com_canopen_pdo_configuration" (x.pdosName dir)
      (t.pdos.map PdoRow.row) else [] := by
  unfold pdoItems
  rw [File.declarations_append, File.declarations_tableItems, File.declarations_tableItems]

/-- What the source declares of a name. -/
theorem declarations_source : File.declarations ⟨x.sourceItems id q tx rx⟩ name =
    (q.devices.flatMap fun p => if x.dcfName p.device = name then [x.dcfTable p] else []) ++
    (if x.devicesName = name then File.tableDeclaration "T_osy_com_canopen_device_configuration" x.devicesName
      (q.devices.map x.deviceRow) else []) ++
    File.declarations ⟨x.pdoItems .tx tx⟩ name ++ File.declarations ⟨x.pdoItems .rx rx⟩ name ++
    if recordName x.interface = name then [x.recordItem q] else [] := by
  have hheading (title : String) : File.declarations ⟨[Item.heading title]⟩ name = [] := rfl
  unfold sourceItems
  rw [File.declarations_append, File.declarations_append, File.declarations_append, File.declarations_append,
    File.declarations_append, File.declarations_append, File.declarations_sourceStart, hheading,
    File.declarations_flatMap, File.declarations_tableItems]
  simp only [declarations_dcfItems, List.nil_append]
  exact congrArg _ File.declarations_sharedRecord

/-- What the source declares of the name of a device's array. -/
theorem declarations_dcfName : File.declarations ⟨x.sourceItems id q tx rx⟩ (x.dcfName d) =
    (q.devices.filter (·.device.name = d.name)).map x.dcfTable := by
  simp (disch := simp) only [declarations_source, declarations_pdoItems, ite_of_ending, dcfName_eq_iff,
    List.append_nil]
  rw [flatMap_ite, List.map_eq_flatMap]

/-- No element has anything. -/
theorem flatMap_nil {α β : Type} (l : List α) : (l.flatMap fun _ => ([] : List β)) = [] :=
  List.flatMap_eq_nil_iff.2 fun _ _ => rfl

theorem tabulates_devices : File.Tabulates ⟨x.sourceItems id q tx rx⟩ "T_osy_com_canopen_device_configuration"
    x.devicesName (q.devices.map x.deviceRow) := by
  unfold File.Tabulates
  simp (disch := simp) only [declarations_source, declarations_pdoItems, ite_of_ending, flatMap_nil, if_true,
    List.append_nil, List.nil_append]

/-- The tables of a direction are the only ones of their names. -/
theorem tabulates_pdos (ht : t = match dir with | .tx => tx | .rx => rx) :
    File.Tabulates ⟨x.sourceItems id q tx rx⟩ "uint32" (x.signalsName dir) (t.signals.map SignalRow.row) ∧
    File.Tabulates ⟨x.sourceItems id q tx rx⟩ "T_osy_com_canopen_pdo_configuration" (x.pdosName dir)
      (t.pdos.map PdoRow.row) := by
  unfold File.Tabulates
  constructor
  · simp (disch := simp) only [declarations_source, declarations_pdoItems, ite_of_ending, signalsName_eq_iff]
    cases dir <;> simp [ht]
  · simp (disch := simp) only [declarations_source, declarations_pdoItems, ite_of_ending, pdosName_eq_iff]
    cases dir <;> simp [ht]

theorem declarations_recordName : File.declarations ⟨x.sourceItems id q tx rx⟩ (recordName x.interface) =
    [x.recordItem q] := by
  simp (disch := simp) only [declarations_source, declarations_pdoItems, ite_of_ending, flatMap_nil, if_true,
    List.append_nil, List.nil_append]

/-! ## Devices -/

theorem isDeviceRow (p : DevicePlan) : x.IsDeviceRow p (x.deviceRow p) := by
  refine ⟨[.constant (Literal.flag p.device.optional), .constant (Literal.flag p.device.noInitialization)] ++
    (if x.version < 2 then []
      else [.constant (Literal.count (if p.device.factorySettings then p.device.resetSubIndex.toNat else 0))]) ++
    [.constant (Literal.count (if p.device.heartbeatProducing then p.device.heartbeatProducerTime.toNat else 0))], ?_⟩
  unfold deviceRow
  split <;> rfl

theorem laysDevices (hq : x.plan = .ok q) : x.LaysDevices ⟨x.sourceItems id q tx rx⟩ q.devices := by
  obtain ⟨-, -, hdevices⟩ := plan_eq_ok hq
  refine {
    writes := hdevices
    table := ⟨q.devices.map x.deviceRow, tabulates_devices, ?_⟩
    arrays := fun p _ => declarations_dcfName
    bytes := fun p _ => ⟨?_, p.dcf.length_bytes⟩ }
  · rw [List.forall₂_map_right_iff, List.forall₂_same]
    exact fun p _ => isDeviceRow p
  · rw [Dcf.items_lines, Option.map_some, map_fst_separated]

/-- An array is the only one of its name just if the names of the devices differ, which nothing checks. -/
theorem LaysDevices.declared_once_iff {f : File} {devices : List DevicePlan} (h : x.LaysDevices f devices) :
    (∀ p ∈ devices, f.declarations (x.dcfName p.device) = [x.dcfTable p]) ↔
      (x.manager.devices.map (·.name)).Nodup := by
  have hnames : x.manager.devices.map (·.name) = devices.map (·.device.name) :=
    map_eq_of_forall₂ h.writes fun d p hp => (congrArg Device.name hp.1).symm
  rw [hnames, nodup_map_iff x.dcfTable]
  exact forall₂_congr fun p hp => by rw [h.arrays p hp]

/-! ## PDOs -/

/-- The row of a PDO, given the address of its signals. -/
def pdoRow (p : PdoPlan) (signals : Pointer) : PdoRow where
  name := p.message.name
  canId := p.message.canId
  isExtended := p.message.isExtended
  dlc := p.message.dlc
  deviceIndex := p.deviceIndex
  number := p.message.pdoIndex
  signalCount := p.message.signals.length
  signals := signals

theorem rows_of_tables {pdos : List PdoPlan} (h : x.tables dir pdos = .ok t) : List.Forall₂ (fun p r => ∃ first,
    r = pdoRow p (.slice (x.signalsName dir) first p.message.signals.length)) pdos t.pdos := by
  unfold tables at h
  split at h
  · rename_i hnil
    rw [List.isEmpty_iff.1 hnil, ← Except.ok.inj h]
    exact .nil
  · obtain ⟨l, -, h⟩ := bind_eq_ok.1 h
    refine foldlM_eq_ok_induction (fun done t => List.Forall₂ (fun p r => ∃ first,
      r = pdoRow p (.slice (x.signalsName dir) first p.message.signals.length)) done t.pdos) h .nil ?_
    intro done p _ t u ht hu
    obtain ⟨rows, -, hu⟩ := bind_eq_ok.1 hu
    cases hu
    exact List.rel_append ht (.cons ⟨_, rfl⟩ .nil)

/-- The place of a device is that of the first one of the identity. -/
theorem device_of_position {owner : DeviceId} {i : Nat} (h : x.manager.position? owner = some i) :
    ∃ hi : i < x.manager.devices.length, some owner = some x.manager.devices[i].id ∧
      ∀ d ∈ x.manager.devices.take i, some owner ≠ some d.id := by
  obtain ⟨hi, hid, hbefore⟩ := List.findIdx?_eq_some_iff_getElem.1 h
  refine ⟨hi, congrArg some (of_decide_eq_true hid).symm, fun d hd hsame => ?_⟩
  obtain ⟨j, hj, rfl⟩ := List.mem_take_iff_getElem.1 hd
  exact hbefore j (by omega) (decide_eq_true (Option.some.inj hsame).symm)

/-- The PDOs of a plan are the active messages, each with its device. -/
theorem activeMessages_of_pdos {pdos : List PdoPlan} (h : x.pdos dir = .ok pdos) :
    x.activeMessages dir = pdos.map (·.message) ∧ ∀ p ∈ pdos, x.deviceOf p.message = .ok p.deviceIndex := by
  obtain ⟨plans, rfl, hplans⟩ := pdos_eq_ok h
  have hmessages : x.container.messages dir = plans.map (·.message) := by
    rw [← List.forall₂_eq_eq_eq, List.forall₂_map_right_iff]
    exact hplans.imp fun m p hp => hp.1.symm
  constructor
  · unfold activeMessages
    rw [hmessages, List.filter_map]
    rfl
  · intro p hp
    obtain ⟨m, -, rfl, hdevice⟩ := exists_of_mem_right hplans (List.mem_of_mem_filter hp)
    exact hdevice

theorem isPdoRow {p : PdoPlan} {first : Nat} (h : x.deviceOf p.message = .ok p.deviceIndex) :
    x.IsPdoRow p.message (pdoRow p (.slice (x.signalsName dir) first p.message.signals.length)) := by
  obtain ⟨⟨owner, howner, hposition⟩, -⟩ := deviceOf_eq_ok h
  exact {
    name := rfl
    canId := rfl
    isExtended := rfl
    dlc := rfl
    number := rfl
    signalCount := rfl
    signals := Pointer.slice_eq_none.trans List.length_eq_zero_iff
    device := howner ▸ device_of_position hposition }

/-- The slices of the PDOs have the rows of their signals. -/
theorem content_of_tables {pdos : List PdoPlan} (hpdos : x.pdos dir = .ok pdos) (ht : x.tables dir pdos = .ok t) :
    ∃ l, x.list dir = .ok l ∧ List.Forall₂ (fun p s =>
      List.Forall₂ (fun g r => signalRow l p.message g = .ok r) p.message.signals (s.read t.signals)) pdos
        (t.pdos.map PdoRow.slice) := by
  rcases tables_eq_ok ht with ⟨rfl, rfl⟩ | ⟨l, hl, hholds⟩
  · -- The tables need no list here, but the plan has looked it up.
    obtain ⟨l, hl, -⟩ := bind_eq_ok.1 hpdos
    exact ⟨l, hl, .nil⟩
  · refine ⟨l, hl, ?_⟩
    have hcount : (t.pdos.map PdoRow.slice).map Slice.count =
        pdos.map fun p => (p.message.signals.map (p.message, ·)).length := by
      rw [List.map_map]
      exact (map_eq_of_forall₂ hholds.rows fun p r hr => by rw [List.length_map, ← hr.count]; rfl).symm
    have hread := hholds.slices.forall₂_read hcount hholds.signals
    exact hread.imp fun p s hs => List.forall₂_map_left_iff.1 hs

theorem laysPdos {f : File} {pdos : List PdoPlan} (hpdos : x.pdos dir = .ok pdos) (ht : x.tables dir pdos = .ok t)
    (hsignals : f.Tabulates "uint32" (x.signalsName dir) (t.signals.map SignalRow.row))
    (htable : f.Tabulates "T_osy_com_canopen_pdo_configuration" (x.pdosName dir) (t.pdos.map PdoRow.row)) :
    x.LaysPdos f dir t := by
  obtain ⟨hmessages, hdevices⟩ := activeMessages_of_pdos hpdos
  obtain ⟨-, htiles⟩ := tiles_of_tables ht
  have harray (hn : t.signals.length ≠ 0) : f.HasArray (x.signalsName dir) t.signals.length := by
    have := hsignals.shows.hasArray (by rwa [List.length_map])
    rwa [List.length_map] at this
  refine {
    rows := ?_
    pdos := htable
    signals := hsignals
    slices := htiles
    resolves := fun r hr => htiles.resolves harray (List.mem_map_of_mem hr)
    content := ?_ }
  · rw [hmessages, List.forall₂_map_left_iff]
    refine ((List.forall₂_and_left ..).2 ⟨hdevices, rows_of_tables ht⟩).imp ?_
    rintro p r ⟨hdevice, first, rfl⟩
    exact isPdoRow hdevice
  · obtain ⟨l, hl, hcontent⟩ := content_of_tables hpdos ht
    rw [hmessages]
    exact ⟨l, hl, List.forall₂_map_left_iff.2 hcontent⟩

/-! ## Numbers -/

theorem recordRows_eq : ∃ settings, x.recordRows q = settings ++
    [.noted (Literal.count q.devices.length) "number of devices", .pointer (.slice x.devicesName 0 q.devices.length),
      .noted (Literal.count q.txPdos.length) "number of Tx PDOs",
      .pointer (.slice (x.pdosName .tx) 0 q.txPdos.length),
      .noted (Literal.count q.rxPdos.length) "number of Rx PDOs",
      .pointer (.slice (x.pdosName .rx) 0 q.rxPdos.length)] :=
  ⟨_ ++ [_, _, _], (List.append_assoc _ [_, _, _] _).symm⟩

theorem counts (hq : x.plan = .ok q) (htx : x.tables .tx q.txPdos = .ok tx) (hrx : x.tables .rx q.rxPdos = .ok rx) :
    x.Counts ⟨x.stem, x.header id q, ⟨x.sourceItems id q tx rx⟩⟩ (.of x.interface x.manager x.container)
      q.devices.length tx.pdos.length rx.pdos.length := by
  have htxLength := (tiles_of_tables htx).1
  have hrxLength := (tiles_of_tables hrx).1
  refine {
    summary := ?_
    header := ?_
    record := ?_
    resolves := ?_ }
  · rw [summary_of_plan hq, htxLength, hrxLength]
    exact ⟨rfl, rfl, rfl⟩
  · rw [htxLength, hrxLength, meanings_header (by decide), meanings_header (by decide), meanings_header (by decide)]
    simp
  · obtain ⟨settings, hrows⟩ := recordRows_eq (x := x) (q := q)
    refine ⟨settings, declarations_recordName.trans ?_⟩
    rw [recordItem, hrows, htxLength, hrxLength]
  · exact ⟨tabulates_devices.resolves (List.length_map ..), (tabulates_pdos rfl).2.resolves (List.length_map ..),
      (tabulates_pdos rfl).2.resolves (List.length_map ..)⟩

/-- **The tables of a manager are consistent, up to arrays of one name.** The device table has a row for every device in
order, with the length of the array of its startup writes and a pointer to the array. The array that a row points to is
the only one of its name for every row just if the names of the devices differ. The tables of PDOs have a row for every
active message of their direction in order, with the place of its device and a slice of the signals; one after the
other, the slices are the whole array. The numbers of devices and PDOs are the same wherever they stand. -/
theorem manager_layout (x : ManagerCode) (id : Identifier) (pair : Pair) (h : (x.generate id).result = .ok pair) :
    ∃ devices tx rx, x.LaysDevices pair.source devices ∧ x.LaysPdos pair.source .tx tx ∧
      x.LaysPdos pair.source .rx rx ∧ x.Counts pair (.of x.interface x.manager x.container) devices.length
        tx.pdos.length rx.pdos.length ∧
      ((∀ p ∈ devices, pair.source.declarations (x.dcfName p.device) = [x.dcfTable p]) ↔
        (x.manager.devices.map (·.name)).Nodup) := by
  obtain ⟨q, f, hq, hf, rfl⟩ := generate_eq_ok h
  obtain ⟨tx, rx, htx, hrx, rfl⟩ := source_eq_ok hf
  obtain ⟨htxPdos, hrxPdos, -⟩ := plan_eq_ok hq
  have hdevices : x.LaysDevices ⟨x.sourceItems id q tx rx⟩ q.devices := laysDevices hq
  exact ⟨q.devices, tx, rx, hdevices, laysPdos htxPdos htx (tabulates_pdos rfl).1 (tabulates_pdos rfl).2,
    laysPdos hrxPdos hrx (tabulates_pdos rfl).1 (tabulates_pdos rfl).2, counts hq htx hrx, hdevices.declared_once_iff⟩

/-- A manager of a gate without signals and of a drive, a PDO of which is switched off. -/
def conveyorManager : ManagerCode := { driveManager with
  manager := { Manager.new 1 with devices := [Device.new ⟨2, 0⟩ "Gate" 6, drive] }
  container := ⟨true, [command], [{ status with name := "Open", owner := some ⟨2, 0⟩, signals := [] }, status]⟩ }

theorem manager_layout_conveyorManager :
    ∃ pair devices tx rx, (conveyorManager.generate ⟨"00000000"⟩).result = .ok pair ∧
      conveyorManager.LaysDevices pair.source devices ∧ conveyorManager.LaysPdos pair.source .tx tx ∧
      conveyorManager.LaysPdos pair.source .rx rx ∧ conveyorManager.Counts pair ⟨0, 2, 0, 2⟩ 2 0 2 ∧
      ∀ p ∈ devices, pair.source.declarations (conveyorManager.dcfName p.device) = [conveyorManager.dcfTable p] := by
  obtain ⟨pair, hpair⟩ : ∃ pair, (conveyorManager.generate ⟨"00000000"⟩).result = .ok pair :=
    exists_eq_ok (by decide +kernel)
  obtain ⟨devices, tx, rx, hdevices, htx, hrx, hcounts, honce⟩ :=
    manager_layout conveyorManager ⟨"00000000"⟩ pair hpair
  have hnames : (conveyorManager.manager.devices.map (·.name)).Nodup := by decide
  have hsummary : ManagerSummary.of conveyorManager.interface conveyorManager.manager conveyorManager.container =
      ⟨0, 2, 0, 2⟩ := by decide
  rw [hsummary, ← hcounts.summary.1, ← hcounts.summary.2.1, ← hcounts.summary.2.2] at hcounts
  exact ⟨pair, devices, tx, rx, hpair, hdevices, htx, hrx, hcounts, honce.2 hnames⟩

/-- A manager of two drives of one name, the second of which sends and receives nothing. -/
def tandemManager : ManagerCode := { driveManager with
  manager := { Manager.new 1 with devices := [drive, Device.new ⟨2, 0⟩ "Drive" 6] } }

/-- The writes of both drives are arrays of one name, to which both rows point, and of different lengths. -/
theorem arrays_share_name_tandem : ∃ pair p q, (tandemManager.generate ⟨"00000000"⟩).result = .ok pair ∧
    tandemManager.LaysDevices pair.source [p, q] ∧ p.dcf.size ≠ q.dcf.size ∧
    tandemManager.dcfName p.device = tandemManager.dcfName q.device ∧
    pair.source.declarations (tandemManager.dcfName p.device) =
      [tandemManager.dcfTable p, tandemManager.dcfTable q] := by
  obtain ⟨pair, hpair⟩ : ∃ pair, (tandemManager.generate ⟨"00000000"⟩).result = .ok pair :=
    exists_eq_ok (by decide +kernel)
  obtain ⟨plan, hplan, hsizes⟩ := exists_eq_ok_of_any (x := tandemManager.plan)
    (p := fun q : ManagerPlan => q.devices.map (·.dcf.size) = [110, 4]) (by decide +kernel)
  obtain ⟨q, f, hq, hf, rfl⟩ := generate_eq_ok hpair
  obtain ⟨tx, rx, -, -, rfl⟩ := source_eq_ok hf
  obtain rfl : plan = q := Except.ok.inj (hplan.symm.trans hq)
  have hlays : tandemManager.LaysDevices ⟨tandemManager.sourceItems ⟨"00000000"⟩ plan tx rx⟩ plan.devices :=
    laysDevices hq
  obtain ⟨p, _, ⟨hp, -⟩, hrest, hdevices⟩ := List.forall₂_cons_left_iff.1 hlays.writes
  obtain ⟨q, _, ⟨hq, -⟩, hnil, rfl⟩ := List.forall₂_cons_left_iff.1 hrest
  obtain rfl := List.forall₂_nil_left_iff.1 hnil
  rw [hdevices] at hlays hsizes
  have hnames : p.device.name = q.device.name := by
    rw [hp, hq]
    rfl
  refine ⟨_, p, q, hpair, hlays, ?_, dcfName_eq_iff.2 hnames, ?_⟩
  · simp only [List.map_cons, List.map_nil, List.cons.injEq] at hsizes
    rw [hsizes.1, hsizes.2.1]
    decide
  · rw [hlays.arrays p (.head _)]
    simp [hnames]

end ManagerCode

end BusNode
