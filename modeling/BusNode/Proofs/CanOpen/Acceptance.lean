import BusNode.Proofs.Can.Fit
import BusNode.Proofs.CanOpen.Reconfiguration
/-!
# What a CANopen manager has code for

* `Dictionary.Permits` — the parameters of a PDO that a device lets be written have a value;
* `ManagerCode.Accepts` — what a manager with its messages must be;
* `ManagerCode.Refuses` — the errors of one that is not, each with what is wrong;
* `manager_acceptance` — a pair is generated just of what is accepted, and a failure is out of range just for a mapping
  that is too long.
-/

namespace BusNode

open Can CanOpen

namespace CanOpen

/-! ## PDOs -/

/-- The trigger is a transmission type of CANopen. -/
def HasTransmissionType (m : Message) : Prop :=
  match m.trigger with
  | .canOpenType0 | .canOpenType254 | .canOpenType255 => True
  | .canOpenType1To240 => 1 ≤ m.syncCount.toNat ∧ m.syncCount.toNat ≤ 240
  | .cyclic | .onChange | .onEvent => False

/-- The time after which a device sends a PDO, or misses it. -/
def eventMillis (dir : Direction) (m : Message) : Nat :=
  match dir with
  | .rx => m.cycleTime.toNat
  | .tx => m.timeout.toNat

namespace Dictionary

/-- The communication parameters of a PDO with the objects `o` that may be written have a value. -/
structure PermitsParameters (od : Dictionary) (o : PdoObjects) (dir : Direction) (m : Message) : Prop where
  transmissionType : od.isWritable o.communication 2 = true → HasTransmissionType m
  inhibitTime : od.isWritable o.communication 3 = true → m.delayTime.toNat ≤ 6553
  eventTime : od.isWritable o.communication 5 = true → eventMillis dir m ≤ 65535

/-- What may be written of a PDO has a value: the parameters, which are those of an active PDO, and the mapping, which
must not be too long. -/
structure Permits (od : Dictionary) (o : PdoObjects) (dir : Direction) (m : Message) : Prop where
  parameters : m.pdoActive = true → od.PermitsParameters o dir m
  mapping : od.isWritable o.communication 1 = true → od.isWritable o.mapping 0 = true → m.signals.length ≤ 255

/-- A parameter that may be written and has no value. -/
inductive Breaks (od : Dictionary) (o : PdoObjects) (dir : Direction) (m : Message) : PdoFault → Prop
  | syncCount (hw : od.isWritable o.communication 2 = true) (ht : m.trigger = .canOpenType1To240)
    (h : ¬(1 ≤ m.syncCount.toNat ∧ m.syncCount.toNat ≤ 240)) : od.Breaks o dir m (.syncCount m.syncCount)
  | transmissionType (hw : od.isWritable o.communication 2 = true)
    (h : m.trigger = .cyclic ∨ m.trigger = .onChange ∨ m.trigger = .onEvent) : od.Breaks o dir m .transmissionType
  | inhibitTime (hw : od.isWritable o.communication 3 = true) (h : 6553 < m.delayTime.toNat) :
    od.Breaks o dir m .inhibitTime
  | eventTime (hw : od.isWritable o.communication 5 = true) (h : 65535 < eventMillis dir m) :
    od.Breaks o dir m .eventTime

/-- The errors of a PDO: a parameter without value, or more signals than a mapping has places. -/
inductive Refuses (od : Dictionary) (o : PdoObjects) (dir : Direction) (m : Message) : ExportError → Prop
  | parameter {fault : PdoFault} (hactive : m.pdoActive = true) (h : od.Breaks o dir m fault) :
    od.Refuses o dir m (.structural (.pdo m.name fault))
  | mapping (hcob : od.isWritable o.communication 1 = true) (hmapping : od.isWritable o.mapping 0 = true)
    (h : 255 < m.signals.length) :
    od.Refuses o dir m (.range "PDO mapping objects" m.signals.length (2 ^ 8))

end Dictionary

section Pdo

variable {od : Dictionary} {o : PdoObjects} {dir : Direction} {m : Message}

theorem decides_whenOk {ε : Type} {c : Bool} {x : Except ε (List Write)} {P : Prop} {R : ε → Prop}
    (h : c = true → Decides x P R) : Decides (whenOk c x) (c = true → P) R := .ite_ok h

theorem decides_transmissionType (hw : od.isWritable o.communication 2 = true) :
    Decides (transmissionType m) (HasTransmissionType m) (od.Breaks o dir m) := by
  unfold transmissionType HasTransmissionType
  cases ht : m.trigger with
  | canOpenType0 => exact .ok _ trivial
  | canOpenType254 => exact .ok _ trivial
  | canOpenType255 => exact .ok _ trivial
  | canOpenType1To240 =>
    dsimp only
    split
    · rename_i h
      exact .ok _ h
    · rename_i h
      exact .error h (.syncCount hw ht h)
  | cyclic => exact .error id (.transmissionType hw (.inl ht))
  | onChange => exact .error id (.transmissionType hw (.inr (.inl ht)))
  | onEvent => exact .error id (.transmissionType hw (.inr (.inr ht)))

theorem decides_inhibitTime (hw : od.isWritable o.communication 3 = true) :
    Decides (inhibitTime m) (m.delayTime.toNat ≤ 6553) (od.Breaks o dir m) := by
  unfold inhibitTime
  split
  · rename_i h
    exact .ok _ (by omega)
  · rename_i h
    exact .error (by omega) (.inhibitTime hw (by omega))

theorem eventTime_eq (dir : Direction) (m : Message) :
    eventTime dir m =
      if eventMillis dir m < 2 ^ 16 then .ok (UInt16.ofNat (eventMillis dir m)) else .error .eventTime := by
  cases dir <;> rfl

theorem decides_eventTime (hw : od.isWritable o.communication 5 = true) :
    Decides (eventTime dir m) (eventMillis dir m ≤ 65535) (od.Breaks o dir m) := by
  rw [eventTime_eq]
  split
  · rename_i h
    exact .ok _ (by omega)
  · rename_i h
    exact .error (by omega) (.eventTime hw (by omega))

theorem decides_parameterWrites (label : String) :
    Decides (parameterWrites od dir m o label) (od.PermitsParameters o dir m) (od.Breaks o dir m) := by
  unfold parameterWrites
  refine Decides.congr (.bind (decides_whenOk fun hw => (decides_transmissionType hw).bind_pure _) fun type _ =>
    .bind (decides_whenOk fun hw => (decides_inhibitTime hw).bind_pure _) fun inhibit _ =>
    .bind_pure (decides_whenOk fun hw => (decides_eventTime hw).bind_pure _) _) ?_
  constructor
  · rintro ⟨htype, hinhibit, hevent⟩
    exact ⟨htype, hinhibit, hevent⟩
  · rintro ⟨htype, hinhibit, hevent⟩
    exact ⟨htype, hinhibit, hevent⟩

theorem decides_pdoWrites : Decides (pdoWrites od dir m) (od.Permits (.of dir m.pdoIndex) dir m)
    (od.Refuses (.of dir m.pdoIndex) dir m) := by
  generalize ho : PdoObjects.of dir m.pdoIndex = o
  have hcondition : (m.pdoActive = true → od.PermitsParameters o dir m) ∧
      (od.isWritable o.communication 1 = true → od.isWritable o.mapping 0 = true → m.signals.length ≤ 255) ↔
      od.Permits o dir m := by
    constructor
    · rintro ⟨hparameters, hmapping⟩
      exact ⟨hparameters, hmapping⟩
    · rintro ⟨hparameters, hmapping⟩
      exact ⟨hparameters, hmapping⟩
  unfold pdoWrites
  dsimp only
  rw [ho]
  refine Decides.congr (.bind (decides_whenOk fun hactive =>
    (decides_parameterWrites _).mapError fun fault h => .parameter hactive h) fun parameters _ => ?_) hcondition
  split
  · rename_i h
    obtain ⟨hmay, hmany⟩ := h
    obtain ⟨hmapping, hcob⟩ := Bool.and_eq_true_iff.1 hmay
    refine .error ?_ (.mapping hcob hmapping (by omega))
    intro hle
    have := hle hcob hmapping
    omega
  · rename_i h
    refine .ok _ ?_
    intro hcob hmapping
    have := not_and.1 h (Bool.and_eq_true_iff.2 ⟨hmapping, hcob⟩)
    omega

end Pdo

end CanOpen

namespace ManagerCode

/-! ## Conditions -/

/-- The list that holds the values of a direction, if there is one. -/
def list? (x : ManagerCode) (dir : Direction) : Option ElementList :=
  x.datapool.lists[dir.listIndex x.interface.toNat]?

/-- The message is a PDO of a device. -/
structure Owns (x : ManagerCode) (m : Message) : Prop where
  device : ∃ d ∈ x.manager.devices, m.owner = some d.id
  number : m.pdoIndex.toNat ≤ 511

structure Accepts (x : ManagerCode) : Prop where
  lists : ∀ dir, ∃ l, x.list? dir = some l
  owned : ∀ dir, ∀ m ∈ x.container.messages dir, x.Owns m
  permitted : ∀ dir, ∀ m ∈ x.container.messages dir, ∀ d ∈ x.manager.devices, m.owner = some d.id →
    d.dictionary.Permits (.of dir m.pdoIndex) dir m
  signals : ∀ dir l, x.list? dir = some l → ∀ m ∈ x.container.messages dir, m.pdoActive = true →
    ∀ s ∈ m.signals, s.Fits l

/-! ## Errors -/

/-- What is wrong in the configuration. -/
inductive HasFault (x : ManagerCode) : Structural → Prop
  | list (dir : Direction) (h : x.list? dir = none) :
    x.HasFault (.missingList x.datapool.name dir.name x.interface)
  | noOwner (dir : Direction) (m : Message) (hm : m ∈ x.container.messages dir) (h : m.owner = none) :
    x.HasFault (.pdo m.name .noOwner)
  | unknownDevice (dir : Direction) (m : Message) (id : DeviceId) (hm : m ∈ x.container.messages dir)
    (hid : m.owner = some id) (h : ∀ d ∈ x.manager.devices, d.id ≠ id) : x.HasFault (.pdo m.name (.unknownDevice id))
  | number (dir : Direction) (m : Message) (hm : m ∈ x.container.messages dir) (h : 511 < m.pdoIndex.toNat) :
    x.HasFault (.pdo m.name (.number m.pdoIndex))
  | parameter (dir : Direction) (m : Message) (d : Device) (fault : PdoFault) (hm : m ∈ x.container.messages dir)
    (hd : d ∈ x.manager.devices) (howner : m.owner = some d.id) (hactive : m.pdoActive = true)
    (h : d.dictionary.Breaks (.of dir m.pdoIndex) dir m fault) : x.HasFault (.pdo m.name fault)
  | element (dir : Direction) (l : ElementList) (m : Message) (s : Signal) (hl : x.list? dir = some l)
    (hm : m ∈ x.container.messages dir) (hactive : m.pdoActive = true) (hs : s ∈ m.signals)
    (h : l.elements.length ≤ s.elementIndex.toNat) : x.HasFault (.missingPdoElement m.name s.elementIndex l.name)
  | signal (dir : Direction) (m : Message) (s : Signal) (fault : DescriptorError)
    (hm : m ∈ x.container.messages dir) (hactive : m.pdoActive = true) (hs : s ∈ m.signals)
    (h : DescriptorError.IsFirst s fault) : x.HasFault (.pdoSignal fault)

/-- A mapping that a device lets be written, and that has more signals than places. -/
structure HasLongMapping (x : ManagerCode) (dir : Direction) (m : Message) (d : Device) : Prop where
  message : m ∈ x.container.messages dir
  device : d ∈ x.manager.devices
  owner : m.owner = some d.id
  cobId : d.dictionary.isWritable (PdoObjects.of dir m.pdoIndex).communication 1 = true
  mapping : d.dictionary.isWritable (PdoObjects.of dir m.pdoIndex).mapping 0 = true
  long : 255 < m.signals.length

inductive Refuses (x : ManagerCode) : ExportError → Prop
  | range {dir : Direction} {m : Message} {d : Device} (h : x.HasLongMapping dir m d) :
    x.Refuses (.range "PDO mapping objects" m.signals.length (2 ^ 8))
  | structural {cause : Structural} (h : x.HasFault cause) : x.Refuses (.structural cause)

variable {x : ManagerCode} {dir : Direction} {l : ElementList} {m : Message} {d : Device} {t : PdoTables}

/-! ## Plans -/

theorem list_eq_elim (x : ManagerCode) (dir : Direction) :
    x.list dir = (x.list? dir).elim (.error (.structural (.missingList x.datapool.name dir.name x.interface))) .ok := by
  unfold list list?
  cases x.datapool.lists[dir.listIndex x.interface.toNat]? <;> rfl

theorem decides_list : Decides (x.list dir) (∃ l, x.list? dir = some l) x.Refuses := by
  rw [list_eq_elim]
  exact .ofOption fun h => .structural (.list dir h)

theorem decides_deviceOf (hm : m ∈ x.container.messages dir) : Decides (x.deviceOf m) (x.Owns m) x.Refuses := by
  unfold deviceOf maxPdoNumber
  dsimp only
  split
  · rename_i hnone
    refine .error (fun h => ?_) (.structural (.noOwner dir m hm hnone))
    obtain ⟨d, -, hd⟩ := h.device
    cases hnone.symm.trans hd
  · rename_i id hid
    split
    · rename_i hnone
      have hother : ∀ d ∈ x.manager.devices, d.id ≠ id := by
        simpa [Manager.position?, List.findIdx?_eq_none_iff] using hnone
      refine .error (fun h => ?_) (.structural (.unknownDevice dir m id hm hid hother))
      obtain ⟨d, hd, howner⟩ := h.device
      exact hother d hd (Option.some.inj (howner.symm.trans hid))
    · rename_i i hi
      obtain ⟨hlt, hdevice, -⟩ := List.findIdx?_eq_some_iff_getElem.1 hi
      split
      · rename_i hnumber
        exact .error (fun h => by have := h.number; omega) (.structural (.number dir m hm hnumber))
      · rename_i hnumber
        refine .ok _ ⟨⟨_, List.getElem_mem hlt, ?_⟩, by omega⟩
        rw [hid, of_decide_eq_true hdevice]

theorem decides_pdos : Decides (x.pdos dir)
    ((∃ l, x.list? dir = some l) ∧ ∀ m ∈ x.container.messages dir, x.Owns m) x.Refuses := by
  unfold pdos
  refine decides_list.bind fun _ _ => ?_
  exact (Decides.mapM fun m hm => (decides_deviceOf hm).bind_pure _).bind_pure _

theorem decides_directionWrites (hd : d ∈ x.manager.devices) : Decides (d.directionWrites x.container dir)
    (∀ m ∈ x.container.messages dir, m.owner = some d.id → d.dictionary.Permits (.of dir m.pdoIndex) dir m)
    x.Refuses := by
  have hpdo : ∀ m ∈ d.ownMessages (x.container.messages dir),
      Decides (pdoWrites d.dictionary dir m) (d.dictionary.Permits (.of dir m.pdoIndex) dir m) x.Refuses := by
    intro m hm
    obtain ⟨hm, howner⟩ := Device.mem_ownMessages.1 hm
    refine decides_pdoWrites.mono fun e he => ?_
    cases he with
    | parameter hactive h => exact .structural (.parameter dir m d _ hm hd howner hactive h)
    | mapping hcob hmapping h => exact .range ⟨hm, hd, howner, hcob, hmapping, h⟩
  refine ((Decides.mapM hpdo).bind_pure _).congr ?_
  simp only [Device.mem_ownMessages, and_imp]

theorem decides_plan : Decides x.plan ((∀ dir, ∃ l, x.list? dir = some l) ∧
    (∀ dir, ∀ m ∈ x.container.messages dir, x.Owns m) ∧
    (∀ d ∈ x.manager.devices, ∀ dir, ∀ m ∈ x.container.messages dir, m.owner = some d.id →
      d.dictionary.Permits (.of dir m.pdoIndex) dir m)) x.Refuses := by
  have hdevice : ∀ d ∈ x.manager.devices, Decides (d.writes x.manager x.container)
      (∀ dir, ∀ m ∈ x.container.messages dir, m.owner = some d.id →
        d.dictionary.Permits (.of dir m.pdoIndex) dir m) x.Refuses := by
    intro d hd
    refine ((decides_directionWrites hd).bind fun _ _ => (decides_directionWrites hd).bind_pure _).congr ?_
    rw [Direction.forall_iff]
  refine (decides_pdos.bind fun tx _ => decides_pdos.bind fun rx _ =>
    (Decides.mapM fun d hd => (hdevice d hd).bind_pure _).bind_pure _).congr ?_
  rw [Direction.forall_iff, Direction.forall_iff]
  tauto

/-! ## Tables -/

theorem decides_signalRow {s : Signal} (hl : x.list? dir = some l) (hm : m ∈ x.container.messages dir)
    (hactive : m.pdoActive = true) (hs : s ∈ m.signals) : Decides (signalRow l m s) (s.Fits l) x.Refuses :=
  Signal.decides_rowOr (fun h => .structural (.element dir l m s hl hm hactive hs h))
    (fun _ fault _ h => .structural (.signal dir m s fault hm hactive hs h))

theorem decides_tables {pdos : List PdoPlan} (hl : x.list? dir = some l)
    (hpdos : ∀ p ∈ pdos, p.message ∈ x.container.messages dir ∧ p.message.pdoActive = true) :
    Decides (x.tables dir pdos) (∀ p ∈ pdos, ∀ s ∈ p.message.signals, s.Fits l) x.Refuses := by
  have hpdo : ∀ t, ∀ p ∈ pdos, Decides (x.addPdo dir l t p) (∀ s ∈ p.message.signals, s.Fits l) x.Refuses := by
    intro t p hp
    obtain ⟨hm, hactive⟩ := hpdos p hp
    exact (Decides.mapM fun s hs => decides_signalRow hl hm hactive hs).bind_pure _
  unfold tables
  split
  · rename_i hnil
    rw [List.isEmpty_iff.1 hnil]
    exact .ok _ fun _ hp => nomatch hp
  · rw [list_eq_elim, hl]
    exact .foldlM hpdo _

/-- The PDOs of a direction are its active messages. -/
theorem mem_messages_of_pdos {ps : List PdoPlan} (h : x.pdos dir = .ok ps) (m : Message) :
    (∃ p ∈ ps, p.message = m) ↔ m ∈ x.container.messages dir ∧ m.pdoActive = true := by
  obtain ⟨plans, rfl, hplans⟩ := pdos_eq_ok h
  constructor
  · rintro ⟨p, hp, rfl⟩
    obtain ⟨hp, hactive⟩ := List.mem_filter.1 hp
    obtain ⟨m, hm, rfl, -⟩ := exists_of_mem_right hplans hp
    exact ⟨hm, hactive⟩
  · rintro ⟨hm, hactive⟩
    obtain ⟨p, hp, rfl, -⟩ := exists_of_mem_left hplans hm
    exact ⟨p, List.mem_filter.2 ⟨hp, hactive⟩, rfl⟩

/-- The tables of the PDOs that a plan has for a direction. -/
theorem decides_tables_of_pdos {ps : List PdoPlan} (h : x.pdos dir = .ok ps) : Decides (x.tables dir ps)
    (∀ l, x.list? dir = some l → ∀ m ∈ x.container.messages dir, m.pdoActive = true → ∀ s ∈ m.signals, s.Fits l)
    x.Refuses := by
  obtain ⟨l, hl⟩ := (decides_pdos.holds ps h).1
  have hpdos : ∀ p ∈ ps, p.message ∈ x.container.messages dir ∧ p.message.pdoActive = true :=
    fun p hp => (mem_messages_of_pdos h _).1 ⟨p, hp, rfl⟩
  refine (decides_tables hl hpdos).congr ⟨?_, ?_⟩
  · intro hfit l' hl' m hm hactive
    cases hl.symm.trans hl'
    obtain ⟨p, hp, rfl⟩ := (mem_messages_of_pdos h m).2 ⟨hm, hactive⟩
    exact hfit p hp
  · intro hfit p hp
    exact hfit l hl _ (hpdos p hp).1 (hpdos p hp).2

/-! ## Pairs -/

theorem decides_generate (id : Identifier) : Decides (x.generate id).result x.Accepts x.Refuses := by
  unfold generate
  simp only [Report.result_bind, Report.result_onError, Report.result_ofExcept, Report.result_forM_tell,
    Report.result_tell, Report.result_pure]
  -- which signals are checked depends on the plan, whether they fit only on the messages
  have hsource : ∀ p, x.plan = .ok p → Decides (x.source id p)
      (∀ dir l, x.list? dir = some l → ∀ m ∈ x.container.messages dir, m.pdoActive = true →
        ∀ s ∈ m.signals, s.Fits l) x.Refuses := by
    intro p hp
    obtain ⟨htx, hrx, -⟩ := plan_eq_ok hp
    refine ((decides_tables_of_pdos htx).bind fun _ _ => (decides_tables_of_pdos hrx).bind_pure _).congr ?_
    rw [Direction.forall_iff]
  refine (decides_plan.bind fun p hp => (hsource p hp).bind_pure _).congr ?_
  constructor
  · rintro ⟨⟨hlists, howned, hpermitted⟩, hsignals⟩
    exact ⟨hlists, howned, fun dir m hm d hd => hpermitted d hd dir m hm, hsignals⟩
  · intro h
    exact ⟨⟨h.lists, h.owned, fun d hd dir m hm => h.permitted dir m hm d hd⟩, h.signals⟩

/-- **Just a pair with permitted writes and sound tables is generated**, and the error of a failure names what is
wrong; it is out of range just for a mapping that is too long. -/
theorem manager_acceptance (x : ManagerCode) (id : Identifier) :
    ((∃ pair, (x.generate id).result = .ok pair) ↔ x.Accepts) ∧
      ∀ e, (x.generate id).result = .error e →
        (∃ dir m d, e = .range "PDO mapping objects" m.signals.length (2 ^ 8) ∧ e.kind = .range ∧
          x.HasLongMapping dir m d) ∨
        (∃ cause, e = .structural cause ∧ e.kind = .structural ∧ x.HasFault cause) := by
  refine ⟨(decides_generate id).exists_ok_iff, ?_⟩
  intro e he
  obtain ⟨-, hcause⟩ := (decides_generate id).refuses e he
  cases hcause with
  | range h => exact .inl ⟨_, _, _, rfl, rfl, h⟩
  | structural h => exact .inr ⟨_, rfl, rfl, h⟩

theorem manager_acceptance_driveManager : driveManager.Accepts :=
  (manager_acceptance driveManager ⟨"00000000"⟩).1.1 (exists_eq_ok (by decide +kernel))

end ManagerCode

end BusNode
