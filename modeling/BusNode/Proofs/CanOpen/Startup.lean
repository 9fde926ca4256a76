import BusNode.CanOpen.Code
import BusNode.Proofs.Success
/-!
# What the startup writes consist of

* `PdoObjects.eq_of_has` — the objects of a PDO are no objects of another PDO, of either direction;
* `pdoWrites_eq_ok` — the writes of a PDO in their four parts;
* `Device.writes_eq_ok`, `ManagerCode.generate_eq_ok` — the writes of a device and the pair of a manager by their parts.
-/

namespace BusNode

open Can CanOpen

/-! ## Objects of PDOs -/

namespace Can.Direction

/-- The first of the communication objects of a direction. -/
def communicationBase : Direction → Nat
  | .tx => 0x1400
  | .rx => 0x1800

/-- The first of the mapping objects of a direction. -/
def mappingBase : Direction → Nat
  | .tx => 0x1600
  | .rx => 0x1A00

end Can.Direction

namespace CanOpen.PdoObjects

variable {dir dir' : Direction} {n n' : UInt16}

theorem toNat_communication (h : n.toNat ≤ ManagerCode.maxPdoNumber) :
    (PdoObjects.of dir n).communication.toNat = dir.communicationBase + n.toNat := by
  unfold ManagerCode.maxPdoNumber at h
  cases dir
  · show (0x1400 + n).toNat = 0x1400 + n.toNat
    rw [UInt16.toNat_add]
    exact Nat.mod_eq_of_lt (show 0x1400 + n.toNat < 2 ^ 16 by omega)
  · show (0x1800 + n).toNat = 0x1800 + n.toNat
    rw [UInt16.toNat_add]
    exact Nat.mod_eq_of_lt (show 0x1800 + n.toNat < 2 ^ 16 by omega)

theorem toNat_mapping (h : n.toNat ≤ ManagerCode.maxPdoNumber) :
    (PdoObjects.of dir n).mapping.toNat = dir.mappingBase + n.toNat := by
  unfold ManagerCode.maxPdoNumber at h
  cases dir
  · show (0x1600 + n).toNat = 0x1600 + n.toNat
    rw [UInt16.toNat_add]
    exact Nat.mod_eq_of_lt (show 0x1600 + n.toNat < 2 ^ 16 by omega)
  · show (0x1A00 + n).toNat = 0x1A00 + n.toNat
    rw [UInt16.toNat_add]
    exact Nat.mod_eq_of_lt (show 0x1A00 + n.toNat < 2 ^ 16 by omega)

/-- Whether an object belongs to a PDO. -/
def Has (o : PdoObjects) (index : UInt16) : Prop := index = o.communication ∨ index = o.mapping

theorem Has.toNat (h : n.toNat ≤ ManagerCode.maxPdoNumber) {index : UInt16} (hi : (PdoObjects.of dir n).Has index) :
    index.toNat = dir.communicationBase + n.toNat ∨ index.toNat = dir.mappingBase + n.toNat := by
  rcases hi with rfl | rfl
  · exact .inl (toNat_communication h)
  · exact .inr (toNat_mapping h)

/-- Below the objects of PDOs there are others. -/
theorem Has.le (h : n.toNat ≤ ManagerCode.maxPdoNumber) {index : UInt16} (hi : (PdoObjects.of dir n).Has index) :
    0x1400 ≤ index.toNat := by
  have := hi.toNat h
  cases dir <;> simp only [Direction.communicationBase, Direction.mappingBase] at this <;> omega

/-- The objects of a PDO are its own. -/
theorem eq_of_has (h : n.toNat ≤ ManagerCode.maxPdoNumber) (h' : n'.toNat ≤ ManagerCode.maxPdoNumber)
    {index : UInt16} (hi : (PdoObjects.of dir n).Has index) (hi' : (PdoObjects.of dir' n').Has index) :
    dir = dir' ∧ n = n' := by
  have e := hi.toNat h
  have e' := hi'.toNat h'
  unfold ManagerCode.maxPdoNumber at h h'
  have key : dir = dir' ∧ n.toNat = n'.toNat := by
    cases dir <;> cases dir' <;> simp only [Direction.communicationBase, Direction.mappingBase] at e e'
    · exact ⟨rfl, by omega⟩
    · omega
    · omega
    · exact ⟨rfl, by omega⟩
  exact ⟨key.1, UInt16.toNat_inj.1 key.2⟩

theorem communication_ne_mapping (h : n.toNat ≤ ManagerCode.maxPdoNumber) (h' : n'.toNat ≤ ManagerCode.maxPdoNumber) :
    (PdoObjects.of dir n).communication ≠ (PdoObjects.of dir' n').mapping := by
  intro e
  have := congrArg UInt16.toNat e
  rw [toNat_communication h, toNat_mapping h'] at this
  unfold ManagerCode.maxPdoNumber at h h'
  cases dir <;> cases dir' <;> simp only [Direction.communicationBase, Direction.mappingBase] at this <;> omega

end CanOpen.PdoObjects

/-! ## Writes of a PDO -/

namespace CanOpen

theorem when_eq_ite (c : Bool) (ws : List Write) : when c ws = if c then ws else [] := rfl

theorem mem_when {c : Bool} {ws : List Write} {w : Write} : w ∈ when c ws ↔ c = true ∧ w ∈ ws := by
  unfold when
  cases c <;> simp

theorem whenOk_eq_ok {ε : Type} {c : Bool} {x : Except ε (List Write)} {ws : List Write} :
    whenOk c x = .ok ws ↔ (c = true ∧ x = .ok ws) ∨ (c = false ∧ ws = []) := by
  unfold whenOk
  cases c <;> simp [eq_comm]

variable {od : Dictionary} {dir : Direction} {m : Message}

/-- A communication parameter that is written is one of four, and may be written. -/
theorem mem_parameterWrites {o : PdoObjects} {label : String} {ws : List Write}
    (h : parameterWrites od dir m o label = .ok ws) {w : Write} (hw : w ∈ ws) :
    w.index = o.communication ∧ (w.sub = 2 ∨ w.sub = 3 ∨ w.sub = 5 ∨ w.sub = 6) ∧
      od.isWritable o.communication w.sub = true := by
  unfold parameterWrites at h
  simp only [bind_eq_ok, pure_eq_ok, whenOk_eq_ok] at h
  obtain ⟨type, ht, inhibit, hi, event, he, rfl⟩ := h
  rcases List.mem_append.1 hw with hw | hw
  · rcases List.mem_append.1 hw with hw | hw
    · rcases List.mem_append.1 hw with hw | hw
      · obtain ⟨hc, t, -, rfl⟩ | ⟨-, rfl⟩ := ht
        · obtain rfl := List.mem_singleton.1 hw
          exact ⟨rfl, .inl rfl, hc⟩
        · cases hw
      · obtain ⟨hc, t, -, rfl⟩ | ⟨-, rfl⟩ := hi
        · obtain rfl := List.mem_singleton.1 hw
          exact ⟨rfl, .inr (.inl rfl), hc⟩
        · cases hw
    · obtain ⟨hc, t, -, rfl⟩ | ⟨-, rfl⟩ := he
      · obtain rfl := List.mem_singleton.1 hw
        exact ⟨rfl, .inr (.inr (.inl rfl)), hc⟩
      · cases hw
  · obtain ⟨hc, hw⟩ := mem_when.1 hw
    obtain rfl := List.mem_singleton.1 hw
    exact ⟨rfl, .inr (.inr (.inr rfl)), (Bool.and_eq_true_iff.1 hc).2⟩

/-- The four parts of the writes of a PDO: off, parameters, mapping, on. -/
theorem pdoWrites_eq_ok {ws : List Write} (h : pdoWrites od dir m = .ok ws) :
    let o := PdoObjects.of dir m.pdoIndex
    let mayDisable := od.isWritable o.communication 1
    let mayMap := od.isWritable o.mapping 0 && mayDisable
    ∃ label parameters,
      (m.pdoActive = true ∧ parameterWrites od dir m o label = .ok parameters ∨
        m.pdoActive = false ∧ parameters = []) ∧
      (mayMap = true → m.signals.length < 2 ^ 8) ∧
      ws = when mayDisable [.long o.communication 1 (cobId m ||| cobIdInvalid) s!"{label}: disable"] ++ parameters ++
        when mayMap (mappingWrites m o label) ++
        when (m.pdoActive && mayDisable) [.long o.communication 1 (cobId m) s!"{label}: set and enable"] := by
  intro o mayDisable mayMap
  unfold pdoWrites at h
  simp only [bind_eq_ok, whenOk_eq_ok, mapError_eq_ok] at h
  obtain ⟨parameters, hp, h⟩ := h
  refine ⟨_, parameters, hp, ?_⟩
  split at h
  · cases h
  · rename_i hmany
    exact ⟨fun hm => by have := not_and.1 hmany hm; omega, (pure_eq_ok.1 h).symm⟩

theorem mem_mappingWrites {o : PdoObjects} {label : String} {w : Write} (hw : w ∈ mappingWrites m o label) :
    w.index = o.mapping := by
  simp only [mappingWrites, List.mem_append, List.mem_singleton, List.mem_map] at hw
  rcases hw with (rfl | ⟨-, -, rfl⟩) | rfl <;> rfl

/-- The writes of a PDO go to its own objects. -/
theorem has_of_mem_pdoWrites {ws : List Write} (h : pdoWrites od dir m = .ok ws) {w : Write} (hw : w ∈ ws) :
    (PdoObjects.of dir m.pdoIndex).Has w.index := by
  obtain ⟨label, parameters, hp, -, rfl⟩ := pdoWrites_eq_ok h
  rcases List.mem_append.1 hw with hw | hw
  · rcases List.mem_append.1 hw with hw | hw
    · rcases List.mem_append.1 hw with hw | hw
      · obtain rfl := List.mem_singleton.1 (mem_when.1 hw).2
        exact .inl rfl
      · obtain ⟨-, hp⟩ | ⟨-, rfl⟩ := hp
        · exact .inl (mem_parameterWrites hp hw).1
        · cases hw
    · exact .inr (mem_mappingWrites (mem_when.1 hw).2)
  · obtain rfl := List.mem_singleton.1 (mem_when.1 hw).2
    exact .inl rfl

/-! ## Writes of a device -/

namespace Device

variable {d : Device} {manager : Manager}

/-- The device's own objects are no objects of PDOs. -/
theorem lt_of_mem_objectWrites {w : Write} (hw : w ∈ d.objectWrites manager) : w.index.toNat < 0x1400 := by
  have hwhen {c : Bool} {v : Write} (hv : v.index.toNat < 0x1400) (h : w ∈ when c [v]) : w.index.toNat < 0x1400 := by
    obtain rfl := List.mem_singleton.1 (mem_when.1 h).2
    exact hv
  simp only [objectWrites, List.mem_append] at hw
  rcases hw with ((((hw | hw) | hw) | hw) | hw) | hw
  · exact hwhen (by decide) hw
  · exact hwhen (show (0x1006 : UInt16).toNat < 0x1400 by decide) hw
  · exact hwhen (show (0x1007 : UInt16).toNat < 0x1400 by decide) hw
  · exact hwhen (show (0x1014 : UInt16).toNat < 0x1400 by decide) hw
  · obtain ⟨sub, -, rfl⟩ := List.mem_map.1 hw
    show (0x1016 : UInt16).toNat < 0x1400
    decide
  · exact hwhen (show (0x1017 : UInt16).toNat < 0x1400 by decide) hw

theorem mem_ownMessages {ms : List Message} {m : Message} :
    m ∈ d.ownMessages ms ↔ m ∈ ms ∧ m.owner = some d.id := by
  rw [ownMessages, (List.mergeSort_perm _ _).mem_iff, List.mem_filter, decide_eq_true_iff]

/-- The writes of a device: those to its own objects, those of the PDOs that it receives, those of the PDOs that it
sends. -/
theorem writes_eq_ok {c : Container} {dcf : Dcf} (h : d.writes manager c = .ok dcf) :
    ∃ received sent : List (List Write),
      List.Forall₂ (fun m ws => pdoWrites d.dictionary .tx m = .ok ws) (d.ownMessages (c.messages .tx)) received ∧
      List.Forall₂ (fun m ws => pdoWrites d.dictionary .rx m = .ok ws) (d.ownMessages (c.messages .rx)) sent ∧
      dcf.writes = d.objectWrites manager ++ received.flatten ++ sent.flatten := by
  unfold writes directionWrites at h
  simp only [bind_eq_ok, pure_eq_ok, mapM_eq_ok] at h
  obtain ⟨-, ⟨received, hr, rfl⟩, -, ⟨sent, hs, rfl⟩, rfl⟩ := h
  exact ⟨received, sent, hr, hs, rfl⟩

end Device

end CanOpen

/-! ## Plans of managers -/

namespace ManagerCode

variable {x : ManagerCode}

theorem deviceOf_eq_ok {m : Message} {i : Nat} (h : x.deviceOf m = .ok i) :
    (∃ id, m.owner = some id ∧ x.manager.position? id = some i) ∧ m.pdoIndex.toNat ≤ maxPdoNumber := by
  unfold deviceOf at h
  simp only at h
  split at h
  · cases h
  · rename_i id hid
    split at h
    · cases h
    · rename_i j hj
      split at h
      · cases h
      · rename_i hn
        cases h
        exact ⟨⟨id, hid, hj⟩, by omega⟩

/-- The active messages of a direction with their devices; the others have a device, too. -/
theorem pdos_eq_ok {dir : Direction} {ps : List PdoPlan} (h : x.pdos dir = .ok ps) :
    ∃ plans : List PdoPlan, ps = plans.filter (·.message.pdoActive) ∧
      List.Forall₂ (fun m p => p.message = m ∧ x.deviceOf m = .ok p.deviceIndex) (x.container.messages dir) plans := by
  unfold pdos at h
  simp only [bind_eq_ok, pure_eq_ok, mapM_eq_ok] at h
  obtain ⟨-, -, plans, hp, rfl⟩ := h
  refine ⟨plans, rfl, hp.imp ?_⟩
  rintro m p ⟨i, hi, rfl⟩
  exact ⟨rfl, hi⟩

theorem pdoIndex_le_of_pdos_eq_ok {dir : Direction} {ps : List PdoPlan} (h : x.pdos dir = .ok ps) {m : Message}
    (hm : m ∈ x.container.messages dir) : m.pdoIndex.toNat ≤ maxPdoNumber := by
  obtain ⟨plans, -, hp⟩ := pdos_eq_ok h
  obtain ⟨p, -, -, hd⟩ := exists_of_mem_left hp hm
  exact (deviceOf_eq_ok hd).2

theorem plan_eq_ok {p : ManagerPlan} (h : x.plan = .ok p) :
    x.pdos .tx = .ok p.txPdos ∧ x.pdos .rx = .ok p.rxPdos ∧
      List.Forall₂ (fun d e => e.device = d ∧ d.writes x.manager x.container = .ok e.dcf) x.manager.devices
        p.devices := by
  unfold plan at h
  simp only [bind_eq_ok, pure_eq_ok, mapM_eq_ok] at h
  obtain ⟨tx, htx, rx, hrx, devices, hd, rfl⟩ := h
  refine ⟨htx, hrx, hd.imp ?_⟩
  rintro d e ⟨dcf, hdcf, rfl⟩
  exact ⟨rfl, hdcf⟩

/-- A pair is made of a plan. -/
theorem generate_eq_ok {id : Identifier} {pair : Pair} (h : (x.generate id).result = .ok pair) :
    ∃ p f, x.plan = .ok p ∧ x.source id p = .ok f ∧ pair = ⟨x.stem, x.header id p, f⟩ := by
  unfold generate at h
  simp only [Report.result_bind, Report.result_onError, Report.result_ofExcept, Report.result_forM_tell,
    Report.result_tell, Report.result_pure, bind_eq_ok] at h
  obtain ⟨p, hp, -, -, f, hf, -, -, h⟩ := h
  cases h
  exact ⟨p, f, hp, hf, rfl⟩

theorem dcfItems_subset_source {id : Identifier} {p : ManagerPlan} {f : File} (h : x.source id p = .ok f)
    {e : DevicePlan} (he : e ∈ p.devices) {i : Item} (hi : i ∈ x.dcfItems e) : i ∈ f.items := by
  unfold source at h
  simp only [bind_eq_ok, pure_eq_ok] at h
  obtain ⟨tx, -, rx, -, rfl⟩ := h
  have : i ∈ p.devices.flatMap x.dcfItems := List.mem_flatMap.2 ⟨e, he, hi⟩
  simp only [List.mem_append, this, true_or, or_true]

end ManagerCode

end BusNode
