import BusNode.Proofs.CanOpen.Reconfiguration
/-!
# Where a device is written

* `Dictionary.Lets` — the entry that a write goes to exists, and may be written;
* `Dictionary.IsOwnPart` — the writes to a device's own objects, in their order;
* `Dictionary.IsBlock` — the writes of a PDO: where they may go, and what becomes of a PDO that is not active;
* `device_permission` — the writes of every device are its own part, and a block for each of its PDOs by number, the
  received ones first.
-/

namespace BusNode

open Can CanOpen

/-! ## Dictionaries -/

theorem SortedMap.mem_keys {κ α : Type} [Ordinal κ] {m : SortedMap κ α} {k : κ} :
    k ∈ m.keys ↔ ∃ v, m.get? k = some v := by
  unfold keys get?
  simp only [Option.map_eq_some_iff, List.mem_map]
  constructor
  · rintro ⟨e, he, rfl⟩
    have hsome : (m.entries.find? fun f => Ordinal.toNat f.1 = Ordinal.toNat e.1).isSome = true :=
      List.find?_isSome.2 ⟨e, he, by simp⟩
    obtain ⟨f, hf⟩ := Option.isSome_iff_exists.1 hsome
    exact ⟨f.2, f, hf, rfl⟩
  · rintro ⟨v, e, he, -⟩
    have hkey : Ordinal.toNat e.1 = Ordinal.toNat k := by simpa using List.find?_some he
    exact ⟨e, List.mem_of_find?_eq_some he, Ordinal.toNat_injective _ _ hkey⟩

namespace CanOpen

/-- The entry that a write goes to. -/
def Write.address (w : Write) : UInt16 × UInt8 := (w.index, w.sub)

namespace Dictionary

/-- The entry that the write goes to exists, and may be written. -/
def Lets (od : Dictionary) (w : Write) : Prop :=
  ∃ e, od.entry? w.index w.sub = some e ∧ e.access.isWritable = true

variable {od : Dictionary} {index : UInt16} {sub : UInt8} {w : Write}

theorem isWritable_iff :
    od.isWritable index sub = true ↔ ∃ e, od.entry? index sub = some e ∧ e.access.isWritable = true := by
  unfold isWritable
  cases od.entry? index sub with
  | none => simp
  | some e => simp

theorem lets_iff : od.Lets w ↔ od.isWritable w.index w.sub = true := isWritable_iff.symm

theorem mem_subIndices : sub ∈ od.subIndices index ↔ sub ≠ 0 ∧ ∃ e, od.entry? index sub = some e := by
  unfold subIndices entry?
  cases od.objects.get? index with
  | none => simp
  | some o =>
    simp only [List.mem_filter, SortedMap.mem_keys, decide_eq_true_iff, Option.bind_some]
    exact and_comm

theorem ascending_subIndices : (od.subIndices index).Pairwise (· < ·) := by
  unfold subIndices
  split
  · rename_i o _
    exact (List.pairwise_map.2 (o.ascending.imp UInt8.lt_iff_toNat_lt.2)).filter _
  · exact .nil

/-! ## Own objects -/

/-- The sub-indices of the heartbeat consumers that are written. -/
def heartbeatConsumers (od : Dictionary) : List UInt8 := (od.subIndices 0x1016).filter (od.isWritable 0x1016)

/-- The writes to the own objects of a device: the SYNC and EMCY objects that may be written, then the heartbeat
consumers by sub-index, all but the first of which are cleared, then the heartbeat producer. -/
structure IsOwnPart (od : Dictionary) (ws : List Write) : Prop where
  order : ∃ subs : List UInt8, subs.Pairwise (· < ·) ∧
    (∀ sub, sub ∈ subs ↔ sub ≠ 0 ∧ od.isWritable 0x1016 sub = true) ∧
    ws.map Write.address =
      [(0x1005, 0), (0x1006, 0), (0x1007, 0), (0x1014, 0)].filter (fun a => od.isWritable a.1 a.2) ++
        subs.map (0x1016, ·) ++ [(0x1017, 0)].filter (fun a => od.isWritable a.1 a.2)
  cleared : ∀ w ∈ ws, w.index = 0x1016 → w.sub ≠ 1 → w.payload = [0, 0, 0, 0]
  lets : ∀ w ∈ ws, od.Lets w

theorem mem_heartbeatConsumers :
    sub ∈ od.heartbeatConsumers ↔ sub ≠ 0 ∧ od.isWritable 0x1016 sub = true := by
  rw [heartbeatConsumers, List.mem_filter, mem_subIndices, isWritable_iff]
  constructor
  · exact fun h => ⟨h.1.1, h.2⟩
  · rintro ⟨hsub, e, he, hw⟩
    exact ⟨⟨hsub, e, he⟩, e, he, hw⟩

/-- A write to an entry, if the entry may be written. -/
theorem map_address_when (payload : List UInt8) (comment : String) :
    (when (od.isWritable index sub) [⟨index, sub, payload, comment⟩]).map Write.address =
      [(index, sub)].filter fun a => od.isWritable a.1 a.2 := by
  rw [when_eq_ite]
  cases hw : od.isWritable index sub with
  | true => simp [Write.address, hw]
  | false => simp [hw]

variable (manager : Manager) (d : Device)

theorem map_address_objectWrites : (d.objectWrites manager).map Write.address =
    [(0x1005, 0), (0x1006, 0), (0x1007, 0), (0x1014, 0)].filter (fun a => d.dictionary.isWritable a.1 a.2) ++
      d.dictionary.heartbeatConsumers.map (0x1016, ·) ++
      [(0x1017, 0)].filter (fun a => d.dictionary.isWritable a.1 a.2) := by
  unfold Device.objectWrites
  simp only [List.map_append, List.map_map, Write.long, Write.short, map_address_when, ← List.filter_append]
  rfl

theorem payload_of_mem_objectWrites (hw : w ∈ d.objectWrites manager) (hindex : w.index = 0x1016)
    (hsub : w.sub ≠ 1) : w.payload = [0, 0, 0, 0] := by
  have hother {c : Bool} {v : Write} (hv : v.index ≠ 0x1016) (h : w ∈ when c [v]) : w.payload = [0, 0, 0, 0] := by
    obtain rfl := List.mem_singleton.1 (mem_when.1 h).2
    exact absurd hindex hv
  simp only [Device.objectWrites, List.mem_append] at hw
  rcases hw with ((((hw | hw) | hw) | hw) | hw) | hw
  · exact hother (show (0x1005 : UInt16) ≠ 0x1016 by decide) hw
  · exact hother (show (0x1006 : UInt16) ≠ 0x1016 by decide) hw
  · exact hother (show (0x1007 : UInt16) ≠ 0x1016 by decide) hw
  · exact hother (show (0x1014 : UInt16) ≠ 0x1016 by decide) hw
  · obtain ⟨sub, -, rfl⟩ := List.mem_map.1 hw
    have hzero : d.heartbeatConsumer manager sub = 0 := if_neg hsub
    show littleEndian 4 (d.heartbeatConsumer manager sub).toNat = _
    rw [hzero]
    rfl
  · exact hother (show (0x1017 : UInt16) ≠ 0x1016 by decide) hw

theorem isOwnPart_objectWrites : d.dictionary.IsOwnPart (d.objectWrites manager) := by
  have hwritable : ∀ a ∈ (d.objectWrites manager).map Write.address, d.dictionary.isWritable a.1 a.2 = true := by
    rw [map_address_objectWrites]
    simp only [List.mem_append, List.mem_filter, List.mem_map, mem_heartbeatConsumers]
    rintro a ((⟨-, h⟩ | ⟨sub, ⟨-, h⟩, rfl⟩) | ⟨-, h⟩)
    · exact h
    · exact h
    · exact h
  exact {
    order := ⟨_, ascending_subIndices.filter _, fun _ => mem_heartbeatConsumers, map_address_objectWrites manager d⟩
    cleared := fun w hw => payload_of_mem_objectWrites manager d hw
    lets := fun w hw => lets_iff.2 (hwritable _ (List.mem_map_of_mem hw)) }

end Dictionary

/-! ## PDOs -/

/-- The writes of a PDO. They go to its own objects, where the entry may be written; to an entry of the mapping also
where the number of the entries and the COB-ID may be. A PDO that is not active is switched off at most. -/
structure Dictionary.IsBlock (od : Dictionary) (dir : Direction) (m : Message) (ws : List Write) : Prop where
  own : ∀ w ∈ ws, (PdoObjects.of dir m.pdoIndex).Has w.index
  lets : ∀ w ∈ ws, ¬(w.index = (PdoObjects.of dir m.pdoIndex).mapping ∧ w.sub ≠ 0) → od.Lets w
  entries : ∀ w ∈ ws, w.index = (PdoObjects.of dir m.pdoIndex).mapping → w.sub ≠ 0 →
    od.isWritable (PdoObjects.of dir m.pdoIndex).mapping 0 = true ∧
      od.isWritable (PdoObjects.of dir m.pdoIndex).communication 1 = true
  inactive : m.pdoActive = false →
    ws.filter (·.index = (PdoObjects.of dir m.pdoIndex).communication) = [] ∨
    ∃ off, ws.filter (·.index = (PdoObjects.of dir m.pdoIndex).communication) = [off] ∧ off.sub = 1 ∧
      isOff off.payload = true

section Block

variable {od : Dictionary} {dir : Direction} {m : Message} {ws : List Write}

/-- A write of a PDO goes to a parameter that may be written, or to a mapping that may be. -/
theorem mem_pdoWrites (h : pdoWrites od dir m = .ok ws) {w : Write} (hw : w ∈ ws) :
    w.index = (PdoObjects.of dir m.pdoIndex).communication ∧ od.isWritable w.index w.sub = true ∨
    w.index = (PdoObjects.of dir m.pdoIndex).mapping ∧
      od.isWritable (PdoObjects.of dir m.pdoIndex).mapping 0 = true ∧
      od.isWritable (PdoObjects.of dir m.pdoIndex).communication 1 = true := by
  obtain ⟨label, parameters, hp, -, rfl⟩ := pdoWrites_eq_ok h
  simp only [List.mem_append, mem_when, Bool.and_eq_true, List.mem_singleton] at hw
  rcases hw with ((⟨hd, rfl⟩ | hw) | ⟨⟨hmap, hd⟩, hw⟩) | ⟨⟨-, hd⟩, rfl⟩
  · exact .inl ⟨rfl, hd⟩
  · obtain ⟨-, hp⟩ | ⟨-, rfl⟩ := hp
    · obtain ⟨hi, -, hwritable⟩ := mem_parameterWrites hp hw
      exact .inl ⟨hi, hi ▸ hwritable⟩
    · cases hw
  · exact .inr ⟨mem_mappingWrites hw, hmap, hd⟩
  · exact .inl ⟨rfl, hd⟩

theorem isBlock_pdoWrites (hn : m.pdoIndex.toNat ≤ ManagerCode.maxPdoNumber) (h : pdoWrites od dir m = .ok ws) :
    od.IsBlock dir m ws where
  own _ hw := has_of_mem_pdoWrites h hw
  lets w hw hentry := by
    rw [Dictionary.lets_iff]
    rcases mem_pdoWrites h hw with ⟨-, hwritable⟩ | ⟨hi, hmap, -⟩
    · exact hwritable
    · have hsub : w.sub = 0 := by
        by_contra hne
        exact hentry ⟨hi, hne⟩
      rw [hi, hsub]
      exact hmap
  entries w hw hi _ := by
    rcases mem_pdoWrites h hw with ⟨hc, -⟩ | ⟨-, hmap, hd⟩
    · exact absurd (hc.symm.trans hi) (PdoObjects.communication_ne_mapping hn hn)
    · exact ⟨hmap, hd⟩
  inactive ha := by
    obtain ⟨label, parameters, hp, -, rfl⟩ := pdoWrites_eq_ok h
    obtain ⟨hactive, -⟩ | ⟨-, rfl⟩ := hp
    · cases ha.symm.trans hactive
    -- a mapping is an object of its own, so that of such a block the first write is left
    have hmapping : ∀ c, (when c (mappingWrites m (PdoObjects.of dir m.pdoIndex) label)).filter
        (·.index = (PdoObjects.of dir m.pdoIndex).communication) = [] := by
      intro c
      refine List.filter_eq_nil_iff.2 fun w hw hi => ?_
      have hi' := mem_mappingWrites (mem_when.1 hw).2
      exact PdoObjects.communication_ne_mapping hn hn ((of_decide_eq_true hi).symm.trans hi')
    rw [ha, Bool.false_and, List.filter_append, List.filter_append, hmapping, List.append_nil, List.append_nil]
    cases od.isWritable (PdoObjects.of dir m.pdoIndex).communication 1 with
    | false => exact .inl rfl
    | true =>
      refine .inr ⟨.long (PdoObjects.of dir m.pdoIndex).communication 1 (cobId m ||| cobIdInvalid)
        s!"{label}: disable", ?_, rfl, isOff_long (cobId m)⟩
      simp [when_eq_ite, Write.long]

end Block

/-! ## Devices -/

namespace Device

/-- The writes of the PDOs of one direction: a block for each message of the device, by PDO number. -/
def IsPdoPart (d : Device) (c : Container) (dir : Direction) (ws : List Write) : Prop :=
  ∃ (ms : List Message) (blocks : List (List Write)), ms.Perm ((c.messages dir).filter (·.owner = some d.id)) ∧
    ms.Pairwise (·.pdoIndex.toNat ≤ ·.pdoIndex.toNat) ∧ ws = blocks.flatten ∧
    List.Forall₂ (fun m block => pdoWrites d.dictionary dir m = .ok block ∧ d.dictionary.IsBlock dir m block) ms blocks

theorem pairwise_ownMessages (d : Device) (ms : List Message) :
    (d.ownMessages ms).Pairwise (·.pdoIndex.toNat ≤ ·.pdoIndex.toNat) := by
  have hsorted : (d.ownMessages ms).Pairwise fun a b => decide (a.pdoIndex ≤ b.pdoIndex) = true := by
    refine List.pairwise_mergeSort ?_ ?_ _
    · intro a b c hab hbc
      simp only [decide_eq_true_eq, UInt16.le_iff_toNat_le] at *
      omega
    · intro a b
      simp only [Bool.or_eq_true, decide_eq_true_eq, UInt16.le_iff_toNat_le]
      omega
  exact hsorted.imp fun h => UInt16.le_iff_toNat_le.1 (of_decide_eq_true h)

theorem isPdoPart {d : Device} {c : Container} {dir : Direction} {blocks : List (List Write)}
    (hn : ∀ m ∈ c.messages dir, m.pdoIndex.toNat ≤ ManagerCode.maxPdoNumber)
    (h : List.Forall₂ (fun m ws => pdoWrites d.dictionary dir m = .ok ws) (d.ownMessages (c.messages dir)) blocks) :
    d.IsPdoPart c dir blocks.flatten := by
  have hown : ∀ m ∈ d.ownMessages (c.messages dir), m.pdoIndex.toNat ≤ ManagerCode.maxPdoNumber :=
    fun m hm => hn m (mem_ownMessages.1 hm).1
  refine ⟨_, blocks, List.mergeSort_perm _ _, d.pairwise_ownMessages _, rfl, ?_⟩
  exact ((List.forall₂_and_left _ _).2 ⟨hown, h⟩).imp fun m ws hm => ⟨hm.2, isBlock_pdoWrites hm.1 hm.2⟩

end Device

end CanOpen

/-! ## Managers -/

namespace ManagerCode

/-- **A device is written only where its dictionary allows it, in a fixed order.** -/
theorem device_permission (x : ManagerCode) (id : Identifier) (pair : Pair) (h : (x.generate id).result = .ok pair)
    (d : Device) (hd : d ∈ x.manager.devices) :
    ∃ dcf, d.writes x.manager x.container = .ok dcf ∧
      Item.listing (.table "uint8" (x.dcfName d) dcf.size) dcf.lines ∈ pair.source.items ∧
      ∃ own received sent, dcf.writes = own ++ received ++ sent ∧ d.dictionary.IsOwnPart own ∧
        d.IsPdoPart x.container .tx received ∧ d.IsPdoPart x.container .rx sent := by
  obtain ⟨p, f, hp, hf, rfl⟩ := generate_eq_ok h
  obtain ⟨htx, hrx, hdevices⟩ := plan_eq_ok hp
  obtain ⟨e, he, rfl, hw⟩ := exists_of_mem_left hdevices hd
  obtain ⟨received, sent, hreceived, hsent, hwrites⟩ := Device.writes_eq_ok hw
  refine ⟨e.dcf, hw, dcfItems_subset_source hf he (by simp [dcfItems]), _, _, _, hwrites, ?_, ?_, ?_⟩
  · exact Dictionary.isOwnPart_objectWrites x.manager e.device
  · exact Device.isPdoPart (fun m hm => pdoIndex_le_of_pdos_eq_ok htx hm) hreceived
  · exact Device.isPdoPart (fun m hm => pdoIndex_le_of_pdos_eq_ok hrx hm) hsent

theorem device_permission_driveManager :
    ∃ pair dcf, (driveManager.generate ⟨"00000000"⟩).result = .ok pair ∧
      drive.writes driveManager.manager driveManager.container = .ok dcf ∧
      ∃ own received sent, dcf.writes = own ++ received ++ sent ∧ drive.dictionary.IsOwnPart own ∧
        drive.IsPdoPart driveManager.container .tx received ∧ drive.IsPdoPart driveManager.container .rx sent := by
  obtain ⟨pair, hpair⟩ : ∃ pair, (driveManager.generate ⟨"00000000"⟩).result = .ok pair :=
    exists_eq_ok (by decide +kernel)
  obtain ⟨dcf, hw, -, hparts⟩ :=
    device_permission driveManager ⟨"00000000"⟩ pair hpair drive (List.mem_singleton_self drive)
  exact ⟨pair, dcf, hpair, hw, hparts⟩

end ManagerCode

end BusNode
