import BusNode.Proofs.Can.Descriptor
import BusNode.Proofs.CanOpen.Reconfiguration
import BusNode.Proofs.CanOpen.Tables
/-!
# Words of a mapping

* `MappedObject` — the three fields of a word; `ofWord_mappingWord` — what the word of a signal has in them: a length of
  more than eight bits runs into the sub-index;
* `SetsMapping` — the entries of the mapping that the writes of a PDO set, one for each signal;
* `pdo_mapping` — that holds of all PDOs of every device of a manager; the words have the fields of the signals just if
  the lengths have eight bits, and those of an active PDO always have.
-/

namespace BusNode

open Can CanOpen

namespace CanOpen

/-! ## Words -/

/-- What a word says of the object that is mapped. -/
structure MappedObject where
  bitLength : Nat
  sub : Nat
  index : Nat
  deriving DecidableEq, Repr

namespace MappedObject

/-- Bits 0 to 7, 8 to 15 and 16 to 31. -/
def ofWord (w : Nat) : MappedObject := ⟨w % 2 ^ 8, w / 2 ^ 8 % 2 ^ 8, w / 2 ^ 16⟩

def ofSignal (s : Signal) : MappedObject := ⟨s.bitLength.toNat, s.odSubIndex.toNat, s.odIndex.toNat⟩

/-- The length and the sub-index share the lower half of the word. -/
theorem toNat_mappingWord (s : Signal) : (mappingWord s).toNat =
    2 ^ 16 * s.odIndex.toNat + (s.bitLength.toNat ||| 2 ^ 8 * s.odSubIndex.toNat) := by
  have hlength : s.bitLength.toNat < 2 ^ 16 := s.bitLength.toNat_lt
  have hsub : s.odSubIndex.toNat < 2 ^ 8 := s.odSubIndex.toNat_lt
  have hindex : s.odIndex.toNat < 2 ^ 16 := s.odIndex.toNat_lt
  have hlow : (s.bitLength.toNat ||| 2 ^ 8 * s.odSubIndex.toNat) < 2 ^ 16 := Nat.or_lt_two_pow hlength (by omega)
  have hsubWord : (s.odSubIndex.toUInt32 <<< 8).toNat = 2 ^ 8 * s.odSubIndex.toNat := by
    rw [UInt32.toNat_shiftLeft, UInt8.toNat_toUInt32, Nat.shiftLeft_eq]
    show s.odSubIndex.toNat * 2 ^ 8 % 2 ^ 32 = _
    omega
  have hindexWord : (s.odIndex.toUInt32 <<< 16).toNat = 2 ^ 16 * s.odIndex.toNat := by
    rw [UInt32.toNat_shiftLeft, UInt16.toNat_toUInt32, Nat.shiftLeft_eq]
    show s.odIndex.toNat * 2 ^ 16 % 2 ^ 32 = _
    omega
  rw [mappingWord, UInt32.toNat_or, UInt32.toNat_or, hsubWord, hindexWord, UInt16.toNat_toUInt32, Nat.or_comm,
    Nat.two_pow_add_eq_or_of_lt hlow]

theorem ofWord_mappingWord (s : Signal) : ofWord (mappingWord s).toNat =
    ⟨s.bitLength.toNat % 2 ^ 8, s.bitLength.toNat / 2 ^ 8 ||| s.odSubIndex.toNat, s.odIndex.toNat⟩ := by
  have hlength : s.bitLength.toNat < 2 ^ 16 := s.bitLength.toNat_lt
  have hsub : s.odSubIndex.toNat < 2 ^ 8 := s.odSubIndex.toNat_lt
  have hlow : (s.bitLength.toNat ||| 2 ^ 8 * s.odSubIndex.toNat) < 2 ^ 16 := Nat.or_lt_two_pow hlength (by omega)
  have hmod : (s.bitLength.toNat ||| 2 ^ 8 * s.odSubIndex.toNat) % 2 ^ 8 = s.bitLength.toNat % 2 ^ 8 := by
    rw [Nat.or_mod_two_pow, Nat.mul_mod_right, Nat.or_zero]
  have hdiv : (s.bitLength.toNat ||| 2 ^ 8 * s.odSubIndex.toNat) / 2 ^ 8 =
      s.bitLength.toNat / 2 ^ 8 ||| s.odSubIndex.toNat := by
    rw [Nat.or_div_two_pow, Nat.mul_div_cancel_left _ (by decide)]
  rw [toNat_mappingWord, ofWord, ← hmod, ← hdiv]
  generalize (s.bitLength.toNat ||| 2 ^ 8 * s.odSubIndex.toNat) = low at hlow
  rw [mk.injEq]
  omega

/-- The fields are those of the signal just if its length has eight bits. -/
theorem ofWord_eq_ofSignal {s : Signal} : ofWord (mappingWord s).toNat = ofSignal s ↔ s.bitLength.toNat < 2 ^ 8 := by
  rw [ofWord_mappingWord, ofSignal]
  constructor
  · intro h
    have hlength : s.bitLength.toNat % 2 ^ 8 = s.bitLength.toNat := congrArg bitLength h
    omega
  · intro h
    rw [Nat.mod_eq_of_lt h, Nat.div_eq_of_lt h, Nat.zero_or]

end MappedObject

/-! ## Entries of a mapping -/

/-- What the payload of a write says of an object. -/
def Write.mapped (w : Write) : MappedObject := .ofWord (ofLittleEndian w.payload)

/-- The write sets the entry of the signal that has `k` signals before it. -/
structure Write.SetsEntry (w : Write) (s : Signal) (k : Nat) : Prop where
  sub : w.sub.toNat = k + 1
  length : w.payload.length = 4
  fields : w.mapped = ⟨s.bitLength.toNat % 2 ^ 8, s.bitLength.toNat / 2 ^ 8 ||| s.odSubIndex.toNat, s.odIndex.toNat⟩
  exact : w.mapped = .ofSignal s ↔ s.bitLength.toNat < 2 ^ 8

theorem setsEntry_long {s : Signal} {k : Nat} (hk : k + 1 < 2 ^ 8) (index : UInt16) (comment : String) :
    (Write.long index (UInt8.ofNat (k + 1)) (mappingWord s) comment).SetsEntry s k := by
  have hmapped : (Write.long index (UInt8.ofNat (k + 1)) (mappingWord s) comment).mapped =
      .ofWord (mappingWord s).toNat :=
    congrArg MappedObject.ofWord (ofLittleEndian_littleEndian (mappingWord s).toNat_lt)
  refine ⟨?_, length_littleEndian 4 _, ?_, ?_⟩
  · exact UInt8.toNat_ofNat'.trans (Nat.mod_eq_of_lt hk)
  · rw [hmapped, MappedObject.ofWord_mappingWord]
  · rw [hmapped, MappedObject.ofWord_eq_ofSignal]

/-- The writes that set entries of the mapping of a PDO. -/
def entryWrites (o : PdoObjects) (ws : List Write) : List Write := ws.filter fun w => w.index = o.mapping ∧ w.sub ≠ 0

/-- The device lets the mapping of the PDO be configured. -/
def Dictionary.MayMap (od : Dictionary) (o : PdoObjects) : Prop :=
  od.isWritable o.mapping 0 = true ∧ od.isWritable o.communication 1 = true

/-- The writes of a PDO go to its objects, and set an entry of its mapping for each signal in order, or none. -/
structure SetsMapping (od : Dictionary) (dir : Direction) (m : Message) (ws : List Write) : Prop where
  objects : ∀ w ∈ ws, (PdoObjects.of dir m.pdoIndex).Has w.index
  entries : od.MayMap (.of dir m.pdoIndex) →
    List.Forall₂ (fun e w => w.SetsEntry e.1 e.2) m.signals.zipIdx (entryWrites (.of dir m.pdoIndex) ws)
  none : ¬od.MayMap (.of dir m.pdoIndex) → entryWrites (.of dir m.pdoIndex) ws = []

variable {od : Dictionary} {dir : Direction} {m : Message} {ws : List Write}

theorem entryWrites_append (o : PdoObjects) (ws vs : List Write) :
    entryWrites o (ws ++ vs) = entryWrites o ws ++ entryWrites o vs := List.filter_append ..

theorem entryWrites_eq_nil {o : PdoObjects} (h : ∀ w ∈ ws, w.index ≠ o.mapping ∨ w.sub = 0) :
    entryWrites o ws = [] := by
  refine List.filter_eq_nil_iff.2 fun w hw => ?_
  rw [decide_eq_true_iff, not_and_or, not_not]
  exact h w hw

theorem entryWrites_mappingWrites {o : PdoObjects} {label : String} (hlen : m.signals.length < 2 ^ 8) :
    List.Forall₂ (fun e w => w.SetsEntry e.1 e.2) m.signals.zipIdx (entryWrites o (mappingWrites m o label)) := by
  have hsub {e : Signal × Nat} (he : e ∈ m.signals.zipIdx) : e.2 + 1 < 2 ^ 8 :=
    Nat.lt_of_le_of_lt (List.snd_lt_of_mem_zipIdx he) hlen
  have hcount {value : UInt8} {comment : String} : entryWrites o [Write.byte o.mapping 0 value comment] = [] :=
    entryWrites_eq_nil fun w hw => .inr (congrArg Write.sub (List.mem_singleton.1 hw))
  rw [mappingWrites, entryWrites_append, entryWrites_append, hcount, hcount, List.nil_append, List.append_nil,
    entryWrites, List.filter_eq_self.2, List.forall₂_map_right_iff, List.forall₂_same]
  · exact fun e he => setsEntry_long (hsub he) _ _
  · intro w hw
    obtain ⟨e, he, rfl⟩ := List.mem_map.1 hw
    refine decide_eq_true ⟨rfl, fun h0 => ?_⟩
    have h0 : (UInt8.ofNat (e.2 + 1)).toNat = 0 := congrArg UInt8.toNat h0
    rw [UInt8.toNat_ofNat', Nat.mod_eq_of_lt (hsub he)] at h0
    cases h0

theorem setsMapping_of_pdoWrites (hn : m.pdoIndex.toNat ≤ ManagerCode.maxPdoNumber) (h : pdoWrites od dir m = .ok ws) :
    SetsMapping od dir m ws := by
  have hobjects : ∀ w ∈ ws, (PdoObjects.of dir m.pdoIndex).Has w.index := fun _ hw => has_of_mem_pdoWrites h hw
  obtain ⟨label, parameters, hp, hlen, rfl⟩ := pdoWrites_eq_ok h
  have hcommunication {c : Bool} {value : UInt32} {comment : String} : entryWrites (.of dir m.pdoIndex)
      (when c [.long (PdoObjects.of dir m.pdoIndex).communication 1 value comment]) = [] := by
    refine entryWrites_eq_nil fun w hw => .inl ?_
    rw [List.mem_singleton.1 (mem_when.1 hw).2]
    exact PdoObjects.communication_ne_mapping hn hn
  have hparameters : entryWrites (.of dir m.pdoIndex) parameters = [] := by
    refine entryWrites_eq_nil fun w hw => .inl ?_
    obtain ⟨-, hp⟩ | ⟨-, rfl⟩ := hp
    · rw [(mem_parameterWrites hp hw).1]
      exact PdoObjects.communication_ne_mapping hn hn
    · cases hw
  refine ⟨hobjects, fun hmap => ?_, fun hmap => ?_⟩
  all_goals
    rw [entryWrites_append, entryWrites_append, entryWrites_append, hcommunication, hparameters, hcommunication,
      List.nil_append, List.nil_append, List.append_nil]
  · have hmap := Bool.and_eq_true_iff.2 hmap
    rw [when_eq_ite, if_pos hmap]
    exact entryWrites_mappingWrites (hlen hmap)
  · rw [when_eq_ite, if_neg fun h => hmap (Bool.and_eq_true_iff.1 h)]
    rfl

end CanOpen

/-! ## Lengths -/

theorem Can.Descriptor.bitLength_of_ofSignal {s : Signal} {d : Descriptor} (h : Descriptor.ofSignal s = .ok d) :
    1 ≤ s.bitLength.toNat ∧ s.bitLength.toNat ≤ maxLength := by
  exact (ofSignal_eq_ok.1 h).1.length

namespace ManagerCode

variable {x : ManagerCode} {dir : Direction} {m : Message}

/-- The signals of an active PDO are checked for the table of PDOs. -/
theorem bitLength_of_active {pdos : List PdoPlan} {t : PdoTables} (hpdos : x.pdos dir = .ok pdos)
    (ht : x.tables dir pdos = .ok t) (hm : m ∈ x.container.messages dir) (hactive : m.pdoActive = true) {s : Signal}
    (hs : s ∈ m.signals) : 1 ≤ s.bitLength.toNat ∧ s.bitLength.toNat ≤ Descriptor.maxLength := by
  obtain ⟨plans, rfl, hplans⟩ := pdos_eq_ok hpdos
  obtain ⟨p, hp, rfl, -⟩ := exists_of_mem_left hplans hm
  have hp : p ∈ plans.filter (·.message.pdoActive) := List.mem_filter.2 ⟨hp, hactive⟩
  rcases tables_eq_ok ht with ⟨hnil, -⟩ | ⟨l, -, hholds⟩
  · rw [hnil] at hp
    cases hp
  · obtain ⟨row, -, hrow⟩ :=
      exists_of_mem_left hholds.signals (List.mem_flatMap.2 ⟨p, hp, List.mem_map_of_mem hs⟩)
    exact Descriptor.bitLength_of_ofSignal (signalRow_eq_ok hrow).1

/-- **The words of a mapping are those of the signals**, and those of an active PDO do not mix their fields. -/
theorem pdo_mapping (x : ManagerCode) (id : Identifier) (pair : Pair) (h : (x.generate id).result = .ok pair)
    (d : Device) (hd : d ∈ x.manager.devices) :
    ∃ (dcf : Dcf) (blocks : Direction → List (List Write)), d.writes x.manager x.container = .ok dcf ∧
      Item.listing (.table "uint8" (x.dcfName d) dcf.size) dcf.lines ∈ pair.source.items ∧
      dcf.writes = d.objectWrites x.manager ++ (blocks .tx).flatten ++ (blocks .rx).flatten ∧
      (∀ w ∈ d.objectWrites x.manager, w.index.toNat < 0x1400) ∧
      ∀ dir : Direction,
        List.Forall₂ (SetsMapping d.dictionary dir) (d.ownMessages (x.container.messages dir)) (blocks dir) ∧
        ∀ m ∈ d.ownMessages (x.container.messages dir), m.pdoActive = true →
          ∀ s ∈ m.signals, s.bitLength.toNat < 2 ^ 8 := by
  obtain ⟨q, f, hq, hf, rfl⟩ := generate_eq_ok h
  obtain ⟨htx, hrx, hdevices⟩ := plan_eq_ok hq
  obtain ⟨tx, rx, htxTables, hrxTables, hsource⟩ := source_eq_ok hf
  obtain ⟨e, he, rfl, hw⟩ := exists_of_mem_left hdevices hd
  obtain ⟨received, sent, hreceived, hsent, hwrites⟩ := Device.writes_eq_ok hw
  have hblocks {dir : Direction} {pdos : List PdoPlan} {wss : List (List Write)} (hpdos : x.pdos dir = .ok pdos)
      (hwss : List.Forall₂ (fun m ws => pdoWrites e.device.dictionary dir m = .ok ws)
        (e.device.ownMessages (x.container.messages dir)) wss) :
      List.Forall₂ (SetsMapping e.device.dictionary dir) (e.device.ownMessages (x.container.messages dir)) wss := by
    have hnumber : ∀ m ∈ e.device.ownMessages (x.container.messages dir), m.pdoIndex.toNat ≤ maxPdoNumber :=
      fun m hm => pdoIndex_le_of_pdos_eq_ok hpdos (Device.mem_ownMessages.1 hm).1
    exact ((List.forall₂_and_left _ _).2 ⟨hnumber, hwss⟩).imp fun m ws hm => setsMapping_of_pdoWrites hm.1 hm.2
  have hlength {dir : Direction} {pdos : List PdoPlan} {t : PdoTables} (hpdos : x.pdos dir = .ok pdos)
      (ht : x.tables dir pdos = .ok t) : ∀ m ∈ e.device.ownMessages (x.container.messages dir),
      m.pdoActive = true → ∀ s ∈ m.signals, s.bitLength.toNat < 2 ^ 8 := by
    intro m hm hactive s hs
    have hmax := (bitLength_of_active hpdos ht (Device.mem_ownMessages.1 hm).1 hactive hs).2
    exact Nat.lt_of_le_of_lt hmax (by decide)
  refine ⟨e.dcf, fun dir => dir.casesOn received sent, hw,
    dcfItems_subset_source hf he (by simp [dcfItems]), hwrites, fun w => Device.lt_of_mem_objectWrites, fun dir => ?_⟩
  cases dir with
  | tx => exact ⟨hblocks htx hreceived, hlength htx htxTables⟩
  | rx => exact ⟨hblocks hrx hsent, hlength hrx hrxTables⟩

theorem pdo_mapping_driveManager :
    ∃ (pair : Pair) (dcf : Dcf) (blocks : Direction → List (List Write)),
      (driveManager.generate ⟨"00000000"⟩).result = .ok pair ∧ drive ∈ driveManager.manager.devices ∧
      drive.writes driveManager.manager driveManager.container = .ok dcf ∧
      dcf.writes = drive.objectWrites driveManager.manager ++ (blocks .tx).flatten ++ (blocks .rx).flatten ∧
      List.Forall₂ (SetsMapping drive.dictionary .tx) (drive.ownMessages [command]) (blocks .tx) ∧
      List.Forall₂ (SetsMapping drive.dictionary .rx) (drive.ownMessages [status]) (blocks .rx) := by
  obtain ⟨pair, hpair⟩ : ∃ pair, (driveManager.generate ⟨"00000000"⟩).result = .ok pair :=
    exists_eq_ok (by decide +kernel)
  have hdrive : drive ∈ driveManager.manager.devices := List.mem_singleton_self drive
  obtain ⟨dcf, blocks, hw, -, hwrites, -, hblocks⟩ :=
    pdo_mapping driveManager ⟨"00000000"⟩ pair hpair drive hdrive
  exact ⟨pair, dcf, blocks, hpair, hdrive, hw, hwrites, (hblocks .tx).1, (hblocks .rx).1⟩

/-- A signal of 272 bits. -/
def longCommand : Message :=
  { command with signals := [{ Signal.new 0 0 272 with odIndex := 0x6040, odSubIndex := 2 }] }

def longManager : ManagerCode := { driveManager with container := ⟨true, [longCommand], []⟩ }

/-- The message is not active, so its length is not checked, and the device is told to map 16 bits of sub-index 3. -/
theorem mapping_word_mixed :
    ∃ pair dcf, (longManager.generate ⟨"00000000"⟩).result = .ok pair ∧ drive ∈ longManager.manager.devices ∧
      drive.writes longManager.manager longManager.container = .ok dcf ∧
      longCommand ∈ drive.ownMessages (longManager.container.messages .tx) ∧
      ∃ w ∈ dcf.writes, w.index = (PdoObjects.of .tx longCommand.pdoIndex).mapping ∧ w.sub = 1 ∧
        w.mapped = ⟨16, 3, 0x6040⟩ ∧ longCommand.signals.map MappedObject.ofSignal = [⟨272, 2, 0x6040⟩] := by
  obtain ⟨pair, hpair⟩ : ∃ pair, (longManager.generate ⟨"00000000"⟩).result = .ok pair :=
    exists_eq_ok (by decide +kernel)
  obtain ⟨dcf, hdcf, w, hw, hentry⟩ : ∃ dcf, drive.writes longManager.manager longManager.container = .ok dcf ∧
      ∃ w ∈ dcf.writes, w.index = (PdoObjects.of .tx longCommand.pdoIndex).mapping ∧ w.sub = 1 ∧
        w.mapped = ⟨16, 3, 0x6040⟩ :=
    exists_eq_ok_of_any (by decide +kernel)
  obtain ⟨hindex, hsub, hmapped⟩ := hentry
  exact ⟨pair, dcf, hpair, List.mem_singleton_self drive, hdcf,
    Device.mem_ownMessages.2 ⟨List.mem_singleton_self longCommand, rfl⟩, w, hw, hindex, hsub, hmapped, rfl⟩

end ManagerCode

end BusNode
