import BusNode.Proofs.CanOpen.Replay
import BusNode.Proofs.CanOpen.Startup
/-!
# Reconfiguration of PDOs

What the startup writes do to the PDOs of a device.

* `MapsWhileOff` — a write to a mapping object comes while its PDO is off, and one to an entry of the mapping while
  the mapping counts none;
* `Configured` — what a device holds for a PDO in the end;
* `pdo_reconfiguration` — every write of every device is `MapsWhileOff`, and every PDO that has its number for itself
  is `Configured`, whatever the device held at first.
-/

namespace BusNode

open Can CanOpen

namespace CanOpen

/-! ## Identifiers -/

/-- The bit of a COB-ID that switches its PDO off. -/
def isOff (bytes : List UInt8) : Bool := (ofLittleEndian bytes).testBit 31

/-- The COB-ID of a PDO by its fields: the identifier, its format, no remote requests, and whether the PDO is off. -/
def cobIdFields (m : Message) : Nat :=
  m.canId.toNat + m.isExtended.toNat * 2 ^ 29 + 2 ^ 30 + (!m.pdoActive).toNat * 2 ^ 31

theorem isOff_long (v : UInt32) : isOff (littleEndian 4 (v ||| cobIdInvalid).toNat) = true := by
  have hlt : (v ||| cobIdInvalid).toNat < 256 ^ 4 := (v ||| cobIdInvalid).toNat_lt
  rw [isOff, ofLittleEndian_littleEndian hlt, UInt32.toNat_or, Nat.testBit_or]
  have : cobIdInvalid.toNat.testBit 31 = true := by decide
  rw [this, Bool.or_true]

theorem toNat_cobId {m : Message} (h : m.canId.toNat < 2 ^ 29) :
    (cobId m).toNat = m.canId.toNat + m.isExtended.toNat * 2 ^ 29 + 2 ^ 30 := by
  have hflag : (if m.isExtended then (0x20000000 : UInt32) else 0).toNat = 2 ^ 29 * m.isExtended.toNat := by
    cases m.isExtended <;> decide
  have h29 := Nat.two_pow_add_eq_or_of_lt h m.isExtended.toNat
  have hlt : 2 ^ 29 * m.isExtended.toNat + m.canId.toNat < 2 ^ 30 := by
    have := Bool.toNat_le m.isExtended
    omega
  have h30 := Nat.two_pow_add_eq_or_of_lt hlt 1
  have e30 : (0x40000000 : UInt32).toNat = 2 ^ 30 * 1 := rfl
  rw [cobId, UInt32.toNat_or, UInt32.toNat_or, hflag, e30, Nat.or_assoc, Nat.or_comm, Nat.or_assoc, ← h29, ← h30]
  omega

/-- The COB-ID that is written last. -/
def finalCobId (m : Message) : UInt32 := if m.pdoActive then cobId m else cobId m ||| cobIdInvalid

theorem toNat_finalCobId {m : Message} (h : m.canId.toNat < 2 ^ 29) : (finalCobId m).toNat = cobIdFields m := by
  unfold finalCobId cobIdFields
  cases m.pdoActive
  · have hlt : (cobId m).toNat < 2 ^ 31 := by
      have := Bool.toNat_le m.isExtended
      rw [toNat_cobId h]
      omega
    have h31 := Nat.two_pow_add_eq_or_of_lt hlt 1
    have e31 : cobIdInvalid.toNat = 2 ^ 31 * 1 := rfl
    rw [if_neg (by decide), UInt32.toNat_or, e31, Nat.or_comm, ← h31, toNat_cobId h]
    show _ = _ + 1 * 2 ^ 31
    omega
  · rw [if_pos rfl, toNat_cobId h]
    rfl

/-! ## Safety of a run -/

/-- A write to a mapping object of a PDO comes while the COB-ID that was written last switches the PDO off, and a write
to an entry of the mapping while the number that was written last is 0. -/
def MapsWhileOff (before : List Write) (w : Write) : Prop :=
  ∀ dir (n : UInt16), n.toNat ≤ ManagerCode.maxPdoNumber → w.index = (PdoObjects.of dir n).mapping →
    (∃ bytes, lastWritten (PdoObjects.of dir n).communication 1 before = some bytes ∧ isOff bytes = true) ∧
    (w.sub ≠ 0 → lastWritten w.index 0 before = some [0])

section Block

variable {od : Dictionary} {dir : Direction} {m : Message} {before ws : List Write} {label : String}

/-- A write to another object is no concern of the mappings. -/
theorem mapsWhileOff_of_communication (hn : m.pdoIndex.toNat ≤ ManagerCode.maxPdoNumber) {w : Write}
    (hw : w.index = (PdoObjects.of dir m.pdoIndex).communication) (before : List Write) : MapsWhileOff before w :=
  fun _ _ hn' hi => absurd (hw.symm.trans hi) (PdoObjects.communication_ne_mapping hn hn')

theorem mapsWhileOff_of_low {w : Write} (hw : w.index.toNat < 0x1400) (before : List Write) : MapsWhileOff before w :=
  fun _ _ hn hi => absurd (PdoObjects.Has.le hn (.inr hi)) (by omega)

variable (hn : m.pdoIndex.toNat ≤ ManagerCode.maxPdoNumber) {bytes : List UInt8}
  (hoff : lastWritten (PdoObjects.of dir m.pdoIndex).communication 1 before = some bytes) (hbit : isOff bytes = true)
include hn hoff hbit

theorem mapsWhileOff_of_mapping {w : Write} (hw : w.index = (PdoObjects.of dir m.pdoIndex).mapping)
    (hsub : w.sub ≠ 0 → lastWritten (PdoObjects.of dir m.pdoIndex).mapping 0 before = some [0]) :
    MapsWhileOff before w := by
  intro dir' n' hn' hi
  obtain ⟨rfl, rfl⟩ := PdoObjects.eq_of_has hn hn' (.inr hw) (.inr hi)
  exact ⟨⟨bytes, hoff, hbit⟩, hw ▸ hsub⟩

/-- The entries of a mapping may be set while the PDO is off and the mapping cleared. -/
theorem along_entries (hclear : lastWritten (PdoObjects.of dir m.pdoIndex).mapping 0 before = some [0])
    (hws : ∀ w ∈ ws, w.index = (PdoObjects.of dir m.pdoIndex).mapping ∧ w.sub ≠ 0) :
    Along MapsWhileOff before ws := by
  induction ws generalizing before with
  | nil => exact trivial
  | cons w ws ih =>
    obtain ⟨hw, hsub⟩ := hws w List.mem_cons_self
    have hne : ¬(w.index = (PdoObjects.of dir m.pdoIndex).communication ∧ w.sub = 1) :=
      fun h => PdoObjects.communication_ne_mapping hn hn (h.1.symm.trans hw)
    refine ⟨mapsWhileOff_of_mapping hn hoff hbit hw fun _ => hclear, ih ?_ ?_ ?_⟩
    · rw [lastWritten_append_singleton, if_neg hne]
      exact hoff
    · rw [lastWritten_append_singleton, if_neg fun h => hsub h.2]
      exact hclear
    · exact fun v hv => hws v (List.mem_cons_of_mem _ hv)

theorem along_mappingWrites (hlen : m.signals.length < 2 ^ 8) :
    Along MapsWhileOff before (mappingWrites m (PdoObjects.of dir m.pdoIndex) label) := by
  have hframe (ws : List Write) (hws : ∀ w ∈ ws, w.index = (PdoObjects.of dir m.pdoIndex).mapping) :
      lastWritten (PdoObjects.of dir m.pdoIndex).communication 1 (before ++ ws) = some bytes := by
    rw [lastWritten_append_of_ne fun w hw h => PdoObjects.communication_ne_mapping hn hn (h.1.symm.trans (hws w hw))]
    exact hoff
  unfold mappingWrites
  rw [along_append, along_append, along_singleton, along_singleton]
  refine ⟨⟨mapsWhileOff_of_mapping hn hoff hbit rfl (absurd rfl ·), ?_⟩, ?_⟩
  · refine along_entries hn (hframe _ (by simp [Write.byte])) hbit ?_ ?_
    · rw [lastWritten_append_singleton, if_pos ⟨rfl, rfl⟩]
      rfl
    · intro w hw
      obtain ⟨⟨s, i⟩, hsi, rfl⟩ := List.mem_map.1 hw
      have hi := List.snd_lt_of_mem_zipIdx hsi
      refine ⟨rfl, fun h => ?_⟩
      have h0 : (UInt8.ofNat (i + 1)).toNat = 0 := congrArg UInt8.toNat h
      rw [UInt8.toNat_ofNat'] at h0
      omega
  · refine mapsWhileOff_of_mapping hn (hframe _ fun w hw => ?_) hbit rfl (absurd rfl ·)
    have : w ∈ mappingWrites m (PdoObjects.of dir m.pdoIndex) label := List.mem_append_left _ hw
    exact mem_mappingWrites this

omit hoff hbit

/-- The writes of one PDO are safe after any writes. -/
theorem along_pdoWrites (h : pdoWrites od dir m = .ok ws) : Along MapsWhileOff before ws := by
  obtain ⟨label, parameters, hp, hlen, rfl⟩ := pdoWrites_eq_ok h
  have hparam : ∀ w ∈ parameters, w.index = (PdoObjects.of dir m.pdoIndex).communication ∧ w.sub ≠ 1 := by
    intro w hw
    obtain ⟨-, hp⟩ | ⟨-, rfl⟩ := hp
    · obtain ⟨hi, hs, -⟩ := mem_parameterWrites hp hw
      refine ⟨hi, fun h1 => ?_⟩
      rw [h1] at hs
      revert hs
      decide
    · cases hw
  rw [along_append, along_append, along_append]
  refine ⟨⟨⟨along_of_forall ?_, along_of_forall ?_⟩, ?_⟩, along_of_forall ?_⟩
  · intro w hw
    obtain rfl := List.mem_singleton.1 (mem_when.1 hw).2
    exact mapsWhileOff_of_communication hn rfl
  · exact fun w hw => mapsWhileOff_of_communication hn (hparam w hw).1
  · rw [when_eq_ite (_ && _)]
    split
    · rename_i hmap
      rw [when_eq_ite, if_pos (Bool.and_eq_true_iff.1 hmap).2]
      refine along_mappingWrites hn ?_ (isOff_long (cobId m)) (hlen hmap)
      rw [← List.append_assoc, lastWritten_append_of_ne fun w hw h => (hparam w hw).2 h.2,
        lastWritten_append_singleton]
      exact if_pos ⟨rfl, rfl⟩
    · exact trivial
  · intro w hw
    obtain rfl := List.mem_singleton.1 (mem_when.1 hw).2
    exact mapsWhileOff_of_communication hn rfl

end Block

/-! ## Contents in the end -/

/-- What a device holds for a PDO that it lets be configured: its COB-ID, and as many entries of the mapping as it has
signals. -/
structure Configured (od : Dictionary) (dir : Direction) (m : Message) (c : Contents) : Prop where
  cobId : od.isWritable (PdoObjects.of dir m.pdoIndex).communication 1 = true →
    c (PdoObjects.of dir m.pdoIndex).communication 1 = littleEndian 4 (cobIdFields m)
  count : od.isWritable (PdoObjects.of dir m.pdoIndex).communication 1 = true →
    od.isWritable (PdoObjects.of dir m.pdoIndex).mapping 0 = true →
    m.signals.length < 2 ^ 8 ∧ c (PdoObjects.of dir m.pdoIndex).mapping 0 = [UInt8.ofNat m.signals.length]
  entries : od.isWritable (PdoObjects.of dir m.pdoIndex).communication 1 = true →
    od.isWritable (PdoObjects.of dir m.pdoIndex).mapping 0 = true →
    ∀ k s, m.signals[k]? = some s →
      c (PdoObjects.of dir m.pdoIndex).mapping (UInt8.ofNat (k + 1)) = littleEndian 4 (mappingWord s).toNat

section Contents

variable {od : Dictionary} {dir : Direction} {m : Message} {ws : List Write}

theorem lastWritten_communication (hn : m.pdoIndex.toNat ≤ ManagerCode.maxPdoNumber) (h : pdoWrites od dir m = .ok ws)
    (hd : od.isWritable (PdoObjects.of dir m.pdoIndex).communication 1 = true) :
    lastWritten (PdoObjects.of dir m.pdoIndex).communication 1 ws = some (littleEndian 4 (finalCobId m).toNat) := by
  obtain ⟨label, parameters, hp, -, rfl⟩ := pdoWrites_eq_ok h
  unfold finalCobId
  rw [hd]
  obtain ⟨ha, hp⟩ | ⟨ha, rfl⟩ := hp <;> rw [ha]
  · exact lastWritten_append_of_eq_some (if_pos ⟨rfl, rfl⟩)
  · have hmap : ∀ w ∈ when (od.isWritable (PdoObjects.of dir m.pdoIndex).mapping 0 && true)
        (mappingWrites m (PdoObjects.of dir m.pdoIndex) label),
        ¬(w.index = (PdoObjects.of dir m.pdoIndex).communication ∧ w.sub = 1) :=
      fun w hw e => PdoObjects.communication_ne_mapping hn hn (e.1.symm.trans (mem_mappingWrites (mem_when.1 hw).2))
    show lastWritten _ 1 ((([_] ++ []) ++ _) ++ []) = _
    rw [List.append_nil, List.append_nil, lastWritten_append_of_ne hmap]
    exact if_pos ⟨rfl, rfl⟩

/-- What is written to an entry of a mapping last is the last of the writes of the mapping. -/
theorem lastWritten_mapping (hn : m.pdoIndex.toNat ≤ ManagerCode.maxPdoNumber) (h : pdoWrites od dir m = .ok ws)
    (hd : od.isWritable (PdoObjects.of dir m.pdoIndex).communication 1 = true)
    (hm : od.isWritable (PdoObjects.of dir m.pdoIndex).mapping 0 = true) :
    m.signals.length < 2 ^ 8 ∧ ∃ label, ∀ sub p,
      lastWritten (PdoObjects.of dir m.pdoIndex).mapping sub (mappingWrites m (PdoObjects.of dir m.pdoIndex) label) =
        some p → lastWritten (PdoObjects.of dir m.pdoIndex).mapping sub ws = some p := by
  obtain ⟨label, parameters, -, hlen, rfl⟩ := pdoWrites_eq_ok h
  rw [hd, hm] at *
  refine ⟨hlen rfl, label, fun sub p hp => ?_⟩
  rw [lastWritten_append_of_ne]
  · exact lastWritten_append_of_eq_some hp
  · intro w hw e
    obtain rfl := List.mem_singleton.1 (mem_when.1 hw).2
    exact PdoObjects.communication_ne_mapping hn hn e.1

theorem lastWritten_count (o : PdoObjects) (label : String) :
    lastWritten o.mapping 0 (mappingWrites m o label) = some [UInt8.ofNat m.signals.length] :=
  lastWritten_append_of_eq_some (if_pos ⟨rfl, rfl⟩)

theorem lastWritten_entry (o : PdoObjects) (label : String) (hlen : m.signals.length < 2 ^ 8) {k : Nat} {s : Signal}
    (hs : m.signals[k]? = some s) :
    lastWritten o.mapping (UInt8.ofNat (k + 1)) (mappingWrites m o label) =
      some (littleEndian 4 (mappingWord s).toNat) := by
  obtain ⟨hk, rfl⟩ := List.getElem?_eq_some_iff.1 hs
  have hsub (i j : Nat) (hi : i < 2 ^ 8) (hj : j < 2 ^ 8) (e : UInt8.ofNat i = UInt8.ofNat j) : i = j := by
    have := congrArg UInt8.toNat e
    rwa [UInt8.toNat_ofNat', UInt8.toNat_ofNat', Nat.mod_eq_of_lt hi, Nat.mod_eq_of_lt hj] at this
  have hsplit : m.signals.zipIdx = m.signals.zipIdx.take k ++ (m.signals[k], k) :: m.signals.zipIdx.drop (k + 1) := by
    conv_lhs => rw [← List.take_append_drop k m.signals.zipIdx]
    rw [List.drop_eq_getElem_cons (by rwa [List.length_zipIdx]), List.getElem_zipIdx, Nat.zero_add]
  unfold mappingWrites
  rw [lastWritten_append_of_ne, hsplit, List.map_append, List.map_cons, ← List.append_assoc]
  · refine lastWritten_append_of_eq_some ?_
    rw [lastWritten, lastWritten_eq_none, Option.none_or]
    · exact if_pos ⟨rfl, rfl⟩
    · intro w hw e
      obtain ⟨⟨s, i⟩, hsi, rfl⟩ := List.mem_map.1 hw
      obtain ⟨j, hj, hget⟩ := List.mem_drop_iff_getElem.1 hsi
      rw [List.getElem_zipIdx, Prod.mk.injEq] at hget
      rw [List.length_zipIdx] at hj
      have := hsub (i + 1) (k + 1) (by omega) (by omega) e.2
      omega
  · intro w hw e
    obtain rfl := List.mem_singleton.1 hw
    have := hsub 0 (k + 1) (by omega) (by omega) e.2
    omega

end Contents

/-! ## All writes of a device -/

section Device

variable {od : Dictionary} {dir dir' : Direction} {m : Message}

/-- The writes of PDOs go past the objects of a PDO that is none of them. -/
theorem not_mem_of_other {ms : List Message} {wss : List (List Write)}
    (h : List.Forall₂ (fun m ws => pdoWrites od dir' m = .ok ws) ms wss)
    (hms : ∀ m' ∈ ms, m'.pdoIndex.toNat ≤ ManagerCode.maxPdoNumber)
    (hn : m.pdoIndex.toNat ≤ ManagerCode.maxPdoNumber) (hne : ∀ m' ∈ ms, ¬(dir = dir' ∧ m.pdoIndex = m'.pdoIndex))
    {i : UInt16} (hi : (PdoObjects.of dir m.pdoIndex).Has i) {s : UInt8} :
    ∀ w ∈ wss.flatten, ¬(w.index = i ∧ w.sub = s) := by
  intro w hw e
  obtain ⟨ws, hws, hw⟩ := List.mem_flatten.1 hw
  obtain ⟨m', hm', h'⟩ := exists_of_mem_right h hws
  have hi' := has_of_mem_pdoWrites h' hw
  rw [e.1] at hi'
  exact hne m' hm' (PdoObjects.eq_of_has hn (hms m' hm') hi hi')

/-- A message that has its number for itself stands among the messages of the device, and no other one has the
number. -/
theorem ownMessages_split {d : Device} {ms : List Message}
    (honly : ms.filter (fun m' => m'.owner = some d.id ∧ m'.pdoIndex = m.pdoIndex) = [m]) :
    ∃ l₁ l₂, d.ownMessages ms = l₁ ++ m :: l₂ ∧ (∀ m' ∈ l₁, ¬m.pdoIndex = m'.pdoIndex) ∧
      ∀ m' ∈ l₂, ¬m.pdoIndex = m'.pdoIndex := by
  have hperm : ((d.ownMessages ms).filter fun m' => m'.pdoIndex = m.pdoIndex) = [m] := by
    refine List.perm_singleton.1 (((List.mergeSort_perm _ _).filter _).trans ?_)
    rw [List.filter_filter, ← honly]
    refine List.Perm.of_eq (List.filter_congr fun m' _ => ?_)
    simp [and_comm]
  have hmem : m ∈ d.ownMessages ms := (List.mem_filter.1 (hperm ▸ List.mem_singleton_self m)).1
  obtain ⟨l₁, l₂, hl⟩ := List.append_of_mem hmem
  rw [hl, List.filter_append, List.filter_cons_of_pos (by simp)] at hperm
  obtain ⟨h₁, h₂⟩ | ⟨-, h₂⟩ := List.append_eq_singleton_iff.1 hperm
  · have h₂ := (List.cons.inj h₂).2
    rw [List.filter_eq_nil_iff] at h₁ h₂
    exact ⟨l₁, l₂, hl, fun m' hm' e => h₁ m' hm' (decide_eq_true e.symm),
      fun m' hm' e => h₂ m' hm' (decide_eq_true e.symm)⟩
  · cases h₂

variable {d : Device} {manager : Manager} {c : Container} {dcf : Dcf}
  (hn : ∀ dir, ∀ m ∈ c.messages dir, m.pdoIndex.toNat ≤ ManagerCode.maxPdoNumber)
  (h : d.writes manager c = .ok dcf)
include hn h

theorem along_writes : Along MapsWhileOff [] dcf.writes := by
  obtain ⟨received, sent, hr, hs, hw⟩ := Device.writes_eq_ok h
  have hblock {dir : Direction} {wss : List (List Write)}
      (hf : List.Forall₂ (fun m ws => pdoWrites d.dictionary dir m = .ok ws) (d.ownMessages (c.messages dir)) wss) :
      ∀ ws ∈ wss, ∀ before, Along MapsWhileOff before ws := by
    intro ws hws before
    obtain ⟨m, hm, hp⟩ := exists_of_mem_right hf hws
    exact along_pdoWrites (hn dir m (Device.mem_ownMessages.1 hm).1) hp
  rw [hw, along_append, along_append]
  exact ⟨⟨along_of_forall fun w hw => mapsWhileOff_of_low (Device.lt_of_mem_objectWrites hw),
    along_flatten (hblock hr) _⟩, along_flatten (hblock hs) _⟩

/-- What is written to an object of a PDO that has its number for itself is written by this PDO. -/
theorem exists_lastWritten_eq {dir : Direction} {m : Message}
    (honly : (c.messages dir).filter (fun m' => m'.owner = some d.id ∧ m'.pdoIndex = m.pdoIndex) = [m]) :
    ∃ ws, pdoWrites d.dictionary dir m = .ok ws ∧ ∀ i s p, (PdoObjects.of dir m.pdoIndex).Has i →
      lastWritten i s ws = some p → lastWritten i s dcf.writes = some p := by
  obtain ⟨received, sent, hr, hs, hw⟩ := Device.writes_eq_ok h
  have hle {dir : Direction} {m : Message} (hm : m ∈ d.ownMessages (c.messages dir)) :
      m.pdoIndex.toNat ≤ ManagerCode.maxPdoNumber := hn dir m (Device.mem_ownMessages.1 hm).1
  obtain ⟨l₁, l₂, hl, -, hne⟩ := ownMessages_split honly
  have hm : m ∈ d.ownMessages (c.messages dir) := by
    rw [hl]
    exact List.mem_append_right _ List.mem_cons_self
  have hl₂ {m' : Message} (hm' : m' ∈ l₂) : m' ∈ d.ownMessages (c.messages dir) := by
    rw [hl]
    exact List.mem_append_right _ (List.mem_cons_of_mem _ hm')
  cases dir with
  | tx =>
    obtain ⟨r₁, ws, r₂, rfl, -, hws, hr₂⟩ := forall₂_split (hl ▸ hr)
    refine ⟨ws, hws, fun i s p hi hp => ?_⟩
    rw [hw, lastWritten_append_of_ne, List.flatten_append, List.flatten_cons, ← List.append_assoc,
      ← List.append_assoc, lastWritten_append_of_ne]
    · exact lastWritten_append_of_eq_some hp
    · exact not_mem_of_other hr₂ (fun m' hm' => hle (hl₂ hm')) (hle hm) (fun m' hm' e => hne m' hm' e.2) hi
    · have hne (m' : Message) (_ : m' ∈ d.ownMessages (c.messages .rx)) :
          ¬(Direction.tx = .rx ∧ m.pdoIndex = m'.pdoIndex) := fun e => nomatch e.1
      exact not_mem_of_other hs (fun m' hm' => hle hm') (hle hm) hne hi
  | rx =>
    obtain ⟨r₁, ws, r₂, rfl, -, hws, hr₂⟩ := forall₂_split (hl ▸ hs)
    refine ⟨ws, hws, fun i s p hi hp => ?_⟩
    rw [hw, List.flatten_append, List.flatten_cons, ← List.append_assoc, ← List.append_assoc,
      lastWritten_append_of_ne]
    · exact lastWritten_append_of_eq_some hp
    · exact not_mem_of_other hr₂ (fun m' hm' => hle (hl₂ hm')) (hle hm) (fun m' hm' e => hne m' hm' e.2) hi

theorem configured {dir : Direction} {m : Message}
    (honly : (c.messages dir).filter (fun m' => m'.owner = some d.id ∧ m'.pdoIndex = m.pdoIndex) = [m])
    (hid : m.canId.toNat < 2 ^ 29) (initial : Contents) :
    Configured d.dictionary dir m (initial.replay dcf.writes) := by
  obtain ⟨ws, hws, hlast⟩ := exists_lastWritten_eq hn h honly
  have hm : m ∈ c.messages dir := (List.mem_filter.1 (honly ▸ List.mem_singleton_self m)).1
  have hn := hn dir m hm
  refine ⟨fun hd => ?_, fun hd hm => ?_, fun hd hm k s hs => ?_⟩
  · rw [replay_apply, hlast _ _ _ (.inl rfl) (lastWritten_communication hn hws hd), toNat_finalCobId hid]
    rfl
  · obtain ⟨hlen, label, hmap⟩ := lastWritten_mapping hn hws hd hm
    rw [replay_apply, hlast _ _ _ (.inr rfl) (hmap _ _ (lastWritten_count _ label))]
    exact ⟨hlen, rfl⟩
  · obtain ⟨hlen, label, hmap⟩ := lastWritten_mapping hn hws hd hm
    rw [replay_apply, hlast _ _ _ (.inr rfl) (hmap _ _ (lastWritten_entry _ label hlen hs))]
    rfl

end Device

end CanOpen

/-! ## Managers -/

namespace ManagerCode

/-- **Reconfiguration of PDOs is safe and complete.** A device of a manager that has code gets writes that touch the
mapping of a PDO only while the PDO is off, and an entry of it only while the mapping counts none; in the end the
device holds the configuration of each PDO that has its number for itself, whatever it held at first. -/
theorem pdo_reconfiguration (x : ManagerCode) (id : Identifier) (pair : Pair)
    (h : (x.generate id).result = .ok pair)
    (hid : ∀ dir, ∀ m ∈ x.container.messages dir, m.canId.toNat < 2 ^ 29)
    (d : Device) (hd : d ∈ x.manager.devices) :
    ∃ dcf, d.writes x.manager x.container = .ok dcf ∧
      Item.listing (.table "uint8" (x.dcfName d) dcf.size) dcf.lines ∈ pair.source.items ∧
      (∀ before w after, dcf.writes = before ++ w :: after → MapsWhileOff before w) ∧
      ∀ initial dir m, (x.container.messages dir).filter
          (fun m' => m'.owner = some d.id ∧ m'.pdoIndex = m.pdoIndex) = [m] →
        Configured d.dictionary dir m (Contents.replay initial dcf.writes) := by
  obtain ⟨p, f, hp, hf, rfl⟩ := generate_eq_ok h
  obtain ⟨htx, hrx, hdev⟩ := plan_eq_ok hp
  have hn (dir : Direction) (m : Message) (hm : m ∈ x.container.messages dir) : m.pdoIndex.toNat ≤ maxPdoNumber := by
    cases dir
    · exact pdoIndex_le_of_pdos_eq_ok htx hm
    · exact pdoIndex_le_of_pdos_eq_ok hrx hm
  obtain ⟨e, he, rfl, hw⟩ := exists_of_mem_left hdev hd
  refine ⟨e.dcf, hw, dcfItems_subset_source hf he (by simp [dcfItems]), ?_, ?_⟩
  · intro before w after hsplit
    exact along_split (hsplit ▸ along_writes hn hw)
  · intro initial dir m honly
    have hm : m ∈ x.container.messages dir := (List.mem_filter.1 (honly ▸ List.mem_singleton_self m)).1
    exact configured hn hw honly (hid dir m hm) initial

/-- A drive that lets both of its first PDOs be configured. -/
def drive : Device := { Device.new ⟨1, 0⟩ "Drive" 5 with
  dictionary := ((((Dictionary.empty.insert 0x1400 1 .readWrite).insert 0x1600 0 .readWrite).insert 0x1800 1
    .readWrite).insert 0x1A00 0 .readWrite).insert 0x1800 2 .writeOnly }

/-- What the drive receives; it is switched off. -/
def command : Message := { Message.new "Command" 0x205 8 .canOpenType255 with
  signals := [{ Signal.new 0 0 16 with odIndex := 0x6040 }], owner := some ⟨1, 0⟩, pdoActive := false }

/-- What the drive sends. -/
def status : Message := { Message.new "Status" 0x185 8 .canOpenType1To240 with
  signals := [{ Signal.new 0 0 16 with odIndex := 0x6041 }, { Signal.new 1 16 8 with odIndex := 0x6061 }],
  syncCount := 2, owner := some ⟨1, 0⟩ }

def driveManager : ManagerCode where
  application := "Machine"
  interface := 0
  manager := { Manager.new 1 with devices := [drive] }
  container := ⟨true, [command], [status]⟩
  datapool := { Datapool.new "Com" .com (some 0) with
    lists := [
      { ElementList.new "Tx" with elements := [.scalar "ControlWord" (.u16 0) (.u16 0) (.u16 9)] },
      { ElementList.new "Rx" with
        elements := [.scalar "StatusWord" (.u16 0) (.u16 0) (.u16 9), .scalar "Mode" (.s8 0) (.s8 0) (.s8 9)] }] }
  version := 2

theorem pdo_reconfiguration_driveManager :
    ∃ pair dcf, (driveManager.generate ⟨"00000000"⟩).result = .ok pair ∧
      drive.writes driveManager.manager driveManager.container = .ok dcf ∧
      (∀ before w after, dcf.writes = before ++ w :: after → MapsWhileOff before w) ∧
      ∀ initial, Configured drive.dictionary .tx command (Contents.replay initial dcf.writes) ∧
        Configured drive.dictionary .rx status (Contents.replay initial dcf.writes) := by
  obtain ⟨pair, hpair⟩ : ∃ pair, (driveManager.generate ⟨"00000000"⟩).result = .ok pair :=
    exists_eq_ok (by decide +kernel)
  have hid : ∀ dir, ∀ m ∈ driveManager.container.messages dir, m.canId.toNat < 2 ^ 29 := by
    intro dir
    cases dir <;> decide
  obtain ⟨dcf, hw, -, hsafe, hconf⟩ :=
    pdo_reconfiguration driveManager ⟨"00000000"⟩ pair hpair hid drive (List.mem_singleton_self drive)
  exact ⟨pair, dcf, hpair, hw, hsafe, fun initial =>
    ⟨hconf initial .tx command (by decide), hconf initial .rx status (by decide)⟩⟩

end ManagerCode

end BusNode
