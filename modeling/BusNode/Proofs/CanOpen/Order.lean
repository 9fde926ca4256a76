import BusNode.Proofs.Acceptance
import BusNode.Proofs.CanOpen.Permission
import Mathlib.Data.List.Nodup
/-!
# The order of PDOs

The writes to a device follow the numbers of its PDOs. Where the messages stand among those of the manager does not
count, nor do the messages of other devices.

* `Device.SharesPdos` — two containers have the same messages of a device, in any order, each with a number of its own;
* `Device.FailsWith` — the fault of a PDO before which there is none, by direction and by number;
* `ManagerCode.writes_follow_numbers` — the writes to a device are the same for any two such containers, and where
  there are none the error is that one.
-/

namespace BusNode

open Can CanOpen

namespace CanOpen.Device

/-! ## Messages of a device -/

/-- The messages of the device in one direction of a container. -/
def messagesIn (d : Device) (c : Container) (dir : Direction) : List Message :=
  (c.messages dir).filter (·.owner = some d.id)

/-- The containers have the same messages of the device, and in one direction no two of one number. -/
structure SharesPdos (d : Device) (c c' : Container) : Prop where
  perm : ∀ dir, (d.messagesIn c dir).Perm (d.messagesIn c' dir)
  numbers : ∀ dir, ((d.messagesIn c dir).map (·.pdoIndex)).Nodup

variable {d : Device} {c c' : Container} {manager manager' : Manager} {dir dir' : Direction} {m m' : Message}
  {e : ExportError}

theorem ownMessages_perm : (d.ownMessages (c.messages dir)).Perm (d.messagesIn c dir) := List.mergeSort_perm _ _

theorem mem_messagesIn : m ∈ d.messagesIn c dir ↔ m ∈ d.ownMessages (c.messages dir) := ownMessages_perm.mem_iff.symm

/-- Sorted by their numbers the messages are one list, whatever the order that they come in. -/
theorem SharesPdos.ownMessages_eq (h : d.SharesPdos c c') (dir : Direction) :
    d.ownMessages (c.messages dir) = d.ownMessages (c'.messages dir) := by
  have hperm : (d.ownMessages (c.messages dir)).Perm (d.ownMessages (c'.messages dir)) :=
    ownMessages_perm.trans ((h.perm dir).trans ownMessages_perm.symm)
  -- Two sorted permutations may differ among messages of one number; here there are none.
  refine hperm.eq_of_pairwise ?_ (d.pairwise_ownMessages _) (d.pairwise_ownMessages _)
  intro m m' hm hm' hle hge
  exact List.inj_on_of_nodup_map (h.numbers dir) (mem_messagesIn.2 hm) (mem_messagesIn.2 (hperm.mem_iff.2 hm'))
    (UInt16.toNat_inj.1 (Nat.le_antisymm hle hge))

/-! ## Writes -/

/-- Of the manager, its own objects know the node and the SYNC timing. -/
theorem objectWrites_eq (hnode : manager.nodeId = manager'.nodeId) (hsync : manager.syncTiming = manager'.syncTiming) :
    d.objectWrites manager = d.objectWrites manager' := by
  unfold objectWrites heartbeatConsumer
  rw [hnode, hsync]

theorem SharesPdos.writes_eq (h : d.SharesPdos c c') (hnode : manager.nodeId = manager'.nodeId)
    (hsync : manager.syncTiming = manager'.syncTiming) : d.writes manager c = d.writes manager' c' := by
  unfold writes directionWrites
  rw [h.ownMessages_eq .tx, h.ownMessages_eq .rx, objectWrites_eq hnode hsync]

/-! ## Faults -/

/-- The PDOs that the device receives come first, those of one direction by number. -/
def Precedes (dir : Direction) (m : Message) (dir' : Direction) (m' : Message) : Prop :=
  dir = .tx ∧ dir' = .rx ∨ dir = dir' ∧ m.pdoIndex.toNat < m'.pdoIndex.toNat

/-- The error is that of a PDO of the device, and no PDO before it has one. -/
def FailsWith (d : Device) (c : Container) (e : ExportError) : Prop :=
  ∃ dir, ∃ m ∈ d.messagesIn c dir, pdoWrites d.dictionary dir m = .error e ∧
    ∀ dir', ∀ m' ∈ d.messagesIn c dir', Precedes dir' m' dir m → ∃ ws, pdoWrites d.dictionary dir' m' = .ok ws

theorem directionWrites_eq_error : d.directionWrites c dir = .error e ↔
    ∃ before m after, d.ownMessages (c.messages dir) = before ++ m :: after ∧
      (∀ m' ∈ before, ∃ ws, pdoWrites d.dictionary dir m' = .ok ws) ∧ pdoWrites d.dictionary dir m = .error e := by
  unfold directionWrites
  rw [bind_eq_error, mapM_eq_error]
  exact or_iff_left fun ⟨_, _, h⟩ => nomatch h

theorem writes_eq_error : d.writes manager c = .error e ↔ d.directionWrites c .tx = .error e ∨
    ∃ received, d.directionWrites c .tx = .ok received ∧ d.directionWrites c .rx = .error e := by
  unfold writes
  simp only [bind_eq_error]
  refine or_congr_right (exists_congr fun received => and_congr_right fun _ => or_iff_left ?_)
  exact fun ⟨_, _, h⟩ => nomatch h

/-- What comes before a PDO among the sorted messages of a direction is all that has a lower number. -/
theorem mem_of_split {before after : List Message} (hsplit : d.ownMessages (c.messages dir) = before ++ m :: after)
    (hm' : m' ∈ d.messagesIn c dir) (hlt : m'.pdoIndex.toNat < m.pdoIndex.toNat) : m' ∈ before := by
  have hsorted := d.pairwise_ownMessages (c.messages dir)
  rw [hsplit] at hsorted
  rw [mem_messagesIn, hsplit, List.mem_append, List.mem_cons] at hm'
  rcases hm' with hm' | rfl | hm'
  · exact hm'
  · omega
  · have := (List.pairwise_cons.1 (List.pairwise_append.1 hsorted).2.1).1 m' hm'
    omega

theorem failsWith_of_writes (h : d.writes manager c = .error e) : d.FailsWith c e := by
  have hfirst {dir : Direction} (h : d.directionWrites c dir = .error e)
      (hreceived : dir = .rx → ∀ m ∈ d.messagesIn c .tx, ∃ ws, pdoWrites d.dictionary .tx m = .ok ws) :
      d.FailsWith c e := by
    obtain ⟨before, m, after, hsplit, hbefore, hm⟩ := directionWrites_eq_error.1 h
    refine ⟨dir, m, mem_messagesIn.2 (by simp [hsplit]), hm, ?_⟩
    rintro dir' m' hm' (⟨rfl, rfl⟩ | ⟨rfl, hlt⟩)
    · exact hreceived rfl m' hm'
    · exact hbefore m' (mem_of_split hsplit hm' hlt)
  rcases writes_eq_error.1 h with h | ⟨received, hreceived, h⟩
  · exact hfirst h fun h => nomatch h
  · refine hfirst h fun _ m hm => ?_
    obtain ⟨blocks, hblocks, -⟩ := bind_eq_ok.1 hreceived
    obtain ⟨ws, -, hws⟩ := exists_of_mem_left (mapM_eq_ok.1 hblocks) (mem_messagesIn.1 hm)
    exact ⟨ws, hws⟩

/-- If the messages of a device have numbers of their own, one of its PDOs comes first. -/
theorem FailsWith.eq (hnumbers : ∀ dir, ((d.messagesIn c dir).map (·.pdoIndex)).Nodup) {e' : ExportError}
    (h : d.FailsWith c e) (h' : d.FailsWith c e') : e = e' := by
  obtain ⟨dir, m, hm, he, hbefore⟩ := h
  obtain ⟨dir', m', hm', he', hbefore'⟩ := h'
  have hfirst : ¬Precedes dir' m' dir m := fun hp => by
    obtain ⟨ws, hws⟩ := hbefore dir' m' hm' hp
    cases he'.symm.trans hws
  have hfirst' : ¬Precedes dir m dir' m' := fun hp => by
    obtain ⟨ws, hws⟩ := hbefore' dir m hm hp
    cases he.symm.trans hws
  -- Neither comes before the other, so they are of one direction and of one number.
  unfold Precedes at hfirst hfirst'
  have hdir : dir = dir' := by
    cases dir <;> cases dir' <;> simp_all
  subst hdir
  have hnumber : m.pdoIndex.toNat = m'.pdoIndex.toNat := by
    simp only [true_and, not_or, Nat.not_lt] at hfirst hfirst'
    omega
  obtain rfl := List.inj_on_of_nodup_map (hnumbers dir) hm hm' (UInt16.toNat_inj.1 hnumber)
  exact Except.error.inj (he.symm.trans he')

/-- A PDO that fails fails the device. -/
theorem exists_error_of_failsWith (h : d.FailsWith c e) : ∃ e', d.writes manager c = .error e' := by
  obtain ⟨dir, m, hm, he, -⟩ := h
  cases hw : d.writes manager c with
  | error e' => exact ⟨e', rfl⟩
  | ok dcf =>
    obtain ⟨received, sent, hr, hs, -⟩ := writes_eq_ok hw
    rw [mem_messagesIn] at hm
    cases dir with
    | tx =>
      obtain ⟨ws, -, hws⟩ := exists_of_mem_left hr hm
      cases he.symm.trans hws
    | rx =>
      obtain ⟨ws, -, hws⟩ := exists_of_mem_left hs hm
      cases he.symm.trans hws

/-- **The error of a device is that of its first PDO with one.** -/
theorem writes_eq_error_iff (hnumbers : ∀ dir, ((d.messagesIn c dir).map (·.pdoIndex)).Nodup) :
    d.writes manager c = .error e ↔ d.FailsWith c e := by
  refine ⟨failsWith_of_writes, fun h => ?_⟩
  obtain ⟨e', he'⟩ : ∃ e', d.writes manager c = .error e' := exists_error_of_failsWith h
  rw [he', h.eq hnumbers (failsWith_of_writes he')]

end CanOpen.Device

/-! ## Managers -/

namespace ManagerCode

/-- **The writes to a device follow the numbers of its PDOs.** Managers of the same node and SYNC timing write the same
to a device, or fail alike, if they have the same messages of it, be it in another order and among other messages and
devices. If they fail, the error is that of the first PDO with one, by direction and by number. -/
theorem writes_follow_numbers (x y : ManagerCode) (d : Device) (hnode : x.manager.nodeId = y.manager.nodeId)
    (hsync : x.manager.syncTiming = y.manager.syncTiming) (h : d.SharesPdos x.container y.container) :
    d.writes x.manager x.container = d.writes y.manager y.container ∧
      ∀ e, d.writes x.manager x.container = .error e ↔ d.FailsWith x.container e :=
  ⟨h.writes_eq hnode hsync, fun _ => Device.writes_eq_error_iff h.numbers⟩

/-- A pump that lets the transmission type of its first two PDOs be set. -/
def pump : Device := { Device.new ⟨2, 0⟩ "Pump" 6 with
  dictionary := ((Dictionary.empty.insert 0x1800 2 .readWrite).insert 0x1801 2 .readWrite).insert 0x1017 0 .readWrite }

/-- What the pump sends first; the trigger is none of CANopen. -/
def inlet : Message := { Message.new "Inlet" 0x186 2 .cyclic with owner := some pump.id }

/-- What the pump sends second, with the same fault. -/
def outlet : Message := { Message.new "Outlet" 0x286 2 .onChange with owner := some pump.id, pdoIndex := 1 }

/-- The pump and the drive on one bus. -/
def pumpLine : ManagerCode := { driveManager with
  manager := { Manager.new 1 with devices := [drive, pump] }
  container := ⟨true, [command], [outlet, status, inlet]⟩ }

/-- The pump alone; the manager starts nothing. -/
def pumpStand : ManagerCode := { driveManager with
  manager := { Manager.new 1 with startDevices := false, syncCycleTime := 500, devices := [pump] }
  container := ⟨true, [], [inlet, outlet]⟩ }

/-- Of two PDOs with a fault the one with the lower number tells its own. -/
theorem writes_follow_numbers_pump :
    pumpLine.manager.syncTiming = pumpStand.manager.syncTiming ∧
      pump.SharesPdos pumpLine.container pumpStand.container ∧
      pump.writes pumpLine.manager pumpLine.container = .error (.structural (.pdo "Inlet" .transmissionType)) ∧
      pump.writes pumpStand.manager pumpStand.container = .error (.structural (.pdo "Inlet" .transmissionType)) := by
  have hshares : pump.SharesPdos pumpLine.container pumpStand.container := by
    constructor <;> intro dir <;> cases dir <;> decide
  obtain ⟨heq, herror⟩ := writes_follow_numbers pumpLine pumpStand pump rfl rfl hshares
  have hfails : pump.FailsWith pumpLine.container (.structural (.pdo "Inlet" .transmissionType)) := by
    refine ⟨.rx, inlet, by decide, by rfl, ?_⟩
    rintro dir m hm (⟨rfl, -⟩ | ⟨rfl, hlt⟩)
    · have hnone : pump.messagesIn pumpLine.container .tx = [] := by decide
      rw [hnone] at hm
      cases hm
    · exact absurd hlt (Nat.not_lt_zero _)
  exact ⟨rfl, hshares, (herror _).2 hfails, heq ▸ (herror _).2 hfails⟩

end ManagerCode

end BusNode
