import BusNode.Proofs.Can.Grouping
import BusNode.Proofs.Can.Layout
import BusNode.Proofs.Code.Slice
/-!
# Coverage of the signals

* `CommTables.Carries` — a signal is checked, and its row is in a slice of a group of its message;
* `CommTables.Covers` — the row of a message leads to the groups of the message and to the rows of their signals, so it
  carries every signal but a multiplexer after the first;
* `communication_coverage` — that holds of every message of a pair that is generated with groups.
-/

namespace BusNode

open Can

namespace CommTables

/-- The groups that a message row points to. -/
def groupsOf (t : CommTables) (r : MessageRow) : List MuxRow := r.content.slice.read t.groups

/-- The signals that a group row points to. -/
def signalsOf (t : CommTables) (g : MuxRow) : List SignalRow := g.slice.read t.signals

/-- The signal has a descriptor, and its row is in a slice of a group of the message. -/
def Carries (t : CommTables) (l : ElementList) (m : Message) (r : MessageRow) (s : Signal) : Prop :=
  ∃ row, CommCode.signalRow l m s = .ok row ∧ Descriptor.ofSignal s = .ok row.descriptor ∧
    ∃ g ∈ t.groupsOf r, row ∈ t.signalsOf g

/-- The row stands for the group, with the rows of its signals. -/
structure IsGroup (t : CommTables) (l : ElementList) (m : Message) (G : MuxGroup) (g : MuxRow) : Prop where
  value : g.value = G.value
  signals : List.Forall₂ (fun s row => CommCode.signalRow l m s = .ok row) (G.members m.signals) (t.signalsOf g)

/-- What the row of a message leads to. -/
structure Covers (t : CommTables) (l : ElementList) (m : Message) (r : MessageRow) : Prop where
  groups : List.Forall₂ (t.IsGroup l m) (MuxGroup.ofSignals m.signals) (t.groupsOf r)
  carries : ∀ i s, m.signals[i]? = some s → ¬MuxGroup.IsShadowed m.signals i → t.Carries l m r s
  /-- A multiplexer after the first is in no group. -/
  omits : ∀ i, MuxGroup.IsShadowed m.signals i → ∀ G ∈ MuxGroup.ofSignals m.signals, i ∉ G.signals

end CommTables

namespace CommCode

variable {x : CommCode} {dir : Direction} {l : ElementList} {m : Message} {t : CommTables} {messages : List Message}

/-- The groups of all messages, each with its message. -/
def muxGroups (messages : List Message) : List (Message × MuxGroup) :=
  messages.flatMap fun m => (MuxGroup.ofSignals m.signals).map (m, ·)

theorem mem_muxGroups {e : Message × MuxGroup} (h : e ∈ muxGroups messages) : e.2 ∈ MuxGroup.ofSignals e.1.signals := by
  obtain ⟨m, -, h⟩ := List.mem_flatMap.1 h
  obtain ⟨G, hG, rfl⟩ := List.mem_map.1 h
  exact hG

/-- The rows of the groups read the rows of the signals of all messages. -/
theorem isGroup_of_holds (hv : 2 ≤ x.version) (h : t.Holds x dir l messages) :
    List.Forall₂ (fun e g => t.IsGroup l e.1 e.2 g) (muxGroups messages) t.groups := by
  have hlabels : t.groups.map (fun g => (g.message, g.value, g.count)) =
      (muxGroups messages).map fun e => (e.1.name, e.2.value, e.2.signals.length) := by
    rw [h.groups, if_neg (by omega), muxGroups, List.map_flatMap]
    simp only [List.map_map]
    rfl
  have hvalues : List.Forall₂ (fun e g => g.value = e.2.value) (muxGroups messages) t.groups := by
    have := congrArg (List.map (·.2.1)) hlabels
    rw [List.map_map, List.map_map, ← List.forall₂_eq_eq_eq, List.forall₂_map_left_iff,
      List.forall₂_map_right_iff] at this
    exact this.flip
  have hcount : (t.groups.map MuxRow.slice).map (·.count) =
      (muxGroups messages).map fun e => ((e.2.members e.1.signals).map (e.1, ·)).length := by
    have hlengths := congrArg (List.map (·.2.2)) hlabels
    rw [List.map_map, List.map_map] at hlengths
    rw [List.map_map]
    refine hlengths.trans (List.map_congr_left fun e he => ?_)
    rw [List.length_map, MuxGroup.length_members (mem_muxGroups he)]
    rfl
  have hsignals : (messages.flatMap fun m => (x.emitted m).map (m, ·)) =
      (muxGroups messages).flatMap fun e => (e.2.members e.1.signals).map (e.1, ·) := by
    rw [muxGroups, List.flatMap_assoc]
    refine List.flatMap_congr fun m _ => ?_
    rw [emitted_of_grouped hv, List.map_flatMap, List.flatMap_map]
  have hread := (h.grouped hv).1.forall₂_read hcount (hsignals ▸ h.signals)
  rw [List.forall₂_map_right_iff] at hread
  refine List.Forall₂.mp (fun e g hvalue hrows => ⟨hvalue, ?_⟩) hvalues hread
  exact List.forall₂_map_left_iff.1 hrows

/-- The rows of the messages read the rows of their groups. -/
theorem groups_of_holds (hv : 2 ≤ x.version) (h : t.Holds x dir l messages) :
    List.Forall₂ (fun m r => List.Forall₂ (t.IsGroup l m) (MuxGroup.ofSignals m.signals) (t.groupsOf r)) messages
      t.messages := by
  have hcount : (t.messages.map (·.content.slice)).map (·.count) =
      messages.map fun m => ((MuxGroup.ofSignals m.signals).map (m, ·)).length := by
    rw [List.map_map]
    refine (map_eq_of_forall₂ h.rows fun m r hr => ?_).symm
    obtain ⟨status, first, hcontent, -⟩ := hr.grouped hv
    rw [List.length_map, Function.comp_apply, hcontent]
    rfl
  have hread := (h.grouped hv).2.1.forall₂_read hcount (isGroup_of_holds hv h)
  rw [List.forall₂_map_right_iff] at hread
  exact hread.imp fun m r hrows => List.forall₂_map_left_iff.1 hrows

theorem covers_of_groups {r : MessageRow}
    (h : List.Forall₂ (t.IsGroup l m) (MuxGroup.ofSignals m.signals) (t.groupsOf r)) : t.Covers l m r where
  groups := h
  carries i s hs hi := by
    obtain ⟨G, hG, hmem⟩ := (MuxGroup.exists_mem_ofSignals (List.getElem?_eq_some_iff.1 hs).1).2 hi
    obtain ⟨g, hg, hgroup⟩ := exists_of_mem_left h hG
    have hmember : s ∈ G.members m.signals := List.mem_filterMap.2 ⟨i, hmem, hs⟩
    obtain ⟨row, hrow, hsignal⟩ := exists_of_mem_left hgroup.signals hmember
    exact ⟨row, hsignal, (signalRow_eq_ok hsignal).1, g, hg, hrow⟩
  omits i hi G hG hmem := (MuxGroup.exists_mem_ofSignals hi.1.lt).1 ⟨G, hG, hmem⟩ hi

/-- **A communication pair carries every signal but a multiplexer after the first.** -/
theorem communication_coverage (x : CommCode) (id : Identifier) (pair : Pair) (h : (x.generate id).result = .ok pair)
    (hv : 2 ≤ x.version) (dir : Direction) :
    ∃ t l, x.tables dir = .ok t ∧ x.list dir = .ok l ∧ x.Lays pair dir t ∧
      List.Forall₂ (t.Covers l) (x.container.messages dir) t.messages := by
  obtain ⟨t, ht, hlays⟩ := exists_lays h dir
  obtain ⟨l, hl, hholds⟩ := hlays.holds
  exact ⟨t, l, ht, hl, hlays, (groups_of_holds hv hholds).imp fun _ _ => covers_of_groups⟩

theorem communication_coverage_pressLink :
    ∃ pair, (pressLink.generate ⟨"00000000"⟩).result = .ok pair ∧ 2 ≤ pressLink.version ∧
      ∃ t l, pressLink.tables .rx = .ok t ∧ pressLink.list .rx = .ok l ∧ pressLink.Lays pair .rx t ∧
        List.Forall₂ (t.Covers l) (pressLink.container.messages .rx) t.messages := by
  obtain ⟨pair, hpair⟩ : ∃ pair, (pressLink.generate ⟨"00000000"⟩).result = .ok pair :=
    exists_eq_ok (by decide +kernel)
  exact ⟨pair, hpair, by decide, communication_coverage pressLink ⟨"00000000"⟩ pair hpair (by decide) .rx⟩

/-- A multiplexer of no bits after the first. -/
def subpage : Signal := { Signal.new 2 16 0 with mux := .multiplexer }

/-- A page within a page. -/
def pages : Message := { Message.new "Pages" 0x181 8 .cyclic with
  signals := [{ Signal.new 0 0 8 with mux := .multiplexer }, { Signal.new 1 8 8 with mux := .multiplexed 1 }, subpage] }

def pageLink : CommCode where
  application := "Press"
  protocol := .layer2
  interface := 0
  container := ⟨true, [pages], []⟩
  datapool := { Datapool.new "Com" .com (some 0) with
    lists := [{ ElementList.new "Tx1" with
        elements := [.scalar "Page" (.u8 0) (.u8 0) (.u8 9), .scalar "Left" (.u8 0) (.u8 0) (.u8 9),
          .scalar "Subpage" (.u8 0) (.u8 0) (.u8 9)] },
      ElementList.new "Rx1"] }
  version := 3

/-- The second multiplexer is neither checked nor written, and the pair is generated all the same. -/
theorem second_multiplexer_dropped :
    ∃ pair t l, (pageLink.generate ⟨"00000000"⟩).result = .ok pair ∧ 2 ≤ pageLink.version ∧
      pageLink.tables .tx = .ok t ∧ pageLink.list .tx = .ok l ∧
      Descriptor.ofSignal subpage = .error (.length 0) ∧ (∀ row ∈ t.signals, row.element ≠ "Subpage") ∧
      ¬List.Forall₂ (fun m r => ∀ s ∈ m.signals, t.Carries l m r s) (pageLink.container.messages .tx) t.messages := by
  obtain ⟨pair, hpair⟩ : ∃ pair, (pageLink.generate ⟨"00000000"⟩).result = .ok pair :=
    exists_eq_ok (by decide +kernel)
  obtain ⟨t, ht, hrows⟩ : ∃ t, pageLink.tables .tx = .ok t ∧ ∀ row ∈ t.signals, row.element ≠ "Subpage" :=
    exists_eq_ok_of_any (by decide +kernel)
  obtain ⟨l, hl⟩ : ∃ l, pageLink.list .tx = .ok l := exists_eq_ok (by decide +kernel)
  refine ⟨pair, t, l, hpair, by decide, ht, hl, rfl, hrows, fun h => ?_⟩
  obtain ⟨r, -, hr⟩ := exists_of_mem_left h (List.mem_singleton_self pages)
  obtain ⟨row, -, hchecked, -⟩ := hr subpage (by decide)
  cases hchecked

end CommCode

end BusNode
