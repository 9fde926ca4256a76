import BusNode.Can.Code
import BusNode.Proofs.Can.MuxGroup
import BusNode.Proofs.Code.Declared
import BusNode.Proofs.Success
/-!
# Tables of the communication stack

* `CommTables.Holds` — the tables hold messages: a row for each, and slices that follow each other without a gap;
* `Holds.addMessage` — a further message keeps that, with all its groups and signals;
* `tables_eq_ok` — so the tables of a direction hold all its messages.
-/

namespace BusNode

open Can

/-! ## Slices of the rows -/

/-- The signals of a group. -/
def MuxRow.slice (g : MuxRow) : Slice := ⟨g.count, g.signals⟩

/-- The signals of a message, or its groups from layout 2 on. -/
def SignalSlice.slice : SignalSlice → Slice
  | .signals count first => ⟨count, first⟩
  | .groups count _ first => ⟨count, first⟩

/-- The status bytes of a message, one for each group. -/
def SignalSlice.status : SignalSlice → Slice
  | .signals _ _ => ⟨0, none⟩
  | .groups count status _ => ⟨count, status⟩

/-- The status bytes of the multiplexed messages. -/
def statusSlices (messages : List Message) (rows : List MessageRow) : List Slice :=
  ((messages.zip rows).filter (·.1.isMultiplexed)).map (·.2.content.status)

namespace CommCode

/-- The signals of a message in the order of the table. -/
def emitted (x : CommCode) (m : Message) : List Signal :=
  if x.version < 2 then m.signals else (MuxGroup.ofSignals m.signals).flatMap (·.members m.signals)

/-- The row stands for the message, with its number of signals or groups, and with a status if it is multiplexed. -/
structure IsRow (x : CommCode) (m : Message) (r : MessageRow) : Prop where
  name : r.name = m.name
  plain : x.version < 2 → m.isMultiplexed = false ∧ ∃ first, r.content = .signals m.signals.length first
  grouped : 2 ≤ x.version → ∃ status first,
    r.content = .groups (MuxGroup.ofSignals m.signals).length status first ∧ (status = none ↔ m.isMultiplexed = false)

/-- What a group has in its row beside its slice. -/
def groupLabels (m : Message) : List (String × UInt16 × Nat) :=
  (MuxGroup.ofSignals m.signals).map fun g => (m.name, g.value, g.signals.length)

end CommCode

/-- The tables hold the messages: a row for each message, group and signal in order, and slices of the arrays that
follow each other from the first item to the last. -/
structure CommTables.Holds (t : CommTables) (x : CommCode) (dir : Direction) (l : ElementList)
    (messages : List Message) : Prop where
  rows : List.Forall₂ x.IsRow messages t.messages
  signals : List.Forall₂ (fun s r => CommCode.signalRow l s.1 s.2 = .ok r)
    (messages.flatMap fun m => (x.emitted m).map (m, ·)) t.signals
  groups : t.groups.map (fun g => (g.message, g.value, g.count)) =
    if x.version < 2 then [] else messages.flatMap CommCode.groupLabels
  plain : x.version < 2 →
    Tiles (x.signalsName dir) t.signals.length (t.messages.map (·.content.slice)) ∧ t.statusCount = 0
  grouped : 2 ≤ x.version →
    Tiles (x.signalsName dir) t.signals.length (t.groups.map MuxRow.slice) ∧
      Tiles (x.groupsName dir) t.groups.length (t.messages.map (·.content.slice)) ∧
      Tiles (x.statusName dir) t.statusCount (statusSlices messages t.messages)
  gaps : t.gaps = if dir = .rx ∧ x.protocol = .eCeS then messages.map fun m => ⟨m.name, m.counterGap⟩ else []

namespace CommCode

variable {x : CommCode} {dir : Direction} {l : ElementList} {m : Message} {t u : CommTables}

/-! ## Groups -/

/-- A signal that has a row is checked, and its element is in the list. -/
theorem signalRow_eq_ok {s : Signal} {r : SignalRow} (h : signalRow l m s = .ok r) :
    Descriptor.ofSignal s = .ok r.descriptor ∧
      ∃ e, l.elements[s.elementIndex.toNat]? = some e ∧ e.name = r.element := by
  unfold signalRow at h
  split at h
  · cases h
  · rename_i e he
    split at h
    · rename_i d hd
      cases h
      exact ⟨hd, e, he, rfl⟩
    · cases h

theorem addGroup_eq_ok {g : MuxGroup} (h : x.addGroup dir l m t g = .ok u) :
    ∃ rows, List.Forall₂ (fun s r => signalRow l m s = .ok r) (g.members m.signals) rows ∧
      u = { t with
        signals := t.signals ++ rows
        groups := t.groups ++
          [⟨m.name, g.value, g.signals.length, .slice (x.signalsName dir) t.signals.length g.signals.length⟩] } := by
  obtain ⟨rows, hrows, h⟩ := bind_eq_ok.1 h
  exact ⟨rows, mapM_eq_ok.1 hrows, (pure_eq_ok.1 h).symm⟩

/-- The tables `u` are `t` with the signals of some groups of a message, and with a row for each group. -/
def AddsGroups (x : CommCode) (dir : Direction) (l : ElementList) (m : Message) (groups : List MuxGroup)
    (t u : CommTables) : Prop :=
  ∃ rows added, u = { t with signals := t.signals ++ rows, groups := t.groups ++ added } ∧
    List.Forall₂ (fun s r => signalRow l m s = .ok r) (groups.flatMap (·.members m.signals)) rows ∧
    added.map (fun g => (g.message, g.value, g.count)) = groups.map (fun g => (m.name, g.value, g.signals.length)) ∧
    ∀ slices, Tiles (x.signalsName dir) t.signals.length slices →
      Tiles (x.signalsName dir) (t.signals ++ rows).length (slices ++ added.map MuxRow.slice)

theorem AddsGroups.snoc {groups : List MuxGroup} {g : MuxGroup} {v : CommTables}
    (h : x.AddsGroups dir l m groups t u) (hg : (g.members m.signals).length = g.signals.length)
    (hv : x.addGroup dir l m u g = .ok v) : x.AddsGroups dir l m (groups ++ [g]) t v := by
  obtain ⟨rows, added, rfl, hrows, hadded, htiles⟩ := h
  obtain ⟨new, hnew, rfl⟩ := addGroup_eq_ok hv
  have hcount : new.length = g.signals.length := hnew.length_eq ▸ hg
  refine ⟨rows ++ new, added ++ [⟨m.name, g.value, g.signals.length,
    .slice (x.signalsName dir) (t.signals ++ rows).length g.signals.length⟩], ?_, ?_, ?_, fun slices hs => ?_⟩
  · simp only [List.append_assoc]
  · rw [List.flatMap_append, List.flatMap_singleton]
    exact List.rel_append hrows hnew
  · rw [List.map_append, List.map_append, hadded]
    rfl
  · have hlen : (t.signals ++ (rows ++ new)).length = (t.signals ++ rows).length + g.signals.length := by
      rw [← hcount, ← List.append_assoc, List.length_append]
    rw [hlen, List.map_append, ← List.append_assoc]
    exact (htiles slices hs).snoc g.signals.length

/-- The groups of a message add their signals, and a row each with the slice of them. -/
theorem addGroups_eq_ok {groups : List MuxGroup} (h : groups.foldlM (x.addGroup dir l m) t = .ok u)
    (hlen : ∀ g ∈ groups, (g.members m.signals).length = g.signals.length) : x.AddsGroups dir l m groups t u :=
  foldlM_eq_ok_induction (fun done u => x.AddsGroups dir l m done t u) h
    ⟨[], [], by simp, .nil, rfl, fun slices hs => by simpa using hs⟩
    fun _ g hg _ _ hu hv => hu.snoc (hlen g hg) hv

/-! ## Messages -/

theorem addSignals_of_plain {c : SignalSlice} (hv : x.version < 2) (h : x.addSignals dir l m t = .ok (u, c)) :
    ∃ rows, List.Forall₂ (fun s r => signalRow l m s = .ok r) m.signals rows ∧
      u = { t with signals := t.signals ++ rows } ∧
      c = .signals m.signals.length (.slice (x.signalsName dir) t.signals.length m.signals.length) := by
  rw [addSignals, if_pos hv] at h
  obtain ⟨rows, hrows, h⟩ := bind_eq_ok.1 h
  obtain ⟨rfl, rfl⟩ := Prod.mk.inj (pure_eq_ok.1 h)
  exact ⟨rows, mapM_eq_ok.1 hrows, rfl, rfl⟩

theorem addSignals_of_grouped {c : SignalSlice} (hv : 2 ≤ x.version) (h : x.addSignals dir l m t = .ok (u, c)) :
    ∃ w, x.AddsGroups dir l m (MuxGroup.ofSignals m.signals) t w ∧
      u = (if m.isMultiplexed then
        { w with statusCount := t.statusCount + (MuxGroup.ofSignals m.signals).length } else w) ∧
      c = .groups (MuxGroup.ofSignals m.signals).length
        (if m.isMultiplexed then
          .slice (x.statusName dir) t.statusCount (MuxGroup.ofSignals m.signals).length else none)
        (.slice (x.groupsName dir) t.groups.length (MuxGroup.ofSignals m.signals).length) := by
  rw [addSignals, if_neg (by omega)] at h
  obtain ⟨w, hw, h⟩ := bind_eq_ok.1 h
  refine ⟨w, addGroups_eq_ok hw fun g hg => MuxGroup.length_members hg, ?_⟩
  split at h
  · rename_i hm
    obtain ⟨rfl, rfl⟩ := Prod.mk.inj (pure_eq_ok.1 h)
    rw [if_pos hm, if_pos hm]
    exact ⟨rfl, rfl⟩
  · rename_i hm
    obtain ⟨rfl, rfl⟩ := Prod.mk.inj (pure_eq_ok.1 h)
    rw [if_neg hm, if_neg hm]
    exact ⟨rfl, rfl⟩

theorem addMessage_eq_ok {v : CommTables} (h : x.addMessage dir l t m = .ok v) :
    (x.version < 2 → m.isMultiplexed = false) ∧
      ∃ u row, x.addSignals dir l m t = .ok (u, row.content) ∧ row.name = m.name ∧
        v = { u with
          messages := u.messages ++ [row]
          gaps := u.gaps ++ if dir = .rx ∧ x.protocol = .eCeS then [⟨m.name, m.counterGap⟩] else [] } := by
  obtain ⟨trigger, -, h⟩ := bind_eq_ok.1 h
  dsimp only at h
  split at h
  · cases h
  · rename_i hm
    obtain ⟨⟨u, c⟩, hc, h⟩ := bind_eq_ok.1 h
    exact ⟨fun hv => Bool.eq_false_iff.2 fun h => hm ⟨h, hv⟩, u, _, hc, rfl, (pure_eq_ok.1 h).symm⟩

/-! ## Tables -/

section Tables

theorem emitted_of_plain (hv : x.version < 2) (m : Message) : x.emitted m = m.signals := if_pos hv

theorem emitted_of_grouped (hv : 2 ≤ x.version) (m : Message) :
    x.emitted m = (MuxGroup.ofSignals m.signals).flatMap (·.members m.signals) := if_neg (by omega)

theorem statusSlices_snoc {messages : List Message} {rows : List MessageRow} {r : MessageRow}
    (h : messages.length = rows.length) :
    statusSlices (messages ++ [m]) (rows ++ [r]) =
      statusSlices messages rows ++ if m.isMultiplexed then [r.content.status] else [] := by
  unfold statusSlices
  rw [List.zip_append h, List.filter_append, List.map_append]
  cases hm : m.isMultiplexed <;> simp [hm]

theorem holds_empty (x : CommCode) (dir : Direction) (l : ElementList) : CommTables.empty.Holds x dir l [] where
  rows := .nil
  signals := .nil
  groups := by split <;> rfl
  plain _ := ⟨.nil _, rfl⟩
  grouped _ := ⟨.nil _, .nil _, .nil _⟩
  gaps := by split <;> rfl

variable {messages : List Message} {v : CommTables}

theorem gaps_snoc {gaps : List GapRow}
    (h : gaps = if dir = .rx ∧ x.protocol = .eCeS then messages.map fun m => ⟨m.name, m.counterGap⟩ else []) :
    (gaps ++ if dir = .rx ∧ x.protocol = .eCeS then [⟨m.name, m.counterGap⟩] else []) =
      if dir = .rx ∧ x.protocol = .eCeS then (messages ++ [m]).map fun m => ⟨m.name, m.counterGap⟩ else [] := by
  rw [h]
  split
  · rw [List.map_append]
    rfl
  · rfl

theorem signals_snoc {before rows : List SignalRow}
    (h : List.Forall₂ (fun s r => signalRow l s.1 s.2 = .ok r)
      (messages.flatMap fun m => (x.emitted m).map (m, ·)) before)
    (hrows : List.Forall₂ (fun s r => signalRow l m s = .ok r) (x.emitted m) rows) :
    List.Forall₂ (fun s r => signalRow l s.1 s.2 = .ok r)
      ((messages ++ [m]).flatMap fun m => (x.emitted m).map (m, ·)) (before ++ rows) := by
  rw [List.flatMap_append, List.flatMap_singleton]
  exact List.rel_append h (List.forall₂_map_left_iff.2 hrows)

theorem holds_snoc_of_plain (hv : x.version < 2) (h : t.Holds x dir l messages)
    (hm : x.addMessage dir l t m = .ok v) : v.Holds x dir l (messages ++ [m]) := by
  obtain ⟨hplain, u, row, hs, hname, rfl⟩ := addMessage_eq_ok hm
  obtain ⟨rows, hrows, rfl, hc⟩ := addSignals_of_plain hv hs
  obtain ⟨htiles, hstatus⟩ := h.plain hv
  have hrow : x.IsRow m row := ⟨hname, fun _ => ⟨hplain hv, _, hc⟩, fun hv' => absurd hv' (by omega)⟩
  refine {
    rows := List.rel_append h.rows (.cons hrow .nil)
    signals := signals_snoc h.signals (emitted_of_plain hv m ▸ hrows)
    groups := ?_
    plain := fun _ => ⟨?_, hstatus⟩
    grouped := fun hv' => absurd hv' (by omega)
    gaps := gaps_snoc h.gaps }
  · show t.groups.map _ = _
    rw [h.groups, if_pos hv, if_pos hv]
  · rw [List.length_append, ← hrows.length_eq, List.map_append, List.map_singleton, hc]
    exact htiles.snoc _

theorem holds_snoc_of_grouped (hv : 2 ≤ x.version) (h : t.Holds x dir l messages)
    (hm : x.addMessage dir l t m = .ok v) : v.Holds x dir l (messages ++ [m]) := by
  obtain ⟨-, u, row, hs, hname, rfl⟩ := addMessage_eq_ok hm
  obtain ⟨w, ⟨rows, added, rfl, hrows, hadded, hslices⟩, hu, hc⟩ := addSignals_of_grouped hv hs
  obtain ⟨hsignals, hgroups, hstatus⟩ := h.grouped hv
  have hrow : x.IsRow m row := by
    refine ⟨hname, fun hv' => absurd hv' (by omega), fun _ => ⟨_, _, hc, ?_⟩⟩
    split
    · rename_i hm
      rw [Pointer.slice_eq_none, List.length_eq_zero_iff]
      exact iff_of_false (Message.ofSignals_ne_nil hm) (by rw [hm]; decide)
    · rename_i hm
      exact iff_of_true rfl (Bool.eq_false_iff.2 hm)
  have hlen : added.length = (MuxGroup.ofSignals m.signals).length := by
    simpa using congrArg List.length hadded
  have hstatus' : Tiles (x.statusName dir) u.statusCount (statusSlices (messages ++ [m]) (t.messages ++ [row])) := by
    rw [statusSlices_snoc h.rows.length_eq, hu, hc]
    split
    · exact hstatus.snoc _
    · rw [List.append_nil]
      exact hstatus
  have hframe : u.signals = t.signals ++ rows ∧ u.groups = t.groups ++ added ∧ u.messages = t.messages ∧
      u.gaps = t.gaps := by
    rw [hu]
    split <;> exact ⟨rfl, rfl, rfl, rfl⟩
  obtain ⟨hs, hg, hr, hgaps⟩ := hframe
  refine {
    rows := ?_
    signals := ?_
    groups := ?_
    plain := fun hv' => absurd hv' (by omega)
    grouped := fun _ => ⟨?_, ?_, hr ▸ hstatus'⟩
    gaps := hgaps ▸ gaps_snoc h.gaps }
  · show List.Forall₂ _ _ (u.messages ++ [row])
    exact hr ▸ List.rel_append h.rows (.cons hrow .nil)
  · exact hs ▸ signals_snoc h.signals (emitted_of_grouped hv m ▸ hrows)
  · show u.groups.map _ = _
    rw [hg, List.map_append, h.groups, if_neg (by omega), if_neg (by omega), hadded, List.flatMap_append,
      List.flatMap_singleton]
    rfl
  · show Tiles _ u.signals.length (u.groups.map _)
    rw [hs, hg, List.map_append]
    exact hslices _ hsignals
  · show Tiles _ u.groups.length ((u.messages ++ [row]).map _)
    rw [hg, hr, List.length_append, hlen, List.map_append, List.map_singleton, hc]
    exact hgroups.snoc _

/-- **The tables of a direction hold all its messages.** -/
theorem tables_eq_ok (h : x.tables dir = .ok t) :
    ∃ l, x.list dir = .ok l ∧ t.Holds x dir l (x.container.messages dir) := by
  obtain ⟨l, hl, h⟩ := bind_eq_ok.1 h
  refine ⟨l, hl, foldlM_eq_ok_induction (fun done t => t.Holds x dir l done) h (holds_empty x dir l) ?_⟩
  intro done m _ t u ht hu
  rcases Nat.lt_or_ge x.version 2 with hv | hv
  · exact holds_snoc_of_plain hv ht hu
  · exact holds_snoc_of_grouped hv ht hu

end Tables

end CommCode

end BusNode
