import BusNode.Proofs.Can.Grouping
import BusNode.Proofs.Can.Layout
import Mathlib.Data.List.Induction
/-!
# Messages without a multiplexer

Before layout 2 a message row has the slice of its signals itself, from layout 2 on it has them through its groups. For
messages without a multiplexer that makes no difference:

* `SignalSlice.Same` — two rows lead to the same signals of a message, one of them through the only group of the message;
* `CommTables.Regroups` — tables of the two layouts have the same signals, and rows that lead to the same ones;
* `plain_layouts_agree` — a pair is generated for both layouts or for neither, with tables that are so related.
-/

namespace BusNode

open Can

namespace Can

/-- No signal selects others. -/
def Message.IsPlain (m : Message) : Prop := ∀ s ∈ m.signals, s.mux ≠ .multiplexer

namespace Message.IsPlain

variable {m : Message} (h : m.IsPlain)
include h

theorem isMultiplexed : m.isMultiplexed = false := by
  unfold Message.isMultiplexed multiplexer?
  rw [Option.isSome_eq_false_iff, Option.isNone_iff_eq_none, List.find?_eq_none]
  exact fun s hs => by simpa using h s hs

/-- All signals are in one group. -/
theorem ofSignals_eq (hne : m.signals ≠ []) :
    MuxGroup.ofSignals m.signals = [⟨0, List.range m.signals.length⟩] := by
  refine MuxGroup.ofSignals_of_plain hne ?_
  rintro i ⟨s, hs, hrole⟩
  exact h s (List.mem_of_getElem? hs) hrole

end Message.IsPlain

/-- The group of all indices has all signals, in their order. -/
theorem MuxGroup.members_range (signals : List Signal) (value : UInt16) :
    (⟨value, List.range signals.length⟩ : MuxGroup).members signals = signals := by
  show (List.range signals.length).filterMap (signals[·]?) = signals
  induction signals using List.reverseRecOn with
  | nil => rfl
  | append_singleton signals s ih =>
    rw [List.length_append, List.length_singleton, List.range_succ, List.filterMap_append]
    congr 1
    · refine Eq.trans (List.filterMap_congr fun i hi => ?_) ih
      exact List.getElem?_append_left (List.mem_range.1 hi)
    · simp

end Can

/-! ## Rows -/

/-- What the rows of a message say of its signals in the two layouts: that there are none, or the same slice, which is
that of the only group of the message in the later one. -/
inductive SignalSlice.Same (array : String) (groups : List MuxRow) (m : Message) : SignalSlice → SignalSlice → Prop
  | none (h : m.signals = []) : Same array groups m (.signals 0 none) (.groups 0 none none)
  | single {k : Nat} {first : Pointer} (h : m.signals ≠ [])
    (hk : groups[k]? = some ⟨m.name, 0, m.signals.length, first⟩) :
    Same array groups m (.signals m.signals.length first) (.groups 1 none (some (.item array k)))

theorem SignalSlice.Same.append {array : String} {groups added : List MuxRow} {m : Message} {c c' : SignalSlice}
    (h : Same array groups m c c') : Same array (groups ++ added) m c c' := by
  cases h with
  | none h => exact .none h
  | single h hk => exact .single h (by rw [List.getElem?_append_left (List.getElem?_eq_some_iff.1 hk).1, hk])

/-- Two rows of a message that differ by the layout only. -/
structure MessageRow.Same (array : String) (groups : List MuxRow) (m : Message) (r r' : MessageRow) : Prop where
  fields : r' = { r with content := r'.content }
  content : r.content.Same array groups m r'.content

/-- Tables of the two layouts for the same messages. -/
structure CommTables.Regroups (array : String) (messages : List Message) (t u : CommTables) : Prop where
  signals : u.signals = t.signals
  length : t.messages.length = u.messages.length
  rows : List.Forall₂ (fun m r => r.1.Same array u.groups m r.2) messages (t.messages.zip u.messages)
  /-- A group for each message with signals. -/
  groups : u.groups.map (·.message) = (messages.filter (·.hasSignals)).map (·.name)
  gaps : u.gaps = t.gaps
  ungrouped : t.groups = []
  status : t.statusCount = 0 ∧ u.statusCount = 0

namespace CommCode

/-- The same code at another version of the layout. -/
def withVersion (x : CommCode) (version : Nat) : CommCode := { x with version }

variable {x : CommCode} {dir : Direction} {l : ElementList} {m : Message} {t u : CommTables} {v w : Nat}

/-! ## Messages -/

theorem addSignals_eq_of_plain (hv : x.version < 2) : x.addSignals dir l m t = do
    let rows ← m.signals.mapM (signalRow l m)
    return ({ t with signals := t.signals ++ rows },
      .signals m.signals.length (.slice (x.signalsName dir) t.signals.length m.signals.length)) := if_pos hv

theorem addSignals_eq_of_empty (hv : 2 ≤ x.version) (hm : m.signals = []) :
    x.addSignals dir l m t = .ok (t, .groups 0 none none) := by
  have hmultiplexed : m.isMultiplexed = false := by
    unfold Message.isMultiplexed Message.multiplexer?
    rw [hm]
    rfl
  unfold addSignals
  rw [if_neg (by omega), hm]
  simp only [hmultiplexed]
  rfl

/-- A message without a multiplexer has one group, of all its signals. -/
theorem addSignals_eq_of_single (hv : 2 ≤ x.version) (hm : m.IsPlain) (hne : m.signals ≠ []) :
    x.addSignals dir l m t = do
      let rows ← m.signals.mapM (signalRow l m)
      return ({ t with
          signals := t.signals ++ rows
          groups := t.groups ++
            [⟨m.name, 0, m.signals.length, .slice (x.signalsName dir) t.signals.length m.signals.length⟩] },
        .groups 1 none (some (.item (x.groupsName dir) t.groups.length))) := by
  have hmembers : (List.range m.signals.length).filterMap (m.signals[·]?) = m.signals :=
    MuxGroup.members_range m.signals 0
  unfold addSignals
  rw [if_neg (by omega), hm.ofSignals_eq hne]
  simp only [hm.isMultiplexed, List.foldlM_cons, List.foldlM_nil, addGroup, hmembers, List.length_range]
  cases m.signals.mapM (signalRow l m) <;> rfl

theorem regroups_empty (array : String) : CommTables.empty.Regroups array [] .empty where
  signals := rfl
  length := rfl
  rows := .nil
  groups := rfl
  gaps := rfl
  ungrouped := rfl
  status := ⟨rfl, rfl⟩

section Layouts

variable (hv : v < 2) (hw : 2 ≤ w)
include hv hw

/-- The signals of a message are added alike, with a group for them in the later layout if there are any. -/
theorem agree_addSignals (hm : m.IsPlain) (h : u.signals = t.signals) :
    Agree (fun a b => ∃ rows added, a.1 = { t with signals := t.signals ++ rows } ∧
        b.1 = { u with signals := u.signals ++ rows, groups := u.groups ++ added } ∧
        a.2.Same (x.groupsName dir) (u.groups ++ added) m b.2 ∧
        added.map (·.message) = ([m].filter (·.hasSignals)).map (·.name))
      ((x.withVersion v).addSignals dir l m t) ((x.withVersion w).addSignals dir l m u) := by
  rw [addSignals_eq_of_plain hv]
  by_cases hne : m.signals = []
  · rw [addSignals_eq_of_empty hw hne, hne]
    exact .ok ⟨[], [], by simp, by simp, .none hne, by simp [Message.hasSignals, hne]⟩
  · rw [addSignals_eq_of_single hw hm hne]
    refine (Agree.refl _).bind ?_
    rintro rows _ rfl
    refine .ok ⟨rows, [⟨m.name, 0, m.signals.length, _⟩], rfl, rfl, ?_, ?_⟩
    · rw [h]
      exact .single hne (by simp; rfl)
    · simp [Message.hasSignals, hne]

/-- What is so of the tables of some messages stays so with a further one, or both layouts refuse it alike. -/
theorem agree_addMessage {messages : List Message} (hm : m.IsPlain)
    (h : t.Regroups (x.groupsName dir) messages u) :
    Agree (CommTables.Regroups (x.groupsName dir) (messages ++ [m])) ((x.withVersion v).addMessage dir l t m)
      ((x.withVersion w).addMessage dir l u m) := by
  unfold addMessage
  refine (Agree.refl m.triggerTag).bind ?_
  rintro trigger _ rfl
  simp only [hm.isMultiplexed]
  refine (agree_addSignals hv hw hm h.signals).bind ?_
  rintro ⟨t', c⟩ ⟨u', c'⟩ ⟨rows, added, rfl, rfl, hsame, hadded⟩
  refine .ok {
    signals := congrArg (· ++ rows) h.signals
    length := by simp [h.length]
    rows := ?_
    groups := ?_
    gaps := congrArg (· ++ _) h.gaps
    ungrouped := h.ungrouped
    status := h.status }
  · rw [List.zip_append h.length]
    -- the groups of the rows before stay where they are
    exact List.rel_append (h.rows.imp fun m r hr => ⟨hr.fields, hr.content.append⟩) (.cons ⟨rfl, hsame⟩ .nil)
  · rw [List.map_append, h.groups, hadded, List.filter_append, List.map_append]

/-! ## Pairs -/

theorem agree_tables (hplain : ∀ m ∈ x.container.messages dir, m.IsPlain) :
    Agree (CommTables.Regroups (x.groupsName dir) (x.container.messages dir)) ((x.withVersion v).tables dir)
      ((x.withVersion w).tables dir) := by
  refine (Agree.refl (x.list dir)).bind ?_
  rintro l _ rfl
  refine Agree.foldlM (CommTables.Regroups (x.groupsName dir)) (regroups_empty _) ?_
  intro done m hm t u h
  exact agree_addMessage hv hw (hplain m hm) h

theorem agree_generate (hplain : ∀ dir, ∀ m ∈ x.container.messages dir, m.IsPlain) (id id' : Identifier) :
    Agree (fun _ _ => True) ((x.withVersion v).generate id).result ((x.withVersion w).generate id').result := by
  unfold generate
  simp only [Report.result_bind, Report.result_ofExcept]
  refine (Agree.refl (x.protocol.stem x.interface)).bind ?_
  rintro stem _ rfl
  refine (Agree.refl x.protocol.stack).bind ?_
  rintro stack _ rfl
  have hcontainer (v : Nat) : (x.withVersion v).container = x.container := rfl
  simp only [hcontainer]
  cases x.container.hasSignals with
  | false => exact .error _
  | true =>
    simp only [Bool.not_true, Bool.false_eq_true, if_false, Report.result_bind, Report.result_onError,
      Report.result_ofExcept, Report.result_forM_tell, Report.result_tell, Report.result_pure]
    exact (agree_tables hv hw (hplain .tx)).bind fun tx tx' _ =>
      (agree_tables hv hw (hplain .rx)).bind fun rx rx' _ => .ok trivial

end Layouts

/-- **Messages without a multiplexer are laid out alike** before layout 2 and from it on. -/
theorem plain_layouts_agree (x : CommCode) (hplain : ∀ dir, ∀ m ∈ x.container.messages dir, m.IsPlain) {v w : Nat}
    (hv : v < 2) (hw : 2 ≤ w) (id id' : Identifier) :
    ((∃ p, ((x.withVersion v).generate id).result = .ok p) ↔ ∃ q, ((x.withVersion w).generate id').result = .ok q) ∧
      (∀ e, ((x.withVersion v).generate id).result = .error e ↔ ((x.withVersion w).generate id').result = .error e) ∧
      ∀ p q, ((x.withVersion v).generate id).result = .ok p → ((x.withVersion w).generate id').result = .ok q →
        ∀ dir, ∃ t u, (x.withVersion v).tables dir = .ok t ∧ (x.withVersion w).tables dir = .ok u ∧
          (x.withVersion v).Lays p dir t ∧ (x.withVersion w).Lays q dir u ∧
          t.Regroups (x.groupsName dir) (x.container.messages dir) u := by
  have hagree := agree_generate hv hw hplain id id'
  refine ⟨hagree.exists_ok_iff, fun e => hagree.error_iff, fun p q hp hq dir => ?_⟩
  obtain ⟨t, ht, htLays⟩ := exists_lays hp dir
  obtain ⟨u, hu, huLays⟩ := exists_lays hq dir
  refine ⟨t, u, ht, hu, htLays, huLays, ?_⟩
  have htables := agree_tables hv hw (hplain dir)
  rw [ht, hu] at htables
  cases htables with
  | ok h => exact h

/-- A part is sorted by its kind and weight; the kind depends on a selector that the message does not have. -/
def sample : Message := { Message.new "Sample" 0x190 8 .cyclic with
  signals := [{ Signal.new 0 0 8 with mux := .multiplexed 3 }, Signal.new 1 8 16] }

def sorterLink : CommCode := { pressLink with
  container := ⟨true, [order, Message.new "Wake" 0x202 2 .onEvent], [sample, order]⟩ }

theorem isPlain_sorterLink : ∀ dir, ∀ m ∈ sorterLink.container.messages dir, m.IsPlain := by
  intro dir
  unfold Message.IsPlain
  cases dir
  · decide
  · decide

theorem plain_layouts_agree_sorterLink :
    ∃ p q, ((sorterLink.withVersion 1).generate ⟨"00000000"⟩).result = .ok p ∧
      ((sorterLink.withVersion 3).generate ⟨"00000000"⟩).result = .ok q ∧
      (∀ dir, ∀ m ∈ sorterLink.container.messages dir, m.IsPlain) ∧ 1 < 2 ∧ 2 ≤ 3 ∧
      ∀ dir, ∃ t u, (sorterLink.withVersion 1).tables dir = .ok t ∧ (sorterLink.withVersion 3).tables dir = .ok u ∧
        (sorterLink.withVersion 1).Lays p dir t ∧ (sorterLink.withVersion 3).Lays q dir u ∧
        t.Regroups (sorterLink.groupsName dir) (sorterLink.container.messages dir) u := by
  obtain ⟨p, hp⟩ : ∃ p, ((sorterLink.withVersion 1).generate ⟨"00000000"⟩).result = .ok p :=
    exists_eq_ok (by decide +kernel)
  obtain ⟨hsame, -, hpairs⟩ := plain_layouts_agree sorterLink isPlain_sorterLink (v := 1) (w := 3)
    (by decide) (by decide) ⟨"00000000"⟩ ⟨"00000000"⟩
  obtain ⟨q, hq⟩ := hsame.1 ⟨p, hp⟩
  exact ⟨p, q, hp, hq, isPlain_sorterLink, by decide, by decide, hpairs p q hp hq⟩

end CommCode

end BusNode
