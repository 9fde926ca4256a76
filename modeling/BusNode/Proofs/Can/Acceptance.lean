import BusNode.Proofs.Can.Fit
import BusNode.Proofs.Can.SignalRow
/-!
# What the communication stack has code for

* `CommCode.Accepts` — what a protocol on an interface must be;
* `CommCode.Refuses` — the errors of one that is not, each with what is wrong;
* `communication_acceptance` — a pair is generated just of what is accepted, and the error of a failure tells what is
  wrong: a layout or protocol that is not supported, or a fault of the configuration.
-/

namespace BusNode

open Can

namespace CommCode

/-! ## Conditions -/

/-- The list that holds the values of a direction, if there is one. -/
def list? (x : CommCode) (dir : Direction) : Option ElementList :=
  x.datapool.lists[dir.listIndex x.interface.toNat]?

/-- A message whose values are in a list. -/
structure AcceptsMessage (x : CommCode) (l : ElementList) (m : Message) : Prop where
  trigger : m.trigger = .cyclic ∨ m.trigger = .onChange ∨ m.trigger = .onEvent
  plain : x.version < 2 → m.isMultiplexed = false
  signals : ∀ s ∈ x.emitted m, s.Fits l

structure Accepts (x : CommCode) : Prop where
  protocol : x.protocol ≠ .canOpen
  hasSignals : ∃ dir, ∃ m ∈ x.container.messages dir, m.signals ≠ []
  messages : ∀ dir, ∃ l, x.list? dir = some l ∧ ∀ m ∈ x.container.messages dir, x.AcceptsMessage l m

/-! ## Errors -/

/-- What is not supported. -/
inductive Exceeds (x : CommCode) : Unsupported → Prop
  | protocol (h : x.protocol = .canOpen) : x.Exceeds .canOpenProtocol
  | multiplexed (dir : Direction) (m : Message) (hm : m ∈ x.container.messages dir) (h : m.isMultiplexed = true)
    (hv : x.version < 2) : x.Exceeds (.multiplexed m.name)

/-- What is wrong in the configuration. -/
inductive HasFault (x : CommCode) : Structural → Prop
  | noSignals (stem : String) (hstem : x.protocol.stem x.interface = .ok stem)
    (h : ∀ dir, ∀ m ∈ x.container.messages dir, m.signals = []) : x.HasFault (.noSignals stem)
  | list (dir : Direction) (h : x.list? dir = none) :
    x.HasFault (.missingList x.datapool.name dir.name x.interface)
  | trigger (dir : Direction) (m : Message) (hm : m ∈ x.container.messages dir)
    (h : ¬(m.trigger = .cyclic ∨ m.trigger = .onChange ∨ m.trigger = .onEvent)) : x.HasFault (.trigger m.name)
  | element (dir : Direction) (l : ElementList) (m : Message) (s : Signal) (hl : x.list? dir = some l)
    (hm : m ∈ x.container.messages dir) (hs : s ∈ x.emitted m) (h : l.elements.length ≤ s.elementIndex.toNat) :
    x.HasFault (.missingElement m.name s.elementIndex l.name)
  | signal (dir : Direction) (l : ElementList) (m : Message) (s : Signal) (e : Element) (fault : DescriptorError)
    (hl : x.list? dir = some l) (hm : m ∈ x.container.messages dir) (hs : s ∈ x.emitted m)
    (he : l.elements[s.elementIndex.toNat]? = some e) (h : DescriptorError.IsFirst s fault) :
    x.HasFault (.signal e.name m.name fault)

inductive Refuses (x : CommCode) : ExportError → Prop
  | unsupported {cause : Unsupported} (h : x.Exceeds cause) : x.Refuses (.unsupported cause)
  | structural {cause : Structural} (h : x.HasFault cause) : x.Refuses (.structural cause)

variable {x : CommCode} {dir : Direction} {l : ElementList} {m : Message} {t : CommTables}

/-! ## Messages -/

theorem decides_triggerTag (hm : m ∈ x.container.messages dir) :
    Decides m.triggerTag (m.trigger = .cyclic ∨ m.trigger = .onChange ∨ m.trigger = .onEvent) x.Refuses := by
  unfold Message.triggerTag
  split
  · rename_i h
    exact .ok _ (.inl h)
  · rename_i h
    exact .ok _ (.inr (.inl h))
  · rename_i h
    exact .ok _ (.inr (.inr h))
  all_goals
    rename_i h
    have hno : ¬(m.trigger = .cyclic ∨ m.trigger = .onChange ∨ m.trigger = .onEvent) := by simp [h]
    exact .error hno (.structural (.trigger dir m hm hno))

section Message

variable (hl : x.list? dir = some l) (hm : m ∈ x.container.messages dir)
include hl hm

theorem decides_signalRow {s : Signal} (hs : s ∈ x.emitted m) : Decides (signalRow l m s) (s.Fits l) x.Refuses :=
  Signal.decides_rowOr (fun h => .structural (.element dir l m s hl hm hs h))
    (fun e fault he h => .structural (.signal dir l m s e fault hl hm hs he h))

theorem decides_addGroup {g : MuxGroup} (hg : ∀ s ∈ g.members m.signals, s ∈ x.emitted m) :
    Decides (x.addGroup dir l m t g) (∀ s ∈ g.members m.signals, s.Fits l) x.Refuses :=
  .bind_pure (.mapM fun s hs => decides_signalRow hl hm (hg s hs)) _

theorem decides_addSignals : Decides (x.addSignals dir l m t) (∀ s ∈ x.emitted m, s.Fits l) x.Refuses := by
  unfold addSignals
  split
  · rename_i hv
    have hrow : ∀ s ∈ m.signals, Decides (signalRow l m s) (s.Fits l) x.Refuses := by
      intro s hs
      exact decides_signalRow hl hm (emitted_of_plain hv m ▸ hs)
    rw [emitted_of_plain hv m]
    exact .bind_pure (.mapM hrow) _
  · rename_i hv
    have hemitted := emitted_of_grouped (Nat.le_of_not_lt hv) m
    have hgroup : ∀ t, ∀ g ∈ MuxGroup.ofSignals m.signals,
        Decides (x.addGroup dir l m t g) (∀ s ∈ g.members m.signals, s.Fits l) x.Refuses := by
      intro t g hg
      refine decides_addGroup hl hm fun s hs => ?_
      rw [hemitted]
      exact List.mem_flatMap.2 ⟨g, hg, hs⟩
    have hall : (∀ g ∈ MuxGroup.ofSignals m.signals, ∀ s ∈ g.members m.signals, s.Fits l) ↔
        ∀ s ∈ x.emitted m, s.Fits l := by
      rw [hemitted]
      exact List.forall_mem_flatMap.symm
    dsimp only
    -- a multiplexed message differs by its status only, which cannot fail
    split
    · exact (Decides.bind_pure (.foldlM hgroup t) _).congr hall
    · exact (Decides.bind_pure (.foldlM hgroup t) _).congr hall

theorem decides_addMessage : Decides (x.addMessage dir l t m) (x.AcceptsMessage l m) x.Refuses := by
  have hcondition : (m.trigger = .cyclic ∨ m.trigger = .onChange ∨ m.trigger = .onEvent) ∧
      (x.version < 2 → m.isMultiplexed = false) ∧ (∀ s ∈ x.emitted m, s.Fits l) ↔ x.AcceptsMessage l m :=
    ⟨fun h => ⟨h.1, h.2.1, h.2.2⟩, fun h => ⟨h.trigger, h.plain, h.signals⟩⟩
  refine (Decides.bind (decides_triggerTag hm) fun trigger _ => ?_).congr hcondition
  dsimp only
  split
  · rename_i h
    refine .error (fun h' => ?_) (.unsupported (.multiplexed dir m hm h.1 h.2))
    rw [h'.1 h.2] at h
    cases h.1
  · rename_i h
    have hplain : x.version < 2 → m.isMultiplexed = false := fun hv => Bool.eq_false_iff.2 fun hm => h ⟨hm, hv⟩
    refine (Decides.bind_pure (decides_addSignals hl hm) _).congr ?_
    exact (and_iff_right hplain).symm

end Message

/-! ## Tables -/

theorem list_eq_elim (x : CommCode) (dir : Direction) :
    x.list dir = (x.list? dir).elim (.error (.structural (.missingList x.datapool.name dir.name x.interface))) .ok := by
  unfold list list?
  cases x.datapool.lists[dir.listIndex x.interface.toNat]? <;> rfl

theorem decides_list : Decides (x.list dir) (∃ l, x.list? dir = some l) x.Refuses := by
  rw [list_eq_elim]
  exact .ofOption fun h => .structural (.list dir h)

theorem decides_tables : Decides (x.tables dir)
    (∃ l, x.list? dir = some l ∧ ∀ m ∈ x.container.messages dir, x.AcceptsMessage l m) x.Refuses := by
  refine (Decides.bind_exists decides_list fun l hl => ?_).congr
    (exists_congr fun l => and_congr_left' list_eq_ok)
  have hmessage : ∀ t, ∀ m ∈ x.container.messages dir,
      Decides (x.addMessage dir l t m) (x.AcceptsMessage l m) x.Refuses := by
    intro t m hm
    exact decides_addMessage (list_eq_ok.1 hl) hm
  exact .foldlM hmessage .empty

/-! ## Pairs -/

theorem decides_stack : Decides x.protocol.stack (x.protocol ≠ .canOpen) x.Refuses := by
  unfold ProtocolKind.stack
  split
  case h_5 h => exact .error (fun hne => hne h) (.unsupported (.protocol h))
  all_goals
    rename_i h
    exact .ok _ (by simp [h])

theorem decides_stem : Decides (x.protocol.stem x.interface) (x.protocol ≠ .canOpen) x.Refuses :=
  decides_stack.bind_pure _

theorem hasSignals_iff : x.container.hasSignals = true ↔ ∃ dir, ∃ m ∈ x.container.messages dir, m.signals ≠ [] := by
  simp only [Container.hasSignals, List.any_append, Bool.or_eq_true, List.any_eq_true, Message.hasSignals,
    Bool.not_eq_true', List.isEmpty_eq_false_iff]
  constructor
  · rintro (h | h)
    · exact ⟨.tx, h⟩
    · exact ⟨.rx, h⟩
  · rintro ⟨_ | _, h⟩
    · exact .inl h
    · exact .inr h

theorem decides_generate (id : Identifier) : Decides (x.generate id).result x.Accepts x.Refuses := by
  have hcondition : x.protocol ≠ .canOpen ∧ x.protocol ≠ .canOpen ∧ x.container.hasSignals = true ∧
      (∃ l, x.list? .tx = some l ∧ ∀ m ∈ x.container.messages .tx, x.AcceptsMessage l m) ∧
      (∃ l, x.list? .rx = some l ∧ ∀ m ∈ x.container.messages .rx, x.AcceptsMessage l m) ↔ x.Accepts := by
    constructor
    · rintro ⟨hprotocol, -, hsignals, hmessages⟩
      exact ⟨hprotocol, hasSignals_iff.1 hsignals, Direction.forall_iff.2 hmessages⟩
    · intro h
      exact ⟨h.protocol, h.protocol, hasSignals_iff.2 h.hasSignals, h.messages .tx, h.messages .rx⟩
  refine Decides.congr ?_ hcondition
  unfold generate
  simp only [Report.result_bind, Report.result_ofExcept]
  refine decides_stem.bind fun stem hstem => decides_stack.bind fun stack _ => ?_
  cases hsignals : x.container.hasSignals with
  | false =>
    have hnone : ∀ dir, ∀ m ∈ x.container.messages dir, m.signals = [] := by
      intro dir m hm
      by_contra h
      exact Bool.false_ne_true (hsignals.symm.trans (hasSignals_iff.2 ⟨dir, m, hm, h⟩))
    exact .error (fun h => Bool.false_ne_true h.1) (.structural (.noSignals stem hstem hnone))
  | true =>
    simp only [Bool.not_true, Bool.false_eq_true, if_false, Report.result_bind, Report.result_onError,
      Report.result_ofExcept, Report.result_forM_tell, Report.result_tell, Report.result_pure]
    exact (decides_tables.bind fun tx _ => decides_tables.bind_pure _).congr (and_iff_right trivial).symm

/-- **Just a pair with sound tables is generated**, and the error of a failure names what is wrong. -/
theorem communication_acceptance (x : CommCode) (id : Identifier) :
    ((∃ pair, (x.generate id).result = .ok pair) ↔ x.Accepts) ∧
      (∀ e, (x.generate id).result = .error e →
        (∃ cause, e = .unsupported cause ∧ e.kind = .unsupported ∧ x.Exceeds cause) ∨
        (∃ cause, e = .structural cause ∧ e.kind = .structural ∧ x.HasFault cause)) ∧
      (x.protocol = .canOpen → (x.generate id).result = .error (.unsupported .canOpenProtocol)) := by
  refine ⟨(decides_generate id).exists_ok_iff, ?_, ?_⟩
  · intro e he
    obtain ⟨-, hcause⟩ := (decides_generate id).refuses e he
    cases hcause with
    | unsupported h => exact .inl ⟨_, rfl, rfl, h⟩
    | structural h => exact .inr ⟨_, rfl, rfl, h⟩
  · intro h
    unfold generate ProtocolKind.stem ProtocolKind.stack
    rw [h]
    rfl

theorem communication_acceptance_pressLink : pressLink.Accepts :=
  (communication_acceptance pressLink ⟨"00000000"⟩).1.1 (exists_eq_ok (by decide +kernel))

end CommCode

end BusNode
