import BusNode.Proofs.Can.Tables
/-!
# Layout of a communication pair

* `CommCode.Lays` — a direction of a pair: its tables stand in the source, every slice lies within its array, and the
  header numbers the rows;
* `CommCode.Records` — the record of the protocol has the counts of the tables and points to them;
* `communication_layout` — both hold of every pair that is generated.
-/

namespace BusNode

open Can

namespace CommCode

/-- The tables of a direction in a pair. -/
structure Lays (x : CommCode) (pair : Pair) (dir : Direction) (t : CommTables) : Prop where
  holds : ∃ l, x.list dir = .ok l ∧ t.Holds x dir l (x.container.messages dir)
  signals : pair.source.Shows "uint32" (x.signalsName dir) (t.signals.map SignalRow.row)
  groups : pair.source.Shows "T_osy_com_mux_definition" (x.groupsName dir) (t.groups.map MuxRow.row)
  messages : pair.source.Shows "T_osy_com_message_configuration" (x.messagesName dir) (t.messages.map MessageRow.row)
  groupSlices : ∀ g ∈ t.groups, pair.source.Resolves g.slice
  messageSlices : ∀ r ∈ t.messages, pair.source.Resolves r.content.slice
  statusSlices : ∀ s ∈ statusSlices (x.container.messages dir) t.messages, pair.source.Resolves s
  /-- The array of the multiplex status has as many items as the slices cover. -/
  statusArray : t.statusCount ≠ 0 → pair.source.HasArray (x.statusName dir) t.statusCount
  disjoint : (BusNode.statusSlices (x.container.messages dir) t.messages).Pairwise fun s s' => s.items.Disjoint s'.items
  /-- The number of rows, and the index of each by the name of its message. -/
  numbers : .define s!"{upper pair.stem}_NUMBER_OF_{upper dir.name}_MESSAGES" "" (.number t.messages.length) ::
    (t.messages.zipIdx.map fun (r, i) =>
      Item.define s!"{upper pair.stem}_{upper dir.name}_INDEX_{upper r.name}" "" (.number i)) <:+: pair.header.items

/-- The record of the protocol in a pair. -/
structure Records (x : CommCode) (pair : Pair) (tx rx : CommTables) : Prop where
  rows : ∃ rows, .object (.sharedRecord "T_osy_com_protocol_configuration" (recordName pair.stem)) rows none ∈
      pair.source.items ∧
    [.noted (Literal.count tx.messages.length) "number of Tx messages",
      .pointer (.slice (x.messagesName .tx) 0 tx.messages.length),
      .noted (Literal.count rx.messages.length) "number of Rx messages",
      .pointer (.slice (x.messagesName .rx) 0 rx.messages.length),
      .commented (.pointer (.slice x.gapsName 0 rx.gaps.length)) "Rx message counter gaps"] <:+: rows
  gaps : pair.source.Shows "uint32" x.gapsName (rx.gaps.map GapRow.row)
  resolves : pair.source.Resolves ⟨tx.messages.length, .slice (x.messagesName .tx) 0 tx.messages.length⟩ ∧
    pair.source.Resolves ⟨rx.messages.length, .slice (x.messagesName .rx) 0 rx.messages.length⟩ ∧
    pair.source.Resolves ⟨rx.gaps.length, .slice x.gapsName 0 rx.gaps.length⟩

variable {x : CommCode} {id : Identifier} {pair : Pair}

theorem generate_eq_ok (h : (x.generate id).result = .ok pair) :
    ∃ stack tx rx, x.protocol.stem x.interface = .ok pair.stem ∧ x.protocol.stack = .ok stack ∧
      x.container.hasSignals = true ∧ x.tables .tx = .ok tx ∧ x.tables .rx = .ok rx ∧
      pair = ⟨x.stemOr, x.header id, x.source id stack.tag tx rx⟩ := by
  unfold generate at h
  simp only [Report.result_bind, Report.result_ofExcept, bind_eq_ok] at h
  obtain ⟨stem, hstem, stack, hstack, h⟩ := h
  split at h
  · simp only [Report.result_bind, Report.result_fail, bind_eq_ok] at h
    obtain ⟨-, -, h⟩ := h
    cases h
  · rename_i hsignals
    simp only [Report.result_bind, Report.result_onError, Report.result_ofExcept, Report.result_forM_tell,
      Report.result_tell, Report.result_pure, bind_eq_ok] at h
    obtain ⟨tx, htx, rx, hrx, -, -, -, -, h⟩ := h
    cases h
    refine ⟨stack, tx, rx, hstem, hstack, by simpa using hsignals, htx, hrx, ?_⟩
    rw [stemOr, hstem]
    rfl

/-! ## A direction -/

section Direction

variable {dir : Direction} {t : CommTables}

theorem shows_of_subset {f : File} {type name : String} {rows : List Row}
    (h : ∀ i ∈ tableItems type name rows, i ∈ f.items) : f.Shows type name rows := by
  intro hrows
  refine h _ ?_
  rw [tableItems, if_neg (by rwa [List.isEmpty_iff])]
  exact List.mem_cons_of_mem _ (List.mem_singleton_self _)

theorem hasArray_status {f : File} (h : ∀ i ∈ x.statusItems dir t, i ∈ f.items) (ht : t.statusCount ≠ 0) :
    f.HasArray (x.statusName dir) t.statusCount := by
  rw [statusItems, if_neg ht] at h
  exact ⟨_, File.mem_objects (h _ (List.mem_singleton_self _)) rfl, rfl, rfl⟩

theorem messageDefines_eq (x : CommCode) (dir : Direction) :
    x.messageDefines dir = Item.blank ::
      .define s!"{upper x.stemOr}_NUMBER_OF_{upper dir.name}_MESSAGES" "" (.number (x.container.messages dir).length) ::
      (x.container.messages dir).zipIdx.map fun (m, i) =>
        Item.define s!"{upper x.stemOr}_{upper dir.name}_INDEX_{upper m.name}" "" (.number i) := by
  have hnumber (s : String) : s ++ "_" ++ "NUMBER_OF_" = s ++ "_NUMBER_OF_" := by
    rw [String.append_assoc]
    rfl
  show Item.blank :: .define (_ ++ "_" ++ "NUMBER_OF_" ++ _ ++ _) "" _ :: _ = _
  rw [hnumber]
  rfl

/-- The index defines may take the names from the rows. -/
theorem zipIdx_map_rows {l : ElementList} {messages : List Message} (h : t.Holds x dir l messages)
    (f : String → Nat → Item) :
    (messages.zipIdx.map fun (m, i) => f m.name i) = t.messages.zipIdx.map fun (r, i) => f r.name i := by
  have hnames : messages.map (·.name) = t.messages.map (·.name) := by
    refine List.forall₂_eq_eq_eq ▸ List.forall₂_map_left_iff.2 (List.forall₂_map_right_iff.2 ?_)
    exact h.rows.imp fun m r hr => hr.name.symm
  have hzip {α : Type} (g : α → String) (as : List α) :
      (as.zipIdx.map fun (a, i) => f (g a) i) = (as.map g).zipIdx.map fun (n, i) => f n i := by
    rw [List.zipIdx_map, List.map_map]
    rfl
  rw [hzip (·.name) messages, hzip (·.name) t.messages, hnames]

/-- Before layout 2 no message is multiplexed. -/
theorem statusSlices_of_plain {l : ElementList} {messages : List Message} (hv : x.version < 2)
    (h : t.Holds x dir l messages) : statusSlices messages t.messages = [] := by
  unfold BusNode.statusSlices
  rw [List.map_eq_nil_iff, List.filter_eq_nil_iff]
  intro e he
  obtain ⟨r, -, hr⟩ := exists_of_mem_left h.rows (List.of_mem_zip he).1
  rw [(hr.plain hv).1]
  decide

theorem lays (ht : x.tables dir = .ok t) (hstem : pair.stem = x.stemOr)
    (hstatus : ∀ i ∈ x.statusItems dir t, i ∈ pair.source.items)
    (hitems : ∀ i ∈ x.directionItems dir t, i ∈ pair.source.items)
    (hheader : x.messageDefines dir <:+: pair.header.items) : x.Lays pair dir t := by
  obtain ⟨l, hl, h⟩ := tables_eq_ok ht
  have hsignals : pair.source.Shows "uint32" (x.signalsName dir) (t.signals.map SignalRow.row) :=
    shows_of_subset fun i hi => hitems i (List.mem_append_left _ (List.mem_append_left _ hi))
  have hgroups : pair.source.Shows "T_osy_com_mux_definition" (x.groupsName dir) (t.groups.map MuxRow.row) :=
    shows_of_subset fun i hi => hitems i (List.mem_append_left _ (List.mem_append_right _ hi))
  have hmessages : pair.source.Shows "T_osy_com_message_configuration" (x.messagesName dir)
      (t.messages.map MessageRow.row) :=
    shows_of_subset fun i hi => hitems i (List.mem_append_right _ hi)
  have hsignalArray (hn : t.signals.length ≠ 0) : pair.source.HasArray (x.signalsName dir) t.signals.length := by
    have := hsignals.hasArray (by rwa [List.length_map])
    rwa [List.length_map] at this
  have hgroupArray (hn : t.groups.length ≠ 0) : pair.source.HasArray (x.groupsName dir) t.groups.length := by
    have := hgroups.hasArray (by rwa [List.length_map])
    rwa [List.length_map] at this
  refine {
    holds := ⟨l, hl, h⟩
    signals := hsignals
    groups := hgroups
    messages := hmessages
    groupSlices := fun g hg => ?_
    messageSlices := fun r hr => ?_
    statusSlices := fun s hs => ?_
    statusArray := hasArray_status hstatus
    disjoint := ?_
    numbers := ?_ }
  · rcases Nat.lt_or_ge x.version 2 with hv | hv
    · have hnil := h.groups
      rw [if_pos hv, List.map_eq_nil_iff] at hnil
      rw [hnil] at hg
      cases hg
    · exact (h.grouped hv).1.resolves hsignalArray (List.mem_map_of_mem hg)
  · rcases Nat.lt_or_ge x.version 2 with hv | hv
    · exact (h.plain hv).1.resolves hsignalArray (List.mem_map.2 ⟨r, hr, rfl⟩)
    · exact (h.grouped hv).2.1.resolves hgroupArray (List.mem_map.2 ⟨r, hr, rfl⟩)
  · rcases Nat.lt_or_ge x.version 2 with hv | hv
    · rw [statusSlices_of_plain hv h] at hs
      cases hs
    · exact (h.grouped hv).2.2.resolves (hasArray_status hstatus) hs
  · rcases Nat.lt_or_ge x.version 2 with hv | hv
    · rw [statusSlices_of_plain hv h]
      exact .nil
    · exact (h.grouped hv).2.2.disjoint
  · rw [hstem, ← h.rows.length_eq, ← zipIdx_map_rows h fun name i =>
      .define s!"{upper x.stemOr}_{upper dir.name}_INDEX_{upper name}" "" (.number i)]
    rw [messageDefines_eq] at hheader
    exact (List.suffix_cons Item.blank _).isInfix.trans hheader

end Direction

/-! ## The pair -/

section Pair

variable {tag : String} {tx rx : CommTables} {i : Item}

theorem statusCount_ne_zero {dir : Direction} {t : CommTables} (h : i ∈ x.statusItems dir t) : t.statusCount ≠ 0 := by
  intro h0
  rw [statusItems, if_pos h0] at h
  cases h

theorem status_subset_source (h : i ∈ x.statusItems .tx tx ++ x.statusItems .rx rx) :
    i ∈ (x.source id tag tx rx).items := by
  have hne : tx.statusCount + rx.statusCount ≠ 0 := by
    rcases List.mem_append.1 h with h | h <;> have := statusCount_ne_zero h <;> omega
  have hitems : i ∈ Item.heading "Module Global Variables" :: (x.statusItems .tx tx ++ x.statusItems .rx rx) :=
    List.mem_cons_of_mem _ h
  unfold source
  rw [if_neg hne]
  simp only [List.mem_append, hitems, true_or, or_true]

theorem direction_subset_source (h : i ∈ x.directionItems .tx tx ++ x.directionItems .rx rx) :
    i ∈ (x.source id tag tx rx).items := by
  unfold source
  rcases List.mem_append.1 h with h | h <;> simp only [List.mem_append, h, true_or, or_true]

theorem messageDefines_infix_header (dir : Direction) : x.messageDefines dir <:+: (x.header id).items := by
  refine List.infix_append_of_infix_left (List.infix_append_of_infix_left ?_)
  cases dir
  · exact List.infix_append_of_infix_left List.infix_append_right
  · exact List.infix_append_right

theorem lays_tx (h : x.tables .tx = .ok tx) : x.Lays ⟨x.stemOr, x.header id, x.source id tag tx rx⟩ .tx tx :=
  lays h rfl (fun _ hi => status_subset_source (List.mem_append_left _ hi))
    (fun _ hi => direction_subset_source (List.mem_append_left _ hi)) (messageDefines_infix_header .tx)

theorem lays_rx (h : x.tables .rx = .ok rx) : x.Lays ⟨x.stemOr, x.header id, x.source id tag tx rx⟩ .rx rx :=
  lays h rfl (fun _ hi => status_subset_source (List.mem_append_right _ hi))
    (fun _ hi => direction_subset_source (List.mem_append_right _ hi)) (messageDefines_infix_header .rx)

theorem records : x.Records ⟨x.stemOr, x.header id, x.source id tag tx rx⟩ tx rx := by
  have hmessages {dir : Direction} {t : CommTables}
      (h : ∀ i ∈ x.directionItems dir t, i ∈ (x.source id tag tx rx).items) :
      (x.source id tag tx rx).Resolves ⟨t.messages.length, .slice (x.messagesName dir) 0 t.messages.length⟩ := by
    have hshows : (x.source id tag tx rx).Shows "T_osy_com_message_configuration" (x.messagesName dir)
        (t.messages.map MessageRow.row) :=
      shows_of_subset fun i hi => h i (List.mem_append_right _ hi)
    refine File.resolves_whole fun hn => ?_
    have := hshows.hasArray (by rwa [List.length_map])
    rwa [List.length_map] at this
  have hgaps : (x.source id tag tx rx).Shows "uint32" x.gapsName (rx.gaps.map GapRow.row) :=
    shows_of_subset fun i hi => by
      unfold source
      simp only [List.mem_append, hi, true_or, or_true]
  refine {
    rows := ⟨x.recordRows tag tx rx, ?_, ⟨(x.recordRows tag tx rx).take 5, [], rfl⟩⟩
    gaps := hgaps
    resolves := ⟨?_, ?_, File.resolves_whole fun hn => ?_⟩ }
  · unfold source
    simp only [List.mem_append, List.mem_cons, true_or, or_true]
  · exact hmessages fun i hi => direction_subset_source (List.mem_append_left _ hi)
  · exact hmessages fun i hi => direction_subset_source (List.mem_append_right _ hi)
  · have := hgaps.hasArray (by rwa [List.length_map])
    rwa [List.length_map] at this

end Pair

/-- The tables of a direction stand in the pair. -/
theorem exists_lays (h : (x.generate id).result = .ok pair) (dir : Direction) :
    ∃ t, x.tables dir = .ok t ∧ x.Lays pair dir t := by
  obtain ⟨stack, tx, rx, -, -, -, htx, hrx, rfl⟩ := generate_eq_ok h
  cases dir with
  | tx => exact ⟨tx, htx, lays_tx htx⟩
  | rx => exact ⟨rx, hrx, lays_rx hrx⟩

/-- **Communication tables are without gaps, and every reference resolves.** -/
theorem communication_layout (x : CommCode) (id : Identifier) (pair : Pair) (h : (x.generate id).result = .ok pair) :
    ∃ tx rx, x.tables .tx = .ok tx ∧ x.tables .rx = .ok rx ∧
      x.Lays pair .tx tx ∧ x.Lays pair .rx rx ∧ x.Records pair tx rx := by
  obtain ⟨tx, htx, htxLays⟩ := exists_lays h .tx
  obtain ⟨rx, hrx, hrxLays⟩ := exists_lays h .rx
  refine ⟨tx, rx, htx, hrx, htxLays, hrxLays, ?_⟩
  obtain ⟨stack, tx', rx', -, -, -, htx', hrx', rfl⟩ := generate_eq_ok h
  obtain rfl : tx = tx' := Except.ok.inj (htx.symm.trans htx')
  obtain rfl : rx = rx' := Except.ok.inj (hrx.symm.trans hrx')
  exact records

/-- What a press reports: a selector with two pages and a counter that is on both. -/
def report : Message := { Message.new "Report" 0x181 8 .cyclic with
  timeout := 50
  cycleTime := 10
  signals := [{ Signal.new 0 0 8 with mux := .multiplexer }, { Signal.new 1 8 16 with mux := .multiplexed 1 },
    { Signal.new 2 8 16 with mux := .multiplexed 4 }, Signal.new 3 32 8] }

/-- What the press is told. -/
def order : Message := { Message.new "Order" 0x201 4 .onChange with signals := [Signal.new 0 0 16] }

def pressLink : CommCode where
  application := "Press"
  protocol := .eCeS
  interface := 1
  container := ⟨true, [order, Message.new "Wake" 0x202 2 .onEvent], [report, order]⟩
  datapool := { Datapool.new "Com" .com (some 0) with
    lists := [ElementList.new "Tx1", ElementList.new "Rx1",
      { ElementList.new "Tx2" with elements := [.scalar "Force" (.u16 0) (.u16 0) (.u16 9)] },
      { ElementList.new "Rx2" with
        elements := [.scalar "Page" (.u8 0) (.u8 0) (.u8 9), .scalar "Left" (.u16 0) (.u16 0) (.u16 9),
          .scalar "Right" (.u16 0) (.u16 0) (.u16 9), .scalar "Counter" (.u8 0) (.u8 0) (.u8 9)] }] }
  version := 3

theorem communication_layout_pressLink :
    ∃ pair tx rx, (pressLink.generate ⟨"00000000"⟩).result = .ok pair ∧
      pressLink.tables .tx = .ok tx ∧ pressLink.tables .rx = .ok rx ∧
      pressLink.Lays pair .tx tx ∧ pressLink.Lays pair .rx rx ∧ pressLink.Records pair tx rx := by
  obtain ⟨pair, hpair⟩ : ∃ pair, (pressLink.generate ⟨"00000000"⟩).result = .ok pair :=
    exists_eq_ok (by decide +kernel)
  obtain ⟨tx, rx, h⟩ := communication_layout pressLink ⟨"00000000"⟩ pair hpair
  exact ⟨pair, tx, rx, hpair, h⟩

end CommCode

end BusNode
