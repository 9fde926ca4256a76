import BusNode.Proofs.Can.Descriptor
import BusNode.Proofs.CanOpen.Tables
import BusNode.Proofs.Code.Closure
import BusNode.Proofs.Text.Digit
/-!
# Signal rows

A row of a table of signals is the word of a descriptor with the name of an element in a comment.

* `Descriptor.elementIndex_ofWord` — the word has the index of the element in it;
* `CommCode.names_of_mem_rows`, `ManagerCode.names_of_mem_rows` — the name is that of the element which has the index in
  the list of the interface and the direction.
-/

namespace BusNode

open Can CanOpen

/-! ## Words -/

theorem Can.Descriptor.elementIndex_ofWord (d : Descriptor) :
    (Descriptor.ofWord d.word).elementIndex = d.elementIndex := by
  rw [ofWord_eq]
  show UInt16.ofNat (bitField d.word 16 16) = d.elementIndex
  rw [bitField_elementIndex, UInt16.ofNat_toNat]

theorem Literal.hexWord_injective {v w : UInt32} (h : hexWord v = hexWord w) : v = w := by
  have h : "0x" ++ hexUpper 8 v.toNat ++ "UL" = "0x" ++ hexUpper 8 w.toNat ++ "UL" := h
  rw [String.append_left_inj, String.append_right_inj] at h
  exact UInt32.toNat_inj.1 (hexUpper_injective v.toNat_lt w.toNat_lt h)

/-- A row has one word and one name. -/
theorem SignalRow.row_eq {s : SignalRow} {w : UInt32} {name : String}
    (h : s.row = .noted (Literal.hexWord w) name) : s.descriptor.word = w ∧ s.element = name := by
  injection h with htext hname
  injection htext with htext
  exact ⟨Literal.hexWord_injective htext, Option.some.inj hname⟩

/-! ## Rows of a file -/

theorem File.mem_rows {f : File} {name : String} {r : Row} (h : r ∈ f.rows name) :
    ∃ o rows place, .object o rows place ∈ f.items ∧ o.name = name ∧ r ∈ rows := by
  obtain ⟨i, hi, hr⟩ := List.mem_flatMap.1 h
  split at hr
  · rename_i o rows place
    split at hr
    · exact ⟨o, rows, place, hi, by assumption, hr⟩
    · cases hr
  · cases hr

/-- The list has an element of the index in the word, under the name. -/
def ElementList.Names (l : ElementList) (w : UInt32) (name : String) : Prop :=
  ∃ e, l.elements[(Descriptor.ofWord w).elementIndex.toNat]? = some e ∧ e.name = name

theorem Can.Descriptor.elementIndex_of_ofSignal {s : Signal} {d : Descriptor} (h : Descriptor.ofSignal s = .ok d) :
    d.elementIndex.toNat = s.elementIndex.toNat := by
  obtain ⟨hs, rfl⟩ := ofSignal_eq_ok.1 h
  show s.elementIndex.toUInt16.toNat = s.elementIndex.toNat
  rw [UInt32.toNat_toUInt16, Nat.mod_eq_of_lt hs.elementIndex]

/-- The index of a signal is the one in its word. -/
theorem ElementList.names_of_ofSignal {l : ElementList} {s : Signal} {d : Descriptor} {e : Element}
    (hd : Descriptor.ofSignal s = .ok d) (he : l.elements[s.elementIndex.toNat]? = some e) : l.Names d.word e.name := by
  refine ⟨e, ?_, rfl⟩
  rw [Descriptor.elementIndex_ofWord, Descriptor.elementIndex_of_ofSignal hd, he]

/-- Names are told by how they begin. -/
theorem take_toList_append {s : String} (h : 3 ≤ s.toList.length) (t : String) :
    (s ++ t).toList.take 3 = s.toList.take 3 := by
  rw [String.toList_append, List.take_append_of_le_length h]

/-! ## Communication -/

namespace CommCode

variable {x : CommCode} {dir : Direction} {l : ElementList} {m : Message} {id : Identifier} {p : Pair}

theorem list_eq_ok : x.list dir = .ok l ↔ x.datapool.lists[dir.listIndex x.interface.toNat]? = some l := by
  unfold list
  cases x.datapool.lists[dir.listIndex x.interface.toNat]? <;> simp

theorem names_of_signalRow {s : Signal} {r : SignalRow} (h : signalRow l m s = .ok r) :
    l.Names r.descriptor.word r.element := by
  obtain ⟨hd, e, he, hname⟩ := signalRow_eq_ok h
  exact hname ▸ ElementList.names_of_ofSignal hd he

theorem mem_tableItems {type name : String} {rows rows' : List Row} {o : Object} {place : Option Placement}
    (h : .object o rows' place ∈ tableItems type name rows) : o.name = name ∧ rows' = rows := by
  unfold tableItems at h
  split at h
  · cases h
  · simp only [List.mem_cons, List.not_mem_nil, or_false, reduceCtorEq, false_or, Item.object.injEq] at h
    obtain ⟨rfl, rfl, -⟩ := h
    exact ⟨rfl, rfl⟩

theorem take_arrayName {marker what : String} (h : 3 ≤ marker.toList.length) :
    (x.arrayName dir marker what).toList.take 3 = marker.toList.take 3 := by
  show (marker ++ "_" ++ x.stemOr ++ "_" ++ dir.name ++ what).toList.take 3 = _
  simp only [String.append_assoc, take_toList_append h]

theorem arrayName_inj {marker what what' : String} {dir' : Direction}
    (h : x.arrayName dir marker what = x.arrayName dir' marker what') : dir.name ++ what = dir'.name ++ what' := by
  have h : marker ++ "_" ++ x.stemOr ++ "_" ++ dir.name ++ what =
      marker ++ "_" ++ x.stemOr ++ "_" ++ dir'.name ++ what' := h
  simpa only [String.append_assoc, String.append_right_inj] using h

theorem signalsName_inj {dir' : Direction} (h : x.signalsName dir = x.signalsName dir') : dir = dir' := by
  have h := arrayName_inj h
  rw [String.append_left_inj] at h
  cases dir <;> cases dir' <;> first | rfl | exact absurd h (by decide)

theorem gapsName_ne : x.gapsName ≠ x.signalsName dir := by
  intro h
  have h := arrayName_inj h
  cases dir <;> exact absurd h (by decide)

theorem ne_signalsName {name : String} (h : name.toList.take 3 ≠ ['m', 'a', 'u']) : name ≠ x.signalsName dir := by
  rintro rfl
  exact h (take_arrayName (by decide))

/-- The objects of the directions that have the name of a table of signals. -/
theorem mem_directionItems {dir' : Direction} {t : CommTables} {o : Object} {rows : List Row} {place : Option Placement}
    (hi : .object o rows place ∈ x.directionItems dir' t) (ho : o.name = x.signalsName dir) :
    dir' = dir ∧ rows = t.signals.map SignalRow.row := by
  unfold directionItems at hi
  rcases List.mem_append.1 hi with hi | hi
  · rcases List.mem_append.1 hi with hi | hi
    · obtain ⟨hname, rfl⟩ := mem_tableItems hi
      exact ⟨signalsName_inj (hname.symm.trans ho), rfl⟩
    · obtain ⟨hname, -⟩ := mem_tableItems hi
      refine absurd (hname.symm.trans ho) (ne_signalsName ?_)
      rw [groupsName, take_arrayName (by decide)]
      decide
  · obtain ⟨hname, -⟩ := mem_tableItems hi
    refine absurd (hname.symm.trans ho) (ne_signalsName ?_)
    rw [messagesName, take_arrayName (by decide)]
    decide

/-- The rows of a table of signals name elements of the list. -/
theorem names_of_tables {t : CommTables} {w : UInt32} {name : String} (h : x.tables dir = .ok t)
    (hr : .noted (Literal.hexWord w) name ∈ t.signals.map SignalRow.row) :
    ∃ l, x.list dir = .ok l ∧ l.Names w name := by
  obtain ⟨l, hl, hholds⟩ := tables_eq_ok h
  obtain ⟨s, hs, hrow⟩ := List.mem_map.1 hr
  obtain ⟨rfl, rfl⟩ := SignalRow.row_eq hrow
  obtain ⟨⟨m, s'⟩, -, hsignal⟩ := exists_of_mem_right hholds.signals hs
  exact ⟨l, hl, names_of_signalRow hsignal⟩

/-- **Every signal row of a communication pair names an element** of the list of its direction. -/
theorem names_of_mem_rows {w : UInt32} {name : String} (h : (x.generate id).result = .ok p)
    (hr : .noted (Literal.hexWord w) name ∈ p.source.rows (x.signalsName dir)) :
    ∃ l, x.list dir = .ok l ∧ l.Names w name := by
  obtain ⟨stack, tx, rx, -, -, -, htx, hrx, rfl⟩ := generate_eq_ok h
  obtain ⟨o, rows, place, hi, ho, hr⟩ := File.mem_rows hr
  simp only [source, List.mem_append, List.mem_cons, List.not_mem_nil, or_false, reduceCtorEq, false_or] at hi
  rcases hi with ((((hi | hi) | hi) | hi) | hi) | hi
  · cases (File.of_mem_sourceStart hi).1
  · split at hi
    · cases hi
    · simp only [statusItems, List.mem_cons, List.mem_append, reduceCtorEq, false_or] at hi
      rcases hi with hi | hi <;> split at hi <;> simp at hi
  · obtain ⟨rfl, rfl⟩ := mem_directionItems hi ho
    exact names_of_tables htx hr
  · obtain ⟨rfl, rfl⟩ := mem_directionItems hi ho
    exact names_of_tables hrx hr
  · exact absurd ((mem_tableItems hi).1.symm.trans ho) gapsName_ne
  · injection hi with hobject
    refine absurd ((congrArg Object.name hobject).symm.trans ho) (ne_signalsName ?_)
    show ("gt_" ++ x.stemOr ++ "_ProtocolConfiguration").toList.take 3 ≠ _
    rw [String.append_assoc, take_toList_append (by decide)]
    decide

end CommCode

/-! ## CANopen -/

namespace ManagerCode

variable {x : ManagerCode} {dir : Direction} {l : ElementList} {m : Message} {id : Identifier} {p : Pair}

theorem list_eq_ok : x.list dir = .ok l ↔ x.datapool.lists[dir.listIndex x.interface.toNat]? = some l := by
  unfold list
  cases x.datapool.lists[dir.listIndex x.interface.toNat]? <;> simp

theorem names_of_signalRow {s : Signal} {r : SignalRow} (h : signalRow l m s = .ok r) :
    l.Names r.descriptor.word r.element := by
  obtain ⟨hd, e, he, hname⟩ := signalRow_eq_ok h
  exact hname ▸ ElementList.names_of_ofSignal hd he

theorem signalsName_inj {dir' : Direction} (h : x.signalsName dir = x.signalsName dir') : dir = dir' := by
  have h : "mau32_" ++ x.stem ++ "_" ++ dir.name ++ "PdoSignals" =
      "mau32_" ++ x.stem ++ "_" ++ dir'.name ++ "PdoSignals" := h
  simp only [String.append_assoc, String.append_right_inj] at h
  cases dir <;> cases dir' <;> first | rfl | exact absurd h (by decide)

theorem ne_signalsName {name : String} (h : name.toList.take 3 ≠ ['m', 'a', 'u']) : name ≠ x.signalsName dir := by
  rintro rfl
  refine h ?_
  show ("mau32_" ++ x.stem ++ "_" ++ dir.name ++ "PdoSignals").toList.take 3 = _
  simp only [String.append_assoc]
  exact take_toList_append (by decide) _

/-- The objects of the directions that have the name of a table of signals. -/
theorem mem_pdoItems {dir' : Direction} {t : PdoTables} {o : Object} {rows : List Row} {place : Option Placement}
    (hi : .object o rows place ∈ x.pdoItems dir' t) (ho : o.name = x.signalsName dir) :
    dir' = dir ∧ rows = t.signals.map SignalRow.row := by
  unfold pdoItems at hi
  rcases List.mem_append.1 hi with hi | hi
  · obtain ⟨hname, rfl⟩ := CommCode.mem_tableItems hi
    exact ⟨signalsName_inj (hname.symm.trans ho), rfl⟩
  · obtain ⟨hname, -⟩ := CommCode.mem_tableItems hi
    refine absurd (hname.symm.trans ho) (ne_signalsName ?_)
    show ("mat_" ++ x.stem ++ "_" ++ dir'.name ++ "Pdos").toList.take 3 ≠ _
    simp only [String.append_assoc]
    rw [take_toList_append (by decide)]
    decide

/-- The rows of a table of signals name elements of the list. -/
theorem names_of_tables {pdos : List PdoPlan} {t : PdoTables} {w : UInt32} {name : String}
    (h : x.tables dir pdos = .ok t) (hr : .noted (Literal.hexWord w) name ∈ t.signals.map SignalRow.row) :
    ∃ l, x.list dir = .ok l ∧ l.Names w name := by
  rcases tables_eq_ok h with ⟨-, rfl⟩ | ⟨l, hl, hholds⟩
  · cases hr
  · obtain ⟨s, hs, hrow⟩ := List.mem_map.1 hr
    obtain ⟨rfl, rfl⟩ := SignalRow.row_eq hrow
    obtain ⟨⟨m, s'⟩, -, hsignal⟩ := exists_of_mem_right hholds.signals hs
    exact ⟨l, hl, names_of_signalRow hsignal⟩

/-- **Every signal row of a manager names an element** of the list of its direction. -/
theorem names_of_mem_rows {w : UInt32} {name : String} (h : (x.generate id).result = .ok p)
    (hr : .noted (Literal.hexWord w) name ∈ p.source.rows (x.signalsName dir)) :
    ∃ l, x.list dir = .ok l ∧ l.Names w name := by
  obtain ⟨q, f, -, hf, rfl⟩ := generate_eq_ok h
  obtain ⟨tx, rx, htx, hrx, rfl⟩ := source_eq_ok hf
  obtain ⟨o, rows, place, hi, ho, hr⟩ := File.mem_rows hr
  simp only [sourceItems, List.mem_append, List.mem_cons, List.mem_flatMap, List.not_mem_nil, or_false, reduceCtorEq,
    false_or] at hi
  rcases hi with ((((hi | ⟨d, -, hi⟩) | hi) | hi) | hi) | hi
  · cases (File.of_mem_sourceStart hi).1
  · simp [dcfItems] at hi
  · refine absurd ((CommCode.mem_tableItems hi).1.symm.trans ho) (ne_signalsName ?_)
    show ("mat_" ++ x.stem ++ "_Devices").toList.take 3 ≠ _
    simp only [String.append_assoc]
    rw [take_toList_append (by decide)]
    decide
  · obtain ⟨rfl, rfl⟩ := mem_pdoItems hi ho
    exact names_of_tables htx hr
  · obtain ⟨rfl, rfl⟩ := mem_pdoItems hi ho
    exact names_of_tables hrx hr
  · injection hi with hobject
    refine absurd ((congrArg Object.name hobject).symm.trans ho) (ne_signalsName ?_)
    show ("gt_" ++ x.stem ++ "_ManagerConfiguration").toList.take 3 ≠ _
    simp only [String.append_assoc]
    rw [take_toList_append (by decide)]
    decide

end ManagerCode

end BusNode
