import BusNode.Proofs.Can.Layout
import BusNode.Proofs.Code.Reference
/-!
# What a communication pair refers to

Every slice of a communication pair lies in an array of its source (`CommCode.Lays`), so beside these arrays the pair
refers to its Datapool only (`CommCode.links_of_generate`).
-/

namespace BusNode

open Can

namespace CommCode

variable {x : CommCode} {id : Identifier} {pair : Pair} {dir : Direction} {t : CommTables} {i : Item} {a : Place}

/-! ## Tables -/

theorem takes_of_mem_tableItems {type name : String} {rows : List Row} {P : Place → Prop}
    (h : ∀ r ∈ rows, ∀ a ∈ r.places, P a) (hi : i ∈ tableItems type name rows) : i.Takes P := by
  unfold tableItems at hi
  split at hi
  · cases hi
  · rcases List.mem_cons.1 hi with rfl | hi
    · exact Item.takes_of_places rfl rfl
    · obtain rfl := List.mem_singleton.1 hi
      refine ⟨rfl, fun a ha => ?_⟩
      obtain ⟨r, hr, ha⟩ := Row.mem_placesList.1 ha
      exact h r hr a ha

/-- The row of a multiplexed message points to a status, and to one that is there. -/
theorem Lays.status (h : x.Lays pair dir t) {count : Nat} {status first : Pointer} {r : MessageRow}
    (hr : r ∈ t.messages) (hcontent : r.content = .groups count status first) (ha : a ∈ status.toList) :
    pair.source.Declares a.object := by
  obtain ⟨l, -, hholds⟩ := h.holds
  obtain ⟨k, hk, rfl⟩ := List.mem_iff_getElem.1 hr
  have hk' : k < (x.container.messages dir).length := hholds.rows.length_eq ▸ hk
  have hrow : x.IsRow (x.container.messages dir)[k] t.messages[k] := hholds.rows.get hk' hk
  have hversion : 2 ≤ x.version := by
    by_contra hv
    obtain ⟨-, first', hplain⟩ := hrow.plain (by omega)
    rw [hcontent] at hplain
    cases hplain
  obtain ⟨status', first', hgrouped, hmux⟩ := hrow.grouped hversion
  rw [hcontent] at hgrouped
  obtain ⟨-, rfl, -⟩ := SignalSlice.groups.inj hgrouped
  have hmux : (x.container.messages dir)[k].isMultiplexed = true := by
    by_contra hplain
    rw [hmux.2 (by simpa using hplain)] at ha
    cases ha
  have hslice : t.messages[k].content.status ∈ BusNode.statusSlices (x.container.messages dir) t.messages := by
    refine List.mem_map.2 ⟨((x.container.messages dir)[k], t.messages[k]), List.mem_filter.2 ⟨?_, hmux⟩, rfl⟩
    exact List.mem_iff_getElem.2 ⟨k, by rw [List.length_zip]; omega, by simp⟩
  refine (h.statusSlices _ hslice).declares ?_
  rw [hcontent]
  exact ha

theorem Lays.takes_direction (h : x.Lays pair dir t) (hi : i ∈ x.directionItems dir t) :
    i.Takes fun a => pair.source.Declares a.object := by
  unfold directionItems at hi
  rcases List.mem_append.1 hi with hi | hi
  · rcases List.mem_append.1 hi with hi | hi
    · refine takes_of_mem_tableItems (fun row hrow a ha => ?_) hi
      obtain ⟨s, -, rfl⟩ := List.mem_map.1 hrow
      cases ha
    · refine takes_of_mem_tableItems (fun row hrow a ha => ?_) hi
      obtain ⟨g, hg, rfl⟩ := List.mem_map.1 hrow
      refine (h.groupSlices g hg).declares ?_
      simpa [MuxRow.row, MuxRow.slice, Row.commented, Row.places, Expr.places, Expr.placesList] using ha
  · refine takes_of_mem_tableItems (fun row hrow a ha => ?_) hi
    obtain ⟨r, hr, rfl⟩ := List.mem_map.1 hrow
    have hslice := h.messageSlices r hr
    cases hcontent : r.content with
    | signals count first =>
      rw [hcontent] at hslice
      refine hslice.declares ?_
      simpa [MessageRow.row, hcontent, SignalSlice.fields, SignalSlice.slice, Row.commented, Row.places, Expr.places,
        Expr.placesList] using ha
    | groups count status first =>
      rw [hcontent] at hslice
      have ha : a ∈ status.toList ∨ a ∈ first.toList := by
        simpa [MessageRow.row, hcontent, SignalSlice.fields, Row.commented, Row.places, Expr.places, Expr.placesList]
          using ha
      rcases ha with ha | ha
      · exact h.status hr hcontent ha
      · exact hslice.declares ha

/-! ## The pair -/

theorem takes_statusItems {P : Place → Prop} (hi : i ∈ x.statusItems dir t) : i.Takes P := by
  unfold statusItems at hi
  split at hi
  · cases hi
  · obtain rfl := List.mem_singleton.1 hi
    exact Item.takes_of_places rfl rfl

theorem inner_of_mem_messageDefines (hi : i ∈ x.messageDefines dir) : i.included? = none ∧ i.places = [] := by
  rw [messageDefines_eq] at hi
  rcases List.mem_cons.1 hi with rfl | hi
  · exact ⟨rfl, rfl⟩
  · rcases List.mem_cons.1 hi with rfl | hi
    · exact ⟨rfl, rfl⟩
    · obtain ⟨-, -, rfl⟩ := List.mem_map.1 hi
      exact ⟨rfl, rfl⟩

theorem Records.takes_record {tag : String} {tx rx : CommTables} (h : x.Records pair tx rx)
    (ha : a ∈ Row.placesList (x.recordRows tag tx rx)) :
    a = .whole x.datapool.recordName ∨ pair.source.Declares a.object := by
  obtain ⟨htx, hrx, hgaps⟩ := h.resolves
  have ha : a = .whole x.datapool.recordName ∨
      a ∈ (Pointer.slice (x.messagesName .tx) 0 tx.messages.length).toList ∨
      a ∈ (Pointer.slice (x.messagesName .rx) 0 rx.messages.length).toList ∨
      a ∈ (Pointer.slice x.gapsName 0 rx.gaps.length).toList := by
    simpa [recordRows, Row.noted, Row.pointer, Row.commented, Row.placesList, Row.places, Expr.places] using ha
  rcases ha with rfl | ha | ha | ha
  · exact .inl rfl
  · exact .inr (htx.declares ha)
  · exact .inr (hrx.declares ha)
  · exact .inr (hgaps.declares ha)

theorem inner_of_mem_header (hi : i ∈ (x.header id).items) :
    i ∈ File.headerStart x.stemOr x.brief ["osy_com_configuration.h"] id ∨ i.included? = none ∧ i.places = [] := by
  simp only [header, File.headerEnd, List.mem_append, List.mem_cons, List.not_mem_nil, or_false] at hi
  rcases hi with (((hi | hi) | hi) | (rfl | rfl)) | rfl | rfl
  · exact .inl hi
  · exact .inr (inner_of_mem_messageDefines hi)
  · exact .inr (inner_of_mem_messageDefines hi)
  all_goals exact .inr ⟨rfl, rfl⟩

/-- The tables and the record refer to the Datapool and to each other. -/
theorem takes_of_mem_source {tag : String} {tx rx : CommTables} (htx : x.tables .tx = .ok tx)
    (hrx : x.tables .rx = .ok rx) (hi : i ∈ (x.source id tag tx rx).items) :
    i ∈ File.sourceStart x.stemOr x.brief [x.datapool.headerName] id ∨
      i.Takes fun a => a = .whole x.datapool.recordName ∨ (x.source id tag tx rx).Declares a.object := by
  have htxLays : x.Lays ⟨x.stemOr, x.header id, x.source id tag tx rx⟩ .tx tx := lays_tx htx
  have hrxLays : x.Lays ⟨x.stemOr, x.header id, x.source id tag tx rx⟩ .rx rx := lays_rx hrx
  have hrecords : x.Records ⟨x.stemOr, x.header id, x.source id tag tx rx⟩ tx rx := records
  have hi' := hi
  simp only [source, List.mem_append, List.mem_cons, List.not_mem_nil, or_false] at hi'
  rcases hi' with (((((hi' | hi') | rfl) | hi') | hi') | hi') | rfl | rfl
  · exact .inl hi'
  · right
    split at hi'
    · cases hi'
    · rcases List.mem_cons.1 hi' with rfl | hi'
      · exact Item.takes_of_places rfl rfl
      · exact (List.mem_append.1 hi').elim takes_statusItems takes_statusItems
  · exact .inr (Item.takes_of_places rfl rfl)
  · exact .inr ((htxLays.takes_direction hi').imp_right fun h a ha => .inr (h a ha))
  · exact .inr ((hrxLays.takes_direction hi').imp_right fun h a ha => .inr (h a ha))
  · refine .inr (takes_of_mem_tableItems (fun row hrow a ha => ?_) hi')
    obtain ⟨g, -, rfl⟩ := List.mem_map.1 hrow
    cases ha
  · exact .inr (Item.takes_of_places rfl rfl)
  · exact .inr ⟨rfl, fun a ha => hrecords.takes_record ha⟩

/-- **A communication pair refers to its Datapool**, and else to the run-time library and itself. -/
theorem links_of_generate (h : (x.generate id).result = .ok pair) : pair.Links x.datapool := by
  obtain ⟨stack, tx, rx, -, -, -, htx, hrx, rfl⟩ := generate_eq_ok h
  refine Pair.links_of_items (fun i hi => inner_of_mem_header hi) (fun i hi => takes_of_mem_source htx hrx hi) ?_ ?_ ?_
  · intro file hfile
    simp only [List.mem_append, List.mem_singleton] at hfile
    rcases hfile with rfl | rfl
    · exact .inl (by decide)
    · exact .inr rfl
  · refine List.mem_append_right _ ?_
    simp only [source, File.sourceStart, List.mem_append, List.mem_cons, List.map_cons, true_or, or_true]
  · refine ⟨.object (.sharedRecord "T_osy_com_protocol_configuration" (recordName x.stemOr))
      (x.recordRows stack.tag tx rx) none, ?_, ?_⟩
    · simp only [source, List.mem_append, List.mem_cons, true_or, or_true]
    · refine Row.mem_placesList.2 ⟨.pointer (some (.whole x.datapool.recordName)), ?_, .head _⟩
      simp only [recordRows, List.mem_cons, true_or, or_true]

end CommCode

end BusNode
