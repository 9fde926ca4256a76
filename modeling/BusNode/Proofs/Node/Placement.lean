import BusNode.Proofs.Can.Layout
import BusNode.Proofs.Datapool.Placement
/-!
# Variables of generated pairs

Of a pair only the values of a Datapool, its buffer for non-volatile lists and the multiplex status of a protocol may
change. All of them stand in the region that the Datapool says.

* `CommCode.keeps_header`, `CommCode.keeps_source` — the variables of a protocol;
* `variables_in_region` — those of the pairs of Datapools and protocols.
-/

namespace BusNode

open Can

/-! ## Communication -/

namespace CommCode

variable {x : CommCode} {dir : Direction} {id : Identifier}

theorem isStill_messageDefines : ∀ i ∈ x.messageDefines dir, i.IsStill := by
  intro i hi
  simp only [messageDefines, List.mem_append, List.mem_cons, List.mem_map, List.not_mem_nil, or_false] at hi
  obtain (rfl | rfl) | ⟨_, _, rfl⟩ := hi <;> trivial

theorem isStill_tableItems {type name : String} {rows : List Row} : ∀ i ∈ tableItems type name rows, i.IsStill := by
  intro i hi
  unfold tableItems at hi
  split at hi
  · cases hi
  · exact Item.isStill_after_blank hi ⟨rfl, rfl⟩

theorem isStill_directionItems {t : CommTables} : ∀ i ∈ x.directionItems dir t, i.IsStill := by
  intro i hi
  unfold directionItems at hi
  rcases List.mem_append.1 hi with hi | hi
  · rcases List.mem_append.1 hi with hi | hi <;> exact isStill_tableItems i hi
  · exact isStill_tableItems i hi

/-- Where the status is kept. -/
def placement (x : CommCode) : Placement := ⟨.ofSafety x.datapool.isSafety, true⟩

/-- The status of a direction, if it has multiplexed messages. -/
def statusObjects (x : CommCode) (dir : Direction) (t : CommTables) : List Object :=
  if t.statusCount = 0 then [] else [⟨.internal, false, "uint8", x.statusName dir, some (.number t.statusCount)⟩]

theorem keeps_statusItems (hversion : 3 ≤ x.version) (t : CommTables) :
    Keeps x.placement (x.statusItems dir t) (x.statusObjects dir t) := by
  unfold statusItems statusObjects
  rw [if_pos hversion]
  split
  · exact .nil
  · exact .declare rfl

/-- The header declares the record only. -/
theorem keeps_header : Keeps x.placement (x.header id).items [] := by
  refine .of_still fun i hi => ?_
  simp only [header, List.mem_append, List.mem_cons, List.not_mem_nil, or_false] at hi
  obtain (((hi | hi) | hi) | rfl | rfl) | hi := hi
  · exact File.isStill_headerStart i hi
  · exact isStill_messageDefines i hi
  · exact isStill_messageDefines i hi
  · trivial
  · exact ⟨rfl, rfl⟩
  · exact File.isStill_headerEnd i hi

/-- The source defines the status of both directions. -/
theorem keeps_source (hversion : 3 ≤ x.version) (tag : String) (tx rx : CommTables) :
    Keeps x.placement (x.source id tag tx rx).items (x.statusObjects .tx tx ++ x.statusObjects .rx rx) := by
  have hstatus : Keeps x.placement
      (if tx.statusCount + rx.statusCount = 0 then []
        else .heading "Module Global Variables" :: (x.statusItems .tx tx ++ x.statusItems .rx rx))
      (x.statusObjects .tx tx ++ x.statusObjects .rx rx) := by
    split
    · rename_i hnone
      obtain ⟨htx, hrx⟩ := Nat.add_eq_zero_iff.1 hnone
      rw [statusObjects, statusObjects, if_pos htx, if_pos hrx]
      exact .nil
    · exact .still trivial ((keeps_statusItems hversion tx).append (keeps_statusItems hversion rx))
  have hstart : ∀ i ∈ File.sourceStart x.stemOr x.brief [x.datapool.headerName] id, i.IsStill :=
    File.isStill_sourceStart
  have hheading : ∀ i ∈ [Item.heading "Module Global Constants"], i.IsStill := List.forall_mem_singleton.2 trivial
  have hrecord : ∀ i ∈ [Item.heading "Global Constants",
      .object (.sharedRecord "T_osy_com_protocol_configuration" (recordName x.stemOr)) (x.recordRows tag tx rx) none],
      i.IsStill := List.forall_mem_cons.2 ⟨trivial, List.forall_mem_singleton.2 ⟨rfl, rfl⟩⟩
  have htx : ∀ i ∈ x.directionItems .tx tx, i.IsStill := isStill_directionItems
  have hrx : ∀ i ∈ x.directionItems .rx rx, i.IsStill := isStill_directionItems
  have htables := (((hstatus.after_still hstart).then_still hheading).then_still htx).then_still hrx
  exact (htables.then_still isStill_tableItems).then_still hrecord

end CommCode

/-! ## Pairs -/

/-- **Variables stand in the region of their Datapool, constants outside.** The owner of a Datapool declares its values
in the header, and defines them and the buffer for non-volatile lists in the source; from layout 3 on they stand between
the lines of the region, before with its qualifier. A protocol from layout 3 on defines its multiplex status between
these lines. Nothing else that the pairs declare may change, and no other line opens or closes a region. -/
theorem variables_in_region (id : Identifier) (pair : Pair) :
    (∀ x : DatapoolCode, x.linkage = .own → (x.generate id).result = .ok pair →
      pair.header.Places ⟨.ofSafety x.datapool.isSafety, 3 ≤ x.version⟩ [x.valuesObject .external] ∧
      pair.source.Places ⟨.ofSafety x.datapool.isSafety, 3 ≤ x.version⟩ x.sourceVariables) ∧
    ∀ x : CommCode, 3 ≤ x.version → (x.generate id).result = .ok pair →
      pair.header.Places ⟨.ofSafety x.datapool.isSafety, true⟩ [] ∧
      ∃ tx rx, x.tables .tx = .ok tx ∧ x.tables .rx = .ok rx ∧
        pair.source.Places ⟨.ofSafety x.datapool.isSafety, true⟩
          (x.statusObjects .tx tx ++ x.statusObjects .rx rx) := by
  constructor
  · intro x hown h
    have hown := DatapoolCode.isOwn_iff.2 hown
    obtain ⟨-, header, source, hheader, hsource, rfl⟩ := DatapoolCode.generate_eq_ok h
    obtain ⟨scaling, hscaling, rfl⟩ := DatapoolCode.header_eq_ok.1 hheader
    obtain ⟨values, tables, hvalues, htables, -, rfl⟩ := DatapoolCode.source_eq_ok.1 hsource
    have hscaling : ∀ i ∈ scaling, i.IsStill := by
      obtain ⟨-, hscaling⟩ | ⟨-, rfl⟩ := hscaling
      · exact DatapoolCode.isStill_scaling hscaling
      · exact fun i hi => nomatch hi
    obtain ⟨-, i, hi, rfl⟩ | ⟨hother, -⟩ := hvalues
    · exact ⟨(DatapoolCode.keeps_header hown hscaling).places, (DatapoolCode.keeps_source hi htables).places⟩
    · cases hown.symm.trans hother
  · intro x hversion h
    obtain ⟨stack, tx, rx, -, -, -, htx, hrx, rfl⟩ := CommCode.generate_eq_ok h
    exact ⟨CommCode.keeps_header.places, tx, rx, htx, hrx, (CommCode.keeps_source hversion stack.tag tx rx).places⟩

/-- The recipe has its values and its buffer in the safe region, the press its multiplex status in the other one. -/
theorem variables_in_region_recipe_press :
    (∃ pair, ((DatapoolCode.recipeCode .own).generate ⟨"00000000"⟩).result = .ok pair ∧
      pair.source.lines.filter Region.isMark =
        [Region.safe.start, Region.safe.stop, Region.safe.start, Region.safe.stop]) ∧
    ∃ pair, (CommCode.pressLink.generate ⟨"00000000"⟩).result = .ok pair ∧ 3 ≤ CommCode.pressLink.version ∧
      pair.source.lines.filter Region.isMark = [Region.nonSafe.start, Region.nonSafe.stop] := by
  obtain ⟨recipe, hrecipe⟩ : ∃ pair, ((DatapoolCode.recipeCode .own).generate ⟨"00000000"⟩).result = .ok pair :=
    exists_eq_ok (by decide +kernel)
  obtain ⟨press, hpress⟩ : ∃ pair, (CommCode.pressLink.generate ⟨"00000000"⟩).result = .ok pair :=
    exists_eq_ok (by decide +kernel)
  obtain ⟨-, hsource⟩ := (variables_in_region ⟨"00000000"⟩ recipe).1 (DatapoolCode.recipeCode .own) rfl hrecipe
  obtain ⟨-, tx, rx, htx, hrx, hstatus⟩ :=
    (variables_in_region ⟨"00000000"⟩ press).2 CommCode.pressLink (by decide) hpress
  have hcount : (CommCode.pressLink.tables .tx).toOption.map (CommCode.pressLink.statusObjects .tx) = some [] ∧
      (CommCode.pressLink.tables .rx).toOption.map (CommCode.pressLink.statusObjects .rx) =
        some [⟨.internal, false, "uint8", CommCode.pressLink.statusName .rx, some (.number 2)⟩] := by
    decide +kernel
  rw [htx, hrx] at hcount
  have hmarks := hstatus.marks
  rw [Option.some.inj hcount.1, Option.some.inj hcount.2] at hmarks
  exact ⟨⟨recipe, hrecipe, hsource.marks⟩, press, hpress, by decide, hmarks⟩

end BusNode
