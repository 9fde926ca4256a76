import BusNode.Proofs.Code.Braces
import BusNode.Proofs.Code.Declared
/-!
# Variables in their memory region

A region opens and closes with lines of a file, which the linker reads as one list: nothing but their order tells what
stands between them.

* `Region.isMark`, `Region.opened` — the lines that open and close a region, and the region that lines leave open;
* `Item.IsStill`, `Keeps` — items that declare no variable, and items whose variables are those given, all in one place;
* `File.Places` — the variables of a file stand in their region, the constants outside;
* `Keeps.places` — so they do in a file of items that keep their place.
-/

namespace BusNode

/-! ## Regions of lines -/

namespace Region

/-- The lines that open and close the region. -/
def marks (r : Region) : List String := [r.start, r.stop]

/-- A line opens or closes a region. -/
def isMark (line : String) : Bool := (safe.marks ++ nonSafe.marks).contains line

/-- The region that is open after a line, by the one before it. -/
def after (r : Option Region) (line : String) : Option Region :=
  if line = safe.start then some .safe
  else if line = nonSafe.start then some .nonSafe
  else if isMark line then none
  else r

/-- The region that is open at the end of some lines. -/
def opened (lines : List String) : Option Region := lines.foldl after none

/-- What the lines say of a region. -/
def words (r : Region) : List String := [r.start, r.stop, r.qualifier]

/-- A text names the region. -/
def Names (r : Region) (text : String) : Prop := ∃ w ∈ r.words, w.toList <:+: text.toList

instance (r : Region) (text : String) : Decidable (r.Names text) :=
  inferInstanceAs (Decidable (∃ w ∈ r.words, w.toList <:+: text.toList))

/-- The words of a region name no other one, though those of one are nearly those of the other. -/
theorem names_iff {r r' : Region} {w : String} (hw : w ∈ r.words) : r'.Names w ↔ r' = r := by
  revert w
  cases r <;> cases r' <;> decide

theorem isMark_of_mem_marks {r : Region} {line : String} (h : line ∈ r.marks) : isMark line = true := by
  revert line
  cases r <;> decide

theorem after_of_not_isMark {line : String} (h : isMark line = false) (r : Option Region) : after r line = r := by
  have hne (mark : String) (hmark : isMark mark = true) : line ≠ mark := by
    rintro rfl
    cases h.symm.trans hmark
  rw [after, if_neg (hne _ rfl), if_neg (hne _ rfl), h]
  rfl

/-- Only the marks among the lines count. -/
theorem opened_filter (lines : List String) : opened (lines.filter isMark) = opened lines := by
  unfold opened
  generalize none = r
  induction lines generalizing r with
  | nil => rfl
  | cons line lines ih =>
    rw [List.foldl_cons, List.filter_cons]
    split
    · rw [List.foldl_cons, ih]
    · rename_i h
      rw [ih, after_of_not_isMark (Bool.eq_false_iff.2 h)]

/-- One region after the other is opened and closed. -/
theorem opened_marks {α : Type} (r : Region) (as : List α) : opened (as.flatMap fun _ => r.marks) = none := by
  have hmarks : r.marks.foldl after none = none := by
    cases r <;> rfl
  unfold opened
  induction as with
  | nil => rfl
  | cons a as ih => rw [List.flatMap_cons, List.foldl_append, hmarks, ih]

/-! ## Lines that are no marks -/

/-- The letters of the marks. -/
def letters : List Char := ['A', 'D', 'E', 'F', 'M', 'N', 'O', 'P', 'R', 'S', 'T', 'Y', '_']

/-- A text has a letter that no mark has. -/
def isForeign (text : String) : Bool := text.toList.any (!letters.contains ·)

variable {s t : String}

theorem isForeign_append : isForeign (s ++ t) = (isForeign s || isForeign t) := by
  rw [isForeign, String.toList_append, List.any_append]
  rfl

theorem isForeign_left (h : isForeign s = true) : isForeign (s ++ t) = true := by
  rw [isForeign_append, h, Bool.true_or]

theorem isForeign_right (h : isForeign t = true) : isForeign (s ++ t) = true := by
  rw [isForeign_append, h, Bool.or_true]

theorem not_isMark_of_isForeign (h : isForeign s = true) : isMark s = false := by
  have hmarks : ∀ mark ∈ safe.marks ++ nonSafe.marks, isForeign mark = false := by decide
  refine Bool.eq_false_iff.2 fun hmark => ?_
  cases h.symm.trans (hmarks s (List.contains_iff_mem.1 hmark))

theorem isForeign_indent (line : String) : isForeign (Row.indent line) = true := isForeign_left rfl

theorem isForeign_text (o : Object) : isForeign o.text = true := by
  have hname : isForeign s!"{o.type} {o.name}" = true := isForeign_left (isForeign_right rfl)
  exact isForeign_right (isForeign_left (isForeign_right hname))

end Region

open Region

/-! ## Items -/

theorem isForeign_of_mem_inner {rows : List Row} {line : String} (h : line ∈ Row.inner rows) :
    isForeign line = true := by
  induction rows with
  | nil => cases h
  | cons r rows ih =>
    rw [Row.inner] at h
    rcases List.mem_append.1 h with h | h
    · obtain ⟨text, -, rfl⟩ := List.mem_map.1 h
      exact isForeign_indent text
    · exact ih h

theorem not_isMark_of_mem_initializerLines {rows : List Row} {line : String} (h : line ∈ initializerLines rows) :
    isMark line = false := by
  rw [initializerLines_eq] at h
  rcases List.mem_append.1 h with h | h
  · rcases List.mem_cons.1 h with rfl | h
    · rfl
    · exact not_isMark_of_isForeign (isForeign_of_mem_inner h)
  · obtain rfl := List.mem_singleton.1 h
    rfl

namespace Item

/-- The item declares no variable and is in no region. -/
def IsStill : Item → Prop
  | .line text => isMark text = false
  | .declare o place | .object o _ place => o.isConst = true ∧ place = none
  | .inlineObject o _ _ | .listing o _ => o.isConst = true
  | .initializer _ _ => False
  | _ => True

/-- An item after an empty line. -/
theorem isStill_after_blank {i j : Item} (hj : j ∈ [.blank, i]) (h : i.IsStill) : j.IsStill := by
  rcases List.mem_cons.1 hj with rfl | hj
  · trivial
  · exact List.mem_singleton.1 hj ▸ h

theorem IsStill.isConst {i : Item} (h : i.IsStill) {o : Object} (ho : i.object? = some o) : o.isConst = true := by
  cases i with
  | declare o place | object o rows place =>
    obtain rfl := Option.some.inj ho
    exact h.1
  | inlineObject o value comment | listing o ls =>
    obtain rfl := Option.some.inj ho
    exact h
  | _ => cases ho

theorem IsStill.not_isMark {i : Item} (h : i.IsStill) : ∀ line ∈ i.lines, isMark line = false := by
  have hforeign {line : String} (h : isForeign line = true) : isMark line = false := not_isMark_of_isForeign h
  intro line hline
  -- names and comments may be anything, also a mark; what stands beside them on their lines is in none
  cases i with
  | line text => exact List.mem_singleton.1 hline ▸ h
  | blank => exact List.mem_singleton.1 hline ▸ rfl
  | heading title =>
    simp only [lines, List.mem_cons, List.not_mem_nil, or_false] at hline
    obtain rfl | rfl := hline
    · rfl
    · exact hforeign (isForeign_right rfl)
  | fileComment brief details =>
    simp only [lines, List.mem_append, List.mem_cons, List.not_mem_nil, or_false] at hline
    obtain ((rfl | rfl | rfl | rfl) | hline) | (rfl | rfl | rfl | rfl) := hline
    · exact hforeign (isForeign_left rfl)
    · rfl
    · rfl
    · exact hforeign (isForeign_left rfl)
    · split at hline
      · cases hline
      · rcases List.mem_cons.1 hline with rfl | hline
        · rfl
        · obtain ⟨text, -, rfl⟩ := List.mem_map.1 hline
          exact hforeign (isForeign_indent text)
    · rfl
    · rfl
    · rfl
    · exact hforeign (isForeign_left rfl)
  | openGuard name =>
    simp only [lines, List.mem_cons, List.not_mem_nil, or_false] at hline
    obtain rfl | rfl := hline <;> exact hforeign (isForeign_left rfl)
  | closeGuard | openLinkage | closeLinkage =>
    exact (show ∀ line ∈ lines _, isMark line = false by decide) line hline
  | includes file =>
    obtain rfl := List.mem_singleton.1 hline
    exact hforeign (isForeign_right rfl)
  | define name parameters meaning =>
    obtain rfl := List.mem_singleton.1 hline
    exact hforeign (isForeign_left (isForeign_right rfl))
  | defineIdentifier stem id =>
    simp only [lines, Identifier.defineLines, List.mem_cons, List.not_mem_nil, or_false] at hline
    obtain rfl | rfl := hline
    · rfl
    · exact hforeign (isForeign_right rfl)
  | checkIdentifier stem id =>
    obtain rfl := List.mem_singleton.1 hline
    exact hforeign (isForeign_left (isForeign_right rfl))
  | recordType name members =>
    simp only [lines, List.mem_append, List.mem_cons, List.not_mem_nil, or_false] at hline
    obtain ((rfl | rfl) | hline) | rfl := hline
    · rfl
    · rfl
    · obtain ⟨text, -, rfl⟩ := List.mem_map.1 hline
      exact hforeign (isForeign_indent text)
    · exact hforeign (isForeign_right rfl)
  | declare o place =>
    obtain ⟨-, rfl⟩ := h
    obtain rfl := List.mem_singleton.1 hline
    exact hforeign (isForeign_right rfl)
  | object o rows place =>
    obtain ⟨-, rfl⟩ := h
    rcases List.mem_cons.1 hline with rfl | hline
    · exact hforeign (isForeign_right rfl)
    · exact not_isMark_of_mem_initializerLines hline
  | inlineObject o value comment =>
    obtain rfl := List.mem_singleton.1 hline
    exact hforeign (isForeign_left (isForeign_right rfl))
  | listing o ls =>
    simp only [lines, List.mem_append, List.mem_cons, List.not_mem_nil, or_false] at hline
    obtain ((rfl | rfl) | hline) | rfl := hline
    · exact hforeign (isForeign_right rfl)
    · rfl
    · obtain ⟨text, -, rfl⟩ := List.mem_map.1 hline
      exact hforeign (isForeign_indent text)
    · rfl
  | initializer declaration rows => cases h

end Item

/-! ## Places -/

namespace Placement

/-- The lines around an object in its place. -/
def marks (p : Placement) : List String := if p.isWrapped then p.region.marks else []

/-- The lines of a variable in its place: its declaration and what belongs to it stand between the lines of the region,
or the declaration has the qualifier of the region right after its storage class. -/
inductive Holds (o : Object) : Placement → List String → Prop
  | between (r : Region) (ending : String) (rest : List String)
    (h : ∀ line ∈ (o.text ++ ending) :: rest, isMark line = false) :
    Holds o ⟨r, true⟩ (r.start :: (o.text ++ ending) :: rest ++ [r.stop])
  | qualified (r : Region) (ending : String) (rest : List String)
    (h : ∀ line ∈ (o.storage.text ++ r.qualifier ++ " " ++ o.declarator ++ ending) :: rest, isMark line = false) :
    Holds o ⟨r, false⟩ ((o.storage.text ++ r.qualifier ++ " " ++ o.declarator ++ ending) :: rest)

variable {p : Placement} {o : Object} {lines : List String}

theorem holds_lines (p : Placement) (o : Object) (ending : String) {rest : List String}
    (h : ∀ line ∈ rest, isMark line = false) : p.Holds o (Placement.lines (some p) o ending rest) := by
  obtain ⟨r, isWrapped⟩ := p
  cases isWrapped with
  | true =>
    refine .between r ending rest (List.forall_mem_cons.2 ⟨not_isMark_of_isForeign ?_, h⟩)
    exact isForeign_left (isForeign_text o)
  | false =>
    refine .qualified r ending rest (List.forall_mem_cons.2 ⟨not_isMark_of_isForeign ?_, h⟩)
    exact isForeign_left (isForeign_left (isForeign_right rfl))

/-- The lines around the variable are the only ones that open or close a region. -/
theorem Holds.filter_isMark (h : p.Holds o lines) : lines.filter isMark = p.marks := by
  cases h with
  | between r ending rest h =>
    have hbody : ((o.text ++ ending) :: rest).filter isMark = [] :=
      List.filter_eq_nil_iff.2 fun line hline => Bool.eq_false_iff.1 (h line hline)
    have hstart : isMark r.start = true := isMark_of_mem_marks (.head _)
    have hstop : isMark r.stop = true := isMark_of_mem_marks (.tail _ (.head _))
    show (r.start :: (((o.text ++ ending) :: rest) ++ [r.stop])).filter isMark = [r.start, r.stop]
    rw [List.filter_cons_of_pos hstart, List.filter_append, hbody, List.nil_append, List.filter_cons_of_pos hstop,
      List.filter_nil]
  | qualified r ending rest h =>
    exact List.filter_eq_nil_iff.2 fun line hline => Bool.eq_false_iff.1 (h line hline)

/-- The qualifier in the line of a variable names this region only. -/
theorem Holds.qualifies (h : p.Holds o lines) (hqualified : p.isWrapped = false) : ∃ word ending rest,
    lines = (o.storage.text ++ word ++ " " ++ o.declarator ++ ending) :: rest ∧
      ∀ r : Region, r.Names word ↔ r = p.region := by
  cases h with
  | between r ending rest h => cases hqualified
  | qualified r ending rest h =>
    exact ⟨r.qualifier, ending, rest, rfl, fun _ => names_iff (.tail _ (.tail _ (.head _)))⟩

theorem names_iff_of_mem_marks {line : String} (h : line ∈ p.marks) (r : Region) : r.Names line ↔ r = p.region := by
  unfold marks at h
  split at h
  · exact names_iff (List.mem_append_left [p.region.qualifier] h)
  · cases h

theorem opened_marks {α : Type} (p : Placement) (as : List α) : opened (as.flatMap fun _ => p.marks) = none := by
  unfold marks
  split
  · exact Region.opened_marks p.region as
  · rw [List.flatMap_eq_nil_iff.2 fun _ _ => rfl]
    rfl

end Placement

/-- The items declare these variables in this place, in their order, and constants outside of all regions. -/
inductive Keeps (p : Placement) : List Item → List Object → Prop
  | nil : Keeps p [] []
  | still {i : Item} {is : List Item} {vs : List Object} (hi : i.IsStill) (h : Keeps p is vs) : Keeps p (i :: is) vs
  | holds {i : Item} {o : Object} {is : List Item} {vs : List Object} (hi : i.object? = some o)
    (ho : o.isConst = false) (hlines : p.Holds o i.lines) (h : Keeps p is vs) : Keeps p (i :: is) (o :: vs)

/-- The variables of a file stand in their place, and everything else outside of the regions. -/
structure File.Places (f : File) (p : Placement) (vs : List Object) : Prop where
  mutables : f.objects.filter (!·.isConst) = vs
  marks : f.lines.filter isMark = vs.flatMap fun _ => p.marks
  /-- Every line that opens or closes a region names this one and no other. -/
  names : ∀ line ∈ f.lines, isMark line = true → ∀ r : Region, r.Names line ↔ r = p.region
  /-- So does the qualifier in the line of every variable, where no lines stand around it. -/
  qualifies : p.isWrapped = false → ∀ i ∈ f.items, ∀ o, i.object? = some o → o.isConst = false →
    ∃ word ending rest, i.lines = (o.storage.text ++ word ++ " " ++ o.declarator ++ ending) :: rest ∧
      ∀ r : Region, r.Names word ↔ r = p.region
  closed : ∀ is, is <+: f.items → opened (File.mk is).lines = none
  placed : ∀ i ∈ f.items, ∀ o, i.object? = some o → o.isConst = false → p.Holds o i.lines
  const : ∀ i ∈ f.items, ∀ o, i.object? = some o → o.isConst = true → ∀ line ∈ i.lines, isMark line = false

namespace Keeps

variable {p : Placement} {i : Item} {o : Object} {is js : List Item} {vs ws : List Object}

theorem of_still (h : ∀ i ∈ is, i.IsStill) : Keeps p is [] := by
  induction is with
  | nil => exact .nil
  | cons i is ih => exact .still (h i (.head _)) (ih fun j hj => h j (.tail _ hj))

theorem declare (ho : o.isConst = false) : Keeps p [.declare o (some p)] [o] :=
  .holds rfl ho (p.holds_lines o ";" fun _ h => nomatch h) .nil

theorem object (rows : List Row) (ho : o.isConst = false) : Keeps p [.object o rows (some p)] [o] :=
  .holds rfl ho (p.holds_lines o " =" fun _ => not_isMark_of_mem_initializerLines) .nil

theorem append (h : Keeps p is vs) (h' : Keeps p js ws) : Keeps p (is ++ js) (vs ++ ws) := by
  induction h with
  | nil => exact h'
  | still hi _ ih => exact .still hi ih
  | holds hi ho hlines _ ih => exact .holds hi ho hlines ih

theorem after_still (his : ∀ i ∈ is, i.IsStill) (h : Keeps p js vs) : Keeps p (is ++ js) vs := (of_still his).append h

theorem then_still (h : Keeps p is vs) (hjs : ∀ i ∈ js, i.IsStill) : Keeps p (is ++ js) vs := by
  have hkeeps := h.append (of_still hjs)
  rwa [List.append_nil] at hkeeps

theorem left (h : Keeps p (is ++ js) vs) : ∃ ws, Keeps p is ws := by
  induction is generalizing vs with
  | nil => exact ⟨[], .nil⟩
  | cons i is ih =>
    cases h with
    | still hi h =>
      obtain ⟨ws, hws⟩ := ih h
      exact ⟨ws, .still hi hws⟩
    | holds hi ho hlines h =>
      obtain ⟨ws, hws⟩ := ih h
      exact ⟨_, .holds hi ho hlines hws⟩

theorem item (h : Keeps p is vs) (hi : i ∈ is) (ho : i.object? = some o) :
    (o.isConst = false → p.Holds o i.lines) ∧ (o.isConst = true → ∀ line ∈ i.lines, isMark line = false) := by
  induction h with
  | nil => cases hi
  | still hstill _ ih =>
    rcases List.mem_cons.1 hi with rfl | hi
    · refine ⟨fun hvar => ?_, fun _ => hstill.not_isMark⟩
      cases (hstill.isConst ho).symm.trans hvar
    · exact ih hi
  | holds hobject hvar hlines _ ih =>
    rcases List.mem_cons.1 hi with rfl | hi
    · obtain rfl := Option.some.inj (hobject.symm.trans ho)
      refine ⟨fun _ => hlines, fun hconst => ?_⟩
      cases hvar.symm.trans hconst
    · exact ih hi

theorem filter_objects (h : Keeps p is vs) : (File.mk is).objects.filter (!·.isConst) = vs := by
  unfold File.objects
  induction h with
  | nil => rfl
  | @still i is vs hi _ ih =>
    rw [List.filterMap_cons]
    cases ho : i.object? with
    | none => exact ih
    | some o => rwa [List.filter_cons_of_neg (by rw [hi.isConst ho]; decide)]
  | holds hi ho _ _ ih =>
    rw [List.filterMap_cons, hi]
    exact (List.filter_cons_of_pos (by rw [ho]; rfl)).trans (congrArg _ ih)

/-- The marks of each item are those around its variable, if it has one. -/
theorem filter_lines (h : Keeps p is vs) : (File.mk is).lines.filter isMark = vs.flatMap fun _ => p.marks := by
  unfold File.lines
  induction h with
  | nil => rfl
  | still hi _ ih =>
    have hnone := List.filter_eq_nil_iff.2 fun line hline => Bool.eq_false_iff.1 (hi.not_isMark line hline)
    rw [List.flatMap_cons, List.filter_append, hnone, ih, List.nil_append]
  | holds _ _ hlines _ ih =>
    rw [List.flatMap_cons, List.filter_append, hlines.filter_isMark, ih, List.flatMap_cons]

theorem opened (h : Keeps p is vs) : Region.opened (File.mk is).lines = none := by
  rw [← opened_filter, h.filter_lines]
  exact p.opened_marks vs

/-- **Items that keep their place make a file whose variables have theirs.** -/
theorem places {f : File} (h : Keeps p f.items vs) : f.Places p vs where
  mutables := h.filter_objects
  marks := h.filter_lines
  names line hline hmark := by
    have hmem : line ∈ f.lines.filter isMark := List.mem_filter.2 ⟨hline, hmark⟩
    rw [h.filter_lines] at hmem
    obtain ⟨-, -, hmem⟩ := List.mem_flatMap.1 hmem
    exact Placement.names_iff_of_mem_marks hmem
  qualifies hqualified i hi o ho hvar := ((h.item hi ho).1 hvar).qualifies hqualified
  closed is hprefix := by
    obtain ⟨js, hjs⟩ := hprefix
    rw [← hjs] at h
    obtain ⟨ws, hws⟩ := h.left
    exact hws.opened
  placed i hi o ho := (h.item hi ho).1
  const i hi o ho := (h.item hi ho).2

end Keeps

/-! ## Openings and ends of files -/

namespace File

variable {stem brief : String} {includes : List String} {id : Identifier}

theorem isStill_headerStart : ∀ i ∈ headerStart stem brief includes id, i.IsStill := by
  intro i hi
  simp only [headerStart, List.mem_append, List.mem_cons, List.mem_map, List.not_mem_nil, or_false] at hi
  obtain ((rfl | rfl | rfl | rfl) | ⟨_, _, rfl⟩) | (rfl | rfl | rfl) := hi <;> trivial

theorem isStill_headerEnd : ∀ i ∈ headerEnd, i.IsStill := by
  intro i hi
  simp only [headerEnd, List.mem_cons, List.not_mem_nil, or_false] at hi
  obtain rfl | rfl := hi <;> trivial

theorem isStill_sourceStart : ∀ i ∈ sourceStart stem brief includes id, i.IsStill := by
  intro i hi
  simp only [sourceStart, List.mem_append, List.mem_cons, List.mem_map, List.not_mem_nil, or_false] at hi
  obtain ((rfl | rfl | rfl | rfl) | ⟨_, _, rfl⟩) | (rfl | rfl | rfl) := hi <;> trivial

end File

end BusNode
