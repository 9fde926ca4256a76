import BusNode.Proofs.Code.Literal
import BusNode.Proofs.Datapool.Lookup
import BusNode.Proofs.Datapool.Shape
/-!
# What a Datapool has code for

* `Datapool.Breaks` — what the check of a Datapool finds;
* `DatapoolCode.Accepts` — what a Datapool must be: what the check asks for, and numbers wherever a literal is written;
* `DatapoolCode.SizesFit` — what no check asks for: sizes that are words;
* `DatapoolCode.HasFault` — the errors of one that is not accepted, each with what is wrong;
* `datapool_acceptance` — a pair is generated just of what is accepted and fits, the public scope is the only thing that
  is not supported, every data set that is looked up is there, and what is accepted and does not fit ends the run;
* `accepted_archive_overflows` — a Datapool that is accepted, and ends the run.

The check comes first, so that the literals are those of elements which passed it.
-/

namespace BusNode

namespace Element

/-- The factor is a number, and the number that its literal stands for is above zero. -/
def HasFactor (e : Element) : Prop :=
  e.factor.isFinite = true ∧ ∃ f, Literal.rounded e.factor = .ok f ∧ f.isPositive = true ∧ f.isFinite = true

theorem hasValidFactor_iff {e : Element} : e.hasValidFactor = true ↔ e.HasFactor := by
  unfold hasValidFactor HasFactor
  cases Literal.rounded e.factor with
  | ok f => simp
  | error cause => simp

/-- All values of the element are numbers. -/
def IsFinite (e : Element) : Prop := ∀ c ∈ e.contents, ∀ v ∈ c, v.isFinite = true

/-- What is wrong with an element of a list with `sets` data sets. -/
inductive Breaks (sets : Nat) (e : Element) : ElementFault → Prop
  | factor (h : ¬e.HasFactor) : Breaks sets e (.factor e.factor)
  | dataSets (h : e.dataSetValues.length ≠ sets) : Breaks sets e (.dataSets e.dataSetValues.length sets)
  | length {c : Content} (hc : c ∈ e.contents) (h : c.length ≠ e.count.toNat) :
    Breaks sets e (.length e.count.toNat c.length)
  | type {c : Content} {v : Scalar} (hc : c ∈ e.contents) (hv : v ∈ c) (h : v.type ≠ e.type) :
    Breaks sets e (.type e.type v.type)

theorem breaks_of_fault? {e : Element} {sets : Nat} {fault : ElementFault} (h : e.fault? sets = some fault) :
    e.Breaks sets fault := by
  unfold fault? at h
  split at h
  · rename_i hfactor
    cases h
    refine .factor fun he => ?_
    rw [hasValidFactor_iff.2 he] at hfactor
    cases hfactor
  · split at h
    · rename_i hsets
      cases h
      exact .dataSets hsets
    · obtain ⟨c, hc, h⟩ := List.exists_of_findSome?_eq_some h
      unfold contentFault? at h
      split at h
      · rename_i hlength
        cases h
        exact .length hc hlength
      · obtain ⟨v, hv, rfl⟩ := Option.map_eq_some_iff.1 h
        exact .type hc (List.mem_of_find?_eq_some hv) (by simpa using List.find?_some hv)

end Element

namespace Datapool

theorem isEmpty_eq_false_iff {d : Datapool} : d.isEmpty = false ↔ ∃ l ∈ d.lists, l.elements ≠ [] := by
  have hzero : d.elementCount = 0 ↔ ∀ l ∈ d.lists, l.elements = [] := by
    unfold elementCount
    rw [List.sum_eq_zero_iff_forall_eq_nat]
    simp
  unfold isEmpty
  rw [decide_eq_false_iff_not, hzero]
  simp

/-- What is wrong with a Datapool, told with the names of the list and the element. -/
inductive Breaks (d : Datapool) : Structural → Prop
  | noElement (h : ∀ l ∈ d.lists, l.elements = []) : d.Breaks (.emptyDatapool d.name)
  | dataSets {l : ElementList} (hl : l ∈ d.lists) (h : 255 < l.dataSets.length) :
    d.Breaks (.tooManyDataSets l.name d.name l.dataSets.length)
  | element {l : ElementList} {e : Element} {fault : ElementFault} (hl : l ∈ d.lists) (he : e ∈ l.elements)
    (h : e.Breaks l.dataSets.length fault) : d.Breaks (.element s!"{d.name}::{l.name}::{e.name}" fault)

theorem breaks_of_fault? {d : Datapool} {fault : Structural} (h : d.fault? = some fault) : d.Breaks fault := by
  unfold fault? at h
  split at h
  · rename_i hempty
    cases h
    refine .noElement fun l hl => ?_
    by_contra hne
    rw [isEmpty_eq_false_iff.2 ⟨l, hl, hne⟩] at hempty
    cases hempty
  · obtain ⟨l, hl, h⟩ := List.exists_of_findSome?_eq_some h
    unfold listFault? at h
    split at h
    · rename_i hsets
      cases h
      exact .dataSets hl hsets
    · obtain ⟨e, he, h⟩ := List.exists_of_findSome?_eq_some h
      obtain ⟨cause, hcause, rfl⟩ := Option.map_eq_some_iff.1 h
      exact .element hl he (Element.breaks_of_fault? hcause)

end Datapool

namespace DatapoolCode

/-! ## Conditions -/

structure Accepts (x : DatapoolCode) : Prop where
  scope : ¬(x.linkage = .remotePublic ∧ x.version < 4)
  hasElement : ∃ l ∈ x.datapool.lists, l.elements ≠ []
  dataSets : ∀ l ∈ x.datapool.lists, l.dataSets.length ≤ 255
  factor : ∀ l ∈ x.datapool.lists, ∀ e ∈ l.elements, e.HasFactor
  dataSetValues : ∀ l ∈ x.datapool.lists, ∀ e ∈ l.elements, e.dataSetValues.length = l.dataSets.length
  contents : ∀ l ∈ x.datapool.lists, ∀ e ∈ l.elements, ∀ c ∈ e.contents,
    c.length = e.count.toNat ∧ ∀ v ∈ c, v.type = e.type
  values : x.linkage = .own → ∀ l ∈ x.datapool.lists, ∀ e ∈ l.elements, e.IsFinite
  offset : x.linkage = .own → x.wantsScaling = true → 5 ≤ x.version →
    ∀ l ∈ x.datapool.lists, ∀ e ∈ l.elements, e.isScaled = true → e.offset.isFinite = true

/-- The sizes that are written are words: those of the elements, and those of the lists if there is a buffer for
them. -/
structure SizesFit (x : DatapoolCode) : Prop where
  elements : ∀ l ∈ x.datapool.lists, ∀ e ∈ l.elements, e.bytes < 2 ^ 32
  scratch : x.linkage = .own → x.datapool.kind.isNvm = true → 5 ≤ x.version →
    ∀ l ∈ x.datapool.lists, l.storedBytes < 2 ^ 32

/-- A value that is to be written, and has no literal. -/
inductive HasUnprintable (x : DatapoolCode) : LiteralError → Prop
  | value (hown : x.linkage = .own) {l : ElementList} {e : Element} {c : Content} {v : Scalar} {cause : LiteralError}
    (hl : l ∈ x.datapool.lists) (he : e ∈ l.elements) (hc : c ∈ e.contents) (hv : v ∈ c) (h : cause.IsOf v) :
    x.HasUnprintable cause
  | offset (hown : x.linkage = .own) (hwants : x.wantsScaling = true) (hversion : 5 ≤ x.version) {l : ElementList}
    {e : Element} (hl : l ∈ x.datapool.lists) (he : e ∈ l.elements) (hscaled : e.isScaled = true)
    (h : e.offset.isFinite = false) : x.HasUnprintable (.notFinite e.offset)

/-- What is wrong in the configuration. -/
inductive HasFault (x : DatapoolCode) : ExportError → Prop
  | check {fault : Structural} (h : x.datapool.Breaks fault) : x.HasFault (.structural fault)
  | literal {cause : LiteralError} (h : x.HasUnprintable cause) : x.HasFault (.literal cause)

inductive Refuses (x : DatapoolCode) : ExportError → Prop
  | scope (h : x.linkage = .remotePublic ∧ x.version < 4) : x.Refuses (.unsupported (.publicScope x.datapool.name))
  | fault {cause : ExportError} (hscope : ¬(x.linkage = .remotePublic ∧ x.version < 4)) (h : x.HasFault cause) :
    x.Refuses cause

/-- Why there is no pair. -/
inductive Stops (x : DatapoolCode) : Stop → Prop
  | refused {cause : ExportError} (h : x.Refuses cause) : x.Stops (.refused cause)
  | overflow (h : ¬x.SizesFit) : x.Stops .overflow

variable {x : DatapoolCode} {l : ElementList} {e : Element} {id : Identifier}

theorem hasScratchBuffer_iff :
    x.hasScratchBuffer = true ↔ x.linkage = .own ∧ x.datapool.kind.isNvm = true ∧ 5 ≤ x.version := by
  rw [hasScratchBuffer, Bool.and_eq_true, Bool.and_eq_true, decide_eq_true_iff, isOwn_iff, and_assoc, and_comm,
    and_assoc]

theorem hasScaling_iff : x.hasScaling = true ↔ x.wantsScaling = true ∧ 5 ≤ x.version ∧ x.linkage = .own := by
  rw [hasScaling, Bool.and_eq_true, Bool.and_eq_true, decide_eq_true_iff, isOwn_iff, and_assoc]

/-! ## Check -/

theorem decides_check : Decides x.check.result
    (¬(x.linkage = .remotePublic ∧ x.version < 4) ∧ x.datapool.fault? = none) x.Refuses := by
  unfold check
  dsimp only
  split
  · rename_i h
    exact .error (fun hn => hn.1 h) (.scope h)
  · rename_i hscope
    split
    · rename_i fault hfault
      rw [Report.result_onError, Report.result_fail]
      refine .error (fun h => ?_) (.fault hscope (.check (Datapool.breaks_of_fault? hfault)))
      cases h.2.symm.trans hfault
    · rename_i hfault
      exact .ok () ⟨hscope, hfault⟩

/-! ## Initializers -/

theorem decides_contentExpr (e : Element) (c : Content) :
    Decides (contentExpr e c) (∀ v ∈ c, v.isFinite = true) fun cause => ∃ v ∈ c, cause.IsOf v :=
  .bind_pure (.mapM fun v hv => (Literal.decides_scalar v).mono fun _ h => ⟨v, hv, h⟩) _

section Owner

variable (hown : x.linkage = .own)
include hown

theorem decides_contentRows (hl : l ∈ x.datapool.lists) {select : Element → Content}
    (hselect : ∀ e ∈ l.elements, select e ∈ e.contents) :
    Decides (contentRows l select) (∀ e ∈ l.elements, ∀ v ∈ select e, v.isFinite = true) x.HasUnprintable := by
  refine .mapM fun e he => ((decides_contentExpr e (select e)).mono ?_).bind_pure _
  rintro cause ⟨v, hv, h⟩
  exact .value hown hl he (hselect e he) hv h

theorem decides_limits (hl : l ∈ x.datapool.lists)
    (hsets : ∀ e ∈ l.elements, e.dataSetValues.length = l.dataSets.length) : Decides (x.limits l)
    (∀ e ∈ l.elements, ∀ c ∈ e.min :: e.max :: e.dataSetValues, ∀ v ∈ c, v.isFinite = true) x.HasUnprintable := by
  have hmem : ∀ s ∈ l.dataSets.zipIdx, ∀ e ∈ l.elements, e.dataSetValues.getD s.2 [] ∈ e.dataSetValues := by
    intro s hs e he
    have hi : s.2 < e.dataSetValues.length := hsets e he ▸ (List.mem_zipIdx' hs).1
    rw [List.getD_eq_getElem _ _ hi]
    exact List.getElem_mem hi
  have hset : ∀ s ∈ l.dataSets.zipIdx, Decides (contentRows l fun e => e.dataSetValues.getD s.2 [])
      (∀ e ∈ l.elements, ∀ v ∈ e.dataSetValues.getD s.2 [], v.isFinite = true) x.HasUnprintable :=
    fun s hs => decides_contentRows hown hl fun e he => by
      simp only [Element.contents, List.mem_cons, hmem s hs e he, or_true]
  unfold limits
  refine Decides.congr ((decides_contentRows hown hl fun e _ => by simp [Element.contents]).bind fun least _ =>
    (decides_contentRows hown hl fun e _ => by simp [Element.contents]).bind fun greatest _ =>
    (Decides.mapM fun s hs => (hset s hs).bind_pure _).bind_pure _) ?_
  simp only [List.forall_mem_cons]
  constructor
  · rintro ⟨hmin, hmax, hrows⟩ e he
    refine ⟨hmin e he, hmax e he, fun c hc => ?_⟩
    obtain ⟨i, hi, rfl⟩ := List.getElem_of_mem hc
    have hi' : i < l.dataSets.length := hsets e he ▸ hi
    have hs : (l.dataSets[i], i) ∈ l.dataSets.zipIdx := List.mem_zipIdx_iff_getElem?.2 (List.getElem?_eq_getElem hi')
    have := hrows _ hs e he
    rwa [List.getD_eq_getElem _ _ hi] at this
  · intro h
    exact ⟨fun e he => (h e he).1, fun e he => (h e he).2.1,
      fun s hs e he => (h e he).2.2 _ (hmem s hs e he)⟩

theorem decides_values : Decides x.values
    (∀ l ∈ x.datapool.lists, ∀ e ∈ l.elements, ∀ v ∈ e.default, v.isFinite = true) x.HasUnprintable := by
  have hrows : ∀ l ∈ x.datapool.filledLists, Decides (contentRows l Element.default)
      (∀ e ∈ l.elements, ∀ v ∈ e.default, v.isFinite = true) x.HasUnprintable :=
    fun l hl => decides_contentRows hown (List.mem_filter.1 hl).1 fun e _ => by simp [Element.contents]
  refine Decides.congr ((Decides.mapM fun l hl => (hrows l hl).bind_pure _).bind_pure _) ?_
  constructor
  · intro h l hl e he
    refine h l (List.mem_filter.2 ⟨hl, ?_⟩) e he
    cases hnil : l.elements with
    | nil => rw [hnil] at he; cases he
    | cons a as => rfl
  · exact fun h l hl => h l (List.mem_filter.1 hl).1

end Owner

/-! ## Source -/

theorem decides_elementRows (hl : l ∈ x.datapool.lists) :
    Decides (x.elementRows l) (∀ e ∈ l.elements, e.bytes < 2 ^ 32) x.Stops := by
  refine .mapM fun e he => ?_
  rw [Element.size?_eq, Stop.unlessFits_word? fun size => (x.elementDefinition l e size).row]
  exact .ite_error fun hlarge => .overflow fun hfit => hlarge (hfit.elements l hl e he)

theorem decides_scratchLength : Decides x.scratchLength
    (x.hasScratchBuffer = true → ∀ l ∈ x.datapool.lists, l.storedBytes < 2 ^ 32) x.Stops := by
  rw [scratchLength_eq]
  refine .ite_ok fun hscratch => ?_
  obtain ⟨hown, hnvm, hversion⟩ := hasScratchBuffer_iff.1 hscratch
  exact (Decides.ite_error fun hlarge => .overflow fun hfit =>
    hlarge (Datapool.scratchBytes_lt_iff.2 (hfit.scratch hown hnvm hversion))).congr Datapool.scratchBytes_lt_iff

section Source

variable (hscope : ¬(x.linkage = .remotePublic ∧ x.version < 4))
include hscope

theorem Stops.literal {cause : LiteralError} (h : x.HasUnprintable cause) : x.Stops (.literal cause) :=
  .refused (.fault hscope (.literal h))

theorem decides_listTables (hl : l ∈ x.datapool.lists)
    (hsets : ∀ e ∈ l.elements, e.dataSetValues.length = l.dataSets.length) :
    Decides (x.listTables l) ((x.isOwn = true →
      ∀ e ∈ l.elements, ∀ c ∈ e.min :: e.max :: e.dataSetValues, ∀ v ∈ c, v.isFinite = true) ∧
      ∀ e ∈ l.elements, e.bytes < 2 ^ 32) x.Stops := by
  unfold listTables
  split
  · rename_i h
    rw [List.isEmpty_iff.1 h]
    exact .ok _ ⟨fun _ => List.forall_mem_nil _, List.forall_mem_nil _⟩
  · refine Decides.ite_bind (fun hown => ?_) (fun limits => ?_) ?_
    · exact (decides_limits (isOwn_iff.1 hown) hl hsets).mapError fun _ => Stops.literal hscope
    · exact (decides_elementRows hl).bind_pure _
    · exact (decides_elementRows hl).bind_pure _

theorem decides_source (hsets : ∀ l ∈ x.datapool.lists, ∀ e ∈ l.elements, e.dataSetValues.length = l.dataSets.length) :
    Decides (x.source id) ((x.isOwn = true → ∀ l ∈ x.datapool.lists, ∀ e ∈ l.elements, e.IsFinite) ∧ x.SizesFit)
      x.Stops := by
  have hrest (values : List Item) : Decides (do
      let tables ← x.datapool.lists.mapM x.listTables
      return (⟨x.sourceItems id values tables (← x.scratchLength)⟩ : File)) _ x.Stops :=
    (Decides.mapM fun l hl => decides_listTables hscope hl (hsets l hl)).bind fun _ _ =>
      decides_scratchLength.bind_pure _
  have hvalues (hown : x.isOwn = true) : Decides (x.values.mapError .literal) _ x.Stops :=
    (decides_values (isOwn_iff.1 hown)).mapError fun _ => Stops.literal hscope
  unfold source
  refine (Decides.ite_bind hvalues (fun i => hrest [.heading "Global Variables", i]) (hrest [])).congr ?_
  constructor
  · rintro ⟨hdefaults, hlists, hscratch⟩
    refine ⟨fun hown l hl e he => ?_, fun l hl => (hlists l hl).2, fun hown hnvm hversion => ?_⟩
    · exact List.forall_mem_cons.2 ⟨hdefaults hown l hl e he, (hlists l hl).1 hown e he⟩
    · exact hscratch (hasScratchBuffer_iff.2 ⟨hown, hnvm, hversion⟩)
  · rintro ⟨hfinite, hfit⟩
    have hcontents := fun hown l hl e he => List.forall_mem_cons.1 (hfinite hown l hl e he)
    refine ⟨fun hown l hl e he => (hcontents hown l hl e he).1, fun l hl => ⟨fun hown e he => ?_, ?_⟩, fun h => ?_⟩
    · exact (hcontents hown l hl e he).2
    · exact hfit.elements l hl
    · obtain ⟨hown, hnvm, hversion⟩ := hasScratchBuffer_iff.1 h
      exact hfit.scratch hown hnvm hversion

end Source

/-! ## Header -/

theorem decides_scalingDefines (hscaling : x.hasScaling = true) (hl : l ∈ x.datapool.lists) (he : e ∈ l.elements)
    (hscaled : e.isScaled = true) (hfactor : e.factor.isFinite = true) :
    Decides (x.scalingDefines l e) (e.offset.isFinite = true) x.HasUnprintable := by
  have hoffset : Decides (Literal.double e.offset) (e.offset.isFinite = true) x.HasUnprintable := by
    obtain ⟨hwants, hversion, hown⟩ := hasScaling_iff.1 hscaling
    refine (Literal.decides_double e.offset).mono fun cause h => ?_
    cases h with
    | double h => exact .offset hown hwants hversion hl he hscaled h
  have hliteral : Literal.double e.factor = .ok (e.factor.text .away Literal.layout) := if_pos hfactor
  unfold scalingDefines
  rw [hliteral]
  exact hoffset.bind_pure _

theorem decides_scaling (hscaling : x.hasScaling = true)
    (hfactor : ∀ l ∈ x.datapool.lists, ∀ e ∈ l.elements, e.factor.isFinite = true) :
    Decides x.scaling
      (∀ l ∈ x.datapool.lists, ∀ e ∈ l.elements, e.isScaled = true → e.offset.isFinite = true) x.HasUnprintable := by
  have hitems : Decides
      ((x.datapool.lists.flatMap fun l => (l.elements.filter Element.isScaled).map (l, ·)).mapM fun p =>
        x.scalingDefines p.1 p.2)
      (∀ p ∈ x.datapool.lists.flatMap fun l => (l.elements.filter Element.isScaled).map (l, ·),
        p.2.offset.isFinite = true) x.HasUnprintable := by
    refine .mapM fun p hp => ?_
    obtain ⟨l, hl, hp⟩ := List.mem_flatMap.1 hp
    obtain ⟨e, he, rfl⟩ := List.mem_map.1 hp
    obtain ⟨he, hscaled⟩ := List.mem_filter.1 he
    exact decides_scalingDefines hscaling hl he hscaled (hfactor l hl e he)
  refine (hitems.bind_pure _).congr ?_
  simp only [List.forall_mem_flatMap, List.forall_mem_map, List.mem_filter, and_imp]

theorem decides_header (hfactor : ∀ l ∈ x.datapool.lists, ∀ e ∈ l.elements, e.factor.isFinite = true) :
    Decides (x.header id) (x.hasScaling = true →
      ∀ l ∈ x.datapool.lists, ∀ e ∈ l.elements, e.isScaled = true → e.offset.isFinite = true) x.HasUnprintable := by
  unfold header
  refine (Decides.ite_bind (fun h => decides_scaling h hfactor) (fun scaling => ?_) ?_).congr (iff_of_eq (and_true _))
  · exact .ok _ trivial
  · exact .ok _ trivial

/-! ## Pairs -/

theorem accepts_iff : x.Accepts ↔
    (¬(x.linkage = .remotePublic ∧ x.version < 4) ∧ x.datapool.fault? = none) ∧
      (x.hasScaling = true →
        ∀ l ∈ x.datapool.lists, ∀ e ∈ l.elements, e.isScaled = true → e.offset.isFinite = true) ∧
      (x.isOwn = true → ∀ l ∈ x.datapool.lists, ∀ e ∈ l.elements, e.IsFinite) := by
  rw [Datapool.fault?_eq_none, Datapool.isEmpty_eq_false_iff, hasScaling_iff, isOwn_iff]
  constructor
  · intro h
    refine ⟨⟨h.scope, h.hasElement, fun l hl => ⟨h.dataSets l hl, fun e he => ?_⟩⟩, ?_, h.values⟩
    · exact ⟨Element.hasValidFactor_iff.2 (h.factor l hl e he), h.dataSetValues l hl e he, h.contents l hl e he⟩
    · exact fun hs => h.offset hs.2.2 hs.1 hs.2.1
  · rintro ⟨⟨hscope, hsome, hlists⟩, hoffset, hvalues⟩
    exact {
      scope := hscope
      hasElement := hsome
      dataSets := fun l hl => (hlists l hl).1
      factor := fun l hl e he => Element.hasValidFactor_iff.1 ((hlists l hl).2 e he).factor
      dataSetValues := fun l hl e he => ((hlists l hl).2 e he).dataSets
      contents := fun l hl e he => ((hlists l hl).2 e he).contents
      values := hvalues
      offset := fun hown hwants hversion => hoffset ⟨hwants, hversion, hown⟩ }

theorem decides_generate (id : Identifier) : Decides (x.generate id).result (x.Accepts ∧ x.SizesFit) x.Stops := by
  have hfiles (hcheck : x.check.result = .ok ()) : Decides (do
      let header ← (x.header id).mapError .literal
      return Pair.mk x.datapool.stem header (← x.source id))
      ((x.hasScaling = true →
          ∀ l ∈ x.datapool.lists, ∀ e ∈ l.elements, e.isScaled = true → e.offset.isFinite = true) ∧
        (x.isOwn = true → ∀ l ∈ x.datapool.lists, ∀ e ∈ l.elements, e.IsFinite) ∧ x.SizesFit) x.Stops := by
    obtain ⟨hscope, hfault⟩ := check_eq_ok.1 hcheck
    have hfits := (Datapool.fault?_eq_none.1 hfault).2
    have hfactor : ∀ l ∈ x.datapool.lists, ∀ e ∈ l.elements, e.factor.isFinite = true :=
      fun l hl e he => (Element.hasValidFactor_iff.1 ((hfits l hl).2 e he).factor).1
    have hsets : ∀ l ∈ x.datapool.lists, ∀ e ∈ l.elements, e.dataSetValues.length = l.dataSets.length :=
      fun l hl e he => ((hfits l hl).2 e he).dataSets
    exact ((decides_header hfactor).mapError fun _ => Stops.literal hscope).bind fun header _ =>
      (decides_source hscope hsets).bind_pure fun source => Pair.mk x.datapool.stem header source
  unfold generate
  simp only [Report.result_bind, Report.result_lift, Report.result_ofExcept, Report.result_tell, Report.result_pure]
  refine ((decides_check.mapError fun _ => .refused).bind fun _ hcheck => hfiles (mapError_eq_ok.1 hcheck)).congr ?_
  simp only [accepts_iff, and_assoc]

/-- Whether a pair is generated does not depend on its identifier. -/
theorem exists_generate_iff (id id' : Identifier) :
    (∃ pair, (x.generate id).result = .ok pair) ↔ ∃ pair, (x.generate id').result = .ok pair :=
  (decides_generate id).exists_ok_iff.trans (decides_generate id').exists_ok_iff.symm

/-! ## Faults -/

/-- What is accepted has nothing wrong. -/
theorem Accepts.not_breaks (h : x.Accepts) {fault : Structural} : ¬x.datapool.Breaks fault := by
  intro hbreaks
  cases hbreaks with
  | noElement hnone =>
    obtain ⟨l, hl, hne⟩ := h.hasElement
    exact hne (hnone l hl)
  | dataSets hl hmany => exact absurd (h.dataSets _ hl) (Nat.not_le.2 hmany)
  | element hl he hbreaks =>
    cases hbreaks with
    | factor hfactor => exact hfactor (h.factor _ hl _ he)
    | dataSets hsets => exact hsets (h.dataSetValues _ hl _ he)
    | length hc hlength => exact hlength (h.contents _ hl _ he _ hc).1
    | type hc hv htype => exact htype ((h.contents _ hl _ he _ hc).2 _ hv)

theorem Accepts.not_hasUnprintable (h : x.Accepts) {cause : LiteralError} : ¬x.HasUnprintable cause := by
  intro hunprintable
  cases hunprintable with
  | value hown hl he hc hv hcause =>
    have hfinite := h.values hown _ hl _ he _ hc _ hv
    cases hcause with
    | single hnot => exact Bool.false_ne_true (hnot.symm.trans hfinite)
    | double hnot => exact Bool.false_ne_true (hnot.symm.trans hfinite)
  | offset hown hwants hversion hl he hscaled hnot =>
    exact Bool.false_ne_true (hnot.symm.trans (h.offset hown hwants hversion _ hl _ he hscaled))

theorem Refuses.not_accepts {cause : ExportError} (h : x.Refuses cause) : ¬x.Accepts := by
  intro haccepts
  cases h with
  | scope hscope => exact haccepts.scope hscope
  | fault _ hfault =>
    cases hfault with
    | check hbreaks => exact haccepts.not_breaks hbreaks
    | literal hunprintable => exact haccepts.not_hasUnprintable hunprintable

theorem HasFault.kind {cause : ExportError} (h : x.HasFault cause) : cause.kind = .structural := by
  cases h <;> rfl

/-- The run of a sound Datapool ends where a size does not fit. -/
theorem generate_eq_overflow (haccepts : x.Accepts) (hlarge : ¬x.SizesFit) :
    (x.generate id).result = .error .overflow := by
  obtain ⟨stop, he⟩ := (decides_generate id).exists_error_iff.2 fun h => hlarge h.2
  obtain ⟨-, hcause⟩ := (decides_generate id).refuses _ he
  cases hcause with
  | refused hrefuses => exact absurd haccepts hrefuses.not_accepts
  | overflow _ => exact he

/-- **Just a pair of a sound Datapool with sizes that fit is generated**, the error of a failure tells what is wrong,
and no look-up of a data set fails on the way. No error tells that a size does not fit: the run of a sound Datapool
ends there. -/
theorem datapool_acceptance (x : DatapoolCode) (id : Identifier) :
    ((∃ pair, (x.generate id).result = .ok pair) ↔ x.Accepts ∧ x.SizesFit) ∧
      (∀ e, (x.generate id).result = .error (.refused e) → ¬x.Accepts ∧
        ((x.linkage = .remotePublic ∧ x.version < 4) ∧ e = .unsupported (.publicScope x.datapool.name) ∧
            e.kind = .unsupported ∨
          ¬(x.linkage = .remotePublic ∧ x.version < 4) ∧ x.HasFault e ∧ e.kind = .structural)) ∧
      ((x.generate id).result = .error .overflow → ¬x.SizesFit) ∧
      (x.Accepts → ¬x.SizesFit → (x.generate id).result = .error .overflow) ∧
      Lookup.generate x id = (x.generate id).result.mapError .stopped := by
  have hdecides := decides_generate (x := x) id
  refine ⟨hdecides.exists_ok_iff, fun e he => ?_, fun he => ?_, generate_eq_overflow, Lookup.generate_eq x id⟩
  · obtain ⟨-, hcause⟩ := hdecides.refuses _ he
    cases hcause with
    | refused hrefuses =>
      refine ⟨hrefuses.not_accepts, ?_⟩
      cases hrefuses with
      | scope h => exact .inl ⟨h, rfl, rfl⟩
      | fault hscope h => exact .inr ⟨hscope, h, h.kind⟩
  · obtain ⟨-, hcause⟩ := hdecides.refuses _ he
    cases hcause with
    | overflow hlarge => exact hlarge

theorem datapool_acceptance_recipe : (recipeCode .own).Accepts :=
  ((datapool_acceptance (recipeCode .own) ⟨"00000000"⟩).1.1 (exists_eq_ok (by decide +kernel))).1

/-! ## A size that does not fit -/

/-- A log of doubles. -/
def log (name : String) (n : UInt32) : Element where
  name
  comment := ""
  type := .f64
  arraySize := some n
  default := List.replicate n.toNat (.f64 .zero)
  min := List.replicate n.toNat (.f64 .zero)
  max := List.replicate n.toNat (.f64 .zero)
  dataSetValues := []
  factor := .one
  offset := .zero
  unit := ""
  access := .readWrite
  reportsChanges := false
  nvmStartAddress := 0

/-- The logs in a list with a checksum. -/
def history (logs : List Element) : ElementList := { ElementList.new "History" with nvmCrc := true, elements := logs }

def archive (logs : List Element) : Datapool := { Datapool.new "Archive" .nvm (some 0) with lists := [history logs] }

def archiveCode (logs : List Element) (version : Nat) : DatapoolCode :=
  ⟨"Panel", archive logs, 0, version, false, .own, 3, 0⟩

/-- The archive is accepted for any lengths of its logs. -/
theorem accepts_archive {logs : List Element} (hne : logs ≠ []) (hlogs : ∀ e ∈ logs, ∃ name n, e = log name n)
    (version : Nat) : (archiveCode logs version).Accepts := by
  have hlists {P : ElementList → Prop} (h : P (history logs)) : ∀ l ∈ (archive logs).lists, P l :=
    List.forall_mem_singleton.2 h
  have helements {P : Element → Prop} (h : ∀ name n, P (log name n)) : ∀ e ∈ (history logs).elements, P e := by
    intro e he
    obtain ⟨name, n, rfl⟩ := hlogs e he
    exact h name n
  have hfactor : (log "" 0).HasFactor := Element.hasValidFactor_iff.1 (by decide +kernel)
  have hcontent (name : String) (n : UInt32) :
      ∀ c ∈ (log name n).contents, c = List.replicate n.toNat (.f64 .zero) := by
    simp [Element.contents, log]
  exact {
    scope := fun h => by cases h.1
    hasElement := ⟨history logs, .head _, hne⟩
    dataSets := hlists (Nat.zero_le _)
    factor := hlists (helements fun _ _ => hfactor)
    dataSetValues := hlists (helements fun _ _ => rfl)
    contents := hlists (helements fun name n c hc => by
      rw [hcontent name n c hc]
      exact ⟨List.length_replicate, fun v hv => List.eq_of_mem_replicate hv ▸ rfl⟩)
    values := fun _ => hlists (helements fun name n c hc v hv => by
      rw [hcontent name n c hc] at hv
      exact List.eq_of_mem_replicate hv ▸ rfl)
    offset := fun _ h => by cases h }

/-- A log of 2^29 doubles is all right but for its size, which no check asks for. -/
theorem accepted_archive_overflows : (archiveCode [log "Log" 536870912] 5).Accepts ∧
    ((archiveCode [log "Log" 536870912] 5).generate ⟨"00000000"⟩).result = .error .overflow := by
  have haccepts : (archiveCode [log "Log" 536870912] 5).Accepts :=
    accepts_archive (List.cons_ne_nil _ _) (List.forall_mem_singleton.2 ⟨_, _, rfl⟩) 5
  have hbytes : (log "Log" 536870912).bytes = 2 ^ 32 := rfl
  refine ⟨haccepts, generate_eq_overflow haccepts fun hfit => ?_⟩
  have hlog := hfit.elements _ (.head _) _ (.head _)
  rw [hbytes] at hlog
  exact Nat.lt_irrefl _ hlog

end DatapoolCode

end BusNode
