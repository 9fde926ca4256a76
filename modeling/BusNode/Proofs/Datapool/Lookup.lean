import BusNode.Proofs.Datapool.Code
/-!
# Looking up data sets

An element has a content for every data set of its list; generation takes it by the index of the data set.

* `DatapoolCode.Lookup.generate` — the generation that stops where an index is out of bounds;
* `DatapoolCode.Lookup.generate_eq` — it is the generation, so that no index ever is.
-/

namespace BusNode

section MapError

variable {ε ε' α β : Type}

theorem mapError_bind (x : Except ε α) (f : α → Except ε β) (g : ε → ε') :
    (x >>= f).mapError g = x.mapError g >>= fun a => (f a).mapError g := by
  cases x <;> rfl

theorem mapError_pure (a : α) (g : ε → ε') : (pure a : Except ε α).mapError g = pure a := rfl

theorem mapError_mapM (f : α → Except ε β) (l : List α) (g : ε → ε') :
    (l.mapM f).mapError g = l.mapM fun a => (f a).mapError g := by
  induction l with
  | nil => rfl
  | cons a l ih => simp only [List.mapM_cons, mapError_bind, mapError_pure, ih]

end MapError

namespace DatapoolCode

namespace Lookup

/-- What ends a generation. -/
inductive Failure where
  | stopped (cause : Stop)
  | outOfBounds (index length : Nat)

/-- A number without literal. -/
def Failure.literal (cause : LiteralError) : Failure := .stopped (.literal cause)

/-- The content of an element for a data set. -/
def content (e : Element) (i : Nat) : Except Failure Content :=
  match e.dataSetValues[i]? with
  | some c => .ok c
  | none => .error (.outOfBounds i e.dataSetValues.length)

/-- The rows of a data set. -/
def dataSet (l : ElementList) (i : Nat) : Except Failure (List Row) :=
  l.elements.mapM fun e => do
    let c ← content e i
    return .commented (← (contentExpr e c).mapError .literal) e.name

def limits (x : DatapoolCode) (l : ElementList) : Except Failure (List Item) := do
  let d := x.datapool
  let least ← (contentRows l Element.min).mapError .literal
  let greatest ← (contentRows l Element.max).mapError .literal
  let sets ← l.dataSets.zipIdx.mapM fun (s, i) => return Row.nested (← dataSet l i) (some s.name)
  return [Item.blank, .object (.record (d.listType l) (d.minName l)) least none,
      .blank, .object (.record (d.listType l) (d.maxName l)) greatest none] ++
    if l.dataSets.isEmpty then []
    else [Item.blank, .object (.table (d.listType l) (d.dataSetName l) l.dataSets.length) sets none]

def listTables (x : DatapoolCode) (l : ElementList) : Except Failure (List Item) := do
  if l.elements.isEmpty then return []
  let limits ← if x.isOwn then limits x l else pure []
  let rows ← (x.elementRows l).mapError .stopped
  return limits ++ [Item.blank,
    .object (.table "T_osy_dpa_element_definition" (x.datapool.elementTableName l) l.elements.length) rows none]

def source (x : DatapoolCode) (id : Identifier) : Except Failure File := do
  let values ← if x.isOwn then do pure [Item.heading "Global Variables", ← x.values.mapError .literal] else pure []
  let tables ← x.datapool.lists.mapM (listTables x)
  return ⟨x.sourceItems id values tables (← x.scratchLength.mapError .stopped)⟩

def generate (x : DatapoolCode) (id : Identifier) : Except Failure Pair := do
  x.check.result.mapError fun cause => .stopped (.refused cause)
  let header ← (x.header id).mapError .literal
  return ⟨x.datapool.stem, header, ← source x id⟩

/-! ## Accesses -/

variable {x : DatapoolCode} {l : ElementList} {id : Identifier}

theorem mapError_literal {α : Type} (y : Except LiteralError α) :
    (y.mapError Stop.literal).mapError Failure.stopped = y.mapError .literal := by
  cases y <;> rfl

theorem content_eq {e : Element} {i : Nat} (h : i < e.dataSetValues.length) :
    content e i = .ok (e.dataSetValues.getD i []) := by
  unfold content
  rw [List.getElem?_eq_getElem h, List.getD_eq_getElem _ _ h]

theorem dataSet_eq {i : Nat} (h : ∀ e ∈ l.elements, i < e.dataSetValues.length) :
    dataSet l i = (contentRows l fun e => e.dataSetValues.getD i []).mapError .literal := by
  unfold dataSet contentRows
  rw [mapError_mapM]
  refine mapM_congr fun e he => ?_
  rw [content_eq (h e he), mapError_bind]
  rfl

section Sets

variable (hsets : ∀ e ∈ l.elements, e.dataSetValues.length = l.dataSets.length)
include hsets

theorem limits_eq : limits x l = (x.limits l).mapError .literal := by
  have hset : ∀ s ∈ l.dataSets.zipIdx, dataSet l s.2 =
      (contentRows l fun e => e.dataSetValues.getD s.2 []).mapError .literal := by
    intro s hs
    exact dataSet_eq fun e he => hsets e he ▸ (List.mem_zipIdx' hs).1
  unfold limits DatapoolCode.limits
  simp only [mapError_bind, mapError_mapM, mapError_pure]
  refine bind_congr fun least => bind_congr fun greatest => ?_
  rw [mapM_congr fun s hs => by rw [hset s hs]]

theorem listTables_eq : listTables x l = (x.listTables l).mapError .stopped := by
  unfold listTables DatapoolCode.listTables
  split
  · rfl
  · cases x.isOwn with
    | true =>
      simp only [if_true, mapError_bind, mapError_pure, mapError_literal, limits_eq hsets]
    | false =>
      simp only [Bool.false_eq_true, if_false, mapError_bind, mapError_pure]

end Sets

theorem source_eq (hsets : ∀ l ∈ x.datapool.lists, ∀ e ∈ l.elements, e.dataSetValues.length = l.dataSets.length) :
    source x id = (x.source id).mapError .stopped := by
  have htables : x.datapool.lists.mapM (listTables x) = (x.datapool.lists.mapM x.listTables).mapError .stopped := by
    rw [mapError_mapM]
    exact mapM_congr fun l hl => listTables_eq (hsets l hl)
  unfold source DatapoolCode.source
  cases x.isOwn with
  | true =>
    simp only [if_true, mapError_bind, mapError_pure, mapError_literal, htables]
  | false =>
    simp only [Bool.false_eq_true, if_false, mapError_bind, mapError_pure, htables]

/-- Where the check leaves a Datapool, every data set is found; where it leaves none, nothing is looked up. -/
theorem generate_eq (x : DatapoolCode) (id : Identifier) :
    generate x id = (x.generate id).result.mapError .stopped := by
  unfold generate DatapoolCode.generate
  simp only [Report.result_bind, Report.result_lift, Report.result_ofExcept, Report.result_tell, Report.result_pure,
    mapError_bind]
  cases hcheck : x.check.result with
  -- a Datapool that the check refuses is never looked into
  | error cause => rfl
  | ok u =>
    have hfault := (Datapool.fault?_eq_none.1 (check_eq_ok.1 hcheck).2).2
    rw [source_eq fun l hl e he => ((hfault l hl).2 e he).dataSets]
    cases x.header id with
    | error cause => rfl
    | ok header => cases x.source id <;> rfl

end Lookup

end DatapoolCode

end BusNode
