import BusNode.Datapool.Code
import BusNode.Proofs.Code.Address
import BusNode.Proofs.Datapool.Check
import BusNode.Proofs.Success
/-!
# Initializers of Datapools

* `Element.IsCell` — the initializer of an element has one constant for each place of the element;
* `ElementList.IsStruct` — that of a list has a cell for each element, in order;
* `values_eq_ok`, `limits_eq_ok` — what the values object, the limits and the data sets are initialized with.
-/

namespace BusNode

/-! ## Cells -/

/-- The initializer of a content: for an array as many braced constants as the array is long, else one constant. -/
def Element.IsCell (e : Element) (c : Content) (cell : Expr) : Prop :=
  match e.arraySize with
  | some n => ∃ literals, List.Forall₂ (fun v s => Literal.scalar v = .ok s) c literals ∧
      literals.length = n.toNat ∧ cell = .list (literals.map .constant)
  | none => ∃ v literal, c = [v] ∧ Literal.scalar v = .ok literal ∧ cell = .constant literal

/-- The initializer of a list: a cell for each element, in order. -/
def ElementList.IsStruct (l : ElementList) (select : Element → Content) (rows : List Row) : Prop :=
  List.Forall₂ (fun e r => ∃ cell, e.IsCell (select e) cell ∧ r = .commented cell e.name) l.elements rows

theorem Element.IsCell.places_eq_nil {e : Element} {c : Content} {cell : Expr} (h : e.IsCell c cell) :
    cell.places = [] := by
  unfold IsCell at h
  split at h
  · obtain ⟨literals, -, -, rfl⟩ := h
    exact Expr.placesList_map_constant literals
  · obtain ⟨v, literal, -, -, rfl⟩ := h
    rfl

theorem ElementList.IsStruct.places_eq_nil {l : ElementList} {select : Element → Content} {rows : List Row}
    (h : l.IsStruct select rows) : Row.placesList rows = [] := by
  refine Row.placesList_eq_nil fun r hr => ?_
  obtain ⟨e, -, cell, hcell, rfl⟩ := exists_of_mem_right h hr
  exact hcell.places_eq_nil

namespace DatapoolCode

theorem isCell_of_contentExpr {e : Element} {c : Content} {cell : Expr} (h : contentExpr e c = .ok cell)
    (hc : e.Holds c) : e.IsCell c cell := by
  obtain ⟨literals, hliterals, h⟩ := bind_eq_ok.1 h
  have hliterals := mapM_eq_ok.1 hliterals
  have hcell := (pure_eq_ok.1 h).symm
  have hlength := hliterals.length_eq.symm.trans hc.1
  unfold Element.IsCell
  cases hsize : e.arraySize with
  | some n =>
    rw [Element.isArray, hsize, if_pos (by rfl)] at hcell
    rw [Element.count, hsize] at hlength
    exact ⟨literals, hliterals, hlength, hcell⟩
  | none =>
    rw [Element.isArray, hsize, if_neg (by decide)] at hcell
    rw [Element.count, hsize] at hlength
    obtain ⟨literal, rfl⟩ := List.length_eq_one_iff.1 hlength
    obtain ⟨v, rest, hv, hrest, rfl⟩ := List.forall₂_cons_right_iff.1 hliterals
    obtain rfl := List.forall₂_nil_right_iff.1 hrest
    exact ⟨v, literal, rfl, hv, hcell.trans (by rw [String.intercalate_singleton])⟩

theorem isStruct_of_contentRows {l : ElementList} {select : Element → Content} {rows : List Row}
    (h : contentRows l select = .ok rows) (hl : ∀ e ∈ l.elements, e.Holds (select e)) : l.IsStruct select rows := by
  refine ((List.forall₂_and_left _ _).2 ⟨hl, mapM_eq_ok.1 h⟩).imp fun e r ⟨he, hr⟩ => ?_
  obtain ⟨cell, hcell, hr⟩ := bind_eq_ok.1 hr
  exact ⟨cell, isCell_of_contentExpr hcell he, (pure_eq_ok.1 hr).symm⟩

/-! ## Objects -/

variable {x : DatapoolCode} {l : ElementList}

/-- The values object has a struct for each list with elements. -/
def HoldsDefaults (x : DatapoolCode) (rows : List Row) : Prop :=
  List.Forall₂ (fun l r => ∃ cells, r = .nested cells (some l.name) ∧ l.IsStruct Element.default cells)
    x.datapool.filledLists rows

/-- The table of data sets has a struct for each data set of the list. -/
def HoldsDataSets (l : ElementList) (rows : List Row) : Prop :=
  List.Forall₂ (fun s r => ∃ cells, r = .nested cells (some s.1.name) ∧
    l.IsStruct (fun e => e.dataSetValues.getD s.2 []) cells) l.dataSets.zipIdx rows

theorem HoldsDefaults.places_eq_nil {rows : List Row} (h : x.HoldsDefaults rows) : Row.placesList rows = [] := by
  refine Row.placesList_eq_nil fun r hr => ?_
  obtain ⟨l, -, cells, rfl, hcells⟩ := exists_of_mem_right h hr
  exact hcells.places_eq_nil

theorem HoldsDataSets.places_eq_nil {rows : List Row} (h : HoldsDataSets l rows) : Row.placesList rows = [] := by
  refine Row.placesList_eq_nil fun r hr => ?_
  obtain ⟨s, -, cells, rfl, hcells⟩ := exists_of_mem_right h hr
  exact hcells.places_eq_nil

theorem values_eq_ok {i : Item} (h : x.values = .ok i)
    (hd : ∀ l ∈ x.datapool.lists, ∀ e ∈ l.elements, e.Fits l.dataSets.length) :
    ∃ rows, x.HoldsDefaults rows ∧ i = .object (x.valuesObject .shared) rows (some x.placement) := by
  obtain ⟨rows, hrows, h⟩ := bind_eq_ok.1 h
  have hfits : ∀ l ∈ x.datapool.filledLists, ∀ e ∈ l.elements, e.Holds e.default :=
    fun l hl e he => (hd l (List.mem_filter.1 hl).1 e he).default
  refine ⟨rows, ?_, (pure_eq_ok.1 h).symm⟩
  refine ((List.forall₂_and_left _ _).2 ⟨hfits, mapM_eq_ok.1 hrows⟩).imp fun l r ⟨hl, hr⟩ => ?_
  obtain ⟨cells, hcells, hr⟩ := bind_eq_ok.1 hr
  exact ⟨cells, (pure_eq_ok.1 hr).symm, isStruct_of_contentRows hcells hl⟩

theorem limits_eq_ok {items : List Item} (h : x.limits l = .ok items)
    (hl : ∀ e ∈ l.elements, e.Fits l.dataSets.length) :
    ∃ least greatest sets, l.IsStruct Element.min least ∧ l.IsStruct Element.max greatest ∧ HoldsDataSets l sets ∧
      items = [Item.blank, .object (.record (x.datapool.listType l) (x.datapool.minName l)) least none,
        .blank, .object (.record (x.datapool.listType l) (x.datapool.maxName l)) greatest none] ++
        if l.dataSets.isEmpty then []
        else [Item.blank, .object (.table (x.datapool.listType l) (x.datapool.dataSetName l) l.dataSets.length) sets
          none] := by
  obtain ⟨least, hleast, h⟩ := bind_eq_ok.1 h
  obtain ⟨greatest, hgreatest, h⟩ := bind_eq_ok.1 h
  obtain ⟨sets, hsets, h⟩ := bind_eq_ok.1 h
  have hindex : ∀ s ∈ l.dataSets.zipIdx, ∀ e ∈ l.elements, e.Holds (e.dataSetValues.getD s.2 []) :=
    fun s hs e he => (hl e he).dataSet (List.mem_zipIdx' hs).1
  refine ⟨least, greatest, sets, isStruct_of_contentRows hleast fun e he => (hl e he).min,
    isStruct_of_contentRows hgreatest fun e he => (hl e he).max, ?_, (pure_eq_ok.1 h).symm⟩
  refine ((List.forall₂_and_left _ _).2 ⟨hindex, mapM_eq_ok.1 hsets⟩).imp fun s r ⟨hs, hr⟩ => ?_
  obtain ⟨cells, hcells, hr⟩ := bind_eq_ok.1 hr
  exact ⟨cells, (pure_eq_ok.1 hr).symm, isStruct_of_contentRows hcells hs⟩

end DatapoolCode

end BusNode
