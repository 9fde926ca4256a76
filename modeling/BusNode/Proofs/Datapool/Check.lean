import BusNode.Datapool.Check
import Mathlib.Logic.Basic
import Mathlib.Data.List.GetD
/-!
# What the check of a Datapool leaves

* `Element.Fits` — an element has a usable factor, a content for each data set, and contents of its length and type;
* `Element.fault?_eq_none`, `Datapool.fault?_eq_none` — just such elements, in lists of few enough data sets, pass.
-/

namespace BusNode

namespace Element

/-- A content of the element: as many values as it holds, of its type. -/
def Holds (e : Element) (c : Content) : Prop := c.length = e.count.toNat ∧ ∀ v ∈ c, v.type = e.type

/-- An element of a list with `sets` data sets. -/
structure Fits (sets : Nat) (e : Element) : Prop where
  factor : e.hasValidFactor = true
  dataSets : e.dataSetValues.length = sets
  contents : ∀ c ∈ e.contents, e.Holds c

theorem contentFault?_eq_none {e : Element} {c : Content} : e.contentFault? c = none ↔ e.Holds c := by
  unfold contentFault? Holds
  split
  · rename_i h
    exact iff_of_false (by simp) fun hc => h hc.1
  · rename_i h
    rw [Option.map_eq_none_iff, List.find?_eq_none]
    simp only [decide_eq_true_eq, not_not]
    exact ⟨fun hc => ⟨not_not.1 h, hc⟩, fun hc => hc.2⟩

theorem fault?_eq_none {e : Element} {sets : Nat} : e.fault? sets = none ↔ e.Fits sets := by
  unfold fault?
  split
  · rename_i h
    exact iff_of_false (by simp) fun he => by simp [he.factor] at h
  · rename_i hfactor
    have hfactor : e.hasValidFactor = true := by simpa using hfactor
    split
    · rename_i h
      exact iff_of_false (by simp) fun he => h he.dataSets
    · rename_i hsets
      rw [List.findSome?_eq_none_iff]
      simp only [contentFault?_eq_none]
      exact ⟨fun hc => ⟨hfactor, not_not.1 hsets, hc⟩, fun he => he.contents⟩

namespace Fits

variable {e : Element} {sets : Nat} (h : e.Fits sets)
include h

theorem default : e.Holds e.default := h.contents _ (by simp [Element.contents])
theorem min : e.Holds e.min := h.contents _ (by simp [Element.contents])
theorem max : e.Holds e.max := h.contents _ (by simp [Element.contents])

/-- The content for a data set of the list. -/
theorem dataSet {i : Nat} (hi : i < sets) : e.Holds (e.dataSetValues.getD i []) := by
  have hi : i < e.dataSetValues.length := h.dataSets.symm ▸ hi
  rw [List.getD_eq_getElem _ _ hi]
  exact h.contents _ (by simp [Element.contents])

end Fits

end Element

namespace Datapool

theorem listFault?_eq_none {d : Datapool} {l : ElementList} :
    d.listFault? l = none ↔ l.dataSets.length ≤ maxDataSets ∧ ∀ e ∈ l.elements, e.Fits l.dataSets.length := by
  unfold listFault?
  split
  · rename_i h
    exact iff_of_false (by simp) fun hl => by omega
  · rename_i h
    rw [List.findSome?_eq_none_iff]
    simp only [Option.map_eq_none_iff, Element.fault?_eq_none]
    exact ⟨fun hl => ⟨Nat.le_of_not_lt h, hl⟩, fun hl => hl.2⟩

/-- **A Datapool without fault** has an element, and its lists and elements are within their bounds. -/
theorem fault?_eq_none {d : Datapool} :
    d.fault? = none ↔ d.isEmpty = false ∧
      ∀ l ∈ d.lists, l.dataSets.length ≤ maxDataSets ∧ ∀ e ∈ l.elements, e.Fits l.dataSets.length := by
  unfold fault?
  split
  · rename_i h
    exact iff_of_false (by simp) fun hd => by simp [hd.1] at h
  · rename_i h
    rw [List.findSome?_eq_none_iff]
    simp only [listFault?_eq_none]
    exact ⟨fun hd => ⟨by simpa using h, hd⟩, fun hd => hd.2⟩

end Datapool

end BusNode
