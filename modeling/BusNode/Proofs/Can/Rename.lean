import BusNode.Can.Rename
import Mathlib.Data.List.Basic
/-!
# What names of signals leave as it is

* `Datapool.renameSignals_eq` — naming elements after messages changes nothing but the lists;
* `Datapool.shapes_renameSignals` — it keeps the lists, their names and the number of their elements;
* `Datapool.elementName?` — the name of an element after that, which has its place under every protocol
  (`Datapool.exists_element`).
-/

namespace BusNode

open Can

/-! ## Shapes -/

/-- What is the same before and after a change at one place is the same for the whole list. -/
theorem map_modify_of_eq {α β : Type} {f : α → α} {g : α → β} (h : ∀ a, g (f a) = g a) (l : List α) (i : Nat) :
    (l.modify i f).map g = l.map g := by
  induction l generalizing i with
  | nil => rw [List.modify_nil]
  | cons a l ih =>
    cases i with
    | zero => exact congrArg (· :: l.map g) (h a)
    | succ i => exact congrArg (g a :: ·) (ih i)

/-- What every step keeps, an accumulation over a list keeps. -/
theorem foldl_eq_of_step {α β σ : Type} {f : σ → α → σ} {g : σ → β} (h : ∀ s a, g (f s a) = g s) (l : List α) (s : σ) :
    g (l.foldl f s) = g s := by
  induction l generalizing s with
  | nil => rfl
  | cons a l ih => exact (ih (f s a)).trans (h s a)

namespace ElementList

/-- The name of the list and the number of its elements. -/
def shape (l : ElementList) : String × Nat := (l.name, l.elements.length)

theorem shape_renameSignal (before : ElementList) (m : Message) (l : ElementList) (s : Signal) :
    (before.renameSignal m l s).shape = l.shape := by
  unfold renameSignal
  split
  · rfl
  · exact congrArg (l.name, ·) (List.length_modify ..)

theorem shape_renameSignals (l : ElementList) (messages : List Message) :
    (l.renameSignals messages).shape = l.shape :=
  foldl_eq_of_step (fun l' m => foldl_eq_of_step (shape_renameSignal l m) m.signals l') messages l

end ElementList

namespace Datapool

/-- The shapes of the lists. -/
def shapes (d : Datapool) : List (String × Nat) := d.lists.map ElementList.shape

theorem shapes_renameInterface (d : Datapool) (interface : Nat) (c : Container) :
    (d.renameInterface interface c).shapes = d.shapes := by
  unfold shapes renameInterface
  rw [map_modify_of_eq fun l => l.shape_renameSignals _, map_modify_of_eq fun l => l.shape_renameSignals _]

/-- All but the lists. -/
def bare (d : Datapool) : Datapool := { d with lists := [] }

theorem bare_renameSignals (d : Datapool) (p : Protocol) : (d.renameSignals p).bare = d.bare := by
  unfold renameSignals
  refine foldl_eq_of_step (g := bare) (fun d' c => ?_) _ d
  rfl

/-- Naming elements after messages changes the lists only. -/
theorem renameSignals_eq (d : Datapool) (p : Protocol) : ∃ lists, d.renameSignals p = { d with lists } :=
  ⟨_, congrArg (fun d' : Datapool => { d' with lists := (d.renameSignals p).lists }) (d.bare_renameSignals p)⟩

/-- **Naming elements after messages keeps the shapes of the lists.** -/
theorem shapes_renameSignals (d : Datapool) (p : Protocol) : (d.renameSignals p).shapes = d.shapes := by
  unfold renameSignals
  refine foldl_eq_of_step (g := shapes) (fun d' c => ?_) _ d
  exact shapes_renameInterface d' c.2 c.1

/-! ## Names -/

/-- The name of an element of a list after the messages of a protocol. -/
def elementName? (d : Datapool) (p : Protocol) (list element : Nat) : Option String :=
  ((d.renameSignals p).lists[list]?.bind (·.elements[element]?)).map (·.name)

variable {d d' : Datapool} {p : Protocol} {list element : Nat} {l : ElementList} {e : Element}

theorem elementName?_eq_some {name : String} : d.elementName? p list element = some name ↔
    ∃ l e, (d.renameSignals p).lists[list]? = some l ∧ l.elements[element]? = some e ∧ e.name = name := by
  simp only [elementName?, Option.map_eq_some_iff, Option.bind_eq_some_iff, exists_and_left]
  exact ⟨fun ⟨e, ⟨l, hl, he⟩, hname⟩ => ⟨l, hl, e, he, hname⟩, fun ⟨l, hl, e, he, hname⟩ => ⟨e, ⟨l, hl, he⟩, hname⟩⟩

/-- An element has its place in any Datapool of the same shapes. -/
theorem exists_element (h : d'.shapes = d.shapes) (hl : d.lists[list]? = some l) (he : l.elements[element]? = some e) :
    ∃ l' e', d'.lists[list]? = some l' ∧ l'.name = l.name ∧ l'.elements[element]? = some e' := by
  have hshape : d'.lists[list]?.map ElementList.shape = some l.shape := by
    rw [← List.getElem?_map]
    show d'.shapes[list]? = _
    rw [h, shapes, List.getElem?_map, hl]
    rfl
  obtain ⟨l', hl', hshape⟩ := Option.map_eq_some_iff.1 hshape
  obtain ⟨hname, hlength⟩ := Prod.mk.inj hshape
  have hlt : element < l'.elements.length := hlength ▸ (List.getElem?_eq_some_iff.1 he).1
  exact ⟨l', _, hl', hname, List.getElem?_eq_getElem hlt⟩

end Datapool

end BusNode
