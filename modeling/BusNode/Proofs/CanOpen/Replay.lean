import BusNode.CanOpen.Dcf
import Mathlib.Data.List.Basic
/-!
# Writes carried out on a device

* `Contents.replay` — what the entries of a device hold after some writes;
* `lastWritten` — what the last write to an entry carried, if there was one; `replay_apply` ties the two;
* `Along` — a property of every write of a run and of the writes before it, with `along_append` for the parts of a run.
-/

namespace BusNode.CanOpen

/-! ## Contents -/

/-- What the entries of a device hold, as bytes. -/
abbrev Contents := UInt16 → UInt8 → List UInt8

/-- The entry that a write names takes the payload; every other entry stays as it is. -/
def Contents.write (c : Contents) (w : Write) : Contents :=
  fun i s => if w.index = i ∧ w.sub = s then w.payload else c i s

/-- Writes in order. -/
def Contents.replay (c : Contents) (ws : List Write) : Contents := ws.foldl Contents.write c

/-! ## The last write to an entry -/

/-- What the last of some writes to an entry carried. -/
def lastWritten (i : UInt16) (s : UInt8) : List Write → Option (List UInt8)
  | [] => none
  | w :: ws => (lastWritten i s ws).or (if w.index = i ∧ w.sub = s then some w.payload else none)

section LastWritten

variable {i : UInt16} {s : UInt8}

theorem lastWritten_append (ws vs : List Write) :
    lastWritten i s (ws ++ vs) = (lastWritten i s vs).or (lastWritten i s ws) := by
  induction ws with
  | nil => simp [lastWritten]
  | cons w ws ih => rw [List.cons_append, lastWritten, ih, Option.or_assoc, lastWritten]

theorem lastWritten_append_singleton (ws : List Write) (w : Write) :
    lastWritten i s (ws ++ [w]) = if w.index = i ∧ w.sub = s then some w.payload else lastWritten i s ws := by
  rw [lastWritten_append]
  by_cases h : w.index = i ∧ w.sub = s <;> simp [lastWritten, h]

/-- Writes to other entries do not count. -/
theorem lastWritten_eq_none {ws : List Write} (h : ∀ w ∈ ws, ¬(w.index = i ∧ w.sub = s)) :
    lastWritten i s ws = none := by
  induction ws with
  | nil => rfl
  | cons w ws ih =>
    rw [lastWritten, ih fun v hv => h v (List.mem_cons_of_mem _ hv), if_neg (h w List.mem_cons_self)]
    rfl

theorem lastWritten_append_of_ne {ws vs : List Write} (h : ∀ w ∈ vs, ¬(w.index = i ∧ w.sub = s)) :
    lastWritten i s (ws ++ vs) = lastWritten i s ws := by
  rw [lastWritten_append, lastWritten_eq_none h, Option.none_or]

theorem lastWritten_append_of_eq_some {ws vs : List Write} {p : List UInt8} (h : lastWritten i s vs = some p) :
    lastWritten i s (ws ++ vs) = some p := by
  rw [lastWritten_append, h, Option.some_or]

/-- An entry holds what was written to it last, and what it held at first if nothing was. -/
theorem replay_apply (c : Contents) (ws : List Write) : c.replay ws i s = (lastWritten i s ws).getD (c i s) := by
  induction ws generalizing c with
  | nil => rfl
  | cons w ws ih =>
    show (c.write w).replay ws i s = _
    rw [ih, lastWritten, Contents.write]
    cases lastWritten i s ws with
    | some p => rfl
    | none => by_cases h : w.index = i ∧ w.sub = s <;> simp [h]

end LastWritten

/-! ## Properties along a run -/

/-- Every write of a run has `P` together with the writes before it. -/
def Along (P : List Write → Write → Prop) : List Write → List Write → Prop
  | _, [] => True
  | before, w :: ws => P before w ∧ Along P (before ++ [w]) ws

section Along

variable {P : List Write → Write → Prop}

theorem along_append (before ws vs : List Write) :
    Along P before (ws ++ vs) ↔ Along P before ws ∧ Along P (before ++ ws) vs := by
  induction ws generalizing before with
  | nil => simp [Along]
  | cons w ws ih => simp [Along, ih, and_assoc]

theorem along_singleton (before : List Write) (w : Write) : Along P before [w] ↔ P before w := by
  simp [Along]

theorem along_of_forall {before ws : List Write} (h : ∀ w ∈ ws, ∀ before, P before w) : Along P before ws := by
  induction ws generalizing before with
  | nil => exact trivial
  | cons w ws ih => exact ⟨h w List.mem_cons_self _, ih fun v hv => h v (List.mem_cons_of_mem _ hv)⟩

/-- Parts that have the property after any writes have it one after the other. -/
theorem along_flatten {wss : List (List Write)} (h : ∀ ws ∈ wss, ∀ before, Along P before ws)
    (before : List Write) : Along P before wss.flatten := by
  induction wss generalizing before with
  | nil => exact trivial
  | cons ws wss ih =>
    rw [List.flatten_cons, along_append]
    exact ⟨h ws List.mem_cons_self _, ih (fun vs hvs => h vs (List.mem_cons_of_mem _ hvs)) _⟩

theorem along_split {before ws vs : List Write} {w : Write} (h : Along P before (ws ++ w :: vs)) :
    P (before ++ ws) w :=
  ((along_append before ws (w :: vs)).1 h).2.1

end Along

end BusNode.CanOpen
