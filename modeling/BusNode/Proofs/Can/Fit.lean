import BusNode.Can.Code
import BusNode.Proofs.Acceptance
/-!
# Signals that have a row

* `Signal.Fits` — the element of a signal is in a list, and its fields fit a descriptor;
* `Descriptor.decides_ofSignal` — a descriptor is refused for the first bound that its signal breaks;
* `Signal.decides_rowOr` — just a signal that fits has a row, whatever is told of the others.
-/

namespace BusNode

namespace Can

theorem Direction.forall_iff {P : Direction → Prop} : (∀ dir, P dir) ↔ P .tx ∧ P .rx := by
  constructor
  · exact fun h => ⟨h .tx, h .rx⟩
  · rintro ⟨htx, hrx⟩ (_ | _)
    · exact htx
    · exact hrx

/-! ## Descriptors -/

/-- The fields of the signal are within the bounds of a descriptor. -/
structure Signal.IsBounded (s : Signal) : Prop where
  startBit : s.bitStart.toNat ≤ 511
  length : 1 ≤ s.bitLength.toNat ∧ s.bitLength.toNat ≤ 64
  elementIndex : s.elementIndex.toNat < 2 ^ 16

/-- The first bound that a signal breaks. -/
inductive DescriptorError.IsFirst (s : Signal) : DescriptorError → Prop
  | startBit (h : 511 < s.bitStart.toNat) : IsFirst s (.startBit s.bitStart)
  | length (hstart : s.bitStart.toNat ≤ 511) (h : s.bitLength.toNat = 0 ∨ 64 < s.bitLength.toNat) :
    IsFirst s (.length s.bitLength)
  | elementIndex (hstart : s.bitStart.toNat ≤ 511) (hlength : 1 ≤ s.bitLength.toNat ∧ s.bitLength.toNat ≤ 64)
    (h : 2 ^ 16 ≤ s.elementIndex.toNat) : IsFirst s (.elementIndex s.elementIndex)

theorem Descriptor.decides_ofSignal (s : Signal) :
    Decides (ofSignal s) s.IsBounded (DescriptorError.IsFirst s) := by
  have hzero : s.bitLength = 0 ↔ s.bitLength.toNat = 0 := UInt16.toNat_inj.symm
  unfold ofSignal maxStartBit maxLength
  simp only [hzero]
  split
  · rename_i h
    exact .error (fun hs => by have := hs.startBit; omega) (.startBit h)
  rename_i hstart
  split
  · rename_i h
    exact .error (fun hs => by have := hs.length; omega) (.length (by omega) h)
  rename_i hlength
  split
  · rename_i h
    exact .error (fun hs => by have := hs.elementIndex; omega) (.elementIndex (by omega) (by omega) h)
  · rename_i h
    exact .ok _ ⟨by omega, by omega, by omega⟩

/-! ## Rows -/

/-- The element of the signal is in the list, and the signal has a descriptor. -/
structure Signal.Fits (s : Signal) (l : ElementList) : Prop extends s.IsBounded where
  element : s.elementIndex.toNat < l.elements.length

/-- The row of a signal, with what is told of a missing element and of a signal without descriptor. -/
def Signal.rowOr {ε : Type} (s : Signal) (l : ElementList) (missing : ε) (unbounded : Element → DescriptorError → ε) :
    Except ε SignalRow :=
  match l.elements[s.elementIndex.toNat]? with
  | none => .error missing
  | some e => match Descriptor.ofSignal s with
    | .ok d => .ok ⟨e.name, d⟩
    | .error fault => .error (unbounded e fault)

variable {ε : Type} {s : Signal} {l : ElementList} {missing : ε} {unbounded : Element → DescriptorError → ε}
  {R : ε → Prop}

theorem Signal.decides_rowOr (hmissing : l.elements.length ≤ s.elementIndex.toNat → R missing)
    (hunbounded : ∀ e fault, l.elements[s.elementIndex.toNat]? = some e → DescriptorError.IsFirst s fault →
      R (unbounded e fault)) :
    Decides (s.rowOr l missing unbounded) (s.Fits l) R := by
  unfold rowOr
  split
  · rename_i hnone
    have hlength := List.getElem?_eq_none_iff.1 hnone
    exact .error (fun h => absurd h.element (by omega)) (hmissing hlength)
  · rename_i e he
    have hdescriptor := Descriptor.decides_ofSignal s
    split
    · rename_i d hd
      exact .ok _ ⟨hdescriptor.holds d hd, (List.getElem?_eq_some_iff.1 he).1⟩
    · rename_i fault hfault
      obtain ⟨hbounds, hfirst⟩ := hdescriptor.refuses fault hfault
      exact .error (fun h => hbounds h.toIsBounded) (hunbounded e fault he hfirst)

end Can

end BusNode
