import BusNode.Datapool.Code
import BusNode.Proofs.Success
/-!
# Sizes as words

The sizes of elements, lists and the scratch buffer, as numbers without bound: a size that is computed in words is the
word of the exact number, and there is none just if the exact number is 2^32 or more.

* `Element.bytes`, `ElementList.bytes`, `ElementList.storedBytes`, `Datapool.scratchBytes` — the exact sizes;
* `Element.size?_eq`, `ElementList.dataSize?_eq`, `Datapool.scratchSize?_eq` — the computed ones are their words.
-/

namespace BusNode

-- Sums begin at the numeral zero, as lists have it.
attribute [local instance (high)] Zero.ofOfNat0

/-! ## Words -/

theorem word?_eq_some {n : Nat} {w : UInt32} : word? n = some w ↔ w.toNat = n := by
  unfold word?
  constructor
  · intro h
    split at h
    · rename_i hn
      exact Option.some.inj h ▸ UInt32.toNat_ofNat_of_lt' hn
    · cases h
  · rintro rfl
    rw [if_pos w.toNat_lt, UInt32.ofNat_toNat]

theorem word?_eq_none {n : Nat} : word? n = none ↔ 2 ^ 32 ≤ n := by
  unfold word?
  split <;> simp <;> omega

/-- What is larger than a number without a word has none. -/
theorem word?_eq_none_of_le {m n : Nat} (h : word? m = none) (hle : m ≤ n) : word? n = none :=
  word?_eq_none.2 (Nat.le_trans (word?_eq_none.1 h) hle)

theorem exists_word? {n : Nat} (h : n < 2 ^ 32) : ∃ w : UInt32, word? n = some w ∧ w.toNat = n :=
  ⟨.ofNat n, if_pos h, UInt32.toNat_ofNat_of_lt' h⟩

/-- A sum that is taken in words is the word of the sum, also where a summand is too large already. -/
theorem word?_add (m n : Nat) : (do word? ((← word? m).toNat + (← word? n).toNat)) = word? (m + n) := by
  cases hm : word? m with
  | none => exact (word?_eq_none_of_le hm (Nat.le_add_right m n)).symm
  | some v =>
    cases hn : word? n with
    | none => exact (word?_eq_none_of_le hn (Nat.le_add_left n m)).symm
    | some w =>
      show word? (v.toNat + w.toNat) = _
      rw [word?_eq_some.1 hm, word?_eq_some.1 hn]

/-- What is made of a number that is to fit a word. -/
theorem Stop.unlessFits_word? {α : Type} (f : Nat → α) (n : Nat) :
    (return f (← unlessFits (word? n)).toNat) = if n < 2 ^ 32 then Except.ok (f n) else .error .overflow := by
  cases h : word? n with
  | none =>
    rw [if_neg (Nat.not_lt.2 (word?_eq_none.1 h))]
    rfl
  | some w =>
    obtain rfl := word?_eq_some.1 h
    rw [if_pos w.toNat_lt]
    rfl

/-! ## Elements and lists -/

/-- The exact size in bytes. -/
def Element.bytes (e : Element) : Nat := e.type.size.toNat * e.count.toNat

theorem Element.size?_eq (e : Element) : e.size? = word? e.bytes := rfl

namespace ElementList

/-- The exact size of all elements. -/
def bytes (l : ElementList) : Nat := (l.elements.map Element.bytes).sum

/-- The bytes that are stored of the list: its elements, and its checksum if it has one. -/
def storedBytes (l : ElementList) : Nat := l.bytes + if l.nvmCrc then 2 else 0

/-- The bytes are added up in words, starting at any word. -/
theorem foldlM_size? (es : List Element) (n : Nat) :
    ((word? n).bind fun w => es.foldlM (fun sum e => do word? (sum.toNat + (← e.size?).toNat)) w) =
      word? (n + (es.map Element.bytes).sum) := by
  induction es generalizing n with
  | nil => cases h : word? n <;> simp [h]
  | cons e es ih =>
    rw [List.map_cons, List.sum_cons, ← Nat.add_assoc, ← ih, ← word?_add, ← Element.size?_eq]
    cases word? n with
    | none => rfl
    | some w => rw [Option.bind_some, List.foldlM_cons]; rfl

theorem dataSize?_eq (l : ElementList) : l.dataSize? = word? l.bytes := by
  have h := foldlM_size? l.elements 0
  rw [Nat.zero_add] at h
  exact h

theorem storedSize?_eq (l : ElementList) : l.storedSize? = word? l.storedBytes := by
  unfold storedSize? storedBytes
  rw [dataSize?_eq]
  cases h : word? l.bytes with
  | none => exact (word?_eq_none_of_le h (Nat.le_add_right ..)).symm
  | some w => exact congrArg (fun n => word? (n + _)) (word?_eq_some.1 h)

end ElementList

/-! ## The scratch buffer -/

theorem foldl_max_le_iff {ns : List Nat} {a m : Nat} : ns.foldl max a ≤ m ↔ a ≤ m ∧ ∀ n ∈ ns, n ≤ m := by
  induction ns generalizing a with
  | nil => simp
  | cons n ns ih =>
    rw [List.foldl_cons, ih, Nat.max_le, List.forall_mem_cons, and_assoc]

theorem toNat_foldl_max (ws : List UInt32) (a : UInt32) :
    (ws.foldl max a).toNat = (ws.map UInt32.toNat).foldl max a.toNat := by
  induction ws generalizing a with
  | nil => rfl
  | cons w ws ih => rw [List.foldl_cons, ih, UInt32.toNat_max, List.map_cons, List.foldl_cons]

namespace Datapool

/-- The exact size of a buffer for any one list, at least one byte. -/
def scratchBytes (d : Datapool) : Nat := (d.lists.map ElementList.storedBytes).foldl max 1

variable {d : Datapool}

theorem scratchBytes_le_iff {m : Nat} : d.scratchBytes ≤ m ↔ 1 ≤ m ∧ ∀ l ∈ d.lists, l.storedBytes ≤ m := by
  rw [scratchBytes, foldl_max_le_iff, List.forall_mem_map]

theorem scratchBytes_pos (d : Datapool) : 0 < d.scratchBytes := (scratchBytes_le_iff.1 (Nat.le_refl _)).1

theorem scratchBytes_lt_iff : d.scratchBytes < 2 ^ 32 ↔ ∀ l ∈ d.lists, l.storedBytes < 2 ^ 32 := by
  have h := scratchBytes_le_iff (d := d) (m := 2 ^ 32 - 1)
  constructor
  · intro hd l hl
    have := (h.1 (by omega)).2 l hl
    omega
  · intro hl
    have := h.2 ⟨by decide, fun l hm => by have := hl l hm; omega⟩
    omega

theorem scratchSize?_eq (d : Datapool) : d.scratchSize? = word? d.scratchBytes := by
  unfold scratchSize?
  cases h : d.lists.mapM ElementList.storedSize? with
  | none =>
    refine (word?_eq_none.2 (Nat.not_lt.1 fun hlt => ?_)).symm
    have hwords : d.lists.mapM ElementList.storedSize? = some (d.lists.map fun l => .ofNat l.storedBytes) := by
      rw [mapM_eq_some, List.forall₂_map_right_iff, List.forall₂_same]
      intro l hl
      rw [l.storedSize?_eq, word?, if_pos (scratchBytes_lt_iff.1 hlt l hl)]
    rw [h] at hwords
    cases hwords
  | some ws =>
    show some (ws.foldl max 1) = _
    refine (word?_eq_some.2 ?_).symm
    have hwords : ws.map UInt32.toNat = d.lists.map ElementList.storedBytes :=
      (map_eq_of_forall₂ (mapM_eq_some.1 h) fun l w hw => (word?_eq_some.1 (l.storedSize?_eq ▸ hw)).symm).symm
    rw [toNat_foldl_max, hwords]
    rfl

end Datapool

end BusNode
