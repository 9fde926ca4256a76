/-!
# Maps by ascending key

A map from numbers to values, as the list of its entries by ascending key, so that two maps with the same entries
are equal.

* `SortedMap.get?_insert_self`, `SortedMap.get?_insert_of_ne` — after an insertion the key has the new value, and
  every other key what it had;
* `SortedMap.ext_entries` — a map is its entries.
-/

namespace BusNode

/-- A type of keys, ordered as numbers. -/
class Ordinal (κ : Type) where
  toNat : κ → Nat
  toNat_injective : ∀ a b, toNat a = toNat b → a = b

instance : Ordinal UInt8 := ⟨UInt8.toNat, fun _ _ => UInt8.toNat.inj⟩
instance : Ordinal UInt16 := ⟨UInt16.toNat, fun _ _ => UInt16.toNat.inj⟩

variable {κ α : Type} [Ordinal κ]

/-- The entries ascend strictly. -/
abbrev Ascending (es : List (κ × α)) : Prop := es.Pairwise fun a b => Ordinal.toNat a.1 < Ordinal.toNat b.1

structure SortedMap (κ α : Type) [Ordinal κ] where
  entries : List (κ × α)
  ascending : Ascending entries
  deriving DecidableEq

namespace SortedMap

def empty : SortedMap κ α := ⟨[], .nil⟩

instance : Inhabited (SortedMap κ α) := ⟨empty⟩

def keys (m : SortedMap κ α) : List κ := m.entries.map (·.1)

def get? (m : SortedMap κ α) (k : κ) : Option α :=
  (m.entries.find? fun e => Ordinal.toNat e.1 = Ordinal.toNat k).map (·.2)

/-- The entries with the one of `k` put in its place. -/
def insertEntry (k : κ) (v : α) : List (κ × α) → List (κ × α)
  | [] => [(k, v)]
  | e :: es =>
    if Ordinal.toNat k < Ordinal.toNat e.1 then (k, v) :: e :: es
    else if Ordinal.toNat k = Ordinal.toNat e.1 then (k, v) :: es
    else e :: insertEntry k v es

theorem mem_insertEntry {k : κ} {v : α} {x : κ × α} {es : List (κ × α)} (h : x ∈ insertEntry k v es) :
    x = (k, v) ∨ x ∈ es := by
  induction es with
  | nil => simpa [insertEntry] using h
  | cons e es ih =>
    unfold insertEntry at h
    split at h
    · simpa using h
    · split at h
      · rcases List.mem_cons.1 h with h | h
        · exact .inl h
        · exact .inr (List.mem_cons_of_mem _ h)
      · rcases List.mem_cons.1 h with h | h
        · exact .inr (h ▸ List.mem_cons_self)
        · exact (ih h).imp_right (List.mem_cons_of_mem _)

theorem ascending_insertEntry (k : κ) (v : α) {es : List (κ × α)} (h : Ascending es) :
    Ascending (insertEntry k v es) := by
  induction es with
  | nil => exact List.pairwise_singleton _ _
  | cons e es ih =>
    obtain ⟨hd, tl⟩ := List.pairwise_cons.1 h
    unfold insertEntry
    split
    · rename_i hk
      refine List.pairwise_cons.2 ⟨fun x hx => ?_, h⟩
      rcases List.mem_cons.1 hx with rfl | hx
      · exact hk
      · exact Nat.lt_trans hk (hd x hx)
    · split
      · rename_i hk
        exact List.pairwise_cons.2 ⟨fun x hx => hk ▸ hd x hx, tl⟩
      · rename_i h1 h2
        refine List.pairwise_cons.2 ⟨fun x hx => ?_, ih tl⟩
        rcases mem_insertEntry hx with rfl | hx
        · show Ordinal.toNat e.1 < Ordinal.toNat k
          omega
        · exact hd x hx

/-- Sets the value of a key. -/
def insert (m : SortedMap κ α) (k : κ) (v : α) : SortedMap κ α :=
  ⟨insertEntry k v m.entries, ascending_insertEntry k v m.ascending⟩

theorem ext_entries {m n : SortedMap κ α} (h : m.entries = n.entries) : m = n := by
  cases m
  cases n
  cases h
  rfl

theorem find?_insertEntry (k k' : κ) (v : α) {es : List (κ × α)} (h : Ascending es) :
    ((insertEntry k v es).find? fun e => Ordinal.toNat e.1 = Ordinal.toNat k').map (·.2) =
      if Ordinal.toNat k = Ordinal.toNat k' then some v
      else (es.find? fun e => Ordinal.toNat e.1 = Ordinal.toNat k').map (·.2) := by
  induction es with
  | nil => by_cases hk : Ordinal.toNat k = Ordinal.toNat k' <;> simp [insertEntry, hk]
  | cons e es ih =>
    have tl := (List.pairwise_cons.1 h).2
    unfold insertEntry
    by_cases hk : Ordinal.toNat k = Ordinal.toNat k'
    · split
      · simp [hk]
      · split
        · simp [hk]
        · rename_i h2
          have he : ¬Ordinal.toNat e.1 = Ordinal.toNat k' := fun he => h2 (hk.trans he.symm)
          simpa [he, hk] using ih tl
    · split
      · simp [hk]
      · split
        · rename_i h2
          have he : ¬Ordinal.toNat e.1 = Ordinal.toNat k' := fun he => hk (h2.trans he)
          simp [hk, he]
        · by_cases he : Ordinal.toNat e.1 = Ordinal.toNat k'
          · simp [he]
          · simpa [he, hk] using ih tl

@[simp] theorem get?_insert_self (m : SortedMap κ α) (k : κ) (v : α) : (m.insert k v).get? k = some v :=
  (find?_insertEntry k k v m.ascending).trans (if_pos rfl)

theorem get?_insert_of_ne (m : SortedMap κ α) {k k' : κ} (v : α) (h : k ≠ k') :
    (m.insert k v).get? k' = m.get? k' :=
  (find?_insertEntry k k' v m.ascending).trans (if_neg fun hk => h (Ordinal.toNat_injective k k' hk))

/-- The map of a list of entries; the last one of a key counts. -/
def ofList (es : List (κ × α)) : SortedMap κ α := es.foldl (fun m e => m.insert e.1 e.2) empty

end SortedMap

end BusNode
