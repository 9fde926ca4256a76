import BusNode.Proofs.Datapool.Acceptance
import BusNode.Proofs.Datapool.Count
/-!
# Bytes of a Datapool

Sizes are words of 32 bits, and the check of a Datapool bounds none of them: it only wants as many values as an element
is long. Where a size is written, there is a pair only if it fits; the size of a list is written of no other Datapool
than one with a buffer, so that a list may be too large all the same.

* `ElementList.bytes_le` — no value has more than eight bytes;
* `byte_sizes` — the sizes of elements are exact, those of lists just if they are words, and the buffer is large enough;
* `list_overflows_archive` — a pair of two logs, each of 2^31 bytes, whose list has no size.
-/

namespace BusNode

-- Sums begin at the numeral zero, as those of the sizes do.
attribute [local instance (high)] Zero.ofOfNat0

theorem ScalarType.size_le (t : ScalarType) : t.size.toNat ≤ 8 := by
  cases t <;> decide

/-- Every content has the values that the size counts. -/
theorem Element.Fits.bytes_eq {e : Element} {sets : Nat} (h : e.Fits sets) {c : Content} (hc : c ∈ e.contents) :
    e.bytes = e.type.size.toNat * c.length := by
  rw [bytes, (h.contents c hc).1]

namespace ElementList

/-- How many values the elements begin with. -/
def valueCount (l : ElementList) : Nat := (l.elements.map (·.default.length)).sum

/-- No value has more than eight bytes. -/
theorem bytes_le {l : ElementList} {sets : Nat} (h : ∀ e ∈ l.elements, e.Fits sets) : l.bytes ≤ 8 * l.valueCount := by
  unfold bytes valueCount
  revert h
  induction l.elements with
  | nil => exact fun _ => Nat.zero_le _
  | cons e es ih =>
    intro h
    have hhead : e.bytes ≤ 8 * e.default.length := by
      rw [(h e (.head _)).bytes_eq (.head _)]
      exact Nat.mul_le_mul_right _ e.type.size_le
    have htail := ih fun e he => h e (.tail _ he)
    rw [List.map_cons, List.map_cons, List.sum_cons, List.sum_cons]
    omega

theorem storedBytes_lt {l : ElementList} {sets : Nat} (h : ∀ e ∈ l.elements, e.Fits sets)
    (hcount : l.valueCount < 2 ^ 29) : l.storedBytes < 2 ^ 32 := by
  have hbytes := bytes_le h
  unfold storedBytes
  split <;> omega

theorem bytes_le_storedBytes (l : ElementList) : l.bytes ≤ l.storedBytes := Nat.le_add_right _ _

end ElementList

namespace DatapoolCode

/-- The sizes of a list, and those of its elements in the table of their definitions. -/
structure SizesList (x : DatapoolCode) (f : File) (l : ElementList) : Prop where
  contents : ∀ e ∈ l.elements, ∀ c ∈ e.contents, e.bytes = e.type.size.toNat * c.length
  element : ∀ e ∈ l.elements, ∃ w, e.size? = some w ∧ w.toNat = e.bytes
  exact : ∀ w, l.dataSize? = some w ↔ w.toNat = l.bytes
  overflow : l.dataSize? = none ↔ 2 ^ 32 ≤ l.bytes
  rows : ∃ defs : List ElementDefinition,
    f.Shows "T_osy_dpa_element_definition" (x.datapool.elementTableName l) (defs.map ElementDefinition.row) ∧
    List.Forall₂ (fun e r => r.name = e.name ∧ r.size = e.bytes) l.elements defs

/-- The buffer for the data of any one list. -/
structure SizesScratch (x : DatapoolCode) (f : File) : Prop where
  declared : Item.declare ⟨.internal, false, "uint8", x.datapool.scratchName, some (.number x.datapool.scratchBytes)⟩
    (some x.placement) ∈ f.items
  exact : ∃ w, x.datapool.scratchSize? = some w ∧ w.toNat = x.datapool.scratchBytes
  lists : ∀ l ∈ x.datapool.lists, ∃ w, l.dataSize? = some w ∧ w.toNat = l.bytes
  large : ∀ l ∈ x.datapool.lists, l.storedBytes ≤ x.datapool.scratchBytes

/-- **The sizes of a pair are exact, and of a list as large as words go there is none.** The check makes all contents of
an element as long as its size says. An element definition carries the exact size of the element. The buffer has the
exact size of the largest list and so holds the data and the checksum of every list. The size of a list that is not
written comes to a value, the exact one, just if it is below 2^32, as it is for lists of fewer than 2^29 values. -/
theorem byte_sizes (x : DatapoolCode) (id : Identifier) (pair : Pair) (h : (x.generate id).result = .ok pair) :
    (∀ l ∈ x.datapool.lists, x.SizesList pair.source l) ∧
      (x.linkage = .own → x.datapool.kind.isNvm = true → 5 ≤ x.version → x.SizesScratch pair.source) ∧
      ∀ l ∈ x.datapool.lists, l.valueCount < 2 ^ 29 → l.storedBytes < 2 ^ 32 := by
  have hfit := ((decides_generate id).holds pair h).2
  obtain ⟨hcheck, header, source, hheader, hsource, rfl⟩ := generate_eq_ok h
  have hfits (l : ElementList) (hl : l ∈ x.datapool.lists) : ∀ e ∈ l.elements, e.Fits l.dataSets.length :=
    ((Datapool.fault?_eq_none.1 (check_eq_ok.1 hcheck).2).2 l hl).2
  obtain ⟨scaling, -, rfl⟩ := header_eq_ok.1 hheader
  obtain ⟨values, tables, -, htables, -, rfl⟩ := source_eq_ok.1 hsource
  refine ⟨fun l hl => ?_, fun hown hnvm hversion => ?_, fun l hl => ElementList.storedBytes_lt (hfits l hl)⟩
  · refine {
      contents := fun e he c hc => (hfits l hl e he).bytes_eq hc
      element := fun e he => exists_word? (hfit.elements l hl e he)
      exact := fun w => l.dataSize?_eq ▸ word?_eq_some
      overflow := l.dataSize?_eq ▸ word?_eq_none
      rows := ⟨l.elements.map fun e => x.elementDefinition l e e.bytes, ?_, ?_⟩ }
    · rw [List.map_map]
      exact shows_elementTable id scaling values htables hl
    · rw [List.forall₂_map_right_iff, List.forall₂_same]
      exact fun e _ => ⟨rfl, rfl⟩
  · have hstored := hfit.scratch hown hnvm hversion
    exact {
      declared := scratchBuffer_subset_source (hasScratchBuffer_iff.2 ⟨hown, hnvm, hversion⟩) (.tail _ (.head _))
      exact := x.datapool.scratchSize?_eq ▸ exists_word? (Datapool.scratchBytes_lt_iff.2 hstored)
      lists := fun l hl =>
        l.dataSize?_eq ▸ exists_word? (Nat.lt_of_le_of_lt l.bytes_le_storedBytes (hstored l hl))
      large := (Datapool.scratchBytes_le_iff.1 (Nat.le_refl _)).2 }

theorem byte_sizes_recipe : ∃ pair, ((recipeCode .own).generate ⟨"00000000"⟩).result = .ok pair ∧
    (recipeCode .own).SizesScratch pair.source ∧ recipe.scratchBytes = 7 ∧
    ∀ l ∈ recipe.lists, (recipeCode .own).SizesList pair.source l ∧ l.storedBytes < 2 ^ 32 := by
  obtain ⟨pair, hpair⟩ : ∃ pair, ((recipeCode .own).generate ⟨"00000000"⟩).result = .ok pair :=
    exists_eq_ok (by decide +kernel)
  obtain ⟨hlists, hscratch, hsmall⟩ := byte_sizes (recipeCode .own) ⟨"00000000"⟩ pair hpair
  have hcount : ∀ l ∈ recipe.lists, l.valueCount < 2 ^ 29 := by decide +kernel
  exact ⟨pair, hpair, hscratch rfl rfl (by decide), by decide +kernel,
    fun l hl => ⟨hlists l hl, hsmall l hl (hcount l hl)⟩⟩

/-! ## A list that has no size -/

/-- Two logs, of 2^28 doubles each. -/
def twoLogs : List Element := [log "Hot" 268435456, log "Cold" 268435456]

/-- Below layout 5 there is no buffer for the logs, and no size of their list in the pair. -/
theorem list_overflows_archive : ∃ pair, ((archiveCode twoLogs 4).generate ⟨"00000000"⟩).result = .ok pair ∧
    (∀ e ∈ twoLogs, e.bytes = 2 ^ 31) ∧ (history twoLogs).bytes = 2 ^ 32 ∧ (history twoLogs).dataSize? = none := by
  have haccepts : (archiveCode twoLogs 4).Accepts := accepts_archive (List.cons_ne_nil _ _)
    (List.forall_mem_cons.2 ⟨⟨_, _, rfl⟩, List.forall_mem_singleton.2 ⟨_, _, rfl⟩⟩) 4
  have hbytes : ∀ e ∈ twoLogs, e.bytes = 2 ^ 31 :=
    List.forall_mem_cons.2 ⟨rfl, List.forall_mem_singleton.2 rfl⟩
  have hfit : (archiveCode twoLogs 4).SizesFit := by
    refine ⟨List.forall_mem_singleton.2 fun e he => ?_, fun _ _ hversion => ?_⟩
    · exact hbytes e he ▸ by decide
    · exact absurd hversion (by decide)
  obtain ⟨pair, hpair⟩ := (decides_generate ⟨"00000000"⟩).exists_ok_iff.2 ⟨haccepts, hfit⟩
  have hlist : (history twoLogs).bytes = 2 ^ 32 := rfl
  refine ⟨pair, hpair, hbytes, hlist, ?_⟩
  rw [ElementList.dataSize?_eq, hlist]
  exact word?_eq_none.2 (Nat.le_refl _)

end DatapoolCode

end BusNode
