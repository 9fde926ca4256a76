import BusNode.Proofs.Json.Restore
/-!
# Properties of what a codec reads

* `Codec.Reads` — the value is one that the codec reads; `Codec.Accepts` — what is written of it is read as some value;
* `Descends` — a property of values with their codecs passes to what the values are made of;
* `descends_reads`, `descends_accepts` — both do.
-/

namespace BusNode

/-- A property of a value with its codec. -/
abbrev CodecProperty := ∀ α : Type, Codec α → α → Prop

/-- A field has the property, or is what it is if it is missing. -/
def Absence.Allows (Φ : CodecProperty) {α : Type} (absence : Absence α) (c : Codec α) (a : α) : Prop :=
  Φ α c a ∨ absence.inObject = some a ∨ absence.inArray = some a

def Fields.Each (Φ : CodecProperty) : {τ : Type} → Fields τ → τ → Prop
  | _, .nil, _ => True
  | _, .cons _ codec absence rest, (a, b) => absence.Allows Φ codec a ∧ rest.Each Φ b

/-- The property passes from a value to what it is made of. -/
structure Descends (Φ : CodecProperty) : Prop where
  option {α : Type} {c : Codec α} {a : α} (hnull : c.write a ≠ .null) (h : Φ _ (.option c) (some a)) : Φ _ c a
  list {α : Type} {c : Codec α} {as : List α} (h : Φ _ (.list c) as) : ∀ a ∈ as, Φ _ c a
  record {τ α : Type} {fields : Fields τ} {toFields : α → τ} {ofFields : τ → α} {a : α}
    (hd : fields.Describe toFields ofFields) (h : Φ _ (.record fields toFields ofFields) a) :
    fields.Each Φ (toFields a)

section Absence

variable {Φ : CodecProperty} {α : Type} {c : Codec α} {a d : α}

theorem allows_required : Absence.required.Allows Φ c a ↔ Φ _ c a := by
  simp [Absence.Allows, Absence.required]

theorem allows_default : (Absence.default d).Allows Φ c a ↔ Φ _ c a ∨ a = d := by
  simp [Absence.Allows, Absence.default, eq_comm]

/-- A list that is empty if it is missing has the property of its elements anyway. -/
theorem Descends.of_allows_list (hΦ : Descends Φ) {as : List α} (h : (Absence.default []).Allows Φ (.list c) as) :
    ∀ a ∈ as, Φ _ c a := by
  rcases allows_default.1 h with h | rfl
  · exact hΦ.list h
  · exact fun _ ha => nomatch ha

end Absence

/-- The value is read from a document. -/
def Codec.Reads (α : Type) (c : Codec α) (a : α) : Prop := ∃ j, c.read j = some a

/-- What is written of the value is read, be it as another value. -/
def Codec.Accepts (α : Type) (c : Codec α) (a : α) : Prop := ∃ b, c.read (c.write a) = some b

/-! ## What is read -/

namespace Fields

variable {τ : Type} {fields : Fields τ} {t : τ}

theorem each_of_readObject {ms : List (Key × Json)} (h : fields.readObject ms = some t) :
    fields.Each Codec.Reads t := by
  induction fields with
  | nil => trivial
  | cons name codec absence rest ih =>
    obtain ⟨a, ha, h⟩ := Option.bind_eq_some_iff.1 h
    obtain ⟨b, hb, h⟩ := Option.bind_eq_some_iff.1 h
    obtain rfl := Option.some.inj h
    refine ⟨?_, ih hb⟩
    unfold readField at ha
    split at ha
    · exact .inr (.inl ha)
    · exact .inl ⟨_, ha⟩
    · cases ha

theorem each_of_readArray {js : List Json} (h : fields.readArray js = some t) : fields.Each Codec.Reads t := by
  induction fields generalizing js with
  | nil => trivial
  | cons name codec absence rest ih =>
    cases js with
    | nil =>
      obtain ⟨a, ha, h⟩ := Option.bind_eq_some_iff.1 h
      obtain ⟨b, hb, h⟩ := Option.bind_eq_some_iff.1 h
      obtain rfl := Option.some.inj h
      exact ⟨.inr (.inr ha), ih hb⟩
    | cons j js =>
      obtain ⟨a, ha, h⟩ := Option.bind_eq_some_iff.1 h
      obtain ⟨b, hb, h⟩ := Option.bind_eq_some_iff.1 h
      obtain rfl := Option.some.inj h
      exact ⟨.inl ⟨j, ha⟩, ih hb⟩

end Fields

/-- **What is read is made of what is read**, or of what fields are if they are missing. -/
theorem descends_reads : Descends Codec.Reads where
  option := by
    rintro α c a - ⟨j, h⟩
    cases j with
    | null => cases h
    | _ =>
      obtain ⟨b, hb, h⟩ := Option.map_eq_some_iff.1 h
      exact ⟨_, Option.some.inj h ▸ hb⟩
  list := by
    rintro α c as ⟨j, h⟩ a ha
    cases j with
    | array js =>
      obtain ⟨j, -, hj⟩ := exists_of_mem_right (mapM_eq_some.1 h) ha
      exact ⟨j, hj⟩
    | _ => cases h
  record := by
    rintro τ α fields toFields ofFields a hd ⟨j, h⟩
    cases j with
    | object ms =>
      have h : (if ms.all (·.1.text?.isSome) then (fields.readObject ms).map ofFields else none) = some a := h
      split at h
      · obtain ⟨t, ht, rfl⟩ := Option.map_eq_some_iff.1 h
        rw [hd.to_of]
        exact Fields.each_of_readObject ht
      · cases h
    | array js =>
      obtain ⟨t, ht, rfl⟩ := Option.map_eq_some_iff.1 h
      rw [hd.to_of]
      exact Fields.each_of_readArray ht
    | _ => cases h

/-! ## What is accepted again -/

/-- If the fields are read together, what is written of each of them is read. -/
theorem Fields.each_accepts {τ : Type} {fields : Fields τ} (hnames : fields.names.Nodup) {t u : τ}
    (h : fields.readObject (fields.write t) = some u) : fields.Each Codec.Accepts t := by
  induction fields with
  | nil => trivial
  | cons name codec absence rest ih =>
    obtain ⟨hname, hrest⟩ := List.nodup_cons.1 hnames
    obtain ⟨ha, hb⟩ := readObject_write_cons hname h
    exact ⟨.inl ⟨u.1, ha⟩, ih hrest hb⟩

/-- **What is accepted again is made of what is.** -/
theorem descends_accepts : Descends Codec.Accepts where
  option := by
    rintro α c a hnull ⟨o, h⟩
    have h : (Codec.option c).read (c.write a) = some o := h
    rw [Codec.Restores.read_option hnull] at h
    obtain ⟨b, hb, -⟩ := Option.map_eq_some_iff.1 h
    exact ⟨b, hb⟩
  list := by
    rintro α c as ⟨bs, h⟩ a ha
    obtain ⟨b, -, hb⟩ := exists_of_mem_left (List.forall₂_map_left_iff.1 (mapM_eq_some.1 h)) ha
    exact ⟨b, hb⟩
  record := by
    rintro τ α fields toFields ofFields a hd ⟨b, h⟩
    have h : (if (fields.write (toFields a)).all (·.1.text?.isSome) then
        (fields.readObject (fields.write (toFields a))).map ofFields else none) = some b := h
    split at h
    · obtain ⟨t, ht, -⟩ := Option.map_eq_some_iff.1 h
      exact Fields.each_accepts hd.distinct ht
    · cases h

end BusNode
