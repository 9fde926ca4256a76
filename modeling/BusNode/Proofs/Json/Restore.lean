import BusNode.Proofs.Json.Codec
import BusNode.Proofs.Success
/-!
# What is read back

* `Codec.Restores` — what a codec writes of a value is read back as the value;
* `Fields.Restores` — the same for each field of a record, `Fields.Describe` — the fields make up the record;
* `Fields.Holds` — members that give each field its value, be it one that is left out.

A floating point number is read back if its text is; everything else is read back from what it is made of.
-/

namespace BusNode

/-- What is written of the value is read back as the value. -/
def Codec.Restores {α : Type} (c : Codec α) (a : α) : Prop := c.read (c.write a) = some a

/-! ## Maps -/

namespace SortedMap

variable {κ α : Type} [Ordinal κ]

/-- An entry with a key after all others comes last. -/
theorem insertEntry_of_lt {k : κ} {v : α} {es : List (κ × α)}
    (h : ∀ e ∈ es, Ordinal.toNat e.1 < Ordinal.toNat k) : insertEntry k v es = es ++ [(k, v)] := by
  induction es with
  | nil => rfl
  | cons e es ih =>
    have he := h e List.mem_cons_self
    rw [insertEntry, if_neg (by omega), if_neg (by omega), ih fun x hx => h x (List.mem_cons_of_mem e hx)]
    rfl

theorem entries_foldl {es : List (κ × α)} {m : SortedMap κ α} (h : Ascending (m.entries ++ es)) :
    (es.foldl (fun m e => m.insert e.1 e.2) m).entries = m.entries ++ es := by
  induction es generalizing m with
  | nil => exact (List.append_nil _).symm
  | cons e es ih =>
    have hlt : ∀ x ∈ m.entries, Ordinal.toNat x.1 < Ordinal.toNat e.1 :=
      fun x hx => (List.pairwise_append.1 h).2.2 x hx e List.mem_cons_self
    have hinsert : (m.insert e.1 e.2).entries = m.entries ++ [e] := insertEntry_of_lt hlt
    rw [List.foldl_cons, ih (by rwa [hinsert, List.append_assoc]), hinsert, List.append_assoc]
    rfl

/-- Entries that ascend are the entries of their map. -/
theorem entries_ofList {es : List (κ × α)} (h : Ascending es) : (ofList es : SortedMap κ α).entries = es :=
  entries_foldl (m := empty) h

theorem ofList_entries (m : SortedMap κ α) : ofList m.entries = m := ext_entries (entries_ofList m.ascending)

end SortedMap

namespace Codec.Restores

variable {α : Type} {c : Codec α} {a : α}

/-! ## Simple values -/

theorem bool (b : Bool) : Codec.bool.Restores b := rfl
theorem string (s : String) : Codec.string.Restores s := rfl

theorem natural {bound : Nat} {toNat : α → Nat} {ofNat : Nat → α} (hlt : toNat a < bound)
    (hof : ofNat (toNat a) = a) : (Codec.natural bound toNat ofNat).Restores a := by
  show ((Numeral.parse? (decimal (toNat a)).toList).bind fun n => n.natural?.bind _) = _
  rw [Numeral.parse?_decimal]
  show (if digitsValue (Nat.toDigits 10 (toNat a)) < bound then _ else none) = _
  rw [digitsValue_toDigits, if_pos hlt, hof]

theorem integer {half : Nat} {toInt : α → Int} {ofInt : Int → α} (hle : -(half : Int) ≤ toInt a)
    (hlt : toInt a < half) (hof : ofInt (toInt a) = a) : (Codec.integer half toInt ofInt).Restores a := by
  have hvalue : (⟨decide (toInt a < 0), Nat.toDigits 10 (toInt a).natAbs, [], none⟩ : Numeral).integer? =
      some (toInt a) := by
    simp only [Numeral.integer?, Numeral.isWhole, List.isEmpty_nil, Option.isNone_none, Bool.and_self,
      digitsValue_toDigits]
    by_cases hneg : toInt a < 0
    · have hne : (toInt a).natAbs ≠ 0 := by omega
      have habs : -((toInt a).natAbs : Int) = toInt a := by omega
      simp only [hneg, hne, habs, decide_true, Bool.not_true, Bool.false_eq_true, if_false]
    · have habs : ((toInt a).natAbs : Int) = toInt a := by omega
      simp only [hneg, habs, decide_false, Bool.not_false, Bool.not_true, Bool.false_eq_true, if_true, if_false]
  show ((Numeral.parse? (decimalInt (toInt a)).toList).bind fun n => n.integer?.bind _) = _
  rw [Numeral.parse?_decimalInt, Option.bind_some, hvalue]
  show (if _ ∧ _ then _ else none) = _
  rw [if_pos ⟨hle, hlt⟩, hof]

theorem uint8 (v : UInt8) : Codec.uint8.Restores v := natural v.toNat_lt UInt8.ofNat_toNat
theorem uint16 (v : UInt16) : Codec.uint16.Restores v := natural v.toNat_lt UInt16.ofNat_toNat
theorem uint32 (v : UInt32) : Codec.uint32.Restores v := natural v.toNat_lt UInt32.ofNat_toNat
theorem uint64 (v : UInt64) : Codec.uint64.Restores v := natural v.toNat_lt UInt64.ofNat_toNat
theorem int8 (v : Int8) : Codec.int8.Restores v := integer v.le_toInt v.toInt_lt (Int8.ofInt_toInt v)
theorem int16 (v : Int16) : Codec.int16.Restores v := integer v.le_toInt v.toInt_lt (Int16.ofInt_toInt v)
theorem int32 (v : Int32) : Codec.int32.Restores v := integer v.le_toInt v.toInt_lt (Int32.ofInt_toInt v)
theorem int64 (v : Int64) : Codec.int64.Restores v := integer v.le_toInt v.toInt_lt (Int64.ofInt_toInt v)

theorem write_single {x : Binary32} (h : x.isFinite = true) : Codec.single.write x = .number (singleText x) := if_pos h
theorem write_double {x : Binary64} (h : x.isFinite = true) : Codec.double.write x = .number (doubleText x) := if_pos h

/-- A finite number is read back if its text is. -/
theorem single {x : Binary32} (hfinite : x.isFinite = true)
    (htext : (Numeral.parse? (singleText x).toList).bind Numeral.single? = some x) : Codec.single.Restores x := by
  have hread (s : String) : Codec.single.read (.number s) = (Numeral.parse? s.toList).bind Numeral.single? := rfl
  rw [Codec.Restores, write_single hfinite, hread, htext]

theorem double {x : Binary64} (hfinite : x.isFinite = true)
    (htext : (Numeral.parse? (doubleText x).toList).bind Numeral.double? = some x) : Codec.double.Restores x := by
  have hread (s : String) : Codec.double.read (.number s) = (Numeral.parse? s.toList).bind Numeral.double? := rfl
  rw [Codec.Restores, write_double hfinite, hread, htext]

/-! ## Collections -/

theorem option_none : (Codec.option c).Restores none := rfl

/-- What is not `null` is something. -/
theorem read_option {j : Json} (hj : j ≠ .null) : (Codec.option c).read j = (c.read j).map some := by
  cases j with
  | null => exact absurd rfl hj
  | _ => rfl

theorem option_some_iff : (Codec.option c).Restores (some a) ↔ c.write a ≠ .null ∧ c.Restores a := by
  show (Codec.option c).read (c.write a) = some (some a) ↔ _ ∧ c.read (c.write a) = some a
  by_cases hnull : c.write a = .null
  · rw [hnull]
    constructor
    · intro h
      cases h
    · intro h
      exact absurd rfl h.1
  · rw [read_option hnull]
    simp [hnull]

theorem option {o : Option α} (hnull : ∀ a, c.write a ≠ .null) (h : ∀ a ∈ o, c.Restores a) :
    (Codec.option c).Restores o := by
  cases o with
  | none => exact option_none
  | some a => exact option_some_iff.2 ⟨hnull a, h a rfl⟩

theorem list_iff {as : List α} : (Codec.list c).Restores as ↔ ∀ a ∈ as, c.Restores a := by
  show (as.map c.write).mapM c.read = some as ↔ _
  rw [mapM_eq_some, List.forall₂_map_left_iff, List.forall₂_same]
  rfl

theorem list {as : List α} (h : ∀ a ∈ as, c.Restores a) : (Codec.list c).Restores as := list_iff.2 h

section SortedMap

variable {κ : Type} [Ordinal κ] {bound : Nat} {ofNat : Nat → κ}

/-- Every key is below the bound, and read back as itself. -/
def Bounds (bound : Nat) (ofNat : Nat → κ) : Prop :=
  ∀ k : κ, Ordinal.toNat k < bound ∧ ofNat (Ordinal.toNat k) = k

theorem bounds_uint8 : Bounds (2 ^ 8) UInt8.ofNat := fun k => ⟨k.toNat_lt, UInt8.ofNat_toNat⟩
theorem bounds_uint16 : Bounds (2 ^ 16) UInt16.ofNat := fun k => ⟨k.toNat_lt, UInt16.ofNat_toNat⟩

/-- A member of an object that stands for an entry. -/
def IsEntry (c : Codec α) (e : κ × α) (m : Key × Json) : Prop :=
  m.1 = .plain (decimal (Ordinal.toNat e.1)) ∧ c.read m.2 = some e.2

theorem readEntry (hb : Bounds bound ofNat) (c : Codec α) (k : κ) (j : Json) :
    (do
      let n ← (← Numeral.parse? (decimal (Ordinal.toNat k)).toList).natural?
      if n < bound then return (ofNat n, ← c.read j) else none) = (c.read j).map fun a => (k, a) := by
  obtain ⟨hlt, hof⟩ := hb k
  rw [Numeral.parse?_decimal]
  show (if digitsValue (Nat.toDigits 10 (Ordinal.toNat k)) < bound then _ else none) = _
  rw [digitsValue_toDigits, if_pos hlt, hof]
  cases c.read j <;> rfl

/-- An object is read as the map of its entries. -/
theorem read_sortedMap (hb : Bounds bound ofNat) {es : List (κ × α)} {ms : List (Key × Json)}
    (h : List.Forall₂ (IsEntry c) es ms) : (Codec.sortedMap bound ofNat c).read (.object ms) = some (.ofList es) := by
  refine Option.bind_eq_some_iff.2 ⟨es, mapM_eq_some.2 (h.flip.imp ?_), rfl⟩
  rintro ⟨_, j⟩ ⟨k, a⟩ ⟨rfl, hj⟩
  refine (readEntry hb c k j).trans ?_
  rw [show c.read j = some a from hj]
  rfl

theorem sortedMap {m : SortedMap κ α} (hb : Bounds bound ofNat) (h : ∀ e ∈ m.entries, c.Restores e.2) :
    (Codec.sortedMap bound ofNat c).Restores m := by
  refine (read_sortedMap hb ?_).trans (congrArg some m.ofList_entries)
  rw [List.forall₂_map_right_iff, List.forall₂_same]
  exact fun e he => ⟨rfl, h e he⟩

theorem of_sortedMap {m : SortedMap κ α} (hb : Bounds bound ofNat) (h : (Codec.sortedMap bound ofNat c).Restores m) :
    ∀ e ∈ m.entries, c.Restores e.2 := by
  obtain ⟨es, hes, hm⟩ := Option.bind_eq_some_iff.1 h
  rw [mapM_eq_some, List.forall₂_map_left_iff] at hes
  have hread : List.Forall₂ (fun e e' => e.1 = e'.1 ∧ c.read (c.write e.2) = some e'.2) m.entries es := by
    refine hes.imp fun e e' he => ?_
    obtain ⟨a, ha, rfl⟩ := Option.map_eq_some_iff.1 ((readEntry hb c e.1 (c.write e.2)).symm.trans he)
    exact ⟨rfl, ha⟩
  -- the entries that are read have the keys of the map, so they are all of its entries
  have hkeys : m.entries.map (Ordinal.toNat ·.1) = es.map (Ordinal.toNat ·.1) := by
    rw [← List.forall₂_eq_eq_eq, List.forall₂_map_left_iff, List.forall₂_map_right_iff]
    exact hread.imp fun _ _ he => congrArg Ordinal.toNat he.1
  have hascending : Ascending es := by
    have := List.pairwise_map.2 m.ascending
    rw [hkeys] at this
    exact List.pairwise_map.1 this
  have hentries : es = m.entries := by
    rw [← Option.some.inj hm, SortedMap.entries_ofList hascending]
  rw [hentries, List.forall₂_same] at hread
  exact fun e he => (hread e he).2

end SortedMap

/-! ## Variants -/

theorem enumeration {all : List α} {name : α → String} (h : (all.find? fun b => name b = name a) = some a) :
    (Codec.enumeration all name).Restores a := h

end Codec.Restores

/-! ## Records -/

namespace Fields

/-- What is written of each field is read back as the field. -/
def Restores : {τ : Type} → Fields τ → τ → Prop
  | _, .nil, _ => True
  | _, .cons _ codec _ rest, (a, b) => codec.Restores a ∧ rest.Restores b

theorem Restores.nil : Fields.nil.Restores () := trivial

theorem Restores.cons {α β : Type} {name : String} {codec : Codec α} {absence : Absence α} {rest : Fields β} {a : α}
    {b : β} (ha : codec.Restores a) (hb : rest.Restores b) : (Fields.cons name codec absence rest).Restores (a, b) :=
  ⟨ha, hb⟩

/-- The fields have names of their own, and make up the record one to one. -/
structure Describe {τ α : Type} (fields : Fields τ) (toFields : α → τ) (ofFields : τ → α) : Prop where
  distinct : fields.names.Nodup
  of_to : ∀ a, ofFields (toFields a) = a
  to_of : ∀ t, toFields (ofFields t) = t

/-- The members give each field its value, in order; a field may be missing if that is its value then. -/
inductive Holds : {τ : Type} → Fields τ → τ → List (Key × Json) → Prop
  | nil : Holds .nil () []
  | kept {α β : Type} {name : String} {codec : Codec α} {absence : Absence α} {rest : Fields β} {a : α} {b : β}
    {j : Json} {ms : List (Key × Json)} (hj : codec.read j = some a) (h : rest.Holds b ms) :
    Holds (.cons name codec absence rest) (a, b) ((.plain name, j) :: ms)
  | left {α β : Type} {name : String} {codec : Codec α} {absence : Absence α} {rest : Fields β} {a : α} {b : β}
    {ms : List (Key × Json)} (ha : absence.inObject = some a) (h : rest.Holds b ms) :
    Holds (.cons name codec absence rest) (a, b) ms

variable {τ : Type} {fields : Fields τ}

/-- A member that no field has the name of changes nothing. -/
theorem readObject_cons {name : String} (hname : name ∉ fields.names) (j : Json) (ms : List (Key × Json)) :
    fields.readObject ((.plain name, j) :: ms) = fields.readObject ms := by
  induction fields with
  | nil => rfl
  | cons s codec absence rest ih =>
    obtain ⟨hs, hrest⟩ := not_or.1 (List.mem_cons.not.1 hname)
    have hfield : readField s codec absence ((.plain name, j) :: ms) = readField s codec absence ms := by
      unfold readField
      rw [List.filter_cons_of_neg]
      exact fun h => hs (Option.some.inj (of_decide_eq_true h))
    rw [readObject, readObject, hfield, ih hrest]

theorem filter_eq_nil {name : String} {ms : List (Key × Json)} (h : ∀ m ∈ ms, m.1.text? ≠ some name) :
    (ms.filter fun m => m.1.text? = some name) = [] :=
  List.filter_eq_nil_iff.2 fun m hm hm' => h m hm (of_decide_eq_true hm')

/-- The only member of a field's name is the field. -/
theorem readField_cons {α : Type} {name : String} (codec : Codec α) (absence : Absence α) (j : Json)
    {ms : List (Key × Json)} (h : ∀ m ∈ ms, m.1.text? ≠ some name) :
    readField name codec absence ((.plain name, j) :: ms) = codec.read j := by
  have hfilter : (((.plain name, j) :: ms).filter fun m => m.1.text? = some name) = [(.plain name, j)] := by
    rw [List.filter_cons, filter_eq_nil h]
    exact if_pos (decide_eq_true rfl)
  unfold readField
  rw [hfilter]

theorem readField_of_forall_ne {α : Type} {name : String} (codec : Codec α) (absence : Absence α)
    {ms : List (Key × Json)} (h : ∀ m ∈ ms, m.1.text? ≠ some name) :
    readField name codec absence ms = absence.inObject := by
  unfold readField
  rw [filter_eq_nil h]

/-- Every member has the name of a field. -/
theorem Holds.exists_name {t : τ} {ms : List (Key × Json)} (h : fields.Holds t ms) :
    ∀ m ∈ ms, ∃ s ∈ fields.names, m.1 = .plain s := by
  induction h with
  | nil => exact fun _ hm => nomatch hm
  | @kept _ _ name _ _ _ _ _ _ _ _ _ ih =>
    intro m hm
    rcases List.mem_cons.1 hm with rfl | hm
    · exact ⟨name, List.mem_cons_self, rfl⟩
    · obtain ⟨s, hs, hk⟩ := ih m hm
      exact ⟨s, List.mem_cons_of_mem _ hs, hk⟩
  | left _ _ ih =>
    intro m hm
    obtain ⟨s, hs, hk⟩ := ih m hm
    exact ⟨s, List.mem_cons_of_mem _ hs, hk⟩

theorem Holds.forall_ne {t : τ} {ms : List (Key × Json)} (h : fields.Holds t ms) {name : String}
    (hname : name ∉ fields.names) : ∀ m ∈ ms, m.1.text? ≠ some name := by
  intro m hm hm'
  obtain ⟨s, hs, hk⟩ := h.exists_name m hm
  rw [hk] at hm'
  exact hname (Option.some.inj hm' ▸ hs)

/-- **Members that hold the fields are read as these.** -/
theorem Holds.readObject {t : τ} {ms : List (Key × Json)} (h : fields.Holds t ms) (hnames : fields.names.Nodup) :
    fields.readObject ms = some t := by
  induction h with
  | nil => rfl
  | @kept _ _ name codec absence rest a b j ms hj h ih =>
    obtain ⟨hname, hrest⟩ := List.nodup_cons.1 hnames
    rw [Fields.readObject, readField_cons codec absence j (h.forall_ne hname), hj, readObject_cons hname,
      ih hrest]
    rfl
  | @left _ _ name codec absence rest a b ms ha h ih =>
    obtain ⟨hname, hrest⟩ := List.nodup_cons.1 hnames
    rw [Fields.readObject, readField_of_forall_ne codec absence (h.forall_ne hname), ha, ih hrest]
    rfl

theorem Restores.holds_write {t : τ} (h : fields.Restores t) : fields.Holds t (fields.write t) := by
  induction fields with
  | nil => exact .nil
  | cons name codec absence rest ih => exact .kept h.1 (ih h.2)

theorem map_fst_write (fields : Fields τ) (t : τ) : (fields.write t).map (·.1) = fields.names.map .plain := by
  induction fields with
  | nil => rfl
  | cons name codec absence rest ih => exact congrArg (Key.plain name :: ·) (ih t.2)

theorem forall_ne_write {name : String} (hname : name ∉ fields.names) (t : τ) :
    ∀ m ∈ fields.write t, m.1.text? ≠ some name := by
  intro m hm hm'
  have hkey := List.mem_map_of_mem (f := (·.1)) hm
  rw [map_fst_write] at hkey
  obtain ⟨s, hs, hk⟩ := List.mem_map.1 hkey
  rw [← hk] at hm'
  exact hname (Option.some.inj hm' ▸ hs)

/-- What is written of fields is read field by field. -/
theorem readObject_write_cons {α β : Type} {name : String} {codec : Codec α} {absence : Absence α} {rest : Fields β}
    (hname : name ∉ rest.names) {t u : α × β}
    (h : (cons name codec absence rest).readObject ((cons name codec absence rest).write t) = some u) :
    codec.read (codec.write t.1) = some u.1 ∧ rest.readObject (rest.write t.2) = some u.2 := by
  obtain ⟨a, b⟩ := t
  rw [write, readObject, readField_cons codec absence _ (forall_ne_write hname b), readObject_cons hname] at h
  obtain ⟨a', ha, h⟩ := Option.bind_eq_some_iff.1 h
  obtain ⟨b', hb, h⟩ := Option.bind_eq_some_iff.1 h
  obtain rfl := Option.some.inj h
  exact ⟨ha, hb⟩

/-- If all fields are read back together, each of them is read back. -/
theorem restores_of_readObject (hnames : fields.names.Nodup) {t : τ}
    (h : fields.readObject (fields.write t) = some t) : fields.Restores t := by
  induction fields with
  | nil => exact .nil
  | cons name codec absence rest ih =>
    obtain ⟨hname, hrest⟩ := List.nodup_cons.1 hnames
    obtain ⟨ha, hb⟩ := readObject_write_cons hname h
    exact .cons ha (ih hrest hb)

end Fields

namespace Codec.Restores

variable {τ α : Type} {fields : Fields τ} {toFields : α → τ} {ofFields : τ → α} {a : α}

theorem read_record (hd : fields.Describe toFields ofFields) {ms : List (Key × Json)}
    (h : fields.Holds (toFields a) ms) : (Codec.record fields toFields ofFields).read (.object ms) = some a := by
  have hkeys : ms.all (·.1.text?.isSome) = true := by
    refine List.all_eq_true.2 fun m hm => ?_
    obtain ⟨s, -, hs⟩ := h.exists_name m hm
    rw [hs]
    rfl
  show (if ms.all (·.1.text?.isSome) then (fields.readObject ms).map ofFields else none) = _
  rw [if_pos hkeys, h.readObject hd.distinct, Option.map_some, hd.of_to]

theorem record (hd : fields.Describe toFields ofFields) (h : fields.Restores (toFields a)) :
    (Codec.record fields toFields ofFields).Restores a := read_record hd h.holds_write

theorem of_record (hd : fields.Describe toFields ofFields)
    (h : (Codec.record fields toFields ofFields).Restores a) : fields.Restores (toFields a) := by
  have hread : (if (fields.write (toFields a)).all (·.1.text?.isSome) then
      (fields.readObject (fields.write (toFields a))).map ofFields else none) = some a := h
  split at hread
  · obtain ⟨t, ht, rfl⟩ := Option.map_eq_some_iff.1 hread
    rw [hd.to_of] at ht
    rw [hd.to_of]
    exact Fields.restores_of_readObject hd.distinct ht
  · cases hread

end Codec.Restores

end BusNode
