import BusNode.Json.Codec
import BusNode.Proofs.Json.Printer
import BusNode.Proofs.Number.Text
/-!
# What writing keeps

* `Codec.Faithful` — a codec writes plain values, and what it writes alike is alike in a view;
* `Fields.Faithful` — the same for the fields of a record.

A view is needed for numbers that are not finite, all of which are written as `null` (`Binary.written`). Without such
numbers the view is the identity, and a codec writes no two things alike.
-/

namespace BusNode

/-- The number as far as it is written: numbers that are not finite are all one. -/
def Binary.written {p : Precision} (x : Binary p) : Binary p := if x.isFinite then x else .nan

theorem Binary.written_of_isFinite {p : Precision} {x : Binary p} (h : x.isFinite = true) : x.written = x := if_pos h

/-- What is written is plain, and what is written alike is alike in the view. -/
structure Codec.Faithful {α β : Type} (c : Codec α) (view : α → β) : Prop where
  plain : ∀ a, (c.write a).IsPlain
  view_eq : ∀ a b, c.write a = c.write b → view a = view b

namespace Codec.Faithful

variable {α β : Type} {c : Codec α} {view : α → β}

/-! ## Simple values -/

theorem bool : Codec.bool.Faithful id where
  plain b := .bool b
  view_eq _ _ h := Json.bool.inj h

theorem string : Codec.string.Faithful id where
  plain s := .string s
  view_eq _ _ h := Json.string.inj h

theorem natural {bound : Nat} {toNat : α → Nat} {ofNat : Nat → α} (h : Function.Injective toNat) :
    (Codec.natural bound toNat ofNat).Faithful id where
  plain a := .number (Numeral.spells_decimal (toNat a))
  view_eq _ _ hw := h (decimal_injective (Json.number.inj hw))

theorem integer {half : Nat} {toInt : α → Int} {ofInt : Int → α} (h : Function.Injective toInt) :
    (Codec.integer half toInt ofInt).Faithful id where
  plain a := .number (Numeral.spells_decimalInt (toInt a))
  view_eq _ _ hw := h (decimalInt_injective (Json.number.inj hw))

theorem uint8 : Codec.uint8.Faithful id := natural fun _ _ => UInt8.toNat.inj
theorem uint16 : Codec.uint16.Faithful id := natural fun _ _ => UInt16.toNat.inj
theorem uint32 : Codec.uint32.Faithful id := natural fun _ _ => UInt32.toNat.inj
theorem uint64 : Codec.uint64.Faithful id := natural fun _ _ => UInt64.toNat.inj
theorem int8 : Codec.int8.Faithful id := integer fun _ _ => Int8.toInt.inj
theorem int16 : Codec.int16.Faithful id := integer fun _ _ => Int16.toInt.inj
theorem int32 : Codec.int32.Faithful id := integer fun _ _ => Int32.toInt.inj
theorem int64 : Codec.int64.Faithful id := integer fun _ _ => Int64.toInt.inj

/-- A number that is written as its text, or as `null` if it is not finite. -/
theorem binary {p : Precision} {c : Codec (Binary p)} (l : Layout)
    (hc : ∀ x, c.write x = if x.isFinite then .number (x.text .even l) else .null) : c.Faithful Binary.written where
  plain x := by
    rw [hc]
    split
    · exact .number (Binary.spells_text .even l x)
    · exact .null
  view_eq x y h := by
    rw [hc, hc] at h
    unfold Binary.written
    split at h <;> split at h
    · rename_i hx hy
      rw [if_pos hx, if_pos hy]
      exact Binary.text_injective .even l hx hy (Json.number.inj h)
    · cases h
    · cases h
    · rename_i hx hy
      rw [if_neg hx, if_neg hy]

theorem double : Codec.double.Faithful Binary.written := binary (Numeral.layout (-5) 15) fun _ => rfl
theorem single : Codec.single.Faithful Binary.written := binary (Numeral.layout (-6) 12) fun _ => rfl

/-! ## Collections -/

theorem option (h : c.Faithful view) (hnull : ∀ a, c.write a ≠ .null) :
    (Codec.option c).Faithful (Option.map view) where
  plain
    | none => .null
    | some a => h.plain a
  view_eq
    | none, none, _ => rfl
    | none, some b, hw => absurd hw.symm (hnull b)
    | some a, none, hw => absurd hw (hnull a)
    | some a, some b, hw => congrArg some (h.view_eq a b hw)

theorem option_id (h : c.Faithful id) (hnull : ∀ a, c.write a ≠ .null) : (Codec.option c).Faithful id := by
  have := h.option hnull
  rwa [Option.map_id] at this

theorem map_view_eq (h : c.Faithful view) {as bs : List α} (hw : as.map c.write = bs.map c.write) :
    as.map view = bs.map view := by
  induction as generalizing bs with
  | nil =>
    rw [List.map_nil] at hw
    rw [List.map_eq_nil_iff.1 hw.symm]
  | cons a as ih =>
    cases bs with
    | nil => cases hw
    | cons b bs =>
      obtain ⟨hab, hw⟩ := List.cons.inj hw
      rw [List.map_cons, List.map_cons, h.view_eq a b hab, ih hw]

theorem list (h : c.Faithful view) : (Codec.list c).Faithful (List.map view) where
  plain as := .map h.plain as
  view_eq _ _ hw := h.map_view_eq (Json.array.inj hw)

theorem list_id (h : c.Faithful id) : (Codec.list c).Faithful id := by
  have := h.list
  rwa [List.map_id_fun] at this

theorem isPlain_decimal (n : Nat) : (Key.plain (decimal n)).IsPlain := by
  have hdigit : ∀ c ∈ (decimal n).toList, c.isDigit = true := by
    rw [toList_decimal]
    exact isDigit_toDigits n
  show '\\' ∉ Text.encode (decimal n).toList
  rw [Text.encode_of_isDigit hdigit]
  intro h
  have := hdigit _ h
  revert this
  decide

theorem sortedMap {κ : Type} [Ordinal κ] {bound : Nat} {ofNat : Nat → κ} (h : c.Faithful id) :
    (Codec.sortedMap bound ofNat c).Faithful id where
  plain m := by
    refine .object (fun x hx => ?_) fun x hx => ?_
    · obtain ⟨e, _, rfl⟩ := List.mem_map.1 hx
      exact isPlain_decimal _
    · obtain ⟨e, _, rfl⟩ := List.mem_map.1 hx
      exact h.plain e.2
  view_eq m n hw := by
    refine SortedMap.ext_entries ?_
    refine (List.map_injective_iff.2 ?_) (Json.object.inj hw)
    rintro ⟨k, a⟩ ⟨l, b⟩ he
    obtain ⟨hk, hv⟩ := Prod.mk.inj he
    rw [Ordinal.toNat_injective k l (decimal_injective (Key.plain.inj hk)), show a = b from h.view_eq a b hv]

/-! ## Variants -/

theorem isPlain_tagged {name : String} {j : Json} (hname : (Key.plain name).IsPlain) (h : j.IsPlain) :
    (Codec.tagged name j).IsPlain := by
  refine .object (fun m hm => ?_) fun m hm => ?_
  · rw [List.mem_singleton.1 hm]
    exact hname
  · rw [List.mem_singleton.1 hm]
    exact h

/-- A variant with data is its name and the data. -/
theorem tagged_inj {s t : String} {i j : Json} (h : Codec.tagged s i = Codec.tagged t j) : s = t ∧ i = j := by
  obtain ⟨hm, -⟩ := List.cons.inj (Json.object.inj h)
  obtain ⟨hk, hv⟩ := Prod.mk.inj hm
  exact ⟨Key.plain.inj hk, hv⟩

/-- Variants are told apart by their names if each is found by its own. -/
theorem enumeration {all : List α} {name : α → String} (h : ∀ a, (all.find? fun b => name b = name a) = some a) :
    (Codec.enumeration all name).Faithful id where
  plain a := .string (name a)
  view_eq a b hw := by
    have hname : name a = name b := Json.string.inj hw
    have hb := h b
    rw [← hname, h a] at hb
    exact Option.some.inj hb

end Codec.Faithful

/-! ## Records -/

namespace Fields

/-- The names of the fields. -/
def names : {τ : Type} → Fields τ → List String
  | _, .nil => []
  | _, .cons name _ _ rest => name :: rest.names

theorem isPlain_key {τ : Type} {fields : Fields τ} (h : ∀ s ∈ fields.names, (Key.plain s).IsPlain) (t : τ) :
    ∀ m ∈ fields.write t, m.1.IsPlain := by
  induction fields with
  | nil => exact fun _ hm => nomatch hm
  | cons name codec absence rest ih =>
    obtain ⟨a, b⟩ := t
    intro m hm
    rcases List.mem_cons.1 hm with rfl | hm
    · exact h name List.mem_cons_self
    · exact ih (fun s hs => h s (List.mem_cons_of_mem name hs)) b m hm

/-- The values of the fields are plain, and what is written alike is alike in the view. -/
structure Faithful {τ σ : Type} (fields : Fields τ) (view : τ → σ) : Prop where
  plain : ∀ t, ∀ m ∈ fields.write t, m.2.IsPlain
  view_eq : ∀ s t, fields.write s = fields.write t → view s = view t

namespace Faithful

theorem nil : Fields.nil.Faithful id where
  plain _ _ h := nomatch h
  view_eq _ _ _ := rfl

theorem cons {α β τ σ : Type} {c : Codec α} {view : α → β} {rest : Fields τ} {views : τ → σ} {name : String}
    {absence : Absence α} (h : c.Faithful view) (hrest : rest.Faithful views) :
    (Fields.cons name c absence rest).Faithful (Prod.map view views) where
  plain
    | (a, b), m, hm => by
      rcases List.mem_cons.1 hm with rfl | hm
      · exact h.plain a
      · exact hrest.plain b m hm
  view_eq
    | (a, b), (a', b'), hw => by
      obtain ⟨hm, hw⟩ := List.cons.inj hw
      exact Prod.ext (h.view_eq a a' (Prod.mk.inj hm).2) (hrest.view_eq b b' hw)

end Faithful

end Fields

namespace Codec.Faithful

variable {τ σ α β : Type} {fields : Fields τ} {toFields : α → τ} {ofFields : τ → α}

/-- A record whose view depends on the views of its fields. -/
theorem record {views : τ → σ} {view : α → β} (hnames : ∀ s ∈ fields.names, (Key.plain s).IsPlain)
    (h : fields.Faithful views) (hview : ∀ a b, views (toFields a) = views (toFields b) → view a = view b) :
    (Codec.record fields toFields ofFields).Faithful view where
  plain a := .object (Fields.isPlain_key hnames (toFields a)) (h.plain (toFields a))
  view_eq a b hw := hview a b (h.view_eq _ _ (Json.object.inj hw))

/-- A record that its fields make up, and none of whose fields needs a view. -/
theorem record_id {views : τ → τ} (hnames : ∀ s ∈ fields.names, (Key.plain s).IsPlain) (h : fields.Faithful views)
    (hviews : ∀ t, views t = t) (hof : ∀ a, ofFields (toFields a) = a) :
    (Codec.record fields toFields ofFields).Faithful id := by
  refine record hnames h fun a b hab => ?_
  rw [hviews, hviews] at hab
  have := congrArg ofFields hab
  rwa [hof, hof] at this

end Codec.Faithful

end BusNode
