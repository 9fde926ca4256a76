import BusNode.Proofs.Code.Declarations
import BusNode.Proofs.Halc.Acceptance
/-!
# The object of a domain

* `HalcCode.IsRecord` — what the record of an entry holds;
* `HalcCode.IsObject` — the object that the row of a domain points to, with the records of the domain;
* `HalcCode.domainRecords_eq_isObject` — a domain has its object whenever it has code;
* `HalcCode.IsCode` — the items of a domain and its row.
-/

namespace BusNode

open Halc

namespace HalcCode

/-! ## Statements -/

/-- The use case and the literals of the values, one for each parameter and of its type. -/
structure IsRecord (d : Domain) (r : Entry) (e : Expr) : Prop where
  literals : ∃ literals, e = .list (.constant (Literal.long r.useCase.toNat) :: literals.map .constant) ∧
    literals.length = d.parameters.length ∧ List.Forall₂ (fun v s => Literal.scalar v = .ok s) r.values literals
  types : r.values.map Scalar.type = d.parameters.map (·.type)

/-- The address in the row of a domain and the object at the address: the domain's own values if it has parameters and
no channel at all, and else nothing, one record or an array of records, as there are visible channels. -/
inductive IsObject (x : HalcCode) (d : Domain) : Pointer → List Item → Prop
  | own {e : Expr} (hown : d.channels = [] ∧ d.parameters ≠ []) (he : IsRecord d d.ownEntry e) :
    IsObject x d (some (.whole (x.valuesName d))) [.inlineObject (.record (x.channelType d) (x.valuesName d)) e none]
  | absent (hown : ¬(d.channels = [] ∧ d.parameters ≠ [])) (h : x.channels d = []) : IsObject x d none []
  | single {c : Channel} {e : Expr} (h : x.channels d = [c]) (he : IsRecord d c.entry e) :
    IsObject x d (some (.whole (x.singleName d)))
      [.inlineObject (.record (x.channelType d) (x.singleName d)) e (some c.name)]
  | array {rows : List Row} (h : 2 ≤ (x.channels d).length) (hrows : List.Forall₂ (fun c row =>
      ∃ e, row = .commented e c.name ∧ IsRecord d c.entry e) (x.channels d) rows) :
    IsObject x d (some (.item (x.arrayName d) 0))
      [.object (.table (x.channelType d) (x.arrayName d) (x.channels d).length) rows none]

/-- A domain with its items and its row. -/
structure IsCode (x : HalcCode) (d : Domain) (c : List Item × DomainRow) : Prop where
  name : c.2.name = d.name
  count : c.2.channelCount = (x.channels d).length
  items : ∃ objects, x.IsObject d c.2.channels objects ∧ c.1 = objects.flatMap fun i => [Item.blank, i]

variable {x : HalcCode} {d d' : Domain} {r : Entry} {name : String}

/-! ## Records -/

/-- What is related to the images of a function is so by way of their origins. -/
theorem exists_map_of_forall₂ {α β γ : Type} {R : α → γ → Prop} {f : γ → β} {l : List α} {bs : List β}
    (h : List.Forall₂ (fun a b => ∃ c, R a c ∧ b = f c) l bs) : ∃ cs, bs = cs.map f ∧ List.Forall₂ R l cs := by
  induction h with
  | nil => exact ⟨[], rfl, .nil⟩
  | cons hhead _ ih =>
    obtain ⟨c, hc, rfl⟩ := hhead
    obtain ⟨cs, rfl, hcs⟩ := ih
    exact ⟨c :: cs, rfl, .cons hc hcs⟩

theorem field_eq_ok {owner : String} {p : Parameter} {v : Scalar} {e : Expr} (h : field d owner p v = .ok e) :
    ∃ s, Literal.scalar v = .ok s ∧ e = .constant s := by
  unfold field at h
  split at h
  · cases h
  · split at h
    · rename_i s hs
      exact ⟨s, hs, (Except.ok.inj h).symm⟩
    · cases h

theorem record_eq_ok {e : Expr} (h : record d r.useCase r.values r.owner = .ok e) : IsRecord d r e := by
  have hfits := (decides_record d r).holds e h
  have hvalues : (d.parameters.zip r.values).map Prod.snd = r.values := List.map_snd_zip (Nat.le_of_eq hfits.length)
  have hparameters : (d.parameters.zip r.values).map Prod.fst = d.parameters :=
    List.map_fst_zip (Nat.le_of_eq hfits.length.symm)
  unfold record at h
  rw [if_neg (not_not.2 hfits.length)] at h
  obtain ⟨fields, hfields, h⟩ := bind_eq_ok.1 h
  obtain rfl := pure_eq_ok.1 h
  obtain ⟨literals, rfl, hliterals⟩ := exists_map_of_forall₂ ((mapM_eq_ok.1 hfields).imp fun _ _ he => field_eq_ok he)
  have hliterals : List.Forall₂ (fun v s => Literal.scalar v = .ok s) r.values literals := by
    rw [← hvalues, List.forall₂_map_left_iff]
    exact hliterals
  refine ⟨⟨literals, rfl, hliterals.length_eq.symm.trans hfits.length, hliterals⟩, ?_⟩
  conv_lhs => rw [← hvalues]
  conv_rhs => rw [← hparameters]
  rw [List.map_map, List.map_map]
  exact List.map_congr_left fun a ha => (hfits.value a ha).1

/-! ## Names -/

@[simp] theorem ending_valuesName : ending (x.valuesName d) = ['s', 'e', 'u'] := ending_append _ rfl rfl

@[simp] theorem ending_singleName : ending (x.singleName d) = ['l', 'e', 'n'] := ending_append _ rfl rfl

@[simp] theorem ending_arrayName : ending (x.arrayName d) = ['s', 'l', 'e'] := ending_append _ rfl rfl

@[simp] theorem ending_domainsName : ending x.domainsName = ['s', 'n', 'i'] := ending_append _ rfl rfl

@[simp] theorem ending_recordName (v : Variant) : ending v.recordName = ['n', 'o', 'i'] := ending_append _ rfl rfl

/-- A name of an object of the domain. -/
def IsName (x : HalcCode) (d : Domain) (name : String) : Prop :=
  name = x.valuesName d ∨ name = x.singleName d ∨ name = x.arrayName d

/-- The names tell the name of the domain. -/
theorem IsName.name_eq (h : x.IsName d name) (h' : x.IsName d' name) : d.name = d'.name := by
  rcases h with rfl | rfl | rfl <;> rcases h' with h' | h' | h'
  · simpa [valuesName, toString, String.append_left_inj, String.append_right_inj] using h'
  · exact absurd h' (ne_of_ending (by simp))
  · exact absurd h' (ne_of_ending (by simp))
  · exact absurd h' (ne_of_ending (by simp))
  · simpa [singleName, toString, String.append_left_inj, String.append_right_inj] using h'
  · exact absurd h' (ne_of_ending (by simp))
  · exact absurd h' (ne_of_ending (by simp))
  · exact absurd h' (ne_of_ending (by simp))
  · simpa [arrayName, toString, String.append_left_inj, String.append_right_inj] using h'

theorem IsName.ne (h : x.IsName d name) : name ≠ x.domainsName ∧ name ≠ x.variant.recordName := by
  rcases h with rfl | rfl | rfl <;> exact ⟨ne_of_ending (by simp), ne_of_ending (by simp)⟩

/-! ## Objects -/

/-- The items of a domain are its object after a blank line, if it has one. -/
theorem domainRecords_eq_isObject {items : List Item} {channels : Pointer}
    (h : x.domainRecords d = .ok (items, channels)) :
    ∃ objects, x.IsObject d channels objects ∧ items = objects.flatMap fun i => [Item.blank, i] := by
  unfold domainRecords at h
  split at h
  · rename_i hvisible
    split at h
    · rename_i hown
      obtain ⟨e, he, h⟩ := bind_eq_ok.1 h
      obtain ⟨rfl, rfl⟩ := Prod.mk.inj (pure_eq_ok.1 h)
      exact ⟨_, .own (hasOwn_iff.1 hown) (record_eq_ok (r := d.ownEntry) he), rfl⟩
    · rename_i hown
      obtain ⟨rfl, rfl⟩ := Prod.mk.inj (pure_eq_ok.1 h)
      exact ⟨_, .absent (mt hasOwn_iff.2 hown) hvisible, rfl⟩
  · rename_i c hvisible
    obtain ⟨e, he, h⟩ := bind_eq_ok.1 h
    obtain ⟨rfl, rfl⟩ := Prod.mk.inj (pure_eq_ok.1 h)
    exact ⟨_, .single hvisible (record_eq_ok (r := c.entry) he), rfl⟩
  · rename_i hnone hone
    obtain ⟨rows, hrows, h⟩ := bind_eq_ok.1 h
    obtain ⟨rfl, rfl⟩ := Prod.mk.inj (pure_eq_ok.1 h)
    have hrows := mapM_eq_ok.1 hrows
    have hlength : 2 ≤ (x.channels d).length := by
      have hne : (x.channels d).length ≠ 0 := fun h0 => hnone (List.length_eq_zero_iff.1 h0)
      have hne' : (x.channels d).length ≠ 1 := fun h1 => by
        obtain ⟨c, hc⟩ := List.length_eq_one_iff.1 h1
        exact hone c hc
      omega
    have hselect : Pointer.select rows.length (x.singleName d) (x.arrayName d) = some (.item (x.arrayName d) 0) := by
      rw [← hrows.length_eq, Pointer.select, if_neg (by omega), if_neg (by omega)]
    rw [hselect, ← hrows.length_eq]
    refine ⟨_, .array hlength (hrows.imp fun c row hrow => ?_), rfl⟩
    obtain ⟨e, he, hrow⟩ := bind_eq_ok.1 hrow
    exact ⟨e, (pure_eq_ok.1 hrow).symm, record_eq_ok (r := c.entry) he⟩

namespace IsObject

variable {channels : Pointer} {objects : List Item}

/-- An object has the name that its address gives. -/
theorem object (h : x.IsObject d channels objects) : (channels = none ∧ objects = []) ∨
    ∃ a i o, channels = some a ∧ objects = [i] ∧ i.object? = some o ∧ o.name = a.object ∧ x.IsName d a.object := by
  cases h with
  | own hown he => exact .inr ⟨_, _, _, rfl, rfl, rfl, rfl, .inl rfl⟩
  | absent hown h => exact .inl ⟨rfl, rfl⟩
  | single h he => exact .inr ⟨_, _, _, rfl, rfl, rfl, rfl, .inr (.inl rfl)⟩
  | array h hrows => exact .inr ⟨_, _, _, rfl, rfl, rfl, rfl, .inr (.inr rfl)⟩

/-- An object is named after its domain. -/
theorem isName (h : x.IsObject d channels objects) {a : Place} (ha : channels = some a) : x.IsName d a.object := by
  rcases h.object with ⟨rfl, -⟩ | ⟨b, -, -, rfl, -, -, -, hname⟩
  · cases ha
  · exact Option.some.inj ha ▸ hname

theorem length_eq_one (h : x.IsObject d channels objects) {a : Place} (ha : channels = some a) :
    objects.length = 1 := by
  rcases h.object with ⟨rfl, -⟩ | ⟨-, -, -, -, rfl, -⟩
  · cases ha
  · rfl

/-- Objects of one name have one address. -/
theorem place_eq {a b : Place} {objects' : List Item} (h : x.IsObject d (some a) objects)
    (h' : x.IsObject d' (some b) objects') (hsame : a.object = b.object) : a = b := by
  cases h <;> cases h'
  all_goals first
    | exact congrArg Place.whole hsame
    | exact congrArg (Place.item · 0) hsame
    | exact absurd hsame (ne_of_ending (by simp [Place.whole, Place.item]))

theorem own_iff (h : x.IsObject d channels objects) :
    channels = some (.whole (x.valuesName d)) ↔ d.channels = [] ∧ d.parameters ≠ [] := by
  have hsingle : x.singleName d ≠ x.valuesName d := ne_of_ending (by simp)
  cases h with
  | own hown he => exact iff_of_true rfl hown
  | absent hown h => exact iff_of_false (fun h => nomatch h) hown
  | single h he =>
    refine iff_of_false (fun hplace => ?_) fun hown => ?_
    · exact hsingle (congrArg Place.object (Option.some.inj hplace))
    · rw [channels_eq_nil hown.1] at h
      cases h
  | array h hrows =>
    refine iff_of_false (fun hplace => ?_) fun hown => ?_
    · cases hplace
    · rw [channels_eq_nil hown.1] at h
      cases h

theorem eq_select (h : x.IsObject d channels objects) (hothers : ¬(d.channels = [] ∧ d.parameters ≠ [])) :
    channels = .select (x.channels d).length (x.singleName d) (x.arrayName d) := by
  unfold Pointer.select
  cases h with
  | own hown he => exact absurd hown hothers
  | absent hown h => rw [h, List.length_nil, if_pos rfl]
  | single h he => rw [h, List.length_singleton, if_neg (by omega), if_pos rfl]
  | array h hrows => rw [if_neg (by omega), if_neg (by omega)]

/-- The items of a domain declare its object. -/
theorem declarations_eq (h : x.IsObject d channels objects) {a : Place} (ha : channels = some a) :
    File.declarations ⟨objects.flatMap fun i => [Item.blank, i]⟩ a.object = objects := by
  rcases h.object with ⟨rfl, -⟩ | ⟨b, i, o, hb, rfl, ho, hname, -⟩
  · cases ha
  · obtain rfl : a = b := Option.some.inj (ha.symm.trans hb)
    have hblank : Item.blank.object? = none := rfl
    simp [File.declarations, hblank, ho, hname]

/-- The items of a domain declare the name at its address only. -/
theorem declarations_eq_nil (h : x.IsObject d channels objects) (hname : ∀ a, channels = some a → a.object ≠ name) :
    File.declarations ⟨objects.flatMap fun i => [Item.blank, i]⟩ name = [] := by
  refine File.declarations_eq_nil fun i hi o ho => ?_
  rcases h.object with ⟨-, rfl⟩ | ⟨a, j, o', ha, rfl, ho', hplace, -⟩
  · cases hi
  · simp only [List.flatMap_singleton, List.mem_cons, List.not_mem_nil, or_false] at hi
    rcases hi with rfl | rfl
    · cases ho
    · obtain rfl : o = o' := Option.some.inj (ho.symm.trans ho')
      exact hplace ▸ hname a ha

end IsObject

/-! ## Code -/

theorem domainCode_eq_ok {c : List Item × DomainRow} (h : x.domainCode d = .ok c) : x.IsCode d c := by
  obtain ⟨⟨items, channels⟩, hrecords, h⟩ := bind_eq_ok.1 h
  obtain rfl := pure_eq_ok.1 h
  exact ⟨rfl, rfl, domainRecords_eq_isObject hrecords⟩

end HalcCode

end BusNode
