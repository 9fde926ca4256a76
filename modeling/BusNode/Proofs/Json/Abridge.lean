import BusNode.Proofs.Json.Restore
/-!
# Documents with fields left out

* `Codec.Abridges` — a document is what is written of a value, with any fields left out that are then taken for what
  they are: anywhere in it, any number of them;
* `Codec.Abridges.read` — it is read as the value, if the value is read back at all;
* `Codec.Abridges.isPlain` — it is as plain as what is written.

The relation follows the codec, since only that says what a missing field is taken for. Where a document has no record
it is what is written.
-/

namespace BusNode

mutual

/-- The document is what the codec writes of the value, with fields left out that an object may lack and whose values
are what they are taken for then. -/
inductive Codec.Abridges : {α : Type} → Codec α → α → Json → Prop
  /-- Nothing is left out. -/
  | whole {α : Type} {c : Codec α} {a : α} : c.Abridges a (c.write a)
  | option {α : Type} {c : Codec α} {a : α} {j : Json} (h : c.Abridges a j) :
    Codec.Abridges (.option c) (some a) j
  | list {α : Type} {c : Codec α} {as : List α} {js : List Json} (hlength : as.length = js.length)
    (h : ∀ p ∈ as.zip js, c.Abridges p.1 p.2) : Codec.Abridges (.list c) as (.array js)
  | sortedMap {κ α : Type} [Ordinal κ] {bound : Nat} {ofNat : Nat → κ} {c : Codec α} {m : SortedMap κ α}
    {ms : List (Key × Json)} (hb : Codec.Restores.Bounds bound ofNat)
    (hkeys : ms.map (·.1) = m.entries.map fun e => .plain (decimal (Ordinal.toNat e.1)))
    (h : ∀ p ∈ m.entries.zip ms, c.Abridges p.1.2 p.2.2) :
    Codec.Abridges (.sortedMap bound ofNat c) m (.object ms)
  | record {τ α : Type} {fields : Fields τ} {toFields : α → τ} {ofFields : τ → α} {a : α} {ms : List (Key × Json)}
    (hd : fields.Describe toFields ofFields) (h : fields.Abridges (toFields a) ms) :
    Codec.Abridges (.record fields toFields ofFields) a (.object ms)

/-- The members are those that are written of the fields, but for the ones that are left out. -/
inductive Fields.Abridges : {τ : Type} → Fields τ → τ → List (Key × Json) → Prop
  | nil : Fields.nil.Abridges () []
  | kept {α β : Type} {name : String} {codec : Codec α} {absence : Absence α} {rest : Fields β} {a : α} {b : β}
    {j : Json} {ms : List (Key × Json)} (hj : codec.Abridges a j) (h : rest.Abridges b ms) :
    Fields.Abridges (.cons name codec absence rest) (a, b) ((.plain name, j) :: ms)
  /-- The field has the value that it has when it is missing. -/
  | left {α β : Type} {name : String} {codec : Codec α} {absence : Absence α} {rest : Fields β} {a : α} {b : β}
    {ms : List (Key × Json)} (ha : absence.inObject = some a) (h : rest.Abridges b ms) :
    Fields.Abridges (.cons name codec absence rest) (a, b) ms

end

namespace Codec.Abridges

theorem singleton {α : Type} {c : Codec α} {a : α} {j : Json} (h : c.Abridges a j) :
    (Codec.list c).Abridges [a] (.array [j]) :=
  .list rfl fun p hp => by rwa [List.mem_singleton.1 hp]

/-! ## Reading -/

/-- What is written as something is not abridged to nothing. -/
theorem ne_null {α : Type} {c : Codec α} {a : α} {j : Json} (hnull : c.write a ≠ .null) : c.Abridges a j → j ≠ .null
  | .whole => hnull
  | @option _ c _ _ h => ne_null (c := c) hnull h
  | .list _ _ => nofun
  | @sortedMap _ _ _ _ _ _ _ _ _ _ _ => nofun
  | .record _ _ => nofun

theorem forall₂_isEntry {κ α : Type} [Ordinal κ] {c : Codec α} {es : List (κ × α)} {ms : List (Key × Json)}
    (hkeys : ms.map (·.1) = es.map fun e => .plain (decimal (Ordinal.toNat e.1)))
    (h : ∀ p ∈ es.zip ms, c.read p.2.2 = some p.1.2) : List.Forall₂ (Restores.IsEntry c) es ms := by
  rw [eq_comm, ← List.forall₂_eq_eq_eq, List.forall₂_map_left_iff, List.forall₂_map_right_iff] at hkeys
  have hzip := List.forall₂_iff_zip.1 hkeys
  exact List.forall₂_iff_zip.2 ⟨hzip.1, fun hp => ⟨(hzip.2 hp).symm, h _ hp⟩⟩

end Codec.Abridges

-- The recursion is on the relation: a document by its constructor, the members of an object field by field.
mutual

/-- **An abridged document is read as the value**, if what is written of the value is. -/
theorem Codec.Abridges.read {α : Type} {c : Codec α} {a : α} {j : Json} (hr : c.Restores a) :
    c.Abridges a j → c.read j = some a
  | .whole => hr
  | .option h => by
    obtain ⟨hnull, hr⟩ := Codec.Restores.option_some_iff.1 hr
    rw [Codec.Restores.read_option (h.ne_null hnull), Codec.Abridges.read hr h, Option.map_some]
  | .list hlength h => by
    have hitems := Codec.Restores.list_iff.1 hr
    exact mapM_eq_some.2 <| List.Forall₂.flip <| List.forall₂_iff_zip.2 ⟨hlength, fun hp =>
      Codec.Abridges.read (hitems _ (List.of_mem_zip hp).1) (h _ hp)⟩
  | @Codec.Abridges.sortedMap _ _ _ _ _ c m ms hb hkeys h => by
    have hentries := Codec.Restores.of_sortedMap hb hr
    rw [Codec.Restores.read_sortedMap hb <| Codec.Abridges.forall₂_isEntry hkeys fun p hp =>
      Codec.Abridges.read (hentries _ (List.of_mem_zip hp).1) (h p hp), SortedMap.ofList_entries]
  | .record hd h => Codec.Restores.read_record hd (Fields.Abridges.holds (Codec.Restores.of_record hd hr) h)

theorem Fields.Abridges.holds {τ : Type} {fields : Fields τ} {t : τ} {ms : List (Key × Json)}
    (hr : fields.Restores t) : fields.Abridges t ms → fields.Holds t ms
  | .nil => .nil
  | .kept hj h => .kept (Codec.Abridges.read hr.1 hj) (Fields.Abridges.holds hr.2 h)
  | .left ha h => .left ha (Fields.Abridges.holds hr.2 h)

end

/-! ## Plainness -/

mutual

theorem Codec.Abridges.isPlain {α : Type} {c : Codec α} {a : α} {j : Json} (hp : (c.write a).IsPlain) :
    c.Abridges a j → j.IsPlain
  | .whole => hp
  | @Codec.Abridges.option _ c _ _ h => Codec.Abridges.isPlain (c := c) hp h
  | @Codec.Abridges.list _ c as js hlength h => by
    cases hp with
    | array hp =>
      have hitems : List.Forall₂ (fun _ j => j.IsPlain) as js := List.forall₂_iff_zip.2 ⟨hlength, fun hz =>
        Codec.Abridges.isPlain (hp _ (List.mem_map_of_mem (List.of_mem_zip hz).1)) (h _ hz)⟩
      refine .array fun j hj => ?_
      obtain ⟨a, -, ha⟩ := exists_of_mem_right hitems hj
      exact ha
  | @Codec.Abridges.sortedMap _ _ _ _ _ c m ms _ hkeys h => by
    cases hp with
    | object hk hv =>
      have hlength : m.entries.length = ms.length := by simpa using (congrArg List.length hkeys).symm
      have hitems : List.Forall₂ (fun _ x => x.2.IsPlain) m.entries ms := List.forall₂_iff_zip.2 ⟨hlength, fun hz =>
        Codec.Abridges.isPlain (hv _ (List.mem_map_of_mem (List.of_mem_zip hz).1)) (h _ hz)⟩
      refine .object (fun x hx => ?_) fun x hx => ?_
      · have hkey := List.mem_map_of_mem (f := (·.1)) hx
        rw [hkeys] at hkey
        obtain ⟨e, -, he⟩ := List.mem_map.1 hkey
        rw [← he]
        exact Codec.Faithful.isPlain_decimal _
      · obtain ⟨e, -, he⟩ := exists_of_mem_right hitems hx
        exact he
  | .record _ h => by
    cases hp with
    | object hk hv =>
      have hmembers := Fields.Abridges.isPlain (fun m hm => ⟨hk m hm, hv m hm⟩) h
      exact .object (fun m hm => (hmembers m hm).1) fun m hm => (hmembers m hm).2

theorem Fields.Abridges.isPlain {τ : Type} {fields : Fields τ} {t : τ} {ms : List (Key × Json)}
    (hp : ∀ m ∈ fields.write t, m.1.IsPlain ∧ m.2.IsPlain) :
    fields.Abridges t ms → ∀ m ∈ ms, m.1.IsPlain ∧ m.2.IsPlain
  | .nil => fun _ hm => nomatch hm
  | .kept hj h => fun m hm => by
    obtain ⟨hkey, hvalue⟩ := hp _ List.mem_cons_self
    rcases List.mem_cons.1 hm with rfl | hm
    · exact ⟨hkey, Codec.Abridges.isPlain hvalue hj⟩
    · exact Fields.Abridges.isPlain (fun m hm => hp m (List.mem_cons_of_mem _ hm)) h m hm
  | .left _ h => Fields.Abridges.isPlain (fun m hm => hp m (List.mem_cons_of_mem _ hm)) h

end

end BusNode
