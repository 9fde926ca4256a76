import BusNode.Proofs.Can.Carrier
import BusNode.Proofs.Datapool.Names
/-!
# Elements that keep different names

A message gives its elements names that begin with its own. Whether different elements still have different names then
depends on how the names of messages and elements can be cut at an underscore.

* `Can.Clash` — two elements of a list take one name;
* `Can.nodup_names_iff` — names of elements stay different unless there is a clash;
* `Can.PlainMessages` — names of messages that make no clash;
* `Datapool.renamed_names` — what this means for the lists of a Datapool, their structures and their index names;
  `Datapool.clash_cockpit` — a clash.
-/

namespace BusNode

open Can

/-- Of items whose images are all different, the place is known by the image. -/
theorem nodup_map_iff_getElem? {α β : Type} {l : List α} {f : α → β} :
    (l.map f).Nodup ↔ ∀ (i j : Nat) a b, l[i]? = some a → l[j]? = some b → f a = f b → i = j := by
  constructor
  · intro h i j a b ha hb hab
    have hi : i < (l.map f).length := by
      rw [List.length_map]
      exact (List.getElem?_eq_some_iff.1 ha).1
    refine (List.getElem?_inj hi h).1 ?_
    rw [List.getElem?_map, List.getElem?_map, ha, hb, Option.map_some, Option.map_some, hab]
  · intro h
    rw [List.nodup_iff_getElem?_ne_getElem?]
    intro i j hij hj hsame
    rw [List.length_map] at hj
    have hi : i < l.length := by omega
    rw [List.getElem?_map, List.getElem?_map, List.getElem?_eq_getElem hi, List.getElem?_eq_getElem hj] at hsame
    have hplace : i = j :=
      h i j _ _ (List.getElem?_eq_getElem hi) (List.getElem?_eq_getElem hj) (Option.some.inj hsame)
    omega

namespace Can

/-- Two elements of a list take one name: names of messages and elements, as `f` has them, can be cut in two ways. -/
inductive Clash (f : String → String) (l : ElementList) (messages : List Message) (i j : Nat) : Prop where
  /-- Messages name both, one message goes on as the element of the other begins. -/
  | carried {m m' : Message} {e e' : Element} {r : String} (hm : IsLastCarrier messages i m)
      (hm' : IsLastCarrier messages j m') (he : l.elements[i]? = some e) (he' : l.elements[j]? = some e')
      (hmessage : f m'.name = f m.name ++ "_" ++ r) (helement : f e.name = r ++ "_" ++ f e'.name)
  /-- A message names one as the other one is called. -/
  | kept {m : Message} {e e' : Element} (hm : IsLastCarrier messages i m) (hkept : ∀ m ∈ messages, ¬m.Carries j)
      (he : l.elements[i]? = some e) (he' : l.elements[j]? = some e') (hname : f e'.name = f m.name ++ "_" ++ f e.name)

variable {f : String → String} {l : ElementList} {messages : List Message} {m : Message} {element i j : Nat}
  {e e' : Element}

theorem IsLastCarrier.mem (h : IsLastCarrier messages element m) : m ∈ messages := by
  obtain ⟨before, after, rfl, -⟩ := h
  simp

theorem IsLastCarrier.carries (h : IsLastCarrier messages element m) : m.Carries element := by
  obtain ⟨before, after, -, hm, -⟩ := h
  exact hm

/-- The last message with an element names it. -/
theorem IsLastCarrier.nameAfter_eq (h : IsLastCarrier messages element m) (name : String) :
    nameAfter messages element name = m.name ++ "_" ++ name := by
  obtain ⟨before, after, rfl, hm, hafter⟩ := h
  have hnone : after.reverse.find? (fun m => decide (m.Carries element)) = none := by
    rw [List.find?_eq_none]
    intro m' hm'
    simpa using hafter m' (List.mem_reverse.1 hm')
  have hlast : (m :: before.reverse).find? (fun m => decide (m.Carries element)) = some m :=
    List.find?_cons_of_pos (decide_eq_true hm)
  unfold nameAfter
  rw [List.reverse_append, List.reverse_cons, List.append_assoc, List.singleton_append, List.find?_append, hnone,
    Option.none_or, hlast]
  rfl

/-- An element has a last carrier, or keeps its name. -/
theorem lastCarrier_or_kept (messages : List Message) (element : Nat) :
    (∃ m, IsLastCarrier messages element m) ∨ ∀ m ∈ messages, ¬m.Carries element := by
  by_cases h : ∃ m ∈ messages, m.Carries element
  · obtain ⟨m, hm, -⟩ := exists_isLastCarrier "" h
    exact .inl ⟨m, hm⟩
  · refine .inr fun m hm hcarries => h ⟨m, hm, hcarries⟩

/-- No element clashes with itself. -/
theorem Clash.ne (h : Clash f l messages i j) : i ≠ j := by
  rintro rfl
  cases h with
  | carried hm hm' he he' hmessage helement =>
    obtain rfl := Option.some.inj (he.symm.trans he')
    exact ne_join_right _ _ helement
  | kept hm hkept he he' hname => exact hkept _ hm.mem hm.carries

section Compared

variable (hf : ∀ s t, f (s ++ "_" ++ t) = f s ++ "_" ++ f t)
include hf

/-- A clash makes one name of two. -/
theorem Clash.nameAfter_eq (h : Clash f l messages i j) : ∃ e e', l.elements[i]? = some e ∧ l.elements[j]? = some e' ∧
    f (nameAfter messages i e.name) = f (nameAfter messages j e'.name) := by
  cases h with
  | carried hm hm' he he' hmessage helement =>
    refine ⟨_, _, he, he', ?_⟩
    rw [hm.nameAfter_eq, hm'.nameAfter_eq, hf, hf, hmessage, helement, join_assoc]
  | kept hm hkept he he' hname =>
    refine ⟨_, _, he, he', ?_⟩
    rw [hm.nameAfter_eq, nameAfter_of_forall_not hkept, hf, hname]

/-- Where elements had different names, only a clash gives two of them one name. -/
theorem eq_or_clash (he : l.elements[i]? = some e) (he' : l.elements[j]? = some e')
    (hplace : f e.name = f e'.name → i = j)
    (hname : f (nameAfter messages i e.name) = f (nameAfter messages j e'.name)) :
    i = j ∨ Clash f l messages i j ∨ Clash f l messages j i := by
  rcases lastCarrier_or_kept messages i with ⟨m, hm⟩ | hkept <;>
    rcases lastCarrier_or_kept messages j with ⟨m', hm'⟩ | hkept'
  · rw [hm.nameAfter_eq, hm'.nameAfter_eq, hf, hf] at hname
    rcases join_eq_join.1 hname with ⟨-, hsame⟩ | ⟨r, hmessage, helement⟩ | ⟨r, hmessage, helement⟩
    · exact .inl (hplace hsame)
    · exact .inr (.inl (.carried hm hm' he he' hmessage helement))
    · exact .inr (.inr (.carried hm' hm he' he hmessage helement))
  · rw [hm.nameAfter_eq, nameAfter_of_forall_not hkept', hf] at hname
    exact .inr (.inl (.kept hm hkept' he he' hname.symm))
  · rw [nameAfter_of_forall_not hkept, hm'.nameAfter_eq, hf] at hname
    exact .inr (.inr (.kept hm' hkept he' he hname))
  · rw [nameAfter_of_forall_not hkept, nameAfter_of_forall_not hkept'] at hname
    exact .inl (hplace hname)

/-- **Elements keep different names unless there is a clash.** -/
theorem nodup_names_iff (h : (l.elements.map fun e => f e.name).Nodup) :
    ((l.renameSignals messages).elements.map fun e => f e.name).Nodup ↔ ∀ i j, ¬Clash f l messages i j := by
  rw [nodup_map_iff_getElem?] at h ⊢
  have hrenamed (k : Nat) (e : Element) (he : l.elements[k]? = some e) :
      (l.renameSignals messages).elements[k]? = some { e with name := nameAfter messages k e.name } := by
    rw [ElementList.renameSignals_eq, ElementList.getElem?_elements_rename, he]
    rfl
  constructor
  · intro hnames i j hclash
    obtain ⟨e, e', he, he', hname⟩ := hclash.nameAfter_eq hf
    exact hclash.ne (hnames i j _ _ (hrenamed i e he) (hrenamed j e' he') hname)
  · intro hclash i j a b ha hb hname
    rw [ElementList.renameSignals_eq, ElementList.getElem?_elements_rename, Option.map_eq_some_iff] at ha hb
    obtain ⟨e, he, rfl⟩ := ha
    obtain ⟨e', he', rfl⟩ := hb
    rcases eq_or_clash hf he he' (h i j e e' he he') hname with hplace | hij | hji
    · exact hplace
    · exact absurd hij (hclash i j)
    · exact absurd hji (hclash j i)

end Compared

/-- No message has a name that, before an underscore, begins the name of another one or of an element that is kept. -/
structure PlainMessages (f : String → String) (l : ElementList) (messages : List Message) : Prop where
  others : ∀ m ∈ messages, ∀ m' ∈ messages, ¬Extends (f m.name) (f m'.name)
  kept : ∀ m ∈ messages, ∀ k e, l.elements[k]? = some e → (∀ m' ∈ messages, ¬m'.Carries k) →
    ¬Extends (f m.name) (f e.name)

theorem PlainMessages.not_clash (h : PlainMessages f l messages) (i j : Nat) : ¬Clash f l messages i j := by
  intro hclash
  cases hclash with
  | carried hm hm' he he' hmessage helement => exact h.others _ hm.mem _ hm'.mem ⟨_, hmessage⟩
  | kept hm hkept he he' hname => exact h.kept _ hm.mem j _ he' hkept ⟨_, hname⟩

end Can

/-! ## Members -/

namespace Element

theorem underscore_notMem_marker (isArray : Bool) (t : ScalarType) : '_' ∉ (t.marker isArray).toList := by
  cases isArray <;> cases t <;> decide +kernel

/-- Before the underscore a member has its type, after it the name of its element. -/
theorem name_eq_of_member {e e' : Element} (h : e.member = e'.member) : e.name = e'.name := by
  have hwords : words (e.type.marker e.isArray ++ "_" ++ e.name) =
      words (e'.type.marker e'.isArray ++ "_" ++ e'.name) := congrArg words h
  rw [words_join, words_join, words_of_plain (underscore_notMem_marker _ _),
    words_of_plain (underscore_notMem_marker _ _)] at hwords
  exact words_injective (List.cons.inj hwords).2

theorem nodup_members {l : ElementList} (h : (l.elements.map Element.name).Nodup) :
    (l.elements.map Element.member).Nodup :=
  List.pairwise_map.2 ((List.pairwise_map.1 h).imp fun hne hsame => hne (name_eq_of_member hsame))

end Element

/-! ## Datapools -/

namespace Datapool

/-- **Naming elements after messages keeps their names different unless there is a clash.** Take a list whose elements
have different names, whether or not capital letters matter (`f`). After the naming they have different names just if no
two of them clash, and none do where no name of a message begins, before an underscore, that of another message or of
an element without signals. With different names the members of the structure of the list are different, and with names
that are different whatever their capitals are, so is all that the header defines for the list. -/
theorem renamed_names (d : Datapool) (p : Protocol) (list : Nat) (l' : ElementList)
    (h : (d.renameSignals p).lists[list]? = some l') : ∃ l, d.lists[list]? = some l ∧
      (∀ f, f = id ∨ f = upper → (l.elements.map fun e => f e.name).Nodup →
        ((l'.elements.map fun e => f e.name).Nodup ↔
          ∀ i j, ¬Clash f l (messagesAt (p.containers.take 256) list) i j) ∧
        (PlainMessages f l (messagesAt (p.containers.take 256) list) → (l'.elements.map fun e => f e.name).Nodup)) ∧
      ((l'.elements.map Element.name).Nodup → (l'.elements.map Element.member).Nodup) ∧
      ∀ x : DatapoolCode, x.datapool = d.renameSignals p →
        ((File.definedNames ⟨x.listDefines l'⟩).Nodup ↔ (l'.elements.map fun e => upper e.name).Nodup) := by
  rw [getElem?_renameSignals, Option.map_eq_some_iff] at h
  obtain ⟨l, hl, rfl⟩ := h
  refine ⟨l, hl, fun f hf hnames => ?_, Element.nodup_members, fun x _ => DatapoolCode.nodup_listDefines_iff⟩
  have hjoin : ∀ s t, f (s ++ "_" ++ t) = f s ++ "_" ++ f t := by
    intro s t
    rcases hf with rfl | rfl
    · rfl
    · exact upper_join s t
  have hiff : ((l.renameSignals (messagesAt (p.containers.take 256) list)).elements.map fun e => f e.name).Nodup ↔
      ∀ i j, ¬Clash f l (messagesAt (p.containers.take 256) list) i j := nodup_names_iff hjoin hnames
  exact ⟨hiff, fun hplain => hiff.2 hplain.not_clash⟩

/-- The elements of the deck keep different names, whatever their capitals are. -/
theorem renamed_names_deck : ∃ l', (deck.renameSignals (signalling 0x100)).lists[0]? = some l' ∧
    (l'.elements.map Element.member).Nodup ∧
    (File.definedNames ⟨(⟨"Panel", deck.renameSignals (signalling 0x100), 0, 5, true, .own, 3, 0⟩ :
      DatapoolCode).listDefines l'⟩).Nodup := by
  obtain ⟨l', hl'⟩ : ∃ l', (deck.renameSignals (signalling 0x100)).lists[0]? = some l' :=
    Option.isSome_iff_exists.1 (by decide)
  obtain ⟨l, hl, hnames, hmembers, hdefines⟩ := renamed_names deck (signalling 0x100) 0 l' hl'
  obtain rfl := Option.some.inj hl
  have hplain (f : String → String) (hf : f = id ∨ f = upper) :
      PlainMessages f (deck.lists.headD (.new "")) (messagesAt ((signalling 0x100).containers.take 256) 0) := by
    have hothers : ∀ m ∈ messagesAt ((signalling 0x100).containers.take 256) 0,
        ∀ m' ∈ messagesAt ((signalling 0x100).containers.take 256) 0, ¬Extends (f m.name) (f m'.name) := by
      rcases hf with rfl | rfl <;> decide +kernel
    have helements : ∀ m ∈ messagesAt ((signalling 0x100).containers.take 256) 0,
        ∀ e ∈ (deck.lists.headD (.new "")).elements, ¬Extends (f m.name) (f e.name) := by
      rcases hf with rfl | rfl <;> decide +kernel
    exact ⟨hothers, fun m hm k e he _ => helements m hm e (List.mem_of_getElem? he)⟩
  refine ⟨l', hl', hmembers ((hnames id (.inl rfl) (by decide)).2 (hplain id (.inl rfl))), ?_⟩
  exact (hdefines _ rfl).2 ((hnames upper (.inr rfl) (by decide +kernel)).2 (hplain upper (.inr rfl)))

/-- The lamps and their left one. -/
def cockpit : Datapool := { Datapool.new "Cockpit" .com (some 0) with
  lists := [
    { ElementList.new "Tx1" with
      elements := [.scalar "Left_State" (.u8 0) (.u8 0) (.u8 1), .scalar "State" (.u8 0) (.u8 0) (.u8 1)] },
    ElementList.new "Rx1"] }

/-- A message for the lamps, and one for the left lamp. -/
def lamps : Protocol := ⟨.layer2, 0, [⟨true,
  [{ Message.new "Lamp" 0x100 1 .onChange with signals := [Signal.new 0 0 1] },
    { Message.new "Lamp_Left" 0x200 1 .onChange with signals := [Signal.new 1 0 1] }], []⟩]⟩

/-- The state of the left lamp is named after either message. -/
theorem clash_cockpit :
    (∀ l ∈ cockpit.lists, (l.elements.map Element.name).Nodup) ∧
    (∀ c ∈ lamps.containers, (c.txMessages.map (·.name)).Nodup ∧ (c.rxMessages.map (·.name)).Nodup) ∧
    ¬∀ l ∈ (cockpit.renameSignals lamps).lists, (l.elements.map Element.name).Nodup := by
  decide

end Datapool

end BusNode
