import BusNode.Proofs.Can.Rename
import Mathlib.Data.List.Induction
/-!
# Elements and the messages that carry them

Elements are named after one message after another, a later one over an earlier one. Here it is said by element.

* `Can.Message.Carries`, `Can.IsLastCarrier` — a message has a signal of an element, and no message after it has;
* `ElementList.renameSignals_eq` — the elements of a list have the names of their last carriers;
* `Datapool.getElem?_renameSignals` — each list is named after the messages of its interface and direction;
* `Datapool.elements_named_after_carriers` — what becomes of every name, and that nothing else changes.
-/

namespace BusNode

open Can

namespace Can

/-! ## Carriers -/

/-- The message has a signal of the element. -/
def Message.Carries (m : Message) (element : Nat) : Prop := ∃ s ∈ m.signals, s.elementIndex.toNat = element

instance (m : Message) (element : Nat) : Decidable (m.Carries element) :=
  inferInstanceAs (Decidable (∃ s ∈ m.signals, s.elementIndex.toNat = element))

/-- The message carries the element, and none after it does. -/
def IsLastCarrier (messages : List Message) (element : Nat) (m : Message) : Prop :=
  ∃ before after, messages = before ++ m :: after ∧ m.Carries element ∧ ∀ m' ∈ after, ¬m'.Carries element

/-- The name of an element after messages. -/
def nameAfter (messages : List Message) (element : Nat) (name : String) : String :=
  match messages.reverse.find? (·.Carries element) with
  | some m => s!"{m.name}_{name}"
  | none => name

variable {messages : List Message} {m : Message} {element : Nat} {name : String}

theorem nameAfter_snoc : nameAfter (messages ++ [m]) element name =
    if m.Carries element then s!"{m.name}_{name}" else nameAfter messages element name := by
  unfold nameAfter
  rw [List.reverse_append, List.reverse_singleton, List.singleton_append, List.find?_cons]
  by_cases h : m.Carries element <;> simp [h]

theorem nameAfter_of_forall_not (h : ∀ m ∈ messages, ¬m.Carries element) : nameAfter messages element name = name := by
  induction messages using List.reverseRecOn with
  | nil => rfl
  | append_singleton messages m ih =>
    obtain ⟨hmessages, hm⟩ := List.forall_mem_append.1 h
    rw [nameAfter_snoc, if_neg (hm m (List.mem_singleton_self m)), ih hmessages]

/-- Of the messages that carry an element one is the last, and the element is named after it. -/
theorem exists_isLastCarrier (name : String) (h : ∃ m ∈ messages, m.Carries element) :
    ∃ m, IsLastCarrier messages element m ∧ nameAfter messages element name = s!"{m.name}_{name}" := by
  induction messages using List.reverseRecOn with
  | nil =>
    obtain ⟨m, hm, -⟩ := h
    cases hm
  | append_singleton messages last ih =>
    rw [nameAfter_snoc]
    by_cases hlast : last.Carries element
    · exact ⟨last, ⟨messages, [], rfl, hlast, List.forall_mem_nil _⟩, if_pos hlast⟩
    · have hbefore : ∃ m ∈ messages, m.Carries element := by
        obtain ⟨m, hm, hcarries⟩ := h
        rcases List.mem_append.1 hm with hm | hm
        · exact ⟨m, hm, hcarries⟩
        · exact absurd (List.mem_singleton.1 hm ▸ hcarries) hlast
      obtain ⟨m, ⟨before, after, rfl, hm, hafter⟩, hname⟩ := ih hbefore
      refine ⟨m, ⟨before, after ++ [last], by simp, hm, ?_⟩, (if_neg hlast).trans hname⟩
      exact List.forall_mem_append.2 ⟨hafter, List.forall_mem_singleton.2 hlast⟩

/-! ## Lists of interfaces -/

/-- The direction whose values a list holds. -/
def Direction.ofList (list : Nat) : Direction := if list % 2 = 0 then .tx else .rx

/-- A list tells its interface and direction. -/
theorem Direction.eq_listIndex_iff {list interface : Nat} {dir : Direction} :
    list = dir.listIndex interface ↔ interface = list / 2 ∧ dir = .ofList list := by
  unfold ofList
  cases dir <;> simp only [listIndex] <;> split <;> simp <;> omega

/-- The messages whose values a list holds, where each container is one interface. -/
def messagesAt (containers : List Container) (list : Nat) : List Message :=
  (containers[list / 2]?).elim [] (·.messages (.ofList list))

theorem messagesAt_listIndex {containers : List Container} {interface : Nat} {c : Container} {dir : Direction}
    (h : containers[interface]? = some c) : messagesAt containers (dir.listIndex interface) = c.messages dir := by
  have hplace : interface = dir.listIndex interface / 2 ∧ dir = .ofList (dir.listIndex interface) :=
    Direction.eq_listIndex_iff.1 rfl
  unfold messagesAt
  rw [← hplace.1, ← hplace.2, h]
  rfl

/-- Another container adds the messages of its own lists only. -/
theorem messagesAt_snoc (containers : List Container) (c : Container) (list : Nat) :
    messagesAt (containers ++ [c]) list =
      if list / 2 = containers.length then c.messages (.ofList list) else messagesAt containers list := by
  unfold messagesAt
  split
  · rename_i h
    rw [h, List.getElem?_concat_length]
    rfl
  · rename_i h
    rw [List.getElem?_append]
    split
    · rfl
    · have hone : [c][list / 2 - containers.length]? = none := List.getElem?_eq_none (by simp; omega)
      have hout : containers[list / 2]? = none := List.getElem?_eq_none (by omega)
      rw [hone, hout]

/-- What names elements in a message: its name, and the elements of its signals. -/
def Message.naming (m : Message) : String × List UInt32 := (m.name, m.signals.map (·.elementIndex))

/-- What names elements in a container. -/
def Container.naming (c : Container) : List (String × List UInt32) × List (String × List UInt32) :=
  (c.txMessages.map Message.naming, c.rxMessages.map Message.naming)

theorem map_naming_messagesAt (containers : List Container) (list : Nat) :
    (messagesAt containers list).map Message.naming =
      ((containers.map Container.naming)[list / 2]?).elim [] fun names =>
        if list % 2 = 0 then names.1 else names.2 := by
  unfold messagesAt Direction.ofList
  rw [List.getElem?_map]
  cases containers[list / 2]? <;> split <;> rfl

theorem Message.carries_iff_of_naming {m m' : Message} (h : m.naming = m'.naming) :
    m.Carries element ↔ m'.Carries element := by
  have hindices : m.signals.map (·.elementIndex) = m'.signals.map (·.elementIndex) := congrArg Prod.snd h
  have hmem (m : Message) : m.Carries element ↔ ∃ i ∈ m.signals.map (·.elementIndex), i.toNat = element := by
    simp [Carries]
  rw [hmem m, hmem m', hindices]

theorem nameAfter_eq_of_naming {messages' : List Message}
    (h : messages.map Message.naming = messages'.map Message.naming) : nameAfter messages = nameAfter messages' := by
  funext element name
  induction messages using List.reverseRecOn generalizing messages' with
  | nil =>
    obtain rfl : messages' = [] := List.map_eq_nil_iff.1 h.symm
    rfl
  | append_singleton messages m ih =>
    rw [List.map_append, List.map_singleton] at h
    obtain ⟨before, rest, rfl, hbefore, hrest⟩ := List.map_eq_append_iff.1 h.symm
    obtain ⟨m', rfl, hm⟩ := List.map_eq_singleton_iff.1 hrest
    have hname : m'.name = m.name := congrArg Prod.fst hm
    rw [nameAfter_snoc, nameAfter_snoc, ih hbefore.symm, hname]
    simp only [Message.carries_iff_of_naming hm]

end Can

/-! ## Lists -/

namespace ElementList

variable {l : ElementList} {f g : Nat → String → String}

/-- The list with other names for its elements. -/
def rename (l : ElementList) (f : Nat → String → String) : ElementList :=
  { l with elements := l.elements.mapIdx fun k e => { e with name := f k e.name } }

theorem getElem?_elements_rename (k : Nat) :
    (l.rename f).elements[k]? = l.elements[k]?.map fun e => { e with name := f k e.name } :=
  List.getElem?_mapIdx

theorem rename_congr (h : ∀ k e, l.elements[k]? = some e → f k e.name = g k e.name) : l.rename f = l.rename g := by
  have helements : (l.rename f).elements = (l.rename g).elements := by
    refine List.ext_getElem? fun k => ?_
    rw [getElem?_elements_rename, getElem?_elements_rename]
    exact Option.map_congr fun e he => congrArg (fun name => { e with name }) (h k e he)
  exact congrArg (fun elements => { l with elements }) helements

theorem rename_id : (l.rename fun _ name => name) = l := by
  have helements : (l.rename fun _ name => name).elements = l.elements := by
    refine List.ext_getElem? fun k => ?_
    rw [getElem?_elements_rename, Option.map_id']
  exact congrArg (fun elements => { l with elements }) helements

/-- A signal gives the element its name, whatever name the element has had in between. -/
theorem renameSignal_rename (l : ElementList) (m : Message) (s : Signal) (f : Nat → String → String) :
    l.renameSignal m (l.rename f) s =
      l.rename fun k name => if s.elementIndex.toNat = k then s!"{m.name}_{name}" else f k name := by
  unfold renameSignal
  split
  · rename_i hout
    refine rename_congr fun k e he => (if_neg ?_).symm
    rintro rfl
    exact Option.some_ne_none e (he.symm.trans hout)
  · rename_i original hat
    refine congrArg (fun elements => { l with elements }) (List.ext_getElem? fun k => ?_)
    rw [List.getElem?_modify, getElem?_elements_rename, List.getElem?_mapIdx, Option.map_eq_map, Option.map_map]
    refine Option.map_congr fun e he => ?_
    by_cases hk : s.elementIndex.toNat = k
    · obtain rfl : original = e := Option.some.inj (hat.symm.trans (hk ▸ he))
      simp [hk]
    · simp [hk]

/-- The signals of a message give it to all elements it carries. -/
theorem foldl_renameSignal (l : ElementList) (m : Message) (f : Nat → String → String) (signals : List Signal) :
    signals.foldl (l.renameSignal m) (l.rename f) = l.rename fun k name =>
      if ∃ s ∈ signals, s.elementIndex.toNat = k then s!"{m.name}_{name}" else f k name := by
  induction signals using List.reverseRecOn with
  | nil => simp
  | append_singleton signals s ih =>
    rw [List.foldl_append, ih, List.foldl_cons, List.foldl_nil, renameSignal_rename]
    refine rename_congr fun k e _ => ?_
    by_cases hs : s.elementIndex.toNat = k
    · rw [if_pos hs, if_pos ⟨s, by simp, hs⟩]
    · simp only [List.mem_append, List.mem_singleton, or_and_right, exists_or, exists_eq_left, hs, or_false, if_false]

/-- **The elements of a list are named after the last messages that carry them.** -/
theorem renameSignals_eq (l : ElementList) (messages : List Message) :
    l.renameSignals messages = l.rename (nameAfter messages) := by
  unfold renameSignals
  -- From the end: the last message goes over the names that all before it have given.
  induction messages using List.reverseRecOn with
  | nil => exact rename_id.symm
  | append_singleton messages m ih =>
    rw [List.foldl_append, ih, List.foldl_cons, List.foldl_nil, foldl_renameSignal]
    exact rename_congr fun k e _ => nameAfter_snoc.symm

/-- The list without the names of its elements. -/
def unnamed (l : ElementList) : ElementList := l.rename fun _ _ => ""

theorem unnamed_rename : (l.rename f).unnamed = l.unnamed := by
  refine congrArg (fun elements => { l with elements }) (List.ext_getElem? fun k => ?_)
  rw [List.getElem?_mapIdx, List.getElem?_mapIdx, getElem?_elements_rename, Option.map_map]
  rfl

end ElementList

/-! ## Datapools -/

/-- The first of the numbered are the numbered first. -/
theorem take_zipIdx {α : Type} (l : List α) (n : Nat) : l.zipIdx.take n = (l.take n).zipIdx := by
  refine List.ext_getElem? fun i => ?_
  rw [List.getElem?_take, List.getElem?_zipIdx, List.getElem?_zipIdx, List.getElem?_take]
  split <;> rfl

namespace Datapool

theorem getElem?_renameInterface (d : Datapool) (c : Container) (interface list : Nat) :
    (d.renameInterface interface c).lists[list]? =
      if list / 2 = interface then d.lists[list]?.map (·.renameSignals (c.messages (.ofList list)))
      else d.lists[list]? := by
  unfold renameInterface
  rw [List.getElem?_modify, List.getElem?_modify, Option.map_eq_map, Option.map_eq_map, Option.map_map]
  have hplace (dir : Direction) : dir.listIndex interface = list ↔ list / 2 = interface ∧ .ofList list = dir := by
    rw [eq_comm, Direction.eq_listIndex_iff, eq_comm, @eq_comm _ dir]
  simp only [hplace]
  by_cases hinterface : list / 2 = interface
  · rw [if_pos hinterface]
    refine Option.map_congr fun l _ => ?_
    cases Direction.ofList list <;> simp [hinterface, Container.messages]
  · simp only [hinterface, false_and, if_false]
    exact Option.map_id' ..

/-- **Each list is named after the messages of its interface and direction.** -/
theorem getElem?_renameSignals (d : Datapool) (p : Protocol) (list : Nat) :
    (d.renameSignals p).lists[list]? =
      d.lists[list]?.map (·.renameSignals (messagesAt (p.containers.take 256) list)) := by
  unfold renameSignals
  rw [take_zipIdx]
  -- From the end: the lists of the last container are still as they were.
  induction p.containers.take 256 using List.reverseRecOn with
  | nil => exact (Option.map_id' ..).symm
  | append_singleton containers c ih =>
    rw [List.zipIdx_append, List.foldl_append, List.zipIdx_singleton, List.foldl_cons, List.foldl_nil,
      getElem?_renameInterface, ih, messagesAt_snoc, Nat.zero_add]
    by_cases h : list / 2 = containers.length
    · have hnew : messagesAt containers list = [] := by
        unfold messagesAt
        rw [h, List.getElem?_eq_none (Nat.le_refl _)]
        rfl
      rw [if_pos h, if_pos h, hnew]
      exact congrArg (Option.map _) (Option.map_id' ..)
    · rw [if_neg h, if_neg h]

/-- The Datapool without the names of the elements. -/
def unnamed (d : Datapool) : Datapool := { d with lists := d.lists.map ElementList.unnamed }

theorem unnamed_renameSignals (d : Datapool) (p : Protocol) : (d.renameSignals p).unnamed = d.unnamed := by
  have hlists : (d.renameSignals p).lists.map ElementList.unnamed = d.lists.map ElementList.unnamed := by
    refine List.ext_getElem? fun list => ?_
    rw [List.getElem?_map, getElem?_renameSignals, List.getElem?_map, Option.map_map]
    refine Option.map_congr fun l _ => ?_
    show (l.renameSignals _).unnamed = _
    rw [ElementList.renameSignals_eq, ElementList.unnamed_rename]
  obtain ⟨lists, heq⟩ := d.renameSignals_eq p
  rw [heq] at hlists ⊢
  exact congrArg (fun lists => { d with lists }) hlists

theorem elementName?_eq (d : Datapool) (p : Protocol) {list element : Nat} {l : ElementList} {e : Element}
    (hl : d.lists[list]? = some l) (he : l.elements[element]? = some e) :
    d.elementName? p list element = some (nameAfter (messagesAt (p.containers.take 256) list) element e.name) := by
  unfold elementName?
  rw [getElem?_renameSignals, hl, Option.map_some, Option.bind_some, ElementList.renameSignals_eq,
    ElementList.getElem?_elements_rename, he]
  rfl

/-- Of containers the naming sees what names them. -/
theorem renameSignals_congr (d : Datapool) {p q : Protocol}
    (h : p.containers.map Container.naming = q.containers.map Container.naming) :
    d.renameSignals p = d.renameSignals q := by
  have hmessages (list : Nat) : nameAfter (messagesAt (p.containers.take 256) list) =
      nameAfter (messagesAt (q.containers.take 256) list) := by
    refine nameAfter_eq_of_naming ?_
    rw [map_naming_messagesAt, map_naming_messagesAt, List.map_take, List.map_take, h]
  have hlists : (d.renameSignals p).lists = (d.renameSignals q).lists := by
    refine List.ext_getElem? fun list => ?_
    simp only [getElem?_renameSignals, ElementList.renameSignals_eq, hmessages]
  obtain ⟨_, hp⟩ := d.renameSignals_eq p
  obtain ⟨_, hq⟩ := d.renameSignals_eq q
  rw [hp, hq] at hlists ⊢
  exact congrArg (fun lists => { d with lists }) hlists

/-- The lists of the interfaces that a protocol has not are left alone. -/
theorem getElem?_renameSignals_of_ne (d : Datapool) {p : Protocol} {list : Nat}
    (h : ∀ (dir : Direction) (interface : Nat), interface < 256 → interface < p.containers.length →
      list ≠ dir.listIndex interface) : (d.renameSignals p).lists[list]? = d.lists[list]? := by
  have hplace : list = (Direction.ofList list).listIndex (list / 2) := Direction.eq_listIndex_iff.2 ⟨rfl, rfl⟩
  have hnone : (p.containers.take 256)[list / 2]? = none := by
    refine List.getElem?_eq_none (Nat.le_of_not_lt fun hlt => ?_)
    rw [List.length_take, Nat.lt_min] at hlt
    exact h _ _ hlt.1 hlt.2 hplace
  have hmessages : messagesAt (p.containers.take 256) list = [] := by
    unfold messagesAt
    rw [hnone]
    rfl
  rw [getElem?_renameSignals, hmessages]
  exact Option.map_id' ..

/-- **Naming elements after the messages of a protocol changes exactly the names of the elements that messages carry.**
All but the names of elements stays. An element of the list of an interface and a direction is named after the last of
their messages that has a signal of it, and keeps its name if none has; the lists that belong to none of the first 256
containers stay as they are. Of the messages the result depends on their names and the elements of their signals. -/
theorem elements_named_after_carriers (d : Datapool) (p : Protocol) :
    (d.renameSignals p).unnamed = d.unnamed ∧
    (∀ interface < 256, ∀ c, p.containers[interface]? = some c → ∀ (dir : Direction) (element : Nat) l e,
      d.lists[dir.listIndex interface]? = some l → l.elements[element]? = some e →
      ((∃ m ∈ c.messages dir, m.Carries element) → ∃ m, IsLastCarrier (c.messages dir) element m ∧
        d.elementName? p (dir.listIndex interface) element = some s!"{m.name}_{e.name}") ∧
      ((∀ m ∈ c.messages dir, ¬m.Carries element) →
        d.elementName? p (dir.listIndex interface) element = some e.name)) ∧
    (∀ list, (∀ (dir : Direction) (interface : Nat), interface < 256 → interface < p.containers.length →
      list ≠ dir.listIndex interface) → (d.renameSignals p).lists[list]? = d.lists[list]?) ∧
    ∀ q : Protocol, p.containers.map Container.naming = q.containers.map Container.naming →
      d.renameSignals p = d.renameSignals q := by
  refine ⟨d.unnamed_renameSignals p, ?_, fun list => d.getElem?_renameSignals_of_ne, fun q => d.renameSignals_congr⟩
  intro interface hlt c hc dir element l e hl he
  have hmessages : messagesAt (p.containers.take 256) (dir.listIndex interface) = c.messages dir :=
    messagesAt_listIndex (by rw [List.getElem?_take_of_lt hlt, hc])
  rw [d.elementName?_eq p hl he, hmessages]
  constructor
  · intro hcarried
    obtain ⟨m, hm, hname⟩ := exists_isLastCarrier e.name hcarried
    exact ⟨m, hm, congrArg some hname⟩
  · intro hcarried
    rw [nameAfter_of_forall_not hcarried]

/-- The signals of a bus and of one that no protocol uses. -/
def deck : Datapool := { Datapool.new "Deck" .com (some 0) with
  lists := [
    { ElementList.new "Tx1" with
      elements := [.scalar "Raw" (.u8 0) (.u8 0) (.u8 1), .scalar "Level" (.u8 0) (.u8 0) (.u8 1)] },
    ElementList.new "Rx1",
    { ElementList.new "Tx2" with elements := [.scalar "Raw" (.u8 0) (.u8 0) (.u8 1)] }] }

/-- A lamp and a horn that share an element; the lamp has it twice, and a signal of no element. -/
def signalling (canId : UInt32) : Protocol := ⟨.layer2, 0, [⟨true,
  [{ Message.new "Lamp" canId 2 .onChange with signals := [Signal.new 0 0 1, Signal.new 0 1 1, Signal.new 9 8 1] },
    { Message.new "Horn" 0x200 1 .onChange with signals := [Signal.new 0 0 1] }], []⟩]⟩

/-- The shared element is named after the horn alone, the other one, the other bus and the identifier do not matter. -/
theorem elements_named_after_carriers_deck :
    (∃ m, IsLastCarrier (((signalling 0x100).containers.headD .empty).messages .tx) 0 m ∧
      deck.elementName? (signalling 0x100) 0 0 = some (m.name ++ "_" ++ "Raw")) ∧
    deck.elementName? (signalling 0x100) 0 1 = some "Level" ∧
    (deck.renameSignals (signalling 0x100)).lists[2]? = deck.lists[2]? ∧
    deck.renameSignals (signalling 0x100) = deck.renameSignals (signalling 0x300) := by
  obtain ⟨-, hnames, hothers, hsame⟩ := elements_named_after_carriers deck (signalling 0x100)
  refine ⟨(hnames 0 (by decide) _ rfl .tx 0 _ _ rfl rfl).1 (by decide),
    (hnames 0 (by decide) _ rfl .tx 1 _ _ rfl rfl).2 (by decide), hothers 2 ?_, hsame (signalling 0x300) rfl⟩
  intro dir interface _ (hlt : interface < 1)
  obtain rfl : interface = 0 := by omega
  cases dir <;> decide

end Datapool

end BusNode
