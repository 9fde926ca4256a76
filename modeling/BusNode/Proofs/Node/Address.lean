import BusNode.Proofs.Datapool.Code
import BusNode.Proofs.Node.Visible
import BusNode.Proofs.Start.Identity
/-!
# The address of a Datapool in its owner

An application reaches the Datapool of another one by the process of the owner and the index of the Datapool there. The
owner numbers its Datapools when its own code is generated, which happens apart from the code of the others.

* `Parts.Holds` — an artifact is that of a Datapool of the node;
* `Pair.Numbers`, `Pair.TellsOwner`, `Pair.Lists` — where an index stands in the header of a Datapool, in its source,
  and in the start table;
* `Node.applications_agree_on_datapools` — all of them have the same index.
-/

namespace BusNode

/-! ## Where an index stands -/

namespace Pair

/-- The header defines the index of a Datapool. -/
def Numbers (p : Pair) (d : Datapool) (index : Nat) : Prop :=
  Item.define s!"{upper d.name}_DATA_POOL_INDEX" "" (.number index) ∈ p.header.items

/-- The record of a Datapool points to a remote info, which has the process and the index. -/
def TellsOwner (p : Pair) (d : Datapool) (processId : UInt8) (index : Nat) : Prop :=
  Item.object (.record "T_osy_dpa_remote_info" d.remoteInfoName) [
    .noted (Literal.count processId.toNat) "process ID of owning application",
    .noted (Literal.count index) "index of Datapool in owning application"] none ∈ p.source.items ∧
  ∃ rows, Item.object (.sharedRecord "T_osy_dpa_data_pool" d.recordName) rows none ∈ p.source.items ∧
    Row.pointer (some (.whole d.remoteInfoName)) ∈ rows

/-- The row of the index in the table of all Datapools is the record of a Datapool. -/
def Lists (p : Pair) (d : Datapool) (index : Nat) : Prop :=
  ∃ rows, Item.object ⟨.internal, true, "T_osy_dpa_data_pool * const", StartCode.datapoolsName,
      some (.symbol (StartCode.defined "NUMBER_OF_DATA_POOLS"))⟩ rows none ∈ p.source.items ∧
    rows[index]? = some (.pointer (some (.whole d.recordName)))

end Pair

namespace DatapoolCode

variable {x : DatapoolCode} {id : Identifier} {p : Pair} {d : Datapool}

theorem numbers_of_generate (h : (x.generate id).result = .ok p) (hname : x.datapool.name = d.name) :
    p.Numbers d x.indexInApplication := by
  obtain ⟨-, header, source, hheader, -, rfl⟩ := generate_eq_ok h
  obtain ⟨scaling, -, rfl⟩ := header_eq_ok.1 hheader
  unfold Pair.Numbers
  rw [← hname]
  simp only [headerItems, List.mem_append, List.mem_cons, true_or, or_true]

theorem tellsOwner_of_generate (h : (x.generate id).result = .ok p) (hname : x.datapool.name = d.name)
    (hinfo : x.hasRemoteInfo = true) : p.TellsOwner d x.ownerProcessId x.indexInOwner := by
  obtain ⟨-, header, source, -, hsource, rfl⟩ := generate_eq_ok h
  obtain ⟨values, tables, -, -, -, rfl⟩ := source_eq_ok.1 hsource
  have hremote : x.datapool.remoteInfoName = d.remoteInfoName := by rw [Datapool.remoteInfoName, hname]; rfl
  have hrecord : x.datapool.recordName = d.recordName := by rw [Datapool.recordName, hname]; rfl
  unfold Pair.TellsOwner
  rw [← hremote, ← hrecord]
  refine ⟨?_, x.recordRows x.datapool.scratchBytes, ?_, ?_⟩
  · simp only [sourceItems, if_pos hinfo, remoteInfo, List.mem_append, List.mem_cons, true_or, or_true]
  · simp only [sourceItems, List.mem_append, List.mem_cons, true_or, or_true]
  · simp only [recordRows, if_pos hinfo, List.mem_append, List.mem_cons, true_or, or_true]

end DatapoolCode

theorem StartCode.lists_of_generate {x : StartCode} {id : Identifier} {p : Pair} {d : Datapool} {index : Nat}
    (h : (x.generate id).result = .ok p) (hd : x.datapools[index]? = some d) : p.Lists d index := by
  obtain rfl := generate_eq_ok h
  have hnonempty : (x.datapools.map Datapool.recordName).isEmpty = false := by
    rw [List.isEmpty_eq_false_iff_exists_mem]
    exact ⟨_, List.mem_map_of_mem (List.mem_of_getElem? hd)⟩
  refine ⟨(x.datapools.map Datapool.recordName).map fun o => .pointer (some (.whole o)), ?_, ?_⟩
  · have htable : addressTable "T_osy_dpa_data_pool" datapoolsName "NUMBER_OF_DATA_POOLS"
        (x.datapools.map Datapool.recordName) ⊆ (x.source id).items := by
      intro i hi
      simp only [source, List.mem_append, hi, true_or, or_true]
    apply htable
    unfold addressTable
    rw [if_neg (Bool.eq_false_iff.1 hnonempty)]
    exact List.mem_cons_of_mem _ (List.mem_singleton_self _)
  · rw [List.getElem?_map, List.getElem?_map, hd]
    rfl

/-! ## The artifact of a Datapool -/

namespace Node

/-- The Datapool of an index in the node is seen at a place, and has the artifact. -/
def Parts.Holds (p : Parts) (index place : Nat) (f : Artifact) : Prop :=
  (∃ v, p.visible[place]? = some v ∧ v.index = index) ∧ p.datapools[place]? = some f

variable {n : Node} {i place : Nat} {a b : Application} {o : ExportOptions} {v : VisibleDatapool} {c : DatapoolCode}
  {p : Parts} {f : Artifact}

theorem ownerView_eq_ok {j index : Nat} {process : UInt8} {ws : List VisibleDatapool}
    (h : n.ownerView a v place = .ok (process, index)) (howner : v.datapool.owner.map UInt64.toNat = some j)
    (hb : n.applicationAt j = .ok b) (hws : n.visibleDatapools j b.formatVersion.toNat = .ok ws) :
    process = b.processId ∧ ∃ w, ws[index]? = some w ∧ w.index = v.index := by
  unfold ownerView at h
  obtain ⟨owner, hsome, rfl⟩ := Option.map_eq_some_iff.1 howner
  rw [hsome] at h
  obtain ⟨b', hb', h⟩ := bind_eq_ok.1 h
  obtain rfl : b = b' := Except.ok.inj (hb.symm.trans hb')
  obtain ⟨ws', hws', h⟩ := bind_eq_ok.1 h
  obtain rfl : ws = ws' := Except.ok.inj (hws.symm.trans hws')
  split at h
  · rename_i k hk
    cases h
    exact ⟨rfl, getElem?_of_findIdx? hk⟩
  · cases h

theorem datapoolCode_eq_ok (h : n.datapoolCode a o v place = .ok c) :
    c.datapool = n.namedDatapool v ∧ c.indexInApplication = place ∧ c.linkage = v.linkage ∧
      n.ownerView a v place = .ok (c.ownerProcessId, c.indexInOwner) := by
  unfold datapoolCode at h
  obtain ⟨version, -, h⟩ := bind_eq_ok.1 h
  obtain ⟨⟨process, index⟩, hview, h⟩ := bind_eq_ok.1 h
  cases h
  exact ⟨rfl, rfl, rfl, hview⟩

/-- Every visible Datapool has its artifact at its place. -/
theorem Parts.Of.exists_datapool (h : p.Of n i a o) (hv : p.visible[place]? = some v) :
    ∃ c f, p.datapools[place]? = some f ∧ n.datapoolCode a o v place = .ok c ∧ f.IsGenerated ∧
      f.source = .datapool c := by
  have hzip : p.visible.zipIdx[place]? = some (v, place) := by
    rw [List.getElem?_zipIdx, hv, Option.map_some, Nat.zero_add]
  obtain ⟨hlt, hget⟩ := List.getElem?_eq_some_iff.1 hzip
  have hlt' : place < p.datapools.length := h.datapools.length_eq ▸ hlt
  obtain ⟨c, hc, hf⟩ := h.datapools.get hlt hlt'
  rw [List.get_eq_getElem, hget] at hc
  exact ⟨c, _, List.getElem?_eq_getElem hlt', hc, Artifact.datapool_eq_ok hf⟩

/-- The index of a Datapool in its header and the row in the start table are its place. -/
theorem Parts.Of.addressed (h : p.Of n i a o) (hv : p.visible[place]? = some v) :
    ∃ c f, p.Holds v.index place f ∧ f.source = .datapool c ∧ (c.generate f.identifier).result = .ok f.pair ∧
      n.datapoolCode a o v place = .ok c ∧ c.datapool.name = v.datapool.name ∧
      f.pair.Numbers v.datapool place ∧ p.start.pair.Lists v.datapool place := by
  obtain ⟨c, f, hf, hcode, hgenerated, hsource⟩ := h.exists_datapool hv
  obtain ⟨hdatapool, hindex, -, -⟩ := datapoolCode_eq_ok hcode
  have hpair : (c.generate f.identifier).result = .ok f.pair := hgenerated.generate hsource
  have hname : c.datapool.name = v.datapool.name := by rw [hdatapool, namedDatapool_name]
  have hnumbers := DatapoolCode.numbers_of_generate hpair hname
  rw [hindex] at hnumbers
  obtain ⟨x, hx, hstart⟩ := h.start
  obtain ⟨hgenerated, hstart⟩ := Artifact.start_eq_ok hstart
  have hlists : p.start.pair.Lists v.datapool place := by
    refine StartCode.lists_of_generate (hgenerated.generate hstart) ?_
    obtain ⟨version, -, hx⟩ := bind_eq_ok.1 hx
    cases hx
    show (p.visible.map (·.datapool))[place]? = some v.datapool
    rw [List.getElem?_map, hv]
    rfl
  exact ⟨c, f, ⟨⟨v, hv, rfl⟩, hf⟩, hsource, hpair, hcode, hname, hnumbers, hlists⟩

/-- A Datapool of another application is visible there too, and the remote info has its place there. -/
theorem Parts.Of.agrees {j : Nat} {o' : ExportOptions} {q : Parts} (h : p.Of n i a o) (h' : q.Of n j b o')
    (hij : i ≠ j) (hb : n.applicationAt j = .ok b) (hv : v ∈ p.visible)
    (howner : v.datapool.owner.map UInt64.toNat = some j) :
    ∃ place place' f g, p.Holds v.index place f ∧ q.Holds v.index place' g ∧
      f.pair.TellsOwner v.datapool b.processId place' ∧ g.pair.Numbers v.datapool place' ∧
      q.start.pair.Lists v.datapool place' := by
  obtain ⟨place, hplace⟩ := List.getElem?_of_mem hv
  obtain ⟨c, f, hf, -, hpair, hcode, hname, -, -⟩ := h.addressed hplace
  obtain ⟨-, -, hlinkage, hview⟩ := datapoolCode_eq_ok hcode
  obtain ⟨hprocess, w, hw, hindex⟩ := ownerView_eq_ok hview howner hb h'.visible
  obtain ⟨hat, -, hlink⟩ := h.mem_visible.1 hv
  obtain ⟨hat', -, -⟩ := h'.mem_visible.1 (List.mem_of_getElem? hw)
  -- The index in the node tells which Datapool it is, whoever looks.
  have hsame : w.datapool = v.datapool := by
    rw [hindex, hat] at hat'
    exact (Option.some.inj hat').symm
  obtain ⟨-, g, hg, -, -, -, -, hnumbers, hlists⟩ := h'.addressed hw
  have hremote : c.hasRemoteInfo = true := by
    have hne : v.linkage ≠ .own := fun hown => by
      rw [hown, link_eq_own, howner] at hlink
      exact hij (Option.some.inj hlink).symm
    simp [DatapoolCode.hasRemoteInfo, hlinkage, Linkage.isRemote, hne]
  have htells := DatapoolCode.tellsOwner_of_generate hpair hname hremote
  rw [hprocess] at htells
  rw [hindex] at hg
  rw [hsame] at hnumbers hlists
  exact ⟨place, c.indexInOwner, f, g, hf, hg, htells, hnumbers, hlists⟩

/-- A Datapool of the application itself has one place for all purposes. -/
theorem Parts.Of.coincides {index : Nat} {d : Datapool} (h : p.Of n i a o) (ha : n.applicationAt i = .ok a)
    (hd : n.datapools[index]? = some d) (hfilled : d.isEmpty = false) (howner : d.owner.map UInt64.toNat = some i) :
    ∃ place f c, p.Holds index place f ∧ f.source = .datapool c ∧
      c.indexInOwner = place ∧ c.indexInApplication = place ∧
      f.pair.Numbers d place ∧ p.start.pair.Lists d place ∧
      (c.hasRemoteInfo = true → f.pair.TellsOwner d a.processId place) := by
  have hv : ⟨index, d, .own⟩ ∈ p.visible := h.mem_visible.2 ⟨hd, hfilled, link_eq_own.2 howner⟩
  obtain ⟨place, hplace⟩ := List.getElem?_of_mem hv
  obtain ⟨c, f, hf, hsource, hpair, hcode, hname, hnumbers, hlists⟩ := h.addressed hplace
  obtain ⟨-, hindex, -, hview⟩ := datapoolCode_eq_ok hcode
  obtain ⟨hprocess, w, hw, hsame⟩ := ownerView_eq_ok hview howner ha h.visible
  have hin : c.indexInOwner = place := by
    rw [← (visibleDatapools_eq_ok.1 h.visible).2] at hw hplace
    exact place_unique hw hplace hsame
  refine ⟨place, f, c, hf, hsource, hin, hindex, hnumbers, hlists, fun hinfo => ?_⟩
  have htells := DatapoolCode.tellsOwner_of_generate hpair hname hinfo
  rwa [hprocess, hin] at htells

/-- **Applications agree on the addresses of Datapools.** What an application is told about a Datapool of another one is
the process of the owner and the index that the owner's own header defines and its start table has; the owner itself
knows no other index. -/
theorem applications_agree_on_datapools {j : Nat} {o' : ExportOptions} {as bs : List Artifact} (hij : i ≠ j)
    (ha : n.applicationAt i = .ok a) (hb : n.applicationAt j = .ok b)
    (hakind : a.kind = .programmable) (hbkind : b.kind = .programmable)
    (has : (n.plan i o).result = .ok as) (hbs : (n.plan j o').result = .ok bs) :
    ∃ p q : Parts, (p.Of n i a o ∧ as = p.artifacts) ∧ (q.Of n j b o' ∧ bs = q.artifacts) ∧
      (∀ v ∈ p.visible, v.datapool.owner.map UInt64.toNat = some j →
        ∃ place place' f g, p.Holds v.index place f ∧ q.Holds v.index place' g ∧
          f.pair.TellsOwner v.datapool b.processId place' ∧ g.pair.Numbers v.datapool place' ∧
          q.start.pair.Lists v.datapool place') ∧
      ∀ index d, n.datapools[index]? = some d → d.isEmpty = false → d.owner.map UInt64.toNat = some i →
        ∃ place f c, p.Holds index place f ∧ f.source = .datapool c ∧
          c.indexInOwner = place ∧ c.indexInApplication = place ∧
          f.pair.Numbers d place ∧ p.start.pair.Lists d place ∧
          (c.hasRemoteInfo = true → f.pair.TellsOwner d a.processId place) := by
  obtain ⟨p, hp, rfl⟩ := exists_parts ha hakind has
  obtain ⟨q, hq, rfl⟩ := exists_parts hb hbkind hbs
  refine ⟨p, q, ⟨hp, rfl⟩, ⟨hq, rfl⟩, ?_, ?_⟩
  · intro v hv howner
    exact hp.agrees hq hij hb hv howner
  · intro index d hd hfilled howner
    exact hp.coincides ha hd hfilled howner

def speed : Datapool := { Datapool.new "Speed" .generic (some 0) with
  lists := [{ ElementList.new "Values" with elements := [Element.scalar "Now" (.u16 1) (.u16 0) (.u16 9)] }] }

def recipe : Datapool := { Datapool.new "Recipe" .generic (some 1) with lists := speed.lists }

def pump : Application := ⟨"Pump", "", .programmable, 6, 3, true⟩
def panel : Application := ⟨"Panel", "", .programmable, 3, 7, true⟩

/-- The panel hosts the diagnostic driver and sees the Datapool of the pump after its own; the pump sees none but this,
since a Datapool without elements does not count. -/
def pumpStation : Node := { Node.empty with
  name := "Station"
  applications := [pump, panel]
  datapools := [recipe, Datapool.new "Spare" .generic (some 0), speed]
  server := { ServerSettings.standard with host := some 1 } }

theorem applications_agree_on_datapools_pumpStation : ∃ as bs,
    (pumpStation.plan 1 (.new "panel")).result = .ok as ∧ (pumpStation.plan 0 (.new "pump")).result = .ok bs ∧
    (∃ f ∈ as, f.pair.TellsOwner speed 3 0) ∧ (∃ g ∈ bs, g.pair.Numbers speed 0) ∧
    (∃ s ∈ bs, s.pair.Lists speed 0) ∧ ∃ f ∈ as, f.pair.Numbers recipe 0 := by
  obtain ⟨as, has⟩ : ∃ as, (pumpStation.plan 1 (.new "panel")).result = .ok as := exists_eq_ok (by decide +kernel)
  obtain ⟨bs, hbs⟩ : ∃ bs, (pumpStation.plan 0 (.new "pump")).result = .ok bs := exists_eq_ok (by decide +kernel)
  have hpanel : pumpStation.applicationAt 1 = .ok panel := rfl
  have hpump : pumpStation.applicationAt 0 = .ok pump := rfl
  obtain ⟨p, q, ⟨hp, rfl⟩, ⟨hq, rfl⟩, hforeign, hown⟩ :=
    applications_agree_on_datapools (by decide) hpanel hpump rfl rfl has hbs
  have hpvisible : p.visible = [⟨0, recipe, .own⟩, ⟨2, speed, .remote⟩] :=
    Except.ok.inj (hp.visible.symm.trans (by decide +kernel))
  have hqvisible : q.visible = [⟨2, speed, .own⟩] := Except.ok.inj (hq.visible.symm.trans (by decide +kernel))
  have hmem {p : Parts} {index place : Nat} {f : Artifact} (h : p.Holds index place f) : f ∈ p.artifacts :=
    Parts.mem_artifacts.2 (.inr (.inl (List.mem_of_getElem? h.2)))
  obtain ⟨_, place', f, g, hf, hg, htells, hnumbers, hlists⟩ :=
    hforeign ⟨2, speed, .remote⟩ (by rw [hpvisible]; exact .tail _ (.head _)) rfl
  obtain rfl : place' = 0 := by
    obtain ⟨⟨w, hw, -⟩, -⟩ := hg
    have := (List.getElem?_eq_some_iff.1 hw).1
    rw [hqvisible] at this
    exact Nat.lt_one_iff.1 this
  obtain ⟨place, r, _, hr, -, -, -, hrecipe, -, -⟩ := hown 0 recipe rfl rfl rfl
  obtain rfl : place = 0 := by
    obtain ⟨⟨w, hw, hindex⟩, -⟩ := hr
    obtain ⟨-, hlinked⟩ := visibleDatapools_eq_ok.1 hp.visible
    rw [← hlinked] at hw hpvisible
    exact place_unique hw (by rw [hpvisible]; rfl) hindex
  exact ⟨_, _, has, hbs, ⟨f, hmem hf, htells⟩, ⟨g, hmem hg, hnumbers⟩, ⟨_, Parts.mem_artifacts.2 (.inl rfl), hlists⟩,
    r, hmem hr, hrecipe⟩

end Node

end BusNode
