import BusNode.Halc.Code
import BusNode.Proofs.Code.Literal
/-!
# What records of hardware channels are made of

* `Halc.Entry` — the content of a record; `HalcCode.entries` — those that a variant has of a domain;
* `Halc.Entry.Fits` — the values are those of the parameters of a domain;
* `HalcCode.decides_generate` — a pair is generated just if all entries fit, and the error tells one that does not.
-/

namespace BusNode

open Halc

namespace Halc

/-- The content of a record: whose it is, its use case and its values. -/
structure Entry where
  owner : String
  useCase : UInt32
  values : List Scalar
  deriving DecidableEq

def Channel.entry (c : Channel) : Entry := ⟨c.name, c.useCase, c.values⟩

/-- The values that a domain without channels has itself. -/
def Domain.ownEntry (d : Domain) : Entry := ⟨"domain values", 0, d.domainValues⟩

namespace Entry

/-- There is a value for each parameter, of its type and with a literal. -/
structure Fits (d : Domain) (r : Entry) : Prop where
  length : r.values.length = d.parameters.length
  value : ∀ a ∈ d.parameters.zip r.values, a.2.type = a.1.type ∧ a.2.isFinite = true

/-- The number of values is wrong, or one is of a wrong type or not a finite number. -/
def Misfits (d : Domain) (r : Entry) : Prop :=
  r.values.length ≠ d.parameters.length ∨
    ∃ p v, (p, v) ∈ d.parameters.zip r.values ∧ (v.type ≠ p.type ∨ v.isFinite = false)

/-- The error of an entry that does not fit. -/
inductive Refuses (d : Domain) (r : Entry) : ExportError → Prop
  | count (h : r.values.length ≠ d.parameters.length) :
    Refuses d r (.structural (.channel r.owner d.name (.count r.values.length d.parameters.length)))
  | type {p : Parameter} {v : Scalar} (ha : (p, v) ∈ d.parameters.zip r.values) (h : v.type ≠ p.type) :
    Refuses d r (.structural (.channel r.owner d.name (.type p.name p.type v.type)))
  | literal {p : Parameter} {v : Scalar} {e : LiteralError} (ha : (p, v) ∈ d.parameters.zip r.values)
    (hv : v.isFinite = false) (h : LiteralError.IsOf v e) : Refuses d r (.literal e)

theorem misfits_iff {d : Domain} {r : Entry} : r.Misfits d ↔ ¬r.Fits d := by
  constructor
  · rintro (hlength | ⟨p, v, ha, htype | hfinite⟩) h
    · exact hlength h.length
    · exact htype (h.value _ ha).1
    · exact Bool.eq_false_iff.1 hfinite (h.value _ ha).2
  · intro h
    by_contra hfits
    obtain ⟨hlength, hvalues⟩ := not_or.1 hfits
    refine h ⟨not_not.1 hlength, fun ⟨p, v⟩ ha => ⟨?_, ?_⟩⟩
    · by_contra htype
      exact hvalues ⟨p, v, ha, .inl htype⟩
    · by_contra hfinite
      exact hvalues ⟨p, v, ha, .inr (Bool.eq_false_iff.2 hfinite)⟩

end Entry

end Halc

namespace HalcCode

variable {x : HalcCode} {d : Domain} {r : Entry} {id : Identifier}

/-- The entries that the variant has of a domain: its own one, if it has parameters and no channel, and else those of
the visible channels. -/
def entries (x : HalcCode) (d : Domain) : List Entry :=
  if d.channels = [] then if d.parameters = [] then [] else [d.ownEntry]
  else (x.channels d).map Channel.entry

/-- A domain without channels has none for a variant. -/
theorem channels_eq_nil (h : d.channels = []) : x.channels d = [] := by
  unfold channels Domain.visible
  rw [h]
  rfl

theorem entries_of_visible (h : x.channels d ≠ []) : x.entries d = (x.channels d).map Channel.entry :=
  if_neg fun hnone => h (channels_eq_nil hnone)

/-- Whether the domain has a record of its own values. -/
theorem hasOwn_iff : (d.channels.isEmpty && !d.parameters.isEmpty) = true ↔ d.channels = [] ∧ d.parameters ≠ [] := by
  simp

theorem entries_of_own (h : d.channels = [] ∧ d.parameters ≠ []) : x.entries d = [d.ownEntry] := by
  unfold entries
  rw [if_pos h.1, if_neg h.2]

theorem entries_of_none (h : ¬(d.channels = [] ∧ d.parameters ≠ [])) (hvisible : x.channels d = []) :
    x.entries d = [] := by
  unfold entries
  rw [hvisible, List.map_nil]
  split
  · rename_i hnone
    exact if_pos (not_not.1 (not_and.1 h hnone))
  · rfl

theorem decides_field {owner : String} {p : Parameter} {v : Scalar} (hr : r.owner = owner)
    (ha : (p, v) ∈ d.parameters.zip r.values) :
    Decides (field d owner p v) (v.type = p.type ∧ v.isFinite = true) (r.Refuses d) := by
  subst hr
  unfold field
  split
  · rename_i htype
    exact .error (fun h => htype h.1) (.type ha htype)
  · rename_i htype
    have hliteral := Literal.decides_scalar v
    split
    · rename_i s hs
      exact .ok _ ⟨not_not.1 htype, hliteral.holds s hs⟩
    · rename_i e he
      obtain ⟨hfinite, hof⟩ := hliteral.refuses e he
      exact .error (fun h => hfinite h.2) (.literal ha (Bool.eq_false_iff.2 hfinite) hof)

theorem decides_record (d : Domain) (r : Entry) :
    Decides (record d r.useCase r.values r.owner) (r.Fits d) (r.Refuses d) := by
  unfold record
  split
  · rename_i hlength
    exact .error (fun h => hlength h.length) (.count hlength)
  · rename_i hlength
    have hfields : Decides ((d.parameters.zip r.values).mapM fun a => field d r.owner a.1 a.2)
        (∀ a ∈ d.parameters.zip r.values, a.2.type = a.1.type ∧ a.2.isFinite = true) (r.Refuses d) :=
      .mapM fun _ ha => decides_field rfl ha
    exact (hfields.bind_pure _).congr ⟨fun h => ⟨not_not.1 hlength, h⟩, fun h => h.value⟩

/-- The error of a domain is that of one of its entries. -/
def RefusesOf (x : HalcCode) (d : Domain) (e : ExportError) : Prop := ∃ r ∈ x.entries d, r.Refuses d e

theorem decides_domainRecords (x : HalcCode) (d : Domain) :
    Decides (x.domainRecords d) (∀ r ∈ x.entries d, r.Fits d) (x.RefusesOf d) := by
  have hentry {r : Entry} (hr : r ∈ x.entries d) :
      Decides (record d r.useCase r.values r.owner) (r.Fits d) (x.RefusesOf d) :=
    (decides_record d r).mono fun e he => ⟨r, hr, he⟩
  unfold domainRecords
  split
  · rename_i hvisible
    split
    · rename_i hown
      have hentries := entries_of_own (x := x) (hasOwn_iff.1 hown)
      refine ((hentry (r := d.ownEntry) (by simp [hentries])).bind_pure _).congr ?_
      rw [hentries, List.forall_mem_singleton]
    · rename_i hown
      refine .ok _ ?_
      rw [entries_of_none (mt hasOwn_iff.2 hown) hvisible]
      exact List.forall_mem_nil _
  · rename_i c hvisible
    have hentries : x.entries d = [c.entry] := by
      rw [entries_of_visible (by simp [hvisible]), hvisible, List.map_singleton]
    refine ((hentry (r := c.entry) (by simp [hentries])).bind_pure _).congr ?_
    rw [hentries, List.forall_mem_singleton]
  · rename_i hnone _
    have hentries := entries_of_visible hnone
    have hrows : Decides ((x.channels d).mapM fun c => return Row.commented (← channelRecord d c) c.name)
        (∀ c ∈ x.channels d, c.entry.Fits d) (x.RefusesOf d) :=
      .mapM fun c hc => (hentry (r := c.entry) (by simpa [hentries] using ⟨c, hc, rfl⟩)).bind_pure _
    refine (hrows.bind_pure _).congr ?_
    rw [hentries, List.forall_mem_map]

theorem decides_source (x : HalcCode) (id : Identifier) : Decides (x.source id)
    (∀ d ∈ x.domains, ∀ r ∈ x.entries d, r.Fits d) fun e => ∃ d ∈ x.domains, x.RefusesOf d e := by
  have hcode : Decides (x.domains.mapM x.domainCode) (∀ d ∈ x.domains, ∀ r ∈ x.entries d, r.Fits d)
      fun e => ∃ d ∈ x.domains, x.RefusesOf d e :=
    .mapM fun d hd => ((x.decides_domainRecords d).mono fun e he => ⟨d, hd, he⟩).bind_pure _
  exact hcode.bind_pure _

/-- **A pair is generated just if every entry fits**, and the error tells an entry that does not. -/
theorem decides_generate (x : HalcCode) (id : Identifier) : Decides (x.generate id).result
    (∀ d ∈ x.domains, ∀ r ∈ x.entries d, r.Fits d) fun e => ∃ d ∈ x.domains, x.RefusesOf d e := by
  unfold generate
  simp only [Report.result_bind, Report.result_ofExcept, Report.result_onError, Report.result_tell,
    Report.result_pure]
  exact (x.decides_source id).bind_pure _

end HalcCode

end BusNode
