import BusNode.Proofs.Can.Identity
import BusNode.Proofs.Node.Stem
import BusNode.Proofs.Node.Symbol
/-!
# Mixed pairs

A header and a source of one stem that come of two plans. The source compiles with the header only if their
identifiers are the same, and if even the bytes that are hashed for them are the same, then the header is its own one
(`Node.mixed_pairs_are_detected`). The digest is not looked into: nothing here depends on what it is.
-/

namespace BusNode

theorem Source.isPlain_content (s : Source) : s.content.IsPlain := by
  cases s with
  | start x => exact x.isPlain_content
  | datapool x => exact x.isPlain_content
  | comm x => exact x.isPlain_content
  | manager x => exact x.isPlain_content
  | aggregate x => exact x.isPlain_content
  | halc x => exact x.isPlain_content

namespace Artifact

variable {a b : Artifact}

/-- The pair carries an identifier that is made of the digest of the hashed bytes, and of nothing else. -/
structure IsIdentified (a : Artifact) : Prop where
  digits : a.identifier.digits =
    String.join (((Sha256.digest a.hashed.toList).take 4).map fun x => hexUpper 2 x.toNat)
  carries : a.pair.Carries a.identifier

theorem isIdentified (h : a.IsGenerated) : a.IsIdentified := ⟨rfl, carries h⟩

/-- Contents are told by their bytes. -/
theorem content_eq_of_hashed (h : a.hashed = b.hashed) : a.source.content = b.source.content := by
  have htext : a.source.content.compact = b.source.content.compact := by
    have h : a.source.content.compact.toUTF8 = b.source.content.compact.toUTF8 := h
    rw [String.toUTF8_eq_toByteArray, String.toUTF8_eq_toByteArray] at h
    exact String.toByteArray_inj.1 h
  exact Json.compact_injective a.source.isPlain_content b.source.isPlain_content htext

/-- **Pairs of one stem and of the same bytes are the same.** -/
theorem pair_eq_of_hashed (ha : a.IsGenerated) (hb : b.IsGenerated) (hstem : a.pair.stem = b.pair.stem)
    (h : a.hashed = b.hashed) : a.pair = b.pair := by
  have hkind := kind_eq_of_stem ha hb hstem
  have hcontent := content_eq_of_hashed h
  replace ha := ha.generates
  have hb : b.source.Generates a.identifier b.pair := by
    rw [identifier, hcontent]
    exact hb.generates
  obtain ⟨s, p⟩ := a
  obtain ⟨t, q⟩ := b
  cases s <;> cases t <;> cases hkind
  case start.start => exact StartCode.pair_eq_of_content hcontent ha hb
  case datapool.datapool => exact DatapoolCode.pair_eq_of_content hcontent ha hb
  case comm.comm => exact CommCode.pair_eq_of_content hcontent ha hb
  case manager.manager => exact ManagerCode.pair_eq_of_content hcontent ha hb
  case aggregate.aggregate => exact AggregateCode.pair_eq_of_content hcontent ha hb
  case halc.halc => exact HalcCode.pair_eq_of_content hcontent ha hb

/-- **The source of a pair expands what the header of a pair of the same stem defines** just when their identifiers
are the same. -/
theorem expanded_eq_defined_iff (ha : a.IsGenerated) (hb : b.IsGenerated) (hstem : a.pair.stem = b.pair.stem) :
    a.pair.source.expanded = b.pair.header.defined ↔ a.identifier = b.identifier := by
  rw [(carries ha).source.expanded, (carries hb).header.defined, hstem, List.singleton_inj]
  exact (Identifier.symbol_injective b.pair.stem).eq_iff

end Artifact

namespace Node

/-- **Mixed pairs are detected**: of two artifacts with one stem, the source of one expands what the header of the
other defines just when their identifiers are the same, and if they differ in a line, then they differ in the bytes
that are hashed for their identifiers. -/
theorem mixed_pairs_are_detected {m n : Node} {i j : Nat} {o o' : ExportOptions} {as bs : List Artifact}
    (has : (m.plan i o).result = .ok as) (hbs : (n.plan j o').result = .ok bs) {a b : Artifact} (ha : a ∈ as)
    (hb : b ∈ bs) (hstem : a.pair.stem = b.pair.stem) :
    (a.IsIdentified ∧ b.IsIdentified ∧
      (a.pair.source.expanded = b.pair.header.defined ↔ a.identifier = b.identifier)) ∧
    (a.hashed = b.hashed →
      a.pair.header.lines = b.pair.header.lines ∧ a.pair.source.lines = b.pair.source.lines) := by
  have ha := isGenerated_of_mem_plan has a ha
  have hb := isGenerated_of_mem_plan hbs b hb
  have hsymbols := Artifact.expanded_eq_defined_iff ha hb hstem
  refine ⟨⟨Artifact.isIdentified ha, Artifact.isIdentified hb, hsymbols⟩, fun h => ?_⟩
  rw [Artifact.pair_eq_of_hashed ha hb hstem h]
  exact ⟨rfl, rfl⟩

/-- A node with one application that owns a Datapool of one element. -/
def gauge (default : Scalar) : Node := { Node.empty with
  name := "Gauge"
  applications := [⟨"Meter", "", .programmable, 1, 0, true⟩]
  datapools := [{
    name := "Level"
    comment := ""
    kind := .com
    isSafety := false
    version := (1, 0, 0)
    owner := some 0
    isPrivate := false
    nvmStartAddress := 0
    nvmSize := 0
    lists := [{ ElementList.new "Values" with elements := [Element.scalar "Raw" default (.u16 0) (.u16 9)] }] }] }

/-- Gauges of two defaults share the start; their Datapools have one stem. -/
theorem exists_gauge_plans : ∃ start pool start' pool',
    ((gauge (.u16 1)).plan 0 (.new "one")).result = .ok [start, pool] ∧
    ((gauge (.u16 2)).plan 0 (.new "two")).result = .ok [start', pool'] ∧
    start.pair.stem = start'.pair.stem ∧ start.hashed = start'.hashed ∧ pool.pair.stem = pool'.pair.stem := by
  obtain ⟨as, hone, h⟩ := exists_eq_ok_of_any (x := ((gauge (.u16 1)).plan 0 (.new "one")).result)
    (p := fun as => (((gauge (.u16 2)).plan 0 (.new "two")).result.toOption.any fun bs =>
      as.length = 2 ∧ bs.length = 2 ∧ as.map (·.pair.stem) = bs.map (·.pair.stem) ∧
        as.head?.map (·.hashed) = bs.head?.map (·.hashed)) = true) (by decide +kernel)
  obtain ⟨bs, htwo, has, hbs, hstems, hhashed⟩ := exists_eq_ok_of_any h
  obtain ⟨start, pool, rfl⟩ := List.length_eq_two.1 has
  obtain ⟨start', pool', rfl⟩ := List.length_eq_two.1 hbs
  obtain ⟨hstart, hpool⟩ : start.pair.stem = start'.pair.stem ∧ pool.pair.stem = pool'.pair.stem := by
    simpa using hstems
  exact ⟨start, pool, start', pool', hone, htwo, hstart, Option.some.inj hhashed, hpool⟩

theorem mixed_pairs_are_detected_gauge : ∃ as bs,
    ((gauge (.u16 1)).plan 0 (.new "one")).result = .ok as ∧ ((gauge (.u16 2)).plan 0 (.new "two")).result = .ok bs ∧
    (∃ a ∈ as, ∃ b ∈ bs, a.pair.stem = b.pair.stem ∧ a.hashed = b.hashed ∧
      a.pair.header.lines = b.pair.header.lines ∧ a.pair.source.lines = b.pair.source.lines) ∧
    ∃ a ∈ as, ∃ b ∈ bs, a.pair.stem = b.pair.stem ∧ a.IsIdentified ∧ b.IsIdentified ∧
      (a.pair.source.expanded = b.pair.header.defined ↔ a.identifier = b.identifier) := by
  obtain ⟨start, pool, start', pool', hone, htwo, hstart, hsame, hpool⟩ := exists_gauge_plans
  have hs : start ∈ [start, pool] := .head _
  have hs' : start' ∈ [start', pool'] := .head _
  have hp : pool ∈ [start, pool] := .tail _ (.head _)
  have hp' : pool' ∈ [start', pool'] := .tail _ (.head _)
  have hstarts := mixed_pairs_are_detected hone htwo hs hs' hstart
  have hpools := mixed_pairs_are_detected hone htwo hp hp' hpool
  exact ⟨_, _, hone, htwo, ⟨start, hs, start', hs', hstart, hsame, hstarts.2 hsame⟩,
    pool, hp, pool', hp', hpool, hpools.1⟩

end Node

end BusNode
