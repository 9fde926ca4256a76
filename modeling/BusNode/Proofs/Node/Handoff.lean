import BusNode.Proofs.Json.Descent
import BusNode.Proofs.Json.Finite
import BusNode.Proofs.Node.Restore
/-!
# Nodes handed on

* `Node.forall_scalars` — a property of the numbers of a node that follows from one of the node with its codec;
* `Scalar.finite_or_infinite` — a number that is read is finite, but for a single past the greatest one;
* `Node.hand_off` — a node that is read from a text is read again from its own text, unless it has such a number; then
  its text is refused.
-/

namespace BusNode

open Binary

/-! ## Numbers -/

theorem isFinite_of_reads {x : Binary64} (h : Codec.double.Reads _ x) : x.isFinite = true := by
  obtain ⟨j, h⟩ := h
  cases j with
  | number s =>
    obtain ⟨n, -, hn⟩ := Option.bind_eq_some_iff.1 h
    exact Numeral.isFinite_double? hn
  | _ => cases h

theorem finite_or_infinite_of_reads {x : Binary32} (h : Codec.single.Reads _ x) :
    x.isFinite = true ∨ ∃ neg, x = infinite neg := by
  obtain ⟨j, h⟩ := h
  cases j with
  | number s =>
    obtain ⟨n, -, hn⟩ := Option.bind_eq_some_iff.1 h
    exact Numeral.finite_or_infinite_single? hn
  | _ => cases h

/-- `null` is no number. -/
theorem isFinite_of_accepts {x : Binary64} (h : Codec.double.Accepts _ x) : x.isFinite = true := by
  obtain ⟨y, h⟩ := h
  by_contra hx
  have hwrite : Codec.double.write x = .null := if_neg hx
  rw [hwrite] at h
  cases h

namespace Scalar

/-- **A number that is read is finite**, but for a single past the greatest one. -/
theorem finite_or_infinite {v : Scalar} (h : codec.Reads _ v) : v.isFinite = true ∨ ∃ neg, v = .f32 (infinite neg) := by
  obtain ⟨j, h⟩ := h
  have h : read j = some v := h
  unfold read at h
  split at h
  · obtain ⟨t, -, h⟩ := Option.bind_eq_some_iff.1 h
    cases t with
    | f32 =>
      obtain ⟨x, hx, rfl⟩ := Option.map_eq_some_iff.1 h
      exact (finite_or_infinite_of_reads ⟨_, hx⟩).imp_right fun ⟨neg, hneg⟩ => ⟨neg, congrArg f32 hneg⟩
    | f64 =>
      obtain ⟨x, hx, rfl⟩ := Option.map_eq_some_iff.1 h
      exact .inl (isFinite_of_reads ⟨_, hx⟩)
    | _ =>
      obtain ⟨x, -, rfl⟩ := Option.map_eq_some_iff.1 h
      exact .inl rfl
  · cases h

/-- A number is read from its text only if it is finite. -/
theorem isFinite_of_accepts {v : Scalar} (h : codec.Accepts _ v) : v.isFinite = true := by
  obtain ⟨w, h⟩ := h
  cases v with
  | f32 x =>
    by_contra hx
    have hwrite : Codec.single.write x = .null := if_neg hx
    have h : readAs .f32 (Codec.single.write x) = some w := (read_tagged .f32 _).symm.trans h
    rw [hwrite] at h
    cases h
  | f64 x =>
    have h : readAs .f64 (Codec.double.write x) = some w := (read_tagged .f64 _).symm.trans h
    obtain ⟨y, hy, -⟩ := Option.map_eq_some_iff.1 h
    exact BusNode.isFinite_of_accepts ⟨y, hy⟩
  | _ => rfl

end Scalar

/-! ## Numbers of a node -/

/-- A property of values with their codecs gives every number another one. -/
structure GivesNumbers (Φ : CodecProperty) (P : Scalar → Prop) : Prop where
  descends : Descends Φ
  scalar : ∀ v, Φ _ Scalar.codec v → P v
  double : ∀ x, Φ _ Codec.double x → P (.f64 x)
  /-- The numbers that a missing factor and a missing offset are. -/
  one : P (.f64 .one)
  zero : P (.f64 .zero)

namespace GivesNumbers

variable {Φ : CodecProperty} {P : Scalar → Prop} (g : GivesNumbers Φ P)
include g

theorem content {c : Content} (h : Φ _ Content.codec c) : ∀ v ∈ c, P v :=
  fun v hv => g.scalar v (g.descends.list h v hv)

theorem element {e : Element} (h : Φ _ Element.codec e) : ∀ v ∈ e.scalars, P v := by
  obtain ⟨-, -, -, -, hdefault, hmin, hmax, hsets, hfactor, hoffset, -⟩ :=
    g.descends.record ⟨by decide, fun _ => rfl, fun _ => rfl⟩ h
  have hfactor : P (.f64 e.factor) := by
    rcases allows_default.1 hfactor with h | h
    · exact g.double _ h
    · rw [h]
      exact g.one
  have hoffset : P (.f64 e.offset) := by
    rcases allows_default.1 hoffset with h | h
    · exact g.double _ h
    · rw [h]
      exact g.zero
  intro v hv
  simp only [Element.scalars, List.mem_append, List.mem_cons, List.not_mem_nil, or_false] at hv
  rcases hv with (((hv | hv) | hv) | hv) | rfl | rfl
  · exact g.content (allows_required.1 hdefault) v hv
  · exact g.content (allows_required.1 hmin) v hv
  · exact g.content (allows_required.1 hmax) v hv
  · obtain ⟨c, hc, hv⟩ := List.mem_flatten.1 hv
    exact g.content (g.descends.of_allows_list hsets c hc) v hv
  · exact hfactor
  · exact hoffset

theorem elementList {l : ElementList} (h : Φ _ ElementList.codec l) : ∀ v ∈ l.scalars, P v := by
  obtain ⟨-, -, -, -, -, helements, -⟩ := g.descends.record ⟨by decide, fun _ => rfl, fun _ => rfl⟩ h
  intro v hv
  obtain ⟨e, he, hv⟩ := List.mem_flatMap.1 hv
  exact g.element (g.descends.list (allows_required.1 helements) e he) v hv

theorem datapool {d : Datapool} (h : Φ _ Datapool.codec d) : ∀ v ∈ d.scalars, P v := by
  obtain ⟨-, -, -, -, -, -, -, -, -, hlists, -⟩ := g.descends.record ⟨by decide, fun _ => rfl, fun _ => rfl⟩ h
  intro v hv
  obtain ⟨l, hl, hv⟩ := List.mem_flatMap.1 hv
  exact g.elementList (g.descends.list (allows_required.1 hlists) l hl) v hv

theorem domain {d : Halc.Domain} (h : Φ _ Halc.Domain.codec d) : ∀ v ∈ d.scalars, P v := by
  obtain ⟨-, -, hvalues, hchannels, -⟩ := g.descends.record ⟨by decide, fun _ => rfl, fun _ => rfl⟩ h
  intro v hv
  rcases List.mem_append.1 hv with hv | hv
  · exact g.scalar v (g.descends.of_allows_list hvalues v hv)
  · obtain ⟨c, hc, hv⟩ := List.mem_flatMap.1 hv
    have hchannel := g.descends.of_allows_list hchannels c hc
    obtain ⟨-, -, -, -, hvalues, -⟩ := g.descends.record ⟨by decide, fun _ => rfl, fun _ => rfl⟩ hchannel
    exact g.scalar v (g.descends.of_allows_list hvalues v hv)

theorem halc {c : Halc.Config} (h : Φ _ Halc.Config.codec c) : ∀ v ∈ c.scalars, P v := by
  obtain ⟨-, hdomains, -⟩ := g.descends.record ⟨by decide, fun _ => rfl, fun _ => rfl⟩ h
  intro v hv
  obtain ⟨d, hd, hv⟩ := List.mem_flatMap.1 hv
  exact g.domain (g.descends.list (allows_required.1 hdomains) d hd) v hv

theorem node {n : Node} (h : Φ _ Node.codec n) : ∀ v ∈ n.scalars, P v := by
  obtain ⟨-, -, hdatapools, -, -, hhalc, -⟩ := g.descends.record ⟨by decide, fun _ => rfl, fun _ => rfl⟩ h
  intro v hv
  rcases List.mem_append.1 hv with hv | hv
  · obtain ⟨d, hd, hv⟩ := List.mem_flatMap.1 hv
    exact g.datapool (g.descends.list (allows_required.1 hdatapools) d hd) v hv
  · obtain ⟨c, hc, hv⟩ := List.mem_flatMap.1 hv
    have hc : n.halc = some c := Option.mem_toList.1 hc
    rw [hc] at hhalc
    rcases allows_default.1 hhalc with hhalc | hnone
    · exact g.halc (g.descends.option (fun hnull => nomatch hnull) hhalc) v hv
    · cases hnone

end GivesNumbers

theorem givesNumbers_reads :
    GivesNumbers Codec.Reads fun v => v.isFinite = true ∨ ∃ neg, v = .f32 (infinite neg) where
  descends := descends_reads
  scalar _ := Scalar.finite_or_infinite
  double _ h := .inl (isFinite_of_reads h)
  one := .inl (by decide +kernel)
  zero := .inl (by decide +kernel)

theorem givesNumbers_accepts : GivesNumbers Codec.Accepts fun v => v.isFinite = true where
  descends := descends_accepts
  scalar _ := Scalar.isFinite_of_accepts
  double _ := isFinite_of_accepts
  one := by decide +kernel
  zero := by decide +kernel

/-! ## Nodes -/

namespace Node

theorem reads_of_read {text : String} {n : Node} (h : read text = .ok n) : codec.Reads _ n := by
  unfold read at h
  split at h
  · rename_i m hm
    obtain ⟨j, -, hj⟩ := Option.bind_eq_some_iff.1 hm
    exact ⟨j, Except.ok.inj h ▸ hj⟩
  · cases h

/-- The text of a node is read if its document is. -/
theorem read_write (n : Node) : read n.write =
    match codec.read (codec.write n) with
    | some m => .ok m
    | none => .error .json := by
  rw [read, write, Json.parse?_pretty n.isPlain_write]
  rfl

theorem restores_of_isFinite {n : Node} (hfinite : ∀ v ∈ n.scalars, v.isFinite = true)
    (htext : ∀ v ∈ n.scalars, v.isFinite = true → v.ReadsBack) : codec.Restores n :=
  restores fun v hv => Scalar.restores (hfinite v hv) (htext v hv (hfinite v hv))

/-- **A node that is read from a text is read again from its own text**, if its numbers are finite; a single that
overflowed is written as no number, and the text is refused. -/
theorem hand_off {text : String} {n : Node} (h : read text = .ok n)
    (htext : ∀ v ∈ n.scalars, v.isFinite = true → v.ReadsBack) :
    (∀ v ∈ n.scalars, v.isFinite = true ∨ ∃ neg, v = .f32 (infinite neg)) ∧
      ((∀ v ∈ n.scalars, v.isFinite = true) → read n.write = .ok n) ∧
      ∀ v ∈ n.scalars, v.isFinite = false → read n.write = .error .json := by
  refine ⟨givesNumbers_reads.node (reads_of_read h), fun hfinite => ?_, fun v hv hinfinite => ?_⟩
  · have hrestores : codec.read (codec.write n) = some n := restores_of_isFinite hfinite htext
    rw [read_write, hrestores]
  · rw [read_write]
    split
    · rename_i m hm
      have hfinite := givesNumbers_accepts.node ⟨m, hm⟩ v hv
      rw [hinfinite] at hfinite
      cases hfinite
    · rfl

theorem hand_off_depot :
    read depotDocument.pretty = .ok depot ∧ (∀ v ∈ depot.scalars, v.isFinite = true → v.ReadsBack) ∧
      (∀ v ∈ depot.scalars, v.isFinite = true) ∧ read depot.write = .ok depot := by
  have htext : ∀ v ∈ depot.scalars, v.isFinite = true → v.ReadsBack := by decide +kernel
  have hfinite : ∀ v ∈ depot.scalars, v.isFinite = true := by decide +kernel
  have hread : read depotDocument.pretty = .ok depot :=
    read_of_parse? (Json.parse?_pretty (abridges_depotDocument.isPlain depot.isPlain_write))
      (abridges_depotDocument.read (restores_of_isFinite hfinite htext))
  exact ⟨hread, htext, hfinite, (hand_off hread htext).2.1 hfinite⟩

/-- An element with a value past the greatest single. -/
def fuelDocument : Json := .object [
  (.plain "name", .string "Fuel"),
  (.plain "value_type", .string "F32"),
  (.plain "default", .array [Codec.tagged "F32" (.number "1e39")]),
  (.plain "min", .array []),
  (.plain "max", .array [])]

def siloDocument : Json := .object [
  (.plain "name", .string "Silo"),
  (.plain "data_blocks", .array []),
  (.plain "datapools", .array [.object [
    (.plain "name", .string "Tanks"),
    (.plain "kind", .string "Generic"),
    (.plain "lists", .array [.object [
      (.plain "name", .string "Levels"),
      (.plain "elements", .array [fuelDocument])]])]]),
  (.plain "can_protocols", .array [])]

/-- The node that is read from it. -/
def silo : Node :=
  { empty with
    name := "Silo"
    datapools := [{ Datapool.new "Tanks" .generic none with
      version := (0, 0, 0)
      lists := [{ ElementList.new "Levels" with
        elements := [
          { Element.scalar "Fuel" (.f32 (infinite false)) (.u8 0) (.u8 0) with min := [], max := [] }] }] }] }

theorem isPlain_siloDocument : siloDocument.IsPlain := by
  have hspelt : Numeral.IsSpelt ⟨false, ['1'], [], some (false, ['3', '9'])⟩ :=
    ⟨by simp, rfl, by simp, by simp⟩
  have hvalue : (Json.number "1e39").IsPlain := .number ⟨_, false, hspelt, rfl⟩
  have hfuel : fuelDocument.IsPlain :=
    .member (by decide) (.string _) <| .member (by decide) (.string _) <|
      .member (by decide) (.cons (.member (by decide) hvalue .empty) .nil) <|
      .member (by decide) .nil <| .member (by decide) .nil .empty
  -- from the outside in: the node, its Datapool, its list
  refine .member (by decide) (.string _) <| .member (by decide) .nil <|
    .member (by decide) (.cons ?_ .nil) <| .member (by decide) .nil .empty
  refine .member (by decide) (.string _) <| .member (by decide) (.string _) <|
    .member (by decide) (.cons ?_ .nil) .empty
  exact .member (by decide) (.string _) <| .member (by decide) (.cons hfuel .nil) .empty

/-- The overflowed value is written as `null`, and the text of the node is refused. -/
theorem silo_not_read_again :
    read siloDocument.pretty = .ok silo ∧ (∀ v ∈ silo.scalars, v.isFinite = true → v.ReadsBack) ∧
      read silo.write = .error .json := by
  have hread : codec.read siloDocument = some silo := by decide +kernel
  have hwritten : codec.read (codec.write silo) = none := by decide +kernel
  refine ⟨read_of_parse? (Json.parse?_pretty isPlain_siloDocument) hread, by decide +kernel, ?_⟩
  rw [read_write, hwritten]

end Node

end BusNode
