import BusNode.Halc.Code
import BusNode.Proofs.Datapool.Identity
import BusNode.Proofs.Halc.Snapshot
/-!
# What a pair of hardware channels depends on

Of its Datapool a pair has the name only, and every number that it prints is finite, so it is generated of what its
content has (`HalcCode.source_written`, `HalcCode.header_written`), and pairs of one content are the same
(`HalcCode.pair_eq_of_content`).
-/

namespace BusNode

open Halc

namespace HalcCode

/-! ## Records -/

theorem field_written {d : Domain} {owner : String} {p : Parameter} {v : Scalar} {e : Expr}
    (h : field d owner p v = .ok e) : field d.written owner p v.written = .ok e := by
  unfold field at h ⊢
  rw [Scalar.type_written]
  split at h
  · cases h
  · rename_i htype
    rw [if_neg htype]
    cases hs : Literal.scalar v with
    | error fault =>
      rw [hs] at h
      cases h
    | ok s =>
      rw [hs] at h
      rw [Literal.scalar_written hs]
      exact h

theorem record_written {d : Domain} {useCase : UInt32} {values : List Scalar} {owner : String} {e : Expr}
    (h : record d useCase values owner = .ok e) :
    record d.written useCase (values.map Scalar.written) owner = .ok e := by
  unfold record at h ⊢
  rw [List.length_map]
  split at h
  · cases h
  · rename_i hlength
    obtain ⟨fields, hfields, h⟩ := bind_eq_ok.1 h
    refine (if_neg hlength).trans (bind_eq_ok.2 ⟨fields, ?_, h⟩)
    show (d.parameters.zip (values.map Scalar.written)).mapM _ = _
    rw [List.zip_map_right]
    refine mapM_map_eq_ok (fun a e ha => ?_) hfields
    obtain ⟨p, v⟩ := a
    exact field_written ha

theorem channelRecord_written {d : Domain} {c : Channel} {e : Expr} (h : channelRecord d c = .ok e) :
    channelRecord d.written c.written = .ok e := record_written h

/-- The input as far as its content has it. -/
def written (x : HalcCode) : HalcCode :=
  { x with application := "", config := x.config.written, datapool := Datapool.new x.datapool.name .halc none }

variable (x : HalcCode) {id : Identifier}

theorem channels_written (d : Domain) : x.written.channels d.written = (x.channels d).map Channel.written := by
  show (d.channels.map Channel.written).filter _ = _
  rw [List.filter_map]
  rfl

theorem domainRecords_written {d : Domain} {r : List Item × Pointer} (h : x.domainRecords d = .ok r) :
    x.written.domainRecords d.written = .ok r := by
  have hempty : d.written.channels.isEmpty = d.channels.isEmpty := List.isEmpty_map
  unfold domainRecords at h ⊢
  rw [channels_written]
  rcases hc : x.channels d with _ | ⟨c, _ | ⟨c', cs⟩⟩
  · rw [hc] at h
    simp only [List.map_nil, hempty] at h ⊢
    split at h
    · rename_i hparameters
      obtain ⟨e, he, h⟩ := bind_eq_ok.1 h
      exact (if_pos hparameters).trans (bind_eq_ok.2 ⟨e, record_written he, h⟩)
    · rename_i hparameters
      exact (if_neg hparameters).trans h
  · rw [hc] at h
    obtain ⟨e, he, h⟩ := bind_eq_ok.1 h
    exact bind_eq_ok.2 ⟨e, channelRecord_written he, h⟩
  · rw [hc] at h
    obtain ⟨rows, hrows, h⟩ := bind_eq_ok.1 h
    refine bind_eq_ok.2 ⟨rows, ?_, h⟩
    refine mapM_map_eq_ok (fun c row hrow => ?_) hrows
    obtain ⟨e, he, hrow⟩ := bind_eq_ok.1 hrow
    exact bind_eq_ok.2 ⟨e, channelRecord_written he, hrow⟩

theorem domainCode_written {d : Domain} {r : List Item × DomainRow} (h : x.domainCode d = .ok r) :
    x.written.domainCode d.written = .ok r := by
  obtain ⟨⟨items, channels⟩, hrecords, h⟩ := bind_eq_ok.1 h
  refine bind_eq_ok.2 ⟨(items, channels), x.domainRecords_written hrecords, ?_⟩
  dsimp only
  rw [channels_written, List.length_map]
  exact h

/-! ## Pair -/

theorem domains_written : x.written.domains = x.domains.map Domain.written := by
  show (x.config.domains.map Domain.written).filter _ = _
  rw [List.filter_map]
  refine congrArg _ (List.filter_congr fun d _ => ?_)
  show (!(d.channels.map Channel.written).isEmpty || !d.parameters.isEmpty || _) = _
  rw [List.isEmpty_map]
  rfl

theorem source_written {f : File} (h : x.source id = .ok f) : x.written.source id = .ok f := by
  obtain ⟨code, hcode, h⟩ := bind_eq_ok.1 h
  refine bind_eq_ok.2 ⟨code, ?_, h⟩
  rw [domains_written]
  exact mapM_map_eq_ok (fun _ _ => x.domainCode_written) hcode

theorem header_written : x.written.header id = x.header id := by
  unfold header
  dsimp only
  rw [domains_written, List.length_map, List.map_map, List.flatMap_map]
  simp only [Function.comp_def, channels_written, List.length_map]
  rfl

theorem isPlain_content : x.content.IsPlain :=
  .cons (Config.faithful.plain x.config) <|
  .cons (Variant.faithful.plain x.variant) <|
  .cons (.string x.datapool.name) <|
  .cons (.decimal x.version) .nil

theorem written_eq_of_content {x y : HalcCode} (h : x.content = y.content) : x.written = y.written := by
  have h := Json.array.inj h
  simp only [List.cons.injEq, Json.number.injEq, Json.string.injEq, and_true] at h
  obtain ⟨hconfig, hvariant, hname, hversion⟩ := h
  replace hconfig := Config.faithful.view_eq _ _ hconfig
  replace hvariant := Variant.faithful.view_eq _ _ hvariant
  replace hversion := decimal_injective hversion
  cases x
  cases y
  simp_all [written]

theorem generate_eq_ok {x : HalcCode} {p : Pair} (h : (x.generate id).result = .ok p) :
    ∃ source, x.source id = .ok source ∧ p = ⟨x.stem, x.header id, source⟩ := by
  unfold generate at h
  simp only [Report.result_bind, Report.result_ofExcept, Report.result_onError, Report.result_tell,
    Report.result_pure] at h
  obtain ⟨source, hsource, h⟩ := bind_eq_ok.1 h
  exact ⟨source, hsource, (Except.ok.inj h).symm⟩

/-- **Pairs of one content are the same**, whoever asked for them. -/
theorem pair_eq_of_content {x y : HalcCode} (h : x.content = y.content) {p q : Pair}
    (hp : (x.generate id).result = .ok p) (hq : (y.generate id).result = .ok q) : p = q := by
  obtain ⟨source, hsource, rfl⟩ := generate_eq_ok hp
  obtain ⟨source', hsource', rfl⟩ := generate_eq_ok hq
  have hxy := written_eq_of_content h
  have hsources : source = source' := by
    have := x.source_written hsource
    rw [hxy, y.source_written hsource'] at this
    exact (Except.ok.inj this).symm
  have hstem : x.stem = y.stem := congrArg (·.variant.stem) hxy
  rw [hsources, hstem, ← header_written, hxy, header_written]

end HalcCode

end BusNode
