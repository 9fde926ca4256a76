import BusNode.Datapool.Linkage
import BusNode.Datapool.Snapshot
import BusNode.Proofs.Json.Codec
/-!
# What a written Datapool keeps

A Datapool is written with all that it has, save the numbers that are not finite: what is written alike is the same
up to these (`Datapool.written`).
-/

namespace BusNode

open Codec.Faithful

/-! ## Values -/

theorem ScalarType.faithful : codec.Faithful id := enumeration fun t => by cases t <;> rfl

namespace Scalar

/-- The value as far as it is written. -/
def written : Scalar → Scalar
  | .f32 v => .f32 v.written
  | .f64 v => .f64 v.written
  | v => v

@[simp] theorem type_written (v : Scalar) : v.written.type = v.type := by cases v <;> rfl

theorem isPlain_write (v : Scalar) : v.write.IsPlain := by
  cases v with
  | u8 v => exact isPlain_tagged (by decide) (uint8.plain v)
  | s8 v => exact isPlain_tagged (by decide) (int8.plain v)
  | u16 v => exact isPlain_tagged (by decide) (uint16.plain v)
  | s16 v => exact isPlain_tagged (by decide) (int16.plain v)
  | u32 v => exact isPlain_tagged (by decide) (uint32.plain v)
  | s32 v => exact isPlain_tagged (by decide) (int32.plain v)
  | u64 v => exact isPlain_tagged (by decide) (uint64.plain v)
  | s64 v => exact isPlain_tagged (by decide) (int64.plain v)
  | f32 v => exact isPlain_tagged (by decide) (single.plain v)
  | f64 v => exact isPlain_tagged (by decide) (double.plain v)

/-- Values of one type are told apart by their numbers, values of two types by the names of these. -/
theorem written_eq_of_write {v w : Scalar} (h : v.write = w.write) : v.written = w.written := by
  cases v with
  | u8 v =>
    cases w <;> obtain ⟨hname, hv⟩ := tagged_inj h <;> first
      | exact absurd hname (by decide)
      | exact congrArg u8 (uint8.view_eq _ _ hv)
  | s8 v =>
    cases w <;> obtain ⟨hname, hv⟩ := tagged_inj h <;> first
      | exact absurd hname (by decide)
      | exact congrArg s8 (int8.view_eq _ _ hv)
  | u16 v =>
    cases w <;> obtain ⟨hname, hv⟩ := tagged_inj h <;> first
      | exact absurd hname (by decide)
      | exact congrArg u16 (uint16.view_eq _ _ hv)
  | s16 v =>
    cases w <;> obtain ⟨hname, hv⟩ := tagged_inj h <;> first
      | exact absurd hname (by decide)
      | exact congrArg s16 (int16.view_eq _ _ hv)
  | u32 v =>
    cases w <;> obtain ⟨hname, hv⟩ := tagged_inj h <;> first
      | exact absurd hname (by decide)
      | exact congrArg u32 (uint32.view_eq _ _ hv)
  | s32 v =>
    cases w <;> obtain ⟨hname, hv⟩ := tagged_inj h <;> first
      | exact absurd hname (by decide)
      | exact congrArg s32 (int32.view_eq _ _ hv)
  | u64 v =>
    cases w <;> obtain ⟨hname, hv⟩ := tagged_inj h <;> first
      | exact absurd hname (by decide)
      | exact congrArg u64 (uint64.view_eq _ _ hv)
  | s64 v =>
    cases w <;> obtain ⟨hname, hv⟩ := tagged_inj h <;> first
      | exact absurd hname (by decide)
      | exact congrArg s64 (int64.view_eq _ _ hv)
  | f32 v =>
    cases w <;> obtain ⟨hname, hv⟩ := tagged_inj h <;> first
      | exact absurd hname (by decide)
      | exact congrArg f32 (single.view_eq _ _ hv)
  | f64 v =>
    cases w <;> obtain ⟨hname, hv⟩ := tagged_inj h <;> first
      | exact absurd hname (by decide)
      | exact congrArg f64 (double.view_eq _ _ hv)

theorem faithful : codec.Faithful written := ⟨isPlain_write, fun _ _ => written_eq_of_write⟩

end Scalar

/-- The values as far as they are written. -/
def Content.written (c : Content) : Content := c.map Scalar.written

theorem Content.faithful : codec.Faithful Content.written := list Scalar.faithful

/-! ## Elements -/

theorem ElementAccess.faithful : codec.Faithful id := enumeration fun a => by cases a <;> rfl

namespace Element

/-- The element as far as it is written. -/
def written (e : Element) : Element :=
  { e with
    default := Content.written e.default
    min := Content.written e.min
    max := Content.written e.max
    dataSetValues := e.dataSetValues.map Content.written
    factor := e.factor.written
    offset := e.offset.written }

theorem faithful : codec.Faithful written := by
  refine record (by decide) (.cons string <| .cons string <| .cons ScalarType.faithful <|
    .cons (option_id uint32 fun _ h => nomatch h) <| .cons Content.faithful <| .cons Content.faithful <|
    .cons Content.faithful <| .cons (list Content.faithful) <| .cons double <| .cons double <| .cons string <|
    .cons ElementAccess.faithful <| .cons bool <| .cons uint32 .nil) fun a b h => ?_
  simp only [Prod.map_apply, id_eq, Prod.mk.injEq] at h
  obtain ⟨h1, h2, h3, h4, h5, h6, h7, h8, h9, h10, h11, h12, h13, h14, -⟩ := h
  cases a
  cases b
  simp_all [written]

end Element

/-! ## Lists -/

theorem DataSet.faithful : codec.Faithful id :=
  record_id (by decide) (.cons string <| .cons string .nil) (fun _ => rfl) fun _ => rfl

namespace ElementList

/-- The list as far as it is written. -/
def written (l : ElementList) : ElementList := { l with elements := l.elements.map Element.written }

theorem getElem?_written (l : ElementList) (i : Nat) : l.written.elements[i]? = l.elements[i]?.map Element.written :=
  List.getElem?_map

theorem faithful : codec.Faithful written := by
  refine record (by decide) (.cons string <| .cons string <| .cons uint32 <| .cons uint32 <| .cons bool <|
    .cons (list Element.faithful) <| .cons (list_id DataSet.faithful) .nil) fun a b h => ?_
  simp only [Prod.map_apply, id_eq, Prod.mk.injEq] at h
  obtain ⟨h1, h2, h3, h4, h5, h6, h7, -⟩ := h
  cases a
  cases b
  simp_all [written]

end ElementList

/-! ## Datapools -/

theorem DatapoolKind.faithful : codec.Faithful id := enumeration fun k => by cases k <;> rfl

namespace Datapool

theorem faithful_version : versionCodec.Faithful id where
  plain v := .cons (uint8.plain v.1) <| .cons (uint8.plain v.2.1) <| .cons (uint8.plain v.2.2) .nil
  view_eq v w h := by
    obtain ⟨h1, h⟩ := List.cons.inj (Json.array.inj h)
    obtain ⟨h2, h⟩ := List.cons.inj h
    obtain ⟨h3, -⟩ := List.cons.inj h
    exact Prod.ext (uint8.view_eq _ _ h1) (Prod.ext (uint8.view_eq _ _ h2) (uint8.view_eq _ _ h3))

/-- The Datapool as far as it is written. -/
def written (d : Datapool) : Datapool := { d with lists := d.lists.map ElementList.written }

theorem getElem?_written (d : Datapool) (i : Nat) : d.written.lists[i]? = d.lists[i]?.map ElementList.written :=
  List.getElem?_map

theorem faithful : codec.Faithful written := by
  refine record (by decide) (.cons string <| .cons string <| .cons DatapoolKind.faithful <| .cons bool <|
    .cons faithful_version <| .cons (option_id uint64 fun _ h => nomatch h) <| .cons bool <| .cons uint32 <|
    .cons uint32 <| .cons (list ElementList.faithful) .nil) fun a b h => ?_
  simp only [Prod.map_apply, id_eq, Prod.mk.injEq] at h
  obtain ⟨h1, h2, h3, h4, h5, h6, h7, h8, h9, h10, -⟩ := h
  cases a
  cases b
  simp_all [written]

end Datapool

theorem Linkage.faithful : codec.Faithful id := enumeration fun l => by cases l <;> rfl

end BusNode
