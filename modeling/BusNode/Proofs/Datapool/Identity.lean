import BusNode.Proofs.Datapool.Code
import BusNode.Proofs.Datapool.Snapshot
/-!
# What a Datapool pair depends on

* `DatapoolCode.written` — the input of a pair as far as its content has it;
* `DatapoolCode.header_written`, `DatapoolCode.source_written` — a file that is generated is generated of that alone:
  numbers that are not finite have no literal, so none is in a file;
* `DatapoolCode.pair_eq_of_content` — pairs of one content are the same.
-/

namespace BusNode

/-! ## Values -/

theorem Literal.double_written {x : Binary64} {s : String} (h : double x = .ok s) : double x.written = .ok s := by
  have hx : x.isFinite = true := by
    by_contra hx
    rw [double, if_neg hx] at h
    cases h
  rwa [Binary.written_of_isFinite hx]

theorem Literal.single_written {x : Binary32} {s : String} (h : single x = .ok s) : single x.written = .ok s := by
  have hx : x.isFinite = true := by
    by_contra hx
    rw [single, if_neg hx] at h
    cases h
  rwa [Binary.written_of_isFinite hx]

theorem Literal.scalar_written {v : Scalar} {s : String} (h : scalar v = .ok s) : scalar v.written = .ok s := by
  cases v with
  | f32 v => exact single_written h
  | f64 v => exact double_written h
  | _ => exact h

/-- A number that is not finite is the same as no finite one, and stays so. -/
theorem Binary.same_written (x : Binary64) {y : Binary64} (hy : y.isFinite = true) : x.written.same y = x.same y := by
  unfold written
  split
  · rfl
  · rename_i hx
    have hnan : (nan : Binary64).isNaN = true := by decide +kernel
    have hbody : x.body ≠ 0 ∧ x.bits ≠ y.bits := by
      constructor
      · intro h
        refine hx (decide_eq_true ?_)
        rw [h]
        decide
      · intro h
        have : x = y := by
          cases x
          cases y
          cases h
          rfl
        exact hx (this ▸ hy)
    unfold same
    rw [hnan, beq_eq_false_iff_ne.2 hbody.2, beq_eq_false_iff_ne.2 hbody.1]
    simp

namespace Element

theorem isScaled_written (e : Element) : e.written.isScaled = e.isScaled := by
  have hone : (Binary.one : Binary64).isFinite = true := by decide +kernel
  have hzero : (Binary.zero : Binary64).isFinite = true := by decide +kernel
  show (!e.factor.written.same .one || !e.offset.written.same .zero) = _
  rw [Binary.same_written _ hone, Binary.same_written _ hzero]
  rfl

end Element

/-! ## Lists -/

namespace DatapoolCode

theorem contentExpr_written {e : Element} {c : Content} {r : Expr} (h : contentExpr e c = .ok r) :
    contentExpr e.written (Content.written c) = .ok r := by
  obtain ⟨literals, hliterals, h⟩ := bind_eq_ok.1 h
  exact bind_eq_ok.2 ⟨literals, mapM_map_eq_ok (fun _ _ => Literal.scalar_written) hliterals, h⟩

/-- The rows of a selection that selects what is written. -/
theorem contentRows_written {l : ElementList} {select : Element → Content} {rows : List Row}
    (hselect : ∀ e, select e.written = Content.written (select e)) (h : contentRows l select = .ok rows) :
    contentRows l.written select = .ok rows := by
  refine mapM_map_eq_ok (fun e row he => ?_) h
  obtain ⟨r, hr, he⟩ := bind_eq_ok.1 he
  refine bind_eq_ok.2 ⟨r, ?_, he⟩
  rw [hselect]
  exact contentExpr_written hr

/-- The input as far as its content has it. -/
def written (x : DatapoolCode) : DatapoolCode := { x with application := "", datapool := x.datapool.written }

variable (x : DatapoolCode) {id : Identifier}

theorem filledLists_written (d : Datapool) : d.written.filledLists = d.filledLists.map ElementList.written := by
  unfold Datapool.filledLists
  show (d.lists.map ElementList.written).filter _ = _
  rw [List.filter_map]
  refine congrArg _ (List.filter_congr fun l _ => ?_)
  show (!(l.elements.map Element.written).isEmpty) = _
  rw [List.isEmpty_map]

theorem values_written {i : Item} (h : x.values = .ok i) : x.written.values = .ok i := by
  obtain ⟨rows, hrows, h⟩ := bind_eq_ok.1 h
  refine bind_eq_ok.2 ⟨rows, ?_, h⟩
  show x.datapool.written.filledLists.mapM _ = _
  rw [filledLists_written]
  refine mapM_map_eq_ok (fun l row hl => ?_) hrows
  obtain ⟨r, hr, hl⟩ := bind_eq_ok.1 hl
  exact bind_eq_ok.2 ⟨r, contentRows_written (fun _ => rfl) hr, hl⟩

theorem getD_written (cs : List Content) (i : Nat) :
    (cs.map Content.written).getD i [] = Content.written (cs.getD i []) := by
  rw [List.getD_eq_getElem?_getD, List.getD_eq_getElem?_getD, List.getElem?_map]
  cases cs[i]? <;> rfl

theorem limits_written {l : ElementList} {items : List Item} (h : x.limits l = .ok items) :
    x.written.limits l.written = .ok items := by
  obtain ⟨least, hleast, h⟩ := bind_eq_ok.1 h
  obtain ⟨greatest, hgreatest, h⟩ := bind_eq_ok.1 h
  obtain ⟨sets, hsets, h⟩ := bind_eq_ok.1 h
  refine bind_eq_ok.2 ⟨least, contentRows_written (fun _ => rfl) hleast, bind_eq_ok.2
    ⟨greatest, contentRows_written (fun _ => rfl) hgreatest, bind_eq_ok.2 ⟨sets, ?_, h⟩⟩⟩
  rw [mapM_eq_ok] at hsets ⊢
  refine hsets.imp fun s row hs => ?_
  obtain ⟨r, hr, hs⟩ := bind_eq_ok.1 hs
  exact bind_eq_ok.2 ⟨r, contentRows_written (fun e => getD_written e.dataSetValues s.2) hr, hs⟩

theorem elementTable_written (l : ElementList) : x.written.elementTable l.written = x.elementTable l := by
  unfold elementTable
  show Item.object (.table _ (x.datapool.elementTableName l) (l.elements.map Element.written).length)
    ((l.elements.map Element.written).map _) none = _
  rw [List.length_map, List.map_map]
  rfl

theorem listTables_written {l : ElementList} {items : List Item} (h : x.listTables l = .ok items) :
    x.written.listTables l.written = .ok items := by
  rw [listTables_eq_ok] at h ⊢
  rcases h with ⟨hempty, rfl⟩ | ⟨hne, hfits, limits, hlimits, rfl⟩
  · exact .inl ⟨List.map_eq_nil_iff.2 hempty, rfl⟩
  · refine .inr ⟨fun h => hne (List.map_eq_nil_iff.1 h), List.forall_mem_map.2 hfits, limits, ?_,
      by rw [elementTable_written]⟩
    exact hlimits.imp_left fun ⟨hown, hlimits⟩ => ⟨hown, x.limits_written hlimits⟩

/-! ## Source -/

theorem listDefinition_written (l : ElementList) : x.written.listDefinition l.written = x.listDefinition l := by
  unfold listDefinition
  dsimp only
  have hlength : l.written.elements.length = l.elements.length := List.length_map _
  have hempty : l.written.elements.isEmpty = l.elements.isEmpty := List.isEmpty_map
  rw [hlength, hempty]
  rfl

theorem listTable_written : x.written.listTable = x.listTable := by
  unfold listTable
  show [Item.blank, .object (.table _ _ (x.datapool.lists.map ElementList.written).length)
    ((x.datapool.lists.map ElementList.written).map _) none] = _
  rw [List.length_map, List.map_map]
  simp only [Function.comp_def, listDefinition_written]
  rfl

theorem bytes_written (l : ElementList) : l.written.bytes = l.bytes := by
  unfold ElementList.bytes
  show ((l.elements.map Element.written).map _).sum = _
  rw [List.map_map]
  rfl

theorem scratchBytes_written (d : Datapool) : d.written.scratchBytes = d.scratchBytes := by
  unfold Datapool.scratchBytes
  show ((d.lists.map ElementList.written).map _).foldl max 1 = _
  rw [List.map_map]
  simp only [Function.comp_def, ElementList.storedBytes, bytes_written]
  rfl

theorem recordRows_written (length : Nat) : x.written.recordRows length = x.recordRows length := by
  have hlength : x.written.datapool.lists.length = x.datapool.lists.length := List.length_map _
  unfold recordRows
  dsimp only
  rw [hlength]
  rfl

theorem sourceItems_written (values : List Item) (tables : List (List Item)) (length : Nat) :
    x.written.sourceItems id values tables length = x.sourceItems id values tables length := by
  unfold sourceItems
  dsimp only
  rw [listTable_written, recordRows_written]
  rfl

theorem source_written {f : File} (h : x.source id = .ok f) : x.written.source id = .ok f := by
  rw [source_eq_ok] at h ⊢
  obtain ⟨values, tables, hvalues, htables, hfits, rfl⟩ := h
  have hscratch : x.written.datapool.scratchBytes = x.datapool.scratchBytes := scratchBytes_written x.datapool
  rw [hscratch]
  refine ⟨values, tables, ?_, ?_, hfits, by rw [sourceItems_written]⟩
  · exact hvalues.imp_left fun ⟨hown, i, hi, hvalues⟩ => ⟨hown, i, x.values_written hi, hvalues⟩
  · show List.Forall₂ _ (x.datapool.lists.map ElementList.written) tables
    rw [List.forall₂_map_left_iff]
    exact htables.imp fun _ _ => x.listTables_written

/-! ## Header -/

theorem scalingDefines_written {l : ElementList} {e : Element} {items : List Item}
    (h : x.scalingDefines l e = .ok items) : x.written.scalingDefines l.written e.written = .ok items := by
  obtain ⟨factor, hfactor, h⟩ := bind_eq_ok.1 h
  obtain ⟨offset, hoffset, h⟩ := bind_eq_ok.1 h
  exact bind_eq_ok.2 ⟨factor, Literal.double_written hfactor, bind_eq_ok.2 ⟨offset, Literal.double_written hoffset, h⟩⟩

/-- The elements that need scaling definitions, each with its list. -/
def scaled (d : Datapool) : List (ElementList × Element) :=
  d.lists.flatMap fun l => (l.elements.filter Element.isScaled).map (l, ·)

theorem scaled_written (d : Datapool) :
    scaled d.written = (scaled d).map (Prod.map ElementList.written Element.written) := by
  unfold scaled
  show (d.lists.map ElementList.written).flatMap _ = _
  rw [List.flatMap_map, List.map_flatMap]
  refine List.flatMap_congr fun l _ => ?_
  show ((l.elements.map Element.written).filter _).map _ = _
  rw [List.filter_map, List.map_map, List.map_map]
  simp only [Function.comp_def, Element.isScaled_written]
  rfl

theorem scaling_written {items : List Item} (h : x.scaling = .ok items) : x.written.scaling = .ok items := by
  obtain ⟨defines, hdefines, h⟩ := bind_eq_ok.1 h
  refine bind_eq_ok.2 ⟨defines, ?_, ?_⟩
  · show (scaled x.datapool.written).mapM _ = _
    rw [scaled_written]
    refine mapM_map_eq_ok (fun a items ha => ?_) hdefines
    obtain ⟨l, e⟩ := a
    exact x.scalingDefines_written ha
  · show pure (if (scaled x.datapool.written).isEmpty then _ else _) = _
    rw [scaled_written, List.isEmpty_map]
    exact h

theorem listDefines_written (l : ElementList) : x.written.listDefines l.written = x.listDefines l := by
  have helements : l.written.elements = l.elements.map Element.written := rfl
  unfold listDefines
  dsimp only
  rw [helements, List.length_map, List.zipIdx_map, List.map_map]
  rfl

theorem types_written : x.written.types = x.types := by
  have hfilled : x.written.datapool.filledLists = x.datapool.filledLists.map ElementList.written :=
    filledLists_written x.datapool
  unfold types
  rw [hfilled, List.flatMap_map, List.map_map]
  simp only [ElementList.written, List.map_map]
  rfl

theorem headerItems_written (scaling : List Item) : x.written.headerItems id scaling = x.headerItems id scaling := by
  have hlists : x.written.datapool.lists = x.datapool.lists.map ElementList.written := rfl
  unfold headerItems
  rw [types_written, hlists, List.length_map, List.zipIdx_map, List.map_map, List.flatMap_map]
  simp only [listDefines_written]
  rfl

theorem header_written {f : File} (h : x.header id = .ok f) : x.written.header id = .ok f := by
  rw [header_eq_ok] at h ⊢
  obtain ⟨scaling, hscaling, rfl⟩ := h
  refine ⟨scaling, ?_, by rw [headerItems_written]⟩
  exact hscaling.imp_left fun ⟨hs, hscaling⟩ => ⟨hs, x.scaling_written hscaling⟩

/-! ## Pair -/

theorem isPlain_content : x.content.IsPlain :=
  .cons (Datapool.faithful.plain x.datapool) <|
  .cons (Linkage.faithful.plain x.linkage) <|
  .cons (Codec.Faithful.uint8.plain x.ownerProcessId) <|
  .cons (.decimal _) <|
  .cons (.decimal _) <|
  .cons (.bool _) <|
  .cons (.decimal x.version) .nil

theorem written_eq_of_content {x y : DatapoolCode} (h : x.content = y.content) : x.written = y.written := by
  have h := Json.array.inj h
  simp only [List.cons.injEq, Json.number.injEq, Json.bool.injEq, and_true] at h
  obtain ⟨hdatapool, hlinkage, hprocess, hindex, hplace, hscaling, hversion⟩ := h
  have hdatapool := Datapool.faithful.view_eq _ _ hdatapool
  have hlinkage := Linkage.faithful.view_eq _ _ hlinkage
  have hprocess := Codec.Faithful.uint8.view_eq _ _ hprocess
  have hindex := decimal_injective hindex
  have hplace := decimal_injective hplace
  have hversion := decimal_injective hversion
  cases x
  cases y
  simp_all [written]

/-- **Pairs of one content are the same**, whoever asked for them. -/
theorem pair_eq_of_content {x y : DatapoolCode} (h : x.content = y.content) {p q : Pair}
    (hp : (x.generate id).result = .ok p) (hq : (y.generate id).result = .ok q) : p = q := by
  obtain ⟨-, header, source, hheader, hsource, rfl⟩ := generate_eq_ok hp
  obtain ⟨-, header', source', hheader', hsource', rfl⟩ := generate_eq_ok hq
  have hxy := written_eq_of_content h
  have hheaders : header = header' := by
    have := x.header_written hheader
    rw [hxy, y.header_written hheader'] at this
    exact (Except.ok.inj this).symm
  have hsources : source = source' := by
    have := x.source_written hsource
    rw [hxy, y.source_written hsource'] at this
    exact (Except.ok.inj this).symm
  have hstem : x.datapool.stem = y.datapool.stem := congrArg (·.datapool.stem) hxy
  rw [hheaders, hsources, hstem]

end DatapoolCode

end BusNode
