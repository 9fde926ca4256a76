import BusNode.Proofs.Can.Layout
import BusNode.Proofs.CanOpen.Identity
import BusNode.Proofs.CanOpen.Startup
import BusNode.Proofs.Code.Symbol
import BusNode.Proofs.Datapool.Code
import BusNode.Proofs.Halc.Identity
import BusNode.Proofs.Node.Plan
import BusNode.Proofs.Start.Identity
/-!
# The symbols of generated pairs

Every pair carries the identifier that it is generated with, and no other: what stands between the opening and the
end of a file has nothing to do with identifiers (`Artifact.carries`).
-/

namespace BusNode

variable {id : Identifier} {p : Pair}

/-! ## Start -/

namespace StartCode

theorem unmarked_addressTable (type name length : String) (objects : List String) :
    (addressTable type name length objects).all Item.isUnmarked = true := by
  unfold addressTable
  split <;> rfl

theorem unmarked_driverItems (d : DriverSettings) : (driverItems d).all Item.isUnmarked = true := by
  unfold driverItems
  dsimp only
  split <;> rfl

theorem carries {x : StartCode} (h : (x.generate id).result = .ok p) : p.Carries id := by
  rw [generate_eq_ok h]
  refine ⟨?_, ?_⟩
  · unfold header
    simp only [List.append_assoc]
    refine File.defines_header ?_
    cases x.driver <;> rfl
  · unfold source
    simp only [List.append_assoc]
    refine File.expands_source ?_
    simp only [List.all_append, unmarked_addressTable, Bool.true_and]
    cases x.driver with
    | none => rfl
    | some d =>
      simp only [unmarked_driverItems, Bool.true_and]
      rfl

end StartCode

/-! ## Datapools -/

namespace DatapoolCode

variable {x : DatapoolCode} {l : ElementList} {items : List Item}

theorem unmarked_scaling (h : x.scaling = .ok items) : items.all Item.isUnmarked = true := by
  refine List.all_eq_true.2 fun i hi => ?_
  obtain rfl | ⟨-, -, -, rfl⟩ := mem_scaling h hi <;> rfl

theorem unmarked_limits (h : x.limits l = .ok items) : items.all Item.isUnmarked = true := by
  obtain ⟨least, -, h⟩ := bind_eq_ok.1 h
  obtain ⟨greatest, -, h⟩ := bind_eq_ok.1 h
  obtain ⟨sets, -, h⟩ := bind_eq_ok.1 h
  rw [← pure_eq_ok.1 h]
  split <;> rfl

theorem unmarked_listTables (h : x.listTables l = .ok items) : items.all Item.isUnmarked = true := by
  rcases listTables_eq_ok.1 h with ⟨-, rfl⟩ | ⟨-, -, limits, ⟨-, hlimits⟩ | ⟨-, rfl⟩, rfl⟩
  · rfl
  · rw [List.all_append, unmarked_limits hlimits]
    rfl
  · rfl

theorem unmarked_types : x.types.all Item.isUnmarked = true := by
  unfold types
  rw [List.all_append, List.all_append, Item.unmarked_flatMap fun _ => rfl]
  rfl

theorem unmarked_listDefines : (x.listDefines l).all Item.isUnmarked = true := by
  unfold listDefines
  dsimp only
  rw [List.all_append, List.all_append, Item.unmarked_map fun _ => rfl]
  rfl

theorem carries (h : (x.generate id).result = .ok p) : p.Carries id := by
  obtain ⟨-, header, source, hheader, hsource, rfl⟩ := generate_eq_ok h
  refine ⟨?_, ?_⟩
  · obtain ⟨scaling, hscaling, rfl⟩ := header_eq_ok.1 hheader
    unfold headerItems
    simp only [List.append_assoc]
    refine File.defines_header ?_
    have hscaling : scaling.all Item.isUnmarked = true := by
      rcases hscaling with ⟨-, hscaling⟩ | ⟨-, rfl⟩
      · exact unmarked_scaling hscaling
      · rfl
    simp only [List.all_append, hscaling, Item.unmarked_flatMap fun _ => unmarked_listDefines, Bool.true_and]
    rw [Item.unmarked_map fun _ => rfl]
    split
    · rw [unmarked_types]
      rfl
    · rfl
  · obtain ⟨values, tables, hvalues, htables, -, rfl⟩ := source_eq_ok.1 hsource
    unfold sourceItems
    simp only [List.append_assoc]
    refine File.expands_source ?_
    have hvalues : values.all Item.isUnmarked = true := by
      rcases hvalues with ⟨-, i, hi, rfl⟩ | ⟨-, rfl⟩
      · obtain ⟨rows, -, hi⟩ := bind_eq_ok.1 hi
        rw [← pure_eq_ok.1 hi]
        rfl
      · rfl
    have htables : tables.flatten.all Item.isUnmarked = true := by
      refine Item.unmarked_flatten fun t ht => ?_
      obtain ⟨l, -, hl⟩ := exists_of_mem_right htables ht
      exact unmarked_listTables hl
    simp only [List.all_append, hvalues, htables, Bool.true_and]
    split <;> split <;> rfl

end DatapoolCode

/-! ## Communication -/

namespace CommCode

variable {x : CommCode}

theorem unmarked_tableItems (type name : String) (rows : List Row) :
    (tableItems type name rows).all Item.isUnmarked = true := by
  unfold tableItems
  split <;> rfl

theorem unmarked_directionItems (dir : Can.Direction) (t : CommTables) :
    (x.directionItems dir t).all Item.isUnmarked = true := by
  unfold directionItems
  simp only [List.all_append, unmarked_tableItems, Bool.and_self]

theorem unmarked_statusItems (dir : Can.Direction) (t : CommTables) :
    (x.statusItems dir t).all Item.isUnmarked = true := by
  unfold statusItems
  split <;> rfl

theorem unmarked_messageDefines (dir : Can.Direction) : (x.messageDefines dir).all Item.isUnmarked = true := by
  unfold messageDefines
  dsimp only
  rw [List.all_append, Item.unmarked_map fun _ => rfl]
  rfl

theorem carries (h : (x.generate id).result = .ok p) : p.Carries id := by
  obtain ⟨stack, tx, rx, -, -, -, -, -, rfl⟩ := generate_eq_ok h
  refine ⟨?_, ?_⟩
  · unfold header
    simp only [List.append_assoc]
    refine File.defines_header ?_
    simp only [List.all_append, unmarked_messageDefines, Bool.true_and]
    rfl
  · unfold source
    simp only [List.append_assoc]
    refine File.expands_source ?_
    simp only [List.all_append, unmarked_directionItems, unmarked_tableItems, Bool.true_and]
    split
    · rfl
    · rw [List.all_cons, List.all_append, unmarked_statusItems, unmarked_statusItems]
      rfl

end CommCode

/-! ## CANopen -/

namespace ManagerCode

variable {x : ManagerCode}

theorem unmarked_pdoItems (dir : Can.Direction) (t : PdoTables) : (x.pdoItems dir t).all Item.isUnmarked = true := by
  unfold pdoItems
  rw [List.all_append, CommCode.unmarked_tableItems, CommCode.unmarked_tableItems]
  rfl

theorem carries (h : (x.generate id).result = .ok p) : p.Carries id := by
  obtain ⟨plan, file, -, hfile, rfl⟩ := generate_eq_ok h
  refine ⟨?_, ?_⟩
  · unfold header
    dsimp only
    simp only [List.append_assoc]
    refine File.defines_header ?_
    simp only [List.all_append]
    rw [Item.unmarked_map fun _ => rfl]
    rfl
  · obtain ⟨tx, -, hfile⟩ := bind_eq_ok.1 hfile
    obtain ⟨rx, -, hfile⟩ := bind_eq_ok.1 hfile
    obtain rfl := pure_eq_ok.1 hfile
    simp only [List.append_assoc]
    refine File.expands_source ?_
    simp only [List.all_append, CommCode.unmarked_tableItems, unmarked_pdoItems, Bool.true_and]
    rw [Item.unmarked_flatMap fun _ => rfl]
    rfl

end ManagerCode

namespace AggregateCode

theorem unmarked_instanceItems {x : AggregateCode} (k : InstanceKind) :
    (x.instanceItems k).all Item.isUnmarked = true := by
  unfold instanceItems
  split <;> rfl

theorem carries {x : AggregateCode} (h : (x.generate id).result = .ok p) : p.Carries id := by
  rw [generate_eq_ok h]
  refine ⟨?_, ?_⟩
  · unfold header
    simp only [List.append_assoc]
    exact File.defines_header rfl
  · unfold source
    simp only [List.append_assoc]
    refine File.expands_source ?_
    simp only [List.all_append, Item.unmarked_flatMap unmarked_instanceItems, Bool.true_and]
    rfl

end AggregateCode

/-! ## Hardware channels -/

namespace HalcCode

variable {x : HalcCode}

theorem unmarked_domainRecords {d : Halc.Domain} {items : List Item} {channels : Pointer}
    (h : x.domainRecords d = .ok (items, channels)) : items.all Item.isUnmarked = true := by
  unfold domainRecords at h
  split at h
  · split at h
    · obtain ⟨values, -, h⟩ := bind_eq_ok.1 h
      cases h
      rfl
    · cases h
      rfl
  · obtain ⟨values, -, h⟩ := bind_eq_ok.1 h
    cases h
    rfl
  · obtain ⟨rows, -, h⟩ := bind_eq_ok.1 h
    cases h
    rfl

theorem carries (h : (x.generate id).result = .ok p) : p.Carries id := by
  obtain ⟨source, hsource, rfl⟩ := generate_eq_ok h
  refine ⟨?_, ?_⟩
  · unfold header
    dsimp only
    simp only [List.append_assoc]
    refine File.defines_header ?_
    simp only [List.all_append]
    rw [Item.unmarked_map fun _ => rfl, Item.unmarked_flatMap fun _ => rfl]
    rfl
  · obtain ⟨code, hcode, hsource⟩ := bind_eq_ok.1 hsource
    obtain rfl := pure_eq_ok.1 hsource
    simp only [List.append_assoc]
    refine File.expands_source ?_
    have hcode : (code.flatMap (·.1)).all Item.isUnmarked = true := by
      rw [List.all_flatMap, List.all_eq_true]
      intro r hr
      obtain ⟨d, -, hd⟩ := exists_of_mem_right (mapM_eq_ok.1 hcode) hr
      obtain ⟨⟨items, channels⟩, hrecords, hd⟩ := bind_eq_ok.1 hd
      rw [← pure_eq_ok.1 hd]
      exact unmarked_domainRecords hrecords
    simp only [List.all_append, hcode, Bool.true_and]
    split <;> rfl

end HalcCode

/-- **A generated pair carries its identifier.** -/
theorem Artifact.carries {a : Artifact} (h : a.IsGenerated) : a.pair.Carries a.identifier := by
  replace h := h.generates
  obtain ⟨source, pair⟩ := a
  cases source with
  | start x => exact StartCode.carries h
  | datapool x => exact DatapoolCode.carries h
  | comm x => exact CommCode.carries h
  | manager x => exact ManagerCode.carries h
  | aggregate x => exact AggregateCode.carries h
  | halc x => exact HalcCode.carries h

end BusNode
