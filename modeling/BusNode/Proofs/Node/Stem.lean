import BusNode.Proofs.Can.Layout
import BusNode.Proofs.CanOpen.Identity
import BusNode.Proofs.CanOpen.Startup
import BusNode.Proofs.Datapool.Code
import BusNode.Proofs.Halc.Identity
import BusNode.Proofs.Node.Plan
import BusNode.Proofs.Start.Identity
import BusNode.Proofs.Text.Digit
/-!
# Stems

Artifacts of two kinds never have one stem: the first letters of a stem and its last one tell the kind
(`Artifact.ofStem_stem`).
-/

namespace BusNode

/-- What an artifact is for. -/
inductive ArtifactKind where
  | start
  | datapool
  | comm
  | manager
  | aggregate
  | halc
  deriving DecidableEq, Repr

namespace ArtifactKind

/-- The kind that a stem tells: only Datapools end in an `l`, and only managers and protocols in a digit. -/
def ofStem (stem : List Char) : ArtifactKind :=
  if stem.getLast? = some 'l' then .datapool
  else match stem with
    | 'o' :: _ => .start
    | 'h' :: _ => .halc
    | 'c' :: 'o' :: _ => .comm
    | _ => if stem.getLast? = some 't' then .aggregate else .manager

end ArtifactKind

def Source.kind : Source → ArtifactKind
  | .start _ => .start
  | .datapool _ => .datapool
  | .comm _ => .comm
  | .manager _ => .manager
  | .aggregate _ => .aggregate
  | .halc _ => .halc

theorem toLower_of_isDigit {c : Char} (h : c.isDigit = true) : c.toLower = c := by
  have h57 : c.toNat ≤ 57 := (Char.isDigit_iff_toNat.1 h).2
  refine dif_neg fun ⟨hA, _⟩ => ?_
  have h65 : 65 ≤ c.toNat := UInt32.le_iff_toNat_le.1 hA
  omega

theorem toList_lower_busName (interface : UInt8) :
    (lower (busName interface)).toList = "can".toList ++ Nat.toDigits 10 (interface.toNat + 1) := by
  have hdigits : (Nat.toDigits 10 (interface.toNat + 1)).map Char.toLower = Nat.toDigits 10 (interface.toNat + 1) :=
    (List.map_congr_left fun c hc => toLower_of_isDigit (isDigit_toDigits _ c hc)).trans (List.map_id _)
  show (String.map Char.toLower ("CAN" ++ decimal (interface.toNat + 1))).toList = _
  rw [String.toList_map, String.toList_append, List.map_append, toList_decimal, hdigits]
  rfl

/-- The name of a bus ends in a digit. -/
theorem exists_getLast?_busName (interface : UInt8) :
    ∃ c, (lower (busName interface)).toList.getLast? = some c ∧ c.isDigit = true := by
  refine ⟨(Nat.toDigits 10 (interface.toNat + 1)).getLast Nat.toDigits_ne_nil, ?_,
    isDigit_toDigits _ _ (List.getLast_mem _)⟩
  rw [toList_lower_busName, List.getLast?_append, List.getLast?_eq_some_getLast Nat.toDigits_ne_nil, Option.some_or]

/-- A text that ends in the name of a bus ends in no letter. -/
theorem getLast?_append_busName (s : String) (interface : UInt8) {c : Char} (hc : c.isDigit = false) :
    (s ++ lower (busName interface)).toList.getLast? ≠ some c := by
  obtain ⟨d, hd, hdigit⟩ := exists_getLast?_busName interface
  rw [String.toList_append, List.getLast?_append, hd, Option.some_or]
  rintro ⟨⟩
  rw [hc] at hdigit
  cases hdigit

namespace ArtifactKind

theorem ofStem_start : ofStem StartCode.stem.toList = .start := by decide

theorem ofStem_aggregate : ofStem AggregateCode.stem.toList = .aggregate := by decide

theorem ofStem_halc (v : Halc.Variant) : ofStem v.stem.toList = .halc := by cases v <;> decide

theorem ofStem_datapool (d : Datapool) : ofStem d.stem.toList = .datapool := by
  have hlast : d.stem.toList.getLast? = some 'l' := by
    have hsuffix : "_data_pool".toList.getLast? = some 'l' := by decide
    rw [Datapool.stem, String.toList_append, List.getLast?_append, hsuffix, Option.some_or]
  unfold ofStem
  rw [if_pos hlast]

theorem ofStem_comm {kind : Can.ProtocolKind} {interface : UInt8} {stem : String} (h : kind.stem interface = .ok stem) :
    ofStem stem.toList = .comm := by
  obtain ⟨stack, -, h⟩ := bind_eq_ok.1 h
  have hstem : stem = "comm_" ++ stack.symbol ++ "_" ++ lower (busName interface) := (pure_eq_ok.1 h).symm
  have hlast : stem.toList.getLast? ≠ some 'l' := hstem ▸ getLast?_append_busName _ interface (by decide)
  have hfirst : ∃ r, stem.toList = 'c' :: 'o' :: r := by
    rw [hstem, String.toList_append, String.toList_append, String.toList_append]
    exact ⟨_, rfl⟩
  obtain ⟨r, hr⟩ := hfirst
  unfold ofStem
  rw [if_neg hlast, hr]
  rfl

theorem ofStem_manager (interface : UInt8) : ofStem (ManagerCode.stemOf interface).toList = .manager := by
  have hlast {c : Char} (hc : c.isDigit = false) : (ManagerCode.stemOf interface).toList.getLast? ≠ some c :=
    getLast?_append_busName "canopen_mgr_" interface hc
  have hfirst : ∃ r, (ManagerCode.stemOf interface).toList = 'c' :: 'a' :: r := by
    show ∃ r, ("canopen_mgr_" ++ lower (busName interface)).toList = _
    rw [String.toList_append]
    exact ⟨_, rfl⟩
  obtain ⟨r, hr⟩ := hfirst
  have hl := hlast (c := 'l') (by decide)
  have ht := hlast (c := 't') (by decide)
  rw [hr] at hl ht ⊢
  unfold ofStem
  rw [if_neg hl]
  exact if_neg ht

end ArtifactKind

/-! ## Stems of artifacts -/

/-- The stem is what the files of a source are named by. -/
def Source.HasStem (stem : String) : Source → Prop
  | .start _ => stem = StartCode.stem
  | .datapool x => stem = x.datapool.stem
  | .comm x => x.protocol.stem x.interface = .ok stem
  | .manager x => stem = x.stem
  | .aggregate _ => stem = AggregateCode.stem
  | .halc x => stem = x.stem

theorem Source.HasStem.ofStem {s : Source} {stem : String} (h : s.HasStem stem) :
    ArtifactKind.ofStem stem.toList = s.kind := by
  cases s with
  | start x => exact h ▸ ArtifactKind.ofStem_start
  | datapool x => exact h ▸ ArtifactKind.ofStem_datapool x.datapool
  | comm x => exact ArtifactKind.ofStem_comm h
  | manager x => exact h ▸ ArtifactKind.ofStem_manager x.interface
  | aggregate x => exact h ▸ ArtifactKind.ofStem_aggregate
  | halc x => exact h ▸ ArtifactKind.ofStem_halc x.variant

namespace Artifact

variable {a b : Artifact}

theorem hasStem (h : a.IsGenerated) : a.source.HasStem a.pair.stem := by
  replace h := h.generates
  obtain ⟨source, pair⟩ := a
  cases source with
  | start x => exact congrArg Pair.stem (StartCode.generate_eq_ok h)
  | datapool x =>
    obtain ⟨-, header, file, -, -, hpair⟩ := DatapoolCode.generate_eq_ok h
    exact congrArg Pair.stem hpair
  | comm x =>
    obtain ⟨stack, tx, rx, hstem, -⟩ := CommCode.generate_eq_ok h
    exact hstem
  | manager x =>
    obtain ⟨plan, file, -, -, hpair⟩ := ManagerCode.generate_eq_ok h
    exact congrArg Pair.stem hpair
  | aggregate x => exact congrArg Pair.stem (AggregateCode.generate_eq_ok h)
  | halc x =>
    obtain ⟨file, -, hpair⟩ := HalcCode.generate_eq_ok h
    exact congrArg Pair.stem hpair

/-- **The stem of an artifact tells its kind.** -/
theorem ofStem_stem (h : a.IsGenerated) : ArtifactKind.ofStem a.pair.stem.toList = a.source.kind := (hasStem h).ofStem

theorem kind_eq_of_stem (ha : a.IsGenerated) (hb : b.IsGenerated) (h : a.pair.stem = b.pair.stem) :
    a.source.kind = b.source.kind := by
  rw [← ofStem_stem ha, h, ofStem_stem hb]

end Artifact

end BusNode
