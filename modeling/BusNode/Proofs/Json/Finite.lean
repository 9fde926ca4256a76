import BusNode.Json.Numeral
import BusNode.Proofs.Number.Order
/-!
# Numbers that are read

* `Numeral.isFinite_double?` — a double that is read is finite: what is past the greatest one is no number;
* `Numeral.finite_or_infinite_single?` — a single that is read is finite, or infinite where a double is past the
  greatest single.
-/

namespace BusNode

open Binary

/-! ## Powers of ten -/

theorem isFinite_tenPow {k : Nat} (h : k ≤ 308) : (ofNat (10 ^ k) : Binary64).isFinite = true := by
  have hgreatest : (ofNat (10 ^ 308) : Binary64).isFinite = true := by decide +kernel
  have hmono (g : Nat) (hg : k ≤ g) : 10 ^ k ≤ 10 ^ g := Nat.pow_le_pow_right (by decide) hg
  exact isFinite_ofNat hgreatest (hmono 308 h)

theorem scale_le_magnitude_tenPow {k : Nat} (h : k ≤ 308) :
    2 ^ Precision.double.scale ≤ (ofNat (10 ^ k) : Binary64).magnitude := by
  have hone : (ofNat 1 : Binary64).magnitude = 2 ^ Precision.double.scale := by decide +kernel
  have hle : 1 ≤ 10 ^ k := Nat.one_le_pow _ _ (by decide)
  rw [← hone]
  exact magnitude_mono (isFinite_ofNat (isFinite_tenPow h) hle) (isFinite_tenPow h) (body_ofNat_mono hle)

namespace Numeral

variable {n : Numeral} {x : Binary64}

/-! ## Doubles -/

/-- The digits that are kept fit 64 bits. -/
theorem significand_lt {acc : Nat} (h : acc < 2 ^ 64) (cs : List Char) : (significand acc cs).1 < 2 ^ 64 := by
  induction cs generalizing acc with
  | nil => exact h
  | cons c cs ih =>
    rw [significand]
    split
    · rename_i hnext
      exact ih hnext
    · exact h

theorem kept_lt (n : Numeral) : n.kept.1 < 2 ^ 64 := significand_lt (significand_lt (by decide) n.whole) n.fraction

theorem isFinite_ofNat_of_lt {s : Nat} (h : s < 2 ^ 64) : (ofNat s : Binary64).isFinite = true := by
  have hgreatest : (ofNat (2 ^ 64) : Binary64).isFinite = true := by decide +kernel
  exact isFinite_ofNat hgreatest h.le

theorem isFinite_scaleDown (hx : x.isFinite = true) (k : Nat) : (scaleDown x k).isFinite = true := by
  induction x, k using scaleDown.induct with
  | case1 x k hk =>
    rw [scaleDown, dif_pos hk]
    exact isFinite_div hx (scale_le_magnitude_tenPow hk)
  | case2 x k hk hzero =>
    rw [scaleDown, dif_neg hk, if_pos hzero]
    exact hx
  | case3 x k hk hzero ih =>
    rw [scaleDown, dif_neg hk, if_neg hzero]
    have hdivisor := scale_le_magnitude_tenPow (Nat.le_refl 308)
    exact ih (isFinite_div hx hdivisor)

theorem isFinite_scaled? {s : Nat} {e : Int} (hs : s < 2 ^ 64) (h : scaled? s e = some x) : x.isFinite = true := by
  have hfinite := isFinite_ofNat_of_lt hs
  unfold scaled? at h
  dsimp only at h
  split at h
  · obtain rfl := Option.some.inj h
    exact isFinite_scaleDown hfinite _
  · split at h
    · split at h
      · rename_i hy
        obtain rfl := Option.some.inj h
        exact hy
      · cases h
    · split at h
      · obtain rfl := Option.some.inj h
        exact hfinite
      · cases h

theorem isFinite_magnitude? (h : magnitude? n = some x) : x.isFinite = true := by
  have hkept := kept_lt n
  have hzero : (zero : Binary64).isFinite = true := by decide
  unfold magnitude? at h
  dsimp only at h
  split at h
  · exact isFinite_scaled? hkept h
  · split at h
    · split at h
      · cases h
      · obtain rfl := Option.some.inj h
        exact hzero
    · exact isFinite_scaled? hkept h

/-- **A double that is read is finite.** -/
theorem isFinite_double? (h : n.double? = some x) : x.isFinite = true := by
  obtain ⟨y, hy, rfl⟩ := Option.map_eq_some_iff.1 h
  have hfinite := isFinite_magnitude? hy
  split
  · exact isFinite_neg hfinite
  · exact hfinite

/-! ## Singles -/

/-- **A single that is read is finite or infinite.** -/
theorem finite_or_infinite_single? {y : Binary32} (h : n.single? = some y) :
    y.isFinite = true ∨ ∃ neg, y = infinite neg := by
  unfold single? at h
  dsimp only at h
  split at h
  · obtain rfl := Option.some.inj h
    exact (finite_or_infinite false _ 1).imp_right fun h => ⟨_, h⟩
  · split at h
    · obtain rfl := Option.some.inj h
      exact (finite_or_infinite _ _ 1).imp_right fun h => ⟨_, h⟩
    · obtain ⟨x, hx, rfl⟩ := Option.map_eq_some_iff.1 h
      rw [convert, if_pos (isFinite_double? hx)]
      exact (finite_or_infinite _ _ _).imp_right fun h => ⟨_, h⟩

end Numeral

end BusNode
