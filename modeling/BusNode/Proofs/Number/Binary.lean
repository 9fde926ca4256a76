import BusNode.Number.Binary
import Mathlib.Tactic.Positivity
import Mathlib.Tactic.Ring
/-!
# Rounding to binary numbers

* `ofBody_body` — a number is its sign and its body;
* `roundBody_eq_of_ratio` — rounding depends on the quotient only;
* `ofRatio_magnitude` — a finite number rounds to itself.
-/

namespace BusNode

/-! ## Quotients -/

theorem roundHalfEven_mul_left {k n d : Nat} (hk : 0 < k) : roundHalfEven (k * n) (k * d) = roundHalfEven n d := by
  unfold roundHalfEven
  dsimp only
  rw [Nat.mul_div_mul_left _ _ hk, Nat.mul_mod_mul_left]
  have hlt : 2 * (k * (n % d)) < k * d ↔ 2 * (n % d) < d := by
    rw [Nat.mul_left_comm, Nat.mul_lt_mul_left hk]
  have hgt : k * d < 2 * (k * (n % d)) ↔ d < 2 * (n % d) := by
    rw [Nat.mul_left_comm, Nat.mul_lt_mul_left hk]
  simp only [hlt, hgt]

theorem roundHalfEven_mul_self {n d : Nat} (hd : 0 < d) : roundHalfEven (n * d) d = n := by
  unfold roundHalfEven
  dsimp only
  rw [Nat.mul_div_cancel n hd, Nat.mul_mod_left]
  exact if_pos (by omega)

/-- One bit of a number is its sign. -/
theorem Precision.two_pow_width (p : Precision) : 2 ^ p.width = 2 * 2 ^ (p.width - 1) := by
  rw [← Nat.pow_succ']
  congr 1
  unfold width
  omega

namespace Binary

variable {p : Precision}

theorem roundBody_mul_left {k n d : Nat} (hk : 0 < k) : roundBody p (k * n) (k * d) = roundBody p n d := by
  unfold roundBody
  dsimp only
  rw [Nat.mul_assoc, Nat.mul_div_mul_left _ _ hk, Nat.mul_assoc, roundHalfEven_mul_left hk]

/-- Equal quotients are rounded alike. -/
theorem roundBody_eq_of_ratio {n d n' d' : Nat} (hd : 0 < d) (hd' : 0 < d') (h : n * d' = n' * d) :
    roundBody p n d = roundBody p n' d' := by
  rw [← roundBody_mul_left (n := n) hd', Nat.mul_comm d' n, h, Nat.mul_comm n' d, Nat.mul_comm d' d,
    roundBody_mul_left hd]

theorem ofRatio_eq_of_ratio (neg : Bool) {n d n' d' : Nat} (hd : 0 < d) (hd' : 0 < d') (h : n * d' = n' * d) :
    (ofRatio neg n d : Binary p) = ofRatio neg n' d' := by
  unfold ofRatio
  rw [roundBody_eq_of_ratio hd hd' h]

/-! ## Finite numbers -/

theorem ofBody_body (x : Binary p) : ofBody x.negative x.body = x := by
  obtain ⟨bits⟩ := x
  have hlt := bits.isLt
  unfold ofBody negative body
  congr 1
  apply BitVec.eq_of_toNat_eq
  rw [BitVec.toNat_ofNat]
  dsimp only
  rw [p.two_pow_width] at hlt ⊢
  generalize 2 ^ (p.width - 1) = half at *
  by_cases hneg : half ≤ bits.toNat
  · rw [if_pos (decide_eq_true hneg), Nat.mod_eq_sub_mod hneg, Nat.mod_eq_of_lt (b := half) (by omega),
      Nat.mod_eq_of_lt (by omega)]
    omega
  · rw [if_neg (by simpa using hneg), Nat.mod_eq_of_lt (b := half) (by omega), Nat.mod_eq_of_lt (by omega)]
    omega

/-- A finite number is a multiple of the least unit, so that nothing is lost when it is rounded. -/
theorem roundBody_magnitude {x : Binary p} (hx : x.isFinite = true) :
    roundBody p x.magnitude (2 ^ p.scale) = x.body := by
  have hbody : x.body < p.infinity := by simpa [isFinite] using hx
  have hsplit : x.body = x.body / 2 ^ p.fraction * 2 ^ p.fraction + x.body % 2 ^ p.fraction :=
    (Nat.div_add_mod' _ _).symm
  have hmod : x.body % 2 ^ p.fraction < 2 ^ p.fraction := Nat.mod_lt _ (Nat.two_pow_pos _)
  unfold roundBody
  dsimp only
  rw [Nat.mul_div_cancel _ (Nat.two_pow_pos _)]
  by_cases he : x.body / 2 ^ p.fraction = 0
  · rw [he, Nat.zero_mul, Nat.zero_add] at hsplit
    have hmag : x.magnitude = x.body := by
      unfold magnitude
      dsimp only
      rw [if_pos he, ← hsplit]
    have hshift : Nat.log2 x.body - p.fraction = 0 := by
      by_cases h0 : x.body = 0
      · rw [h0, Nat.log2_zero, Nat.zero_sub]
      · have := (Nat.log2_lt h0).2 (hsplit.trans_lt hmod)
        omega
    rw [hmag, hshift, Nat.pow_zero, Nat.mul_one, Nat.zero_mul, Nat.zero_add,
      roundHalfEven_mul_self (Nat.two_pow_pos _)]
    exact Nat.min_eq_left hbody.le
  · obtain ⟨e, he⟩ := Nat.exists_eq_succ_of_ne_zero he
    have hmag : x.magnitude = (2 ^ p.fraction + x.body % 2 ^ p.fraction) * 2 ^ e := by
      unfold magnitude
      dsimp only
      rw [if_neg (by omega), he, Nat.succ_sub_one]
    have hlog : Nat.log2 x.magnitude = p.fraction + e := by
      rw [Nat.log2_eq_iff (by rw [hmag]; positivity), hmag, Nat.pow_succ, Nat.pow_add, Nat.mul_right_comm]
      exact ⟨Nat.mul_le_mul_right _ (by omega), Nat.mul_lt_mul_of_pos_right (by omega) (Nat.two_pow_pos e)⟩
    have hscaled : x.magnitude * 2 ^ p.scale =
        (2 ^ p.fraction + x.body % 2 ^ p.fraction) * (2 ^ p.scale * 2 ^ e) := by
      rw [hmag]
      ring
    rw [hlog, Nat.add_sub_cancel_left, hscaled, roundHalfEven_mul_self (by positivity), ← Nat.add_assoc,
      ← Nat.succ_mul, ← he, ← hsplit]
    exact Nat.min_eq_left hbody.le

/-- **A finite number rounds to itself.** -/
theorem ofRatio_magnitude {x : Binary p} (hx : x.isFinite = true) :
    (ofRatio x.negative x.magnitude (2 ^ p.scale) : Binary p) = x := by
  rw [ofRatio, roundBody_magnitude hx, ofBody_body]

end Binary

end BusNode
