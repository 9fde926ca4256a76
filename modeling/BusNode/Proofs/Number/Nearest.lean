import BusNode.Proofs.Number.Order
import Mathlib.Algebra.Order.Field.Rat
import Mathlib.Algebra.Order.Group.Abs
import Mathlib.Order.Monotone.Basic
import Mathlib.Tactic.FieldSimp
import Mathlib.Tactic.Linarith
/-!
# The nearest binary number

* `Binary.Rounds` — a quantity is rounded to a number: none is nearer, and of two equally near ones it is the even one;
* `Binary.rounds_ofRatio` — rounding does so, `Binary.Rounds.unique` — and nothing else does.

Infinity counts as the power of two after the greatest finite number, so that what is rounded to infinity is what is
nearer to that power, or halfway.
-/

namespace BusNode

/-! ## Magnitudes -/

namespace Precision

variable {p : Precision}

/-- The multiple of the least unit that a body stands for. -/
def magnitude (p : Precision) (b : Nat) : Nat :=
  if b / 2 ^ p.fraction = 0 then b % 2 ^ p.fraction
  else (2 ^ p.fraction + b % 2 ^ p.fraction) * 2 ^ (b / 2 ^ p.fraction - 1)

theorem magnitude_add {e r : Nat} (hr : r < 2 ^ p.fraction) : p.magnitude (e * 2 ^ p.fraction + r) =
    if e = 0 then r else (2 ^ p.fraction + r) * 2 ^ (e - 1) := by
  unfold magnitude
  rw [Nat.mul_add_mod_self_right, Nat.mod_eq_of_lt hr, Nat.mul_comm, Nat.mul_add_div (Nat.two_pow_pos _),
    Nat.div_eq_of_lt hr, Nat.add_zero]

/-- A body is an exponent and a significand, which may have carried. -/
theorem magnitude_eq {s t : Nat} (ht : t ≤ 2 * 2 ^ p.fraction) (hs : s = 0 ∨ 2 ^ p.fraction ≤ t) :
    p.magnitude (s * 2 ^ p.fraction + t) = t * 2 ^ s := by
  have hpos := Nat.two_pow_pos p.fraction
  rcases Nat.lt_or_ge t (2 ^ p.fraction) with hlt | hge
  · obtain rfl : s = 0 := hs.resolve_right (by omega)
    rw [magnitude_add hlt, if_pos rfl, Nat.pow_zero, Nat.mul_one]
  · obtain ⟨r, rfl⟩ := Nat.exists_eq_add_of_le hge
    rw [← Nat.add_assoc, ← Nat.succ_mul]
    rcases Nat.lt_or_eq_of_le (show r ≤ 2 ^ p.fraction by omega) with hr | rfl
    · rw [magnitude_add hr, if_neg (Nat.succ_ne_zero s), Nat.succ_sub_one]
    · have hcarry := magnitude_add (p := p) (e := s + 2) hpos
      rw [Nat.add_zero, Nat.succ_mul (s + 1)] at hcarry
      rw [hcarry, if_neg (by omega), Nat.add_zero, show s + 2 - 1 = s + 1 by omega, Nat.pow_succ]
      ring

theorem exists_split (p : Precision) (b : Nat) :
    ∃ s t, b = s * 2 ^ p.fraction + t ∧ t < 2 * 2 ^ p.fraction ∧ (s = 0 ∨ 2 ^ p.fraction ≤ t) := by
  have hmod : b % 2 ^ p.fraction < 2 ^ p.fraction := Nat.mod_lt _ (Nat.two_pow_pos _)
  have hsplit := Nat.div_add_mod' b (2 ^ p.fraction)
  cases he : b / 2 ^ p.fraction with
  | zero =>
    rw [he] at hsplit
    exact ⟨0, b % 2 ^ p.fraction, by omega, by omega, .inl rfl⟩
  | succ s =>
    rw [he, Nat.succ_mul] at hsplit
    exact ⟨s, 2 ^ p.fraction + b % 2 ^ p.fraction, by omega, by omega, .inr (by omega)⟩

/-- The next body stands for more. -/
theorem magnitude_strictMono (p : Precision) : StrictMono p.magnitude := by
  refine strictMono_nat_of_lt_succ fun b => ?_
  obtain ⟨s, t, rfl, ht, hs⟩ := p.exists_split b
  rw [magnitude_eq ht.le hs, Nat.add_assoc, magnitude_eq ht (hs.imp_right fun h => by omega)]
  exact Nat.mul_lt_mul_of_pos_right (Nat.lt_succ_self t) (Nat.two_pow_pos s)

end Precision

/-! ## Neighbours -/

/-- A quantity is between two neighbours of a sequence, and one of them is as near as the other. -/
structure IsNearer (M : Nat → ℚ) (z : ℚ) (k b : Nat) : Prop where
  lower : M k ≤ z
  upper : z ≤ M (k + 1)
  choice : b = k ∧ z - M k ≤ M (k + 1) - z ∨ b = k + 1 ∧ M (k + 1) - z ≤ z - M k

namespace IsNearer

variable {M : Nat → ℚ} {z : ℚ} {k b c : Nat} (hM : StrictMono M) (h : IsNearer M z k b)
include hM h

/-- Nothing in an ascending sequence is nearer. -/
theorem abs_le (c : Nat) : |M b - z| ≤ |M c - z| := by
  have hlower := h.lower
  have hupper := h.upper
  have hb : |M b - z| ≤ z - M k ∧ |M b - z| ≤ M (k + 1) - z := by
    rcases h.choice with ⟨rfl, hle⟩ | ⟨rfl, hle⟩
    · rw [abs_of_nonpos (by linarith)]
      constructor <;> linarith
    · rw [abs_of_nonneg (by linarith)]
      constructor <;> linarith
  rcases Nat.lt_or_ge k c with hlt | hge
  · have hc : M (k + 1) ≤ M c := hM.monotone hlt
    have := le_abs_self (M c - z)
    linarith [hb.2]
  · have hc : M c ≤ M k := hM.monotone hge
    have := neg_abs_le (M c - z)
    linarith [hb.1]

/-- Something else is as near only if both neighbours are. -/
theorem halfway (hne : c ≠ b) (htie : |M b - z| = |M c - z|) : z - M k = M (k + 1) - z := by
  have hlower := h.lower
  have hupper := h.upper
  rcases Nat.lt_or_ge k c with hlt | hge
  · have hc : M (k + 1) ≤ M c := hM.monotone hlt
    rw [abs_of_nonneg (show 0 ≤ M c - z by linarith)] at htie
    rcases h.choice with ⟨rfl, hle⟩ | ⟨rfl, hle⟩
    · rw [abs_of_nonpos (by linarith)] at htie
      linarith
    · have hnext : M (k + 1) < M c := hM (by omega)
      rw [abs_of_nonneg (by linarith)] at htie
      linarith
  · have hc : M c ≤ M k := hM.monotone hge
    rw [abs_of_nonpos (show M c - z ≤ 0 by linarith)] at htie
    rcases h.choice with ⟨rfl, hle⟩ | ⟨rfl, hle⟩
    · have hprevious : M c < M b := hM (by omega)
      rw [abs_of_nonpos (by linarith)] at htie
      linarith
    · rw [abs_of_nonneg (by linarith)] at htie
      linarith

end IsNearer

/-! ## Quotients -/

theorem even_roundHalfEven {n d : Nat} (h : 2 * (n % d) = d) : roundHalfEven n d % 2 = 0 := by
  unfold roundHalfEven
  dsimp only
  split_ifs <;> omega

namespace Binary

variable {p : Precision} {n d : Nat}

/-- Before infinity cuts it off, a quotient in units is rounded to the nearer one of its neighbours; if both are equally
near, to the even one. -/
theorem isNearer_round (hp : 0 < p.fraction) (n : Nat) (hd : 0 < d) :
    let s := Nat.log2 (n / d) - p.fraction
    let k := s * 2 ^ p.fraction + n / (d * 2 ^ s)
    let b := s * 2 ^ p.fraction + roundHalfEven n (d * 2 ^ s)
    IsNearer (fun b => (p.magnitude b : ℚ)) (n / d) k b ∧
      ((n : ℚ) / d - p.magnitude k = p.magnitude (k + 1) - n / d → b % 2 = 0) := by
  obtain ⟨hlt, hs⟩ := significand_bounds p n d
  dsimp only
  generalize Nat.log2 (n / d) - p.fraction = s at hlt hs ⊢
  have hunit : 0 < d * 2 ^ s := by positivity
  have hk : p.magnitude (s * 2 ^ p.fraction + n / (d * 2 ^ s)) = n / (d * 2 ^ s) * 2 ^ s :=
    Precision.magnitude_eq hlt.le hs
  have hnext : p.magnitude (s * 2 ^ p.fraction + n / (d * 2 ^ s) + 1) = (n / (d * 2 ^ s) + 1) * 2 ^ s := by
    rw [Nat.add_assoc]
    exact Precision.magnitude_eq hlt (hs.imp_right fun h => by omega)
  have hrest : n % (d * 2 ^ s) < d * 2 ^ s := Nat.mod_lt _ hunit
  have hn : n = d * 2 ^ s * (n / (d * 2 ^ s)) + n % (d * 2 ^ s) := (Nat.div_add_mod _ _).symm
  have hcases := roundHalfEven_cases n (d * 2 ^ s)
  have heven := even_roundHalfEven (n := n) (d := d * 2 ^ s)
  generalize roundHalfEven n (d * 2 ^ s) = t at hcases heven ⊢
  generalize n / (d * 2 ^ s) = q at hk hnext hn hcases ⊢
  generalize n % (d * 2 ^ s) = r at hrest hn hcases heven ⊢
  -- how far the quotient is from its neighbours
  have hdQ : (0 : ℚ) < d := by exact_mod_cast hd
  have hbelow : (n : ℚ) / d - p.magnitude (s * 2 ^ p.fraction + q) = r / d := by
    rw [hk, hn]
    push_cast
    field_simp
    ring
  have habove : (p.magnitude (s * 2 ^ p.fraction + q + 1) : ℚ) - n / d = (d * 2 ^ s - r) / d := by
    rw [hnext, hn]
    push_cast
    field_simp
    ring
  have hrestQ : (r : ℚ) < d * 2 ^ s := by exact_mod_cast hrest
  have hbelow0 : (0 : ℚ) ≤ r / d := by positivity
  have habove0 : (0 : ℚ) ≤ (d * 2 ^ s - r) / d := div_nonneg (by linarith) hdQ.le
  refine ⟨⟨by linarith, by linarith, ?_⟩, fun htie => ?_⟩
  · rw [hbelow, habove]
    rcases hcases with ⟨rfl, hle⟩ | ⟨rfl, hle⟩
    · have hleQ : 2 * (r : ℚ) ≤ d * 2 ^ s := by exact_mod_cast hle
      exact .inl ⟨rfl, div_le_div_of_nonneg_right (by linarith) hdQ.le⟩
    · have hleQ : (d : ℚ) * 2 ^ s ≤ 2 * r := by exact_mod_cast hle
      exact .inr ⟨rfl, div_le_div_of_nonneg_right (by linarith) hdQ.le⟩
  · rw [hbelow, habove, div_left_inj' hdQ.ne'] at htie
    have hhalf : 2 * r = d * 2 ^ s := by
      have : (2 : ℚ) * r = d * 2 ^ s := by linarith
      exact_mod_cast this
    obtain ⟨f, hf⟩ := Nat.exists_eq_succ_of_ne_zero hp.ne'
    have ht := heven hhalf
    rw [hf, Nat.pow_succ, ← Nat.mul_assoc, Nat.add_mod, Nat.mul_mod_left, ht]

/-- **The body of a quotient is nearest to it**, and even if another one is as near. -/
theorem roundBody_nearest (hp : 0 < p.fraction) (n : Nat) (hd : 0 < d) {c : Nat} (hc : c ≤ p.infinity) :
    |(p.magnitude (roundBody p n d) : ℚ) - (n * 2 ^ p.scale : Nat) / d| ≤
        |(p.magnitude c : ℚ) - (n * 2 ^ p.scale : Nat) / d| ∧
      (c ≠ roundBody p n d → |(p.magnitude (roundBody p n d) : ℚ) - (n * 2 ^ p.scale : Nat) / d| =
        |(p.magnitude c : ℚ) - (n * 2 ^ p.scale : Nat) / d| → roundBody p n d % 2 = 0) := by
  have hM : StrictMono fun b => (p.magnitude b : ℚ) := Nat.strictMono_cast.comp p.magnitude_strictMono
  obtain ⟨hnearer, heven⟩ := isNearer_round hp (n * 2 ^ p.scale) hd
  unfold roundBody
  dsimp only at hnearer heven ⊢
  generalize n * 2 ^ p.scale = n at hnearer heven ⊢
  generalize Nat.log2 (n / d) - p.fraction = s at hnearer heven ⊢
  generalize hk : s * 2 ^ p.fraction + n / (d * 2 ^ s) = k at hnearer heven
  generalize hb : s * 2 ^ p.fraction + roundHalfEven n (d * 2 ^ s) = b at hnearer heven ⊢
  have hkb : k ≤ b ∧ b ≤ k + 1 := by
    rcases hnearer.choice with ⟨rfl, -⟩ | ⟨rfl, -⟩ <;> omega
  rcases Nat.lt_or_ge k p.infinity with hlt | hge
  · rw [Nat.min_eq_left (by omega)]
    exact ⟨hnearer.abs_le hM c, fun hne htie => heven (hnearer.halfway hM hne htie)⟩
  · -- infinity is not above the quotient, and nothing else is as near from below
    rw [Nat.min_eq_right (by omega)]
    have hinfinity : (p.magnitude p.infinity : ℚ) ≤ n / d := (hM.monotone hge).trans hnearer.lower
    have hcM : (p.magnitude c : ℚ) ≤ p.magnitude p.infinity := hM.monotone hc
    rw [abs_of_nonpos (by linarith), abs_of_nonpos (by linarith)]
    refine ⟨by linarith, fun hne htie => ?_⟩
    have : (p.magnitude c : ℚ) < p.magnitude p.infinity := hM (by omega)
    linarith

/-! ## Rounding -/

/-- What a number is without its sign; infinity counts as the power of two after the greatest finite number. -/
def absValue (x : Binary p) : ℚ := x.magnitude / 2 ^ p.scale

/-- What a finite number is. -/
def value (x : Binary p) : ℚ := if x.negative then -x.absValue else x.absValue

/-- A quantity without sign and its sign are rounded to a number: to the nearest one, and to the even one if another one
is as near. -/
structure Rounds (x : Binary p) (negative : Bool) (q : ℚ) : Prop where
  sign : x.negative = negative
  notNaN : x.isNaN = false
  nearest : ∀ y : Binary p, y.isNaN = false → |x.absValue - q| ≤ |y.absValue - q|
  even : ∀ y : Binary p, y.isNaN = false → y.body ≠ x.body → |x.absValue - q| = |y.absValue - q| → x.body % 2 = 0

theorem isNaN_eq_false_iff {x : Binary p} : x.isNaN = false ↔ x.body ≤ p.infinity := by
  unfold isNaN
  rw [decide_eq_false_iff_not, Nat.not_lt]

theorem negative_ofBody {neg : Bool} {b : Nat} (h : b < 2 ^ (p.width - 1)) :
    (ofBody neg b : Binary p).negative = neg := by
  unfold negative ofBody
  dsimp only
  rw [BitVec.toNat_ofNat, p.two_pow_width]
  generalize 2 ^ (p.width - 1) = half at h
  cases neg
  · rw [if_neg Bool.false_ne_true, Nat.zero_add, Nat.mod_eq_of_lt (by omega)]
    exact decide_eq_false (by omega)
  · rw [if_pos rfl, Nat.mod_eq_of_lt (by omega)]
    exact decide_eq_true (by omega)

theorem eq_of_body {x y : Binary p} (hsign : x.negative = y.negative) (hbody : x.body = y.body) : x = y := by
  rw [← ofBody_body x, hsign, hbody, ofBody_body]

/-- Distances in units. -/
theorem abs_absValue_sub (x : Binary p) (q : ℚ) :
    |x.absValue - q| = |(p.magnitude x.body : ℚ) - q * 2 ^ p.scale| / 2 ^ p.scale := by
  have hunit : (0 : ℚ) < 2 ^ p.scale := by positivity
  have hsub : x.absValue - q = ((p.magnitude x.body : ℚ) - q * 2 ^ p.scale) / 2 ^ p.scale := by
    rw [sub_div, mul_div_cancel_right₀ _ hunit.ne']
    rfl
  rw [hsub, abs_div, abs_of_pos hunit]

/-- **Rounding finds the nearest number.** -/
theorem rounds_ofRatio (hp : 0 < p.fraction) (neg : Bool) (n : Nat) (hd : 0 < d) :
    (ofRatio neg n d : Binary p).Rounds neg (n / d) := by
  have hunit : (0 : ℚ) < 2 ^ p.scale := by positivity
  have hle : roundBody p n d ≤ p.infinity := Nat.min_le_right _ _
  have hbody : (ofRatio neg n d : Binary p).body = roundBody p n d := body_ofRatio neg n d
  have hq : (n : ℚ) / d * 2 ^ p.scale = (n * 2 ^ p.scale : Nat) / d := by
    push_cast
    ring
  constructor
  · exact negative_ofBody (hle.trans_lt (infinity_lt p))
  · rw [isNaN_eq_false_iff, hbody]
    exact hle
  · intro y hy
    rw [abs_absValue_sub, abs_absValue_sub, hbody, hq]
    exact div_le_div_of_nonneg_right (roundBody_nearest hp n hd (isNaN_eq_false_iff.1 hy)).1 hunit.le
  · intro y hy hne htie
    rw [abs_absValue_sub, abs_absValue_sub, hbody, hq, div_left_inj' hunit.ne'] at htie
    rw [hbody] at hne ⊢
    exact (roundBody_nearest hp n hd (isNaN_eq_false_iff.1 hy)).2 hne htie

/-- Of two numbers one of which is above the other, not both are nearest: they are not neighbours if both are even, and
what is between them is nearer. -/
theorem Rounds.not_lt {x y : Binary p} {neg : Bool} {q : ℚ} (hx : x.Rounds neg q) (hy : y.Rounds neg q) :
    ¬x.body < y.body := by
  intro hlt
  have hM : StrictMono fun b => (p.magnitude b : ℚ) := Nat.strictMono_cast.comp p.magnitude_strictMono
  have hunit : (0 : ℚ) < 2 ^ p.scale := by positivity
  have htie : |x.absValue - q| = |y.absValue - q| :=
    le_antisymm (hx.nearest y hy.notNaN) (hy.nearest x hx.notNaN)
  have hxeven : x.body % 2 = 0 := hx.even y hy.notNaN (by omega) htie
  have hyeven : y.body % 2 = 0 := hy.even x hx.notNaN (by omega) htie.symm
  have hyle := isNaN_eq_false_iff.1 hy.notNaN
  have hbetween : (ofBody neg (x.body + 1) : Binary p).body = x.body + 1 := body_ofBody (by
    have := infinity_lt p
    omega)
  have hnotNaN : (ofBody neg (x.body + 1) : Binary p).isNaN = false := by
    rw [isNaN_eq_false_iff, hbetween]
    omega
  have hnearest := hx.nearest _ hnotNaN
  rw [abs_absValue_sub, abs_absValue_sub, hbetween, div_le_div_iff_of_pos_right hunit] at hnearest
  rw [abs_absValue_sub, abs_absValue_sub, div_left_inj' hunit.ne'] at htie
  have hlower : (p.magnitude x.body : ℚ) < p.magnitude (x.body + 1) := hM (Nat.lt_succ_self _)
  have hupper : (p.magnitude (x.body + 1) : ℚ) < p.magnitude y.body := hM (by omega)
  rcases abs_eq_abs.1 htie with heq | heq
  · linarith
  · -- the quantity is halfway between the two
    rw [abs_of_nonpos (by linarith)] at hnearest
    exact absurd hnearest (not_le.2 (abs_lt.2 ⟨by linarith, by linarith⟩))

/-- **A quantity is rounded to one number only.** -/
theorem Rounds.unique {x y : Binary p} {neg : Bool} {q : ℚ} (hx : x.Rounds neg q) (hy : y.Rounds neg q) : x = y := by
  refine eq_of_body (hx.sign.trans hy.sign.symm) ?_
  have := hx.not_lt hy
  have := hy.not_lt hx
  omega

end Binary

end BusNode
