import BusNode.Proofs.Number.Binary
/-!
# Rounding and order

* `roundBody_mono` — rounding keeps the order of quotients;
* `isFinite_ofRatio` — so a quotient that is not above a finite number is rounded to a finite one;
* `finite_or_infinite` — and any quotient to a finite number or to infinity.
-/

namespace BusNode

/-! ## Quotients -/

section Quotient

variable {n d n' d' k : Nat}

theorem roundHalfEven_cases (n d : Nat) : roundHalfEven n d = n / d ∧ 2 * (n % d) ≤ d ∨
    roundHalfEven n d = n / d + 1 ∧ d ≤ 2 * (n % d) := by
  unfold roundHalfEven
  dsimp only
  split_ifs <;> omega

/-- Rounding does not go past a whole number. -/
theorem roundHalfEven_le (hd : 0 < d) (h : n ≤ k * d) : roundHalfEven n d ≤ k := by
  have hle : n / d ≤ k := Nat.div_le_of_le_mul (by rwa [Nat.mul_comm])
  rcases roundHalfEven_cases n d with ⟨hround, -⟩ | ⟨hround, hhalf⟩
  · omega
  · have hne : n / d ≠ k := by
      rintro rfl
      have hdiv := Nat.div_add_mod' n d
      omega
    omega

theorem le_roundHalfEven (hd : 0 < d) (h : k * d ≤ n) : k ≤ roundHalfEven n d := by
  have hle : k ≤ n / d := (Nat.le_div_iff_mul_le hd).2 h
  rcases roundHalfEven_cases n d with ⟨hround, -⟩ | ⟨hround, -⟩ <;> omega

/-- Of two quotients with the same whole part, the lower one has the lower rest. -/
theorem rest_le_of_le (h : n * d' ≤ n' * d) (hwhole : n / d = n' / d') : n % d * d' ≤ n' % d' * d := by
  have hn : n * d' = n / d * (d * d') + n % d * d' := by
    conv_lhs => rw [← Nat.div_add_mod n d]
    ring
  have hn' : n' * d = n / d * (d * d') + n' % d' * d := by
    conv_lhs => rw [← Nat.div_add_mod n' d']
    rw [hwhole]
    ring
  omega

theorem div_le_div_of_le (hd : 0 < d) (hd' : 0 < d') (h : n * d' ≤ n' * d) : n / d ≤ n' / d' := by
  rw [Nat.le_div_iff_mul_le hd']
  refine Nat.le_of_mul_le_mul_right ?_ hd
  calc n / d * d' * d = n / d * d * d' := Nat.mul_right_comm ..
    _ ≤ n * d' := Nat.mul_le_mul_right _ (Nat.div_mul_le_self n d)
    _ ≤ n' * d := h

theorem roundHalfEven_mono (hd : 0 < d) (hd' : 0 < d') (h : n * d' ≤ n' * d) :
    roundHalfEven n d ≤ roundHalfEven n' d' := by
  rcases Nat.lt_or_eq_of_le (div_le_div_of_le hd hd' h) with hlt | heq
  · -- a whole number stands between the two
    refine Nat.le_trans (roundHalfEven_le (k := n / d + 1) hd ?_) (le_roundHalfEven hd' ?_)
    · rw [Nat.mul_comm]
      exact (Nat.lt_mul_div_succ n hd).le
    · exact (Nat.mul_le_mul_right _ hlt).trans (Nat.div_mul_le_self n' d')
  · have hrest := rest_le_of_le h heq
    -- a rest that is half or more of the lower quotient is so of the upper one
    have htwice : 2 * (n % d) * d' ≤ d * (2 * (n' % d')) :=
      calc 2 * (n % d) * d' = 2 * (n % d * d') := Nat.mul_assoc ..
        _ ≤ 2 * (n' % d' * d) := Nat.mul_le_mul_left 2 hrest
        _ = d * (2 * (n' % d')) := by ring
    have hhalf (hr : d ≤ 2 * (n % d)) : d' ≤ 2 * (n' % d') :=
      Nat.le_of_mul_le_mul_left ((Nat.mul_le_mul_right d' hr).trans htwice) hd
    have habove (hr : d < 2 * (n % d)) : d' < 2 * (n' % d') :=
      Nat.lt_of_mul_lt_mul_left ((Nat.mul_lt_mul_of_pos_right hr hd').trans_le htwice)
    unfold roundHalfEven
    dsimp only
    rw [heq]
    split_ifs <;> omega

end Quotient

namespace Binary

variable {p : Precision} {n d n' d' : Nat}

/-! ## Bits -/

theorem log2_mono (h : n ≤ n') : Nat.log2 n ≤ Nat.log2 n' := by
  by_cases h0 : n = 0
  · rw [h0, Nat.log2_zero]
    exact Nat.zero_le _
  · exact (Nat.le_log2 (by omega)).2 ((Nat.log2_self_le h0).trans h)

/-- The significand of a quotient before it is rounded. -/
theorem significand_bounds (p : Precision) (n d : Nat) :
    n / (d * 2 ^ (Nat.log2 (n / d) - p.fraction)) < 2 * 2 ^ p.fraction ∧
      (Nat.log2 (n / d) - p.fraction = 0 ∨ 2 ^ p.fraction ≤ n / (d * 2 ^ (Nat.log2 (n / d) - p.fraction))) := by
  generalize hs : Nat.log2 (n / d) - p.fraction = s
  rw [← Nat.div_div_eq_div_mul]
  constructor
  · rw [Nat.div_lt_iff_lt_mul (Nat.two_pow_pos s)]
    calc n / d < 2 ^ (Nat.log2 (n / d) + 1) := Nat.lt_log2_self
      _ ≤ 2 ^ (p.fraction + s + 1) := Nat.pow_le_pow_right (by decide) (by omega)
      _ = 2 * 2 ^ p.fraction * 2 ^ s := by
        rw [Nat.pow_succ, Nat.pow_add]
        ring
  · by_cases h0 : s = 0
    · exact .inl h0
    · have hne : n / d ≠ 0 := by
        intro hzero
        rw [hzero, Nat.log2_zero] at hs
        omega
      refine .inr ((Nat.le_div_iff_mul_le (Nat.two_pow_pos s)).2 ?_)
      rw [← Nat.pow_add, show p.fraction + s = Nat.log2 (n / d) by omega]
      exact Nat.log2_self_le hne

/-- The significand of a quotient does not have more digits than the precision, but for a carry. -/
theorem significand_le (p : Precision) (n d : Nat) :
    roundHalfEven n (d * 2 ^ (Nat.log2 (n / d) - p.fraction)) ≤ 2 * 2 ^ p.fraction := by
  have hlt := (significand_bounds p n d).1
  rcases roundHalfEven_cases n (d * 2 ^ (Nat.log2 (n / d) - p.fraction)) with ⟨h, -⟩ | ⟨h, -⟩ <;> omega

/-- A quotient that is cut has all digits of the precision. -/
theorem le_significand (hcut : 0 < Nat.log2 (n / d) - p.fraction) :
    2 ^ p.fraction ≤ roundHalfEven n (d * 2 ^ (Nat.log2 (n / d) - p.fraction)) := by
  have hle := (significand_bounds p n d).2.resolve_left (by omega)
  rcases roundHalfEven_cases n (d * 2 ^ (Nat.log2 (n / d) - p.fraction)) with ⟨h, -⟩ | ⟨h, -⟩ <;> omega

/-- **Rounding keeps the order of quotients.** -/
theorem roundBody_mono (hd : 0 < d) (hd' : 0 < d') (h : n * d' ≤ n' * d) : roundBody p n d ≤ roundBody p n' d' := by
  have hscaled : n * 2 ^ p.scale * d' ≤ n' * 2 ^ p.scale * d := by
    rw [Nat.mul_right_comm, Nat.mul_right_comm n']
    exact Nat.mul_le_mul_right _ h
  unfold roundBody
  dsimp only
  generalize n * 2 ^ p.scale = n at hscaled
  generalize n' * 2 ^ p.scale = n' at hscaled
  have hcut : Nat.log2 (n / d) - p.fraction ≤ Nat.log2 (n' / d') - p.fraction :=
    Nat.sub_le_sub_right (log2_mono (div_le_div_of_le hd hd' hscaled)) _
  refine min_le_min_right _ ?_
  rcases Nat.lt_or_eq_of_le hcut with hlt | heq
  · -- the exponent of the lower one is lower, and its significand carries once at most
    have hlower := significand_le p n d
    have hupper := le_significand (p := p) (n := n') (d := d') (by omega)
    have hexponent := Nat.mul_le_mul_right (2 ^ p.fraction) hlt
    rw [Nat.succ_mul] at hexponent
    omega
  · rw [← heq]
    refine Nat.add_le_add_left (roundHalfEven_mono (by positivity) (by positivity) ?_) _
    rw [← Nat.mul_assoc, ← Nat.mul_assoc]
    exact Nat.mul_le_mul_right _ hscaled

/-! ## Finite numbers -/

theorem infinity_lt (p : Precision) : p.infinity < 2 ^ (p.width - 1) := by
  have hwidth : 2 ^ (p.width - 1) = 2 ^ p.exponent * 2 ^ p.fraction := by
    rw [← Nat.pow_add]
    congr 1
    unfold Precision.width
    omega
  rw [hwidth]
  exact Nat.mul_lt_mul_of_pos_right (Nat.sub_lt (Nat.two_pow_pos _) Nat.one_pos) (Nat.two_pow_pos _)

theorem body_ofBody {neg : Bool} {b : Nat} (h : b < 2 ^ (p.width - 1)) : (ofBody neg b : Binary p).body = b := by
  unfold body ofBody
  dsimp only
  rw [BitVec.toNat_ofNat, p.two_pow_width]
  generalize 2 ^ (p.width - 1) = half at h
  cases neg
  · rw [if_neg Bool.false_ne_true, Nat.zero_add, Nat.mod_eq_of_lt (a := b) (b := 2 * half) (by omega),
      Nat.mod_eq_of_lt h]
  · rw [if_pos rfl, Nat.mod_eq_of_lt (a := half + b) (b := 2 * half) (by omega), Nat.add_mod_left, Nat.mod_eq_of_lt h]

theorem body_ofRatio (neg : Bool) (n d : Nat) : (ofRatio neg n d : Binary p).body = roundBody p n d :=
  body_ofBody (Nat.lt_of_le_of_lt (Nat.min_le_right _ _) (infinity_lt p))

theorem isFinite_of_body_le {x y : Binary p} (hy : y.isFinite = true) (h : x.body ≤ y.body) : x.isFinite = true := by
  have hbody : y.body < p.infinity := by simpa [isFinite] using hy
  exact decide_eq_true (Nat.lt_of_le_of_lt h hbody)

/-- What is not above a finite number is rounded to a finite number. -/
theorem isFinite_ofRatio {x : Binary p} (hx : x.isFinite = true) {neg : Bool} (hd : 0 < d)
    (h : n * 2 ^ p.scale ≤ x.magnitude * d) : (ofRatio neg n d : Binary p).isFinite = true := by
  refine isFinite_of_body_le hx ?_
  rw [body_ofRatio, ← roundBody_magnitude hx]
  exact roundBody_mono hd (Nat.two_pow_pos _) h

/-- A quotient is rounded to a finite number or to infinity. -/
theorem finite_or_infinite (neg : Bool) (n d : Nat) :
    (ofRatio neg n d : Binary p).isFinite = true ∨ (ofRatio neg n d : Binary p) = infinite neg := by
  have hle : roundBody p n d ≤ p.infinity := Nat.min_le_right _ _
  rcases Nat.lt_or_eq_of_le hle with hlt | heq
  · left
    rw [isFinite, body_ofRatio]
    exact decide_eq_true hlt
  · right
    rw [ofRatio, heq]
    rfl

/-- Of finite numbers the one with the lower bits is the lower one. -/
theorem magnitude_mono {x y : Binary p} (hx : x.isFinite = true) (hy : y.isFinite = true) (h : x.body ≤ y.body) :
    x.magnitude ≤ y.magnitude := by
  by_contra hlt
  -- both are what their magnitudes are rounded to
  have hle : y.body ≤ x.body := by
    rw [← roundBody_magnitude hx, ← roundBody_magnitude hy]
    exact roundBody_mono (Nat.two_pow_pos _) (Nat.two_pow_pos _) (Nat.mul_le_mul_right _ (by omega))
  have hbody : x.body = y.body := Nat.le_antisymm h hle
  exact hlt (Nat.le_of_eq (by unfold magnitude; rw [hbody]))

theorem body_ofNat_mono {m k : Nat} (h : m ≤ k) : (ofNat m : Binary p).body ≤ (ofNat k : Binary p).body := by
  unfold ofNat
  rw [body_ofRatio, body_ofRatio]
  exact roundBody_mono Nat.one_pos Nat.one_pos (Nat.mul_le_mul_right 1 h)

theorem isFinite_ofNat {m k : Nat} (hk : (ofNat k : Binary p).isFinite = true) (h : m ≤ k) :
    (ofNat m : Binary p).isFinite = true := isFinite_of_body_le hk (body_ofNat_mono h)

/-- A number does not grow if it is divided by one that is not below 1. -/
theorem isFinite_div {x y : Binary p} (hx : x.isFinite = true) (hy : 2 ^ p.scale ≤ y.magnitude) :
    (x.div y).isFinite = true :=
  isFinite_ofRatio hx ((Nat.two_pow_pos _).trans_le hy) (Nat.mul_le_mul_left _ hy)

theorem isFinite_neg {x : Binary p} (h : x.isFinite = true) : x.neg.isFinite = true := by
  refine isFinite_of_body_le h (Nat.le_of_eq (body_ofBody ?_))
  have hbody : x.body < p.infinity := by simpa [isFinite] using h
  exact hbody.trans (infinity_lt p)

end Binary

end BusNode
