import BusNode.Number.Power
/-!
# Bytes of numbers

A number that fits in `k` bytes is read back from its lowest `k` bytes (`ofLittleEndian_littleEndian`).
-/

namespace BusNode

/-- The lowest `k` bytes of a number, the lowest first. -/
def littleEndian : Nat → Nat → List UInt8
  | 0, _ => []
  | k + 1, n => UInt8.ofNat n :: littleEndian k (n / 256)

/-- The number of bytes of which the lowest comes first. -/
def ofLittleEndian : List UInt8 → Nat
  | [] => 0
  | b :: bs => b.toNat + 256 * ofLittleEndian bs

@[simp] theorem length_littleEndian (k n : Nat) : (littleEndian k n).length = k := by
  induction k generalizing n with
  | zero => rfl
  | succ k ih => simp [littleEndian, ih]

theorem ofLittleEndian_littleEndian {k n : Nat} (h : n < 256 ^ k) : ofLittleEndian (littleEndian k n) = n := by
  induction k generalizing n with
  | zero =>
    have h0 : n = 0 := by omega
    simp [littleEndian, ofLittleEndian, h0]
  | succ k ih =>
    have hk : n / 256 < 256 ^ k := by
      rw [Nat.div_lt_iff_lt_mul (by decide)]
      rwa [Nat.pow_succ] at h
    have hb : (UInt8.ofNat n).toNat = n % 256 := UInt8.toNat_ofNat'
    rw [littleEndian, ofLittleEndian, ih hk, hb]
    omega

end BusNode
