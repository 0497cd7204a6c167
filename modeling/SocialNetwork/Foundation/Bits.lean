import Mathlib.Data.Nat.Bitwise
import Mathlib.Data.Nat.Size

/-!
# Masks

A mask of leading ones keeps the leading bits of a number: comparing under it is comparing the
quotients by a power of two.
-/

namespace SocialNetwork.Foundation

/-- The mask of a prefix clears the bits after it. -/
theorem and_prefixMask {w k x : Nat} (hk : k ≤ w) (hx : x < 2 ^ w) :
    x &&& (2 ^ w - 2 ^ k) = x / 2 ^ k * 2 ^ k := by
  have hmask : 2 ^ w - 2 ^ k = (2 ^ (w - k) - 1) <<< k := by
    rw [Nat.shiftLeft_eq, Nat.sub_mul, Nat.one_mul, ← Nat.pow_add, Nat.sub_add_cancel hk]
  rw [hmask, ← Nat.shiftRight_eq_div_pow, ← Nat.shiftLeft_eq]
  refine Nat.eq_of_testBit_eq fun i => ?_
  rw [Nat.testBit_and, Nat.testBit_shiftLeft, Nat.testBit_shiftLeft, Nat.testBit_shiftRight,
    Nat.testBit_two_pow_sub_one]
  by_cases hi : k ≤ i
  · rw [Nat.add_sub_cancel' hi]
    by_cases hw : i < w
    · have hlt : i - k < w - k := by omega
      simp [hi, hlt]
    · have hzero : x.testBit i = false :=
        Nat.testBit_lt_two_pow (hx.trans_le (Nat.pow_le_pow_right (by omega) (not_lt.mp hw)))
      simp [hzero]
  · simp [hi]

/-- Comparing under the mask of a prefix. -/
theorem and_prefixMask_eq_iff {w k x y : Nat} (hk : k ≤ w) (hx : x < 2 ^ w) (hy : 2 ^ k ∣ y) :
    x &&& (2 ^ w - 2 ^ k) = y ↔ x / 2 ^ k = y / 2 ^ k := by
  obtain ⟨q, rfl⟩ := hy
  have hpos : 0 < 2 ^ k := Nat.two_pow_pos k
  rw [and_prefixMask hk hx, Nat.mul_div_cancel_left q hpos, Nat.mul_comm (2 ^ k) q,
    Nat.mul_left_inj hpos.ne']

end SocialNetwork.Foundation
