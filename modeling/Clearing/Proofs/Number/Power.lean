import Clearing.Number.Power
import Mathlib.Algebra.Order.Field.Power
import Mathlib.Data.Rat.Cast.Order
import Mathlib.Tactic.NormNum

/-!
# Powers among the rational numbers

A power with an exponent of either sign is the quotient of two natural powers, one of which is one.
-/

namespace Clearing

theorem pow2_le_pow2 {j k : Nat} (h : j ≤ k) : pow2 j ≤ pow2 k := Nat.pow_le_pow_right (by decide) h

theorem cast_pow10 (k : Nat) : (pow10 k : ℚ) = 10 ^ k := by
  change ((10 ^ k : Nat) : ℚ) = 10 ^ k
  push_cast
  rfl

theorem cast_pow2 (k : Nat) : (pow2 k : ℚ) = 2 ^ k := by
  change ((2 ^ k : Nat) : ℚ) = 2 ^ k
  push_cast
  rfl

theorem ten_zpow_pos (e : ℤ) : (0 : ℚ) < 10 ^ e := zpow_pos (by norm_num) e

theorem two_zpow_pos (e : ℤ) : (0 : ℚ) < 2 ^ e := zpow_pos (by norm_num) e

theorem ten_zpow_mul (e : ℤ) : (10 : ℚ) ^ e * pow10 (-e).toNat = pow10 e.toNat := by
  rw [cast_pow10, cast_pow10, ← zpow_natCast, ← zpow_natCast, ← zpow_add₀ (by norm_num)]
  congr 1
  omega

theorem two_zpow_mul (e : ℤ) : (2 : ℚ) ^ e * pow2 (-e).toNat = pow2 e.toNat := by
  rw [cast_pow2, cast_pow2, ← zpow_natCast, ← zpow_natCast, ← zpow_add₀ (by norm_num)]
  congr 1
  omega

end Clearing
