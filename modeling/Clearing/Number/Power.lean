/-!
# Powers of two and ten

The powers that bound words and shift points, as natural numbers.
-/

namespace Clearing

/-- Two to the power of `k`. -/
def pow2 (k : Nat) : Nat := Nat.pow 2 k

/-- Ten to the power of `k`. -/
def pow10 (k : Nat) : Nat := Nat.pow 10 k

@[simp] theorem pow2_zero : pow2 0 = 1 := rfl

@[simp] theorem pow10_zero : pow10 0 = 1 := rfl

theorem pow10_succ (k : Nat) : pow10 (k + 1) = pow10 k * 10 := rfl

theorem pow2_pos (k : Nat) : 0 < pow2 k := Nat.pow_pos (by decide)

theorem pow10_pos (k : Nat) : 0 < pow10 k := Nat.pow_pos (by decide)

end Clearing
