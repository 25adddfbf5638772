/-!
# Rounding to the even neighbour

Quotients of natural numbers, rounded to the nearest whole number. A half goes to the even
neighbour.
-/

namespace Clearing

/-- The whole number nearest to `n / d`; of two equally near ones the even one. -/
def divideEven (n d : Nat) : Nat :=
  let q := n / d
  let r := n % d
  if 2 * r < d then q else if d < 2 * r then q + 1 else q + q % 2

/-- A quotient without a remainder is not rounded. -/
theorem divideEven_mul (q : Nat) {d : Nat} (h : 0 < d) : divideEven (q * d) d = q := by
  have hr : q * d % d = 0 := Nat.mul_mod_left q d
  simp only [divideEven, hr, Nat.mul_zero, h, if_true]
  exact Nat.mul_div_left q h

/-- Nothing is rounded by one. -/
theorem divideEven_one (n : Nat) : divideEven n 1 = n := by
  have h : divideEven (n * 1) 1 = n := divideEven_mul n Nat.one_pos
  rwa [Nat.mul_one] at h

end Clearing
