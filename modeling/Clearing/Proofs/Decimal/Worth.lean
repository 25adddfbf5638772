import Clearing.Decimal.Arithmetic

/-!
# What sums and differences are worth

Money is counted in the smallest step that a decimal can have, one unit of its last possible place,
so that what a decimal is worth is a whole number and nothing is lost by comparing and adding these.
A sum or a difference of decimals is worth the exact result rounded to the places that fit. It is
worth exactly that whenever some decimal is.
-/

namespace Clearing

/-- A rounded quotient is within half a step of the exact one. -/
theorem divideEven_near (n : Nat) {d : Nat} (h : 0 < d) :
    2 * (divideEven n d * d) ≤ 2 * n + d ∧ 2 * n ≤ 2 * (divideEven n d * d) + d := by
  have hdivided : n / d * d + n % d = n := Nat.div_add_mod' n d
  have hremainder : n % d < d := Nat.mod_lt n h
  have hnext : (n / d + 1) * d = n / d * d + d := Nat.succ_mul (n / d) d
  unfold divideEven
  dsimp only
  split
  · omega
  · split
    · omega
    · -- The remainder is half of the divisor, so either neighbour is as near.
      rcases Nat.mod_two_eq_zero_or_one (n / d) with heven | hodd
      · rw [heven, Nat.add_zero]
        omega
      · rw [hodd]
        omega

theorem pow10_add (a b : Nat) : pow10 (a + b) = pow10 a * pow10 b := Nat.pow_add 10 a b

namespace Decimal

/-- How many of the smallest steps a decimal is worth. -/
def worth (d : Decimal) : Int := d.coefficientAt maxScale

/-- Whether a decimal is the nearest to what is worth so many steps: it is within half a step of its
own last place, and exact if any decimal is. -/
structure Nearest (exact : Int) (d : Decimal) : Prop where
  above : 2 * (d.worth - exact) ≤ pow10 (maxScale - d.scale)
  below : 2 * (exact - d.worth) ≤ pow10 (maxScale - d.scale)
  exact_of_worth : ∀ e : Decimal, e.worth = exact → d.worth = exact

variable {a b d : Decimal} {m : Int} {scale k : Nat}

/-- The coefficient at any scale in between is worth the decimal. -/
theorem coefficientAt_mul (d : Decimal) (le : d.scale ≤ scale) (bound : scale ≤ maxScale) :
    d.coefficientAt scale * pow10 (maxScale - scale) = d.worth := by
  have hsplit : maxScale - d.scale = (scale - d.scale) + (maxScale - scale) := by omega
  unfold worth coefficientAt
  rw [hsplit, pow10_add, Int.natCast_mul, Int.mul_assoc]

/-- The sum of two coefficients at a scale that holds both decimals is worth both of them. -/
theorem coefficientAt_add_mul (ha : a.scale ≤ scale) (hb : b.scale ≤ scale)
    (bound : scale ≤ maxScale) :
    (a.coefficientAt scale + b.coefficientAt scale) * pow10 (maxScale - scale) =
      a.worth + b.worth := by
  rw [Int.add_mul, a.coefficientAt_mul ha bound, b.coefficientAt_mul hb bound]

@[simp] theorem worth_neg (d : Decimal) : (neg d).worth = -d.worth := Int.neg_mul _ _

theorem worth_of_coefficient_eq_zero (h : d.coefficient = 0) : d.worth = 0 := by
  rw [worth, coefficientAt, h, Int.zero_mul]

/-- A decimal is the nearest to what it is worth. -/
theorem nearest_worth (d : Decimal) : d.Nearest d.worth := by
  have hpos := pow10_pos (maxScale - d.scale)
  exact ⟨by omega, by omega, fun _ _ => rfl⟩

/-- Giving up places moves a coefficient by half a step at most. -/
theorem round_near (m : Int) (k : Nat) :
    2 * (round m k * pow10 k - m) ≤ pow10 k ∧ 2 * (m - round m k * pow10 k) ≤ pow10 k := by
  have hnear := divideEven_near m.natAbs (pow10_pos k)
  unfold round withSign
  generalize divideEven m.natAbs (pow10 k) = n at hnear
  have hcast : (n : Int) * pow10 k = (n * pow10 k : Nat) := (Int.natCast_mul n (pow10 k)).symm
  by_cases hm : m < 0
  · rw [if_pos (decide_eq_true hm), Int.neg_mul, hcast]
    omega
  · rw [if_neg (by simpa using hm), hcast]
    omega

/-- Places that hold nothing but zeros are given up exactly. -/
theorem round_mul (m : Int) (k : Nat) : round (m * pow10 k) k = m := by
  have habs : (m * pow10 k).natAbs = m.natAbs * pow10 k := by
    rw [Int.natAbs_mul, Int.natAbs_natCast]
  have hpos : (0 : Int) < pow10 k := Int.natCast_pos.mpr (pow10_pos k)
  rw [round, habs, divideEven_mul _ (pow10_pos k), withSign]
  by_cases hm : m < 0
  · rw [if_pos (decide_eq_true (Int.mul_neg_of_neg_of_pos hm hpos))]
    omega
  · have hnonneg : 0 ≤ m * pow10 k := Int.mul_nonneg (Int.not_lt.mp hm) (Int.le_of_lt hpos)
    rw [if_neg (by simpa using hnonneg)]
    omega

/-- What is found first among the first numbers is found at none of the smaller ones. -/
theorem findSome?_range {α : Type} {f : Nat → Option α} {n : Nat} {x : α}
    (h : (List.range n).findSome? f = some x) :
    ∃ k < n, f k = some x ∧ ∀ j < k, f j = none := by
  obtain ⟨before, k, after, hrange, found, missed⟩ := List.findSome?_eq_some_iff.mp h
  have hlength := congrArg List.length hrange
  rw [List.length_range, List.length_append, List.length_cons] at hlength
  have hget (j : Nat) (hj : j < n) : (before ++ k :: after)[j]? = some j := by
    rw [← hrange, List.getElem?_range hj]
  have hk : k = before.length := by
    have hat := hget before.length (by omega)
    rw [List.getElem?_append_right (Nat.le_refl _), Nat.sub_self] at hat
    exact Option.some.inj hat
  refine ⟨k, by omega, found, fun j hj => missed j ?_⟩
  have hat := hget j (by omega)
  rw [List.getElem?_append_left (by omega)] at hat
  exact List.mem_of_getElem? hat

/-- What fits keeps as many places as it can. -/
theorem fit?_eq_some (h : fit? m scale = some d) :
    ∃ k ≤ scale, d.coefficient = round m k ∧ d.scale = scale - k ∧
      ∀ j < k, ofParts? (round m j) (scale - j) = none := by
  obtain ⟨k, hk, found, missed⟩ := findSome?_range h
  obtain ⟨hcoefficient, hscale⟩ := ofParts?_eq_some_iff.mp found
  exact ⟨k, Nat.le_of_lt_succ hk, hcoefficient, hscale, missed⟩

theorem eq_of_mul_pow10_eq {x y : Int} (h : x * pow10 k = y * pow10 k) : x = y := by
  have hpos := pow10_pos k
  exact Int.eq_of_mul_eq_mul_right (by omega) h

/-- A number that some decimal is worth fits when the right number of places is given up, and then
nothing is lost. -/
theorem exists_round_eq {e : Decimal} (bound : scale ≤ maxScale)
    (h : e.worth = m * pow10 (maxScale - scale)) :
    ∃ j ≤ scale, round m j * pow10 j = m ∧ ofParts? (round m j) (scale - j) ≠ none := by
  by_cases le : e.scale ≤ scale
  · have hm : e.coefficientAt scale = m :=
      eq_of_mul_pow10_eq ((e.coefficientAt_mul le bound).trans h)
    have hround : round m (scale - e.scale) = e.coefficient := by
      rw [← hm]
      exact round_mul _ _
    refine ⟨scale - e.scale, Nat.sub_le _ _, ?_, ?_⟩
    · rw [hround]
      exact hm
    · rw [hround, Nat.sub_sub_self le, ofParts?_eq_some_iff.mpr ⟨rfl, rfl⟩]
      exact nofun
  · -- The decimal has more places than there are, so it is larger than what has to fit.
    have hsplit : maxScale - scale = (e.scale - scale) + (maxScale - e.scale) := by
      have := e.scale_le
      omega
    rw [hsplit, pow10_add, Int.natCast_mul, ← Int.mul_assoc] at h
    have hm : e.coefficient = m * pow10 (e.scale - scale) := eq_of_mul_pow10_eq h
    have hle : m.natAbs ≤ e.coefficient.natAbs := by
      rw [hm, Int.natAbs_mul]
      exact Nat.le_mul_of_pos_right _ (pow10_pos _)
    refine ⟨0, Nat.zero_le _, ?_, ?_⟩
    · rw [round_zero, pow10_zero]
      exact Int.mul_one m
    · rw [round_zero, ofParts?, dif_pos ⟨Nat.lt_of_le_of_lt hle e.coefficient_lt, bound⟩]
      exact nofun

/-- What fits is the nearest to the exact number. -/
theorem nearest_of_fit (bound : scale ≤ maxScale) (h : fit? m scale = some d) :
    d.Nearest (m * pow10 (maxScale - scale)) := by
  obtain ⟨k, hk, hcoefficient, hscale, missed⟩ := fit?_eq_some h
  have hsplit : maxScale - d.scale = k + (maxScale - scale) := by omega
  have hworth : d.worth = round m k * pow10 k * pow10 (maxScale - scale) := by
    rw [worth, coefficientAt, hcoefficient, hsplit, pow10_add, Int.natCast_mul, Int.mul_assoc]
  have hplace : (pow10 (maxScale - d.scale) : Int) = pow10 k * pow10 (maxScale - scale) := by
    rw [hsplit, pow10_add, Int.natCast_mul]
  obtain ⟨habove, hbelow⟩ := round_near m k
  have hnonneg : (0 : Int) ≤ pow10 (maxScale - scale) := Int.natCast_nonneg _
  refine ⟨?_, ?_, fun e he => ?_⟩
  · rw [hworth, hplace, ← Int.sub_mul, ← Int.mul_assoc]
    exact Int.mul_le_mul_of_nonneg_right habove hnonneg
  · rw [hworth, hplace, ← Int.sub_mul, ← Int.mul_assoc]
    exact Int.mul_le_mul_of_nonneg_right hbelow hnonneg
  · obtain ⟨j, hj, hexact, hfits⟩ := exists_round_eq bound he
    have hkj : k ≤ j := Nat.le_of_not_lt fun hlt => hfits (missed j hlt)
    -- The places that are given up are among those that hold nothing but zeros.
    have hzeros : m = round m j * pow10 (j - k) * pow10 k := by
      rw [Int.mul_assoc, ← Int.natCast_mul, ← pow10_add, Nat.sub_add_cancel hkj, hexact]
    have hround : round m k * pow10 k = m := by
      generalize round m j * pow10 (j - k) = c at hzeros
      rw [hzeros, round_mul]
    rw [hworth, hround]

theorem add_eq_ok_iff : a.add b = .ok d ↔ a.add? b = some d := by
  unfold add
  cases a.add? b <;> simp

/-- A sum fails only as a sum. -/
theorem cause_of_add {cause : Overflow} (h : a.add b = .error cause) : cause = .addition := by
  unfold add at h
  split at h
  · exact absurd h nofun
  · exact (Except.error.inj h).symm

theorem sub_eq_ok_iff : a.sub b = .ok d ↔ a.sub? b = some d := by
  unfold sub
  cases a.sub? b <;> simp

/-- A sum is the nearest decimal to the exact sum. -/
theorem nearest_of_add (h : a.add b = .ok d) : d.Nearest (a.worth + b.worth) := by
  have hadd := add_eq_ok_iff.mp h
  unfold add? at hadd
  split at hadd
  · next hzero =>
    cases hadd
    rw [worth_of_coefficient_eq_zero hzero, Int.zero_add]
    exact b.nearest_worth
  · split at hadd
    · next hzero =>
      cases hadd
      rw [worth_of_coefficient_eq_zero hzero, Int.add_zero]
      exact a.nearest_worth
    · have hbound : max a.scale b.scale ≤ maxScale := Nat.max_le.mpr ⟨a.scale_le, b.scale_le⟩
      have hnearest := nearest_of_fit hbound hadd
      rw [coefficientAt_add_mul (Nat.le_max_left _ _) (Nat.le_max_right _ _) hbound] at hnearest
      exact hnearest

/-- A difference is the nearest decimal to the exact difference. -/
theorem nearest_of_sub (h : a.sub b = .ok d) : d.Nearest (a.worth - b.worth) := by
  have hadd : a.add (neg b) = .ok d := add_eq_ok_iff.mpr (sub_eq_ok_iff.mp h)
  rw [Int.sub_eq_add_neg, ← worth_neg]
  exact nearest_of_add hadd

end Decimal

end Clearing
