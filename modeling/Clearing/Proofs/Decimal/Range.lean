import Clearing.Proofs.Decimal.Worth
import Mathlib.Algebra.Order.Ring.Int
import Mathlib.Tactic.Ring

/-!
# Sums and differences that exist

Rounding keeps the order, so what lies between zero and a decimal fits when no more places are given
up than that decimal has to spare. A decimal can therefore always be lessened by a smaller one. Two
decimals can be added without giving up a place when there is room for their sum at a scale that
holds both.
-/

namespace Clearing.Decimal

variable {a b d : Decimal} {m c : Int} {scale k : Nat}

/-- Rounding does not go above a whole number of steps that is not exceeded. -/
theorem round_le (h : m ≤ c * pow10 k) : round m k ≤ c := by
  obtain ⟨hnear, -⟩ := round_near m k
  have hpos := pow10_pos k
  refine Int.not_lt.mp fun hlt => ?_
  have hnext : (c + 1) * pow10 k ≤ round m k * pow10 k :=
    Int.mul_le_mul_of_nonneg_right hlt (Int.natCast_nonneg _)
  rw [Int.add_mul, Int.one_mul] at hnext
  omega

/-- What is not negative is not rounded below zero. -/
theorem round_nonneg (h : 0 ≤ m) : 0 ≤ round m k := by
  obtain ⟨-, hnear⟩ := round_near m k
  have hpos := pow10_pos k
  refine Int.not_lt.mp fun hlt => ?_
  have hbelow : round m k * pow10 k ≤ -1 * pow10 k :=
    Int.mul_le_mul_of_nonneg_right (by omega) (Int.natCast_nonneg _)
  omega

/-- Decimals are in the order of what they are worth. -/
theorem le_iff_worth_le : a ≤ b ↔ a.worth ≤ b.worth := by
  have hpos : (0 : Int) < pow10 (maxScale - a.scale) * pow10 (maxScale - b.scale) :=
    Int.mul_pos (Int.natCast_pos.mpr (pow10_pos _)) (Int.natCast_pos.mpr (pow10_pos _))
  have hpow {d : Decimal} :
      (pow10 d.scale * pow10 (maxScale - d.scale) : Int) = pow10 maxScale := by
    rw [← Int.natCast_mul, ← pow10_add, Nat.add_sub_cancel' d.scale_le]
  have hall : (0 : Int) < pow10 maxScale := Int.natCast_pos.mpr (pow10_pos _)
  -- Both ways of weighing are the comparison of the coefficients with the powers of both scales.
  have hleft : a.coefficient * pow10 b.scale *
      (pow10 (maxScale - a.scale) * pow10 (maxScale - b.scale)) = a.worth * pow10 maxScale := by
    rw [worth, coefficientAt, ← hpow (d := b)]
    ring
  have hright : b.coefficient * pow10 a.scale *
      (pow10 (maxScale - a.scale) * pow10 (maxScale - b.scale)) = b.worth * pow10 maxScale := by
    rw [worth, coefficientAt, ← hpow (d := a)]
    ring
  change a.coefficient * pow10 b.scale ≤ b.coefficient * pow10 a.scale ↔ _
  rw [← Int.mul_le_mul_iff_of_pos_right hpos, hleft, hright, Int.mul_le_mul_iff_of_pos_right hall]

/-- Decimals are equal in value when they are worth the same. -/
theorem sameValue_iff_worth_eq : a.sameValue b ↔ a.worth = b.worth := by
  have hvalue : a.sameValue b ↔ a ≤ b ∧ b ≤ a := Int.le_antisymm_iff
  rw [hvalue, le_iff_worth_le, le_iff_worth_le, Int.le_antisymm_iff]

/-- A decimal is above zero when it is worth more than nothing. -/
theorem positive_iff_worth_pos : d.positive ↔ 0 < d.worth := by
  have hpos : (0 : Int) < pow10 (maxScale - d.scale) := Int.natCast_pos.mpr (pow10_pos _)
  exact (mul_pos_iff_of_pos_right hpos).symm

/-- A decimal is not below zero when it is worth nothing or more. -/
theorem zero_le_iff_worth_nonneg : zero ≤ d ↔ 0 ≤ d.worth := by
  have hzero : zero.worth = 0 := worth_of_coefficient_eq_zero rfl
  rw [le_iff_worth_le, hzero]

/-- A decimal is not below zero when it is not negative. -/
theorem zero_le_of_not_negative (h : ¬ d.negative) : zero ≤ d :=
  zero_le_iff_worth_nonneg.mpr (Int.mul_nonneg (Int.not_lt.mp h) (Int.natCast_nonneg _))

theorem not_negative_of_zero_le (h : zero ≤ d) : ¬ d.negative := by
  intro hnegative
  have hworth := zero_le_iff_worth_nonneg.mp h
  have hpos : (0 : Int) < pow10 (maxScale - d.scale) := Int.natCast_pos.mpr (pow10_pos _)
  have hbelow : d.worth < 0 := Int.mul_neg_of_neg_of_pos hnegative hpos
  omega

/-- The decimal nearest to what is not negative is not below zero. -/
theorem Nearest.nonneg {exact : Int} (h : d.Nearest exact) (nonneg : 0 ≤ exact) : zero ≤ d := by
  have hpos := pow10_pos (maxScale - d.scale)
  have hbelow := h.below
  refine zero_le_of_not_negative fun hlt => ?_
  have hworth : d.worth ≤ -1 * pow10 (maxScale - d.scale) :=
    Int.mul_le_mul_of_nonneg_right (by unfold negative at hlt; omega) (Int.natCast_nonneg _)
  omega

/-- What lies between zero and a decimal fits with at least its places, and stays between the
two. -/
theorem exists_fit_of_le (places : a.scale ≤ scale) (nonneg : 0 ≤ m)
    (le : m ≤ a.coefficientAt scale) :
    ∃ d, fit? m scale = some d ∧ a.scale ≤ d.scale ∧ 0 ≤ d.coefficient ∧
      d.coefficient ≤ a.coefficientAt d.scale := by
  have hround : round m (scale - a.scale) ≤ a.coefficient := round_le le
  have hnonneg : 0 ≤ round m (scale - a.scale) := round_nonneg nonneg
  have hfits : (round m (scale - a.scale)).natAbs < coefficientBound ∧
      scale - (scale - a.scale) ≤ maxScale := by
    have hlt := a.coefficient_lt
    have hscale := a.scale_le
    exact ⟨by omega, by omega⟩
  have hparts : ofParts? (round m (scale - a.scale)) (scale - (scale - a.scale)) ≠ none := by
    rw [ofParts?, dif_pos hfits]
    exact Option.some_ne_none _
  cases hfit : fit? m scale with
  | none =>
    have hmissed := List.findSome?_eq_none_iff.mp hfit (scale - a.scale)
      (List.mem_range.mpr (by omega))
    exact absurd hmissed hparts
  | some d =>
    obtain ⟨k, hk, hcoefficient, hscale, missed⟩ := fit?_eq_some hfit
    have hkept : k ≤ scale - a.scale := Nat.le_of_not_lt fun hlt => hparts (missed _ hlt)
    refine ⟨d, rfl, by omega, ?_, ?_⟩
    · rw [hcoefficient]
      exact round_nonneg nonneg
    · rw [hcoefficient]
      refine round_le ?_
      have hsplit : scale - a.scale = (d.scale - a.scale) + k := by omega
      rw [coefficientAt, Int.mul_assoc, ← Int.natCast_mul, ← pow10_add, ← hsplit]
      exact le

/-- A decimal is at most another one if its coefficient is at its own scale. -/
theorem worth_le_of_coefficient_le (places : a.scale ≤ d.scale)
    (le : d.coefficient ≤ a.coefficientAt d.scale) : d.worth ≤ a.worth := by
  rw [← a.coefficientAt_mul places d.scale_le]
  exact Int.mul_le_mul_of_nonneg_right le (Int.natCast_nonneg _)

/-- Two decimals that are not zero are added at the larger scale. -/
theorem add?_of_ne_zero (ha : a.coefficient ≠ 0) (hb : b.coefficient ≠ 0) :
    add? a b = fit? (a.coefficientAt (max a.scale b.scale) + b.coefficientAt (max a.scale b.scale))
      (max a.scale b.scale) := by
  rw [add?, if_neg ha, if_neg hb]

/-- A decimal can be lessened by a positive one that it covers, and what is left is neither below
zero nor more than it was. -/
theorem exists_sub_of_le (positive : b.positive) (le : b ≤ a) :
    ∃ d, a.sub b = .ok d ∧ zero ≤ d ∧ d ≤ a := by
  have hb : 0 < b.worth := positive_iff_worth_pos.mp positive
  have hba : b.worth ≤ a.worth := le_iff_worth_le.mp le
  have ha : a.coefficient ≠ 0 := by
    intro hzero
    rw [worth_of_coefficient_eq_zero hzero] at hba
    omega
  have hneg : (neg b).coefficient ≠ 0 := Int.neg_ne_zero.mpr (Int.ne_of_gt positive)
  have hplaces : max a.scale (neg b).scale ≤ maxScale :=
    Nat.max_le.mpr ⟨a.scale_le, (neg b).scale_le⟩
  have hleft : a.scale ≤ max a.scale (neg b).scale := Nat.le_max_left _ _
  have hexact := coefficientAt_add_mul hleft (Nat.le_max_right _ _) hplaces
  have hadd := add?_of_ne_zero ha hneg
  generalize max a.scale (neg b).scale = places at hplaces hleft hexact hadd
  have hwhole := a.coefficientAt_mul hleft hplaces
  have hpos : (0 : Int) < pow10 (maxScale - places) := Int.natCast_pos.mpr (pow10_pos _)
  rw [worth_neg] at hexact
  have hless : 0 ≤ a.coefficientAt places + (neg b).coefficientAt places :=
    nonneg_of_mul_nonneg_left (by omega) hpos
  have hmore : a.coefficientAt places + (neg b).coefficientAt places ≤ a.coefficientAt places :=
    le_of_mul_le_mul_right (by omega) hpos
  obtain ⟨d, hfit, hscale, hnonneg, hle⟩ := exists_fit_of_le hleft hless hmore
  refine ⟨d, ?_, ?_, ?_⟩
  · rw [sub_eq_ok_iff, sub?, hadd, hfit]
  · exact zero_le_iff_worth_nonneg.mpr (Int.mul_nonneg hnonneg (Int.natCast_nonneg _))
  · exact le_iff_worth_le.mpr (worth_le_of_coefficient_le hscale hle)

/-- How many places an exact sum has; a zero operand does not add its own. -/
def sumScale (a b : Decimal) : Nat :=
  if a.coefficient = 0 then b.scale
  else if b.coefficient = 0 then a.scale
  else max a.scale b.scale

/-- Whether a decimal is the exact sum of two, with all its places. -/
structure Unrounded (a b d : Decimal) : Prop where
  scale : d.scale = sumScale a b
  worth : d.worth = a.worth + b.worth

/-- What decimals with so many places stay below. -/
def capacity (scale : Nat) : Nat := coefficientBound * pow10 (maxScale - scale)

theorem sumScale_le (ha : a.scale ≤ scale) (hb : b.scale ≤ scale) : sumScale a b ≤ scale := by
  unfold sumScale
  split
  · exact hb
  · split
    · exact ha
    · exact Nat.max_le.mpr ⟨ha, hb⟩

/-- A sum for which there is room with so many places exists and is not rounded. -/
theorem exists_add_of_room (ha : a.scale ≤ scale) (hb : b.scale ≤ scale)
    (room : (a.worth + b.worth).natAbs < capacity scale) :
    ∃ d, a.add b = .ok d ∧ Unrounded a b d := by
  by_cases hazero : a.coefficient = 0
  · refine ⟨b, ?_, ?_, ?_⟩
    · rw [add_eq_ok_iff, add?_of_left_zero hazero]
    · rw [sumScale, if_pos hazero]
    · rw [worth_of_coefficient_eq_zero hazero, Int.zero_add]
  by_cases hbzero : b.coefficient = 0
  · refine ⟨a, ?_, ?_, ?_⟩
    · rw [add_eq_ok_iff, add?, if_neg hazero, if_pos hbzero]
    · rw [sumScale, if_neg hazero, if_pos hbzero]
    · rw [worth_of_coefficient_eq_zero hbzero, Int.add_zero]
  have hplaces : max a.scale b.scale ≤ maxScale := Nat.max_le.mpr ⟨a.scale_le, b.scale_le⟩
  have hexact := coefficientAt_add_mul (Nat.le_max_left _ _) (Nat.le_max_right _ _) hplaces
  have hadd := add?_of_ne_zero hazero hbzero
  have hsum : sumScale a b = max a.scale b.scale := by
    rw [sumScale, if_neg hazero, if_neg hbzero]
  have hle : max a.scale b.scale ≤ scale := Nat.max_le.mpr ⟨ha, hb⟩
  rw [← hsum] at hplaces hexact hadd hle
  generalize a.coefficientAt _ + b.coefficientAt _ = m at hexact hadd
  have hfits : m.natAbs < coefficientBound := by
    have hmore : pow10 (maxScale - scale) ≤ pow10 (maxScale - sumScale a b) :=
      Nat.pow_le_pow_right (by decide) (by omega)
    have hroom : m.natAbs * pow10 (maxScale - sumScale a b) <
        coefficientBound * pow10 (maxScale - sumScale a b) := by
      rw [← Int.natAbs_natCast (pow10 (maxScale - sumScale a b)), ← Int.natAbs_mul, hexact]
      exact Nat.lt_of_lt_of_le room (Nat.mul_le_mul_left _ hmore)
    exact Nat.lt_of_mul_lt_mul_right hroom
  let d : Decimal := ⟨m, sumScale a b, hfits, hplaces⟩
  have hparts : ofParts? m (sumScale a b) = some d := ofParts?_eq_some_iff.mpr ⟨rfl, rfl⟩
  exact ⟨d, by rw [add_eq_ok_iff, hadd, fit?_of_fits hparts], rfl, hexact⟩

/-- A difference for which there is room with so many places exists and is not rounded. -/
theorem exists_sub_of_room (ha : a.scale ≤ scale) (hb : b.scale ≤ scale)
    (room : (a.worth - b.worth).natAbs < capacity scale) :
    ∃ d, a.sub b = .ok d ∧ Unrounded a (neg b) d := by
  rw [Int.sub_eq_add_neg, ← worth_neg] at room
  obtain ⟨d, hadd, hexact⟩ := exists_add_of_room (b := neg b) ha hb room
  exact ⟨d, by rw [sub_eq_ok_iff, sub?, ← add_eq_ok_iff, hadd], hexact⟩

end Clearing.Decimal
