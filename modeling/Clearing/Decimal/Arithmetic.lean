import Clearing.Decimal.Basic
import Clearing.Number.Rounding

/-!
# Sums and differences of decimals

A sum is exact at the larger of the two scales. When its coefficient is too large for a decimal,
places are given up one by one, rounding the exact sum with a half going to the even neighbour,
until it fits; when no place is left to give up, the sum does not exist. A zero operand adds
nothing, not even its scale.
-/

namespace Clearing.Decimal

/-- Give a magnitude its sign. -/
def withSign (negative : Bool) (n : Nat) : Int := if negative then -(n : Int) else n

/-- Give up `k` places of a coefficient. -/
def round (m : Int) (k : Nat) : Int := withSign (m < 0) (divideEven m.natAbs (pow10 k))

/-- The decimal nearest to `m / 10 ^ scale` with as many of the places as fit. -/
def fit? (m : Int) (scale : Nat) : Option Decimal :=
  (List.range (scale + 1)).findSome? fun k => ofParts? (round m k) (scale - k)

/-- The coefficient at a larger scale. -/
def coefficientAt (d : Decimal) (scale : Nat) : Int := d.coefficient * pow10 (scale - d.scale)

/-- The sum, if it has a decimal. -/
def add? (a b : Decimal) : Option Decimal :=
  if a.coefficient = 0 then some b
  else if b.coefficient = 0 then some a
  else
    let scale := max a.scale b.scale
    fit? (a.coefficientAt scale + b.coefficientAt scale) scale

/-- The difference, if it has a decimal. -/
def sub? (a b : Decimal) : Option Decimal := add? a (neg b)

/-- An operation whose exact result is too large. -/
inductive Overflow where
  | addition
  | subtraction
  deriving DecidableEq, Repr

/-- The wording of an overflow. -/
def Overflow.message : Overflow → String
  | .addition => "Addition overflowed"
  | .subtraction => "Subtraction overflowed"

/-- Add, or say that the sum is too large. -/
def add (a b : Decimal) : Except Overflow Decimal :=
  match add? a b with
  | some d => .ok d
  | none => .error .addition

/-- Subtract, or say that the difference is too large. -/
def sub (a b : Decimal) : Except Overflow Decimal :=
  match sub? a b with
  | some d => .ok d
  | none => .error .subtraction

/-- Giving up no place changes nothing. -/
theorem round_zero (m : Int) : round m 0 = m := by
  rw [round, pow10_zero, divideEven_one, withSign]
  by_cases hm : m < 0
  · rw [if_pos (decide_eq_true hm), Int.ofNat_natAbs_of_nonpos (Int.le_of_lt hm), Int.neg_neg]
  · rw [if_neg (by simpa using hm), Int.natAbs_of_nonneg (Int.not_lt.mp hm)]

/-- A coefficient in range keeps all its places. -/
theorem fit?_of_fits {m : Int} {scale : Nat} {d : Decimal} (h : ofParts? m scale = some d) :
    fit? m scale = some d := by
  simp [fit?, List.range_succ_eq_map, round_zero, h]

/-- Adding to zero gives the other operand with its own scale. -/
theorem add?_of_left_zero {a : Decimal} (h : a.coefficient = 0) (b : Decimal) :
    add? a b = some b := by simp [add?, h]

end Clearing.Decimal
