import Clearing.Number.Power

/-!
# Decimal numbers

A decimal is a whole coefficient over a power of ten. The coefficient has at most 96 bits and the
scale at most 28, so one value can have several decimals: `1.0` and `1.00` are equal in value and
differ in scale. Order and sign are those of the value; the scale only shows in the text.
-/

namespace Clearing

/-- The first coefficient that no decimal holds. -/
def Decimal.coefficientBound : Nat := pow2 96

/-- The largest scale. -/
def Decimal.maxScale : Nat := 28

/-- A number `coefficient / 10 ^ scale`. -/
structure Decimal where
  /-- The digits without the point, signed. -/
  coefficient : Int
  /-- How many of the digits stand after the point. -/
  scale : Nat
  coefficient_lt : coefficient.natAbs < Decimal.coefficientBound
  scale_le : scale ≤ Decimal.maxScale
  deriving DecidableEq, Repr

namespace Decimal

/-- The decimal of a coefficient and a scale, if both are in range. -/
def ofParts? (coefficient : Int) (scale : Nat) : Option Decimal :=
  if h : coefficient.natAbs < coefficientBound ∧ scale ≤ maxScale then
    some ⟨coefficient, scale, h.1, h.2⟩
  else none

/-- A decimal is made of the parts it was given. -/
theorem ofParts?_eq_some_iff {m : Int} {s : Nat} {d : Decimal} :
    ofParts? m s = some d ↔ d.coefficient = m ∧ d.scale = s := by
  unfold ofParts?
  split
  · cases d
    simp only [Option.some.injEq, mk.injEq]
    exact ⟨fun h => ⟨h.1.symm, h.2.symm⟩, fun h => ⟨h.1.symm, h.2.symm⟩⟩
  · next h =>
    simp only [reduceCtorEq, false_iff, not_and]
    rintro rfl rfl
    exact h ⟨d.coefficient_lt, d.scale_le⟩

/-- The number zero, without places. -/
def zero : Decimal := ⟨0, 0, by decide, by decide⟩

instance : Inhabited Decimal := ⟨zero⟩

/-- Compare by value: each coefficient is weighed with the other's power of ten. -/
def compareTo (a b : Decimal) : Ordering :=
  compare (a.coefficient * pow10 b.scale) (b.coefficient * pow10 a.scale)

/-- Not larger in value. -/
def le (a b : Decimal) : Prop := a.coefficient * pow10 b.scale ≤ b.coefficient * pow10 a.scale

instance : LE Decimal := ⟨le⟩

instance (a b : Decimal) : Decidable (a ≤ b) :=
  inferInstanceAs (Decidable (a.coefficient * pow10 b.scale ≤ b.coefficient * pow10 a.scale))

/-- Equal in value, whatever the scales. -/
def sameValue (a b : Decimal) : Prop :=
  a.coefficient * pow10 b.scale = b.coefficient * pow10 a.scale

instance (a b : Decimal) : Decidable (sameValue a b) :=
  inferInstanceAs (Decidable (_ = _))

/-- Above zero. -/
def positive (d : Decimal) : Prop := 0 < d.coefficient

instance (d : Decimal) : Decidable d.positive := inferInstanceAs (Decidable (0 < d.coefficient))

/-- Below zero. -/
def negative (d : Decimal) : Prop := d.coefficient < 0

instance (d : Decimal) : Decidable d.negative := inferInstanceAs (Decidable (d.coefficient < 0))

/-- The same digits with the other sign. -/
def neg (d : Decimal) : Decimal :=
  ⟨-d.coefficient, d.scale, by rw [Int.natAbs_neg]; exact d.coefficient_lt, d.scale_le⟩

end Decimal

end Clearing
