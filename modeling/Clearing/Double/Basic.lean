import Clearing.Number.Power
import Clearing.Number.Rounding

/-!
# Double precision numbers

The finite numbers `± mantissa * 2 ^ exponent` with 53 bits of mantissa and exponents from -1074 to
971. Products and quotients are the numbers nearest to the exact results, a half going to the even
neighbour; a result beyond the largest number does not exist. All arithmetic here is that of whole
numbers.
-/

namespace Clearing

/-- A finite number in double precision. -/
structure Double where
  /-- The sign, which zero has too. -/
  negative : Bool
  /-- The significant bits. -/
  mantissa : Nat
  /-- The power of two that they are multiplied with. -/
  exponent : Int
  deriving DecidableEq, Repr

namespace Double

/-- The bits of a mantissa. -/
def precision : Nat := 53

/-- The smallest exponent. -/
def minExponent : Int := -1074

/-- The largest exponent. -/
def maxExponent : Int := 971

/-- `n * 2 ^ k / d`, rounded. -/
def scaledQuotient (n d : Nat) (k : Int) : Nat :=
  divideEven (n * pow2 k.toNat) (d * pow2 (-k).toNat)

/-- Whether `2 ^ k ≤ n / d`. -/
def powerLe (n d : Nat) (k : Int) : Bool := d * pow2 k.toNat ≤ n * pow2 (-k).toNat

/-- The magnitude nearest to a quotient: mantissa and exponent, if it is not too large. -/
def nearestMagnitude? (n d : Nat) : Option (Nat × Int) :=
  if n = 0 then some (0, minExponent)
  else
    let guess : Int := (Nat.log2 n : Int) - Nat.log2 d
    let top := if powerLe n d guess then guess else guess - 1
    let exponent := max (top - (precision - 1)) minExponent
    let mantissa := scaledQuotient n d (-exponent)
    let rounded := if mantissa = pow2 precision then (pow2 (precision - 1), exponent + 1)
      else (mantissa, exponent)
    if rounded.2 ≤ maxExponent then some rounded else none

/-- The number nearest to a quotient, if it is not too large. -/
def nearest? (negative : Bool) (n d : Nat) : Option Double :=
  (nearestMagnitude? n d).map fun r => ⟨negative, r.1, r.2⟩

/-- The magnitude as a quotient: numerator. -/
def numerator (x : Double) : Nat := x.mantissa * pow2 x.exponent.toNat

/-- The magnitude as a quotient: denominator. -/
def denominator (x : Double) : Nat := pow2 (-x.exponent).toNat

/-- The product, if it is not too large. -/
def mul? (x y : Double) : Option Double :=
  nearest? (x.negative != y.negative) (x.numerator * y.numerator) (x.denominator * y.denominator)

/-- The quotient, if it is not too large. The divisor must not be zero. -/
def div? (x y : Double) : Option Double :=
  nearest? (x.negative != y.negative) (x.numerator * y.denominator) (x.denominator * y.numerator)

/-- The number nearest to a natural number, if it is not too large. -/
def ofNat? (n : Nat) : Option Double := nearest? false n 1

/-- The number zero. -/
def zero : Double := ⟨false, 0, minExponent⟩

/-- The same magnitude with the other sign. -/
def neg (x : Double) : Double := { x with negative := !x.negative }

end Double

end Clearing
