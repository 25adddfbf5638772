import Clearing.Double.Basic
import Clearing.Text.Digits

/-!
# The shortest text of a double precision number

The fewest digits that read back as the number, and of those the nearest to it. For one digit, two
digits and so on the two neighbours of the number on that grid are tried; the first grid with a
neighbour that still rounds to the number wins.
-/

namespace Clearing.Double

open Clearing.Text

/-- Digits and the power of ten that they are multiplied with. -/
structure Shortest where
  digits : Nat
  exponent : Int
  deriving DecidableEq, Repr

/-- The power of ten of the leading digit of a quotient that is not zero. -/
def leadingExponent (n d : Nat) : Int :=
  if d ≤ n then ((natDigits (n / d)).length : Int) - 1
  else
    match (List.range 400).find? fun k => d ≤ n * pow10 k with
    | some k => -(k : Int)
    | none => 0

/-- The numbers that round to `x`, as bounds in quarter units of the last bit: lower and upper. -/
def roundingBounds (x : Double) : Nat × Nat :=
  let boundary := x.mantissa = pow2 (precision - 1) && minExponent < x.exponent
  (4 * x.mantissa - (if boundary then 1 else 2), 4 * x.mantissa + 2)

/-- Whether `digits * 10 ^ exponent` rounds to `x`. The bounds themselves do when the mantissa is
even. -/
def readsBack (x : Double) (digits : Nat) (exponent : Int) : Bool :=
  let n := digits * pow10 exponent.toNat * 4 * x.denominator
  let d := pow10 (-exponent).toNat
  let unit := pow2 x.exponent.toNat
  let low := (roundingBounds x).1 * unit * d
  let high := (roundingBounds x).2 * unit * d
  if x.mantissa % 2 = 0 then low ≤ n && n ≤ high else low < n && n < high

/-- The neighbour of `x` on the grid of `10 ^ exponent`, if one reads back. Of two the nearer is
taken, and the even one when they are equally near. -/
def onGrid? (x : Double) (exponent : Int) : Option Nat :=
  let n := x.numerator * pow10 (-exponent).toNat
  let d := x.denominator * pow10 exponent.toNat
  let below := n / d
  let near := divideEven n d
  let far := if near = below then below + 1 else below
  if readsBack x near exponent then some near
  else if readsBack x far exponent then some far else none

/-- Drop zeros at the end of the digits. -/
def dropZeros (digits : Nat) (exponent : Int) : (fuel : Nat) → Shortest
  | 0 => ⟨digits, exponent⟩
  | fuel + 1 =>
      if digits ≠ 0 ∧ digits % 10 = 0 then dropZeros (digits / 10) (exponent + 1) fuel
      else ⟨digits, exponent⟩

/-- The shortest digits of a number. Seventeen digits always read back. -/
def shortest (x : Double) : Shortest :=
  if x.mantissa = 0 then ⟨0, 0⟩
  else
    let top := leadingExponent x.numerator x.denominator
    let found := (List.range 17).findSome? fun (k : Nat) =>
      (onGrid? x (top - k)).map fun digits => dropZeros digits (top - k) 18
    found.getD ⟨x.mantissa, 0⟩

/-- Digits in positional notation. -/
def positional (s : Shortest) : List Char :=
  if 0 ≤ s.exponent then natDigits s.digits ++ List.replicate s.exponent.toNat '0'
  else
    let places := (-s.exponent).toNat
    natDigits (s.digits / pow10 places) ++ '.' :: padded places (s.digits % pow10 places)

/-- Put the sign in front. -/
def signed (x : Double) (cs : List Char) : List Char := if x.negative then '-' :: cs else cs

/-- The text without exponent and without a point behind a whole number. -/
def plainText (x : Double) : List Char := signed x (positional (shortest x))

/-- The smallest power of ten of a leading digit that is written in positional notation. -/
def leastPositional : Int := -5

/-- The largest power of ten of a leading digit that is written in positional notation. -/
def greatestPositional : Int := 15

/-- Digits in scientific notation: the exponent has a sign and at least two digits. -/
def scientific (digits : List Char) (exponent : Int) : List Char :=
  let fraction := if digits.length ≤ 1 then [] else '.' :: digits.drop 1
  digits.take 1 ++ fraction ++ 'e' :: (if exponent < 0 then '-' else '+')
    :: atLeast 2 exponent.natAbs

/-- The text that shows a number to be one of floating point: a whole number keeps `.0`, and very
small and very large numbers have an exponent. -/
def markedText (x : Double) : List Char :=
  let s := shortest x
  let digits := natDigits s.digits
  let top := s.exponent + digits.length - 1
  signed x <|
    if x.mantissa = 0 || (leastPositional ≤ top && top ≤ greatestPositional) then
      positional s ++ (if 0 ≤ s.exponent then ['.', '0'] else [])
    else scientific digits top

end Clearing.Double
