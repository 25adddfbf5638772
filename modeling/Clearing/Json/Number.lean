import Clearing.Json.Value

/-!
# JSON numbers

A number without point and exponent stays whole while it fits 64 bits. Any other number becomes one
of double precision in two roundings: its digits are gathered into 64 bits, leaving out the digits
that do not fit, and the result is multiplied or divided by a power of ten.
-/

namespace Clearing.Json

open Clearing.Text

/-- The largest significand. -/
def maxSignificand : Nat := pow2 64 - 1

/-- The largest exponent that is read digit by digit. -/
def maxExponent : Nat := pow2 31 - 1

/-- The largest exponent with a power of ten of its own. -/
def maxPower : Nat := 308

/-- Digits gathered from the front of a text. -/
structure Gathered where
  value : Nat
  /-- How many digits went into the value. -/
  taken : Nat
  /-- How many digits followed that did not fit. -/
  dropped : Nat
  rest : List Char
  deriving Repr

/-- Gather digits into `value` while it stays within the limit; the digits after the first that does
not fit are dropped. -/
def gather (limit : Nat) (value taken dropped : Nat) : List Char → Gathered
  | [] => ⟨value, taken, dropped, []⟩
  | c :: cs =>
      match digit? c with
      | none => ⟨value, taken, dropped, c :: cs⟩
      | some d =>
          if dropped = 0 ∧ 10 * value + d ≤ limit then
            gather limit (10 * value + d) (taken + 1) dropped cs
          else gather limit value taken (dropped + 1) cs

/-- A power of ten in double precision. -/
def powerOfTen (k : Nat) : Double := (Double.ofNat? (pow10 k)).getD Double.zero

/-- Divide by a power of ten. There is always a quotient. -/
def divideByPower (x : Double) (k : Nat) : Double := (x.div? (powerOfTen k)).getD Double.zero

/-- Divide by the largest power of ten `steps` times and then by `10 ^ last`. -/
def descend (x : Double) (last : Nat) : (steps : Nat) → Double
  | 0 => divideByPower x last
  | steps + 1 => if x.mantissa = 0 then x else descend (divideByPower x maxPower) last steps

/-- The double precision number for a significand and an exponent; none when it is too large. -/
def double? (negative : Bool) (significand : Nat) (exponent : Int) : Option Double :=
  let start := (Double.ofNat? significand).getD Double.zero
  let magnitude? :=
    if 0 ≤ exponent then
      if exponent.toNat ≤ maxPower then start.mul? (powerOfTen exponent.toNat)
      else if significand = 0 then some start else none
    else
      let k := (-exponent).toNat
      let steps := (k - 1) / maxPower
      some (descend start (k - steps * maxPower) steps)
  magnitude?.map fun x => if negative then x.neg else x

/-- The value for a significand and an exponent. -/
def floatValue (negative : Bool) (significand : Nat) (exponent : Int) (rest : List Char) :
    Except Fault (Value × List Char) :=
  match double? negative significand exponent with
  | some x => .ok (.float x, rest)
  | none => .error .malformed

/-- The value of a whole number. A negative zero and numbers below 64 bits are not whole. -/
def wholeValue (negative : Bool) (n : Nat) (rest : List Char) :
    Except Fault (Value × List Char) :=
  if !negative then .ok (.natural n, rest)
  else if n = 0 ∨ pow2 63 < n then floatValue true n 0 rest
  else .ok (.negative (-(n : Int)), rest)

/-- Read what follows the exponent mark. -/
def exponentPart (negative : Bool) (significand : Nat) (exponent : Int) (cs : List Char) :
    Except Fault (Value × List Char) :=
  let (down, cs) := match cs with
    | '+' :: cs => (false, cs)
    | '-' :: cs => (true, cs)
    | cs => (false, cs)
  match cs with
  | [] => .error .unfinished
  | c :: _ =>
      if !c.isDigit then .error .malformed
      else
        let g := gather maxExponent 0 0 0 cs
        if g.dropped = 0 then
          floatValue negative significand
            (if down then exponent - g.value else exponent + g.value) g.rest
        else if significand ≠ 0 ∧ !down then .error .malformed
        else floatValue negative 0 0 g.rest

/-- Whether a text begins with an exponent mark; the text after it. -/
def exponentMark? : List Char → Option (List Char)
  | c :: cs => if c = 'e' ∨ c = 'E' then some cs else none
  | [] => none

/-- Read what follows the point. -/
def fractionPart (negative : Bool) (significand : Nat) (exponent : Int) (cs : List Char) :
    Except Fault (Value × List Char) :=
  let g := gather maxSignificand significand 0 0 cs
  if g.taken = 0 ∧ g.dropped = 0 then .error (if cs.isEmpty then .unfinished else .malformed)
  else
    match exponentMark? g.rest with
    | some rest => exponentPart negative g.value (exponent - g.taken) rest
    | none => floatValue negative g.value (exponent - g.taken) g.rest

/-- Read what follows the whole digits, of which the last `dropped` did not fit. -/
def numberTail (negative : Bool) (significand dropped : Nat) (cs : List Char) :
    Except Fault (Value × List Char) :=
  match cs with
  | '.' :: rest => fractionPart negative significand dropped rest
  | _ =>
      match exponentMark? cs with
      | some rest => exponentPart negative significand dropped rest
      | none =>
          if dropped = 0 then wholeValue negative significand cs
          else floatValue negative significand dropped cs

/-- Read a number after its sign. A leading zero stands alone. -/
def number (negative : Bool) (cs : List Char) : Except Fault (Value × List Char) :=
  match cs with
  | [] => .error .unfinished
  | c :: rest =>
      match digit? c with
      | none => .error .malformed
      | some 0 =>
          if (rest.head?.bind digit?).isSome then .error .malformed
          else numberTail negative 0 0 rest
      | some d =>
          let g := gather maxSignificand d 0 0 rest
          numberTail negative g.value g.dropped g.rest

end Clearing.Json
