import Clearing.Decimal.Basic
import Clearing.Text.Digits

/-!
# Decimal texts

A decimal is written with all its places and never with an exponent. It is read with an optional
sign, a point anywhere among the digits, underscores after the first digit and an optional exponent.
Places that a decimal cannot hold are rounded by the first of them, a half going up, and what
follows that place is not looked at.
-/

namespace Clearing.Decimal

open Clearing.Text

/-- The text of a magnitude with `scale` places. -/
def magnitudeText (n scale : Nat) : List Char :=
  if scale = 0 then natDigits n
  else natDigits (n / pow10 scale) ++ '.' :: padded scale (n % pow10 scale)

/-- The text of a decimal. -/
def text (d : Decimal) : String :=
  let digits := magnitudeText d.coefficient.natAbs d.scale
  String.ofList (if d.coefficient < 0 then '-' :: digits else digits)

instance : ToString Decimal := ⟨text⟩

/-- Why a text is no decimal. -/
inductive Malformed where
  /-- There is no character at all. -/
  | empty
  /-- There is no digit. -/
  | noDigits
  /-- A character has no place in a number. -/
  | unknownCharacter
  /-- A second point. -/
  | twoPoints
  /-- An underscore before the first digit. -/
  | leadingSeparator
  /-- The whole part is too large. -/
  | tooManyDigits
  /-- Rounding carries the whole part beyond its limit. -/
  | roundedTooLarge
  /-- What follows the exponent mark is no exponent. -/
  | exponent
  /-- The exponent is larger than every scale or asks for more places than a decimal has. -/
  | scaleTooLarge (scale : Nat)
  /-- The exponent makes the number too large. -/
  | tooLarge
  deriving DecidableEq, Repr

/-- The wording of a malformed decimal. -/
def Malformed.message : Malformed → String
  | .empty => "Invalid decimal: empty"
  | .noDigits => "Invalid decimal: no digits found"
  | .unknownCharacter => "Invalid decimal: unknown character"
  | .twoPoints => "Invalid decimal: two decimal points"
  | .leadingSeparator => "Invalid decimal: must start lead with a number"
  | .tooManyDigits => "Invalid decimal: overflow from too many digits"
  | .roundedTooLarge => "Invalid decimal: overflow from mantissa after rounding"
  | .exponent => "Failed to parse"
  | .scaleTooLarge scale =>
      s!"Scale exceeds the maximum precision allowed: {scale} > {maxScale}"
  | .tooLarge => "Number exceeds maximum value that can be represented."

/-- A magnitude `digits / 10 ^ scale` as it is being read. -/
structure Magnitude where
  digits : Nat
  scale : Nat
  deriving DecidableEq, Repr

/-- Round by the first digit that is left out. A carry beyond the limit gives up one more place. -/
def Magnitude.roundBy (m : Magnitude) (next : Nat) : Except Malformed Magnitude :=
  if next < 5 then .ok m
  else if m.digits + 1 < coefficientBound then .ok ⟨m.digits + 1, m.scale⟩
  else if m.scale = 0 then .error .roundedTooLarge
  else .ok ⟨(m.digits + 5) / 10, m.scale - 1⟩

/-- What is wrong with a character that is no digit where none but a digit is expected. -/
def misplaced (c : Char) : Malformed :=
  if c = '.' then .twoPoints else if c = '_' then .leadingSeparator else .unknownCharacter

/-- Round by the character after the last place that a decimal has; an underscore counts as zero. -/
def Magnitude.roundByChar (m : Magnitude) (c : Char) : Except Malformed Magnitude :=
  match digit? c with
  | some d => m.roundBy d
  | none => if c = '_' then .ok m else .error (misplaced c)

/-- Read the digits after the sign. `point` tells whether the point was met and `any` whether a
digit was. -/
def readMagnitude (m : Magnitude) (point any : Bool) : List Char → Except Malformed Magnitude
  | [] => if any then .ok m else .error .noDigits
  | c :: rest =>
      match digit? c with
      | some d =>
          let digits := 10 * m.digits + d
          if coefficientBound ≤ digits then
            if point then m.roundBy d else .error .tooManyDigits
          else
            let m' := ⟨digits, if point then m.scale + 1 else m.scale⟩
            match rest with
            | next :: _ =>
                if point && maxScale ≤ m'.scale then m'.roundByChar next
                else readMagnitude m' point true rest
            | [] => .ok m'
      | none =>
          if c = '.' && !point then readMagnitude m true any rest
          else if c = '_' && any then readMagnitude m point any rest
          else .error (misplaced c)

/-- The decimal of a sign and a magnitude. -/
def Magnitude.toDecimal (m : Magnitude) (negative : Bool) : Except Malformed Decimal :=
  match ofParts? (if negative then -(m.digits : Int) else m.digits) m.scale with
  | some d => .ok d
  | none => .error .tooLarge

/-- Read a number without an exponent. -/
def readPlain (cs : List Char) : Except Malformed Decimal :=
  match cs with
  | [] => .error .empty
  | c :: rest =>
      let signed := c = '-' || c = '+'
      (readMagnitude ⟨0, 0⟩ false false (if signed then rest else cs)).bind (·.toDecimal (c = '-'))

/-- The largest exponent that can be written. -/
def maxExponent : Nat := pow2 32 - 1

/-- Multiply by a power of ten, by shifting the point to the right. The power is not larger than the
largest scale, not even for zero. -/
def raise (d : Decimal) (exponent : Nat) : Except Malformed Decimal :=
  if maxScale < exponent then .error (.scaleTooLarge exponent)
  else
    let shifted := if exponent ≤ d.scale then ofParts? d.coefficient (d.scale - exponent)
      else ofParts? (d.coefficient * pow10 (exponent - d.scale)) 0
    match shifted with
    | some d => .ok d
    | none => .error .tooLarge

/-- Divide by a power of ten, by shifting the point to the left. -/
def lower (d : Decimal) (exponent : Nat) : Except Malformed Decimal :=
  match ofParts? d.coefficient (d.scale + exponent) with
  | some d => .ok d
  | none => .error (.scaleTooLarge (d.scale + exponent))

/-- Shift the point as an exponent text says. -/
def applyExponent (d : Decimal) (exponent : List Char) : Except Malformed Decimal :=
  match exponent with
  | '-' :: digits =>
      match readWhole? maxExponent digits with
      | some e => d.lower e
      | none => .error .exponent
  | digits =>
      match readWhole? maxExponent digits with
      | some e => d.raise e
      | none => .error .exponent

/-- The mark before an exponent. -/
def isExponentMark (c : Char) : Bool := c = 'e' || c = 'E'

/-- Read a decimal. -/
def ofChars (cs : List Char) : Except Malformed Decimal :=
  let base := cs.takeWhile (!isExponentMark ·)
  match cs.dropWhile (!isExponentMark ·) with
  | [] => readPlain cs
  | _ :: exponent => (readPlain base).bind (·.applyExponent exponent)

/-- Read a decimal from a text. -/
def ofText (s : String) : Except Malformed Decimal := ofChars s.toList

end Clearing.Decimal
