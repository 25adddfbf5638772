import Clearing.Json.Fields
import Clearing.Message.Basic

/-!
# Reading the fields of messages

Instants are texts. Money is a text or a number; a number with point or exponent is taken at its
shortest text. A check is named by a text, or by the only key of an object without content.
-/

namespace Clearing

open Clearing.Json Clearing.Text

/-- An instant. -/
def Time.Instant.decode : Decoder Time.Instant
  | .string s =>
      match Time.Instant.ofText s with
      | .ok t => .ok t
      | .error cause => .error (.instant cause)
  | v => .error (.invalidType v.description "an RFC 3339 formatted date and time string")

namespace Decimal

/-- What is expected where a decimal stands. -/
def expectation : String := "a Decimal type representing a fixed-point number"

/-- The decimal of a text inside a value. -/
def ofCharsIn (v : Value) (cs : List Char) : Except Mismatch Decimal :=
  match ofChars cs with
  | .ok d => .ok d
  | .error _ => .error (.invalidValue v.description expectation)

/-- A decimal. -/
def decode : Decoder Decimal
  | .string s => ofCharsIn (.string s) s.toList
  | .float x => ofCharsIn (.float x) x.plainText
  | .natural n => ofCharsIn (.natural n) (natDigits n)
  | .negative n => ofCharsIn (.negative n) ('-' :: natDigits n.natAbs)
  | v => .error (.invalidType v.description expectation)

end Decimal

/-- An amount. -/
def Amount.decode : Decoder Amount
  | v =>
      match Decimal.decode v with
      | .error cause => .error cause
      | .ok d =>
          match Amount.ofDecimal d with
          | .ok a => .ok a
          | .error fault => .error (.amount fault.message)

namespace Check

/-- The check of a name. -/
def ofName (s : String) : Except Mismatch Check :=
  match ofName? s with
  | some c => .ok c
  | none => .error (.unknownVariant s (all.map name))

/-- Insist that a value has no content. -/
def bare : Decoder Unit
  | .null => .ok ()
  | .object [] => .ok ()
  | v => .error (.invalidType v.description "unit")

/-- A check. -/
def decode : Decoder Check
  | .string s => ofName s
  | .object [(key, v)] => (ofName key).bind fun c => (bare v).map fun _ => c
  | .object es => .error (.invalidValue (Value.object es).description "map with a single key")
  | v => .error (.invalidType v.description "string or map")

end Check

end Clearing
