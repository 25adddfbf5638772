import Clearing.Double.Shortest
import Clearing.Text.Quoted
import Clearing.Time.Text

/-!
# JSON values

A value as it was read, entries of an object in their order, and the faults of reading one: a text
that ends too early, a text that is no JSON, and a value that is not what was expected at its place.
-/

namespace Clearing.Json

open Clearing.Text

/-- A JSON value. A number is whole when it is written without point and exponent and fits 64
bits. -/
inductive Value where
  | null
  | bool (b : Bool)
  | natural (n : Nat)
  | negative (n : Int)
  | float (x : Double)
  | string (s : String)
  | array (items : List Value)
  | object (entries : List (String × Value))
  deriving Repr, Inhabited

/-- How a value is called where another was expected. -/
def Value.description : Value → String
  | .null => "null"
  | .bool b => "boolean `" ++ toString b ++ "`"
  | .natural n => "integer `" ++ toString n ++ "`"
  | .negative n => "integer `" ++ toString n ++ "`"
  | .float x => "floating point `" ++ String.ofList x.markedText ++ "`"
  | .string s => "string " ++ quoted s
  | .array _ => "sequence"
  | .object _ => "map"

/-- Why a value does not fit its place. -/
inductive Mismatch where
  /-- A value of another kind. -/
  | invalidType (found expected : String)
  /-- A value of the right kind that means nothing here. -/
  | invalidValue (found expected : String)
  /-- Too few or too many items. -/
  | invalidLength (length : Nat) (expected : String)
  | missingField (name : String)
  | duplicateField (name : String)
  /-- A name that is none of the known ones. -/
  | unknownVariant (name : String) (known : List String)
  /-- A text that is no instant. -/
  | instant (cause : Time.Malformed)
  /-- A number that is no amount of money, with its own wording. -/
  | amount (message : String)
  deriving DecidableEq, Repr

/-- A name between backticks. -/
def marked (name : String) : String := "`" ++ name ++ "`"

/-- The wording of a mismatch. -/
def Mismatch.message : Mismatch → String
  | .invalidType found expected => "invalid type: " ++ found ++ ", expected " ++ expected
  | .invalidValue found expected => "invalid value: " ++ found ++ ", expected " ++ expected
  | .invalidLength length expected =>
      "invalid length " ++ toString length ++ ", expected " ++ expected
  | .missingField name => "missing field " ++ marked name
  | .duplicateField name => "duplicate field " ++ marked name
  | .unknownVariant name known =>
      "unknown variant " ++ marked name ++ ", expected one of "
        ++ String.intercalate ", " (known.map marked)
  | .instant cause => cause.message
  | .amount message => message

/-- Why a text could not be read. -/
inductive Fault where
  /-- The text ends inside a value. -/
  | unfinished
  /-- The text is no JSON. -/
  | malformed
  /-- The text holds a value that does not fit. -/
  | mismatch (cause : Mismatch)
  deriving DecidableEq, Repr

end Clearing.Json
