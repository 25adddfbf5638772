import Clearing.Json.Reader

/-!
# Reading fields of values

What a value means at its place: texts, truth values, and optional ones. The fields of a record are
read entry by entry; a field may be given once, and one without a default has to be given.
-/

namespace Clearing.Json

/-- A way to read a value. -/
abbrev Decoder (α : Type) : Type := Value → Except Mismatch α

/-- A text. -/
def text : Decoder String
  | .string s => .ok s
  | v => .error (.invalidType v.description "a string")

/-- A truth value. -/
def truth : Decoder Bool
  | .bool b => .ok b
  | v => .error (.invalidType v.description "a boolean")

/-- A value that may be null. -/
def nullable {α : Type} (decode : Decoder α) : Decoder (Option α)
  | .null => .ok none
  | v => (decode v).map some

/-- Fill a field that has not been given yet. -/
def fill {α : Type} (name : String) (slot : Option α) (decode : Decoder α) (v : Value) :
    Except Mismatch (Option α) :=
  match slot with
  | some _ => .error (.duplicateField name)
  | none => (decode v).map some

/-- The value of a field that has to be given. -/
def demand {α : Type} (name : String) : Option α → Except Mismatch α
  | some a => .ok a
  | none => .error (.missingField name)

/-- The next item of a sequence that may not end yet. -/
def nextField {α : Type} (index : Nat) (expected : String) (decode : Decoder α) :
    List Value → Except Mismatch (α × List Value)
  | [] => .error (.invalidLength index expected)
  | v :: rest => (decode v).map (·, rest)

/-- The next item of a sequence that may end before it. -/
def nextDefault {α : Type} (fallback : α) (decode : Decoder α) :
    List Value → Except Mismatch (α × List Value)
  | [] => .ok (fallback, [])
  | v :: rest => (decode v).map (·, rest)

/-- Insist that a sequence ends after `count` items. -/
def endAfter (count : Nat) (rest : List Value) : Except Mismatch Unit :=
  if rest.isEmpty then .ok ()
  else
    let noun := if count = 1 then " element in sequence" else " elements in sequence"
    .error (.invalidLength (count + rest.length) (toString count ++ noun))

/-- Take a mismatch for a fault. -/
def fits {α : Type} : Except Mismatch α → Except Fault α
  | .ok a => .ok a
  | .error cause => .error (.mismatch cause)

/-- Read a text that holds one field and nothing else. A container is refused once it is opened. -/
def Decoder.read {α : Type} (decode : Decoder α) (cs : List Char) : Except Fault α := do
  let (v, rest) ← opened cs
  let a ← fits (decode v)
  if atEnd rest then .ok a else .error .malformed

end Clearing.Json
