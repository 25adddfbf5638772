import Clearing.Json.Writer
import Clearing.Message.Reader

/-!
# Writing messages

A message is written as an object on one line. The kind comes first and every field is given, null
where it is missing.
-/

namespace Clearing.Message

open Clearing.Json

/-- A text. -/
def textAtom (s : String) : Atom := .string s.toList

/-- An instant. -/
def timeAtom (t : Time.Instant) : Atom := .string t.chars

/-- A value that may be missing. -/
def optionAtom {α : Type} (write : α → Atom) (x : Option α) : Atom := x.elim .null write

/-- The kind of a message. -/
def kind : Message → Kind
  | .submit _ => .submit
  | .check _ => .check
  | .confirm _ _ => .confirm
  | .sweep _ => .sweep

/-- The fields of a message in their order. -/
def fields : Message → List (String × Atom)
  | .submit s =>
      [("request_id", textAtom s.requestId), ("amount", textAtom s.amount.text),
        ("payer", textAtom s.payer), ("payee", textAtom s.payee),
        ("created_at", optionAtom timeAtom s.createdAt)]
  | .check r =>
      [("request_id", textAtom r.requestId), ("occurred_at", timeAtom r.occurredAt),
        ("check_type", textAtom r.check.name), ("failed", .bool r.failed),
        ("reason", optionAtom textAtom r.reason)]
  | .confirm d time =>
      [("request_id", textAtom d.requestId), ("confirmed", .bool d.confirmed),
        ("at", optionAtom timeAtom time)]
  | .sweep time => [("at", timeAtom time)]

/-- The entries of a message. -/
def entries (m : Message) : List (String × Atom) := (kindKey, textAtom m.kind.name) :: m.fields

/-- The line of a message, without its end. -/
def lineText (m : Message) : List Char := objectText m.entries

/-- The text of messages, one on each line. -/
def linesText (ms : List Message) : List Char := ms.flatMap fun m => m.lineText ++ ['\n']

end Clearing.Message
