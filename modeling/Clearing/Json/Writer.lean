import Clearing.Text.Digits

/-!
# Writing JSON

Objects are written without space, their entries in the given order. In a string the quote, the
backslash and the controls below the space are escaped, and nothing else is.
-/

namespace Clearing.Json

open Clearing.Text

/-- The characters that stand for one character of a string. -/
def escaped (c : Char) : List Char :=
  match c with
  | '"' => ['\\', '"']
  | '\\' => ['\\', '\\']
  | '\x08' => ['\\', 'b']
  | '\t' => ['\\', 't']
  | '\n' => ['\\', 'n']
  | '\x0c' => ['\\', 'f']
  | '\r' => ['\\', 'r']
  | c =>
      if c.toNat < 0x20 then
        ['\\', 'u', '0', '0', Nat.digitChar (c.toNat / 16), Nat.digitChar (c.toNat % 16)]
      else [c]

/-- A string between its quotes. -/
def stringText (cs : List Char) : List Char := '"' :: cs.flatMap escaped ++ ['"']

/-- The values that messages hold. -/
inductive Atom where
  | null
  | bool (b : Bool)
  | string (cs : List Char)
  deriving DecidableEq, Repr

/-- The text of such a value. -/
def Atom.chars : Atom → List Char
  | .null => ['n', 'u', 'l', 'l']
  | .bool true => ['t', 'r', 'u', 'e']
  | .bool false => ['f', 'a', 'l', 's', 'e']
  | .string cs => stringText cs

/-- The text of one entry. -/
def entryText (entry : String × Atom) : List Char :=
  stringText entry.1.toList ++ ':' :: entry.2.chars

/-- The text of entries, with commas between them. -/
def entriesText : List (String × Atom) → List Char
  | [] => []
  | [entry] => entryText entry
  | entry :: rest => entryText entry ++ ',' :: entriesText rest

/-- The text of an object. -/
def objectText (entries : List (String × Atom)) : List Char :=
  '{' :: entriesText entries ++ ['}']

end Clearing.Json
