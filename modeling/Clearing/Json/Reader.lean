import Clearing.Json.Number

/-!
# Reading JSON

A value is read from the front of a text and the rest is handed on. Containers may be nested to a
limit, which is the argument that the recursion of `value` runs on; the items of one container are
counted against the characters that are left.
-/

namespace Clearing.Json

open Clearing.Text

/-- The characters that may stand between the parts of a value. -/
def isSpace (c : Char) : Bool := c = ' ' || c = '\t' || c = '\n' || c = '\r'

/-- Drop the space in front. -/
def skipSpace (cs : List Char) : List Char := cs.dropWhile isSpace

/-- Whether nothing but space is left. -/
def atEnd (cs : List Char) : Bool := cs.all isSpace

/-- The rest of a word whose first letter was met. -/
def word : (expected cs : List Char) → Except Fault (List Char)
  | [], cs => .ok cs
  | _ :: _, [] => .error .unfinished
  | e :: expected, c :: cs => if e = c then word expected cs else .error .malformed

/-- The value of a hexadecimal digit. -/
def hexDigit? (c : Char) : Option Nat :=
  if c.isDigit then some (c.toNat - '0'.toNat)
  else if 'a' ≤ c ∧ c ≤ 'f' then some (c.toNat - 'a'.toNat + 10)
  else if 'A' ≤ c ∧ c ≤ 'F' then some (c.toNat - 'A'.toNat + 10) else none

/-- Four hexadecimal digits. A text of fewer than four bytes ends too early. -/
def hexQuad (cs : List Char) : Except Fault (Nat × List Char) :=
  if Time.byteLength cs < 4 then .error .unfinished
  else
    match cs with
    | a :: b :: c :: d :: rest =>
        match hexDigit? a, hexDigit? b, hexDigit? c, hexDigit? d with
        | some a, some b, some c, some d => .ok (((a * 16 + b) * 16 + c) * 16 + d, rest)
        | _, _, _, _ => .error .malformed
    | _ => .error .malformed

/-- The second half of a character outside the basic plane. -/
def lowSurrogate (high : Nat) (cs : List Char) : Except Fault (Char × List Char) := do
  let cs ← word ['\\', 'u'] cs
  let (low, cs) ← hexQuad cs
  if 0xDC00 ≤ low ∧ low ≤ 0xDFFF then
    .ok (Char.ofNat ((high - 0xD800) * 0x400 + (low - 0xDC00) + 0x10000), cs)
  else .error .malformed

/-- A character by its code unit, or by two for one outside the basic plane. -/
def codeUnit (cs : List Char) : Except Fault (Char × List Char) := do
  let (n, cs) ← hexQuad cs
  if 0xDC00 ≤ n ∧ n ≤ 0xDFFF then .error .malformed
  else if 0xD800 ≤ n ∧ n ≤ 0xDBFF then lowSurrogate n cs
  else .ok (Char.ofNat n, cs)

/-- What follows a backslash. -/
def escape : List Char → Except Fault (Char × List Char)
  | [] => .error .unfinished
  | c :: cs =>
      match c with
      | '"' => .ok ('"', cs)
      | '\\' => .ok ('\\', cs)
      | '/' => .ok ('/', cs)
      | 'b' => .ok ('\x08', cs)
      | 'f' => .ok ('\x0c', cs)
      | 'n' => .ok ('\n', cs)
      | 'r' => .ok ('\r', cs)
      | 't' => .ok ('\t', cs)
      | 'u' => codeUnit cs
      | _ => .error .malformed

/-- The characters of a string up to its closing quote, each of which takes at least one of the
`fuel` characters left. -/
def stringChars : (fuel : Nat) → List Char → Except Fault (List Char × List Char)
  | 0, _ => .error .unfinished
  | _ + 1, [] => .error .unfinished
  | fuel + 1, c :: cs =>
      if c = '"' then .ok ([], cs)
      else if c = '\\' then do
        let (x, cs) ← escape cs
        let (xs, cs) ← stringChars fuel cs
        .ok (x :: xs, cs)
      else if c.toNat < 0x20 then .error .malformed
      else do
        let (xs, cs) ← stringChars fuel cs
        .ok (c :: xs, cs)

/-- A string after its opening quote. -/
def string (cs : List Char) : Except Fault (String × List Char) :=
  (stringChars (cs.length + 1) cs).map fun r => (String.ofList r.1, r.2)

/-- A value, given how to go on after the first character of a container. -/
def valueWith (container : Char → List Char → Except Fault (Value × List Char))
    (cs : List Char) : Except Fault (Value × List Char) :=
  match skipSpace cs with
  | [] => .error .unfinished
  | c :: rest =>
      if c = 'n' then (word ['u', 'l', 'l'] rest).map fun cs => (.null, cs)
      else if c = 't' then (word ['r', 'u', 'e'] rest).map fun cs => (.bool true, cs)
      else if c = 'f' then (word ['a', 'l', 's', 'e'] rest).map fun cs => (.bool false, cs)
      else if c = '-' then number true rest
      else if c.isDigit then number false (c :: rest)
      else if c = '"' then (string rest).map fun r => (.string r.1, r.2)
      else if c = '[' ∨ c = '{' then container c rest
      else .error .malformed

/-- Go to the next item of an array; `none` after the last one. -/
def nextItem (first : Bool) (cs : List Char) : Except Fault (Bool × List Char) :=
  match skipSpace cs with
  | [] => .error .unfinished
  | c :: rest =>
      if c = ']' then .ok (false, rest)
      else if first then .ok (true, c :: rest)
      else if c = ',' then
        match skipSpace rest with
        | [] => .error .unfinished
        | x :: rest => if x = ']' then .error .malformed else .ok (true, x :: rest)
      else .error .malformed

/-- Go past the colon after a key. -/
def colon (cs : List Char) : Except Fault (List Char) :=
  match skipSpace cs with
  | [] => .error .unfinished
  | c :: rest => if c = ':' then .ok rest else .error .malformed

/-- Go past the comma between two entries; the text begins with the quote of a key. -/
def openKey (first : Bool) : List Char → Except Fault (List Char)
  | [] => .error .unfinished
  | c :: rest =>
      if first then if c = '"' then .ok rest else .error .malformed
      else if c = ',' then
        match skipSpace rest with
        | [] => .error .unfinished
        | x :: rest => if x = '"' then .ok rest else .error .malformed
      else .error .malformed

/-- Go to the next value of an object, past its key and colon; `none` after the last entry. -/
def nextKey (first : Bool) (cs : List Char) : Except Fault (Option String × List Char) :=
  match skipSpace cs with
  | '}' :: rest => .ok (none, rest)
  | cs => do
      let cs ← openKey first cs
      let (key, cs) ← string cs
      let cs ← colon cs
      .ok (some key, cs)

/-- The items up to the end of an array. -/
def items (item : List Char → Except Fault (Value × List Char)) :
    (fuel : Nat) → (first : Bool) → List Char → Except Fault (List Value × List Char)
  | 0, _, _ => .error .unfinished
  | fuel + 1, first, cs => do
      let (more, cs) ← nextItem first cs
      if more then
        let (v, cs) ← item cs
        let (vs, cs) ← items item fuel false cs
        .ok (v :: vs, cs)
      else .ok ([], cs)

/-- The entries up to the end of an object. -/
def entries (item : List Char → Except Fault (Value × List Char)) :
    (fuel : Nat) → (first : Bool) → List Char →
      Except Fault (List (String × Value) × List Char)
  | 0, _, _ => .error .unfinished
  | fuel + 1, first, cs => do
      let (key?, cs) ← nextKey first cs
      match key? with
      | none => .ok ([], cs)
      | some key =>
          let (v, cs) ← item cs
          let (vs, cs) ← entries item fuel false cs
          .ok ((key, v) :: vs, cs)

/-- A container after its first character. -/
def container (item : List Char → Except Fault (Value × List Char)) (c : Char)
    (cs : List Char) : Except Fault (Value × List Char) :=
  if c = '[' then (items item (cs.length + 1) true cs).map fun r => (.array r.1, r.2)
  else (entries item (cs.length + 1) true cs).map fun r => (.object r.1, r.2)

/-- A value in which containers are nested up to `depth` deep. -/
def value : (depth : Nat) → List Char → Except Fault (Value × List Char)
  | 0 => valueWith fun _ _ => .error .malformed
  | depth + 1 => valueWith (container (value depth))

/-- How deep containers may be nested. -/
def maxDepth : Nat := 127

/-- A value of which a container is only opened and left unread. -/
def opened (cs : List Char) : Except Fault (Value × List Char) :=
  valueWith (fun c rest => .ok (if c = '[' then .array [] else .object [], rest)) cs

end Clearing.Json
