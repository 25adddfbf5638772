import Clearing.Time.Instant
import Clearing.Text.Blank
import Clearing.Text.Digits

/-!
# Texts of instants

An instant is written as date and time of day in universal time, `2026-01-01T00:00:00Z`, with three,
six or nine decimals of the second when there are any, and with a sign before a year that has not
four digits. It is read more freely: blanks may stand between the parts, numbers need no leading
zeros, the time may follow the date after a `t` or a blank, and the offset from universal time may
be `Z`, `UTC` or hours and minutes.
-/

namespace Clearing.Time

open Clearing.Text

/-- The text of a year. -/
def yearText (year : Int) : List Char :=
  if 0 ≤ year ∧ year ≤ 9999 then padded 4 year.natAbs
  else (if year < 0 then '-' else '+') :: atLeast 4 year.natAbs

/-- The decimals of the second, in groups of three and as few as are exact. -/
def fractionText (nano : Nat) : List Char :=
  if nano = 0 then []
  else if nano % 1000000 = 0 then '.' :: padded 3 (nano / 1000000)
  else if nano % 1000 = 0 then '.' :: padded 6 (nano / 1000)
  else '.' :: padded 9 nano

/-- The time of day; a leap second is second 60 of its minute. -/
def clockText (second nano : Nat) : List Char :=
  let extra := if nanosPerSecond ≤ nano then 1 else 0
  padded 2 (second / 3600) ++ ':' :: padded 2 (second / 60 % 60) ++ ':'
    :: padded 2 (second % 60 + extra) ++ fractionText (nano % nanosPerSecond)

/-- The characters of an instant. -/
def Instant.chars (t : Instant) : List Char :=
  let date := Civil.ofDayNumber t.day
  yearText date.year ++ '-' :: padded 2 date.month.natAbs ++ '-' :: padded 2 date.day.natAbs
    ++ 'T' :: clockText t.second t.nano ++ ['Z']

/-- The text of an instant. -/
def Instant.text (t : Instant) : String := String.ofList t.chars

instance : ToString Instant := ⟨Instant.text⟩

/-- Why a text is no instant. -/
inductive Malformed where
  /-- A number or the whole date is out of range. -/
  | outOfRange
  /-- The date leaves the calendar once it is moved to universal time. -/
  | impossible
  /-- The text ends too early. -/
  | tooShort
  /-- A character has no place where it stands. -/
  | invalid
  /-- Something follows the offset. -/
  | trailing
  deriving DecidableEq, Repr

/-- The wording of a malformed instant. -/
def Malformed.message : Malformed → String
  | .outOfRange => "input is out of range"
  | .impossible => "no possible date and time matching input"
  | .tooShort => "premature end of input"
  | .invalid => "input contains invalid characters"
  | .trailing => "trailing input"

/-- The largest number that a part may spell. -/
def maxNumber : Nat := pow2 63 - 1

/-- A number of at least one digit; of more than `width` digits the rest follows. -/
def number (width : Option Nat) (cs : List Char) : Except Malformed (Nat × List Char) :=
  let run := cs.takeWhile Char.isDigit
  let digits := match width with
    | some width => run.take width
    | none => run
  match cs with
  | [] => .error .tooShort
  | c :: _ =>
      if !c.isDigit then .error .invalid
      else if maxNumber < digitsValue digits then .error .outOfRange
      else .ok (digitsValue digits, cs.drop digits.length)

/-- A number after blanks that must lie between two bounds. -/
def field (width least greatest : Nat) (cs : List Char) : Except Malformed (Nat × List Char) := do
  let (n, rest) ← number (some width) (trimLeft cs)
  if least ≤ n ∧ n ≤ greatest then .ok (n, rest) else .error .outOfRange

/-- A year has up to four digits without a sign and any number of them with one. -/
def year (cs : List Char) : Except Malformed (Int × List Char) := do
  let (n, rest) ← match trimLeft cs with
    | '-' :: digits => (number none digits).map fun r => (-(r.1 : Int), r.2)
    | '+' :: digits => (number none digits).map fun r => ((r.1 : Int), r.2)
    | digits => (number (some 4) digits).map fun r => ((r.1 : Int), r.2)
  if -(pow2 31 : Int) ≤ n ∧ n < pow2 31 then .ok (n, rest) else .error .outOfRange

/-- One given character after blanks. -/
def mark (c : Char) (cs : List Char) : Except Malformed (List Char) :=
  match trimLeft cs with
  | [] => .error .tooShort
  | x :: rest => if x = c then .ok rest else .error .invalid

/-- The character between the date and the time of day. -/
def separator : List Char → Except Malformed (List Char)
  | [] => .error .tooShort
  | c :: rest => if c = 't' ∨ c = 'T' ∨ c = ' ' then .ok rest else .error .invalid

/-- The decimals of the second in nanoseconds; decimals after the ninth are left out. -/
def fraction : List Char → Except Malformed (Nat × List Char)
  | '.' :: cs => do
      let (n, rest) ← number (some 9) cs
      let read := cs.length - rest.length
      .ok (n * pow10 (9 - read), rest.dropWhile Char.isDigit)
  | cs => .ok (0, cs)

/-- The bytes of a text in UTF-8. -/
def byteLength : List Char → Nat
  | [] => 0
  | c :: cs => c.utf8Size + byteLength cs

/-- Two digits, as a number. -/
def twoDigits (cs : List Char) : Except Malformed ((Nat × Nat) × List Char) :=
  if byteLength cs < 2 then .error .tooShort
  else
    match cs with
    | a :: b :: rest =>
        match digit? a, digit? b with
        | some a, some b => .ok ((a, b), rest)
        | _, _ => .error .invalid
    | _ => .error .invalid

/-- Hours and minutes of an offset, in minutes. -/
def offsetMinutes (cs : List Char) : Except Malformed (Nat × List Char) := do
  let ((h, h'), rest) ← twoDigits cs
  let ((m, m'), rest) ← twoDigits (rest.dropWhile fun c => c == ':' || isBlank c)
  if 6 ≤ m then .error .outOfRange else .ok ((10 * h + h') * 60 + 10 * m + m', rest)

/-- The offset from universal time, in minutes. -/
def offset : List Char → Except Malformed (Int × List Char)
  | [] => .error .tooShort
  | c :: cs =>
      if c = 'Z' ∨ c = 'z' then .ok (0, cs)
      else if c = '+' then (offsetMinutes cs).map fun r => ((r.1 : Int), r.2)
      else if c = '-' ∨ c = '\u2212' then (offsetMinutes cs).map fun r => (-(r.1 : Int), r.2)
      else .error .invalid

/-- The offset, or the letters `UTC` in either case. -/
def zone (cs : List Char) : Except Malformed (Int × List Char) :=
  match cs with
  | u :: t :: c :: rest =>
      if u.toUpper = 'U' ∧ t.toUpper = 'T' ∧ c.toUpper = 'C' then .ok (0, rest) else offset cs
  | _ => offset cs

/-- A date and time of day as written, before the offset is applied. -/
structure Local where
  date : Civil
  second : Nat
  nano : Nat
  /-- Minutes that the written time is ahead of universal time. -/
  offset : Int
  deriving DecidableEq, Repr

/-- Read date, time of day and offset. Second 60 is the leap second after second 59. -/
def readLocal (cs : List Char) : Except Malformed Local := do
  let (y, cs) ← year cs
  let (mo, cs) ← field 2 1 12 (← mark '-' cs)
  let (d, cs) ← field 2 1 31 (← mark '-' cs)
  let (h, cs) ← field 2 0 23 (← separator cs)
  let (mi, cs) ← field 2 0 59 (← mark ':' cs)
  let (s, cs) ← field 2 0 60 (← mark ':' cs)
  let (nano, cs) ← fraction cs
  let (off, cs) ← zone (trimLeft cs)
  if (trimLeft cs).isEmpty then
    let leap := if s = 60 then 1 else 0
    .ok ⟨⟨y, mo, d⟩, h * 3600 + mi * 60 + (s - leap), nano + leap * nanosPerSecond, off⟩
  else .error .trailing

/-- Minutes in a day. -/
def minutesPerDay : Nat := 1440

/-- The day number of a written date in the range of the calendar. -/
def Local.day? (l : Local) : Option Int :=
  match l.date.toDay? with
  | some day => if firstDay ≤ day ∧ day ≤ lastDay then some day else none
  | none => none

/-- The instant of a written date and time. -/
def Local.toInstant (l : Local) : Except Malformed Instant :=
  match l.day? with
  | none => .error .outOfRange
  | some day =>
      if minutesPerDay ≤ l.offset.natAbs then .error .outOfRange
      else
        let second := (l.second : Int) - l.offset * 60
        match Instant.ofParts? (day + second / secondsPerDay) (second % secondsPerDay).toNat
            l.nano with
        | some t => .ok t
        | none => .error .impossible

/-- Read an instant. -/
def Instant.ofChars (cs : List Char) : Except Malformed Instant :=
  (readLocal cs).bind Local.toInstant

/-- Read an instant from a text. -/
def Instant.ofText (s : String) : Except Malformed Instant := Instant.ofChars s.toList

end Clearing.Time
