import Clearing.Number.Power
import Clearing.Time.Calendar

/-!
# Instants

A point in universal time: a day, a second of that day and the nanoseconds since that second began.
A leap second is more than a second's worth of nanoseconds. It follows the last second of a minute
in every text, but an instant may have one after any second of the day. Between two instants of
different seconds of the day a leap second counts as one second when it lies between them.
-/

namespace Clearing.Time

/-- Nanoseconds in a second. -/
def nanosPerSecond : Nat := 1000000000

/-- Seconds in a day. -/
def secondsPerDay : Nat := 86400

/-- A point in time. -/
structure Instant where
  /-- The day, counted from 1 January 1970. -/
  day : Int
  /-- The second of the day. -/
  second : Nat
  /-- The nanoseconds since the second began, a whole second more in a leap second. -/
  nano : Nat
  firstDay_le : firstDay ≤ day
  le_lastDay : day ≤ lastDay
  second_lt : second < secondsPerDay
  nano_lt : nano < 2 * nanosPerSecond
  deriving DecidableEq, Repr

namespace Instant

/-- The instant of three parts, if they are in range. -/
def ofParts? (day : Int) (second nano : Nat) : Option Instant :=
  if h : firstDay ≤ day ∧ day ≤ lastDay ∧ second < secondsPerDay ∧ nano < 2 * nanosPerSecond then
    some ⟨day, second, nano, h.1, h.2.1, h.2.2.1, h.2.2.2⟩
  else none

/-- The beginning of 1 January 1970. -/
def epoch : Instant :=
  ⟨0, 0, 0, by decide, by decide, by decide, by decide⟩

instance : Inhabited Instant := ⟨epoch⟩

/-- Whether an instant lies in a leap second. -/
def InLeapSecond (t : Instant) : Prop := nanosPerSecond ≤ t.nano

instance (t : Instant) : Decidable t.InLeapSecond := inferInstanceAs (Decidable (_ ≤ _))

/-- Whether the leap second that an instant lies in, if any, ends a minute. -/
def OnMinute (t : Instant) : Prop := t.InLeapSecond → t.second % 60 = 59

instance (t : Instant) : Decidable t.OnMinute := inferInstanceAs (Decidable (_ → _))

/-- Earlier, by day, then second, then nanosecond. -/
def lt (a b : Instant) : Prop :=
  a.day < b.day ∨ a.day = b.day ∧ (a.second < b.second ∨ a.second = b.second ∧ a.nano < b.nano)

instance : LT Instant := ⟨lt⟩

/-- Not later. -/
def le (a b : Instant) : Prop := a < b ∨ a = b

instance : LE Instant := ⟨le⟩

instance (a b : Instant) : Decidable (a < b) :=
  inferInstanceAs (Decidable (a.day < b.day ∨ a.day = b.day ∧
    (a.second < b.second ∨ a.second = b.second ∧ a.nano < b.nano)))

instance (a b : Instant) : Decidable (a ≤ b) := inferInstanceAs (Decidable (a < b ∨ a = b))

/-- The leap second that a span between two seconds of the day holds beyond the seconds' numbers. -/
def leapSeconds (later earlier : Instant) : Int :=
  if earlier.second < later.second then (if nanosPerSecond ≤ earlier.nano then 1 else 0)
  else if later.second < earlier.second then (if nanosPerSecond ≤ later.nano then -1 else 0)
  else 0

/-- Nanoseconds from the second instant to the first, negative when the first is earlier. -/
def nanosSince (later earlier : Instant) : Int :=
  ((later.day - earlier.day) * secondsPerDay + ((later.second : Int) - earlier.second)
      + leapSeconds later earlier) * nanosPerSecond
    + ((later.nano : Int) - earlier.nano)

/-- Whole seconds from the second instant to the first, rounded toward zero. -/
def secondsSince (later earlier : Instant) : Int :=
  Int.tdiv (nanosSince later earlier) nanosPerSecond

/-- The longest span in seconds that can be added to an instant: its milliseconds have 63 bits. -/
def maxSpan : Nat := (pow2 63 - 1) / 1000

/-- The instant a number of seconds later, if there is one. A leap second is left as soon as a
second is added. -/
def addSeconds? (t : Instant) (seconds : Nat) : Option Instant :=
  if maxSpan < seconds then none
  else if seconds = 0 then some t
  else
    let nano := if nanosPerSecond ≤ t.nano then t.nano - nanosPerSecond else t.nano
    let total := t.second + seconds
    ofParts? (t.day + ((total / secondsPerDay : Nat) : Int)) (total % secondsPerDay) nano

end Instant

end Clearing.Time
