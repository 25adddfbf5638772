/-!
# The civil calendar

Days are counted from 1 January 1970 in the proleptic Gregorian calendar. The count works on years
that begin in March, so that the leap day is the last of its year; 400 such years have 146097 days.
A civil date exists exactly when it is the date of its own day number.
-/

namespace Clearing.Time

/-- A date by year, month and day of the month. -/
structure Civil where
  year : Int
  month : Int
  day : Int
  deriving DecidableEq, Repr

namespace Civil

/-- Days in 400 years. -/
def daysPerEra : Int := 146097

/-- Days from 1 March of year 0 to 1 January 1970. -/
def epochOffset : Int := 719468

/-- Days before the month, in a year that begins in March. -/
def daysBefore (month : Int) : Int := (153 * month + 2) / 5

/-- Days before the year, within 400 years. -/
def yearDays (year : Int) : Int := 365 * year + year / 4 - year / 100

/-- The number of a day, counted from 1 January 1970. -/
def dayNumber (c : Civil) : Int :=
  let year := if c.month ≤ 2 then c.year - 1 else c.year
  let month := (c.month + 9) % 12
  year / 400 * daysPerEra + yearDays (year % 400) + daysBefore month + c.day - 1 - epochOffset

/-- The date of a day number. -/
def ofDayNumber (n : Int) : Civil :=
  let z := n + epochOffset
  let dayOfEra := z % daysPerEra
  let yearOfEra :=
    (dayOfEra - dayOfEra / 1460 + dayOfEra / 36524 - dayOfEra / 146096) / 365
  let dayOfYear := dayOfEra - yearDays yearOfEra
  let shifted := (5 * dayOfYear + 2) / 153
  let month := if shifted < 10 then shifted + 3 else shifted - 9
  let year := z / daysPerEra * 400 + yearOfEra
  ⟨if month ≤ 2 then year + 1 else year, month, dayOfYear - daysBefore shifted + 1⟩

/-- The number of a date that exists. -/
def toDay? (c : Civil) : Option Int :=
  if ofDayNumber c.dayNumber = c then some c.dayNumber else none

end Civil

/-- The first day that an instant can have: 1 January -262143. -/
def firstDay : Int := -96465292

/-- The last day that an instant can have: 31 December 262142. -/
def lastDay : Int := 95026236

example : (⟨1970, 1, 1⟩ : Civil).dayNumber = 0 := by decide
example : (⟨-262143, 1, 1⟩ : Civil).dayNumber = firstDay := by decide
example : (⟨262142, 12, 31⟩ : Civil).dayNumber = lastDay := by decide
example : (⟨2023, 2, 29⟩ : Civil).toDay? = none := by decide
example : (⟨2000, 2, 29⟩ : Civil).toDay? = some 11016 := by decide

end Clearing.Time
