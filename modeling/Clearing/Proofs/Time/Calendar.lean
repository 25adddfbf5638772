import Clearing.Time.Calendar

/-!
# Dates of days

Every day number has a date with a month of the year and a day that a month can have, and is the
number of its date. Years and months begin in March here. Within 400 years the quotients that count
leap days are off by at most one from the years they stand for, which is all that the arithmetic
needs.
-/

namespace Clearing.Time.Civil

variable {n day : Int}

/-- The year of a day within 400 years. -/
def yearOfEra (day : Int) : Int := (day - day / 1460 + day / 36524 - day / 146096) / 365

/-- A day belongs to one of the 400 years, and to one of its at most 366 days. -/
theorem yearOfEra_spec (nonneg : 0 ≤ day) (lt : day < daysPerEra) :
    0 ≤ yearOfEra day ∧ yearOfEra day < 400 ∧ yearDays (yearOfEra day) ≤ day ∧
      day ≤ yearDays (yearOfEra day) + 365 := by
  obtain ⟨year, hyear⟩ : ∃ year, yearOfEra day = year := ⟨_, rfl⟩
  have hdef : year = (day - day / 1460 + day / 36524 - day / 146096) / 365 := hyear.symm
  -- the last day of the 400 years is the leap day that a century alone would not have
  have hquotients : 0 ≤ year ∧ year < 400 ∧ year / 100 = day / 36524 - day / 146096 ∧
      year / 4 ≤ day / 1460 ∧ day / 1460 ≤ year / 4 + 1 := by
    unfold daysPerEra at lt
    have hera : day / 146096 = 0 ∧ day ≤ 146095 ∨ day / 146096 = 1 ∧ day = 146096 := by omega
    rcases hera with ⟨hera, le⟩ | ⟨-, rfl⟩
    · have hcentury : day / 36524 = 0 ∨ day / 36524 = 1 ∨ day / 36524 = 2 ∨ day / 36524 = 3 := by
        omega
      rcases hcentury with hcentury | hcentury | hcentury | hcentury <;>
        rw [hcentury, hera] at hdef ⊢ <;> omega
    · omega
  obtain ⟨hzero, h400, hcentury, hleast, hmost⟩ := hquotients
  rw [hyear, yearDays]
  omega

/-- The month of a day within a year. -/
def monthOfYear (day : Int) : Int := (5 * day + 2) / 153

/-- A day belongs to one of the twelve months, and to one of its at most 31 days. -/
theorem monthOfYear_spec (nonneg : 0 ≤ day) (le : day ≤ 365) :
    0 ≤ monthOfYear day ∧ monthOfYear day < 12 ∧ daysBefore (monthOfYear day) ≤ day ∧
      day ≤ daysBefore (monthOfYear day) + 30 := by
  unfold monthOfYear daysBefore
  omega

/-- The parts of a day number: the 400 years, the year, the month and the day of the month, all
counted from zero and from March on. -/
structure Parts where
  era : Int
  year : Int
  month : Int
  day : Int
  year_nonneg : 0 ≤ year
  year_lt : year < 400
  month_nonneg : 0 ≤ month
  month_lt : month < 12
  day_nonneg : 0 ≤ day
  day_le : day ≤ 30

namespace Parts

/-- The date of the parts. -/
def date (p : Parts) : Civil :=
  let month := if p.month < 10 then p.month + 3 else p.month - 9
  ⟨if month ≤ 2 then p.era * 400 + p.year + 1 else p.era * 400 + p.year, month, p.day + 1⟩

/-- The number of the day that the parts give. -/
def number (p : Parts) : Int :=
  p.era * daysPerEra + yearDays p.year + daysBefore p.month + p.day - epochOffset

/-- The date of the parts has their number. -/
theorem dayNumber_date (p : Parts) : p.date.dayNumber = p.number := by
  obtain ⟨era, year, month, day, hyear, hyear', hmonth, hmonth', hday, hday'⟩ := p
  have hmonths : ((if month < 10 then month + 3 else month - 9) + 9) % 12 = month := by
    split <;> omega
  have hyears (y : Int) (hy : y = era * 400 + year) : y / 400 = era ∧ y % 400 = year := by omega
  simp only [dayNumber, date, number, hmonths]
  obtain ⟨hera, hrest⟩ := hyears _ rfl
  by_cases early : (if month < 10 then month + 3 else month - 9) ≤ 2
  · rw [if_pos early, if_pos early, Int.add_sub_cancel, hera, hrest]
    omega
  · rw [if_neg early, if_neg early, hera, hrest]
    omega

/-- Months and days are counted from one. -/
theorem date_range (p : Parts) :
    (1 ≤ p.date.month ∧ p.date.month ≤ 12) ∧ 1 ≤ p.date.day ∧ p.date.day ≤ 31 := by
  obtain ⟨era, year, month, day, hyear, hyear', hmonth, hmonth', hday, hday'⟩ := p
  simp only [date]
  constructor
  · split <;> omega
  · omega

end Parts

/-- Every day number has parts. -/
theorem exists_parts (n : Int) : ∃ p : Parts,
    ofDayNumber n = p.date ∧ p.number = n ∧ p.era = (n + epochOffset) / daysPerEra := by
  have hpos : (0 : Int) < daysPerEra := by decide
  obtain ⟨hyear, hyear', hfirst, hlast⟩ := yearOfEra_spec
    (Int.emod_nonneg (n + epochOffset) (Int.ne_of_gt hpos)) (Int.emod_lt_of_pos _ hpos)
  have hsplit := Int.mul_ediv_add_emod (n + epochOffset) daysPerEra
  generalize hrest : (n + epochOffset) % daysPerEra = rest at *
  have hfirstDay : 0 ≤ rest - yearDays (yearOfEra rest) := by omega
  obtain ⟨hmonth, hmonth', hstart, hend⟩ := monthOfYear_spec hfirstDay (by omega)
  refine ⟨⟨(n + epochOffset) / daysPerEra, yearOfEra rest,
    monthOfYear (rest - yearDays (yearOfEra rest)),
    rest - yearDays (yearOfEra rest) - daysBefore (monthOfYear (rest - yearDays (yearOfEra rest))),
    hyear, hyear', hmonth, hmonth', by omega, by omega⟩, ?_, ?_, rfl⟩
  · subst hrest
    rfl
  · rw [Int.mul_comm] at hsplit
    simp only [Parts.number]
    omega

/-- A day is the day of its date. -/
theorem toDay?_ofDayNumber (n : Int) : (ofDayNumber n).toDay? = some n := by
  obtain ⟨p, hdate, hnumber, -⟩ := exists_parts n
  have hday : (ofDayNumber n).dayNumber = n := by rw [hdate, p.dayNumber_date, hnumber]
  rw [toDay?, hday, if_pos rfl]

/-- The month and the day of a date are counted from one. -/
theorem ofDayNumber_range (n : Int) : (1 ≤ (ofDayNumber n).month ∧ (ofDayNumber n).month ≤ 12) ∧
    1 ≤ (ofDayNumber n).day ∧ (ofDayNumber n).day ≤ 31 := by
  obtain ⟨p, hdate, -⟩ := exists_parts n
  rw [hdate]
  exact p.date_range

/-- The year of a day that an instant can have has six digits at most. -/
theorem ofDayNumber_year (first : firstDay ≤ n) (last : n ≤ lastDay) :
    -999999 ≤ (ofDayNumber n).year ∧ (ofDayNumber n).year ≤ 999999 := by
  obtain ⟨p, hdate, -, hera⟩ := exists_parts n
  have hyear := p.year_nonneg
  have hyear' := p.year_lt
  have hbounds : -657 ≤ p.era ∧ p.era ≤ 656 := by
    unfold epochOffset daysPerEra at hera
    unfold firstDay at first
    unfold lastDay at last
    omega
  rw [hdate, Parts.date]
  split <;> dsimp only <;> split <;> omega

end Clearing.Time.Civil
