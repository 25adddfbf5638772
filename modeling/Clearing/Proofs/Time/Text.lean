import Clearing.Proofs.Text.Blank
import Clearing.Proofs.Text.Digits
import Clearing.Proofs.Time.Calendar
import Clearing.Time.Text

/-!
# Texts of instants read back

Every part of the text of an instant is a number of its own width, followed by a character that is
no digit, so the reading finds each part where it was written: years with and without a sign,
decimals of the second in groups of three, and second 60 for a leap second. A leap second that ends
no minute has no text of its own. It is written as the second that comes next, and that is what is
read.
-/

namespace Clearing.Time

open Clearing.Text

variable {ds rest : List Char}

/-- Whether a text begins with no digit. -/
def Undigited (cs : List Char) : Prop := ∀ c ∈ cs.head?, c.isDigit = false

/-- Digits that end where the text goes on with something else are read as their number. -/
theorem number_digits {width : Option Nat} (digits : AllDigits ds) (some : ds ≠ [])
    (short : ∀ w ∈ width, ds.length ≤ w) (ends : Undigited rest)
    (fits : digitsValue ds ≤ maxNumber) :
    number width (ds ++ rest) = .ok (digitsValue ds, rest) := by
  have hrest : rest.takeWhile Char.isDigit = [] := by
    cases rest with
    | nil => rfl
    | cons c rest => exact List.takeWhile_cons_of_neg (Bool.eq_false_iff.mp (ends c rfl))
  have hrun : (ds ++ rest).takeWhile Char.isDigit = ds := by
    rw [List.takeWhile_append_of_pos digits, hrest, List.append_nil]
  obtain ⟨c, more, rfl⟩ := List.exists_cons_of_ne_nil some
  have hc := digits c List.mem_cons_self
  have hdrop : (c :: (more ++ rest)).drop (c :: more).length = rest := List.drop_left
  rw [List.cons_append] at hrun ⊢
  cases width with
  | none =>
    simp only [number, hrun, hc, Bool.not_true, Bool.false_eq_true, if_false,
      if_neg (Nat.not_lt.mpr fits), hdrop]
  | some w =>
    have htake : (c :: more).take w = c :: more := List.take_of_length_le (short w rfl)
    simp only [number, hrun, htake, hc, Bool.not_true, Bool.false_eq_true, if_false,
      if_neg (Nat.not_lt.mpr fits), hdrop]

theorem trimLeft_digits (digits : AllDigits ds) (some : ds ≠ []) (rest : List Char) :
    trimLeft (ds ++ rest) = ds ++ rest := by
  obtain ⟨c, more, rfl⟩ := List.exists_cons_of_ne_nil some
  have hc := isBlank_of_isDigit (digits c List.mem_cons_self)
  exact List.dropWhile_cons_of_neg (Bool.eq_false_iff.mp hc)

/-- A text that begins with a digit begins with nothing else. -/
theorem digits_append_ne_cons (digits : AllDigits ds) (some : ds ≠ []) {c : Char}
    (other : c.isDigit = false) (tail : List Char) : ds ++ rest ≠ c :: tail := by
  obtain ⟨d, more, rfl⟩ := List.exists_cons_of_ne_nil some
  intro same
  have hd := digits d List.mem_cons_self
  rw [(List.cons.inj same).1, other] at hd
  exact absurd hd Bool.false_ne_true

theorem padded_succ_ne_nil (width n : Nat) : padded (width + 1) n ≠ [] :=
  List.append_ne_nil_of_right_ne_nil _ (List.cons_ne_nil _ _)

/-- A number of fixed width is read, if so many digits are allowed. -/
theorem number_padded {width allowed n : Nat} (small : n < pow10 (width + 1)) (fits : n ≤ maxNumber)
    (enough : width < allowed) (ends : Undigited rest) :
    number (some allowed) (padded (width + 1) n ++ rest) = .ok (n, rest) := by
  have hvalue : digitsValue (padded (width + 1) n) = n := by
    rw [digitsValue_padded]
    exact Nat.mod_eq_of_lt small
  have hshort : ∀ w ∈ some allowed, (padded (width + 1) n).length ≤ w := by
    rintro w ⟨⟩
    rw [length_padded]
    exact enough
  have hnumber := number_digits (allDigits_padded _ n) (padded_succ_ne_nil width n) hshort ends
    (by rwa [hvalue])
  rwa [hvalue] at hnumber

/-- A number of two digits between its bounds is read. -/
theorem field_padded {n least greatest : Nat} (low : least ≤ n) (high : n ≤ greatest)
    (small : greatest < 100) (ends : Undigited rest) :
    field 2 least greatest (padded 2 n ++ rest) = .ok (n, rest) := by
  have hmost : 100 ≤ maxNumber := by decide
  have hpow : pow10 (1 + 1) = 100 := rfl
  have hnumber : number (some 2) (padded 2 n ++ rest) = .ok (n, rest) :=
    number_padded (by omega) (by omega) (by decide) ends
  rw [field, trimLeft_digits (allDigits_padded 2 n) (padded_succ_ne_nil 1 n), hnumber]
  exact if_pos ⟨low, high⟩

/-- Years of six digits are in range. -/
theorem year_range {y : Int} (low : -999999 ≤ y) (high : y ≤ 999999) :
    (-(pow2 31 : Int) ≤ y ∧ y < pow2 31) ∧ y.natAbs ≤ maxNumber := by
  constructor
  · have hpow : (pow2 31 : Int) = 2147483648 := by decide
    rw [hpow]
    omega
  · have hmost : 999999 ≤ maxNumber := by decide
    omega

/-- A year without a sign is read. -/
theorem year_padded {y : Int} (nonneg : 0 ≤ y) (four : y ≤ 9999) (ends : Undigited rest) :
    year (padded 4 y.natAbs ++ rest) = .ok (y, rest) := by
  obtain ⟨hrange, hfits⟩ := year_range (y := y) (by omega) (by omega)
  have hpow : pow10 (3 + 1) = 10000 := rfl
  have hnumber : number (some 4) (padded 4 y.natAbs ++ rest) = .ok (y.natAbs, rest) :=
    number_padded (by omega) hfits (by decide) ends
  have hdigits := allDigits_padded 4 y.natAbs
  have hsome := padded_succ_ne_nil 3 y.natAbs
  have hy : ((y.natAbs : Nat) : Int) = y := Int.natAbs_of_nonneg nonneg
  rw [year, trimLeft_digits hdigits hsome]
  split
  · next same => exact absurd same (digits_append_ne_cons hdigits hsome (by decide) _)
  · next same => exact absurd same (digits_append_ne_cons hdigits hsome (by decide) _)
  · rw [hnumber, Except.map]
    dsimp only
    rw [hy]
    exact if_pos hrange

/-- A year with a sign is read. -/
theorem year_signed {y : Int} (low : -999999 ≤ y) (high : y ≤ 999999) (ends : Undigited rest) :
    year ((if y < 0 then '-' else '+') :: atLeast 4 y.natAbs ++ rest) = .ok (y, rest) := by
  obtain ⟨hrange, hfits⟩ := year_range low high
  have hsome : atLeast 4 y.natAbs ≠ [] :=
    List.append_ne_nil_of_right_ne_nil _ (natDigits_ne_nil _)
  have hvalue := digitsValue_atLeast 4 y.natAbs
  have hnumber : number none (atLeast 4 y.natAbs ++ rest) =
      .ok (digitsValue (atLeast 4 y.natAbs), rest) :=
    number_digits (allDigits_atLeast 4 y.natAbs) hsome nofun ends (by rwa [hvalue])
  rw [hvalue] at hnumber
  rw [List.cons_append]
  split
  · next negative =>
    have htrim (cs : List Char) : trimLeft ('-' :: cs) = '-' :: cs := rfl
    have hy : -((y.natAbs : Nat) : Int) = y := by omega
    rw [year, htrim]
    simp only [hnumber, Except.map, bind, Except.bind, hy]
    exact if_pos hrange
  · next positive =>
    have htrim (cs : List Char) : trimLeft ('+' :: cs) = '+' :: cs := rfl
    have hy : ((y.natAbs : Nat) : Int) = y := by omega
    rw [year, htrim]
    simp only [hnumber, Except.map, bind, Except.bind, hy]
    exact if_pos hrange

/-- The year of an instant is read. -/
theorem year_yearText {y : Int} (low : -999999 ≤ y) (high : y ≤ 999999) (ends : Undigited rest) :
    year (yearText y ++ rest) = .ok (y, rest) := by
  unfold yearText
  split
  · next four => exact year_padded four.1 four.2 ends
  · exact year_signed low high ends

/-- So many decimals of the second are read as nanoseconds. -/
theorem fraction_padded {width n : Nat} (nine : width < 9) (small : n < pow10 (width + 1))
    (ends : Undigited rest) :
    fraction ('.' :: padded (width + 1) n ++ rest) = .ok (n * pow10 (8 - width), rest) := by
  have hnine : pow10 (width + 1) ≤ pow10 9 := Nat.pow_le_pow_right (by decide) nine
  have hmost : pow10 9 ≤ maxNumber := by decide
  have hfits : n ≤ maxNumber := Nat.le_trans (Nat.le_of_lt small) (Nat.le_trans hnine hmost)
  have hnumber := number_padded small hfits nine ends
  have hrest : rest.dropWhile Char.isDigit = rest := by
    cases rest with
    | nil => rfl
    | cons c rest => exact List.dropWhile_cons_of_neg (Bool.eq_false_iff.mp (ends c rfl))
  have hread : (padded (width + 1) n ++ rest).length - rest.length = width + 1 := by
    rw [List.length_append, Nat.add_sub_cancel, length_padded]
  have hplaces : 9 - (width + 1) = 8 - width := by omega
  rw [List.cons_append, fraction, hnumber]
  simp only [bind, Except.bind, hread, hrest, hplaces]

/-- The decimals of the second are read. -/
theorem fraction_fractionText {nano : Nat} (lt : nano < nanosPerSecond) :
    fraction (fractionText nano ++ ['Z']) = .ok (nano, ['Z']) := by
  have hends : Undigited ['Z'] := by
    rintro c ⟨⟩
    rfl
  unfold nanosPerSecond at lt
  have hmillis : pow10 (2 + 1) = 1000 := rfl
  have hmicros : pow10 (5 + 1) = 1000000 := rfl
  have hnanos : pow10 (8 + 1) = 1000000000 := rfl
  unfold fractionText
  split
  · next hzero =>
    subst hzero
    rfl
  · split
    · next hmilli =>
      have hexact : nano / 1000000 * 1000000 = nano :=
        Nat.div_mul_cancel (Nat.dvd_of_mod_eq_zero hmilli)
      have hread : fraction ('.' :: padded 3 (nano / 1000000) ++ ['Z']) =
          .ok (nano / 1000000 * pow10 6, ['Z']) := fraction_padded (by decide) (by omega) hends
      rwa [show pow10 6 = 1000000 from rfl, hexact] at hread
    · split
      · next hmicro =>
        have hexact : nano / 1000 * 1000 = nano :=
          Nat.div_mul_cancel (Nat.dvd_of_mod_eq_zero hmicro)
        have hread : fraction ('.' :: padded 6 (nano / 1000) ++ ['Z']) =
            .ok (nano / 1000 * pow10 3, ['Z']) := fraction_padded (by decide) (by omega) hends
        rwa [show pow10 3 = 1000 from rfl, hexact] at hread
      · have hread : fraction ('.' :: padded 9 nano ++ ['Z']) = .ok (nano * pow10 0, ['Z']) :=
          fraction_padded (by decide) (by omega) hends
        rwa [pow10_zero, Nat.mul_one] at hread

theorem mark_cons {c : Char} (unblank : isBlank c = false) (rest : List Char) :
    mark c (c :: rest) = .ok rest := by
  have htrim : trimLeft (c :: rest) = c :: rest :=
    List.dropWhile_cons_of_neg (Bool.eq_false_iff.mp unblank)
  rw [mark, htrim]
  exact if_pos rfl

theorem undigited_cons {c : Char} (other : c.isDigit = false) (rest : List Char) :
    Undigited (c :: rest) := by
  rintro d ⟨⟩
  exact other

theorem undigited_fraction (nano : Nat) (rest : List Char) :
    Undigited (fractionText nano ++ 'Z' :: rest) := by
  unfold fractionText
  repeat' split
  all_goals exact undigited_cons (by decide) _

/-- A leap second within a minute is written as the second that comes next. -/
theorem clockText_succ {second nano : Nat} (leap : nanosPerSecond ≤ nano)
    (lt : nano < 2 * nanosPerSecond) (within : second % 60 ≠ 59) :
    clockText (second + 1) (nano - nanosPerSecond) = clockText second nano := by
  have hplain : ¬ nanosPerSecond ≤ nano - nanosPerSecond := by omega
  have hhour : (second + 1) / 3600 = second / 3600 := by omega
  have hminute : (second + 1) / 60 % 60 = second / 60 % 60 := by omega
  have hsecond : (second + 1) % 60 = second % 60 + 1 := by omega
  have hfraction : (nano - nanosPerSecond) % nanosPerSecond = nano % nanosPerSecond :=
    (Nat.mod_eq_sub_mod leap).symm
  rw [clockText, clockText, if_neg hplain, if_pos leap, hhour, hminute, hsecond, hfraction,
    Nat.add_zero]

namespace Instant

theorem not_onMinute_iff {t : Instant} : ¬ t.OnMinute ↔ t.InLeapSecond ∧ t.second % 60 ≠ 59 :=
  Classical.not_imp

/-- A second that ends no minute ends no day. -/
theorem second_succ_lt {t : Instant} (off : ¬ t.OnMinute) : t.second + 1 < secondsPerDay := by
  have within := (not_onMinute_iff.mp off).2
  have hday := t.second_lt
  unfold secondsPerDay at *
  omega

/-- The instant that the text of an instant tells: a leap second that ends no minute is told as the
second that comes next. -/
def told (t : Instant) : Instant :=
  if h : t.OnMinute then t
  else ⟨t.day, t.second + 1, t.nano - nanosPerSecond, t.firstDay_le, t.le_lastDay, second_succ_lt h,
    Nat.lt_of_le_of_lt (Nat.sub_le _ _) t.nano_lt⟩

/-- Nothing else is told of the instants whose leap seconds end minutes. -/
theorem told_eq_self_iff {t : Instant} : t.told = t ↔ t.OnMinute := by
  by_cases onMinute : t.OnMinute
  · exact iff_of_true (dif_pos onMinute) onMinute
  · refine iff_of_false (fun same => ?_) onMinute
    rw [told, dif_neg onMinute] at same
    exact absurd (congrArg second same) (Nat.succ_ne_self _)

/-- What is told has no leap second within a minute. -/
theorem onMinute_told (t : Instant) : t.told.OnMinute := by
  by_cases onMinute : t.OnMinute
  · rwa [told_eq_self_iff.mpr onMinute]
  · have hnano := t.nano_lt
    intro leap
    rw [told, dif_neg onMinute] at leap
    simp only [InLeapSecond, nanosPerSecond] at *
    omega

/-- An instant is written as what it tells. -/
theorem chars_told (t : Instant) : t.told.chars = t.chars := by
  by_cases onMinute : t.OnMinute
  · rw [told_eq_self_iff.mpr onMinute]
  · obtain ⟨leap, within⟩ := not_onMinute_iff.mp onMinute
    rw [told, dif_neg onMinute, chars, chars]
    dsimp only
    rw [clockText_succ leap t.nano_lt within]

/-- A leap second that ends a minute is the second behind second 59 of it. -/
theorem exists_extra {t : Instant} (onMinute : t.OnMinute) : ∃ extra,
    (if nanosPerSecond ≤ t.nano then 1 else 0) = extra ∧
      (if t.second % 60 + extra = 60 then 1 else 0) = extra ∧ t.second % 60 + extra ≤ 60 ∧
      t.nano % nanosPerSecond + extra * nanosPerSecond = t.nano := by
  have hnano := t.nano_lt
  unfold OnMinute InLeapSecond at onMinute
  unfold nanosPerSecond at *
  by_cases leap : 1000000000 ≤ t.nano
  · have hlast := onMinute leap
    refine ⟨1, if_pos leap, if_pos (by omega), by omega, by omega⟩
  · refine ⟨0, if_neg leap, if_neg (by omega), by omega, by omega⟩

/-- Date and time of day are read as they were written, in universal time. -/
theorem readLocal_chars {t : Instant} (onMinute : t.OnMinute) :
    readLocal t.chars = .ok ⟨Civil.ofDayNumber t.day, t.second, t.nano, 0⟩ := by
  obtain ⟨⟨hmonth1, hmonth12⟩, hday1, hday31⟩ := Civil.ofDayNumber_range t.day
  obtain ⟨hlow, hhigh⟩ := Civil.ofDayNumber_year t.firstDay_le t.le_lastDay
  obtain ⟨extra, hextra, hsixty, hsecond, hnano⟩ := exists_extra onMinute
  have hday := t.second_lt
  unfold secondsPerDay at hday
  rw [chars, clockText, hextra]
  generalize Civil.ofDayNumber t.day = date at *
  obtain ⟨y, mo, d⟩ := date
  dsimp only at *
  have hpart : t.nano % nanosPerSecond < nanosPerSecond := Nat.mod_lt _ (by decide)
  have hcolon (cs : List Char) : Undigited (':' :: cs) := undigited_cons (by decide) cs
  have hhyphen (cs : List Char) : Undigited ('-' :: cs) := undigited_cons (by decide) cs
  have hT (cs : List Char) : Undigited ('T' :: cs) := undigited_cons (by decide) cs
  have hseparator (cs : List Char) : separator ('T' :: cs) = .ok cs := rfl
  have hzone : zone (trimLeft ['Z']) = .ok (0, []) := rfl
  have hmo : ((mo.natAbs : Nat) : Int) = mo := by omega
  have hd : ((d.natAbs : Nat) : Int) = d := by omega
  have hclock : t.second / 3600 * 3600 + t.second / 60 % 60 * 60 + (t.second % 60 + extra - extra) =
      t.second := by omega
  -- Part by part from the left: a number, which ends at the mark, and the mark.
  simp only [List.append_assoc, List.cons_append]
  rw [readLocal, year_yearText hlow hhigh (hhyphen _)]
  dsimp only [bind, Except.bind]
  rw [mark_cons (by decide)]
  dsimp only
  rw [field_padded (by omega) (by omega) (by decide) (hhyphen _)]
  dsimp only
  rw [mark_cons (by decide)]
  dsimp only
  rw [field_padded (by omega) (by omega) (by decide) (hT _)]
  dsimp only
  rw [hseparator]
  dsimp only
  rw [field_padded (by omega) (by omega) (by decide) (hcolon _)]
  dsimp only
  rw [mark_cons (by decide)]
  dsimp only
  rw [field_padded (by omega) (by omega) (by decide) (hcolon _)]
  dsimp only
  rw [mark_cons (by decide)]
  dsimp only
  rw [field_padded (by omega) hsecond (by decide) (undigited_fraction _ _)]
  dsimp only
  rw [fraction_fractionText hpart]
  dsimp only
  rw [hzone]
  dsimp only
  rw [hsixty, hnano, hclock, hmo, hd]
  rfl

/-- An instant whose leap second ends a minute is read back from its characters. -/
theorem ofChars_chars_of_onMinute {t : Instant} (onMinute : t.OnMinute) :
    ofChars t.chars = .ok t := by
  have hpos : 0 < (secondsPerDay : Int) := by decide
  have hsecond : ((t.second : Nat) : Int) < secondsPerDay := Int.ofNat_lt.mpr t.second_lt
  have hday : Local.day? ⟨Civil.ofDayNumber t.day, t.second, t.nano, 0⟩ = some t.day := by
    dsimp only [Local.day?]
    rw [Civil.toDay?_ofDayNumber t.day]
    dsimp only
    rw [if_pos ⟨t.firstDay_le, t.le_lastDay⟩]
  have hzero : ((t.second : Nat) : Int) - 0 * 60 = t.second := by omega
  have hdiv : ((t.second : Nat) : Int) / secondsPerDay = 0 :=
    Int.ediv_eq_zero_of_lt (Int.natCast_nonneg _) hsecond
  have hmod : ((t.second : Nat) : Int) % secondsPerDay = t.second :=
    Int.emod_eq_of_lt (Int.natCast_nonneg _) hsecond
  have hparts : ofParts? t.day t.second t.nano = some t :=
    dif_pos ⟨t.firstDay_le, t.le_lastDay, t.second_lt, t.nano_lt⟩
  have hoffset : ¬ minutesPerDay ≤ (0 : Int).natAbs := by decide
  rw [ofChars, readLocal_chars onMinute]
  dsimp only [Except.bind, Local.toInstant]
  rw [hday]
  dsimp only
  rw [if_neg hoffset, hzero, hdiv, hmod, Int.toNat_natCast, Int.add_zero, hparts]

/-- What an instant tells is read from its characters. -/
theorem ofChars_chars (t : Instant) : ofChars t.chars = .ok t.told := by
  rw [← chars_told, ofChars_chars_of_onMinute t.onMinute_told]

/-- What an instant tells is read from its text. -/
theorem ofText_text (t : Instant) : ofText t.text = .ok t.told := by
  rw [ofText, text, String.toList_ofList]
  exact t.ofChars_chars

end Instant

end Clearing.Time
