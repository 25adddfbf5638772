import Clearing.Proofs.Time.Order

/-!
# How much time has passed, seen from later on

The time since a fixed start grows with the instant at which it is read, but for a few seconds
around a leap second. A span leaves out the leap second in which it ends when its end has the
earlier time of day, counts the nanoseconds of one in which it ends otherwise, and counts one in
which it begins only on the clock's later times of day. So the time that has passed can seem to
shrink when a leap second begins or ends, or when the day after a start in a leap second is over. It
never shrinks by two seconds.
-/

namespace Clearing.Time.Instant

variable {start earlier later : Instant}

/-- The seconds that the clock has shown since 1970, which do not count leap seconds. -/
def clock (t : Instant) : Int := t.day * secondsPerDay + t.second

/-- When less time seems to have passed since the start at a later instant. -/
inductive Slips (start earlier later : Instant) : Prop
  /-- A leap second has begun, and the start has a later time of day. -/
  | entered (leap : later.InLeapSecond) (before : later.second < start.second)
      (second : later.clock = earlier.clock)
  /-- A leap second has just ended. -/
  | left (leap : earlier.InLeapSecond) (next : later.clock = earlier.clock + 1)
  /-- The start lies in a leap second, and the last second of a day is just over. -/
  | dayOver (leap : start.InLeapSecond) (last : earlier.second + 1 = secondsPerDay)
      (after : earlier.clock < later.clock) (soon : later.clock ≤ earlier.clock + 2)
  /-- The start lies in a leap second, the last two seconds of a day have gone by, and one of the
  two instants lies in a leap second that ends no minute. -/
  | dayOverOffMinute (leap : start.InLeapSecond) (last : earlier.second + 2 = secondsPerDay)
      (second : later.clock = earlier.clock + 2) (off : ¬ (earlier.OnMinute ∧ later.OnMinute))

/-- Nothing slips without a leap second. -/
theorem Slips.inLeapSecond (h : Slips start earlier later) :
    start.InLeapSecond ∨ earlier.InLeapSecond ∨ later.InLeapSecond := by
  cases h with
  | entered leap => exact .inr (.inr leap)
  | left leap => exact .inr (.inl leap)
  | dayOver leap => exact .inl leap
  | dayOverOffMinute leap => exact .inl leap

/-- Nothing slips once the clock has gone on for a few seconds. -/
theorem Slips.clock_le (h : Slips start earlier later) : later.clock ≤ earlier.clock + 2 := by
  cases h with
  | entered _ _ second => omega
  | left _ next => omega
  | dayOver _ _ _ soon => exact soon
  | dayOverOffMinute _ _ second => omega

/-- The leap second that a span holds, by the order of the times of day. -/
theorem leapSeconds_spec (later earlier : Instant) :
    earlier.second < later.second ∧ earlier.InLeapSecond ∧ leapSeconds later earlier = 1 ∨
      earlier.second < later.second ∧ ¬ earlier.InLeapSecond ∧ leapSeconds later earlier = 0 ∨
      earlier.second = later.second ∧ leapSeconds later earlier = 0 ∨
      later.second < earlier.second ∧ later.InLeapSecond ∧ leapSeconds later earlier = -1 ∨
      later.second < earlier.second ∧ ¬ later.InLeapSecond ∧ leapSeconds later earlier = 0 := by
  unfold leapSeconds InLeapSecond
  split
  · split <;> omega
  · split
    · split <;> omega
    · omega

/-- Whether the time of day has gone from after that of a start in a leap second to that or
before. -/
def Wrapped (start earlier later : Instant) : Prop :=
  start.InLeapSecond ∧ start.second < earlier.second ∧ later.second ≤ start.second

/-- A span to a later instant holds fewer leap seconds only if that instant lies in one, or if the
day after a start in one is over. -/
theorem leapSeconds_change (start earlier later : Instant) :
    leapSeconds earlier start ≤ leapSeconds later start ∨
      later.InLeapSecond ∧ leapSeconds earlier start ≤ leapSeconds later start + 1 ∨
      Wrapped start earlier later ∧ leapSeconds earlier start = leapSeconds later start + 1 ∨
      Wrapped start earlier later ∧ later.InLeapSecond ∧
        leapSeconds earlier start = leapSeconds later start + 2 := by
  have hearlier := leapSeconds_spec earlier start
  have hlater := leapSeconds_spec later start
  unfold Wrapped InLeapSecond at *
  rcases hearlier with h | h | h | h | h <;> rcases hlater with h' | h' | h' | h' | h' <;> omega

/-- Not later, by the clock and the nanoseconds. -/
theorem clock_of_le (h : earlier ≤ later) :
    earlier.clock < later.clock ∨ earlier.clock = later.clock ∧ earlier.day = later.day ∧
      earlier.second = later.second ∧ earlier.nano ≤ later.nano := by
  have hearlier := earlier.second_lt
  have hlater := later.second_lt
  unfold clock
  simp only [secondsPerDay] at *
  rcases h with h | rfl
  · rw [lt_iff] at h
    omega
  · omega

/-- The nanoseconds between two instants, by the clock. -/
theorem nanosSince_eq (later earlier : Instant) : later.nanosSince earlier =
    (later.clock - earlier.clock + leapSeconds later earlier) * nanosPerSecond +
      (later.nano - earlier.nano) := by
  unfold nanosSince clock
  simp only [secondsPerDay, nanosPerSecond]
  omega

/-- Within a second the time since a start does not shrink, unless a leap second begins. -/
theorem nanosSince_le_of_same (second : earlier.second = later.second)
    (day : earlier.day = later.day) (nano : earlier.nano ≤ later.nano)
    (steady : ¬ (later.InLeapSecond ∧ later.second < start.second)) :
    earlier.nanosSince start ≤ later.nanosSince start := by
  have hearlier := leapSeconds_spec earlier start
  have hlater := leapSeconds_spec later start
  unfold nanosSince
  unfold InLeapSecond at *
  simp only [secondsPerDay, nanosPerSecond] at *
  omega

/-- A day that is over since a start in a leap second makes the time since slip when it was over
less than two seconds ago, or two seconds ago with another leap second. -/
theorem slips_of_wrapped (wrapped : Wrapped start earlier later)
    (forward : earlier.clock < later.clock) (soon : later.clock ≤ earlier.clock + 2)
    (leap : later.clock = earlier.clock + 2 → earlier.InLeapSecond ∨ later.InLeapSecond) :
    Slips start earlier later := by
  obtain ⟨hstart, hbefore, hafter⟩ := wrapped
  have hsecond := earlier.second_lt
  have hlast : earlier.second + 1 = secondsPerDay ∨ earlier.second + 2 = secondsPerDay ∧
      later.second = 0 ∧ later.clock = earlier.clock + 2 := by
    simp only [clock, secondsPerDay] at *
    omega
  rcases hlast with last | ⟨last, first, second⟩
  · exact .dayOver hstart last forward soon
  · -- neither second 58 of a minute nor second 0 is followed by a leap second that ends the minute
    refine .dayOverOffMinute hstart last second fun onMinute => ?_
    unfold secondsPerDay at last
    rcases leap second with hleap | hleap
    · have hminute := onMinute.1 hleap
      omega
    · have hminute := onMinute.2 hleap
      omega

/-- The time since a start does not shrink, unless it slips. -/
theorem nanosSince_le_nanosSince (ordered : earlier ≤ later)
    (steady : ¬ Slips start earlier later) :
    earlier.nanosSince start ≤ later.nanosSince start := by
  rcases clock_of_le ordered with forward | ⟨second, hday, hsecond, hnano⟩
  · refine Int.not_lt.mp fun shrinks => steady ?_
    rw [nanosSince_eq, nanosSince_eq] at shrinks
    have hnano := earlier.nano_lt
    rcases leapSeconds_change start earlier later with
      hle | ⟨leap, hle⟩ | ⟨wrapped, heq⟩ | ⟨wrapped, leap, heq⟩
    · refine .left ?_ ?_ <;>
      · simp only [InLeapSecond, nanosPerSecond] at *
        omega
    · refine .left ?_ ?_ <;>
      · simp only [InLeapSecond, nanosPerSecond] at *
        omega
    · have hsoon : later.clock ≤ earlier.clock + 2 := by
        simp only [nanosPerSecond] at *
        omega
      refine slips_of_wrapped wrapped forward hsoon fun two => .inl ?_
      simp only [InLeapSecond, nanosPerSecond] at *
      omega
    · have hsoon : later.clock ≤ earlier.clock + 2 := by
        simp only [InLeapSecond, nanosPerSecond] at *
        omega
      exact slips_of_wrapped wrapped forward hsoon fun _ => .inr leap
  · exact nanosSince_le_of_same hsecond hday hnano fun entered =>
      steady (.entered entered.1 entered.2 second.symm)

/-- The time since a start never shrinks by two seconds. -/
theorem nanosSince_lt_nanosSince_add (start : Instant) (ordered : earlier ≤ later) :
    earlier.nanosSince start < later.nanosSince start + 2 * nanosPerSecond := by
  have horder := clock_of_le ordered
  have hnano := earlier.nano_lt
  rw [nanosSince_eq, nanosSince_eq]
  rcases leapSeconds_change start earlier later with
    hle | ⟨leap, hle⟩ | ⟨wrapped, heq⟩ | ⟨wrapped, leap, heq⟩ <;>
  · simp only [Wrapped, InLeapSecond, nanosPerSecond] at *
    omega

/-- Whole seconds since a start do not get fewer, unless they slip. -/
theorem secondsSince_le_secondsSince (ordered : earlier ≤ later)
    (steady : ¬ Slips start earlier later) :
    earlier.secondsSince start ≤ later.secondsSince start :=
  Int.tdiv_le_tdiv (by decide) (nanosSince_le_nanosSince ordered steady)

/-- Whole seconds since a start never get fewer by more than two. -/
theorem secondsSince_le_add_two (start : Instant) (ordered : earlier ≤ later) :
    earlier.secondsSince start ≤ later.secondsSince start + 2 := by
  have hnanos := nanosSince_lt_nanosSince_add start ordered
  have hsign : ((1000000000 : Nat) : Int).sign = 1 := rfl
  simp only [secondsSince, Int.tdiv_eq_ediv, nanosPerSecond, hsign] at *
  split <;> split <;> omega

end Clearing.Time.Instant
