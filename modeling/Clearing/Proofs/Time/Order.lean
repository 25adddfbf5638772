import Clearing.Proofs.Payment.TimeLimit

/-!
# The order of instants

Instants are ordered by day, second and nanosecond, which is a total order. It agrees with counting
seconds as far as this: when more whole seconds have passed than were allowed, the instant at which
they were over exists and has passed. Leap seconds, which a span may count and an addition does not,
are never enough to turn this around.
-/

namespace Clearing.Time.Instant

variable {a b c : Instant}

theorem lt_iff : a < b ↔ a.day < b.day ∨
    a.day = b.day ∧ (a.second < b.second ∨ a.second = b.second ∧ a.nano < b.nano) := Iff.rfl

theorem lt_trans (h : a < b) (h' : b < c) : a < c := by
  rw [lt_iff] at *
  omega

/-- Of two instants that are not in order the second is earlier. -/
theorem lt_of_not_le (h : ¬ a ≤ b) : b < a := by
  have hne : a ≠ b := fun h' => h (.inr h')
  have hlt : ¬ a < b := fun h' => h (.inl h')
  have hparts : ¬ (a.day = b.day ∧ a.second = b.second ∧ a.nano = b.nano) := by
    intro same
    apply hne
    cases a
    cases b
    simp_all
  rw [lt_iff] at *
  omega

/-- A span counts the leap second that it begins in and leaves out the one that it ends in. -/
theorem leapSeconds_cases (later earlier : Instant) :
    leapSeconds later earlier = 0 ∨
      leapSeconds later earlier = 1 ∧ earlier.second < later.second ∧
        nanosPerSecond ≤ earlier.nano ∨
      leapSeconds later earlier = -1 ∧ later.second < earlier.second ∧
        nanosPerSecond ≤ later.nano := by
  unfold leapSeconds
  repeat' split
  all_goals simp_all

/-- Whole seconds that have passed have passed in nanoseconds. -/
theorem nanosSince_of_lt_secondsSince {later earlier : Instant} {seconds : Nat}
    (h : (seconds : Int) < later.secondsSince earlier) :
    ((seconds : Int) + 1) * nanosPerSecond ≤ later.nanosSince earlier := by
  have hle := Int.tdiv_mul_le (later.nanosSince earlier) (b := (nanosPerSecond : Int)) (by decide)
  unfold secondsSince at h
  simp only [nanosPerSecond] at *
  split at hle <;> omega

/-- An instant has passed when a whole second has passed since. -/
theorem lt_of_secondsSince_pos {later earlier : Instant} (h : 0 < later.secondsSince earlier) :
    earlier < later := by
  have hnanos : (((0 : Nat) : Int) + 1) * nanosPerSecond ≤ later.nanosSince earlier :=
    nanosSince_of_lt_secondsSince h
  have hearlier := earlier.second_lt
  have hlater := later.second_lt
  have hnano := later.nano_lt
  have hleap := leapSeconds_cases later earlier
  unfold nanosSince at hnanos
  rw [lt_iff]
  simp only [nanosPerSecond, secondsPerDay] at *
  omega

/-- The nanoseconds of an instant some seconds later: a leap second is left at once. -/
def plainNano (t : Instant) : Nat :=
  if nanosPerSecond ≤ t.nano then t.nano - nanosPerSecond else t.nano

theorem plainNano_cases (t : Instant) :
    nanosPerSecond ≤ t.nano ∧ t.plainNano + nanosPerSecond = t.nano ∨
      t.nano < nanosPerSecond ∧ t.plainNano = t.nano := by
  unfold plainNano
  split
  · exact .inl ⟨‹_›, Nat.sub_add_cancel ‹_›⟩
  · exact .inr ⟨Nat.not_le.mp ‹_›, rfl⟩

/-- When more whole seconds have passed than some, the clock has gone on by more than those, or by
as many and then by some nanoseconds. -/
theorem clock_of_lt_secondsSince {later earlier : Instant} {seconds : Nat}
    (h : (seconds : Int) < later.secondsSince earlier) :
    let passed := (later.day - earlier.day) * secondsPerDay +
      ((later.second : Int) - earlier.second)
    seconds < passed ∨ seconds = passed ∧ earlier.plainNano < later.nano := by
  have hnanos := nanosSince_of_lt_secondsSince h
  have hlater := later.nano_lt
  have hearlier := earlier.nano_lt
  have hleap := leapSeconds_cases later earlier
  have hplain := earlier.plainNano_cases
  unfold nanosSince at hnanos
  simp only [nanosPerSecond, secondsPerDay] at *
  omega

/-- Fewer whole seconds than have passed are over at an instant that has passed. -/
theorem addSeconds?_of_lt_secondsSince {later earlier : Instant} {seconds : Nat}
    (h : (seconds : Int) < later.secondsSince earlier) :
    ∃ deadline, earlier.addSeconds? seconds = some deadline ∧ deadline < later := by
  have hspan : ¬ maxSpan < seconds := by
    have hbound := later.secondsSince_le earlier
    have hmax : (191500000 * 86400 : Int) ≤ maxSpan := by decide
    omega
  rw [addSeconds?, if_neg hspan]
  split
  · next zero =>
    subst zero
    exact ⟨earlier, rfl, lt_of_secondsSince_pos h⟩
  · have hclock := clock_of_lt_secondsSince h
    have hfirst := earlier.firstDay_le
    have hlast := later.le_lastDay
    have hlater := later.second_lt
    have hplain := earlier.plainNano_cases
    have hnano := earlier.nano_lt
    have hparts : firstDay ≤ earlier.day +
          (((earlier.second + seconds) / secondsPerDay : Nat) : Int) ∧
        earlier.day + (((earlier.second + seconds) / secondsPerDay : Nat) : Int) ≤ lastDay ∧
        (earlier.second + seconds) % secondsPerDay < secondsPerDay ∧
        earlier.plainNano < 2 * nanosPerSecond := by
      simp only [nanosPerSecond, secondsPerDay] at *
      omega
    refine ⟨⟨_, _, earlier.plainNano, hparts.1, hparts.2.1, hparts.2.2.1, hparts.2.2.2⟩,
      dif_pos hparts, ?_⟩
    rw [lt_iff]
    simp only [nanosPerSecond, secondsPerDay] at *
    omega

end Clearing.Time.Instant
