import Clearing.Payment.TimeLimit

/-!
# What is left of the time limit

The calendar holds far fewer seconds than fit into 64 bits. So nothing is cut off when a payment has
been open for long, and as long as it is not expired no seconds are missing.
-/

namespace Clearing

namespace Time.Instant

/-- No two instants are further apart than the calendar is long. -/
theorem secondsSince_le (later earlier : Instant) :
    later.secondsSince earlier ≤ 191500000 * 86400 := by
  have hlater := later.le_lastDay
  have hearlier := earlier.firstDay_le
  have hsecond := later.second_lt
  have hnano := later.nano_lt
  have hleap : leapSeconds later earlier ≤ 1 := by
    unfold leapSeconds
    repeat' split
    all_goals decide
  have hspan : later.nanosSince earlier ≤ 191499999 * 86400 * (nanosPerSecond : Int) := by
    unfold nanosSince
    simp only [firstDay, lastDay, secondsPerDay, nanosPerSecond] at *
    omega
  have h := Int.tdiv_le_of_le_mul (c := (nanosPerSecond : Int)) (by decide) hspan
  unfold secondsSince
  split at h <;> omega

end Time.Instant

namespace Payment

theorem elapsed_le_maxRemaining (p : Payment) (now : Time.Instant) :
    p.elapsed now ≤ maxRemaining := by
  have h := now.secondsSince_le p.createdAt
  have hmax : (191500000 * 86400 : Int) ≤ maxRemaining := by decide
  exact Int.le_trans h hmax

/-- A payment that is not expired has no seconds missing. -/
theorem remaining_nonneg {p : Payment} {limit : UInt64} {now : Time.Instant}
    (inTime : ¬ p.expired limit now) : 0 ≤ p.remaining limit now := by
  have hlimit : p.elapsed now ≤ limit.toNat := Int.not_lt.mp inTime
  have hmax := p.elapsed_le_maxRemaining now
  have hbound : 0 ≤ maxRemaining := by decide
  unfold remaining saturated
  omega

end Payment

end Clearing
