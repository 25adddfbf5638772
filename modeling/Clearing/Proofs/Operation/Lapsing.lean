import Clearing.Proofs.Engine.Request
import Clearing.Proofs.Operation.Sweeping
import Clearing.Proofs.Time.Elapsed

/-!
# Being expired as time goes on

What is expired at one time is expired at every later one, as a payment that is checked or confirmed
and as one that a sweep declines, unless time slips for it.
-/

namespace Clearing

open Clearing.Time

namespace Store

variable {limit : UInt64} {now earlier later : Instant} {s : Store}

/-- Whether a sweep of a store declines a payment. -/
def Sweeps (s : Store) (limit : UInt64) (now : Instant) (id : String) : Prop :=
  ∃ declined, ((Operation.sweep limit now).run s).result = .ok declined ∧
    id ∈ declined.map Payment.requestId

/-- A sweep of a store declines the payments that are open and expired. -/
theorem sweeps_iff (keyed : s.Keyed) (id : String) : s.Sweeps limit now id ↔
    ∃ p, s.payments.get? id = some p ∧ p.Lapses limit now := by
  let w : Unread := ⟨s, fun _ => none⟩
  have hsweep := Operation.result_sweep keyed limit now
  have hmem : s.Sweeps limit now id ↔
      id ∈ (w.returned limit now (s.findOverdue limit now)).map Payment.requestId := by
    constructor
    · rintro ⟨declined, hdeclined, hid⟩
      cases hdeclined.symm.trans hsweep
      exact hid
    · exact fun hid => ⟨_, hsweep, hid⟩
  rw [hmem, List.mem_map]
  constructor
  · rintro ⟨q, hq, rfl⟩
    obtain ⟨p, hp, -, lapses, rfl⟩ := (Unread.mem_returned_findOverdue (w := w) keyed).mp hq
    obtain ⟨id, stored⟩ := Table.mem_values_iff.mp hp
    cases keyed id p stored
    exact ⟨p, stored, lapses⟩
  · rintro ⟨p, stored, lapses⟩
    have hvalue : p ∈ s.payments.values := Table.mem_values_iff.mpr ⟨id, stored⟩
    exact ⟨p.closed now, (Unread.mem_returned_findOverdue (w := w) keyed).mpr
      ⟨p, hvalue, rfl, lapses, rfl⟩, keyed id p stored⟩

/-- What is expired at one time is expired at every later one, unless time slips for it, and a
payment that a sweep would decline would be declined by a sweep at any later time as well, unless
time slips for it. Time slips only where there is a leap second, and it has caught up once the clock
has gone on by three seconds; what has been expired for two seconds never gets in time again. -/
theorem expiry_lasts (s : Store) (keyed : s.Keyed) (limit : UInt64) (ordered : earlier ≤ later) :
    (∀ p : Payment, p.expired limit earlier →
        p.expired limit later ∨ Instant.Slips p.createdAt earlier later) ∧
      (∀ id p, s.payments.get? id = some p → s.Sweeps limit earlier id →
        s.Sweeps limit later id ∨ Instant.Slips p.createdAt earlier later) ∧
      (∀ start, Instant.Slips start earlier later →
        (start.InLeapSecond ∨ earlier.InLeapSecond ∨ later.InLeapSecond) ∧
          later.clock ≤ earlier.clock + 2) ∧
      ∀ p : Payment, (limit.toNat : Int) + 2 < p.elapsed earlier → p.expired limit later := by
  have hlasts (p : Payment) (h : p.expired limit earlier) :
      p.expired limit later ∨ Instant.Slips p.createdAt earlier later := by
    by_cases slips : Instant.Slips p.createdAt earlier later
    · exact .inr slips
    · exact .inl (Int.lt_of_lt_of_le h (Instant.secondsSince_le_secondsSince ordered slips))
  refine ⟨hlasts, fun id p stored declined => ?_, fun start slips => ?_, fun p late => ?_⟩
  · obtain ⟨found, hfound, isOpen, late⟩ := (sweeps_iff keyed id).mp declined
    cases stored.symm.trans hfound
    exact (hlasts p late).imp_left fun h => (sweeps_iff keyed id).mpr ⟨p, stored, isOpen, h⟩
  · exact ⟨slips.inLeapSecond, slips.clock_le⟩
  · have hle := Instant.secondsSince_le_add_two p.createdAt ordered
    unfold Payment.expired Payment.elapsed at *
    omega

/-- Half a second before 11:59. -/
def beforeMinute : Instant := (Instant.ofParts? 0 43139 500000000).get rfl

/-- A tenth of a second before the end of the leap second before 12:01. -/
def inLeapSecond : Instant := (Instant.ofParts? 0 43259 1900000000).get rfl

/-- A tenth of a second later. -/
def afterLeapSecond : Instant := (Instant.ofParts? 0 43260 0).get rfl

/-- Three seconds later. -/
def caughtUp : Instant := (Instant.ofParts? 0 43263 0).get rfl

/-- The rent, submitted half a second before 11:59. -/
def rentBeforeMinute : Payment :=
  Payment.begun { Sample.rent with createdAt := some beforeMinute } .epoch

/-- The rent is stored and nothing else. -/
def rentStored : Store := Store.empty.put rentBeforeMinute

theorem keyed_rentStored : rentStored.Keyed :=
  Keyed.put (s := .empty) (fun _ _ found => absurd found nofun) rfl

/-- With a limit of two minutes the rent would be declined in the leap second, and it would be
declined three seconds later. -/
theorem rent_stays_expired : rentStored.Keyed ∧ inLeapSecond ≤ caughtUp ∧
    rentStored.Sweeps 120 inLeapSecond "rent" ∧ rentStored.Sweeps 120 caughtUp "rent" := by
  have ordered : inLeapSecond ≤ caughtUp := by decide
  have swept : rentStored.Sweeps 120 inLeapSecond "rent" :=
    (sweeps_iff keyed_rentStored "rent").mpr ⟨rentBeforeMinute, rfl, by decide⟩
  obtain ⟨-, lasts, slipping, -⟩ := expiry_lasts rentStored keyed_rentStored 120 ordered
  refine ⟨keyed_rentStored, ordered, swept, ?_⟩
  rcases lasts "rent" rentBeforeMinute rfl swept with later | slips
  · exact later
  · exact absurd (slipping _ slips).2 (by decide)

/-- With a limit of two minutes the rent is expired in the leap second, 121.4 seconds after it was
submitted, and a tenth of a second later, 120.5 seconds after it was submitted, it is in time
again. -/
theorem rent_in_time_again : rentStored.Keyed ∧ inLeapSecond ≤ afterLeapSecond ∧
    rentBeforeMinute.expired 120 inLeapSecond ∧ ¬ rentBeforeMinute.expired 120 afterLeapSecond ∧
    rentStored.Sweeps 120 inLeapSecond "rent" ∧ ¬ rentStored.Sweeps 120 afterLeapSecond "rent" := by
  have expired : rentBeforeMinute.expired 120 inLeapSecond := by decide
  have inTime : ¬ rentBeforeMinute.expired 120 afterLeapSecond := by decide
  refine ⟨keyed_rentStored, by decide, expired, inTime, ?_, fun swept => ?_⟩
  · exact (sweeps_iff keyed_rentStored "rent").mpr ⟨rentBeforeMinute, rfl, rfl, expired⟩
  · obtain ⟨p, found, -, late⟩ := (sweeps_iff keyed_rentStored "rent").mp swept
    cases (show rentStored.payments.get? "rent" = some rentBeforeMinute from rfl).symm.trans found
    exact inTime late

end Store

end Clearing
