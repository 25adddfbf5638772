import Clearing.Proofs.Time.Order

/-!
# Three ways to look at the time limit

Whether a payment is expired, how many seconds are left and when the limit ends are told in words of
64 bits and by the calendar. The seconds since the payment was created fit into a word with much
room to spare, so no difference falls below what a word holds, and the three ways agree.
-/

namespace Clearing

namespace Time.Instant

/-- A span between two seconds of the day counts the same leap second in both directions. -/
theorem leapSeconds_swap (a b : Instant) : leapSeconds a b = -leapSeconds b a := by
  unfold leapSeconds
  rcases Nat.lt_trichotomy a.second b.second with h | h | h
  · have hnot : ¬ b.second < a.second := Nat.lt_asymm h
    rw [if_neg hnot, if_pos h, if_pos h]
    split <;> rfl
  · have hnot : ¬ b.second < a.second := by omega
    have hnot' : ¬ a.second < b.second := by omega
    rw [if_neg hnot, if_neg hnot', if_neg hnot', if_neg hnot]
    rfl
  · have hnot : ¬ a.second < b.second := Nat.lt_asymm h
    rw [if_pos h, if_neg hnot, if_pos h]
    split <;> rfl

theorem nanosSince_swap (a b : Instant) : a.nanosSince b = -b.nanosSince a := by
  have hleap := leapSeconds_swap a b
  unfold nanosSince
  simp only [secondsPerDay, nanosPerSecond]
  omega

/-- Whole seconds between two instants are the same number in both directions. -/
theorem secondsSince_swap (a b : Instant) : a.secondsSince b = -b.secondsSince a := by
  rw [secondsSince, nanosSince_swap, Int.neg_tdiv]
  rfl

end Time.Instant

namespace Payment

open Clearing.Time

variable {p : Payment} {limit : UInt64} {now : Instant}

/-- The time limit of an expired payment has an end, which has passed. -/
theorem deadline?_of_expired (h : p.expired limit now) :
    ∃ deadline, p.deadline? limit = some deadline ∧ deadline < now :=
  Instant.addSeconds?_of_lt_secondsSince h

/-- A payment is not created further ahead than the calendar is long. -/
theorem le_elapsed (p : Payment) (now : Instant) : -(191500000 * 86400) ≤ p.elapsed now := by
  have h := p.createdAt.secondsSince_le now
  rw [elapsed, Instant.secondsSince_swap]
  omega

/-- How the limit is told in words of 64 bits, without any of them wrapping around: the seconds
since the creation are a signed word, they are compared as an unsigned word unless they are
negative, and of the difference only what exceeds a signed word is cut off. -/
structure ToldInWords (p : Payment) (limit : UInt64) (now : Instant) : Prop where
  least : minRemaining ≤ p.elapsed now
  most : p.elapsed now ≤ maxRemaining
  compared : p.expired limit now ↔
    0 ≤ p.elapsed now ∧ limit < UInt64.ofNat (p.elapsed now).toNat
  subtracted : p.remaining limit now =
    min (min (limit.toNat : Int) maxRemaining - p.elapsed now) maxRemaining

/-- The calendar is short enough for words of 64 bits. -/
theorem toldInWords (p : Payment) (limit : UInt64) (now : Instant) : p.ToldInWords limit now := by
  have hleast := p.le_elapsed now
  have hmost := p.elapsed_le_maxRemaining now
  have hspan : minRemaining ≤ -(191500000 * 86400) := by decide
  have hlower : minRemaining ≤ -maxRemaining := by decide
  have hupper : maxRemaining < 2 ^ 63 := by decide
  have hzero : 0 ≤ maxRemaining := by decide
  refine ⟨by omega, hmost, ?_, ?_⟩
  · have hword : 0 ≤ p.elapsed now →
        ((UInt64.ofNat (p.elapsed now).toNat).toNat : Int) = p.elapsed now := by
      intro nonneg
      rw [UInt64.toNat_ofNat', Nat.mod_eq_of_lt (by omega), Int.toNat_of_nonneg nonneg]
    rw [expired, UInt64.lt_iff_toNat_lt]
    constructor
    · intro h
      have nonneg : 0 ≤ p.elapsed now := by omega
      have := hword nonneg
      exact ⟨nonneg, by omega⟩
    · rintro ⟨nonneg, h⟩
      have := hword nonneg
      omega
  · unfold remaining saturated
    omega

/-- Whatever the limit and whenever it is asked: a payment is expired exactly when its seconds left
are below zero, no word wraps around in telling the one or the other, and once it is expired the end
of the limit is in the calendar and has passed. -/
theorem time_limit_told_alike (p : Payment) (limit : UInt64) (now : Instant) :
    (p.expired limit now ↔ p.remaining limit now < 0) ∧ p.ToldInWords limit now ∧
      (p.expired limit now → ∃ deadline, p.deadline? limit = some deadline ∧ deadline < now) := by
  have words := p.toldInWords limit now
  refine ⟨?_, words, deadline?_of_expired⟩
  have hmost := words.most
  have hzero : 0 ≤ maxRemaining := by decide
  rw [words.subtracted, expired]
  omega

end Payment

end Clearing
