import Clearing.Payment.Record

/-!
# The time limit of a payment

The limit is a number of seconds after the first submission. A payment is expired once more whole
seconds than that have passed. What is left of the limit is a number of 64 bits, and the instant at
which the limit ends may lie beyond the calendar.
-/

namespace Clearing.Payment

open Clearing.Time

/-- Whole seconds since the payment was created, negative before it. -/
def elapsed (p : Payment) (now : Instant) : Int := now.secondsSince p.createdAt

/-- Whether the limit has been exceeded. -/
def expired (p : Payment) (limit : UInt64) (now : Instant) : Prop :=
  (limit.toNat : Int) < p.elapsed now

instance (p : Payment) (limit : UInt64) (now : Instant) : Decidable (p.expired limit now) :=
  inferInstanceAs (Decidable (_ < _))

/-- The largest number of seconds that can be left. -/
def maxRemaining : Int := (pow2 63 : Int) - 1

/-- The smallest number of seconds that can be left. -/
def minRemaining : Int := -(pow2 63 : Int)

/-- Keep a number of seconds within 64 bits. -/
def saturated (n : Int) : Int := max minRemaining (min maxRemaining n)

/-- Seconds that are left of the limit, negative once it is exceeded. -/
def remaining (p : Payment) (limit : UInt64) (now : Instant) : Int :=
  saturated (min (limit.toNat : Int) maxRemaining - p.elapsed now)

/-- The end of the limit, if the calendar reaches it. -/
def deadline? (p : Payment) (limit : UInt64) : Option Instant :=
  p.createdAt.addSeconds? limit.toNat

end Clearing.Payment
