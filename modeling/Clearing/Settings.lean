import Clearing.Text.Digits

/-!
# Settings

Settings are whole numbers that can be given in the environment. A variable that is not set, that is
no whole number or that is too large leaves the default. The time limit is capped at a year.
-/

namespace Clearing

open Clearing.Text

/-- How the system is set up. Spans are in milliseconds, the time limit is in seconds. -/
structure Settings where
  /-- How long a payment may stay open. -/
  timeLimit : UInt64
  sweepInterval : UInt64
  queueCapacity : UInt64
  feedCapacity : UInt64
  /-- How often a message is tried. -/
  maxAttempts : UInt32
  /-- How long to wait before the next try. -/
  backoff : UInt64
  maxInFlight : UInt64
  deriving DecidableEq, Repr

namespace Settings

/-- The settings when nothing is set. -/
def default : Settings := ⟨120, 5000, 64, 100, 3, 6000, 32⟩

instance : Inhabited Settings := ⟨default⟩

/-- The longest time limit: a year. -/
def maxTimeLimit : UInt64 := 31536000

/-- Set the time limit, up to a year. -/
def withTimeLimit (s : Settings) (limit : UInt64) : Settings :=
  { s with timeLimit := min limit maxTimeLimit }

/-- A variable as a number of 64 bits. -/
def long (value? : Option String) (fallback : UInt64) : UInt64 :=
  ((value?.bind fun v => readWhole? (UInt64.size - 1) v.toList).map UInt64.ofNat).getD fallback

/-- A variable as a number of 32 bits. -/
def short (value? : Option String) (fallback : UInt32) : UInt32 :=
  ((value?.bind fun v => readWhole? (UInt32.size - 1) v.toList).map UInt32.ofNat).getD fallback

/-- The settings of an environment. -/
def ofEnvironment (lookup? : String → Option String) : Settings :=
  let limit := long (lookup? "EXPIRE_PAYMENT_TTL_SECONDS") default.timeLimit
  let s : Settings :=
    { timeLimit := limit
      sweepInterval := long (lookup? "SWEEP_INTERVAL_MS") default.sweepInterval
      queueCapacity := long (lookup? "SETTLEMENT_QUEUE_CAPACITY") default.queueCapacity
      feedCapacity := long (lookup? "FEED_CAPACITY") default.feedCapacity
      maxAttempts := short (lookup? "INBOX_MAX_ATTEMPTS") default.maxAttempts
      backoff := long (lookup? "INBOX_BACKOFF_MS") default.backoff
      maxInFlight := long (lookup? "INBOX_MAX_IN_FLIGHT") default.maxInFlight }
  s.withTimeLimit limit

end Settings

/-- How often and how fast a message is tried again. -/
structure RetryPolicy where
  /-- Every message is tried once at least. -/
  maxAttempts : UInt32
  backoff : UInt64
  deriving DecidableEq, Repr

/-- The retry policy of the settings. -/
def Settings.retryPolicy (s : Settings) : RetryPolicy := ⟨max s.maxAttempts 1, s.backoff⟩

end Clearing
