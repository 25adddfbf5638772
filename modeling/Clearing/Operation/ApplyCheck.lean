import Clearing.Operation.Commit
import Clearing.Payment.TimeLimit

/-!
# Applying the result of a check

A passed check is noted, a failed one declines the payment, and a result that comes after the time
limit declines it as well. Once the last check has passed the payment waits for its confirmation. A
finished payment ignores every result, and a result that changes nothing is not written.
-/

namespace Clearing

namespace Payment

/-- The payment after a result, before the time limit is looked at. -/
def judged (p : Payment) (r : CheckResult) : Payment :=
  if r.failed then p.advanced .checkFailed r.occurredAt (some r.failure)
  else { p with checks := p.checks.mark r.check }

/-- The payment once its time is over; a payment that is already declined only notes it. -/
def timedOut (p : Payment) (time : Time.Instant) : Payment :=
  (p.advance .expired time (some expiredMessage)).getD (p.append expiredMessage)

/-- The payment after a result. -/
def afterCheck (p : Payment) (limit : UInt64) (r : CheckResult) : Payment :=
  let q := p.judged r
  if q.expired limit r.occurredAt then q.timedOut r.occurredAt
  else if q.checks.complete then q.advanced .checksCompleted r.occurredAt none
  else q

end Payment

namespace Operation

/-- Announce that a payment begins to wait or that it waits no longer. -/
def announceWaiting (before : Status) (p : Payment) (limit : UInt64) (now : Time.Instant) :
    Operation Unit :=
  if p.status = .waiting then
    if before = .waiting then pure () else notify (.waiting (p.pending (p.remaining limit now)))
  else if before = .waiting ∧ p.status.terminal then notify (.settled p.requestId)
  else pure ()

/-- Take the result of a check. -/
def applyCheck (limit : UInt64) (r : CheckResult) : Operation Payment := do
  let before ← load r.requestId
  if before.status.terminal then return before
  let after := before.afterCheck limit r
  if after = before then return before
  match ← commit after with
  | .discarded p => return p
  | .applied p =>
      notify (.outcome p.view)
      announceWaiting before.status p limit r.occurredAt
      return p

end Operation

end Clearing
