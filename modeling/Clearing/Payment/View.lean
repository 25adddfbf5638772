import Clearing.Payment.Record

/-!
# What others see of a payment

The outcome of a payment as it is sent to the accounts, and the request to the payee's side to wait
for a confirmation.
-/

namespace Clearing

/-- The outcome of a stored change. -/
structure View where
  requestId : String
  amount : Amount
  payer : AccountId
  payee : AccountId
  status : Status
  createdAt : Time.Instant
  processedAt : Option Time.Instant
  message : Option String
  deriving DecidableEq, Repr

/-- The outcome that a payment shows. -/
def Payment.view (p : Payment) : View :=
  ⟨p.requestId, p.amount, p.payer, p.payee, p.status, p.createdAt, p.processedAt,
    p.failureMessage⟩

/-- A payment that waits for its confirmation. -/
structure Pending where
  requestId : String
  payer : AccountId
  payee : AccountId
  amount : Amount
  /-- Seconds left when the payment began to wait. -/
  remaining : Int
  deriving DecidableEq, Repr

/-- The notice of a payment that waits. -/
def Payment.pending (p : Payment) (remaining : Int) : Pending :=
  ⟨p.requestId, p.payer, p.payee, p.amount, remaining⟩

end Clearing
