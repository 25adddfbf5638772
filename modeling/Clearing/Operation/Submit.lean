import Clearing.Operation.Commit

/-!
# Submitting a payment

A request that is not known begins a payment. A request that is known begins a new generation of its
payment, if the payer is the same and the payment is not finished. Both accounts have to exist.
-/

namespace Clearing.Operation

/-- Insist that an account exists. -/
def demandAccount (id : AccountId) : Operation Unit := do
  match ← ask (.getAccount id) with
  | some _ => return ()
  | none => fail (.unknownAccount id)

/-- Store the first generation of a payment. -/
def begin (s : Submission) (now : Time.Instant) : Operation Payment := do
  let p ← ofExcept (Payment.ofSubmission s now)
  ask (.insert p)

/-- Store the next generation of a payment. One that waited waits no longer. -/
def resubmit (existing : Payment) (s : Submission) : Operation Payment := do
  if existing.payer ≠ s.payer then fail (.refused (.otherPayer s.requestId))
  else
    let next ← ofExcept (existing.regenerate s)
    match ← commit next with
    | .applied p =>
        if existing.status = .waiting then notify (.settled p.requestId)
        return p
    | .discarded p => fail (.misstep (.notReopened p.status))

/-- Take a submission. -/
def submit (s : Submission) (now : Time.Instant) : Operation Payment := do
  ofExcept s.validate
  demandAccount s.payer
  demandAccount s.payee
  let known ← ask (.get s.requestId)
  let p ← match known with
    | none => begin s now
    | some existing => resubmit existing s
  notify (.outcome p.view)
  return p

end Clearing.Operation
