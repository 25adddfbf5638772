import Clearing.Operation.Commit
import Clearing.Payment.TimeLimit

/-!
# Settling a payment

The decision of the payer finishes a payment that waits with all its checks passed. A late decision
declines it, and so does a negative one. A positive one moves the money, if the payer has it.
-/

namespace Clearing.Operation

/-- Send the outcome of a payment that is finished. -/
def announceFinal (p : Payment) : Operation Unit := do
  notify (.outcome p.view)
  notify (.settled p.requestId)

/-- Read the account of a payer. -/
def loadAccount (id : AccountId) : Operation Account := do
  match ← ask (.getAccount id) with
  | some a => return a
  | none => fail (.unknownAccount id)

/-- Finish a payment that cannot be paid. -/
def finishUnfunded (p : Payment) (now : Time.Instant) : Operation Committed :=
  commit (p.advanced (.confirmed false) now (some Payment.unfundedMessage))

/-- Move the money and finish the payment. The payer may have become unable to pay since the
account was read. -/
def finishFunded (p : Payment) (now : Time.Instant) : Operation Committed := do
  let completed := (p.advanced (.confirmed true) now (some Payment.completedMessage)).succ
  match ← ask (.commitTransfer completed p.version completed.transfer) with
  | .settled => return .applied completed
  | .conflict => return .discarded (← load p.requestId)
  | .insufficientFunds => finishUnfunded p now

/-- Finish a payment that the payer confirmed in time. -/
def pay (p : Payment) (now : Time.Instant) : Operation Committed := do
  let payer ← loadAccount p.payer
  if payer.covers p.amount then finishFunded p now else finishUnfunded p now

/-- Finish a payment that waits, as the payer decided. -/
def conclude (limit : UInt64) (d : Decision) (p : Payment) (now : Time.Instant) :
    Operation Committed :=
  if p.expired limit now then
    commit (p.advanced .expired now (some Payment.expiredMessage))
  else if d.confirmed then pay p now
  else commit (p.advanced .rejected now (some Payment.declinedMessage))

/-- Take the decision of a payer. -/
def settle (limit : UInt64) (d : Decision) (now : Time.Instant) : Operation Payment := do
  let p ← load d.requestId
  if p.status ≠ .waiting ∨ !p.checks.complete then
    fail (.misstep (.notWaiting p.requestId p.status))
  else
    match ← conclude limit d p now with
    | .discarded current => return current
    | .applied settled =>
        announceFinal settled
        return settled

end Clearing.Operation
