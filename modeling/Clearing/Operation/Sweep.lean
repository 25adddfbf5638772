import Clearing.Operation.Settle

/-!
# Sweeping expired payments

A sweep declines the open payments whose time is over. Each of them is read again before it is
declined, since it may have been finished in the meantime, and one that cannot be read or written is
left to the next sweep.
-/

namespace Clearing.Operation

/-- Decline one payment if its time is over and nobody else has finished it. -/
def expire (limit : UInt64) (now : Time.Instant) (requestId : String) :
    Operation (Option Payment) := do
  let p ← load requestId
  if p.expired limit now then
    match p.advance .expired now (some Payment.expiredMessage) with
    | none => return none
    | some declined =>
        match ← commit declined with
        | .discarded _ => return none
        | .applied p =>
            announceFinal p
            return some p
  else return none

/-- Do without the result of an operation that ends with a fault. -/
def tolerate {α : Type} (op : Operation (Option α)) : Operation (Option α) :=
  ExceptT.tryCatch op fun _ => pure none

/-- Decline each of the payments in turn. -/
def expireAll (limit : UInt64) (now : Time.Instant) : List Payment → Operation (List Payment)
  | [] => return []
  | p :: rest => do
      let declined ← tolerate (expire limit now p.requestId)
      let others ← expireAll limit now rest
      return declined.toList ++ others

/-- Decline the open payments whose time is over and return them. -/
def sweep (limit : UInt64) (now : Time.Instant) : Operation (List Payment) := do
  let candidates ← ask (.findOverdue limit now)
  expireAll limit now candidates

end Clearing.Operation
