import Clearing.Account.Basic
import Clearing.Payment.Check
import Clearing.Text.Blank
import Clearing.Time.Instant

/-!
# Messages

What the outside world sends: a payment to be made, the result of a check, the payer's decision, and
the request to look for payments whose time is over.
-/

namespace Clearing

open Clearing.Text

/-- A payment that somebody wants to be made. -/
structure Submission where
  requestId : String
  amount : Amount
  payer : AccountId
  payee : AccountId
  /-- When the payer asked for it, if that is known. -/
  createdAt : Option Time.Instant
  deriving DecidableEq, Repr

/-- Why a submission is refused, if it is. -/
def Submission.refusal? (s : Submission) : Option Refusal :=
  if blank s.requestId then some .requestIdMissing
  else if blank s.payer || blank s.payee then some .partyMissing
  else if s.payer = s.payee then some .selfPayment
  else none

/-- Refuse a submission without a name, without parties or with one party only. -/
def Submission.validate (s : Submission) : Except Fault Unit :=
  match s.refusal? with
  | some cause => .error (.refused cause)
  | none => .ok ()

/-- The result of a check. -/
structure CheckResult where
  requestId : String
  occurredAt : Time.Instant
  check : Check
  failed : Bool
  reason : Option String
  deriving DecidableEq, Repr

/-- Why the check failed, in words. -/
def CheckResult.failure (r : CheckResult) : String := r.reason.getD (r.check.name ++ " failed")

/-- The payer's answer to a payment that waits for it. -/
structure Decision where
  requestId : String
  confirmed : Bool
  deriving DecidableEq, Repr

/-- A message of the outside world. -/
inductive Message where
  | submit (submission : Submission)
  | check (result : CheckResult)
  | confirm (decision : Decision) (time : Option Time.Instant)
  | sweep (time : Time.Instant)
  deriving DecidableEq, Repr

/-- The request that a message is about. -/
def Message.requestId? : Message → Option String
  | .submit s => some s.requestId
  | .check r => some r.requestId
  | .confirm d _ => some d.requestId
  | .sweep _ => none

end Clearing
