import Clearing.Account.Transfer
import Clearing.Message.Basic

/-!
# The record of a payment

Everything known about a payment. A submission begins it, a later submission of the same request
begins a new generation of it, and events advance its status. The number of the record and the time
of the first submission stay. Every change that is stored raises the version.
-/

namespace Clearing

/-- A payment as it is stored. -/
structure Payment where
  requestId : String
  /-- The number given when the record was first stored. -/
  internalId : Option UInt64
  amount : Amount
  payer : AccountId
  payee : AccountId
  status : Status
  createdAt : Time.Instant
  /-- When the payment became final or began to wait. -/
  processedAt : Option Time.Instant
  checks : Checks
  failureMessage : Option String
  /-- How often the request was submitted again. -/
  generation : UInt32
  /-- How often the record was changed. -/
  version : UInt64
  deriving DecidableEq, Repr

namespace Payment

/-- What is noted when the time is over. -/
def expiredMessage : String := "Payment expired"

/-- What is noted when the payer declines. -/
def declinedMessage : String := "User has declined payment"

/-- What is noted when the payer cannot pay. -/
def unfundedMessage : String := "User has not sufficient resources"

/-- What is noted when the money was moved. -/
def completedMessage : String := "Payment successful"

/-- The first generation of a payment. -/
def ofSubmission (s : Submission) (now : Time.Instant) : Except Fault Payment := do
  s.validate
  .ok
    { requestId := s.requestId
      internalId := none
      amount := s.amount
      payer := s.payer
      payee := s.payee
      status := .processing
      createdAt := s.createdAt.getD now
      processedAt := none
      checks := .none
      failureMessage := none
      generation := 0
      version := 0 }

/-- The next generation of a payment that is not finished. -/
def regenerate (p : Payment) (s : Submission) : Except Fault Payment := do
  s.validate
  match p.status.next .resubmitted with
  | none => .error (.misstep (.notReopened p.status))
  | some status =>
      .ok
        { p with
          amount := s.amount
          payer := s.payer
          payee := s.payee
          status := status
          checks := .none
          processedAt := none
          failureMessage := none
          generation := p.generation + 1 }

/-- A message after an earlier one. -/
def joined (earlier : Option String) (message : String) : String :=
  match earlier with
  | some text => if text.isEmpty then message else text ++ "; " ++ message
  | none => message

/-- Note a message after those already noted. -/
def append (p : Payment) (message : String) : Payment :=
  { p with failureMessage := some (joined p.failureMessage message) }

/-- Note a message, if there is one. -/
def note (p : Payment) : Option String → Payment
  | some message => p.append message
  | none => p

/-- Move to a status. Final statuses and the one that waits are stamped with the time. -/
def enter (p : Payment) (status : Status) (time : Time.Instant) : Payment :=
  { p with
    status := status
    processedAt := if status.terminal || status = .waiting then some time else p.processedAt }

/-- The payment after an event; none when the event does not move it. -/
def advance (p : Payment) (e : Status.Event) (time : Time.Instant) (message : Option String) :
    Option Payment :=
  (p.status.next e).map fun status => (p.enter status time).note message

/-- The payment after an event, or as it was. -/
def advanced (p : Payment) (e : Status.Event) (time : Time.Instant) (message : Option String) :
    Payment :=
  (p.advance e time message).getD p

/-- The record of the next version. -/
def succ (p : Payment) : Payment := { p with version := p.version + 1 }

/-- The transfer that settles the payment. -/
def transfer (p : Payment) : Transfer := ⟨p.payer, p.payee, p.amount⟩

/-- A finished payment is moved by nothing. -/
theorem advance_of_terminal {p : Payment} (h : p.status.terminal = true) (e : Status.Event)
    (time : Time.Instant) (message : Option String) : p.advance e time message = none := by
  simp [advance, h]

/-- Noting a message changes nothing else. -/
@[simp] theorem status_note (p : Payment) (message : Option String) :
    (p.note message).status = p.status := by
  cases message <;> rfl

/-- The status after an event is the one the event leads to. -/
theorem status_of_advance {p q : Payment} {e : Status.Event} {time : Time.Instant}
    {message : Option String} (h : p.advance e time message = some q) :
    p.status.next e = some q.status := by
  obtain ⟨s, hs, rfl⟩ := Option.map_eq_some_iff.mp h
  simpa [enter] using hs

end Payment

end Clearing
