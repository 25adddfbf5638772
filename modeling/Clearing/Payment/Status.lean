/-!
# Statuses of a payment

The status of a payment changes only through `Status.next`, which says where an event leads. Three
statuses are final and no event leaves them.
-/

namespace Clearing

/-- Where a payment stands. -/
inductive Status where
  /-- Submitted, with checks missing. -/
  | processing
  /-- Submitted again before it was finished, with checks missing. -/
  | reprocessing
  /-- All checks passed; the payer has to confirm. -/
  | waiting
  /-- The money was moved. -/
  | completed
  /-- The payer confirmed and could not pay. -/
  | insufficientResources
  /-- A check failed, the payer declined or the time ran out. -/
  | declined
  deriving DecidableEq, Repr

namespace Status

/-- What happened to a payment. -/
inductive Event where
  /-- The same request was submitted again. -/
  | resubmitted
  | checkFailed
  /-- The last missing check passed. -/
  | checksCompleted
  /-- The time limit elapsed. -/
  | expired
  /-- The payer confirmed, with or without the money to pay. -/
  | confirmed (funded : Bool)
  /-- The payer declined. -/
  | rejected
  deriving DecidableEq, Repr

/-- No event leaves a final status. -/
def terminal : Status → Bool
  | .completed | .insufficientResources | .declined => true
  | .processing | .reprocessing | .waiting => false

/-- The statuses that expiry looks at. -/
def opens : List Status := [.processing, .reprocessing, .waiting]

/-- The status after an event; none when the event does not move the payment. -/
def next (s : Status) (e : Event) : Option Status :=
  if s.terminal then none
  else
    match e with
    | .resubmitted => some .reprocessing
    | .checkFailed | .expired => some .declined
    | .checksCompleted => if s = .waiting then none else some .waiting
    | .confirmed funded =>
        if s = .waiting then some (if funded then .completed else .insufficientResources)
        else none
    | .rejected => if s = .waiting then some .declined else none

/-- The name of a status in messages and reports. -/
def name : Status → String
  | .processing => "PROCESSING"
  | .reprocessing => "REPROCESSING"
  | .waiting => "WAITING_FOR_USER_CONFIRMATION"
  | .completed => "COMPLETED"
  | .insufficientResources => "INSUFFICIENT_RESOURCES"
  | .declined => "DECLINED"

instance : ToString Status := ⟨name⟩

/-- Every status. -/
def all : List Status :=
  [.processing, .reprocessing, .waiting, .completed, .insufficientResources, .declined]

/-- The status of a name. -/
def ofName? (s : String) : Option Status := all.find? (·.name == s)

/-- Nothing leaves a final status. -/
@[simp] theorem next_of_terminal {s : Status} (h : s.terminal = true) (e : Event) :
    s.next e = none := by simp [next, h]

/-- A status is open exactly when it is not final. -/
theorem mem_opens_iff {s : Status} : s ∈ opens ↔ s.terminal = false := by
  cases s <;> decide

/-- Every open status can be resubmitted. -/
theorem next_resubmitted {s : Status} (h : s.terminal = false) :
    s.next .resubmitted = some .reprocessing := by simp [next, h]

/-- A name leads back to its status. -/
theorem ofName?_name (s : Status) : ofName? s.name = some s := by
  cases s <;> decide

end Status

end Clearing
