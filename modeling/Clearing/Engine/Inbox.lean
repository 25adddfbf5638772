import Clearing.Engine.Basic

/-!
# The inbox

A message is tried until it is handled, as often as the policy allows. A message that is refused is
given back at once, one that lost against another writer is done with, and one that failed every
time is laid aside with its last fault.
-/

namespace Clearing

/-- A message that failed every time. -/
structure DeadLetter where
  message : Message
  fault : Fault
  attempts : Nat
  deriving DecidableEq, Repr

/-- What became of a message. -/
inductive Delivery where
  | processed (payments : List Payment)
  | rejected (fault : Fault)
  | deadLettered
  deriving DecidableEq, Repr

/-- What a fault means for the message that met it. -/
inductive Delivery.Verdict where
  /-- Another writer has done the work. -/
  | superseded
  /-- A further try may succeed. -/
  | again
  | refused
  deriving DecidableEq, Repr

/-- What a fault means for the message that met it. -/
def Fault.verdict : Fault → Delivery.Verdict
  | .conflict _ => .superseded
  | fault => if fault.retryable then .again else .refused

/-- The way of messages into an engine. -/
structure Inbox (σ : Type) where
  engine : Engine σ
  policy : RetryPolicy
  /-- The messages laid aside, oldest first. -/
  deadLetters : List DeadLetter

namespace Inbox

variable {σ : Type} [Storage σ]

/-- An inbox with nothing laid aside. -/
def ofEngine (e : Engine σ) : Inbox σ := ⟨e, e.settings.retryPolicy, []⟩

/-- Lay a message aside. -/
def layAside (i : Inbox σ) (letter : DeadLetter) : Inbox σ :=
  { i with deadLetters := i.deadLetters ++ [letter] }

/-- Try a message, and `left` times more after faults that may pass. `attempt` counts the tries. -/
def deliverFrom (m : Message) (now : Time.Instant) (attempt : Nat) (left : Nat) (i : Inbox σ) :
    Delivery × Inbox σ :=
  match i.engine.handle now m with
  | (.ok payments, e) => (.processed payments, { i with engine := e })
  | (.error fault, e) =>
      let i := { i with engine := e }
      match fault.verdict with
      | .superseded => (.processed [], i)
      | .refused => (.rejected fault, i)
      | .again =>
          match left with
          | 0 => (.deadLettered, i.layAside ⟨m, fault, attempt⟩)
          | left + 1 => deliverFrom m now (attempt + 1) left i

/-- Deliver a message. -/
def deliver (i : Inbox σ) (m : Message) (now : Time.Instant) : Delivery × Inbox σ :=
  deliverFrom m now 1 (i.policy.maxAttempts.toNat - 1) i

/-- Deliver messages one after the other, whatever becomes of each. -/
def deliverAll (i : Inbox σ) (messages : List Message) (now : Time.Instant) : Inbox σ :=
  messages.foldl (fun i m => (i.deliver m now).2) i

end Inbox

end Clearing
