import Clearing.Operation.ApplyCheck
import Clearing.Operation.Submit
import Clearing.Operation.Sweep
import Clearing.Outbox.Basic
import Clearing.Settings

/-!
# The engine

The engine runs operations over a storage, one after the other, and passes their notices on to the
outbox. Settlements go through a worker. The worker stops when the engine is shut down, and also
when a balance becomes too large while it is settling; nothing is settled afterwards.
-/

namespace Clearing

/-- The running system over some storage. -/
structure Engine (σ : Type) where
  settings : Settings
  storage : σ
  outbox : Outbox
  /-- Whether the worker takes settlements. -/
  running : Bool

namespace Engine

variable {σ : Type} [Storage σ] {α : Type}

/-- An engine that has just been started. -/
def start (settings : Settings) (storage : σ) (topicCapacity : Nat) : Engine σ :=
  ⟨settings, storage, .ofCapacities settings.feedCapacity.toNat topicCapacity, true⟩

/-- Run an operation. -/
def perform (e : Engine σ) (op : Operation α) : Except Fault α × Engine σ :=
  let o := op.run e.storage
  (o.result, { e with storage := o.storage, outbox := e.outbox.acceptAll o.notices })

/-- Open an account and store it, over any account of that name. -/
def openAccount (e : Engine σ) (id : AccountId) (balance : Decimal) :
    Except Fault Account × Engine σ :=
  e.perform do
    let a ← Operation.ofExcept (Account.opening id balance)
    Operation.ask (.storeAccount a)
    return a

/-- Take a submission. -/
def submit (e : Engine σ) (s : Submission) (now : Time.Instant) :
    Except Fault Payment × Engine σ :=
  e.perform (Operation.submit s now)

/-- Take the result of a check. -/
def applyCheck (e : Engine σ) (r : CheckResult) : Except Fault Payment × Engine σ :=
  e.perform (Operation.applyCheck e.settings.timeLimit r)

/-- What the worker answers. A settlement whose balance becomes too large stops it. -/
def work (e : Engine σ) (op : Operation α) : Except Fault α × Engine σ :=
  match e.perform op with
  | (.error (.overflow _), e) => (.error (.internal .jobDropped), { e with running := false })
  | answer => answer

/-- Take the decision of a payer. -/
def confirm (e : Engine σ) (d : Decision) (now : Time.Instant) : Except Fault Payment × Engine σ :=
  if e.running then e.work (Operation.settle e.settings.timeLimit d now)
  else (.error (.internal .workerStopped), e)

/-- Decline the payments whose time is over. -/
def sweep (e : Engine σ) (now : Time.Instant) : Except Fault (List Payment) × Engine σ :=
  e.perform (Operation.sweep e.settings.timeLimit now)

/-- Sweep at each of some instants. A sweep that fails is left to the next one. -/
def sweepAt (e : Engine σ) (ticks : List Time.Instant) : Engine σ :=
  ticks.foldl (fun e now => (e.sweep now).2) e

/-- A single payment as the result of a message. -/
def single (answer : Except Fault Payment × Engine σ) : Except Fault (List Payment) × Engine σ :=
  (answer.1.map ([·]), answer.2)

/-- Take a message that arrives now, and answer with the payments it changed or read. -/
def handle (e : Engine σ) (now : Time.Instant) : Message → Except Fault (List Payment) × Engine σ
  | .submit s => single (e.submit s now)
  | .check r => single (e.applyCheck r)
  | .confirm d time => single (e.confirm d (time.getD now))
  | .sweep time => e.sweep time

/-- The payment of a request, if there is one. -/
def payment? (e : Engine σ) (requestId : String) : Except Fault (Option Payment) × Engine σ :=
  e.perform (Operation.ask (.get requestId))

/-- Every payment. -/
def payments (e : Engine σ) : Except Fault (List Payment) × Engine σ :=
  e.perform (Operation.ask .allPayments)

/-- Every account. -/
def accounts (e : Engine σ) : Except Fault (List Account) × Engine σ :=
  e.perform (Operation.ask .allAccounts)

/-- Stop the worker. -/
def shutdown (e : Engine σ) : Engine σ := { e with running := false }

/-- An engine that was shut down settles nothing. -/
theorem confirm_shutdown (e : Engine σ) (d : Decision) (now : Time.Instant) :
    e.shutdown.confirm d now = (.error (.internal .workerStopped), e.shutdown) := rfl

end Engine

end Clearing
