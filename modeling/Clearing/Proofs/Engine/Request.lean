import Clearing.Engine.Inbox

/-!
# Requests

The four things that the engine can be asked to do with payments, each with the operation that it
runs. A message asks for one of them, at the time that it names or at the time of its arrival.
-/

namespace Clearing

/-- Results are the same when both are, or when both faults are. -/
instance decidableEqExcept {ε α : Type} [DecidableEq ε] [DecidableEq α] :
    DecidableEq (Except ε α)
  | .error e, .error f => decidable_of_iff (e = f) (by rw [Except.error.injEq])
  | .ok a, .ok b => decidable_of_iff (a = b) (by rw [Except.ok.injEq])
  | .error _, .ok _ | .ok _, .error _ => isFalse (by simp)

/-- What the engine is asked to do with payments, and when. -/
inductive Request where
  | submit (submission : Submission) (now : Time.Instant)
  | check (result : CheckResult)
  | confirm (decision : Decision) (now : Time.Instant)
  | sweep (now : Time.Instant)
  deriving DecidableEq, Repr

/-- The request of a message that arrives now. -/
def Message.request (now : Time.Instant) : Message → Request
  | .submit s => .submit s now
  | .check r => .check r
  | .confirm d time => .confirm d (time.getD now)
  | .sweep time => .sweep time

namespace Request

/-- Run an operation for one payment as one for several. -/
def one (op : Operation Payment) : Operation (List Payment) := do return [← op]

/-- What is run for a request. -/
def operation (limit : UInt64) : Request → Operation (List Payment)
  | .submit s now => one (Operation.submit s now)
  | .check r => one (Operation.applyCheck limit r)
  | .confirm d now => one (Operation.settle limit d now)
  | .sweep now => Operation.sweep limit now

end Request

namespace Engine

variable {σ : Type} [Storage σ]

/-- Answer a request. -/
def serve (e : Engine σ) : Request → Except Fault (List Payment) × Engine σ
  | .submit s now => single (e.submit s now)
  | .check r => single (e.applyCheck r)
  | .confirm d now => single (e.confirm d now)
  | .sweep now => e.sweep now

/-- A message is handled as the request that it makes. -/
theorem handle_eq_serve (e : Engine σ) (now : Time.Instant) (m : Message) :
    e.handle now m = e.serve (m.request now) := by
  cases m <;> rfl

end Engine

namespace Sample

/-- Five units of money. -/
def five : Amount := ⟨⟨5, 0, by decide, Decimal.zero.scale_le⟩, by decide⟩

/-- Nine is a coefficient. -/
theorem nine_lt : (9 : Int).natAbs < Decimal.coefficientBound := by decide

/-- A tenant with nine units and a landlord with none. -/
def accounts : Table Account :=
  (Table.empty.put "tenant" ⟨"tenant", ⟨9, 0, nine_lt, Decimal.zero.scale_le⟩⟩).put "landlord"
    ⟨"landlord", ⟨0, 0, Decimal.zero.coefficient_lt, Decimal.zero.scale_le⟩⟩

/-- The tenant is to pay the rent. -/
def rent : Submission := ⟨"rent", five, "tenant", "landlord", none⟩

def passed (check : Check) : Request := .check ⟨"rent", .epoch, check, false, none⟩

def confirmed : Request := .confirm ⟨"rent", true⟩ .epoch

/-- The rent is checked. -/
def checked : List Request :=
  [.submit rent .epoch, passed .sanction, passed .auth, passed .userConfirmation]

/-- The record of the rent once it is paid. -/
def paid : Payment :=
  ⟨"rent", some 1, five, "tenant", "landlord", .completed, .epoch, some .epoch, ⟨true, true, true⟩,
    some Payment.completedMessage, 0, 4⟩

def outbox : Outbox := ⟨⟨1, by decide⟩, .empty, .empty, ⟨⟨1, by decide⟩, [], 0⟩⟩

end Sample

end Clearing
