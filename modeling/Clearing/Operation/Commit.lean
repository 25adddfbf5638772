import Clearing.Store.Program

/-!
# Reading and writing one payment

A changed payment is written over the version that was read. When another writer was faster, the
change is dropped and the record that won is read instead.
-/

namespace Clearing.Operation

/-- Read a payment that has to be there. -/
def load (requestId : String) : Operation Payment := do
  match ← ask (.get requestId) with
  | some p => return p
  | none => fail (.unknownPayment requestId)

/-- What became of a change. -/
inductive Committed where
  /-- The payment as it was written. -/
  | applied (payment : Payment)
  /-- The payment that won. -/
  | discarded (payment : Payment)
  deriving DecidableEq, Repr

/-- Write a changed payment as the next version. -/
def commit (p : Payment) : Operation Committed := do
  match ← ask (.update p.succ p.version) with
  | .applied => return .applied p.succ
  | .conflict => return .discarded (← load p.requestId)

end Clearing.Operation
