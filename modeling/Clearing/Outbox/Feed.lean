import Clearing.Payment.View

/-!
# Feeds

A feed holds the newest outcomes of one account, oldest first. When it is full, the oldest outcome
makes room for the new one.
-/

namespace Clearing.Outbox

/-- A bound of at least one. -/
structure Capacity where
  bound : Nat
  positive : 0 < bound
  deriving DecidableEq, Repr

/-- The capacity of a wanted bound; no bound at all counts as one. -/
def Capacity.ofNat (n : Nat) : Capacity := ⟨max n 1, Nat.le_max_right n 1⟩

/-- Add to a bounded queue. -/
def push {α : Type} (c : Capacity) (queue : List α) (x : α) : List α :=
  (if queue.length = c.bound then queue.drop 1 else queue) ++ [x]

/-- The accounts that hear of an outcome. A payee hears only of money that arrived. -/
def listeners (v : View) : List AccountId :=
  if v.status = .completed then [v.payee, v.payer] else [v.payer]

end Clearing.Outbox
