import Clearing.Store.Call

/-!
# Unreliable storages

A storage that cannot read some payments, and in which another writer may let a payment expire right
before it is settled.
-/

namespace Clearing

/-- A store, the requests that cannot be read, and a rival that waits for the next settlement. -/
structure Unreliable where
  store : Store
  unreadable : List String
  /-- Whether the payment of the next settlement expires first. -/
  expireNext : Bool
  /-- The time that the rival writes down. -/
  clock : Time.Instant
  deriving DecidableEq, Repr

namespace Unreliable

/-- A reliable storage, so far. -/
def ofStore (store : Store) (clock : Time.Instant) : Unreliable := ⟨store, [], false, clock⟩

/-- Make a request unreadable. -/
def breakReads (s : Unreliable) (requestId : String) : Unreliable :=
  { s with unreadable := requestId :: s.unreadable }

/-- Let the payment of the next settlement expire first. -/
def expireBeforeSettling (s : Unreliable) : Unreliable := { s with expireNext := true }

/-- Let a payment expire in the store. -/
def expire (store : Store) (requestId : String) (now : Time.Instant) : Store :=
  match store.payments.get? requestId with
  | none => store
  | some p =>
      let declined := (p.advanced .expired now (some Payment.expiredMessage)).succ
      (store.update declined p.version).2

/-- Let the rival act, if it waits. -/
def rivaled (s : Unreliable) (requestId : String) : Unreliable :=
  if s.expireNext then
    { s with store := expire s.store requestId s.clock, expireNext := false }
  else s

/-- Answer a call as the store does. -/
def forward (s : Unreliable) (c : Call) : Except Fault c.Answer × Unreliable :=
  let (answer, store) := s.store.answer c
  (answer, { s with store := store })

/-- Answer a call. -/
def answer (s : Unreliable) (c : Call) : Except Fault c.Answer × Unreliable :=
  match c with
  | .get requestId =>
      if requestId ∈ s.unreadable then
        (.error (.internal (.storage ("cannot read " ++ requestId))), s)
      else s.forward (.get requestId)
  | .commitTransfer p expected t => (s.rivaled p.requestId).forward (.commitTransfer p expected t)
  | c => s.forward c

end Unreliable

instance : Storage Unreliable := ⟨Unreliable.answer⟩

end Clearing
