import Clearing.Payment.TimeLimit
import Clearing.Store.Table

/-!
# The store

Payments by request and accounts by name. A payment is written only over the version that the writer
has seen and never over a final one; a settlement writes the payment and both accounts or nothing.
-/

namespace Clearing

/-- The answer to a write that depends on a version. -/
inductive Written where
  | applied
  /-- The stored record is another one, or final, or absent. -/
  | conflict
  deriving DecidableEq, Repr

/-- The answer to a settlement. -/
inductive Settled where
  | settled
  | insufficientFunds
  | conflict
  deriving DecidableEq, Repr

/-- All payments and accounts. -/
structure Store where
  payments : Table Payment
  accounts : Table Account
  /-- The number last given to a payment. -/
  lastId : UInt64
  deriving DecidableEq, Repr

namespace Store

/-- The store without payments and accounts. -/
def empty : Store := ⟨.empty, .empty, 0⟩

instance : Inhabited Store := ⟨empty⟩

/-- Whether a write over a version of a payment is admitted. -/
def accepts (s : Store) (requestId : String) (expected : UInt64) : Bool :=
  match s.payments.get? requestId with
  | some stored => stored.version == expected && !stored.status.terminal
  | none => false

/-- Write a payment under its request. -/
def put (s : Store) (p : Payment) : Store :=
  { s with payments := s.payments.put p.requestId p }

/-- Write an account under its name. -/
def putAccount (s : Store) (a : Account) : Store :=
  { s with accounts := s.accounts.put a.id a }

/-- Store a new payment and give it the next number. -/
def insert (s : Store) (p : Payment) : Except Fault Payment × Store :=
  match s.payments.get? p.requestId with
  | some _ => (.error (.conflict p.requestId), s)
  | none =>
      let id := s.lastId + 1
      let numbered := { p with internalId := some id }
      (.ok numbered, { s with lastId := id }.put numbered)

/-- Write a payment over the version that was seen. -/
def update (s : Store) (p : Payment) (expected : UInt64) : Written × Store :=
  if s.accepts p.requestId expected then (.applied, s.put p) else (.conflict, s)

/-- The two accounts of a transfer. -/
def parties (s : Store) (t : Transfer) : Except Fault Parties :=
  match s.accounts.get? t.payer with
  | none => .error (.unknownAccount t.payer)
  | some payer =>
      match s.accounts.get? t.payee with
      | none => .error (.unknownAccount t.payee)
      | some payee => .ok ⟨payer, payee⟩

/-- Write both accounts and the payment. -/
def putSettlement (s : Store) (p : Payment) (parties : Parties) : Store :=
  ((s.putAccount parties.payer).putAccount parties.payee).put p

/-- Move the money and write the payment over the version that was seen. -/
def commitTransfer (s : Store) (p : Payment) (expected : UInt64) (t : Transfer) :
    Except Fault Settled × Store :=
  if s.accepts p.requestId expected then
    match s.parties t with
    | .error fault => (.error fault, s)
    | .ok parties =>
        if parties.payer.covers t.amount then
          match t.apply parties with
          | (.ok (), moved) => (.ok .settled, s.putSettlement p moved)
          | (.error fault, _) => (.error fault, s)
        else (.ok .insufficientFunds, s)
  else (.ok .conflict, s)

/-- Whether the limit of an open payment ends before an instant. -/
def overdue (limit : UInt64) (now : Time.Instant) (p : Payment) : Bool :=
  !p.status.terminal && (p.deadline? limit).any (· < now)

/-- The order of creation. Payments of one instant may come in any order, since a table has none.
The order of their requests is one of the orders that may come, and stands for all of them. -/
def createdBefore (a b : Payment) : Bool :=
  a.createdAt < b.createdAt || (a.createdAt == b.createdAt && decide (a.requestId ≤ b.requestId))

/-- The open payments whose limit has ended, in an order of their creation. -/
def findOverdue (s : Store) (limit : UInt64) (now : Time.Instant) : List Payment :=
  (s.payments.values.filter (overdue limit now)).mergeSort createdBefore

/-- The order of the numbers; a payment without one comes first. -/
def numberedBefore (a b : Payment) : Bool :=
  match a.internalId, b.internalId with
  | none, _ => true
  | some _, none => false
  | some m, some n => m ≤ n

/-- Every payment, in the order of the numbers. -/
def allPayments (s : Store) : List Payment := s.payments.values.mergeSort numberedBefore

/-- Every account, in the order of the names. -/
def allAccounts (s : Store) : List Account := s.accounts.values.mergeSort fun a b => a.id ≤ b.id

/-- A write that is admitted stores the payment. -/
theorem update_of_accepts {s : Store} {p : Payment} {expected : UInt64}
    (h : s.accepts p.requestId expected = true) : s.update p expected = (.applied, s.put p) := by
  simp [update, h]

/-- A write that is not admitted changes nothing. -/
theorem update_of_not_accepts {s : Store} {p : Payment} {expected : UInt64}
    (h : s.accepts p.requestId expected = false) : s.update p expected = (.conflict, s) := by
  simp [update, h]

/-- Nothing is written over a final record. -/
theorem accepts_of_terminal {s : Store} {p : Payment} {requestId : String} (expected : UInt64)
    (h : s.payments.get? requestId = some p) (ht : p.status.terminal = true) :
    s.accepts requestId expected = false := by
  simp [accepts, h, ht]

end Store

end Clearing
