import Clearing.Store.Basic

/-!
# Calls of the store

What can be asked of a store, one indivisible step each, and the type of each answer. A storage is
anything that answers the calls: the store itself does, and storages that disturb the calls are
built around it.
-/

namespace Clearing

/-- One question to the store. -/
inductive Call where
  | get (requestId : String)
  | insert (payment : Payment)
  | update (payment : Payment) (expected : UInt64)
  | findOverdue (limit : UInt64) (now : Time.Instant)
  | allPayments
  | storeAccount (account : Account)
  | getAccount (id : AccountId)
  | allAccounts
  | commitTransfer (payment : Payment) (expected : UInt64) (transfer : Transfer)
  deriving DecidableEq, Repr

namespace Call

/-- What a call is answered with. -/
abbrev Answer : Call → Type
  | .get _ => Option Payment
  | .insert _ => Payment
  | .update _ _ => Written
  | .findOverdue _ _ => List Payment
  | .allPayments => List Payment
  | .storeAccount _ => Unit
  | .getAccount _ => Option Account
  | .allAccounts => List Account
  | .commitTransfer _ _ _ => Settled

/-- The kinds of calls. -/
inductive Kind where
  | get
  | insert
  | update
  | findOverdue
  | allPayments
  | storeAccount
  | getAccount
  | allAccounts
  | commitTransfer
  deriving DecidableEq, Repr

/-- The kind of a call. -/
def kind : Call → Kind
  | .get _ => .get
  | .insert _ => .insert
  | .update _ _ => .update
  | .findOverdue _ _ => .findOverdue
  | .allPayments => .allPayments
  | .storeAccount _ => .storeAccount
  | .getAccount _ => .getAccount
  | .allAccounts => .allAccounts
  | .commitTransfer _ _ _ => .commitTransfer

/-- The request or account that a call is about; empty when it is about all of them. -/
def subject : Call → String
  | .get requestId => requestId
  | .insert p | .update p _ | .commitTransfer p _ _ => p.requestId
  | .storeAccount a => a.id
  | .getAccount id => id
  | .findOverdue _ _ | .allPayments | .allAccounts => ""

end Call

/-- The answer of the store to a call and the store afterwards. -/
def Store.answer (s : Store) : (c : Call) → Except Fault c.Answer × Store
  | .get requestId => (.ok (s.payments.get? requestId), s)
  | .insert p => s.insert p
  | .update p expected => let (written, s) := s.update p expected; (.ok written, s)
  | .findOverdue limit now => (.ok (s.findOverdue limit now), s)
  | .allPayments => (.ok s.allPayments, s)
  | .storeAccount a => (.ok (), s.putAccount a)
  | .getAccount id => (.ok (s.accounts.get? id), s)
  | .allAccounts => (.ok s.allAccounts, s)
  | .commitTransfer p expected t => s.commitTransfer p expected t

/-- Anything that answers calls. -/
class Storage (σ : Type) where
  /-- The answer to a call and the storage afterwards. -/
  answer : σ → (c : Call) → Except Fault c.Answer × σ

instance : Storage Store := ⟨Store.answer⟩

end Clearing
