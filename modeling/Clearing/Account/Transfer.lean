import Clearing.Account.Basic

/-!
# Transfers

A transfer takes an amount from the payer and then gives it to the payee. It is tried on the two
accounts that it names and is refused before anything is moved when the accounts are others or the
payer cannot pay. The payer has already paid when the payee's balance turns out to be too large.
-/

namespace Clearing

/-- Money to be moved between two accounts. -/
structure Transfer where
  payer : AccountId
  payee : AccountId
  amount : Amount
  deriving DecidableEq, Repr

/-- The two sides of a transfer. -/
structure Parties where
  payer : Account
  payee : Account
  deriving DecidableEq, Repr

namespace Parties

/-- Take the amount from the payer. -/
def debit (p : Parties) (amount : Amount) : Except Decimal.Overflow Parties :=
  (p.payer.balance.sub amount.value).map fun b => { p with payer := { p.payer with balance := b } }

/-- Give the amount to the payee. -/
def credit (p : Parties) (amount : Amount) : Except Decimal.Overflow Parties :=
  (p.payee.balance.add amount.value).map fun b => { p with payee := { p.payee with balance := b } }

end Parties

namespace Transfer

/-- Why a transfer is not even begun. -/
def refusal? (t : Transfer) (p : Parties) : Option Fault :=
  if p.payer.id ≠ t.payer ∨ p.payee.id ≠ t.payee then some (.misstep .wrongAccounts)
  else if ¬ p.payer.covers t.amount then some (.refused .insufficientFunds)
  else none

/-- Move the money. The two accounts are given as they stand afterwards, also after a fault. -/
def apply (t : Transfer) (p : Parties) : Except Fault Unit × Parties :=
  match t.refusal? p with
  | some fault => (.error fault, p)
  | none =>
      match p.debit t.amount with
      | .error e => (.error (.overflow e), p)
      | .ok debited =>
          match debited.credit t.amount with
          | .error e => (.error (.overflow e), debited)
          | .ok moved => (.ok (), moved)

/-- A refused transfer moves nothing. -/
theorem apply_of_refusal {t : Transfer} {p : Parties} {f : Fault} (h : t.refusal? p = some f) :
    t.apply p = (.error f, p) := by simp [apply, h]

end Transfer

end Clearing
