import Clearing.Fault

/-!
# Accounts and amounts

An account holds a balance, which is not negative when it is opened. An amount is what a payment
moves and is above zero. A balance covers an amount when it is at least as large.
-/

namespace Clearing

/-- A sum of money above zero. -/
structure Amount where
  value : Decimal
  positive : value.positive
  deriving DecidableEq, Repr

namespace Amount

/-- The amount of a decimal above zero. -/
def ofDecimal (value : Decimal) : Except Fault Amount :=
  if h : value.positive then .ok ⟨value, h⟩ else .error (.refused .amountNotPositive)

/-- The text of an amount. -/
def text (a : Amount) : String := a.value.text

/-- Exactly the decimals above zero are amounts. -/
theorem ofDecimal_eq_ok_iff {d : Decimal} {a : Amount} : ofDecimal d = .ok a ↔ a.value = d := by
  unfold ofDecimal
  split
  · cases a
    simp only [Except.ok.injEq, mk.injEq]
    exact eq_comm
  · next h =>
    simp only [reduceCtorEq, false_iff]
    rintro rfl
    exact h a.positive

/-- An amount is made again of its value. -/
@[simp] theorem ofDecimal_value (a : Amount) : ofDecimal a.value = .ok a :=
  ofDecimal_eq_ok_iff.mpr rfl

end Amount

/-- The name of an account. -/
abbrev AccountId := String

/-- An account of the ledger. -/
structure Account where
  id : AccountId
  balance : Decimal
  deriving DecidableEq, Repr

namespace Account

/-- Open an account, unless it would begin below zero. -/
def opening (id : AccountId) (balance : Decimal) : Except Fault Account :=
  if balance.negative then .error (.refused .negativeOpeningBalance) else .ok ⟨id, balance⟩

/-- An account is opened with its name and its balance. -/
theorem eq_of_opening {id : AccountId} {balance : Decimal} {a : Account}
    (h : opening id balance = .ok a) : a = ⟨id, balance⟩ := by
  unfold opening at h
  split at h
  · exact absurd h nofun
  · exact (Except.ok.inj h).symm

/-- Whether the account can pay an amount. -/
def covers (a : Account) (amount : Amount) : Prop := amount.value ≤ a.balance

instance (a : Account) (amount : Amount) : Decidable (a.covers amount) :=
  inferInstanceAs (Decidable (_ ≤ _))

end Account

end Clearing
