import Clearing.Proofs.Account.Transfer
import Clearing.Proofs.Decimal.Worth
import Clearing.Proofs.Store.Values
import Clearing.Proofs.Store.Write
import Mathlib.Algebra.Ring.Int.Defs

/-!
# Money in a store

A settlement replaces two balances: the payer's by the decimal nearest to what is left of it and the
payee's by the decimal nearest to what it becomes. All the money there is changes by what was
rounded, which is nothing when both exact balances are decimals. No other write touches a balance.
-/

namespace Clearing

namespace Store

variable {limit : UInt64} {s t : Store} {r : Request} {q : Payment}

/-- What all accounts are worth together. -/
def total (s : Store) : Int := (s.accounts.values.map fun a => a.balance.worth).sum

/-- An account in the place of another one changes what all are worth by what the two differ. -/
theorem total_putAccount {a old : Account} (h : s.accounts.get? a.id = some old) :
    (s.putAccount a).total = s.total + (a.balance.worth - old.balance.worth) := by
  obtain ⟨before, after, hold, hnew⟩ := Table.values_put_of_present h a
  change ((s.accounts.put a.id a).values.map _).sum = (s.accounts.values.map _).sum + _
  rw [hold, hnew]
  simp only [List.map_append, List.map_cons, List.sum_append, List.sum_cons]
  omega

/-- What a transfer makes of the balances of its two accounts: they become the nearest to the exact
ones, the other accounts stay, and all of them together change by what was rounded. -/
structure Moved (s : Store) (t : Transfer) (payer payee less more : Decimal) (after : Store) :
    Prop where
  payerBefore : s.accounts.get? t.payer = some ⟨t.payer, payer⟩
  payeeBefore : s.accounts.get? t.payee = some ⟨t.payee, payee⟩
  debit : less.Nearest (payer.worth - t.amount.value.worth)
  credit : more.Nearest (payee.worth + t.amount.value.worth)
  accounts : ∀ id, after.accounts.get? id =
    if t.payee = id then some ⟨t.payee, more⟩
    else if t.payer = id then some ⟨t.payer, less⟩ else s.accounts.get? id
  total : after.total = s.total + (less.worth - payer.worth) + (more.worth - payee.worth)

/-- Nothing is lost or gained when both exact balances are decimals. -/
theorem Moved.conserved {t : Transfer} {payer payee less more : Decimal} {after : Store}
    (h : s.Moved t payer payee less more after)
    (debit : ∃ d : Decimal, d.worth = payer.worth - t.amount.value.worth)
    (credit : ∃ d : Decimal, d.worth = payee.worth + t.amount.value.worth) :
    less.worth = payer.worth - t.amount.value.worth ∧
      more.worth = payee.worth + t.amount.value.worth ∧ after.total = s.total := by
  obtain ⟨d, hd⟩ := debit
  obtain ⟨e, he⟩ := credit
  have hless := h.debit.exact_of_worth d hd
  have hmore := h.credit.exact_of_worth e he
  have htotal := h.total
  exact ⟨hless, hmore, by omega⟩

/-- What holds of every account holds after one of which it holds was written. -/
theorem forall_putAccount {rule : Account → Prop} (h : ∀ id a, s.accounts.get? id = some a → rule a)
    {b : Account} (hb : rule b) :
    ∀ id a, (s.putAccount b).accounts.get? id = some a → rule a := by
  intro id a ha
  rw [putAccount, Table.get?_put] at ha
  split at ha
  · cases ha
    exact hb
  · exact h id a ha

/-- A settlement leaves the accounts of others. -/
theorem accounts_putSettlement {found moved : Parties}
    (applied : q.transfer.apply found = (.ok (), moved)) {id : AccountId} (payer : q.payer ≠ id)
    (payee : q.payee ≠ id) : (s.putSettlement q moved).accounts.get? id = s.accounts.get? id := by
  obtain ⟨hpayer, hpayee⟩ := Transfer.names_of_apply applied
  have hp : moved.payer.id ≠ id := fun h => payer (hpayer.symm.trans h)
  have hq : moved.payee.id ≠ id := fun h => payee (hpayee.symm.trans h)
  simp only [putSettlement, putAccount, put, Table.get?_put, if_neg hp, if_neg hq]

/-- A settlement changes what all accounts are worth by what it changes of its two accounts. -/
theorem total_putSettlement {found moved : Parties} (hfound : s.parties q.transfer = .ok found)
    (happlied : q.transfer.apply found = (.ok (), moved)) (distinct : q.payer ≠ q.payee) :
    (s.putSettlement q moved).total =
      s.total + (moved.payer.balance.worth - found.payer.balance.worth) +
        (moved.payee.balance.worth - found.payee.balance.worth) := by
  obtain ⟨hpayerId, hpayeeId⟩ := Transfer.names_of_apply happlied
  obtain ⟨hpayer, hpayee⟩ := accounts_of_parties hfound
  rw [← hpayerId] at hpayer
  rw [← hpayeeId] at hpayee
  -- The payee is found where it was, since the payer is another account.
  have hother : (s.putAccount moved.payer).accounts.get? moved.payee.id = some found.payee := by
    rw [putAccount, Table.get?_put, if_neg]
    · exact hpayee
    · rw [hpayerId, hpayeeId]
      exact distinct
  have hdebited := total_putAccount hpayer
  have hcredited := total_putAccount hother
  rw [hdebited] at hcredited
  exact hcredited

/-- A settlement moves the money of its payment. -/
theorem moved_putSettlement {found moved : Parties} (hfound : s.parties q.transfer = .ok found)
    (happlied : q.transfer.apply found = (.ok (), moved)) (distinct : q.payer ≠ q.payee) :
    ∃ payer payee less more,
      s.Moved q.transfer payer payee less more (s.putSettlement q moved) := by
  have htotal := total_putSettlement hfound happlied distinct
  obtain ⟨hpayer, hpayee, less, more, hless, hmore, rfl⟩ := Transfer.moves_of_apply happlied
  obtain ⟨⟨payerId, payer⟩, ⟨payeeId, payee⟩⟩ := found
  dsimp only at hpayer hpayee hless hmore
  subst hpayer hpayee
  obtain ⟨hpayer, hpayee⟩ := accounts_of_parties hfound
  refine ⟨payer, payee, less, more, hpayer, hpayee, Decimal.nearest_of_sub hless,
    Decimal.nearest_of_add hmore, fun id => ?_, htotal⟩
  simp only [putSettlement, putAccount, put, Table.get?_put]

/-- The names of a record that is written are proper if those of all records are. -/
theorem Write.proper (h : s.Write limit r q t) (known : ∀ p ∈ s.payments.values, p.Proper) :
    q.Proper := by
  rcases h.begins_or_changes with ⟨-, b, now, -, accepted, rfl, -⟩ | ⟨p, stored, change, -⟩
  · exact Payment.proper_begun accepted now _
  · exact change.proper (known p (Table.mem_values_iff.mpr ⟨_, stored⟩))

/-- A write that completes a payment moves its money. -/
theorem Write.moved (h : s.Write limit r q t) (completed : q.status = .completed)
    (distinct : q.payer ≠ q.payee) :
    ∃ payer payee less more, s.Moved q.transfer payer payee less more t := by
  cases h with
  | begun => exact absurd completed nofun
  | changed _ _ _ _ unpaid => exact absurd completed unpaid
  | paid _ _ _ _ found applied => exact moved_putSettlement found applied distinct

/-- A write that does not complete a payment leaves every account as it is. -/
theorem Write.accounts_of_unpaid (h : s.Write limit r q t) (unpaid : q.status ≠ .completed) :
    t.accounts = s.accounts := by
  cases h with
  | begun | changed => rfl
  | paid _ _ _ completed => exact absurd completed unpaid

end Store

end Clearing
