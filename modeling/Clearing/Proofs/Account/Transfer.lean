import Clearing.Account.Transfer
import Clearing.Proofs.Decimal.Range

/-!
# What a transfer moves

A transfer that is carried out was tried on the accounts that it names, and replaces the balance of
the payer by the difference and the balance of the payee by the sum. Nothing else of the accounts
changes. The payer can always be debited, since a transfer is begun only when the payer can pay. So
there are three ways in which a transfer ends, and what is known of one that succeeds or fails is
read off them.
-/

namespace Clearing

/-- An account that covers an amount can be debited with it, and what is left is neither below zero
nor more than it was. -/
theorem Account.exists_debit {a : Account} {amount : Amount} (covers : a.covers amount) :
    ∃ rest, a.balance.sub amount.value = .ok rest ∧ .zero ≤ rest ∧ rest ≤ a.balance :=
  Decimal.exists_sub_of_le amount.positive covers

namespace Transfer

variable {t : Transfer} {p moved : Parties}

/-- A transfer is begun on the accounts that it names, if the payer can pay. -/
theorem refusal?_eq_none_iff : t.refusal? p = none ↔
    (p.payer.id = t.payer ∧ p.payee.id = t.payee) ∧ p.payer.covers t.amount := by
  unfold refusal?
  split
  · next others =>
    refine iff_of_false nofun fun h => ?_
    exact others.elim (· h.1.1) (· h.1.2)
  · next names =>
    have named : p.payer.id = t.payer ∧ p.payee.id = t.payee := by
      simpa only [not_or, ne_eq, Decidable.not_not] using names
    split
    · next short => exact iff_of_false nofun fun h => short h.2
    · next covers => exact iff_of_true rfl ⟨named, Decidable.not_not.mp covers⟩

/-- A transfer is refused for its accounts or for the payer's balance. -/
theorem refusal_cases {fault : Fault} (h : t.refusal? p = some fault) :
    fault = .misstep .wrongAccounts ∨ fault = .refused .insufficientFunds := by
  unfold refusal? at h
  split at h
  · exact .inl (Option.some.inj h).symm
  · split at h
    · exact .inr (Option.some.inj h).symm
    · exact absurd h nofun

/-- A transfer between the accounts that it names, on a payer who can pay, debits the payer and is
carried out or overflows the payee's balance. -/
theorem apply_of_covers (payer : p.payer.id = t.payer) (payee : p.payee.id = t.payee)
    (covers : p.payer.covers t.amount) :
    ∃ less, p.payer.balance.sub t.amount.value = .ok less ∧
      t.apply p = match p.payee.balance.add t.amount.value with
        | .ok more => (.ok (), ⟨⟨t.payer, less⟩, ⟨t.payee, more⟩⟩)
        | .error cause => (.error (.overflow cause), ⟨⟨t.payer, less⟩, p.payee⟩) := by
  obtain ⟨less, hless, -⟩ := Account.exists_debit covers
  have unrefused : t.refusal? p = none := refusal?_eq_none_iff.mpr ⟨⟨payer, payee⟩, covers⟩
  refine ⟨less, hless, ?_⟩
  simp only [apply, unrefused, Parties.debit, Parties.credit, hless, Except.map, payer]
  cases p.payee.balance.add t.amount.value with
  | error cause => rfl
  | ok more => rw [payee]

/-- How a transfer ends: it is refused and moves nothing, the payee's balance overflows when the
payer has been debited, or it is carried out. -/
inductive Ends (t : Transfer) (p : Parties) : Except Fault Unit × Parties → Prop
  | refused {fault : Fault} (refusal : t.refusal? p = some fault) : Ends t p (.error fault, p)
  | halfway {less : Decimal} (begun : t.refusal? p = none)
      (debit : p.payer.balance.sub t.amount.value = .ok less)
      (full : p.payee.balance.add t.amount.value = .error .addition) :
      Ends t p (.error (.overflow .addition), ⟨⟨t.payer, less⟩, p.payee⟩)
  | carriedOut {less more : Decimal} (begun : t.refusal? p = none)
      (debit : p.payer.balance.sub t.amount.value = .ok less)
      (credit : p.payee.balance.add t.amount.value = .ok more) :
      Ends t p (.ok (), ⟨⟨t.payer, less⟩, ⟨t.payee, more⟩⟩)

theorem ends_apply (t : Transfer) (p : Parties) : t.Ends p (t.apply p) := by
  cases hrefusal : t.refusal? p with
  | some fault =>
    rw [apply_of_refusal hrefusal]
    exact .refused hrefusal
  | none =>
    obtain ⟨⟨payer, payee⟩, covers⟩ := refusal?_eq_none_iff.mp hrefusal
    obtain ⟨less, hless, applied⟩ := apply_of_covers payer payee covers
    rw [applied]
    cases hmore : p.payee.balance.add t.amount.value with
    | ok more => exact .carriedOut hrefusal hless hmore
    | error cause =>
      cases Decimal.cause_of_add hmore
      exact .halfway hrefusal hless hmore

/-- A transfer that is carried out was begun, and replaces the balances of the two accounts. -/
theorem carriedOut_of_apply (h : t.apply p = (.ok (), moved)) : t.refusal? p = none ∧ ∃ less more,
    p.payer.balance.sub t.amount.value = .ok less ∧ p.payee.balance.add t.amount.value = .ok more ∧
      moved = ⟨⟨t.payer, less⟩, ⟨t.payee, more⟩⟩ := by
  have ends := t.ends_apply p
  rw [h] at ends
  cases ends with
  | carriedOut begun debit credit => exact ⟨begun, _, _, debit, credit, rfl⟩

/-- A transfer that is carried out replaces the balances of the two accounts that it names. -/
theorem moves_of_apply (h : t.apply p = (.ok (), moved)) :
    p.payer.id = t.payer ∧ p.payee.id = t.payee ∧ ∃ less more,
      p.payer.balance.sub t.amount.value = .ok less ∧
        p.payee.balance.add t.amount.value = .ok more ∧
        moved = ⟨⟨t.payer, less⟩, ⟨t.payee, more⟩⟩ := by
  obtain ⟨begun, moves⟩ := carriedOut_of_apply h
  obtain ⟨⟨payer, payee⟩, -⟩ := refusal?_eq_none_iff.mp begun
  exact ⟨payer, payee, moves⟩

/-- A transfer that is carried out was on a payer who can pay. -/
theorem covers_of_apply (h : t.apply p = (.ok (), moved)) : p.payer.covers t.amount :=
  (refusal?_eq_none_iff.mp (carriedOut_of_apply h).1).2

/-- Money is moved between the accounts that the transfer names, and they keep their names. -/
theorem names_of_apply (h : t.apply p = (.ok (), moved)) :
    moved.payer.id = t.payer ∧ moved.payee.id = t.payee := by
  obtain ⟨-, -, less, more, -, -, rfl⟩ := moves_of_apply h
  exact ⟨rfl, rfl⟩

/-- A transfer that is carried out leaves neither party below zero, if the payee was not. -/
theorem nonneg_of_apply (h : t.apply p = (.ok (), moved)) (payee : .zero ≤ p.payee.balance) :
    .zero ≤ moved.payer.balance ∧ .zero ≤ moved.payee.balance := by
  obtain ⟨rest, hrest, hnonneg, -⟩ := Account.exists_debit (covers_of_apply h)
  obtain ⟨-, -, less, more, hless, hmore, rfl⟩ := moves_of_apply h
  cases hless.symm.trans hrest
  have hamount := Decimal.positive_iff_worth_pos.mp t.amount.positive
  have hpayee := Decimal.zero_le_iff_worth_nonneg.mp payee
  exact ⟨hnonneg, (Decimal.nearest_of_add hmore).nonneg (by omega)⟩

/-- A transfer that fails was refused or overflows a balance. -/
theorem fault_of_apply {fault : Fault} (h : (t.apply p).1 = .error fault) :
    t.refusal? p = some fault ∨ ∃ cause, fault = .overflow cause := by
  have ends := t.ends_apply p
  generalize t.apply p = ended at ends h
  cases ends with
  | refused refusal =>
    cases h
    exact .inl refusal
  | halfway =>
    cases h
    exact .inr ⟨.addition, rfl⟩
  | carriedOut => exact absurd h nofun

/-- Only the addition to the payee's balance can overflow in a transfer. -/
theorem overflow_of_apply {cause : Decimal.Overflow}
    (h : (t.apply p).1 = .error (.overflow cause)) :
    p.payer.covers t.amount ∧ cause = .addition ∧
      p.payee.balance.add t.amount.value = .error .addition := by
  have ends := t.ends_apply p
  generalize t.apply p = ended at ends h
  cases ends with
  | refused refusal =>
    cases h
    rcases refusal_cases refusal with hfault | hfault <;> exact absurd hfault nofun
  | halfway begun _ full =>
    cases h
    exact ⟨(refusal?_eq_none_iff.mp begun).2, rfl, full⟩
  | carriedOut => exact absurd h nofun

end Transfer

end Clearing
