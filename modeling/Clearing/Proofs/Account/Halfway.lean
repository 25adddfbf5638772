import Clearing.Proofs.Account.Transfer
import Clearing.Proofs.Engine.Request

/-!
# Transfers that stop halfway

A transfer that is not carried out leaves both accounts as they were, with one exception: when the
payee cannot hold the amount that was taken from the payer, the payer does not get it back.
-/

namespace Clearing

/-- Whether a transfer stops after the debit: it is on the accounts that it names, the payer can
pay, and the payee's balance would overflow. -/
structure Transfer.Strands (t : Transfer) (p : Parties) : Prop where
  payer : p.payer.id = t.payer
  payee : p.payee.id = t.payee
  covers : p.payer.covers t.amount
  full : p.payee.balance.add t.amount.value = .error .addition

/-- Whatever the accounts and their balances: a transfer that is not carried out leaves both
accounts as they were, unless the payee's balance overflows when the payer has been debited. The
payee is then as before, and the payer stays debited. No other overflow occurs. -/
theorem Transfer.untouched_unless_stranded (t : Transfer) (p : Parties) :
    let answer := (t.apply p).1
    let after := (t.apply p).2
    (answer ≠ .ok () → ¬ t.Strands p → after = p) ∧
      (t.Strands p ↔ ∃ cause, answer = .error (.overflow cause)) ∧
      (t.Strands p → ∃ less, p.payer.balance.sub t.amount.value = .ok less ∧
        after = ⟨⟨t.payer, less⟩, p.payee⟩) := by
  intro answer after
  have ends : t.Ends p (answer, after) := t.ends_apply p
  generalize answer = outcome at ends ⊢
  generalize after = accounts at ends ⊢
  -- Stranding is one of the three ways in which a transfer can end, and excludes the others.
  have begun (h : t.Strands p) : t.refusal? p = none :=
    refusal?_eq_none_iff.mpr ⟨⟨h.payer, h.payee⟩, h.covers⟩
  cases ends with
  | refused refusal =>
    have whole : ¬ t.Strands p := fun h => absurd (refusal.symm.trans (begun h)) nofun
    refine ⟨fun _ _ => rfl, iff_of_false whole ?_, fun h => absurd h whole⟩
    rintro ⟨cause, h⟩
    cases h
    rcases refusal_cases refusal with hfault | hfault <;> exact absurd hfault nofun
  | halfway unrefused debit full =>
    obtain ⟨⟨payer, payee⟩, covers⟩ := refusal?_eq_none_iff.mp unrefused
    have stranded : t.Strands p := ⟨payer, payee, covers, full⟩
    exact ⟨fun _ whole => absurd stranded whole, iff_of_true stranded ⟨.addition, rfl⟩,
      fun _ => ⟨_, debit, rfl⟩⟩
  | carriedOut _ _ credit =>
    have whole : ¬ t.Strands p := fun h => absurd (credit.symm.trans h.full) nofun
    exact ⟨fun failed => absurd rfl failed, iff_of_false whole nofun, fun h => absurd h whole⟩

/-- A tenant with nine units and a landlord with as many as there can be. -/
def Sample.brimming : Parties :=
  ⟨⟨"tenant", ⟨9, 0, nine_lt, Decimal.zero.scale_le⟩⟩,
    ⟨"landlord", ⟨79228162514264337593543950335, 0, by decide, Decimal.zero.scale_le⟩⟩⟩

/-- The tenant pays five units that the landlord does not get. -/
theorem Transfer.tenant_stranded :
    let after := (Transfer.apply ⟨"tenant", "landlord", Sample.five⟩ Sample.brimming).2
    (Transfer.apply ⟨"tenant", "landlord", Sample.five⟩ Sample.brimming).1 =
        .error (.overflow .addition) ∧
      after ≠ Sample.brimming ∧ after.payee = Sample.brimming.payee ∧
      Sample.brimming.payer.balance.text = "9" ∧ after.payer.balance.text = "4" := by
  decide +kernel

end Clearing
