import Clearing.Proofs.Payment.Change

/-!
# Well-formed payments

What a record says agrees with its status: which checks have passed, whether it is stamped and what
is noted. A submission begins a well-formed record and every change makes one of another, so each
field is set, kept or cleared as the new status wants it.
-/

namespace Clearing.Payment

open Clearing.Time

/-- Whether checks are missing and nothing has happened yet. -/
structure Unchecked (p : Payment) : Prop where
  missing : p.checks.complete = false
  processedAt : p.processedAt = none
  failureMessage : p.failureMessage = none

/-- Whether all checks have passed, and that was stamped in time. -/
structure Awaited (limit : UInt64) (p : Payment) : Prop where
  complete : p.checks.complete = true
  inTime : ∃ time, p.processedAt = some time ∧ ¬ p.expired limit time
  failureMessage : p.failureMessage = none

/-- Whether all checks have passed, and the payment was stamped and noted with a message. -/
structure Concluded (message : String) (p : Payment) : Prop where
  complete : p.checks.complete = true
  processedAt : p.processedAt ≠ none
  failureMessage : p.failureMessage = some message

/-- Whether a payment is stamped and says why it was declined. -/
structure Refused (p : Payment) : Prop where
  processedAt : p.processedAt ≠ none
  failureMessage : p.failureMessage ≠ none

/-- What a status wants of a record. -/
def Agrees (limit : UInt64) (p : Payment) : Status → Prop
  | .processing => p.generation = 0 ∧ p.Unchecked
  | .reprocessing => p.Unchecked
  | .waiting => p.Awaited limit
  | .completed => p.Concluded completedMessage
  | .insufficientResources => p.Concluded unfundedMessage
  | .declined => p.Refused

/-- Whether the names and the amount of a record are such as a submission may have, and the record
agrees with its status. -/
structure WellFormed (limit : UInt64) (p : Payment) : Prop where
  proper : p.Proper
  positive : p.amount.value.positive
  agrees : p.Agrees limit p.status

variable {limit : UInt64} {p q : Payment} {r : Request}

theorem wellFormed_begun {s : Submission} (accepted : s.refusal? = none) (now : Instant)
    (id : UInt64) : ((begun s now).numbered id).WellFormed limit :=
  ⟨proper_begun accepted now id, s.amount.positive, rfl, rfl, rfl, rfl⟩

/-- An open payment that does not wait has checks missing. -/
theorem unchecked_of_open (h : p.Agrees limit p.status) (isOpen : p.status.terminal = false)
    (hw : p.status ≠ .waiting) : p.Unchecked := by
  cases hs : p.status with
  | processing =>
    rw [hs] at h
    exact h.2
  | reprocessing =>
    rw [hs] at h
    exact h
  | waiting => exact absurd hs hw
  | completed | insufficientResources | declined =>
    rw [hs] at isOpen
    exact absurd isOpen nofun

/-- Checks that are complete stay so. -/
theorem complete_mark {checks : Checks} (h : checks.complete = true) (check : Check) :
    (checks.mark check).complete = true := by
  rw [Checks.complete_iff] at h ⊢
  intro c
  rw [Checks.passed_mark, h c, Bool.true_or]

/-- A record that was declined agrees with its status. -/
theorem DeclinedAt.agrees {time : Instant} (h : p.DeclinedAt time) :
    p.succ.Agrees limit p.succ.status := by
  have hs : p.succ.status = .declined := h.status
  have ht : p.succ.processedAt = some time := h.processedAt
  rw [hs]
  refine ⟨?_, h.failureMessage⟩
  rw [ht]
  exact nofun

/-- The record after a result of a check agrees with its status. -/
theorem agrees_afterCheck {c : CheckResult} (h : p.Agrees limit p.status)
    (isOpen : p.status.terminal = false) :
    (p.afterCheck limit c).succ.Agrees limit (p.afterCheck limit c).succ.status := by
  by_cases refused : c.failed = true ∨ p.expired limit c.occurredAt
  · exact (afterCheck_of_refused isOpen refused).agrees
  · rw [not_or, Bool.not_eq_true] at refused
    rw [afterCheck_of_passed isOpen refused.1 refused.2]
    split
    · next hcomplete =>
      have hu := unchecked_of_open h isOpen hcomplete.2
      exact ⟨hcomplete.1, ⟨c.occurredAt, rfl, refused.2⟩, hu.failureMessage⟩
    · next hsame =>
      change Agrees limit _ p.status
      by_cases hw : p.status = .waiting
      · rw [hw] at h ⊢
        exact ⟨complete_mark h.complete c.check, h.inTime, h.failureMessage⟩
      · have hu := unchecked_of_open h isOpen hw
        have hmissing : (p.checks.mark c.check).complete = false := by
          rw [← Bool.not_eq_true]
          exact fun hc => hsame ⟨hc, hw⟩
        cases hs : p.status with
        | processing =>
          rw [hs] at h
          exact ⟨h.1, hmissing, hu.processedAt, hu.failureMessage⟩
        | reprocessing => exact ⟨hmissing, hu.processedAt, hu.failureMessage⟩
        | waiting => exact absurd hs hw
        | completed | insufficientResources | declined =>
          rw [hs] at isOpen
          exact absurd isOpen nofun

/-- A message that is noted first is the whole message. -/
theorem concluded_of_awaited (h : p.Awaited limit) {status : Status}
    (final : status.terminal = true) (time : Instant) (message : String) :
    ((p.enter status time).append message).succ.Concluded message := by
  refine ⟨h.complete, ?_, ?_⟩
  · change (if status.terminal || status = .waiting then some time else p.processedAt) ≠ none
    rw [final, Bool.true_or, if_pos rfl]
    exact nofun
  · change some (joined p.failureMessage message) = some message
    rw [h.failureMessage]
    rfl

/-- Every change of a well-formed record is well-formed. -/
theorem Change.wellFormed (h : p.Change limit r q) (hp : p.WellFormed limit) :
    q.WellFormed limit := by
  refine ⟨h.proper hp.proper, q.amount.positive, ?_⟩
  have isOpen := h.isOpen
  have hagrees := hp.agrees
  cases h with
  | resubmitted _ next =>
    obtain ⟨-, -, rfl⟩ := regenerate_eq_ok_iff.mp next
    exact ⟨rfl, rfl, rfl⟩
  | checked => exact agrees_afterCheck hagrees isOpen
  | late waits | rejected waits =>
    rw [advanced_of_next (by rw [waits]; rfl)]
    exact (declinedAt_enter_append p _ _).agrees
  | unfunded waits =>
    rw [waits] at hagrees
    rw [advanced_of_next (by rw [waits]; rfl)]
    exact concluded_of_awaited hagrees rfl _ _
  | paid waits =>
    rw [waits] at hagrees
    rw [advanced_of_next (by rw [waits]; rfl)]
    exact concluded_of_awaited hagrees rfl _ _
  | swept _ next =>
    rw [advance_expired isOpen] at next
    cases next
    exact (declinedAt_enter_append p _ _).agrees

end Clearing.Payment
