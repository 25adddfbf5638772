import Clearing.Proofs.Engine.Request

/-!
# Changes of a payment

Everything that a request can make of a stored record. Each change starts from a record that is not
final, raises its version by one and keeps its name, its number, the time of its first submission
and its payer. Only a submission changes the amount or the payee, and only a confirmation
completes.
-/

namespace Clearing.Payment

open Clearing.Time

/-- The record that a request makes of a stored one. -/
inductive Change (limit : UInt64) (p : Payment) : Request → Payment → Prop
  | resubmitted {s : Submission} {now : Instant} {q : Payment} (payer : p.payer = s.payer)
      (next : p.regenerate s = .ok q) : Change limit p (.submit s now) q.succ
  | checked {r : CheckResult} (isOpen : p.status.terminal = false)
      (differs : p.afterCheck limit r ≠ p) : Change limit p (.check r) (p.afterCheck limit r).succ
  | late {d : Decision} {now : Instant} (waits : p.status = .waiting)
      (complete : p.checks.complete = true) (expired : p.expired limit now) :
      Change limit p (.confirm d now) (p.advanced .expired now (some expiredMessage)).succ
  | rejected {d : Decision} {now : Instant} (waits : p.status = .waiting)
      (complete : p.checks.complete = true) (inTime : ¬ p.expired limit now)
      (no : d.confirmed = false) :
      Change limit p (.confirm d now) (p.advanced .rejected now (some declinedMessage)).succ
  | unfunded {d : Decision} {now : Instant} (waits : p.status = .waiting)
      (complete : p.checks.complete = true) (inTime : ¬ p.expired limit now)
      (yes : d.confirmed = true) :
      Change limit p (.confirm d now)
        (p.advanced (.confirmed false) now (some unfundedMessage)).succ
  | paid {d : Decision} {now : Instant} (waits : p.status = .waiting)
      (complete : p.checks.complete = true) (inTime : ¬ p.expired limit now)
      (yes : d.confirmed = true) :
      Change limit p (.confirm d now)
        (p.advanced (.confirmed true) now (some completedMessage)).succ
  | swept {now : Instant} {q : Payment} (expired : p.expired limit now)
      (next : p.advance .expired now (some expiredMessage) = some q) :
      Change limit p (.sweep now) q.succ

/-- What only a submission or a write changes. -/
structure Keeps (p q : Payment) : Prop where
  requestId : q.requestId = p.requestId
  internalId : q.internalId = p.internalId
  createdAt : q.createdAt = p.createdAt
  transfer : q.transfer = p.transfer
  generation : q.generation = p.generation
  version : q.version = p.version

theorem Keeps.refl (p : Payment) : p.Keeps p := ⟨rfl, rfl, rfl, rfl, rfl, rfl⟩

theorem Keeps.trans {p q r : Payment} (h : p.Keeps q) (h' : q.Keeps r) : p.Keeps r :=
  ⟨h'.requestId.trans h.requestId, h'.internalId.trans h.internalId,
    h'.createdAt.trans h.createdAt, h'.transfer.trans h.transfer,
    h'.generation.trans h.generation, h'.version.trans h.version⟩

theorem Keeps.payer {p q : Payment} (h : p.Keeps q) : q.payer = p.payer :=
  congrArg Transfer.payer h.transfer

theorem keeps_note (p : Payment) (message : Option String) : p.Keeps (p.note message) := by
  cases message <;> exact ⟨rfl, rfl, rfl, rfl, rfl, rfl⟩

theorem keeps_enter (p : Payment) (status : Status) (time : Instant) :
    p.Keeps (p.enter status time) := ⟨rfl, rfl, rfl, rfl, rfl, rfl⟩

/-- An event changes the status, the stamp and the message at most. -/
theorem keeps_of_advance {p q : Payment} {e : Status.Event} {time : Instant}
    {message : Option String} (h : p.advance e time message = some q) : p.Keeps q := by
  obtain ⟨status, -, rfl⟩ := Option.map_eq_some_iff.mp h
  exact (p.keeps_enter status time).trans (keeps_note _ message)

theorem keeps_advanced (p : Payment) (e : Status.Event) (time : Instant)
    (message : Option String) : p.Keeps (p.advanced e time message) := by
  unfold advanced
  cases h : p.advance e time message with
  | none => exact .refl p
  | some q => exact keeps_of_advance h

theorem keeps_judged (p : Payment) (r : CheckResult) : p.Keeps (p.judged r) := by
  unfold judged
  split
  · exact p.keeps_advanced _ _ _
  · exact ⟨rfl, rfl, rfl, rfl, rfl, rfl⟩

theorem keeps_timedOut (p : Payment) (time : Instant) : p.Keeps (p.timedOut time) := by
  unfold timedOut
  cases h : p.advance .expired time (some expiredMessage) with
  | none => exact keeps_note p (some expiredMessage)
  | some q => exact keeps_of_advance h

/-- The result of a check changes the status, the checks, the stamp and the message at most. -/
theorem keeps_afterCheck (p : Payment) (limit : UInt64) (r : CheckResult) :
    p.Keeps (p.afterCheck limit r) := by
  have hj := p.keeps_judged r
  simp only [afterCheck]
  split
  · exact hj.trans (keeps_timedOut _ _)
  · split
    · exact hj.trans (keeps_advanced _ _ _ _)
    · exact hj

/-- Whether the limit is exceeded depends on the time of the first submission alone. -/
theorem expired_congr {p q : Payment} (h : q.createdAt = p.createdAt) (limit : UInt64)
    (now : Instant) : q.expired limit now ↔ p.expired limit now := by
  rw [expired, expired, elapsed, elapsed, h]

/-- An event that moves the status enters it and notes the message. -/
theorem advanced_of_next {p : Payment} {e : Status.Event} {status : Status}
    (h : p.status.next e = some status) (time : Instant) (message : Option String) :
    p.advanced e time message = (p.enter status time).note message := by
  simp [advanced, advance, h]

/-- Only a confirmation with the money to pay completes a payment that waits. -/
theorem advanced_ne_completed {p : Payment} (waits : p.status = .waiting) {e : Status.Event}
    (h : e ≠ .confirmed true) (time : Instant) (message : Option String) :
    (p.advanced e time message).status ≠ .completed := by
  have hnext (status : Status) (hs : p.status.next e = some status) (hc : status ≠ .completed) :
      (p.advanced e time message).status ≠ .completed := by
    rwa [advanced_of_next hs, status_note]
  rw [waits] at hnext
  cases e with
  | resubmitted => exact hnext .reprocessing rfl (by decide)
  | checkFailed => exact hnext .declined rfl (by decide)
  | checksCompleted =>
    rw [advanced, advance, waits]
    intro hc
    cases waits.symm.trans hc
  | expired => exact hnext .declined rfl (by decide)
  | confirmed funded =>
    cases funded with
    | true => exact absurd rfl h
    | false => exact hnext .insufficientResources rfl (by decide)
  | rejected => exact hnext .declined rfl (by decide)

/-- A confirmation with the money to pay completes a payment that waits. -/
theorem completed_advanced {p : Payment} (waits : p.status = .waiting) (time : Instant)
    (message : Option String) :
    (p.advanced (.confirmed true) time message).status = .completed := by
  rw [advanced_of_next (by rw [waits]; rfl)]
  exact status_note _ _

/-- The first generation that a submission begins. -/
def begun (s : Submission) (now : Instant) : Payment :=
  ⟨s.requestId, none, s.amount, s.payer, s.payee, .processing, s.createdAt.getD now, none, .none,
    none, 0, 0⟩

/-- A record with the number that it was given. -/
def numbered (p : Payment) (id : UInt64) : Payment := { p with internalId := some id }

/-- The next generation that a submission makes. -/
def renewed (p : Payment) (s : Submission) : Payment :=
  { p with
    amount := s.amount
    payer := s.payer
    payee := s.payee
    status := .reprocessing
    checks := .none
    processedAt := none
    failureMessage := none
    generation := p.generation + 1 }

theorem ofSubmission_eq_ok_iff {s : Submission} {now : Instant} {p : Payment} :
    ofSubmission s now = .ok p ↔ s.refusal? = none ∧ p = begun s now := by
  cases h : s.refusal? with
  | none =>
    simp only [ofSubmission, Submission.validate, h, true_and]
    exact ⟨fun hp => (Except.ok.inj hp).symm, fun hp => congrArg Except.ok hp.symm⟩
  | some cause =>
    simp only [ofSubmission, Submission.validate, h, reduceCtorEq, false_and, iff_false]
    exact nofun

/-- A payment is submitted again exactly when it is not final. -/
theorem regenerate_eq_ok_iff {p q : Payment} {s : Submission} :
    p.regenerate s = .ok q ↔
      s.refusal? = none ∧ p.status.terminal = false ∧ q = p.renewed s := by
  cases h : s.refusal? with
  | some cause =>
    simp only [regenerate, Submission.validate, h, reduceCtorEq, false_and, iff_false]
    exact nofun
  | none =>
    cases ht : p.status.terminal with
    | true =>
      simp only [regenerate, Submission.validate, h, Status.next_of_terminal ht, reduceCtorEq,
        false_and, and_false, iff_false]
      exact nofun
    | false =>
      simp only [regenerate, Submission.validate, h, Status.next_resubmitted ht, true_and]
      exact ⟨fun hq => (Except.ok.inj hq).symm, fun hq => congrArg Except.ok hq.symm⟩

/-- A payment that is not final is declined when its time is over. -/
theorem advance_expired {p : Payment} (h : p.status.terminal = false) (time : Instant) :
    p.advance .expired time (some expiredMessage) =
      some ((p.enter .declined time).append expiredMessage) := by
  simp [advance, Status.next, h, note]

theorem judged_of_failed {p : Payment} {r : CheckResult} (isOpen : p.status.terminal = false)
    (h : r.failed = true) :
    p.judged r = (p.enter .declined r.occurredAt).append r.failure := by
  rw [judged, if_pos h]
  exact advanced_of_next (by simp [Status.next, isOpen]) _ _

theorem judged_of_passed {p : Payment} {r : CheckResult} (h : r.failed = false) :
    p.judged r = { p with checks := p.checks.mark r.check } := by
  simp [judged, h]

/-- What is known of a payment that was declined at some time. -/
structure DeclinedAt (p : Payment) (time : Instant) : Prop where
  status : p.status = .declined
  processedAt : p.processedAt = some time
  failureMessage : p.failureMessage ≠ none

theorem declinedAt_enter_append (p : Payment) (time : Instant) (message : String) :
    ((p.enter .declined time).append message).DeclinedAt time := ⟨rfl, rfl, nofun⟩

/-- A declined payment notes a further message and is moved by no event. -/
theorem DeclinedAt.append {p : Payment} {time : Instant} (h : p.DeclinedAt time)
    (message : String) : (p.append message).DeclinedAt time := ⟨h.status, h.processedAt, nofun⟩

theorem DeclinedAt.advance {p : Payment} {time : Instant} (h : p.DeclinedAt time)
    (e : Status.Event) (later : Instant) (message : Option String) :
    p.advance e later message = none := advance_of_terminal (by rw [h.status]; rfl) e later message

/-- Time that is over declines the payment, whether or not it was declined by the same result. -/
theorem declinedAt_timedOut {p : Payment} {time : Instant}
    (h : p.status.terminal = false ∨ p.DeclinedAt time) : (p.timedOut time).DeclinedAt time := by
  rcases h with h | h
  · rw [timedOut, advance_expired h]
    exact declinedAt_enter_append p time expiredMessage
  · rw [timedOut, h.advance]
    exact h.append expiredMessage

/-- A failed or late result of a check declines the payment. -/
theorem afterCheck_of_refused {p : Payment} {limit : UInt64} {r : CheckResult}
    (isOpen : p.status.terminal = false) (h : r.failed = true ∨ p.expired limit r.occurredAt) :
    (p.afterCheck limit r).DeclinedAt r.occurredAt := by
  have hexp := expired_congr (p.keeps_judged r).createdAt limit r.occurredAt
  cases hf : r.failed with
  | true =>
    have hd : (p.judged r).DeclinedAt r.occurredAt := by
      rw [judged_of_failed isOpen hf]
      exact declinedAt_enter_append _ _ _
    simp only [afterCheck]
    split
    · exact declinedAt_timedOut (.inr hd)
    · split
      · rwa [advanced, hd.advance]
      · exact hd
  | false =>
    have hlate : p.expired limit r.occurredAt := h.resolve_left (by simp [hf])
    rw [afterCheck, if_pos (hexp.mpr hlate)]
    refine declinedAt_timedOut (.inl ?_)
    rwa [judged_of_passed hf]

/-- A passed result in time marks the check and lets a complete payment wait. -/
theorem afterCheck_of_passed {p : Payment} {limit : UInt64} {r : CheckResult}
    (isOpen : p.status.terminal = false) (passed : r.failed = false)
    (inTime : ¬ p.expired limit r.occurredAt) :
    p.afterCheck limit r =
      if (p.checks.mark r.check).complete ∧ p.status ≠ .waiting then
        { p with checks := p.checks.mark r.check }.enter .waiting r.occurredAt
      else { p with checks := p.checks.mark r.check } := by
  have hexp := expired_congr (p.keeps_judged r).createdAt limit r.occurredAt
  rw [afterCheck, if_neg fun h => inTime (hexp.mp h), judged_of_passed passed]
  by_cases hw : p.status = .waiting
  · simp [hw, advanced, advance, Status.next, Status.terminal]
  · simp [hw, advanced, advance, Status.next, isOpen, note]

/-- A result that leaves a payment open has passed in time. -/
theorem passed_of_open {p : Payment} {limit : UInt64} {r : CheckResult}
    (isOpen : p.status.terminal = false) (h : (p.afterCheck limit r).status.terminal = false) :
    r.failed = false ∧ ¬ p.expired limit r.occurredAt := by
  rw [← Bool.not_eq_true, ← not_or]
  intro refused
  rw [(afterCheck_of_refused isOpen refused).status] at h
  exact absurd h nofun

/-- A passed result in time marks its check and no other. -/
theorem checks_afterCheck_of_passed {p : Payment} {limit : UInt64} {r : CheckResult}
    (isOpen : p.status.terminal = false) (passed : r.failed = false)
    (inTime : ¬ p.expired limit r.occurredAt) :
    (p.afterCheck limit r).checks = p.checks.mark r.check := by
  rw [afterCheck_of_passed isOpen passed inTime]
  split <;> rfl

variable {limit : UInt64} {p q : Payment} {r : Request}

/-- Only a record that is not final is changed. -/
theorem Change.isOpen (h : p.Change limit r q) : p.status.terminal = false := by
  cases h with
  | resubmitted _ next => exact (regenerate_eq_ok_iff.mp next).2.1
  | checked isOpen _ => exact isOpen
  | late waits | rejected waits | unfunded waits | paid waits =>
    rw [waits]
    rfl
  | swept _ next =>
    cases ht : p.status.terminal with
    | false => rfl
    | true =>
      rw [advance_of_terminal ht] at next
      exact absurd next nofun

/-- A change is a new generation or keeps everything that a submission fixes. -/
theorem Change.renews_or_keeps (h : p.Change limit r q) :
    (∃ s now, r = .submit s now ∧ s.refusal? = none ∧ p.payer = s.payer ∧
      q = (p.renewed s).succ) ∨
    (∀ s now, r ≠ .submit s now) ∧ ∃ next, p.Keeps next ∧ q = next.succ := by
  cases h with
  | resubmitted payer next =>
    obtain ⟨accepted, -, rfl⟩ := regenerate_eq_ok_iff.mp next
    exact .inl ⟨_, _, rfl, accepted, payer, rfl⟩
  | checked => exact .inr ⟨fun _ _ => nofun, _, keeps_afterCheck _ _ _, rfl⟩
  | late | rejected | unfunded | paid =>
    exact .inr ⟨fun _ _ => nofun, _, keeps_advanced _ _ _ _, rfl⟩
  | swept _ next => exact .inr ⟨fun _ _ => nofun, _, keeps_of_advance next, rfl⟩

/-- Whether the names of a payment are such as a submission may have. -/
structure Proper (p : Payment) : Prop where
  requestId : Text.blank p.requestId = false
  payer : Text.blank p.payer = false
  payee : Text.blank p.payee = false
  /-- Nobody pays himself. -/
  distinct : p.payer ≠ p.payee

/-- The names of a submission that is not refused. -/
theorem names_of_accepted {s : Submission} (h : s.refusal? = none) :
    Text.blank s.requestId = false ∧ Text.blank s.payer = false ∧ Text.blank s.payee = false ∧
      s.payer ≠ s.payee := by
  unfold Submission.refusal? at h
  split at h
  · exact absurd h nofun
  · next hid =>
    split at h
    · exact absurd h nofun
    · next hparties =>
      split at h
      · exact absurd h nofun
      · next hdistinct =>
        rw [Bool.not_eq_true] at hid
        rw [Bool.not_eq_true, Bool.or_eq_false_iff] at hparties
        exact ⟨hid, hparties.1, hparties.2, hdistinct⟩

theorem proper_begun {s : Submission} (h : s.refusal? = none) (now : Instant) (id : UInt64) :
    ((begun s now).numbered id).Proper := by
  obtain ⟨hid, hpayer, hpayee, hdistinct⟩ := names_of_accepted h
  exact ⟨hid, hpayer, hpayee, hdistinct⟩

/-- Changes leave the names proper. -/
theorem Change.proper (h : p.Change limit r q) (hp : p.Proper) : q.Proper := by
  rcases h.renews_or_keeps with ⟨s, now, -, accepted, -, rfl⟩ | ⟨-, next, hk, rfl⟩
  · obtain ⟨-, hpayer, hpayee, hdistinct⟩ := names_of_accepted accepted
    exact ⟨hp.requestId, hpayer, hpayee, hdistinct⟩
  · obtain ⟨hid, -, -, htransfer, -, -⟩ := hk
    have hpayer : next.payer = p.payer := congrArg Transfer.payer htransfer
    have hpayee : next.payee = p.payee := congrArg Transfer.payee htransfer
    refine ⟨?_, ?_, ?_, ?_⟩
    · exact (congrArg Text.blank hid).trans hp.requestId
    · exact (congrArg Text.blank hpayer).trans hp.payer
    · exact (congrArg Text.blank hpayee).trans hp.payee
    · intro hsame
      exact hp.distinct (hpayer.symm.trans (hsame.trans hpayee))

/-- A counter that is not at its end is raised by one. -/
theorem toNat_version_succ {v : UInt64} (h : v.toNat + 1 < UInt64.size) :
    (v + 1).toNat = v.toNat + 1 := by
  rw [UInt64.toNat_add]
  exact Nat.mod_eq_of_lt h

/-- What no change touches, and the version that every change raises. -/
structure Follows (p q : Payment) : Prop where
  requestId : q.requestId = p.requestId
  internalId : q.internalId = p.internalId
  createdAt : q.createdAt = p.createdAt
  payer : q.payer = p.payer
  version : q.version = p.version + 1

theorem Change.follows (h : p.Change limit r q) : p.Follows q := by
  rcases h.renews_or_keeps with ⟨s, now, -, -, payer, rfl⟩ | ⟨-, next, hk, rfl⟩
  · exact ⟨rfl, rfl, rfl, payer.symm, rfl⟩
  · exact ⟨hk.requestId, hk.internalId, hk.createdAt, hk.payer,
      congrArg (· + 1) hk.version⟩

/-- The status that a change leads to. -/
theorem Change.status (h : p.Change limit r q) :
    match r with
    | .submit _ _ => q.status = .reprocessing
    | .check _ => q.status = .declined ∨ q.status = .waiting ∨ q.status = p.status
    | .confirm _ _ => q.status.terminal = true
    | .sweep _ => q.status = .declined := by
  cases h with
  | resubmitted _ next =>
    obtain ⟨-, -, rfl⟩ := regenerate_eq_ok_iff.mp next
    rfl
  | @checked r isOpen _ =>
    by_cases hr : r.failed = true ∨ p.expired limit r.occurredAt
    · exact .inl (afterCheck_of_refused isOpen hr).status
    · rw [not_or, Bool.not_eq_true] at hr
      refine .inr ?_
      simp only [succ, afterCheck_of_passed isOpen hr.1 hr.2]
      split
      · exact .inl rfl
      · exact .inr rfl
  | late waits | rejected waits | unfunded waits | paid waits =>
    simp only [succ, advanced, advance, Status.next, waits]
    rfl
  | swept _ next =>
    have hs := status_of_advance next
    simp only [Status.next] at hs
    split at hs
    · cases hs
    · exact (Option.some.inj hs).symm

/-- Only a confirmation in time completes a payment. -/
theorem Change.of_completed (h : p.Change limit r q) (hq : q.status = .completed) :
    ∃ d now, r = .confirm d now ∧ d.confirmed = true ∧ ¬ p.expired limit now ∧
      p.status = .waiting ∧ p.checks.complete = true ∧
      q = (p.advanced (.confirmed true) now (some completedMessage)).succ := by
  have hs := h.status
  cases h with
  | resubmitted => exact absurd (hq.symm.trans hs) nofun
  | checked isOpen =>
    rcases hs with hs | hs | hs
    · exact absurd (hq.symm.trans hs) nofun
    · exact absurd (hq.symm.trans hs) nofun
    · rw [← hs, hq] at isOpen
      exact absurd isOpen nofun
  | late waits | rejected waits | unfunded waits =>
    exact absurd hq (advanced_ne_completed waits (by nofun) _ _)
  | paid waits complete inTime yes => exact ⟨_, _, rfl, yes, inTime, waits, complete, rfl⟩
  | swept => exact absurd (hq.symm.trans hs) nofun

theorem Change.ne_completed (h : p.Change limit r q) (hr : ∀ d now, r ≠ .confirm d now) :
    q.status ≠ .completed := by
  intro hq
  obtain ⟨d, now, he, -⟩ := h.of_completed hq
  exact hr d now he

end Clearing.Payment
