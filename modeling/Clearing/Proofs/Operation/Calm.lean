import Clearing.Proofs.Account.Transfer
import Clearing.Proofs.Payment.CheckOrder
import Clearing.Proofs.Program.Calm
import Clearing.Proofs.Store.Write

/-!
# Operations whose calls never fail

What the operations do that take a submission, the result of a check or the decision of a payer,
when they run alone and no call fails. Nobody is faster, so what is read is what is written over.
-/

namespace Clearing.Operation

open Clearing.Time

variable {w : Scene} {limit : UInt64} {p q : Payment}

/-- A payment that is stored is read. -/
theorem ensures_load_calm {id : String} {post : Except Fault Payment → Scene → Prop}
    (stored : w.store.payments.get? id = some p) (h : post (.ok p) w) :
    (load id).Ensures calm post w := by
  rw [load, ensures_bind]
  refine ensures_ask_calm.mpr ?_
  simp only [Store.answer, stored]
  exact h

/-- A change of the stored record is written. -/
theorem ensures_commit_calm {post : Except Fault Committed → Scene → Prop}
    (stored : w.store.payments.get? q.requestId = some p) (isOpen : p.status.terminal = false)
    (version : q.version = p.version)
    (h : post (.ok (.applied q.succ)) { w with store := w.store.put q.succ }) :
    (commit q).Ensures calm post w := by
  have haccepts : w.store.accepts q.succ.requestId q.version = true := by
    change w.store.accepts q.requestId q.version = true
    simp [Store.accepts, stored, isOpen, version]
  rw [commit, ensures_bind]
  refine ensures_ask_calm.mpr ?_
  simp only [Store.answer, Store.update_of_accepts haccepts]
  exact h

/-- Whatever is announced when a payment begins to wait or waits no longer, the store stays. -/
theorem ensures_announceWaiting_calm {before : Status} {now : Instant}
    {post : Except Fault Unit → Scene → Prop}
    (h : ∀ sent, post (.ok ()) { w with sent := sent }) :
    (announceWaiting before q limit now).Ensures calm post w := by
  unfold announceWaiting
  split
  · split <;> exact h _
  · split <;> exact h _

/-- The result of a check of a stored payment is taken, and the record after it is returned and
stored. -/
theorem ensures_applyCheck_calm {c : CheckResult} (keyed : w.store.Keyed)
    (stored : w.store.payments.get? c.requestId = some p) :
    (applyCheck limit c).Ensures calm
      (fun result after => result = .ok (p.checked limit c) ∧ after.store.Keyed ∧
        after.store.payments.get? c.requestId = some (p.checked limit c)) w := by
  rw [applyCheck, ensures_bind]
  refine ensures_load_calm stored ?_
  rw [rest_ok]
  split
  · next final =>
    have hchecked : p.checked limit c = p := if_pos (.inl final)
    rw [hchecked]
    exact ⟨rfl, keyed, stored⟩
  · next isOpen =>
    dsimp only
    split
    · next same =>
      have hchecked : p.checked limit c = p := if_pos (.inr same)
      rw [hchecked]
      exact ⟨rfl, keyed, stored⟩
    · next differs =>
      have hchecked : p.checked limit c = (p.afterCheck limit c).succ :=
        if_neg (not_or.mpr ⟨isOpen, differs⟩)
      have hkeeps := p.keeps_afterCheck limit c
      have hid : (p.afterCheck limit c).requestId = c.requestId :=
        hkeeps.requestId.trans (keyed _ _ stored)
      have hstored : w.store.payments.get? (p.afterCheck limit c).requestId = some p := by
        rw [hid, stored]
      rw [ensures_bind, hchecked]
      refine ensures_commit_calm hstored (Bool.eq_false_iff.mpr isOpen) hkeeps.version ?_
      simp only [rest_ok, ensures_bind, ensures_notify]
      refine ensures_announceWaiting_calm fun sent => ⟨rfl, keyed.put rfl, ?_⟩
      exact (Table.get?_put _ _ _ _).trans (if_pos hid)

/-- Whether a balance overflows when a payment is settled whose payer has the money. -/
def Overflows (s : Store) (p : Payment) (cause : Decimal.Overflow) : Prop :=
  ∃ parties, s.parties p.transfer = .ok parties ∧ parties.payer.covers p.amount ∧
    (p.transfer.apply parties).1 = .error (.overflow cause)

/-- Whether a decision confirms a payment in time, which waits with all its checks passed, and whose
money overflows a balance. -/
def Overflowing (limit : UInt64) (s : Store) (d : Decision) (now : Instant)
    (cause : Decimal.Overflow) : Prop :=
  ∃ p, s.payments.get? d.requestId = some p ∧ p.status = .waiting ∧ p.checks.complete = true ∧
    ¬ p.expired limit now ∧ d.confirmed = true ∧ Overflows s p cause

/-- Whether a payment is stored that waits with all its checks passed. -/
structure Ready (s : Store) (d : Decision) (p : Payment) : Prop where
  stored : s.payments.get? d.requestId = some p
  waits : p.status = .waiting
  complete : p.checks.complete = true

/-- Whether a decision confirms a payment in time. -/
structure Confirmed (limit : UInt64) (s : Store) (d : Decision) (now : Instant) (p : Payment) :
    Prop extends Ready s d p where
  inTime : ¬ p.expired limit now
  yes : d.confirmed = true

/-- What becomes of a decision when no call fails: the answer, and the store with it. -/
inductive Settlement (limit : UInt64) (s : Store) (d : Decision) (now : Instant) :
    Except Fault Payment → Store → Prop
  | unknown (absent : s.payments.get? d.requestId = none) :
      Settlement limit s d now (.error (.unknownPayment d.requestId)) s
  | unready {p : Payment} (stored : s.payments.get? d.requestId = some p)
      (unready : ¬ (p.status = .waiting ∧ p.checks.complete = true)) :
      Settlement limit s d now (.error (.misstep (.notWaiting p.requestId p.status))) s
  | late {p : Payment} (ready : Ready s d p) (late : p.expired limit now) :
      Settlement limit s d now
        (.ok (p.advanced .expired now (some Payment.expiredMessage)).succ)
        (s.put (p.advanced .expired now (some Payment.expiredMessage)).succ)
  | rejected {p : Payment} (ready : Ready s d p) (inTime : ¬ p.expired limit now)
      (no : d.confirmed = false) :
      Settlement limit s d now
        (.ok (p.advanced .rejected now (some Payment.declinedMessage)).succ)
        (s.put (p.advanced .rejected now (some Payment.declinedMessage)).succ)
  | unfunded {p : Payment} {payer : Account} (confirmed : Confirmed limit s d now p)
      (found : s.accounts.get? p.payer = some payer) (short : ¬ payer.covers p.amount) :
      Settlement limit s d now
        (.ok (p.advanced (.confirmed false) now (some Payment.unfundedMessage)).succ)
        (s.put (p.advanced (.confirmed false) now (some Payment.unfundedMessage)).succ)
  | unknownParty {p : Payment} {fault : Fault} (confirmed : Confirmed limit s d now p)
      (missing : s.parties p.transfer = .error fault) :
      Settlement limit s d now (.error fault) s
  | failed {p : Payment} {parties moved : Parties} {fault : Fault}
      (confirmed : Confirmed limit s d now p) (found : s.parties p.transfer = .ok parties)
      (covers : parties.payer.covers p.amount)
      (applied : p.transfer.apply parties = (.error fault, moved)) :
      Settlement limit s d now (.error fault) s
  | paid {p : Payment} {parties moved : Parties} (confirmed : Confirmed limit s d now p)
      (found : s.parties p.transfer = .ok parties) (covers : parties.payer.covers p.amount)
      (applied : p.transfer.apply parties = (.ok (), moved)) :
      Settlement limit s d now
        (.ok (p.advanced (.confirmed true) now (some Payment.completedMessage)).succ)
        (s.putSettlement (p.advanced (.confirmed true) now (some Payment.completedMessage)).succ
          moved)

section Settle

variable {d : Decision} {now : Instant}

/-- What is asked of the end of a settlement, before it is announced. -/
def Concludes (limit : UInt64) (s : Store) (d : Decision) (now : Instant)
    (result : Except Fault Committed) (after : Scene) : Prop :=
  ∃ answer, Settlement limit s d now answer after.store ∧ result = answer.map Committed.applied

/-- A payment that ends without its money is written over the record that waits. -/
theorem ensures_finished_calm (keyed : w.store.Keyed) (ready : Ready w.store d p)
    (keeps : p.Keeps q)
    (ends : Settlement limit w.store d now (.ok q.succ) (w.store.put q.succ)) :
    (commit q).Ensures calm (Concludes limit w.store d now) w := by
  have hstored : w.store.payments.get? q.requestId = some p := by
    rw [keeps.requestId, keyed _ _ ready.stored]
    exact ready.stored
  have hopen : p.status.terminal = false := by rw [ready.waits]; rfl
  exact ensures_commit_calm hstored hopen keeps.version ⟨.ok q.succ, ends, rfl⟩

/-- The money of a payer who has it is moved. -/
theorem ensures_finishFunded_calm (keyed : w.store.Keyed)
    (confirmed : Confirmed limit w.store d now p) {payer : Account}
    (found : w.store.accounts.get? p.payer = some payer) (covers : payer.covers p.amount) :
    (finishFunded p now).Ensures calm (Concludes limit w.store d now) w := by
  have hkeeps := p.keeps_advanced (.confirmed true) now (some Payment.completedMessage)
  have haccepts : w.store.accepts (p.advanced (.confirmed true) now
      (some Payment.completedMessage)).succ.requestId p.version = true := by
    change w.store.accepts (p.advanced _ _ _).requestId p.version = true
    rw [hkeeps.requestId, keyed _ _ confirmed.stored]
    simp [Store.accepts, confirmed.stored, confirmed.waits, Status.terminal]
  have htransfer : (p.advanced (.confirmed true) now
    (some Payment.completedMessage)).succ.transfer = p.transfer := hkeeps.transfer
  rw [finishFunded, ensures_bind, htransfer]
  refine ensures_ask_calm.mpr ?_
  simp only [Store.answer, Store.commitTransfer, haccepts, if_true]
  cases hparties : w.store.parties p.transfer with
  | error fault => exact ⟨.error fault, .unknownParty confirmed hparties, rfl⟩
  | ok parties =>
    have hpayer : parties.payer = payer :=
      Option.some.inj ((Store.accounts_of_parties hparties).1.symm.trans found)
    have hcovers : parties.payer.covers p.transfer.amount := by rwa [hpayer]
    simp only [if_pos hcovers]
    rcases happlied : p.transfer.apply parties with ⟨fault | done, moved⟩
    · exact ⟨.error fault, .failed confirmed hparties hcovers happlied, rfl⟩
    · exact ⟨.ok _, .paid confirmed hparties hcovers happlied, rfl⟩

/-- A payment that was confirmed in time ends in one of the ways of a settlement. -/
theorem ensures_pay_calm (keyed : w.store.Keyed) (confirmed : Confirmed limit w.store d now p) :
    (pay p now).Ensures calm (Concludes limit w.store d now) w := by
  rw [pay, ensures_bind, loadAccount, ensures_bind]
  refine ensures_ask_calm.mpr ?_
  simp only [Store.answer, rest_ok]
  cases hpayer : w.store.accounts.get? p.payer with
  | none =>
    have hmissing : w.store.parties p.transfer = .error (.unknownAccount p.payer) := by
      simp only [Store.parties, Payment.transfer, hpayer]
    exact ⟨.error _, .unknownParty confirmed hmissing, rfl⟩
  | some payer =>
    rw [ensures_pure, rest_ok]
    split
    · next covers => exact ensures_finishFunded_calm keyed confirmed hpayer covers
    · next short =>
      exact ensures_finished_calm keyed confirmed.toReady (p.keeps_advanced _ _ _)
        (.unfunded confirmed hpayer short)

/-- A payment that waits ends in one of the ways of a settlement. -/
theorem ensures_conclude_calm (keyed : w.store.Keyed) (ready : Ready w.store d p) :
    (conclude limit d p now).Ensures calm (Concludes limit w.store d now) w := by
  unfold conclude
  split
  · next late =>
    exact ensures_finished_calm keyed ready (p.keeps_advanced _ _ _) (.late ready late)
  · next inTime =>
    split
    · next yes => exact ensures_pay_calm keyed ⟨ready, inTime, yes⟩
    · next no =>
      rw [Bool.not_eq_true] at no
      exact ensures_finished_calm keyed ready (p.keeps_advanced _ _ _)
        (.rejected ready inTime no)

/-- When no call fails, settling ends in one of the ways of a settlement. -/
theorem settlement_settle {s : Store} (keyed : s.Keyed) (limit : UInt64) (d : Decision)
    (now : Instant) :
    Settlement limit s d now ((settle limit d now).run s).result
      ((settle limit d now).run s).storage := by
  suffices h : (settle limit d now).Ensures calm (fun result after =>
      Settlement limit s d now result after.store) ⟨s, []⟩ from h.run_calm
  rw [settle, ensures_bind]
  cases hp : s.payments.get? d.requestId with
  | none =>
    rw [load, ensures_bind]
    refine ensures_ask_calm.mpr ?_
    simp only [Store.answer, hp, rest_ok]
    exact .unknown hp
  | some p =>
    refine ensures_load_calm hp ?_
    rw [rest_ok]
    split
    · next unready =>
      refine .unready hp ?_
      rintro ⟨waits, complete⟩
      simp [waits, complete] at unready
    · next ready =>
      simp only [not_or, ne_eq, Decidable.not_not, Bool.not_eq_true', Bool.not_eq_false] at ready
      rw [ensures_bind]
      refine (ensures_conclude_calm keyed ⟨hp, ready.1, ready.2⟩).mono ?_
      rintro result after ⟨answer, ends, rfl⟩
      cases answer <;> exact ends

/-- A settlement ends with an overflow exactly when the decision confirms a payment whose money
overflows a balance. -/
theorem Settlement.overflows_iff {s after : Store} {answer : Except Fault Payment}
    (h : Settlement limit s d now answer after) (cause : Decimal.Overflow) :
    answer = .error (.overflow cause) ↔ Overflowing limit s d now cause := by
  constructor
  · rintro rfl
    cases h with
    | unknownParty _ missing =>
      obtain ⟨id, hunknown⟩ := Store.unknown_of_parties missing
      exact absurd hunknown nofun
    | failed confirmed found covers applied =>
      exact ⟨_, confirmed.stored, confirmed.waits, confirmed.complete, confirmed.inTime,
        confirmed.yes, _, found, covers, congrArg Prod.fst applied⟩
  · rintro ⟨p, stored, waits, complete, inTime, yes, parties, found, covers, overflow⟩
    cases h with
    | unknown absent => cases absent.symm.trans stored
    | unready stored' unready =>
      cases stored'.symm.trans stored
      exact absurd ⟨waits, complete⟩ unready
    | late ready late =>
      cases ready.stored.symm.trans stored
      exact absurd late inTime
    | rejected ready _ no => exact absurd (no.symm.trans yes) nofun
    | unfunded confirmed found' short =>
      cases confirmed.stored.symm.trans stored
      cases found'.symm.trans (Store.accounts_of_parties found).1
      exact absurd covers short
    | unknownParty confirmed missing =>
      cases confirmed.stored.symm.trans stored
      cases missing.symm.trans found
    | failed confirmed found' _ applied =>
      cases confirmed.stored.symm.trans stored
      cases found'.symm.trans found
      rw [applied] at overflow
      cases overflow
      rfl
    | paid confirmed found' _ applied =>
      cases confirmed.stored.symm.trans stored
      cases found'.symm.trans found
      rw [applied] at overflow
      exact absurd overflow nofun

/-- A settlement does not break down. -/
theorem Settlement.ne_internal {s after : Store} {answer : Except Fault Payment}
    (h : Settlement limit s d now answer after) (cause : Breakdown) :
    answer ≠ .error (.internal cause) := by
  rintro rfl
  cases h with
  | unknownParty _ missing =>
    obtain ⟨id, hunknown⟩ := Store.unknown_of_parties missing
    exact absurd hunknown nofun
  | failed _ _ _ applied =>
    rcases Transfer.fault_of_apply (congrArg Prod.fst applied) with refused | ⟨_, overflow⟩
    · rcases Transfer.refusal_cases refused with hfault | hfault <;> exact absurd hfault nofun
    · exact absurd overflow nofun

/-- When no call fails, settling ends with an overflow exactly when the decision confirms a payment
whose money overflows a balance. -/
theorem settle_overflows_iff {s : Store} (keyed : s.Keyed) (limit : UInt64) (d : Decision)
    (now : Instant) (cause : Decimal.Overflow) :
    ((settle limit d now).run s).result = .error (.overflow cause) ↔
      Overflowing limit s d now cause :=
  (settlement_settle keyed limit d now).overflows_iff cause

end Settle

/-- What becomes of a submission when no call fails: the answer, and the store with it. -/
inductive Submitted (s : Store) (b : Submission) (now : Instant) :
    Except Fault Payment → Store → Prop
  | refused {cause : Refusal} (refused : b.refusal? = some cause) :
      Submitted s b now (.error (.refused cause)) s
  | unknownParty {id : AccountId} (accepted : b.refusal? = none) (missing : ¬ s.HasParties b) :
      Submitted s b now (.error (.unknownAccount id)) s
  | begun (accepted : b.refusal? = none) (known : s.HasParties b)
      (absent : s.payments.get? b.requestId = none) :
      Submitted s b now (.ok ((Payment.begun b now).numbered (s.lastId + 1)))
        ({ s with lastId := s.lastId + 1 }.put ((Payment.begun b now).numbered (s.lastId + 1)))
  | otherPayer {p : Payment} (accepted : b.refusal? = none) (known : s.HasParties b)
      (stored : s.payments.get? b.requestId = some p) (other : p.payer ≠ b.payer) :
      Submitted s b now (.error (.refused (.otherPayer b.requestId))) s
  | final {p : Payment} (accepted : b.refusal? = none) (known : s.HasParties b)
      (stored : s.payments.get? b.requestId = some p) (payer : p.payer = b.payer)
      (final : p.status.terminal = true) :
      Submitted s b now (.error (.misstep (.notReopened p.status))) s
  | again {p : Payment} (accepted : b.refusal? = none) (known : s.HasParties b)
      (stored : s.payments.get? b.requestId = some p) (payer : p.payer = b.payer)
      (isOpen : p.status.terminal = false) :
      Submitted s b now (.ok (p.renewed b).succ) (s.put (p.renewed b).succ)

section Submit

variable {b : Submission} {now : Instant} {s : Store}

/-- An account that exists is insisted on in vain. -/
theorem ensures_demandAccount_calm {id : AccountId} {post : Except Fault Unit → Scene → Prop}
    (missing : ¬ w.store.HasAccount id → post (.error (.unknownAccount id)) w)
    (found : w.store.HasAccount id → post (.ok ()) w) : (demandAccount id).Ensures calm post w := by
  rw [demandAccount, ensures_bind]
  refine ensures_ask_calm.mpr ?_
  simp only [Store.answer, rest_ok]
  cases ha : w.store.accounts.get? id with
  | none =>
    refine missing ?_
    rintro ⟨a, h⟩
    cases ha.symm.trans h
  | some a => exact found ⟨a, ha⟩

/-- A payment that is not known begins. -/
theorem ensures_begin_calm {post : Except Fault Payment → Scene → Prop}
    (accepted : b.refusal? = none) (absent : w.store.payments.get? b.requestId = none)
    (h : post (.ok ((Payment.begun b now).numbered (w.store.lastId + 1)))
      { w with
        store := Store.put { w.store with lastId := w.store.lastId + 1 }
          ((Payment.begun b now).numbered (w.store.lastId + 1)) }) :
    (begin b now).Ensures calm post w := by
  have habsent : w.store.payments.get? (Payment.begun b now).requestId = none := absent
  rw [begin, ensures_bind, ensures_ofExcept, Payment.ofSubmission_eq_ok_iff.mpr ⟨accepted, rfl⟩,
    rest_ok]
  refine ensures_ask_calm.mpr ?_
  simp only [Store.answer, Store.insert, habsent]
  exact h

/-- A payment that is known begins a new generation, if it may. -/
theorem ensures_resubmit_calm (keyed : w.store.Keyed) (accepted : b.refusal? = none)
    (known : w.store.HasParties b) (stored : w.store.payments.get? b.requestId = some p)
    (now : Instant) : (resubmit p b).Ensures calm
      (fun result after => Submitted w.store b now result after.store) w := by
  have hid : p.requestId = b.requestId := keyed _ _ stored
  unfold resubmit
  split
  · next other => exact .otherPayer accepted known stored other
  · next same =>
    have payer : p.payer = b.payer := Decidable.not_not.mp same
    rw [ensures_bind, ensures_ofExcept]
    cases isOpen : p.status.terminal with
    | true =>
      have hfinal : p.regenerate b = .error (.misstep (.notReopened p.status)) := by
        simp only [Payment.regenerate, Submission.validate, accepted,
          Status.next_of_terminal isOpen]
        rfl
      rw [hfinal]
      exact .final accepted known stored payer isOpen
    | false =>
      rw [Payment.regenerate_eq_ok_iff.mpr ⟨accepted, isOpen, rfl⟩, rest_ok, ensures_bind]
      have hstored : w.store.payments.get? (p.renewed b).requestId = some p := by
        change w.store.payments.get? p.requestId = some p
        rw [hid]
        exact stored
      refine ensures_commit_calm hstored isOpen rfl ?_
      rw [rest_ok]
      dsimp only
      split <;> exact .again accepted known stored payer isOpen

/-- When no call fails, a submission ends in one of these ways. -/
theorem submitted_submit (keyed : s.Keyed) (b : Submission) (now : Instant) :
    Submitted s b now ((submit b now).run s).result ((submit b now).run s).storage := by
  suffices h : (submit b now).Ensures calm (fun result after =>
      Submitted s b now result after.store) ⟨s, []⟩ from h.run_calm
  rw [submit, ensures_bind, ensures_ofExcept]
  cases accepted : b.refusal? with
  | some cause =>
    rw [Submission.validate, accepted]
    exact .refused accepted
  | none =>
    rw [Submission.validate, accepted, rest_ok, ensures_bind]
    refine ensures_demandAccount_calm
      (fun missing => .unknownParty accepted fun h => missing h.1) ?_
    intro hpayer
    rw [rest_ok, ensures_bind]
    refine ensures_demandAccount_calm
      (fun missing => .unknownParty accepted fun h => missing h.2) ?_
    intro hpayee
    rw [rest_ok, ensures_bind]
    refine ensures_ask_calm.mpr ?_
    simp only [Store.answer, rest_ok]
    cases hp : s.payments.get? b.requestId with
    | none =>
      dsimp only
      rw [ensures_bind]
      refine ensures_begin_calm accepted hp ?_
      exact .begun accepted ⟨hpayer, hpayee⟩ hp
    | some p =>
      dsimp only
      rw [ensures_bind]
      refine (ensures_resubmit_calm keyed accepted ⟨hpayer, hpayee⟩ hp now).mono ?_
      intro result after h
      cases result <;> exact h

/-- A submission that is accepted was accepted for one of two reasons, and its record is stored. -/
theorem Submitted.ok_iff {answer : Except Fault Payment} {after : Store}
    (h : Submitted s b now answer after) :
    (∃ q, answer = .ok q) ↔ b.refusal? = none ∧ s.HasParties b ∧
      ∀ p, s.payments.get? b.requestId = some p →
        p.payer = b.payer ∧ p.status.terminal = false := by
  constructor
  · rintro ⟨q, rfl⟩
    cases h with
    | begun accepted known absent =>
      refine ⟨accepted, known, fun p stored => ?_⟩
      cases absent.symm.trans stored
    | again accepted known stored payer isOpen =>
      refine ⟨accepted, known, fun p stored' => ?_⟩
      cases stored.symm.trans stored'
      exact ⟨payer, isOpen⟩
  · rintro ⟨accepted, known, may⟩
    cases h with
    | refused refused => cases accepted.symm.trans refused
    | unknownParty _ missing => exact absurd known missing
    | begun | again => exact ⟨_, rfl⟩
    | otherPayer _ _ stored other => exact absurd (may _ stored).1 other
    | final _ _ stored _ final => exact absurd (final.symm.trans (may _ stored).2) nofun

end Submit

end Clearing.Operation
