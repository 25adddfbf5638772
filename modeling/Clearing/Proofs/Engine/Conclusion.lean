import Clearing.Proofs.Engine.Room
import Clearing.Proofs.Engine.Standing

/-!
# A confirmation of a waiting payment is conclusive

A payment that waits ends with the decision of its payer: as the time limit, the decision and the
payer's balance say. What could stand in the way has been ruled out before. Whoever submitted the
payment named accounts that exist, it waits because all its checks have passed, and the payer who
can pay can be debited. Only the payee's balance may have become too large to take the money.
-/

namespace Clearing

open Clearing.Time

namespace Payment

variable {limit : UInt64} {p : Payment} {d : Decision} {now : Instant} {payer : Account}

/-- How a decision ends a payment that waits, and what is noted then. -/
def ending (p : Payment) (limit : UInt64) (d : Decision) (now : Instant) (payer : Account) :
    Status × String :=
  if p.expired limit now then (.declined, expiredMessage)
  else if d.confirmed = false then (.declined, declinedMessage)
  else if payer.covers p.amount then (.completed, completedMessage)
  else (.insufficientResources, unfundedMessage)

/-- The next version of a payment that has ended. -/
def ended (p : Payment) (ending : Status × String) (now : Instant) : Payment :=
  { p with
    status := ending.1
    processedAt := some now
    failureMessage := some ending.2
    version := p.version + 1 }

theorem ending_of_late (late : p.expired limit now) (d : Decision) (payer : Account) :
    p.ending limit d now payer = (.declined, expiredMessage) := if_pos late

theorem ending_of_rejected (inTime : ¬ p.expired limit now) (no : d.confirmed = false)
    (payer : Account) : p.ending limit d now payer = (.declined, declinedMessage) := by
  rw [ending, if_neg inTime, if_pos no]

theorem ending_of_covered (inTime : ¬ p.expired limit now) (yes : d.confirmed = true)
    (covers : payer.covers p.amount) :
    p.ending limit d now payer = (.completed, completedMessage) := by
  rw [ending, if_neg inTime, if_neg (by rw [yes]; nofun), if_pos covers]

theorem ending_of_short (inTime : ¬ p.expired limit now) (yes : d.confirmed = true)
    (short : ¬ payer.covers p.amount) :
    p.ending limit d now payer = (.insufficientResources, unfundedMessage) := by
  rw [ending, if_neg inTime, if_neg (by rw [yes]; nofun), if_neg short]

/-- An event that ends a payment that waited is stamped, and nothing was noted before. -/
theorem Awaited.ended_of_next (h : p.Awaited limit) {e : Status.Event} {status : Status}
    (next : p.status.next e = some status) (final : status.terminal = true) (now : Instant)
    (message : String) :
    (p.advanced e now (some message)).succ = p.ended (status, message) now := by
  rw [advanced_of_next next]
  simp only [ended, enter, note, append, joined, succ, h.failureMessage, final, Bool.true_or,
    if_true]

end Payment

/-- What the end of a payment makes of a store: its record is replaced, and when it is completed the
two balances are. -/
structure Store.Ends (s : Store) (p : Payment) (payer payee : Account) (ending : Status × String)
    (now : Instant) (q : Payment) (after : Store) : Prop where
  record : q = p.ended ending now
  payments : ∀ id, after.payments.get? id =
    if p.requestId = id then some q else s.payments.get? id
  moved : ending.1 = .completed → ∃ less more,
    payer.balance.sub p.amount.value = .ok less ∧ payee.balance.add p.amount.value = .ok more ∧
      ∀ id, after.accounts.get? id =
        if p.payee = id then some ⟨p.payee, more⟩
        else if p.payer = id then some ⟨p.payer, less⟩ else s.accounts.get? id
  unmoved : ending.1 ≠ .completed → after.accounts = s.accounts

namespace Store

variable {s : Store} {p : Payment} {payer payee : Account} {message : String} {now : Instant}

/-- A payment that ends without its money leaves the accounts. -/
theorem ends_put (status : Status) (unpaid : status ≠ .completed) (payer payee : Account) :
    s.Ends p payer payee (status, message) now (p.ended (status, message) now)
      (s.put (p.ended (status, message) now)) :=
  ⟨rfl, fun _ => Table.get?_put _ _ _ _, fun completed => absurd completed unpaid, fun _ => rfl⟩

/-- A payment that is settled ends with its money in the account of the payee. -/
theorem ends_putSettlement {moved : Parties}
    (applied : p.transfer.apply ⟨payer, payee⟩ = (.ok (), moved)) :
    s.Ends p payer payee (.completed, message) now (p.ended (.completed, message) now)
      (s.putSettlement (p.ended (.completed, message) now) moved) := by
  obtain ⟨-, -, less, more, debit, credit, rfl⟩ := Transfer.moves_of_apply applied
  refine ⟨rfl, fun _ => Table.get?_put _ _ _ _, fun _ => ⟨less, more, debit, credit, fun id => ?_⟩,
    fun unpaid => absurd rfl unpaid⟩
  simp only [putSettlement, putAccount, put, Table.get?_put]
  rfl

end Store

namespace Operation

variable {limit : UInt64} {s after : Store} {d : Decision} {now : Instant} {p : Payment}
  {answer : Except Fault Payment}

/-- In a store that stands, a payment that waits ends with the decision, unless the money is too
much for the payee. -/
theorem Settlement.conclusive (h : Settlement limit s d now answer after)
    (standing : s.Standing limit) (stored : s.payments.get? d.requestId = some p)
    (waits : p.status = .waiting) {payer payee : Account}
    (found : s.parties p.transfer = .ok ⟨payer, payee⟩) :
    ((p.ending limit d now payer).1 = .completed ∧
        payee.balance.add p.amount.value = .error .addition ∧
        answer = .error (.overflow .addition) ∧ after = s) ∨
      ∃ q, answer = .ok q ∧ s.Ends p payer payee (p.ending limit d now payer) now q after := by
  have hawaited := standing.awaited stored waits
  have hpayer : s.accounts.get? p.payer = some payer := (Store.accounts_of_parties found).1
  have hrecord {e : Status.Event} (status : Status) {message : String}
      (next : Status.next .waiting e = some status) (final : status.terminal = true) :
      (p.advanced e now (some message)).succ = p.ended (status, message) now :=
    hawaited.ended_of_next (by rw [waits, next]) final now message
  cases h with
  | unknown absent => cases absent.symm.trans stored
  | unready stored' unready =>
    cases stored'.symm.trans stored
    exact absurd ⟨waits, hawaited.complete⟩ unready
  | late ready late =>
    cases ready.stored.symm.trans stored
    rw [Payment.ending_of_late late, hrecord .declined rfl rfl]
    exact .inr ⟨_, rfl, Store.ends_put .declined (by decide) payer payee⟩
  | rejected ready inTime no =>
    cases ready.stored.symm.trans stored
    rw [Payment.ending_of_rejected inTime no, hrecord .declined rfl rfl]
    exact .inr ⟨_, rfl, Store.ends_put .declined (by decide) payer payee⟩
  | unfunded confirmed found' short =>
    cases confirmed.stored.symm.trans stored
    cases found'.symm.trans hpayer
    rw [Payment.ending_of_short confirmed.inTime confirmed.yes short,
      hrecord .insufficientResources rfl rfl]
    exact .inr ⟨_, rfl, Store.ends_put .insufficientResources (by decide) payer payee⟩
  | unknownParty confirmed missing =>
    cases confirmed.stored.symm.trans stored
    cases missing.symm.trans found
  | failed confirmed found' covers applied =>
    cases confirmed.stored.symm.trans stored
    cases found'.symm.trans found
    obtain ⟨cause, rfl⟩ := standing.furnished.overflow_of_apply found covers applied
    obtain ⟨-, rfl, overflow⟩ := Transfer.overflow_of_apply (congrArg Prod.fst applied)
    rw [Payment.ending_of_covered confirmed.inTime confirmed.yes covers]
    exact .inl ⟨rfl, overflow, rfl, rfl⟩
  | paid confirmed found' covers applied =>
    cases confirmed.stored.symm.trans stored
    cases found'.symm.trans found
    rw [Payment.ending_of_covered confirmed.inTime confirmed.yes covers,
      hrecord .completed rfl rfl]
    exact .inr ⟨_, rfl, Store.ends_putSettlement applied⟩

end Operation

namespace Engine

variable {e : Engine Store} {d : Decision} {now : Instant} {p : Payment}

/-- An engine whose worker runs answers as the settlement does, unless a balance overflows. -/
theorem settlement_confirm (keyed : e.storage.Keyed) (running : e.running = true) (d : Decision)
    (now : Instant) :
    ∃ answer, Operation.Settlement e.settings.timeLimit e.storage d now answer
        (e.confirm d now).2.storage ∧
      ((∃ cause, answer = .error (.overflow cause)) →
        (e.confirm d now).1 = .error (.internal .jobDropped)) ∧
      ((∀ cause, answer ≠ .error (.overflow cause)) → (e.confirm d now).1 = answer) := by
  have hsettlement := Operation.settlement_settle keyed e.settings.timeLimit d now
  rw [confirm, if_pos running, (e.runs_work _).storage]
  refine ⟨_, hsettlement, ?_, fun whole => ?_⟩
  · rintro ⟨cause, overflow⟩
    exact (work_of_overflow overflow).1
  · rw [work_eq_perform whole]
    rfl

/-- A payment that is not known or does not wait cannot be confirmed. -/
theorem confirm_of_unready (keyed : e.storage.Keyed) (running : e.running = true) (d : Decision)
    (now : Instant) :
    (e.storage.payments.get? d.requestId = none →
        (e.confirm d now).1 = .error (.unknownPayment d.requestId) ∧
          (e.confirm d now).2.storage = e.storage) ∧
      ∀ p, e.storage.payments.get? d.requestId = some p → p.status ≠ .waiting →
        (e.confirm d now).1 = .error (.misstep (.notWaiting d.requestId p.status)) ∧
          (e.confirm d now).2.storage = e.storage := by
  obtain ⟨answer, settlement, -, whole⟩ := settlement_confirm keyed running d now
  generalize (e.confirm d now).2.storage = after at settlement ⊢
  constructor
  · intro absent
    cases settlement with
    | unknown => exact ⟨whole fun _ => nofun, rfl⟩
    | unready stored => cases absent.symm.trans stored
    | late ready | rejected ready => cases absent.symm.trans ready.stored
    | unfunded confirmed | unknownParty confirmed | failed confirmed | paid confirmed =>
      cases absent.symm.trans confirmed.stored
  · intro p stored unwaited
    cases settlement with
    | unknown absent => cases absent.symm.trans stored
    | unready stored' =>
      cases stored'.symm.trans stored
      rw [← keyed _ _ stored]
      exact ⟨whole fun _ => nofun, rfl⟩
    | late ready | rejected ready =>
      cases ready.stored.symm.trans stored
      exact absurd ready.waits unwaited
    | unfunded confirmed | unknownParty confirmed | failed confirmed | paid confirmed =>
      cases confirmed.stored.symm.trans stored
      exact absurd confirmed.waits unwaited

/-- In a store that stands, a payment that waits ends with the decision and is returned as it is
stored then, unless the money is too much for the payee. -/
theorem confirm_conclusive (d : Decision) (now : Instant)
    (standing : e.storage.Standing e.settings.timeLimit) (running : e.running = true)
    (stored : e.storage.payments.get? d.requestId = some p) (waits : p.status = .waiting)
    {payer payee : Account}
    (found : e.storage.parties p.transfer = .ok ⟨payer, payee⟩) :
    let ending := p.ending e.settings.timeLimit d now payer
    (ending.1 = .completed ∧ payee.balance.add p.amount.value = .error .addition ∧
        (e.confirm d now).1 = .error (.internal .jobDropped) ∧
        (e.confirm d now).2.storage = e.storage) ∨
      ∃ q, (e.confirm d now).1 = .ok q ∧
        e.storage.Ends p payer payee ending now q (e.confirm d now).2.storage := by
  obtain ⟨answer, settlement, dropped, whole⟩ :=
    settlement_confirm standing.wellFormed.keyed running d now
  rcases settlement.conclusive standing stored waits found with
    ⟨completed, overflow, rfl, same⟩ | ⟨q, rfl, ends⟩
  · exact .inl ⟨completed, overflow, dropped ⟨_, rfl⟩, same⟩
  · exact .inr ⟨q, whole fun _ => nofun, ends⟩

end Engine

namespace Inbox

/-- Start from the empty store and do anything that an inbox can be asked to do, while any call of
the store may fail. Let an engine whose worker runs take over any of the stores that there have
been. A payment that is not known is not found, and one that does not wait cannot be confirmed. Of
one that waits both parties are known, and the decision ends it, as time, decision and balance say,
with the record that is returned and stored then; unless the payer would pay and the payee's balance
overflows, which leaves everything. -/
theorem confirmation_is_conclusive (settings : Settings) (plan : List (Option Fault))
    (outbox : Outbox) (running : Bool) (acts : List Act) :
    let start : Engine Watched := ⟨settings, .ofStore .empty plan, outbox, running⟩
    let history := ((ofEngine start).actAll acts).engine.storage.history
    ∀ s ∈ history.stores, ∀ (outbox : Outbox) (d : Decision) (now : Instant),
      let engine : Engine Store := ⟨settings, s, outbox, true⟩
      let answer := (engine.confirm d now).1
      let after := (engine.confirm d now).2.storage
      (s.payments.get? d.requestId = none →
          answer = .error (.unknownPayment d.requestId) ∧ after = s) ∧
        (∀ p, s.payments.get? d.requestId = some p → p.status ≠ .waiting →
          answer = .error (.misstep (.notWaiting d.requestId p.status)) ∧ after = s) ∧
        ∀ p, s.payments.get? d.requestId = some p → p.status = .waiting →
          (∀ id, answer ≠ .error (.unknownAccount id)) ∧
          ∃ payer payee, s.accounts.get? p.payer = some payer ∧
            s.accounts.get? p.payee = some payee ∧
            let ending := p.ending settings.timeLimit d now payer
            (ending.1 = .completed ∧ payee.balance.add p.amount.value = .error .addition ∧
                answer = .error (.internal .jobDropped) ∧ after = s) ∨
              ∃ q, answer = .ok q ∧ after.payments.get? d.requestId = some q ∧
                s.Ends p payer payee ending now q after := by
  intro start history s hs outbox d now engine answer after
  have standing : engine.storage.Standing engine.settings.timeLimit :=
    standing_actAll settings plan _ _ acts s hs
  have keyed := standing.wellFormed.keyed
  obtain ⟨unknown, unready⟩ := Engine.confirm_of_unready keyed rfl d now
  refine ⟨unknown, unready, fun p stored waits => ?_⟩
  obtain ⟨payer, payee, found, hpayer, hpayee⟩ := standing.exists_accounts stored
  have hconclusive := Engine.confirm_conclusive d now standing rfl stored waits found
  refine ⟨fun id missing => ?_, payer, payee, hpayer, hpayee, ?_⟩
  · rcases hconclusive with ⟨-, -, dropped, -⟩ | ⟨q, ok, -⟩
    · cases missing.symm.trans dropped
    · cases missing.symm.trans ok
  · refine hconclusive.imp_right ?_
    rintro ⟨q, ok, ends⟩
    exact ⟨q, ok, (ends.payments _).trans (if_pos (keyed _ _ stored)), ends⟩

/-- The rent of five waits, and the tenant with nine confirms it: it is completed, and four are
left. -/
theorem rent_concluded :
    let s := (rentEngine nine .zero Sample.five).storage.history.present
    let engine : Engine Store := ⟨.default, s, Sample.outbox, true⟩
    s.payments.get? "rent" = some Engine.waitingRent ∧
      (engine.confirm ⟨"rent", true⟩ .epoch).1 = .ok Sample.paid ∧
      (engine.confirm ⟨"rent", true⟩ .epoch).2.storage.accounts.get? "tenant" =
        some ⟨"tenant", four⟩ := by
  intro s engine
  have stored : s.payments.get? "rent" = some Engine.waitingRent := by decide +kernel
  have tenant : s.accounts.get? "tenant" = some ⟨"tenant", nine⟩ := by decide +kernel
  have landlord : s.accounts.get? "landlord" = some ⟨"landlord", .zero⟩ := by decide +kernel
  obtain ⟨-, -, conclusive⟩ := confirmation_is_conclusive .default [] Sample.outbox true
    (rentOf nine .zero Sample.five) s List.mem_cons_self Sample.outbox ⟨"rent", true⟩ .epoch
  obtain ⟨-, payer, payee, hpayer, hpayee, hends⟩ := conclusive _ stored rfl
  cases hpayer.symm.trans tenant
  cases hpayee.symm.trans landlord
  rcases hends with ⟨-, overflow, -⟩ | ⟨q, ok, -, record, -, moved, -⟩
  · exact absurd overflow (by decide)
  · obtain ⟨less, more, debit, -, accounts⟩ := moved (by decide)
    have hless : less = four := by
      have hfour : nine.sub Sample.five.value = .ok four := by decide
      exact Except.ok.inj (debit.symm.trans hfour)
    refine ⟨stored, ?_, ?_⟩
    · rw [ok, record]
      rfl
    · rw [accounts, hless]
      rfl

end Inbox

end Clearing
