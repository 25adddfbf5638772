import Clearing.Proofs.Engine.Redelivery
import Clearing.Proofs.Operation.Calm
import Clearing.Proofs.Store.Money

/-!
# The course of a payment

What becomes of the record of a payment is told by the requests that name it and by the sweeps. Of
the rest of the store they only ask whether both parties of a submission have accounts and whether
the payer has the money. The number of the record is given by the store, so the course leaves it
out.
-/

namespace Clearing

open Clearing.Time

namespace Payment

/-- A record without its number. -/
def unnumbered (p : Payment) : Payment := { p with internalId := none }

/-- The record after the decision of its payer, who has the money or not. -/
def decided (p : Payment) (limit : UInt64) (d : Decision) (now : Instant) (funded : Bool) :
    Payment :=
  if p.status = .waiting ∧ p.checks.complete = true then
    if p.expired limit now then (p.advanced .expired now (some expiredMessage)).succ
    else if d.confirmed = true then
      (p.advanced (.confirmed funded) now
        (some (if funded then completedMessage else unfundedMessage))).succ
    else (p.advanced .rejected now (some declinedMessage)).succ
  else p

/-- The record of a payment, if there is one, after a request that names it or a sweep. It is known
which submissions have parties with accounts and whether the payer has the money. -/
def course (limit : UInt64) (known : Submission → Bool) (funded : Bool) :
    Request → Option Payment → Option Payment
  | .submit b now, none => if b.refusal? = none ∧ known b = true then some (begun b now) else none
  | .submit b _, some p =>
      if b.refusal? = none ∧ known b = true ∧ p.payer = b.payer ∧ p.status.terminal = false then
        some (p.renewed b).succ
      else some p
  | .check c, record => record.map (·.checked limit c)
  | .confirm d now, record => record.map (·.decided limit d now funded)
  | .sweep now, record => record.map fun p => if p.Lapses limit now then p.lapsed now else p

variable {limit : UInt64} {known : Submission → Bool} {funded : Bool} {p q : Payment}

section Decided

variable {d : Decision} {now : Instant} (waits : p.status = .waiting)
  (complete : p.checks.complete = true)

include waits complete

theorem decided_of_late (late : p.expired limit now) : p.decided limit d now funded =
    (p.advanced .expired now (some expiredMessage)).succ := by
  rw [decided, if_pos ⟨waits, complete⟩, if_pos late]

theorem decided_of_rejected (inTime : ¬ p.expired limit now) (no : d.confirmed = false) :
    p.decided limit d now funded = (p.advanced .rejected now (some declinedMessage)).succ := by
  rw [decided, if_pos ⟨waits, complete⟩, if_neg inTime, if_neg (Bool.not_eq_true _ ▸ no)]

theorem decided_of_confirmed (inTime : ¬ p.expired limit now) (yes : d.confirmed = true)
    (funded : Bool) : p.decided limit d now funded = (p.advanced (.confirmed funded) now
      (some (if funded then completedMessage else unfundedMessage))).succ := by
  rw [decided, if_pos ⟨waits, complete⟩, if_neg inTime, if_pos yes]

end Decided

theorem advanced_unnumbered (p : Payment) (e : Status.Event) (time : Instant)
    (message : Option String) :
    p.unnumbered.advanced e time message = (p.advanced e time message).unnumbered := by
  have hnext : p.unnumbered.status.next e = p.status.next e := rfl
  simp only [advanced, advance, hnext]
  cases p.status.next e with
  | none => rfl
  | some status => cases message <;> rfl

theorem judged_unnumbered (p : Payment) (c : CheckResult) :
    p.unnumbered.judged c = (p.judged c).unnumbered := by
  unfold judged
  split
  · exact p.advanced_unnumbered _ _ _
  · rfl

theorem timedOut_unnumbered (p : Payment) (time : Instant) :
    p.unnumbered.timedOut time = (p.timedOut time).unnumbered := by
  have hnext : p.unnumbered.status.next .expired = p.status.next .expired := rfl
  simp only [timedOut, advance, hnext]
  cases p.status.next .expired <;> rfl

theorem afterCheck_unnumbered (p : Payment) (limit : UInt64) (c : CheckResult) :
    p.unnumbered.afterCheck limit c = (p.afterCheck limit c).unnumbered := by
  have hexpired : (p.judged c).unnumbered.expired limit c.occurredAt ↔
      (p.judged c).expired limit c.occurredAt := Iff.rfl
  simp only [afterCheck, judged_unnumbered, hexpired]
  split
  · exact timedOut_unnumbered _ _
  · change (if (p.judged c).checks.complete = true then _ else _) = _
    split
    · exact advanced_unnumbered _ _ _ _
    · rfl

/-- Records of one number are equal if they are without it. -/
theorem eq_of_unnumbered (number : q.internalId = p.internalId) (h : q.unnumbered = p.unnumbered) :
    q = p := by
  cases p
  cases q
  simp only [unnumbered, mk.injEq] at number h ⊢
  exact ⟨h.1, number, h.2.2⟩

theorem checked_unnumbered (p : Payment) (limit : UInt64) (c : CheckResult) :
    p.unnumbered.checked limit c = (p.checked limit c).unnumbered := by
  have hsame : p.unnumbered.afterCheck limit c = p.unnumbered ↔ p.afterCheck limit c = p := by
    rw [afterCheck_unnumbered]
    refine ⟨eq_of_unnumbered (p.keeps_afterCheck limit c).internalId, fun same => ?_⟩
    rw [same]
  have hfinal : p.unnumbered.status.terminal = true ↔ p.status.terminal = true := Iff.rfl
  simp only [checked, hsame, hfinal]
  split
  · rfl
  · rw [afterCheck_unnumbered]
    rfl

theorem decided_unnumbered (p : Payment) (limit : UInt64) (d : Decision) (now : Instant)
    (funded : Bool) :
    p.unnumbered.decided limit d now funded = (p.decided limit d now funded).unnumbered := by
  have hready : p.unnumbered.status = .waiting ∧ p.unnumbered.checks.complete = true ↔
      p.status = .waiting ∧ p.checks.complete = true := Iff.rfl
  have hexpired : p.unnumbered.expired limit now ↔ p.expired limit now := Iff.rfl
  simp only [decided, hready, hexpired, advanced_unnumbered]
  repeat' split
  all_goals rfl

/-- The number does not show in the course of a payment. -/
theorem course_unnumbered (r : Request) (record : Option Payment) :
    course limit known funded r (record.map unnumbered) =
      (course limit known funded r record).map unnumbered := by
  cases record with
  | none =>
    cases r with
    | submit b now =>
      simp only [course, Option.map_none]
      split <;> rfl
    | check | confirm | sweep => rfl
  | some p =>
    cases r with
    | submit b now =>
      change (if b.refusal? = none ∧ known b = true ∧ p.payer = b.payer ∧ p.status.terminal = false
        then _ else _) = Option.map unnumbered (if _ then _ else _)
      split <;> rfl
    | check c => exact congrArg some (p.checked_unnumbered limit c)
    | confirm d now => exact congrArg some (p.decided_unnumbered limit d now funded)
    | sweep now =>
      refine congrArg some ?_
      change (if p.Lapses limit now then _ else _) =
        unnumbered (if p.Lapses limit now then _ else _)
      split <;> rfl

/-- A final record stays. -/
theorem course_of_final (final : p.status.terminal = true) (r : Request) :
    course limit known funded r (some p) = some p := by
  cases r with
  | submit b now => exact if_neg fun h => Bool.false_ne_true (h.2.2.2.symm.trans final)
  | check c => exact congrArg some (if_pos (.inl final))
  | confirm d now =>
    refine congrArg some (if_neg fun ready => ?_)
    rw [ready.1] at final
    exact absurd final nofun
  | sweep now =>
    exact congrArg some (if_neg fun lapses => Bool.false_ne_true (lapses.1.symm.trans final))

end Payment

/-- Whether a request names a payment or is a sweep. -/
def Request.concerns (id : String) (r : Request) : Bool := r.requestId?.all (· = id)

namespace Store

/-- The record of a payment without its number. -/
def record? (s : Store) (id : String) : Option Payment :=
  (s.payments.get? id).map Payment.unnumbered

/-- Whether both parties of a submission have accounts. -/
def knows (s : Store) (b : Submission) : Bool :=
  (s.accounts.get? b.payer).isSome && (s.accounts.get? b.payee).isSome

/-- Whether the payer of a payment has the money. -/
def funds (s : Store) (p : Payment) : Bool := (s.accounts.get? p.payer).any (·.covers p.amount)

/-- Whether the payer of the payment of that name has the money. -/
def funded (s : Store) (id : String) : Bool := (s.payments.get? id).any s.funds

/-- Whether a store has well-formed records and the accounts that there were, each under its own
name. -/
structure Furnished (limit : UInt64) (s base : Store) : Prop where
  wellFormed : s.WellFormed limit
  named : s.Named
  opened : ∀ id, s.HasAccount id ↔ base.HasAccount id

variable {limit : UInt64} {known : Submission → Bool} {s t after : Store} {r : Request}
  {p q : Payment} {id : String}

theorem Furnished.knows_iff {base : Store} (h : s.Furnished limit base) {b : Submission} :
    base.knows b = true ↔ s.HasParties b := by
  rw [HasParties, h.opened, h.opened, Store.knows, Bool.and_eq_true, Option.isSome_iff_exists,
    Option.isSome_iff_exists]
  exact Iff.rfl

theorem Named.putAccount (h : s.Named) (a : Account) : (s.putAccount a).Named := by
  intro id b hb
  rw [Store.putAccount, Table.get?_put] at hb
  split at hb
  · next hid =>
    cases hb
    exact hid
  · exact h id b hb

/-- A write leaves every account under its own name. -/
theorem Named.write (h : s.Named) (write : s.Write limit r q t) : t.Named := by
  cases write with
  | begun | changed => exact h
  | paid => exact (h.putAccount _).putAccount _

theorem lasting_named : Lasting limit (fun _ => True) Named :=
  ⟨fun _ a h => h.putAccount a, fun _ _ _ _ _ _ write h => h.write write⟩

/-- No write opens an account. -/
theorem hasAccount_of_write (write : s.Write limit r q t) {id : AccountId} (ha : t.HasAccount id) :
    s.HasAccount id := by
  cases write with
  | begun | changed => exact ha
  | paid _ _ _ _ found applied =>
    obtain ⟨hpayer, hpayee⟩ := accounts_of_parties found
    obtain ⟨payer, payee⟩ := Transfer.names_of_apply applied
    by_cases hp : q.transfer.payer = id
    · exact ⟨_, hp ▸ hpayer⟩
    · by_cases hq : q.transfer.payee = id
      · exact ⟨_, hq ▸ hpayee⟩
      · rwa [HasAccount, accounts_putSettlement applied hp hq] at ha

/-- A write leaves a store furnished. -/
theorem Furnished.write {base : Store} (h : s.Furnished limit base)
    (write : s.Write limit r q t) : t.Furnished limit base := by
  refine ⟨write.wellFormed h.wellFormed, h.named.write write, fun id => ?_⟩
  rw [← h.opened id]
  exact ⟨hasAccount_of_write write, write.hasAccount⟩

theorem record?_put (s : Store) (p : Payment) :
    (s.put p).record? p.requestId = some p.unnumbered :=
  congrArg (Option.map Payment.unnumbered) ((Table.get?_put _ _ _ _).trans (if_pos rfl))

theorem record?_eq_some (stored : s.payments.get? id = some p) :
    s.record? id = some p.unnumbered := congrArg (Option.map Payment.unnumbered) stored

/-- Who has the money is told by the accounts. -/
theorem funded_of_parties {found : Parties} (stored : s.payments.get? id = some p)
    (hfound : s.parties p.transfer = .ok found) (covers : found.payer.covers p.amount) :
    s.funded id = true := by
  have hpayer : s.accounts.get? p.payer = some found.payer := (accounts_of_parties hfound).1
  simp only [funded, funds, stored, hpayer, Option.any_some, decide_eq_true covers]

theorem not_funded_of_short {payer : Account} (stored : s.payments.get? id = some p)
    (hfound : s.accounts.get? p.payer = some payer) (short : ¬ payer.covers p.amount) :
    s.funded id = false := by
  simp only [funded, funds, stored, hfound, Option.any_some, decide_eq_false short]

/-- Known accounts are found, under their own names. -/
theorem Furnished.exists_parties {base : Store} (h : s.Furnished limit base)
    (stored : s.payments.get? id = some p) : ∃ found, s.parties p.transfer = .ok found := by
  obtain ⟨⟨payer, hpayer⟩, payee, hpayee⟩ :=
    h.wellFormed.known p (Table.mem_values_iff.mpr ⟨id, stored⟩)
  refine ⟨⟨payer, payee⟩, ?_⟩
  simp only [parties, Payment.transfer, hpayer, hpayee]

/-- A transfer between known accounts that the payer can pay fails only when a balance overflows. -/
theorem Furnished.overflow_of_apply {base : Store} (h : s.Furnished limit base)
    {transfer : Transfer} {found moved : Parties} {fault : Fault}
    (hfound : s.parties transfer = .ok found) (covers : found.payer.covers transfer.amount)
    (applied : transfer.apply found = (.error fault, moved)) :
    ∃ cause, fault = .overflow cause := by
  refine (Transfer.fault_of_apply (congrArg Prod.fst applied)).resolve_left fun refused => ?_
  obtain ⟨hpayer, hpayee⟩ := accounts_of_parties hfound
  have hunrefused : transfer.refusal? found = none := by
    simp only [Transfer.refusal?, h.named _ _ hpayer, h.named _ _ hpayee, covers, ne_eq,
      not_true_eq_false, or_self, if_false]
  cases hunrefused.symm.trans refused

/-- A submission takes its payment along its course. -/
theorem record?_submitted {b : Submission} {now : Instant} {answer : Except Fault Payment}
    (keyed : s.Keyed) (h : Operation.Submitted s b now answer after)
    (hknown : known b = true ↔ s.HasParties b) (funded : Bool) :
    after.record? b.requestId = (Payment.course limit known funded (.submit b now)
      (s.payments.get? b.requestId)).map Payment.unnumbered := by
  -- A submission that is not accepted leaves what is there, which may be nothing.
  have hkept (refused : ¬ (b.refusal? = none ∧ known b = true)) : s.record? b.requestId =
      (Payment.course limit known funded (.submit b now)
        (s.payments.get? b.requestId)).map Payment.unnumbered := by
    unfold record?
    cases s.payments.get? b.requestId with
    | none => exact congrArg (Option.map _) (if_neg refused).symm
    | some p =>
      exact congrArg (Option.map _) (if_neg fun all => refused ⟨all.1, all.2.1⟩).symm
  cases h with
  | refused refused =>
    exact hkept fun all => Option.some_ne_none _ (refused.symm.trans all.1)
  | unknownParty _ missing => exact hkept fun all => missing (hknown.mp all.2)
  | begun accepted parties absent =>
    have hcourse : Payment.course limit known funded (.submit b now) none =
        some (Payment.begun b now) := if_pos ⟨accepted, hknown.mpr parties⟩
    rw [absent, hcourse]
    exact record?_put _ ((Payment.begun b now).numbered (s.lastId + 1))
  | otherPayer _ _ stored other =>
    rw [record?, stored]
    exact congrArg (Option.map _) (if_neg fun all => other all.2.2.1).symm
  | final _ _ stored _ final =>
    rw [record?, stored, Payment.course_of_final final]
  | @again p accepted parties stored payer isOpen =>
    have hid : p.requestId = b.requestId := keyed _ _ stored
    have hcourse : Payment.course limit known funded (.submit b now) (some p) =
        some (p.renewed b).succ := if_pos ⟨accepted, hknown.mpr parties, payer, isOpen⟩
    have hput := record?_put s (p.renewed b).succ
    rw [show (p.renewed b).succ.requestId = b.requestId from hid] at hput
    rw [hput, stored, hcourse]
    rfl

/-- A decision that overflows no balance takes its payment along its course. -/
theorem record?_settled {base : Store} (h : s.Furnished limit base) {d : Decision}
    {now : Instant} {answer : Except Fault Payment}
    (settled : Operation.Settlement limit s d now answer after)
    (whole : ∀ cause, answer ≠ .error (.overflow cause)) :
    after.record? d.requestId = (Payment.course limit known (s.funded d.requestId) (.confirm d now)
      (s.payments.get? d.requestId)).map Payment.unnumbered := by
  have hput {p q : Payment} {t : Store} (stored : s.payments.get? d.requestId = some p)
      (keeps : p.Keeps q) (decided : p.decided limit d now (s.funded d.requestId) = q.succ)
      (ht : t.payments = (s.put q.succ).payments) : t.record? d.requestId =
        (Payment.course limit known (s.funded d.requestId) (.confirm d now)
          (s.payments.get? d.requestId)).map Payment.unnumbered := by
    have hid : q.succ.requestId = d.requestId :=
      keeps.requestId.trans (h.wellFormed.keyed _ _ stored)
    have hrecord := record?_put s q.succ
    rw [hid] at hrecord
    rw [stored, record?, ht]
    refine hrecord.trans ?_
    rw [← decided]
    rfl
  cases settled with
  | unknown absent =>
    rw [record?, absent]
    rfl
  | unready stored unready =>
    rw [record?, stored]
    exact congrArg (Option.map _) (congrArg some (if_neg unready)).symm
  | late ready late =>
    exact hput ready.stored (Payment.keeps_advanced _ _ _ _)
      (Payment.decided_of_late ready.waits ready.complete late) rfl
  | rejected ready inTime no =>
    exact hput ready.stored (Payment.keeps_advanced _ _ _ _)
      (Payment.decided_of_rejected ready.waits ready.complete inTime no) rfl
  | unfunded confirmed found short =>
    refine hput confirmed.stored (Payment.keeps_advanced _ _ _ _) ?_ rfl
    rw [not_funded_of_short confirmed.stored found short]
    exact Payment.decided_of_confirmed confirmed.waits confirmed.complete confirmed.inTime
      confirmed.yes false
  | unknownParty confirmed missing =>
    obtain ⟨found, hfound⟩ := h.exists_parties confirmed.stored
    cases hfound.symm.trans missing
  | failed confirmed found covers applied =>
    obtain ⟨cause, rfl⟩ := h.overflow_of_apply found covers applied
    exact absurd rfl (whole cause)
  | paid confirmed found covers applied =>
    refine hput confirmed.stored (Payment.keeps_advanced _ _ _ _) ?_ rfl
    rw [funded_of_parties confirmed.stored found covers]
    exact Payment.decided_of_confirmed confirmed.waits confirmed.complete confirmed.inTime
      confirmed.yes true

end Store

namespace Engine

variable {e : Engine Store} {base : Store} {r : Request} {id : String}

/-- A request leaves a store furnished. -/
theorem furnished_serve (h : e.storage.Furnished e.settings.timeLimit base) (r : Request) :
    (e.serve r).2.storage.Furnished e.settings.timeLimit base := by
  refine lasts_serve (fun s => s.Furnished e.settings.timeLimit base) h.wellFormed.keyed h ?_
  exact fun _ _ _ _ _ _ write h => h.write write

/-- A request that names another payment leaves the record. -/
theorem record?_serve_of_other (keyed : e.storage.Keyed) (other : r.concerns id = false) :
    (e.serve r).2.storage.record? id = e.storage.record? id := by
  refine lasts_serve (fun s => s.record? id = e.storage.record? id) keyed rfl ?_
  intro _ _ s q t _ write same
  have hother : q.requestId ≠ id := by
    unfold Request.concerns at other
    cases hr : r.requestId? with
    | none =>
      rw [hr] at other
      exact absurd other nofun
    | some name =>
      rw [hr, Option.all_some, decide_eq_false_iff_not, write.named hr] at other
      exact other
  rw [← same, Store.record?, write.get?, if_neg hother]
  rfl

/-- A result of a check takes its payment along its course. -/
theorem record?_applyCheck (keyed : e.storage.Keyed) (c : CheckResult)
    (known : Submission → Bool) (funded : Bool) :
    (e.applyCheck c).2.storage.record? c.requestId =
      (Payment.course e.settings.timeLimit known funded (.check c)
        (e.storage.payments.get? c.requestId)).map Payment.unnumbered := by
  cases hp : e.storage.payments.get? c.requestId with
  | none =>
    have hload := Operation.run_load_of_absent hp
    have hrun : ((Operation.applyCheck e.settings.timeLimit c).run e.storage).storage =
        e.storage := by
      rw [Operation.applyCheck, Operation.run_bind_of_error (congrArg Program.Outcome.result hload),
        hload]
    have hstorage : (e.applyCheck c).2.storage = e.storage := hrun
    rw [hstorage, Store.record?, hp]
    rfl
  | some p =>
    obtain ⟨-, -, hstored⟩ := applyCheck_stored keyed hp
    exact Store.record?_eq_some hstored

/-- A decision that leaves the worker running overflows no balance. -/
theorem whole_of_running {d : Decision} {now : Instant}
    (running : (e.confirm d now).2.running = true) :
    e.running = true ∧ ∀ cause,
      ((Operation.settle e.settings.timeLimit d now).run e.storage).result ≠
        .error (.overflow cause) := by
  have hrunning : e.running = true := running_of_obey (.request (.confirm d now)) running
  refine ⟨hrunning, fun cause overflow => ?_⟩
  rw [confirm, if_pos hrunning, (work_of_overflow overflow).2] at running
  exact Bool.false_ne_true running

/-- As long as the worker runs, a request takes a payment that it concerns along its course. -/
theorem record?_serve (h : e.storage.Furnished e.settings.timeLimit base)
    (concerns : r.concerns id = true) (running : (e.serve r).2.running = true) :
    (e.serve r).2.storage.record? id =
      Payment.course e.settings.timeLimit base.knows (e.storage.funded id) r
        (e.storage.record? id) := by
  refine Eq.trans ?_ (Payment.course_unnumbered r (e.storage.payments.get? id)).symm
  have hkeyed := h.wellFormed.keyed
  cases r with
  | submit b now =>
    obtain rfl : b.requestId = id := by simpa [Request.concerns, Request.requestId?] using concerns
    exact Store.record?_submitted hkeyed (Operation.submitted_submit hkeyed b now) h.knows_iff _
  | check c =>
    obtain rfl : c.requestId = id := by simpa [Request.concerns, Request.requestId?] using concerns
    exact record?_applyCheck hkeyed c base.knows _
  | confirm d now =>
    obtain rfl : d.requestId = id := by simpa [Request.concerns, Request.requestId?] using concerns
    obtain ⟨hrunning, whole⟩ := whole_of_running running
    have hstorage : (e.serve (.confirm d now)).2.storage =
        ((Operation.settle e.settings.timeLimit d now).run e.storage).storage := by
      change (e.confirm d now).2.storage = _
      rw [confirm, if_pos hrunning]
      exact (e.runs_work _).storage
    rw [hstorage]
    exact Store.record?_settled h (Operation.settlement_settle hkeyed _ d now) whole
  | sweep now =>
    exact congrArg (Option.map Payment.unnumbered) (Operation.get?_sweep h.wellFormed.sweepable id)

end Engine

end Clearing
