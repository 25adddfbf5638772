import Clearing.Proofs.Engine.AnyOrder
import Clearing.Proofs.Engine.Expiry
import Clearing.Proofs.Engine.Lasting

/-!
# Messages that are handled twice

What a message was to do is done once it was handled. A result of a check has been marked or its
payment is final, and only a submission forgets that. A decision has made its payment final. A sweep
has declined what is expired, and only a payment that is new to the store can be expired at the same
time. So the same message has nothing to do later, whatever else has happened, and an operation that
has nothing to do leaves the engine as it is.
-/

namespace Clearing

open Clearing.Time

/-- Marking a check that has passed changes nothing. -/
theorem Checks.mark_of_passed {checks : Checks} {check : Check} (h : checks.passed check = true) :
    checks.mark check = checks := by
  refine ext_passed fun other => ?_
  rw [passed_mark, Bool.or_eq_true, beq_iff_eq]
  exact or_iff_left_of_imp fun same => same ▸ h

namespace Payment

/-- Whether the result of a check has nothing to do with a payment any more: that is final, or the
check has passed and the result does not speak against it. -/
def Absorbs (p : Payment) (limit : UInt64) (c : CheckResult) : Prop :=
  p.status.terminal = true ∨ p.checks.passed c.check = true ∧ ¬ p.Against limit c

variable {limit : UInt64} {p q : Payment} {c : CheckResult} {r : Request}

/-- A result that was taken has nothing more to do. -/
theorem absorbs_checked (p : Payment) (limit : UInt64) (c : CheckResult) :
    (p.checked limit c).Absorbs limit c := by
  cases final : p.status.terminal with
  | true =>
    rw [checked_of_terminal final]
    exact .inl final
  | false =>
    by_cases against : p.Against limit c
    · refine .inl ?_
      rw [status_checked_of_against final against]
      rfl
    · refine .inr ⟨?_, (against_checked p limit c c).not.mpr against⟩
      exact ((gathered_checked final against).passed c.check).mpr
        (.inr ⟨c, List.mem_singleton_self c, rfl⟩)

/-- A change that is no new generation forgets no result. -/
theorem Absorbs.change (h : p.Absorbs limit c) (change : p.Change limit r q)
    (same : ∀ b now, r ≠ .submit b now) : q.Absorbs limit c := by
  have wasOpen := change.isOpen
  have hstatus := change.status
  have hcreated := change.follows.createdAt
  obtain ⟨passed, favours⟩ := h.resolve_left (Bool.eq_false_iff.mp wasOpen)
  cases change with
  | resubmitted => exact absurd rfl (same _ _)
  | @checked d _ _ =>
    cases isOpen : (p.afterCheck limit d).succ.status.terminal with
    | true => exact .inl isOpen
    | false =>
      obtain ⟨hpassed, inTime⟩ := passed_of_open wasOpen isOpen
      refine .inr ⟨?_, ?_⟩
      · change (p.afterCheck limit d).checks.passed c.check = true
        rw [checks_afterCheck_of_passed wasOpen hpassed inTime, Checks.passed_mark, passed,
          Bool.true_or]
      · rwa [Against, expired_congr hcreated]
  | late | rejected | unfunded | paid => exact .inl hstatus
  | swept =>
    refine .inl ?_
    rw [hstatus]
    rfl

/-- A result that has nothing more to do leaves an open payment as it is. -/
theorem Absorbs.afterCheck (h : p.Absorbs limit c) (waits : p.Waits)
    (isOpen : p.status.terminal = false) : p.afterCheck limit c = p := by
  obtain ⟨passed, favours⟩ := h.resolve_left (Bool.eq_false_iff.mp isOpen)
  rw [Against, not_or, Bool.not_eq_true] at favours
  have hmark := Checks.mark_of_passed passed
  have hwaiting : ¬ (p.checks.complete = true ∧ p.status ≠ .waiting) :=
    fun unwaited => unwaited.2 (waits unwaited.1)
  rw [afterCheck_of_passed isOpen favours.1 favours.2, hmark, if_neg hwaiting]

end Payment

namespace Store

variable {limit : UInt64} {now : Instant}

/-- A result that was taken stays taken until its payment is submitted again. -/
theorem lasting_absorbed (c : CheckResult) :
    Lasting limit (fun r => ¬ r.submits c.requestId) fun s =>
      ∃ p, s.payments.get? c.requestId = some p ∧ p.Absorbs limit c := by
  refine ⟨fun _ _ h => h, fun s r q t other _ write h => ?_⟩
  obtain ⟨p, stored, absorbs⟩ := h
  rw [write.get?]
  split
  · next hid =>
    rcases write.begins_or_changes with ⟨absent, -⟩ | ⟨old, hold, change, -⟩
    · rw [hid, stored] at absent
      exact absurd absent nofun
    · rw [hid, stored] at hold
      cases hold
      refine ⟨q, rfl, absorbs.change change ?_⟩
      rintro b now rfl
      exact other ((write.named rfl).trans hid)
  · exact ⟨p, stored, absorbs⟩

/-- Whether a store has the payments of another one and none that is to be declined at some time. -/
structure Settled (limit : UInt64) (now : Instant) (base s : Store) : Prop where
  known : ∀ id, s.payments.get? id = none → base.payments.get? id = none
  settled : ∀ id p, s.payments.get? id = some p → ¬ p.Lapses limit now

/-- Nothing is to be declined as long as no payment is new. -/
theorem lasting_settled (base : Store) :
    Lasting limit (fun r => ∀ id, r.submits id → base.payments.get? id ≠ none)
      (Settled limit now base) := by
  refine ⟨fun _ _ h => ⟨h.known, h.settled⟩, fun s r q t old _ write h => ⟨?_, ?_⟩⟩
  · exact fun id absent => h.known id (write.absent absent).2
  · intro id p hp
    rcases write.stored hp with ⟨-, rfl⟩ | ⟨-, hs⟩
    · rcases write.begins_or_changes with ⟨absent, b, time, rfl, -⟩ | ⟨before, stored, change, -⟩
      · exact absurd (h.known _ absent) (old _ (write.named rfl))
      · rintro ⟨-, late⟩
        refine h.settled _ _ stored ⟨change.isOpen, ?_⟩
        exact (Payment.expired_congr change.follows.createdAt limit now).mp late
    · exact h.settled id p hs

end Store

namespace Operation

variable {α σ : Type} [Storage σ]

/-- Whether an operation leaves the storage as it is, sends nothing and ends without an overflow. -/
structure Idle (op : Operation α) (s : σ) : Prop where
  storage : (op.run s).storage = s
  notices : (op.run s).notices = []
  result : ∀ cause, (op.run s).result ≠ .error (.overflow cause)

theorem idle_of_run {op : Operation α} {s : σ} {result : Except Fault α}
    (h : op.run s = ⟨result, s, []⟩) (whole : ∀ cause, result ≠ .error (.overflow cause)) :
    op.Idle s := by
  refine ⟨?_, ?_, ?_⟩ <;> rw [h]
  exact whole

variable {s : Store} {limit : UInt64} {now : Instant} {p : Payment}

/-- A payment of a store is read. -/
theorem run_load_of_stored {id : String} (stored : s.payments.get? id = some p) :
    (load id).run s = ⟨.ok p, s, []⟩ := by
  have hask : (ask (.get id)).run s = ⟨.ok (some p), s, []⟩ := by
    rw [← stored]
    rfl
  rw [load, run_bind_from hask]
  rfl

/-- A payment that is not there cannot be read. -/
theorem run_load_of_absent {id : String} (absent : s.payments.get? id = none) :
    (load id).run s = ⟨.error (.unknownPayment id), s, []⟩ := by
  have hask : (ask (.get id)).run s = ⟨.ok none, s, []⟩ := by
    rw [← absent]
    rfl
  rw [load, run_bind_from hask]
  rfl

/-- A result that has nothing more to do changes nothing. -/
theorem idle_applyCheck {c : CheckResult} (stored : s.payments.get? c.requestId = some p)
    (waits : p.status.terminal = false → p.Waits) (absorbs : p.Absorbs limit c) :
    (applyCheck limit c).Idle s := by
  have hrun : (applyCheck limit c).run s = ⟨.ok p, s, []⟩ := by
    rw [applyCheck, run_bind_from (run_load_of_stored stored)]
    cases final : p.status.terminal with
    | true => rfl
    | false =>
      have same := absorbs.afterCheck (waits final) final
      simp only [Bool.false_eq_true, if_false, same, if_true]
      rfl
  exact idle_of_run hrun fun _ overflow => by cases overflow

/-- A decision on a payment that is final changes nothing. -/
theorem idle_settle {d : Decision} (finished : s.Finished d.requestId p) :
    (settle limit d now).Idle s := by
  have hready : p.status ≠ .waiting := by
    intro waits
    have final := finished.final
    rw [waits] at final
    cases final
  have hrun : (settle limit d now).run s =
      ⟨.error (.misstep (.notWaiting p.requestId p.status)), s, []⟩ := by
    rw [settle, run_bind_from (run_load_of_stored finished.stored), if_pos (.inl hready)]
    rfl
  exact idle_of_run hrun fun _ overflow => by cases overflow

/-- An operation for one payment does nothing when it is run as one for several, and only then. -/
theorem idle_one_iff {op : Operation Payment} {s : σ} : (Request.one op).Idle s ↔ op.Idle s := by
  have hone := Request.run_one op s
  constructor
  · rintro ⟨storage, notices, result⟩
    rw [hone] at storage notices result
    refine ⟨storage, notices, fun cause overflow => result cause ?_⟩
    rw [overflow]
    rfl
  · rintro ⟨storage, notices, result⟩
    refine ⟨?_, ?_, fun cause overflow => ?_⟩
    · rw [hone, storage]
    · rw [hone, notices]
    · rw [hone] at overflow
      cases hr : (op.run s).result with
      | ok p =>
        rw [hr] at overflow
        exact absurd overflow nofun
      | error fault =>
        rw [hr] at overflow
        cases overflow
        exact result cause hr

end Operation

/-- Whether a request that was handled is still done with, by the requests that were answered since:
for a result of a check its payment was not submitted again, and for a sweep no payment was
submitted that the store did not have. -/
def Request.StillDone (s : Store) (since : List Request) : Request → Prop
  | .submit _ _ => False
  | .check c => ∀ r ∈ since, ¬ r.submits c.requestId
  | .confirm _ _ => True
  | .sweep _ => ∀ r ∈ since, ∀ id, r.submits id → s.payments.get? id ≠ none

namespace Engine

section Idle

variable {σ α : Type} [Storage σ] {e : Engine σ}

/-- An operation that does nothing leaves the engine as it is. -/
theorem perform_of_idle {op : Operation α} (h : op.Idle e.storage) : (e.perform op).2 = e := by
  rw [perform, h.storage, h.notices]
  rfl

theorem work_of_idle {op : Operation α} (h : op.Idle e.storage) : (e.work op).2 = e := by
  rw [work_eq_perform h.result]
  exact perform_of_idle h

/-- A request whose operation does nothing leaves the engine as it is and sends nothing. -/
theorem serve_of_idle {r : Request} (h : (r.operation e.settings.timeLimit).Idle e.storage) :
    (e.serve r).2 = e ∧ e.notices r = [] := by
  constructor
  · cases r with
    | submit b now => exact perform_of_idle (Operation.idle_one_iff.mp h)
    | check c => exact perform_of_idle (Operation.idle_one_iff.mp h)
    | sweep now => exact perform_of_idle h
    | confirm d now =>
      change (e.confirm d now).2 = e
      unfold confirm
      split
      · exact work_of_idle (Operation.idle_one_iff.mp h)
      · rfl
  · unfold notices
    split
    · exact h.notices
    · rfl

end Idle

variable {e : Engine Store} {ps : List Payment}

/-- A result that is answered without a fault was taken. -/
theorem absorbs_of_ok (keyed : e.storage.Keyed) {c : CheckResult}
    (h : (e.serve (.check c)).1 = .ok ps) :
    ∃ p, (e.serve (.check c)).2.storage.payments.get? c.requestId = some p ∧
      p.Absorbs e.settings.timeLimit c := by
  cases stored : e.storage.payments.get? c.requestId with
  | none =>
    have hload := Operation.run_load_of_absent stored
    have hfault : ((Operation.applyCheck e.settings.timeLimit c).run e.storage).result =
        .error (.unknownPayment c.requestId) := by
      rw [Operation.applyCheck, Operation.run_bind_of_error]
      rw [hload]
    have hanswer : (e.serve (.check c)).1 = .error (.unknownPayment c.requestId) :=
      congrArg (Except.map ([·])) hfault
    cases h.symm.trans hanswer
  | some p =>
    obtain ⟨-, -, hchecked⟩ := applyCheck_stored keyed stored
    exact ⟨_, hchecked, p.absorbs_checked _ c⟩

/-- A decision that is answered without a fault has finished its payment. -/
theorem finished_of_ok (keyed : e.storage.Keyed) {d : Decision} {now : Instant}
    (h : (e.serve (.confirm d now)).1 = .ok ps) :
    ∃ p, (e.serve (.confirm d now)).2.storage.Finished d.requestId p := by
  obtain ⟨after, effect, hstore⟩ := served_of_ok keyed h
  rw [hstore]
  cases effect with
  | kept check => exact absurd check nofun
  | swept sweep => exact absurd sweep nofun
  | @written q t one write =>
    rw [Moment.store_written]
    have hid : d.requestId = q.requestId := write.named rfl
    refine ⟨q, ?_, ?_⟩
    · rw [write.get?, if_pos hid.symm]
    · rcases write.begins_or_changes with ⟨-, b, time, hr, -⟩ | ⟨p, -, change, -⟩
      · exact absurd hr nofun
      · exact change.status

/-- A message that was answered without a fault has nothing to do later, as long as it is done
with. -/
theorem idle_of_ok (h : e.storage.WellFormed e.settings.timeLimit) {m : Message}
    {first : Instant} (answered : (e.serve (m.request first)).1 = .ok ps) (commands : List Command)
    (again : Instant) :
    let handled := (e.serve (m.request first)).2
    (m.request first).StillDone handled.storage (handled.accepted commands) →
      ((m.request again).operation e.settings.timeLimit).Idle
        (handled.obeyAll commands).storage := by
  intro handled since
  have hsettings : handled.settings = e.settings :=
    e.settings_obey (.request (m.request first))
  have hhandled : handled.storage.WellFormed handled.settings.timeLimit := by
    rw [hsettings]
    exact wellFormed_obeyAll h [.request (m.request first)]
  have hlater : (handled.obeyAll commands).storage.WellFormed e.settings.timeLimit := by
    rw [← hsettings]
    exact wellFormed_obeyAll hhandled commands
  cases m with
  | submit b => exact absurd since id
  | check c =>
    have habsorbs := absorbs_of_ok h.keyed answered
    rw [← hsettings] at habsorbs ⊢
    obtain ⟨p, stored, absorbs⟩ :=
      lasts_obeyAll (Store.lasting_absorbed c) hhandled.keyed habsorbs since
    have hrecord := hlater.records p (Table.mem_values_iff.mpr ⟨_, stored⟩)
    exact Operation.idle_one_iff.mpr (Operation.idle_applyCheck stored hrecord.waits absorbs)
  | confirm d time =>
    obtain ⟨p, hfinished⟩ := finished_of_ok h.keyed answered
    have hlast : (handled.obeyAll commands).storage.Finished d.requestId p :=
      lasts_obeyAll (Store.lasting_finished d.requestId p) hhandled.keyed hfinished
        fun _ _ => trivial
    exact Operation.idle_one_iff.mpr (Operation.idle_settle hlast)
  | sweep now =>
    have hsettled : Store.Settled e.settings.timeLimit now handled.storage handled.storage :=
      ⟨fun _ absent => absent, fun _ _ stored =>
        Operation.not_lapses_sweep h.sweepable stored⟩
    rw [← hsettings] at hsettled ⊢
    have hlast :=
      lasts_obeyAll (Store.lasting_settled handled.storage) hhandled.keyed hsettled since
    exact Operation.idle_of_run (Operation.run_sweep_idle hlater.keyed hlast.settled)
      fun _ => nofun

/-- Start from a store without payments and obey any commands, on a store of which no call fails. A
result of a check, a decision or a sweep that is handled then without a fault changes nothing and
sends nothing when it is handled once more, whatever is obeyed in between and whenever it arrives,
provided that since then a payment whose result it is was not submitted again and, if it is a sweep,
no payment was submitted that was not there. -/
theorem handled_again_does_nothing (settings : Settings) (accounts : Table Account)
    (lastId : UInt64) (outbox : Outbox) (running : Bool) (before between : List Command)
    (m : Message) (first again : Instant) (ps : List Payment) :
    let start : Engine Store := ⟨settings, ⟨.empty, accounts, lastId⟩, outbox, running⟩
    let e := start.obeyAll before
    let handled := (e.handle first m).2
    let later := handled.obeyAll between
    (e.handle first m).1 = .ok ps →
      (m.request first).StillDone handled.storage (handled.accepted between) →
        (later.handle again m).2 = later ∧ later.notices (m.request again) = [] := by
  intro start e handled later answered since
  have hstart : start.storage.WellFormed start.settings.timeLimit :=
    Store.wellFormed_of_no_payments settings.timeLimit accounts lastId
  have hsettings : e.settings = start.settings := start.settings_obeyAll before
  have hwellFormed : e.storage.WellFormed e.settings.timeLimit := by
    rw [hsettings]
    exact wellFormed_obeyAll hstart before
  have hserve : handled = (e.serve (m.request first)).2 := by
    rw [← handle_eq_serve]
  have hlimit : later.settings = e.settings := by
    rw [settings_obeyAll, hserve]
    exact e.settings_obey (.request (m.request first))
  rw [handle_eq_serve] at answered ⊢
  rw [hserve] at since
  have hidle := idle_of_ok hwellFormed answered between again since
  rw [← hserve, ← hlimit] at hidle
  exact serve_of_idle hidle

/-- An engine to which the rent was submitted. -/
def rentSubmitted : Engine Store :=
  (⟨.default, ⟨.empty, Sample.accounts, 0⟩, Sample.outbox, true⟩ : Engine Store).obeyAll
    [.request (.submit Sample.rent .epoch)]

/-- What happens after the first check of the rent: the other checks pass and the rent is paid. -/
def rentGoesOn : List Command :=
  [Sample.passed .auth, Sample.passed .userConfirmation, Sample.confirmed].map .request

/-- The result of the first check of the rent does nothing when it comes once more after the rent
was paid. -/
theorem paid_rent_ignores_check :
    let m : Message := .check ⟨"rent", .epoch, .sanction, false, none⟩
    let later := (rentSubmitted.handle .epoch m).2.obeyAll rentGoesOn
    later.storage.payments.get? "rent" = some Sample.paid ∧
      (later.handle .epoch m).2 = later ∧ later.notices (m.request .epoch) = [] := by
  intro m later
  have paid : later.storage.payments.get? "rent" = some Sample.paid := by decide +kernel
  obtain ⟨ps, answered⟩ : ∃ ps, (rentSubmitted.handle .epoch m).1 = .ok ps :=
    ⟨(rentSubmitted.handle .epoch m).1.toOption.getD [], by decide +kernel⟩
  have since : (m.request .epoch).StillDone (rentSubmitted.handle .epoch m).2.storage
      ((rentSubmitted.handle .epoch m).2.accepted rentGoesOn) := by
    change ∀ r ∈ (rentSubmitted.handle .epoch m).2.accepted rentGoesOn, ¬ r.submits "rent"
    decide +kernel
  exact ⟨paid, handled_again_does_nothing .default Sample.accounts 0 Sample.outbox true
    [.request (.submit Sample.rent .epoch)] rentGoesOn m .epoch .epoch ps answered since⟩

end Engine

end Clearing
