import Clearing.Proofs.Engine.Watched
import Clearing.Proofs.Engine.WellFormed
import Clearing.Proofs.Payment.TimeLimit

/-!
# What waits is known outside

The outbox knows a payment exactly while it waits for its confirmation, by the parties, the amount
and the seconds that the record states. What is to be known of a payment is read off its record, and
every write that changes it is announced, so the two never part.
-/

namespace Clearing

open Clearing.Time

namespace Payment

/-- What is to be known of a record outside: nothing, unless it waits. -/
def awaited? (p : Payment) (limit : UInt64) : Option Pending :=
  if p.status = .waiting then p.processedAt.map fun time => p.pending (p.remaining limit time)
  else none

theorem awaited?_of_ne {p : Payment} {limit : UInt64} (h : p.status ≠ .waiting) :
    p.awaited? limit = none := if_neg h

/-- A result of a check leaves what is known of a payment that goes on to wait. When the payment
begins to wait, the time of the result is noted. -/
theorem awaited?_of_checked {p q : Payment} {limit : UInt64} {c : CheckResult}
    (change : p.Change limit (.check c) q) (waits : q.status = .waiting) :
    q.awaited? limit =
      if p.status = .waiting then p.awaited? limit
      else some (q.pending (q.remaining limit c.occurredAt)) := by
  cases change with
  | checked isOpen differs =>
    have hopen : (p.afterCheck limit c).status.terminal = false := by
      rw [show (p.afterCheck limit c).status = .waiting from waits]
      rfl
    obtain ⟨passed, inTime⟩ := passed_of_open isOpen hopen
    have hafter := afterCheck_of_passed isOpen passed inTime
    by_cases hp : p.status = .waiting
    · rw [if_neg fun h => h.2 hp] at hafter
      rw [if_pos hp, hafter]
      rfl
    · by_cases hc : (p.checks.mark c.check).complete = true
      · rw [if_pos ⟨hc, hp⟩] at hafter
        rw [if_neg hp, hafter]
        rfl
      · rw [if_neg fun h => hc h.1] at hafter
        rw [hafter] at waits
        exact absurd waits hp

end Payment

namespace Outbox

variable {o : Outbox} {limit : UInt64} {s t : Store} {r : Request} {q : Payment}

@[simp] theorem pending?_accept_outcome (o : Outbox) (v : View) (id : String) :
    (o.accept (.outcome v)).pending? id = o.pending? id := by
  simp only [accept, publish, listeners]
  split <;> rfl

@[simp] theorem pending?_accept_waiting (o : Outbox) (p : Pending) (id : String) :
    (o.accept (.waiting p)).pending? id = if p.requestId = id then some p else o.pending? id :=
  Table.get?_put _ _ _ _

@[simp] theorem pending?_accept_settled (o : Outbox) (requestId id : String) :
    (o.accept (.settled requestId)).pending? id =
      if requestId = id then none else o.pending? id :=
  Table.get?_erase _ _ _

/-- Notices of other payments leave what is known of one. -/
theorem pending?_acceptAll_of_ne (o : Outbox) {notices : List Notice} {id : String}
    (h : ∀ n ∈ notices, n.requestId ≠ id) : (o.acceptAll notices).pending? id = o.pending? id := by
  induction notices generalizing o with
  | nil => rfl
  | cons n notices ih =>
    have hn : (o.accept n).pending? id = o.pending? id := by
      have hne := h n List.mem_cons_self
      cases n with
      | outcome v => exact pending?_accept_outcome o v id
      | waiting p => exact (pending?_accept_waiting o p id).trans (if_neg hne)
      | settled other => exact (pending?_accept_settled o other id).trans (if_neg hne)
    exact (ih (o.accept n) fun m hm => h m (List.mem_cons_of_mem n hm)).trans hn

/-- Whether an outbox knows of every payment what its record says. -/
def Mirrors (o : Outbox) (limit : UInt64) (s : Store) : Prop :=
  ∀ id, o.pending? id = (s.payments.get? id).bind (·.awaited? limit)

/-- Nothing is known of a payment that does not wait. -/
theorem Mirrors.pending?_eq_none (h : o.Mirrors limit s) {id : String}
    (unwaited : (s.payments.get? id).any (·.status = .waiting) = false) :
    o.pending? id = none := by
  rw [h id]
  cases hp : s.payments.get? id with
  | none => rfl
  | some p =>
    rw [hp, Option.any_some, decide_eq_false_iff_not] at unwaited
    exact Payment.awaited?_of_ne unwaited

/-- What a write announces is about its record. -/
theorem requestId_of_announced {n : Notice} (h : n ∈ s.announcements limit r q) :
    n.requestId = q.requestId := by
  cases r with
  | submit b now =>
    rcases List.mem_append.mp h with hs | ho
    · split at hs
      · rw [List.mem_singleton.mp hs]
        rfl
      · exact absurd hs List.not_mem_nil
    · rw [List.mem_singleton.mp ho]
      rfl
  | check c =>
    rcases List.mem_cons.mp h with rfl | hw
    · rfl
    · unfold Store.waitingNotices at hw
      repeat' split at hw
      all_goals first | exact absurd hw List.not_mem_nil | rw [List.mem_singleton.mp hw]; rfl
  | confirm d now =>
    rcases List.mem_cons.mp h with rfl | hs
    · rfl
    · rw [List.mem_singleton.mp hs]
      rfl
  | sweep now =>
    rcases List.mem_cons.mp h with rfl | hs
    · rfl
    · rw [List.mem_singleton.mp hs]
      rfl

/-- After a submission nothing is known of the payment. -/
theorem Mirrors.pending?_submitted (h : o.Mirrors limit s) (b : Submission) (now : Instant) :
    (o.acceptAll (s.announcements limit (.submit b now) q)).pending? q.requestId = none := by
  rw [Store.announcements, acceptAll_append]
  refine (pending?_accept_outcome _ _ _).trans ?_
  split
  · exact (pending?_accept_settled _ _ _).trans (if_pos rfl)
  · next hw => exact h.pending?_eq_none (Bool.not_eq_true _ ▸ hw)

/-- After a confirmation or a sweep nothing is known of the payment. -/
theorem pending?_final (o : Outbox) (q : Payment) :
    (o.acceptAll [.outcome q.view, .settled q.requestId]).pending? q.requestId = none :=
  (pending?_accept_settled _ _ _).trans (if_pos rfl)

/-- After a result of a check it is known of the payment what its record says. -/
theorem Mirrors.pending?_checked (h : o.Mirrors limit s) {p : Payment} {c : CheckResult}
    (stored : s.payments.get? q.requestId = some p) (change : p.Change limit (.check c) q) :
    (o.acceptAll (s.announcements limit (.check c) q)).pending? q.requestId =
      q.awaited? limit := by
  have hbefore : (o.accept (.outcome q.view)).pending? q.requestId = p.awaited? limit := by
    rw [pending?_accept_outcome, h, stored]
    rfl
  change ((o.accept (.outcome q.view)).acceptAll (Store.waitingNotices
    ((s.payments.get? q.requestId).any (·.status = .waiting)) q limit c.occurredAt)).pending? _ = _
  rw [stored, Option.any_some]
  by_cases waits : q.status = .waiting
  · rw [Payment.awaited?_of_checked change waits, Store.waitingNotices, if_pos waits]
    by_cases waited : p.status = .waiting
    · rw [if_pos waited, decide_eq_true waited]
      exact hbefore
    · rw [if_neg waited, decide_eq_false waited]
      exact (pending?_accept_waiting _ _ _).trans (if_pos rfl)
  · rw [Payment.awaited?_of_ne waits, Store.waitingNotices, if_neg waits]
    by_cases waited : p.status = .waiting
    · -- A payment that waited and waits no longer was declined.
      have hfinal : q.status.terminal = true := by
        rcases change.status with hs | hs | hs
        · rw [hs]
          rfl
        · exact absurd hs waits
        · exact absurd (hs.trans waited) waits
      rw [decide_eq_true waited, hfinal]
      exact (pending?_accept_settled _ _ _).trans (if_pos rfl)
    · rw [decide_eq_false waited, Bool.false_and]
      exact hbefore.trans (Payment.awaited?_of_ne waited)

/-- A write that is announced leaves the outbox as a mirror of the store. -/
theorem Mirrors.written (h : o.Mirrors limit s) (write : s.Write limit r q t) :
    (o.acceptAll (s.announcements limit r q)).Mirrors limit t := by
  intro id
  rw [write.get?]
  by_cases hid : q.requestId = id
  · subst hid
    rw [if_pos rfl, Option.bind_some]
    rcases write.begins_or_changes with ⟨-, b, now, rfl, -, rfl, -⟩ | ⟨p, stored, change, -⟩
    · exact h.pending?_submitted b now
    · have hstatus := change.status
      cases r with
      | submit b now =>
        rw [Payment.awaited?_of_ne (by rw [hstatus]; nofun)]
        exact h.pending?_submitted b now
      | check c => exact h.pending?_checked stored change
      | confirm d now =>
        rw [Payment.awaited?_of_ne fun hw => by rw [hw] at hstatus; exact absurd hstatus nofun]
        exact o.pending?_final q
      | sweep now =>
        rw [Payment.awaited?_of_ne (by rw [hstatus]; nofun)]
        exact o.pending?_final q
  · rw [if_neg hid, ← h id]
    exact o.pending?_acceptAll_of_ne fun n hn => requestId_of_announced hn ▸ hid

end Outbox

/-- Whether the notices that were sent make of an outbox a mirror of the store. -/
def Moment.Mirrored (o : Outbox) (limit : UInt64) (m : Moment) : Prop :=
  (o.acceptAll m.sent).Mirrors limit m.store

/-- The writes of a request leave a mirror. -/
theorem Moment.Mirrored.writes {o : Outbox} {limit : UInt64} {r : Request} {m after : Moment}
    {qs : List Payment} (hw : Writes limit r m qs after) (h : m.Mirrored o limit) :
    after.Mirrored o limit := by
  induction hw with
  | none => exact h
  | more write _ ih =>
    refine ih ?_
    rw [Mirrored, Moment.store_written]
    change (o.acceptAll (_ ++ _)).Mirrors limit _
    rw [Outbox.acceptAll_append]
    exact Outbox.Mirrors.written h write

namespace Chronicle

/-- Whether what a chronicle has sent makes of an outbox a mirror of its store. -/
def Mirrored (o : Outbox) (limit : UInt64) (c : Chronicle) : Prop := c.moment.Mirrored o limit

/-- Every step leaves a mirror. -/
theorem Mirrored.next {o : Outbox} {limit : UInt64} {c next : Chronicle}
    (h : c.Mirrored o limit) (hn : c.Next limit next) : next.Mirrored o limit := by
  unfold Mirrored at h ⊢
  cases hn with
  | idle moment =>
    rw [moment]
    exact h
  | opened a moment =>
    rw [moment, Moment.Mirrored, Moment.store_see]
    exact h
  | served effect =>
    obtain ⟨qs, hw⟩ := effect.writes
    exact h.writes hw

end Chronicle

/-- An engine on a store of which no call fails keeps its outbox a mirror. -/
theorem Engine.mirrors_obeyAll {e : Engine Store} (keyed : e.storage.Keyed)
    (h : e.outbox.Mirrors e.settings.timeLimit e.storage) (commands : List Command) :
    (e.obeyAll commands).outbox.Mirrors e.settings.timeLimit (e.obeyAll commands).storage := by
  let start : Engine Watched := ⟨e.settings, .ofStore e.storage [], e.outbox, e.running⟩
  let c := (Chronicle.ofEngine start).follow commands
  have hkeyed : (Chronicle.ofEngine start).store.Keyed := keyed
  have hmirrored : (Chronicle.ofEngine start).Mirrored e.outbox e.settings.timeLimit := h
  have hmirrors : (e.outbox.acceptAll c.sent).Mirrors e.settings.timeLimit c.store :=
    Chronicle.holds_follow rfl hkeyed hmirrored Chronicle.Mirrored.next commands
  have houtbox : c.engine.outbox = e.outbox.acceptAll c.sent :=
    Chronicle.outbox_follow rfl commands
  have hshows : c.engine.Shows (e.obeyAll commands) := by
    rw [Chronicle.engine_follow]
    exact obeyAll_ofStore e commands
  have hstore : c.store = (e.obeyAll commands).storage := hshows.storage.present
  rwa [← houtbox, hshows.outbox, hstore] at hmirrors

/-- Whether an entry tells what a record says: who pays whom how much, and the seconds that were
left when the payment began to wait. -/
structure Pending.Reflects (entry : Pending) (limit : UInt64) (p : Payment) : Prop where
  requestId : entry.requestId = p.requestId
  payer : entry.payer = p.payer
  payee : entry.payee = p.payee
  amount : entry.amount = p.amount
  remaining : ∃ time, p.processedAt = some time ∧ entry.remaining = p.remaining limit time
  /-- No seconds are missing. -/
  nonneg : 0 ≤ entry.remaining

namespace Payment

/-- Of a well-formed payment that waits everything is known that is to be known. -/
theorem WellFormed.awaited {p : Payment} {limit : UInt64} (h : p.WellFormed limit)
    (waits : p.status = .waiting) :
    ∃ entry, p.awaited? limit = some entry ∧ entry.Reflects limit p := by
  have hagrees := h.agrees
  rw [waits] at hagrees
  obtain ⟨time, stamped, inTime⟩ := hagrees.inTime
  refine ⟨p.pending (p.remaining limit time), ?_, rfl, rfl, rfl, rfl, ⟨time, stamped, rfl⟩, ?_⟩
  · rw [awaited?, if_pos waits, stamped]
    rfl
  · exact remaining_nonneg inTime

end Payment

namespace Outbox

/-- A mirror of a well-formed store has an entry for a payment exactly while the payment waits, and
the entry tells what the record says. -/
theorem Mirrors.entry_iff {o : Outbox} {limit : UInt64} {s : Store} (h : o.Mirrors limit s)
    (wellFormed : s.WellFormed limit) (id : String) :
    ((∃ entry, o.pending? id = some entry) ↔
      ∃ p, s.payments.get? id = some p ∧ p.status = .waiting) ∧
    ∀ entry, o.pending? id = some entry →
      ∃ p, s.payments.get? id = some p ∧ entry.Reflects limit p := by
  rw [h id]
  cases hp : s.payments.get? id with
  | none =>
    refine ⟨⟨?_, ?_⟩, ?_⟩
    · rintro ⟨entry, he⟩
      exact absurd he nofun
    · rintro ⟨p, hs, -⟩
      exact absurd hs nofun
    · exact fun entry he => absurd he nofun
  | some p =>
    rw [Option.bind_some]
    by_cases waits : p.status = .waiting
    · have hw := wellFormed.records p (Table.mem_values_iff.mpr ⟨id, hp⟩)
      obtain ⟨entry, he, reflects⟩ := hw.awaited waits
      refine ⟨⟨fun _ => ⟨p, rfl, waits⟩, fun _ => ⟨entry, he⟩⟩, fun other hother => ?_⟩
      rw [he] at hother
      cases hother
      exact ⟨p, rfl, reflects⟩
    · rw [Payment.awaited?_of_ne waits]
      refine ⟨⟨?_, ?_⟩, ?_⟩
      · rintro ⟨entry, he⟩
        exact absurd he nofun
      · rintro ⟨q, hs, hw⟩
        cases hs
        exact absurd hw waits
      · exact fun entry he => absurd he nofun

end Outbox

namespace Inbox

/-- Start from the empty store and do anything that an inbox can be asked to do, while any call of
the store may fail. Then a payment is known outside exactly while its record waits for the
confirmation, by what that record says, and no seconds are missing. -/
theorem pending_mirrors_store (settings : Settings) (plan : List (Option Fault))
    (topicCapacity : Nat) (acts : List Act) (id : String) :
    let engine := ((ofEngine (Engine.start settings (Watched.ofStore .empty plan)
      topicCapacity)).actAll acts).engine
    let record := engine.storage.history.present.payments.get? id
    ((∃ entry, engine.outbox.pending? id = some entry) ↔
        ∃ p, record = some p ∧ p.status = .waiting) ∧
      ∀ entry, engine.outbox.pending? id = some entry →
        ∃ p, record = some p ∧ entry.Reflects settings.timeLimit p := by
  intro engine record
  let start := Engine.start settings (Watched.ofStore .empty plan) topicCapacity
  obtain ⟨commands, hengine⟩ : ∃ commands,
      engine = ((Chronicle.ofEngine start).follow commands).engine := exists_follow start acts
  have hkeyed : (Chronicle.ofEngine start).store.Keyed := fun _ _ => nofun
  have hsound : (Chronicle.ofEngine start).Sound settings.timeLimit :=
    History.sound_empty settings.timeLimit
  have hmirrored : (Chronicle.ofEngine start).Mirrored start.outbox settings.timeLimit :=
    fun _ => rfl
  have hsounds := Chronicle.holds_follow rfl hkeyed hsound Chronicle.Sound.next commands
  have hmirrors := Chronicle.holds_follow rfl hkeyed hmirrored Chronicle.Mirrored.next commands
  have houtbox : engine.outbox =
      start.outbox.acceptAll ((Chronicle.ofEngine start).follow commands).sent := by
    rw [hengine]
    exact Chronicle.outbox_follow rfl commands
  have hrecord : record =
      ((Chronicle.ofEngine start).follow commands).store.payments.get? id := by
    change engine.storage.history.present.payments.get? id = _
    rw [hengine]
    rfl
  rw [houtbox, hrecord]
  exact hmirrors.entry_iff (hsounds.wellFormed _ List.mem_cons_self) id

end Inbox

end Clearing
