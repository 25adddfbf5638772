import Clearing.Proofs.Engine.Vouching
import Clearing.Proofs.Operation.Calm
import Mathlib.Data.List.Induction

/-!
# The lineage of a payment

The first submission of a payment that is accepted fixes when it was created, who pays and the
number of its record. Whatever is submitted, checked, confirmed and swept afterwards leaves these as
they are. The last accepted submission is the one whose amount and payee the record shows, and the
generation counts the accepted submissions after the first. A further submission is accepted only
from the same payer and leaves the time that the payment has.
-/

namespace Clearing

open Clearing.Time

/-- The submission of a payment that a request is. -/
def Request.submission? (id : String) : Request → Option Submission
  | .submit b _ => if b.requestId = id then some b else none
  | .check _ | .confirm _ _ | .sweep _ => none

/-- The submissions of a payment among requests, oldest first. -/
def Request.submissions (handled : List Request) (id : String) : List Submission :=
  handled.filterMap (Request.submission? id)

namespace Request

variable {handled : List Request} {r : Request} {id : String} {b : Submission} {now : Instant}

theorem submission?_eq_none (h : ¬ r.submits id) : r.submission? id = none := by
  cases r with
  | submit b now => exact if_neg h
  | check | confirm | sweep => rfl

/-- Requests that do not submit a payment have no submissions of it. -/
theorem submissions_eq_nil (h : ∀ r ∈ handled, ¬ r.submits id) : submissions handled id = [] :=
  List.filterMap_eq_nil_iff.mpr fun r hr => submission?_eq_none (h r hr)

theorem submissions_concat_of_not_submits (h : ¬ r.submits id) :
    submissions (handled ++ [r]) id = submissions handled id := by
  simp [submissions, submission?_eq_none h]

theorem submissions_concat_submit (h : b.requestId = id) :
    submissions (handled ++ [.submit b now]) id = submissions handled id ++ [b] := by
  simp [submissions, submission?, h]

end Request

namespace Payment

variable {limit : UInt64} {p q : Payment} {b : Submission} {now : Instant}
  {submitted : List Submission}

/-- What the record of a payment shows of its accepted submissions: the parties and the amount of
the last one, and how many came after the first. -/
structure Reflects (submitted : List Submission) (p : Payment) : Prop where
  latest : ∃ b, submitted.getLast? = some b ∧ p.transfer = ⟨b.payer, b.payee, b.amount⟩
  generation : p.generation = .ofNat (submitted.length - 1)

theorem reflects_begun (b : Submission) (now : Instant) (id : UInt64) :
    ((begun b now).numbered id).Reflects [b] := ⟨⟨b, rfl, rfl⟩, rfl⟩

/-- What keeps the parties, the amount and the generation shows the same submissions. -/
theorem Reflects.keeps (h : p.Reflects submitted) (keeps : p.Keeps q) :
    q.succ.Reflects submitted := by
  obtain ⟨b, last, transfer⟩ := h.latest
  exact ⟨⟨b, last, keeps.transfer.trans transfer⟩, keeps.generation.trans h.generation⟩

/-- A further submission becomes the last one and is counted. -/
theorem Reflects.renewed (h : p.Reflects submitted) (b : Submission) :
    (p.renewed b).succ.Reflects (submitted ++ [b]) := by
  refine ⟨⟨b, by simp, rfl⟩, ?_⟩
  obtain ⟨first, last, -⟩ := h.latest
  have hpos : 0 < submitted.length := List.length_pos_of_mem (List.mem_of_getLast? last)
  have hlength : (submitted ++ [b]).length - 1 = (submitted.length - 1) + 1 := by
    rw [List.length_append, List.length_singleton]
    omega
  rw [hlength, UInt32.ofNat_add, ← h.generation]
  rfl

/-- The generation counts the submissions after the first until it wraps. -/
theorem Reflects.generation_eq (h : p.Reflects submitted) (room : submitted.length ≤ UInt32.size) :
    p.generation.toNat + 1 = submitted.length := by
  obtain ⟨b, last, -⟩ := h.latest
  have hpos : 0 < submitted.length := List.length_pos_of_mem (List.mem_of_getLast? last)
  rw [h.generation, UInt32.toNat_ofNat_of_lt' (by omega)]
  omega

/-- What no change of a payment touches. -/
structure Inherits (p q : Payment) : Prop where
  requestId : q.requestId = p.requestId
  createdAt : q.createdAt = p.createdAt
  payer : q.payer = p.payer
  internalId : q.internalId = p.internalId

theorem Inherits.refl (p : Payment) : p.Inherits p := ⟨rfl, rfl, rfl, rfl⟩

theorem Inherits.trans {r : Payment} (h : p.Inherits q) (h' : q.Inherits r) : p.Inherits r :=
  ⟨h'.requestId.trans h.requestId, h'.createdAt.trans h.createdAt, h'.payer.trans h.payer,
    h'.internalId.trans h.internalId⟩

theorem Change.inherits {r : Request} (h : p.Change limit r q) : p.Inherits q :=
  ⟨h.follows.requestId, h.follows.createdAt, h.follows.payer, h.follows.internalId⟩

end Payment

namespace Store

variable {limit : UInt64} {handled : List Request} {s t : Store} {r : Request} {q : Payment}

/-- Whether every record shows the submissions of its payment among requests. -/
def Reflects (handled : List Request) (s : Store) : Prop :=
  ∀ id p, s.payments.get? id = some p → p.Reflects (Request.submissions handled id)

/-- A change shows the submissions as its request is counted. -/
theorem reflects_change {p : Payment} {id : String}
    (h : p.Reflects (Request.submissions handled id)) (change : p.Change limit r q)
    (named : ∀ b now, r = .submit b now → b.requestId = id) :
    q.Reflects (Request.submissions (handled ++ [r]) id) := by
  rcases change.renews_or_keeps with ⟨b, now, rfl, -, -, rfl⟩ | ⟨others, next, keeps, rfl⟩
  · rw [Request.submissions_concat_submit (named b now rfl)]
    exact h.renewed b
  · have hnot : ¬ r.submits id := by
      cases r with
      | submit b now => exact absurd rfl (others b now)
      | check | confirm | sweep => exact fun submits => submits
    rw [Request.submissions_concat_of_not_submits hnot]
    exact h.keeps keeps

/-- A request for one payment leaves records that show the submissions, once it is counted. -/
theorem Reflects.written (h : s.Reflects handled) (told : s.Told limit handled)
    (write : s.Write limit r q t) : t.Reflects (handled ++ [r]) := by
  intro id p hp
  rcases write.stored hp with ⟨hid, rfl⟩ | ⟨hother, hstored⟩
  · have hnamed (b : Submission) (now : Instant) (hr : r = .submit b now) : b.requestId = id := by
      subst hr
      exact (write.named rfl).trans hid
    rcases write.begins_or_changes with ⟨absent, b, now, hr, -, rfl, -⟩ | ⟨old, stored, change, -⟩
    · have hnone := Request.submissions_eq_nil (told.absent _ absent)
      rw [hid] at hnone
      rw [hr, Request.submissions_concat_submit (hnamed b now hr), hnone]
      exact Payment.reflects_begun b now _
    · rw [hid] at stored
      exact reflects_change (h id old stored) change hnamed
  · have hnot : ¬ r.submits id := by
      refine Told.not_submits fun other hr => ?_
      rw [write.named hr]
      exact hother
    rw [Request.submissions_concat_of_not_submits hnot]
    exact h id p hstored

/-- The writes of a sweep leave records that show the submissions. -/
theorem Reflects.swept {now : Instant} {m after : Moment} {qs : List Payment}
    (writes : Writes limit (.sweep now) m qs after) (h : m.store.Reflects handled) :
    after.store.Reflects handled := by
  refine writes.lasts (fun s q t write h id p hp => ?_) h
  obtain ⟨old, stored, rfl | change⟩ := write.kept_or_changed (fun _ _ hr => by cases hr) hp
  · exact h id p stored
  · rcases change.renews_or_keeps with ⟨b, now, hr, -⟩ | ⟨-, next, keeps, rfl⟩
    · exact absurd hr nofun
    · exact (h id old stored).keeps keeps

end Store

namespace Chronicle

/-- Whether the requests that were handled tell of the store, and its records show the
submissions. -/
def Reflects (limit : UInt64) (c : Chronicle) : Prop :=
  c.Told limit ∧ c.store.Reflects c.handled

/-- Every step leaves records that show the submissions. -/
theorem Reflects.next {limit : UInt64} {c next : Chronicle} (h : c.Reflects limit)
    (hn : c.Next limit next) : next.Reflects limit := by
  obtain ⟨told, reflects⟩ := h
  refine ⟨told.next hn, ?_⟩
  unfold store at reflects ⊢
  cases hn with
  | idle moment handled =>
    rw [moment, handled]
    exact reflects
  | opened a moment handled =>
    rw [moment, handled, Moment.store_see]
    exact reflects
  | served effect handled =>
    rw [handled]
    generalize next.moment = after at effect
    cases effect with
    | @kept result _ check stored idle =>
      intro id p hp
      have hnot : ¬ (Request.check result).submits id := fun submits => submits
      rw [check, Request.submissions_concat_of_not_submits hnot]
      exact reflects id p hp
    | written one write =>
      rw [Moment.store_written]
      exact reflects.written told.2 write
    | @swept now _ _ sweep writes =>
      subst sweep
      intro id p hp
      have hnot : ¬ (Request.sweep now).submits id := fun submits => submits
      rw [Request.submissions_concat_of_not_submits hnot]
      exact reflects.swept writes id p hp

/-- Commands split at a submission. -/
structure Origin where
  before : List Command
  submission : Submission
  arrival : Instant
  after : List Command

/-- All commands, those before the submission and those after it. -/
def Origin.commands (o : Origin) : List Command :=
  o.before ++ .request (.submit o.submission o.arrival) :: o.after

/-- The submission is the first of its payment that was accepted, and fixed what no later command
touches. -/
structure Origin.Fixes (start : Chronicle) (o : Origin) (p : Payment) : Prop where
  submitted : o.submission.requestId = p.requestId
  first : ∀ r ∈ (start.follow o.before).handled, ¬ r.submits p.requestId
  accepted : ∃ q, ((start.follow o.before).engine.submit o.submission o.arrival).1 = .ok q ∧
    q.Inherits p
  createdAt : p.createdAt = o.submission.createdAt.getD o.arrival
  payer : p.payer = o.submission.payer
  internalId : p.internalId = some ((start.follow o.before).store.lastId + 1)

/-- What inherits from a payment has its origin. -/
theorem Origin.Fixes.inherits {start : Chronicle} {o : Origin} {p q : Payment} (h : o.Fixes start p)
    (inherits : p.Inherits q) : o.Fixes start q := by
  obtain ⟨record, accepted, fixed⟩ := h.accepted
  refine ⟨?_, ?_, ⟨record, accepted, fixed.trans inherits⟩, ?_, ?_, ?_⟩
  · rw [inherits.requestId, h.submitted]
  · rw [inherits.requestId]
    exact h.first
  · rw [inherits.createdAt, h.createdAt]
  · rw [inherits.payer, h.payer]
  · rw [inherits.internalId, h.internalId]

/-- A submission for one payment is answered as the request is. -/
theorem submit_of_serve {σ : Type} [Storage σ] {e : Engine σ} {b : Submission} {now : Instant}
    {q : Payment} : (e.serve (.submit b now)).1 = .ok [q] ↔ (e.submit b now).1 = .ok q := by
  change (e.submit b now).1.map ([·]) = .ok [q] ↔ _
  cases (e.submit b now).1 <;> simp [Except.map]

/-- What a sweep writes inherits from what was there. -/
theorem inherits_of_swept {limit : UInt64} {now : Instant} {m after : Moment} {qs : List Payment}
    (writes : Writes limit (.sweep now) m qs after) {id : String} {p : Payment}
    (hp : after.store.payments.get? id = some p) :
    ∃ old, m.store.payments.get? id = some old ∧ old.Inherits p := by
  let keeps (s : Store) : Prop := ∀ p, s.payments.get? id = some p →
    ∃ old, m.store.payments.get? id = some old ∧ old.Inherits p
  have hstart : keeps m.store := fun p stored => ⟨p, stored, .refl p⟩
  refine writes.lasts (fun s q t write (h : keeps s) p hp => ?_) hstart p hp
  obtain ⟨old, stored, rfl | change⟩ := write.kept_or_changed (fun _ _ hr => by cases hr) hp
  · exact h p stored
  · obtain ⟨first, hfirst, inherits⟩ := h old stored
    exact ⟨first, hfirst, inherits.trans change.inherits⟩

/-- A record after a command inherits from the one before, or begins with an accepted submission. -/
theorem inherits_or_begun {c : Chronicle} (keyed : c.store.Keyed) (command : Command) {id : String}
    {p : Payment} (hp : (c.obey command).store.payments.get? id = some p) :
    (∃ old, c.store.payments.get? id = some old ∧ old.Inherits p) ∨
      c.store.payments.get? id = none ∧ ∃ b now, command = .request (.submit b now) ∧
        b.requestId = id ∧ (c.engine.submit b now).1 = .ok p ∧
        p = (Payment.begun b now).numbered (c.store.lastId + 1) := by
  cases command with
  | shutdown => exact .inl ⟨p, hp, .refl p⟩
  | opening name balance =>
    rcases c.store_opening name balance with same | opened
    · rw [same] at hp
      exact .inl ⟨p, hp, .refl p⟩
    · rw [opened] at hp
      exact .inl ⟨p, hp, .refl p⟩
  | request r =>
    unfold store at hp ⊢
    rcases idle_or_served keyed r with ⟨moment, -⟩ | ⟨ps, answer, effect, -⟩
    · rw [moment] at hp
      exact .inl ⟨p, hp, .refl p⟩
    · generalize (c.obey (.request r)).moment = after at effect hp
      cases effect with
      | kept => exact .inl ⟨p, hp, .refl p⟩
      | swept sweep writes =>
        subst sweep
        exact .inl (inherits_of_swept writes hp)
      | written one write =>
        rw [Moment.store_written] at hp
        rcases write.stored hp with ⟨hid, rfl⟩ | ⟨-, hstored⟩
        · rcases write.begins_or_changes with
            ⟨absent, b, now, rfl, -, hq, -⟩ | ⟨old, stored, change, -⟩
          · rw [hid] at absent
            exact .inr ⟨absent, b, now, rfl, (write.named rfl).trans hid,
              submit_of_serve.mp answer, hq⟩
          · rw [hid] at stored
            exact .inl ⟨old, stored, change.inherits⟩
        · exact .inl ⟨p, hstored, .refl p⟩

/-- The last of some commands is obeyed after the others. -/
theorem follow_concat (c : Chronicle) (commands : List Command) (command : Command) :
    c.follow (commands ++ [command]) = (c.follow commands).obey command := by
  rw [follow, List.foldl_append]
  rfl

/-- Whether every record has an origin among the commands. -/
def Originates (start : Chronicle) (commands : List Command) : Prop :=
  ∀ id p, (start.follow commands).store.payments.get? id = some p →
    ∃ o : Origin, o.commands = commands ∧ o.Fixes start p

/-- A further command leaves every record with an origin. -/
theorem Originates.concat {limit : UInt64} {start : Chronicle} {commands : List Command}
    (h : Originates start commands) (told : (start.follow commands).Told limit)
    (command : Command) : Originates start (commands ++ [command]) := by
  intro id p hp
  rw [follow_concat] at hp
  rcases inherits_or_begun told.1 command hp with
    ⟨old, stored, inherits⟩ | ⟨absent, b, now, rfl, hid, accepted, hq⟩
  · obtain ⟨o, rfl, fixes⟩ := h id old stored
    refine ⟨{ o with after := o.after ++ [command] }, by simp [Origin.commands], ?_⟩
    exact { fixes.inherits inherits with }
  · refine ⟨⟨commands, b, now, []⟩, rfl, ?_⟩
    subst hq
    exact ⟨rfl, told.2.absent b.requestId (hid ▸ absent), ⟨_, accepted, .refl _⟩, rfl, rfl, rfl⟩

/-- Whatever is obeyed after a start without payments, every record has an origin. -/
theorem originates_follow {limit : UInt64} {start : Chronicle}
    (empty : ∀ id, start.store.payments.get? id = none)
    (told : ∀ commands, (start.follow commands).Told limit) (commands : List Command) :
    Originates start commands := by
  induction commands using List.reverseRecOn with
  | nil => exact fun id p hp => absurd ((empty id).symm.trans hp) (Option.some_ne_none p).symm
  | append_singleton commands command ih => exact ih.concat (told commands) command

end Chronicle

/-- Whether a payment that is stored may be submitted again in that way. -/
structure Store.Reopens (s : Store) (p : Payment) (b : Submission) : Prop where
  valid : b.refusal? = none
  known : s.HasParties b
  isOpen : p.status.terminal = false
  payer : p.payer = b.payer

/-- What a further submission makes of a payment. -/
structure Payment.Reopened (p : Payment) (b : Submission) (q : Payment) : Prop where
  inherits : p.Inherits q
  transfer : q.transfer = ⟨b.payer, b.payee, b.amount⟩
  generation : q.generation = p.generation + 1
  status : q.status = .reprocessing
  checks : q.checks = .none
  processedAt : q.processedAt = none
  failureMessage : q.failureMessage = none
  /-- It is too late for the payment exactly when it was before. -/
  expired : ∀ limit now, q.expired limit now ↔ p.expired limit now

theorem Payment.reopened_renewed {p : Payment} {b : Submission} (payer : p.payer = b.payer) :
    p.Reopened b (p.renewed b).succ :=
  ⟨⟨rfl, rfl, payer.symm, rfl⟩, rfl, rfl, rfl, rfl, rfl, rfl, fun _ _ => expired_congr rfl _ _⟩

namespace Chronicle

variable {c : Chronicle} {b : Submission} {now : Instant} {p q : Payment}

/-- A further submission of a payment is accepted only if it may be, and its record is stored. -/
theorem reopened_of_submit (keyed : c.store.Keyed)
    (stored : c.store.payments.get? b.requestId = some p)
    (accepted : (c.engine.submit b now).1 = .ok q) :
    c.store.Reopens p b ∧ p.Reopened b q ∧
      (c.obey (.request (.submit b now))).store.payments.get? b.requestId = some q := by
  have hanswer : (c.engine.serve (.submit b now)).1 = .ok [q] := submit_of_serve.mpr accepted
  obtain ⟨result, effect, same⟩ :=
    served_of_takes keyed (rfl : c.engine.takes (.submit b now) = true)
  cases (same [q]).mp hanswer
  unfold store at stored ⊢
  generalize (c.obey (.request (.submit b now))).moment = after at effect
  cases effect with
  | kept check => exact absurd check nofun
  | swept sweep => exact absurd sweep nofun
  | written _ write =>
    have hid : b.requestId = q.requestId := write.named rfl
    rw [Moment.store_written, write.get?, if_pos hid.symm]
    rcases write.begins_or_changes with ⟨absent, -⟩ | ⟨old, hold, change, -⟩
    · rw [← hid, stored] at absent
      exact absurd absent (Option.some_ne_none p)
    · rw [← hid, stored] at hold
      cases hold
      rcases change.renews_or_keeps with ⟨s, time, hr, valid, payer, rfl⟩ | ⟨others, -⟩
      · cases hr
        exact ⟨⟨valid, write.hasParties rfl, change.isOpen, payer⟩, p.reopened_renewed payer, rfl⟩
      · exact absurd rfl (others b now)

/-- When no call fails, a further submission of a payment is accepted exactly if it may be. -/
theorem submit_accepted_iff (keyed : c.store.Keyed) (calm : c.engine.storage.plan = [])
    (stored : c.store.payments.get? b.requestId = some p) :
    (∃ q, (c.engine.submit b now).1 = .ok q) ↔ c.store.Reopens p b := by
  have hshows : c.engine.storage.Shows c.store := ⟨rfl, calm⟩
  have hrun := (Program.run_of_shows (ExceptT.run (Operation.submit b now)) hshows).1
  have hsubmit : (c.engine.submit b now).1 = ((Operation.submit b now).run c.store).result := hrun
  rw [hsubmit, (Operation.submitted_submit keyed b now).ok_iff]
  constructor
  · rintro ⟨valid, known, may⟩
    obtain ⟨payer, isOpen⟩ := may p stored
    exact ⟨valid, known, isOpen, payer⟩
  · rintro ⟨valid, known, isOpen, payer⟩
    refine ⟨valid, known, fun p' stored' => ?_⟩
    cases stored.symm.trans stored'
    exact ⟨payer, isOpen⟩

/-- Start from a store without payments and obey any commands, while any call of the store may fail.
The first accepted submission of a stored payment has fixed when it was created, who pays and the
number of its record. The record shows the payee and the amount of the last accepted one, and its
generation counts those after the first. A further submission is accepted only if it is valid, both
its parties have accounts, the payment is open and its payer stays, and exactly then when no call
fails. It leaves the payment with nothing passed, not processed and with the time that it had. -/
theorem lineage_kept (settings : Settings) (accounts : Table Account) (lastId : UInt64)
    (plan : List (Option Fault)) (outbox : Outbox) (running : Bool) (commands : List Command) :
    let start := ofEngine ⟨settings, .ofStore ⟨.empty, accounts, lastId⟩ plan, outbox, running⟩
    let c := start.follow commands
    (∀ p ∈ c.store.payments.values,
      (∃ o : Origin, o.commands = commands ∧ o.Fixes start p) ∧
      p.Reflects (Request.submissions c.handled p.requestId) ∧
      ((Request.submissions c.handled p.requestId).length ≤ UInt32.size →
        p.generation.toNat + 1 = (Request.submissions c.handled p.requestId).length)) ∧
    ∀ b now p, c.store.payments.get? b.requestId = some p →
      (c.engine.storage.plan = [] →
        ((∃ q, (c.engine.submit b now).1 = .ok q) ↔ c.store.Reopens p b)) ∧
      ∀ q, (c.engine.submit b now).1 = .ok q → c.store.Reopens p b ∧ p.Reopened b q ∧
        (c.obey (.request (.submit b now))).store.payments.get? b.requestId = some q := by
  intro start c
  have hkeyed : start.store.Keyed := fun _ _ => nofun
  have htold : start.Told settings.timeLimit :=
    ⟨hkeyed, fun _ _ r hr => absurd hr List.not_mem_nil, fun _ _ => nofun⟩
  have horiginates : Originates start commands :=
    originates_follow (fun _ => rfl) (holds_follow rfl hkeyed htold Told.next) commands
  have hreflects : c.Reflects settings.timeLimit :=
    holds_follow rfl hkeyed ⟨htold, fun _ _ => nofun⟩ Reflects.next commands
  refine ⟨fun p hp => ?_, fun b now p stored => ⟨fun calm => ?_, fun q accepted => ?_⟩⟩
  · obtain ⟨id, stored⟩ := Table.mem_values_iff.mp hp
    have hshows := hreflects.2 id p stored
    rw [← hreflects.1.1 id p stored] at hshows
    exact ⟨horiginates id p stored, hshows, hshows.generation_eq⟩
  · exact submit_accepted_iff hreflects.1.1 calm stored
  · exact reopened_of_submit hreflects.1.1 stored accepted

/-- The raised rent descends from the first submission of the rent, shows the amount of the second
one and may be submitted again. -/
theorem raised_rent_lineage :
    let start := rentChronicle []
    let c := rentChronicle raisedRent
    (∃ o : Origin, o.commands = raisedRent.map .request ∧ o.Fixes start raisedRecord) ∧
      raisedRecord.Reflects (Request.submissions c.handled "rent") ∧
      raisedRecord.generation.toNat + 1 = (Request.submissions c.handled "rent").length ∧
      c.store.Reopens raisedRecord Sample.rent ∧
      ∃ q, (c.engine.submit Sample.rent .epoch).1 = .ok q ∧
        raisedRecord.Reopened Sample.rent q := by
  intro start c
  obtain ⟨lineage, further⟩ := lineage_kept .default Sample.accounts 0 [] Sample.outbox true
    (raisedRent.map .request)
  have hlength : (Request.submissions c.handled "rent").length = 2 := by decide +kernel
  obtain ⟨origin, reflects, counts⟩ := lineage raisedRecord (by decide +kernel)
  obtain ⟨accepted, opened⟩ := further Sample.rent .epoch raisedRecord (by decide +kernel)
  have hagain : ∃ q, (c.engine.submit Sample.rent .epoch).1 = .ok q :=
    ⟨(raisedRecord.renewed Sample.rent).succ, by decide +kernel⟩
  have hreopens := (accepted (by decide +kernel)).mp hagain
  obtain ⟨q, hq⟩ := hagain
  refine ⟨origin, reflects, counts ?_, hreopens, q, hq, (opened q hq).2.1⟩
  exact hlength.le.trans (by decide)

end Chronicle

end Clearing
