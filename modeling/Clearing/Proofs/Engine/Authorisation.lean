import Clearing.Proofs.Engine.Chronicle
import Clearing.Proofs.Store.Values

/-!
# No payment is completed unauthorised

The requests that were answered tell why a payment is completed: after its last submission each
check passed in time, none failed or came late, and then the payer confirmed in time. While a
payment is open the requests since its last submission account for the checks that have passed, and
this is what every request keeps.
-/

namespace Clearing

open Clearing.Time

/-- Whether a request submits a payment. -/
def Request.submits (id : String) : Request → Prop
  | .submit s _ => s.requestId = id
  | .check _ | .confirm _ _ | .sweep _ => False

instance (id : String) : (r : Request) → Decidable (r.submits id)
  | .submit s _ => inferInstanceAs (Decidable (s.requestId = id))
  | .check _ | .confirm _ _ | .sweep _ => inferInstanceAs (Decidable False)

/-- Whether the first submission of a payment among requests was made for that time. -/
def FirstSubmitted (handled : List Request) (id : String) (time : Instant) : Prop :=
  ∃ before s arrival after, handled = before ++ Request.submit s arrival :: after ∧
    s.requestId = id ∧ (∀ r ∈ before, ¬ r.submits id) ∧ time = s.createdAt.getD arrival

/-- Requests split at a submission. -/
structure Generation where
  before : List Request
  submission : Submission
  arrival : Instant
  since : List Request

/-- All requests, those before the submission and those since. -/
def Generation.requests (g : Generation) : List Request :=
  g.before ++ .submit g.submission g.arrival :: g.since

/-- The submission is the last one of an open payment, whose parties and amount it has stated, and
the requests since account for the checks of the payment. -/
structure Generation.Bears (g : Generation) (limit : UInt64) (p : Payment) : Prop where
  submitted : g.submission.requestId = p.requestId
  transfer : p.transfer = ⟨g.submission.payer, g.submission.payee, g.submission.amount⟩
  last : ∀ r ∈ g.since, ¬ r.submits p.requestId
  /-- A check is marked only after a result of it that did not fail. -/
  passed : ∀ check, p.checks.passed check = true →
    ∃ c, .check c ∈ g.since ∧ c.requestId = p.requestId ∧ c.check = check ∧ c.failed = false
  /-- No result of a check has failed or come late. -/
  sound : ∀ c, .check c ∈ g.since → c.requestId = p.requestId →
    c.failed = false ∧ ¬ p.expired limit c.occurredAt

/-- The requests around a decision authorise a completed payment: the submission is the last one and
has stated the parties and the amount, since then and before the decision each check has passed and
none has failed or come late, and the payer has confirmed in time. -/
structure Authorised (limit : UInt64) (p : Payment) (g : Generation) (d : Decision) (time : Instant)
    (after : List Request) : Prop where
  submitted : g.submission.requestId = p.requestId
  transfer : p.transfer = ⟨g.submission.payer, g.submission.payee, g.submission.amount⟩
  last : ∀ r ∈ g.since ++ after, ¬ r.submits p.requestId
  passed : ∀ check, ∃ c, .check c ∈ g.since ∧ c.requestId = p.requestId ∧ c.check = check ∧
    c.failed = false
  sound : ∀ c, .check c ∈ g.since → c.requestId = p.requestId →
    c.failed = false ∧ ¬ p.expired limit c.occurredAt
  decided : d.requestId = p.requestId
  confirmed : d.confirmed = true
  processedAt : p.processedAt = some time
  inTime : ¬ p.expired limit time

/-- What the requests tell of a payment. -/
structure Payment.Told (limit : UInt64) (handled : List Request) (p : Payment) : Prop where
  created : FirstSubmitted handled p.requestId p.createdAt
  bears : p.status.terminal = false → ∃ g : Generation, handled = g.requests ∧ g.Bears limit p
  authorised : p.status = .completed → ∃ (g : Generation) (d : Decision) (time : Instant)
    (after : List Request), handled = g.requests ++ .confirm d time :: after ∧
      Authorised limit p g d time after

/-- The first submission stays the first one. -/
theorem FirstSubmitted.append {handled : List Request} {id : String} {time : Instant}
    (h : FirstSubmitted handled id time) (r : Request) :
    FirstSubmitted (handled ++ [r]) id time := by
  obtain ⟨before, s, arrival, after, rfl, hid, hbefore, ht⟩ := h
  refine ⟨before, s, arrival, after ++ [r], ?_, hid, hbefore, ht⟩
  rw [List.append_assoc, List.cons_append]

/-- A further request is one since the submission. -/
theorem Generation.requests_append (g : Generation) (r : Request) :
    g.requests ++ [r] = { g with since := g.since ++ [r] : Generation }.requests := by
  rw [requests, requests, List.append_assoc, List.cons_append]

/-- A further request that submits nothing and brings no bad result leaves what bears a payment. -/
theorem Generation.Bears.append {g : Generation} {limit : UInt64} {p : Payment}
    (h : g.Bears limit p) {r : Request} (last : ¬ r.submits p.requestId)
    (sound : ∀ c, r = .check c → c.requestId = p.requestId →
      c.failed = false ∧ ¬ p.expired limit c.occurredAt) :
    { g with since := g.since ++ [r] : Generation }.Bears limit p := by
  refine ⟨h.submitted, h.transfer, ?_, ?_, ?_⟩
  · intro x hx
    rcases List.mem_append.mp hx with hm | hm
    · exact h.last x hm
    · cases List.mem_singleton.mp hm
      exact last
  · intro check hc
    obtain ⟨c, hm, hrest⟩ := h.passed check hc
    exact ⟨c, List.mem_append_left _ hm, hrest⟩
  · intro c hm hid
    rcases List.mem_append.mp hm with hm | hm
    · exact h.sound c hm hid
    · exact sound c (List.mem_singleton.mp hm).symm hid

/-- What bears a payment bears what keeps its parties, its amount and its times, if it accounts for
the checks. -/
theorem Generation.Bears.keeps {g : Generation} {limit : UInt64} {p q : Payment}
    (h : g.Bears limit p) (hk : p.Keeps q)
    (passed : ∀ check, q.checks.passed check = true →
      ∃ c, .check c ∈ g.since ∧ c.requestId = p.requestId ∧ c.check = check ∧ c.failed = false) :
    g.Bears limit q.succ := by
  have hid : q.succ.requestId = p.requestId := hk.requestId
  have htransfer : q.succ.transfer = p.transfer := hk.transfer
  refine ⟨?_, ?_, ?_, ?_, ?_⟩
  · rw [hid, h.submitted]
  · rw [htransfer, h.transfer]
  · rw [hid]
    exact h.last
  · rw [hid]
    exact passed
  · intro c hm hc
    rw [hid] at hc
    obtain ⟨hf, ht⟩ := h.sound c hm hc
    exact ⟨hf, fun late => ht ((Payment.expired_congr hk.createdAt limit _).mp late)⟩

/-- Requests after the decision do not matter, unless they submit the payment. -/
theorem Authorised.append {limit : UInt64} {p : Payment} {g : Generation} {d : Decision}
    {time : Instant} {after : List Request} (h : Authorised limit p g d time after) {r : Request}
    (last : ¬ r.submits p.requestId) : Authorised limit p g d time (after ++ [r]) := by
  refine { h with last := ?_ }
  intro x hx
  rw [← List.append_assoc] at hx
  rcases List.mem_append.mp hx with hm | hm
  · exact h.last x hm
  · cases List.mem_singleton.mp hm
    exact last

namespace Payment.Told

variable {limit : UInt64} {handled : List Request} {p q : Payment} {r : Request}

/-- A further request that submits nothing and brings no bad result changes nothing that is told of
a payment. -/
theorem append (h : p.Told limit handled) (last : ¬ r.submits p.requestId)
    (sound : ∀ c, r = .check c → c.requestId = p.requestId → p.status.terminal = false →
      c.failed = false ∧ ¬ p.expired limit c.occurredAt) : p.Told limit (handled ++ [r]) := by
  refine ⟨h.created.append r, ?_, ?_⟩
  · intro isOpen
    obtain ⟨g, rfl, hg⟩ := h.bears isOpen
    exact ⟨_, g.requests_append r, hg.append last fun c hc hid => sound c hc hid isOpen⟩
  · intro completed
    obtain ⟨g, d, time, after, rfl, ha⟩ := h.authorised completed
    refine ⟨g, d, time, after ++ [r], ?_, ha.append last⟩
    rw [List.append_assoc, List.cons_append]

/-- No check has passed right after a submission. -/
theorem bears_submission {s : Submission} {arrival : Instant} (before : List Request)
    (hid : s.requestId = p.requestId) (transfer : p.transfer = ⟨s.payer, s.payee, s.amount⟩)
    (unchecked : p.checks = .none) : (Generation.mk before s arrival []).Bears limit p := by
  refine ⟨hid, transfer, fun _ hm => absurd hm List.not_mem_nil, ?_,
    fun _ hm => absurd hm List.not_mem_nil⟩
  intro check hc
  rw [unchecked] at hc
  cases check <;> exact absurd hc nofun

/-- The first submission is told of a new payment. -/
theorem begun {s : Submission} {now : Instant} (id : UInt64)
    (first : ∀ r ∈ handled, ¬ r.submits s.requestId) :
    ((Payment.begun s now).numbered id).Told limit (handled ++ [.submit s now]) := by
  refine ⟨⟨handled, s, now, [], rfl, rfl, first, rfl⟩, fun _ => ?_, nofun⟩
  exact ⟨⟨handled, s, now, []⟩, rfl, bears_submission handled rfl rfl rfl⟩

/-- The submission is told of a new generation. -/
theorem resubmitted (h : p.Told limit handled) {s : Submission} {now : Instant}
    (change : p.Change limit (.submit s now) q) (hid : s.requestId = p.requestId) :
    q.Told limit (handled ++ [.submit s now]) := by
  rcases change.renews_or_keeps with ⟨s', now', hr, -, -, rfl⟩ | ⟨hr, -⟩
  · cases hr
    refine ⟨h.created.append _, fun _ => ?_, nofun⟩
    exact ⟨⟨handled, s, now, []⟩, rfl, bears_submission handled hid rfl rfl⟩
  · exact absurd rfl (hr s now)

/-- A result that leaves a payment open has passed in time and is told of its check. -/
theorem checked (h : p.Told limit handled) {c : CheckResult}
    (change : p.Change limit (.check c) q) (hid : c.requestId = p.requestId) :
    q.Told limit (handled ++ [.check c]) := by
  have hf := change.follows
  have unpaid := change.ne_completed fun _ _ => nofun
  have hcreated : FirstSubmitted (handled ++ [.check c]) q.requestId q.createdAt := by
    rw [hf.requestId, hf.createdAt]
    exact h.created.append _
  refine ⟨hcreated, fun isOpen => ?_, fun hc => absurd hc unpaid⟩
  cases change with
  | checked wasOpen differs =>
    obtain ⟨g, rfl, hg⟩ := h.bears wasOpen
    -- A bad result would have declined the payment.
    have hgood := passed_of_open wasOpen isOpen
    have hb := hg.append (r := .check c) id fun c' hc' _ => by cases hc'; exact hgood
    refine ⟨_, g.requests_append _, hb.keeps (p.keeps_afterCheck limit c) fun check hcheck => ?_⟩
    rw [checks_afterCheck_of_passed wasOpen hgood.1 hgood.2, Checks.passed_mark, Bool.or_eq_true,
      beq_iff_eq] at hcheck
    rcases hcheck with hp | rfl
    · exact hb.passed check hp
    · exact ⟨c, List.mem_append_right _ (List.mem_singleton.mpr rfl), hid, rfl, hgood.1⟩

/-- A decision that completes a payment is authorised by what was told of it. -/
theorem decided (h : p.Told limit handled) {d : Decision} {now : Instant}
    (change : p.Change limit (.confirm d now) q) (hid : d.requestId = p.requestId) :
    q.Told limit (handled ++ [.confirm d now]) := by
  have hf := change.follows
  have final : q.status.terminal = true := change.status
  have hcreated : FirstSubmitted (handled ++ [.confirm d now]) q.requestId q.createdAt := by
    rw [hf.requestId, hf.createdAt]
    exact h.created.append _
  refine ⟨hcreated, fun isOpen => absurd (final.symm.trans isOpen) nofun, fun completed => ?_⟩
  obtain ⟨d', now', hr, confirmed, inTime, waits, complete, hq⟩ := change.of_completed completed
  cases hr
  obtain ⟨g, rfl, hg⟩ := h.bears (by rw [waits]; rfl)
  have hpassed (check : Check) : ∃ c, .check c ∈ g.since ∧ c.requestId = p.requestId ∧
      c.check = check ∧ c.failed = false :=
    hg.passed check (Checks.complete_iff.mp complete check)
  have hstamp : q.processedAt = some now := by
    rw [hq, succ, advanced_of_next (by rw [waits]; rfl)]
    rfl
  have hb : g.Bears limit q := by
    rw [hq]
    exact hg.keeps (keeps_advanced _ _ _ _) fun check _ => hpassed check
  rw [← hf.requestId] at hid hpassed
  refine ⟨g, d, now, [], rfl, hb.submitted, hb.transfer, ?_, hpassed, hb.sound, hid, confirmed,
    hstamp, fun late => inTime ((expired_congr hf.createdAt limit now).mp late)⟩
  rw [List.append_nil]
  exact hb.last

/-- A sweep only declines. -/
theorem swept (h : p.Told limit handled) {now : Instant} (change : p.Change limit (.sweep now) q) :
    q.Told limit handled := by
  have hf := change.follows
  have declined : q.status = .declined := change.status
  refine ⟨?_, ?_, ?_⟩
  · rw [hf.requestId, hf.createdAt]
    exact h.created
  · rw [declined]
    exact nofun
  · rw [declined]
    exact nofun

end Payment.Told

/-- What the requests tell of a store: nothing of payments that it does not have, and of each
payment that it has what entitles it to its status. -/
structure Store.Told (limit : UInt64) (handled : List Request) (s : Store) : Prop where
  absent : ∀ id, s.payments.get? id = none → ∀ r ∈ handled, ¬ r.submits id
  stored : ∀ id p, s.payments.get? id = some p → p.Told limit handled

namespace Store.Told

variable {limit : UInt64} {handled : List Request} {s t : Store} {r : Request} {q : Payment}

/-- A request that names a payment submits no other one. -/
theorem not_submits {id : String} (h : ∀ other, r.requestId? = some other → other ≠ id) :
    ¬ r.submits id := by
  cases r with
  | submit b now => exact h b.requestId rfl
  | check | confirm | sweep => exact fun hs => hs

/-- A request that names a payment is told of the others without consequence. -/
theorem others {p : Payment} (h : p.Told limit handled)
    (hr : ∀ id, r.requestId? = some id → id ≠ p.requestId) : p.Told limit (handled ++ [r]) := by
  refine h.append (not_submits hr) ?_
  rintro c rfl hid
  exact absurd hid (hr c.requestId rfl)

/-- A change is told of by its request. -/
theorem changed {p : Payment} (h : p.Told limit handled) (one : ∀ now, r ≠ .sweep now)
    (change : p.Change limit r q) (named : ∀ id, r.requestId? = some id → id = p.requestId) :
    q.Told limit (handled ++ [r]) := by
  cases r with
  | submit b now => exact h.resubmitted change (named _ rfl)
  | check c => exact h.checked change (named _ rfl)
  | confirm d now => exact h.decided change (named _ rfl)
  | sweep now => exact absurd rfl (one now)

/-- A request for one payment is told of what it has written. -/
theorem written (h : s.Told limit handled) (keyed : s.Keyed) (one : ∀ now, r ≠ .sweep now)
    (write : s.Write limit r q t) : t.Told limit (handled ++ [r]) := by
  have hnamed (id : String) (hr : r.requestId? = some id) : id = q.requestId := write.named hr
  refine ⟨?_, ?_⟩
  · intro id hnone x hx
    obtain ⟨hq, hbefore⟩ := write.absent hnone
    rcases List.mem_append.mp hx with hm | hm
    · exact h.absent id hbefore x hm
    · cases List.mem_singleton.mp hm
      exact not_submits fun other hr he => hq ((hnamed other hr).symm.trans he)
  · intro id p hp
    rcases write.stored hp with ⟨-, rfl⟩ | ⟨hq, hs⟩
    · rcases write.begins_or_changes with ⟨absent, b, now, rfl, -, rfl, -⟩ | ⟨p, stored, change, -⟩
      · exact Payment.Told.begun _ (h.absent _ absent)
      · have hp := keyed _ _ stored
        refine changed (h.stored _ _ stored) one change fun id hr => ?_
        rw [hnamed id hr, hp]
    · refine others (h.stored id p hs) fun other hr he => hq ?_
      rw [← hnamed other hr, he, keyed id p hs]

/-- A sweep declines payments, of which it is told without consequence. -/
theorem swept (h : s.Told limit handled) {now : Instant} (write : s.Write limit (.sweep now) q t) :
    t.Told limit handled := by
  refine ⟨fun id hnone => h.absent id (write.absent hnone).2, fun id p hp => ?_⟩
  obtain ⟨old, stored, rfl | change⟩ := write.kept_or_changed (fun _ _ hr => by cases hr) hp
  · exact h.stored id p stored
  · exact (h.stored id old stored).swept change

/-- A result of a check that changes nothing has passed in time, unless its payment is final. -/
theorem kept (h : s.Told limit handled) (keyed : s.Keyed) {c : CheckResult} {p : Payment}
    (stored : s.payments.get? c.requestId = some p)
    (idle : p.status.terminal = true ∨ p.afterCheck limit c = p) :
    s.Told limit (handled ++ [.check c]) := by
  refine ⟨?_, ?_⟩
  · intro id hnone x hx
    rcases List.mem_append.mp hx with hm | hm
    · exact h.absent id hnone x hm
    · cases List.mem_singleton.mp hm
      exact fun hs => hs
  · intro id p' hp
    by_cases hid : c.requestId = id
    · subst hid
      cases Option.some.inj (stored.symm.trans hp)
      refine (h.stored _ p hp).append (fun hs => hs) ?_
      rintro c' hc' - isOpen
      cases hc'
      rcases idle with final | same
      · exact absurd (final.symm.trans isOpen) nofun
      · exact Payment.passed_of_open isOpen (by rwa [same])
    · refine others (h.stored id p' hp) fun other hr he => hid ?_
      cases hr
      rw [he, keyed id p' hp]

/-- A sweep is told of before it has written anything. -/
theorem sweeping (h : s.Told limit handled) (now : Instant) :
    s.Told limit (handled ++ [.sweep now]) := by
  refine ⟨?_, fun id p hp => (h.stored id p hp).append (fun hs => hs) fun _ hc => absurd hc nofun⟩
  intro id hnone x hx
  rcases List.mem_append.mp hx with hm | hm
  · exact h.absent id hnone x hm
  · cases List.mem_singleton.mp hm
    exact fun hs => hs

/-- All that a sweep writes is told of. -/
theorem writes {m after : Moment} {now : Instant} {qs : List Payment}
    (hw : Writes limit (.sweep now) m qs after) (h : m.store.Told limit handled) :
    after.store.Told limit handled := hw.lasts (fun _ _ _ write h => h.swept write) h

end Store.Told

namespace Chronicle

/-- Whether the requests that were handled tell of the store. -/
def Told (limit : UInt64) (c : Chronicle) : Prop :=
  c.store.Keyed ∧ c.store.Told limit c.handled

/-- Every step is told of. -/
theorem Told.next {limit : UInt64} {c next : Chronicle} (h : c.Told limit)
    (hn : c.Next limit next) : next.Told limit := by
  obtain ⟨keyed, told⟩ := h
  refine ⟨hn.keyed keyed, ?_⟩
  unfold store at keyed told ⊢
  cases hn with
  | idle moment handled =>
    rw [moment, handled]
    exact told
  | opened a moment handled =>
    rw [moment, handled, Moment.store_see]
    exact ⟨told.absent, told.stored⟩
  | served effect handled =>
    rw [handled]
    generalize next.moment = after at effect
    cases effect with
    | kept check stored idle =>
      rw [check]
      exact told.kept keyed stored idle
    | written one write =>
      rw [Moment.store_written]
      exact told.written keyed one write
    | swept sweep writes =>
      subst sweep
      -- One request writes many records, so it is told of before the first of them.
      exact Store.Told.writes writes (told.sweeping _)

/-- Start from a store without payments and obey any commands, while any call of the store may fail.
A payment that is completed was created when it was first submitted, and the requests that were
handled authorise it. -/
theorem completed_only_if_authorised (settings : Settings) (accounts : Table Account)
    (lastId : UInt64) (plan : List (Option Fault)) (outbox : Outbox) (running : Bool)
    (commands : List Command) :
    let start : Engine Watched :=
      ⟨settings, .ofStore ⟨.empty, accounts, lastId⟩ plan, outbox, running⟩
    let c := (ofEngine start).follow commands
    ∀ p ∈ c.store.payments.values, p.status = .completed →
      FirstSubmitted c.handled p.requestId p.createdAt ∧
      ∃ (g : Generation) (d : Decision) (time : Instant) (after : List Request),
        c.handled = g.requests ++ .confirm d time :: after ∧
        Authorised settings.timeLimit p g d time after := by
  intro start c p hp completed
  have hkeyed : (ofEngine start).store.Keyed := fun _ _ => nofun
  have hstart : (ofEngine start).Told settings.timeLimit :=
    ⟨hkeyed, fun _ _ r hr => absurd hr List.not_mem_nil, fun _ _ => nofun⟩
  have htold : c.Told settings.timeLimit := holds_follow rfl hkeyed hstart Told.next commands
  obtain ⟨id, hid⟩ := Table.mem_values_iff.mp hp
  have ht := htold.2.stored id p hid
  exact ⟨ht.created, ht.authorised completed⟩

/-- A rent that was checked and confirmed in time is paid and authorised. -/
theorem rent_authorised :
    let start : Engine Watched :=
      ⟨.default, .ofStore ⟨.empty, Sample.accounts, 0⟩ [], Sample.outbox, true⟩
    let c := (ofEngine start).follow ((Sample.checked ++ [Sample.confirmed]).map .request)
    Sample.paid ∈ c.store.payments.values ∧ Sample.paid.status = .completed ∧
      FirstSubmitted c.handled "rent" .epoch ∧
      ∃ (g : Generation) (d : Decision) (time : Instant) (after : List Request),
        c.handled = g.requests ++ .confirm d time :: after ∧
        Authorised Settings.default.timeLimit Sample.paid g d time after := by
  intro start c
  have hpaid : Sample.paid ∈ c.store.payments.values := by decide +kernel
  exact ⟨hpaid, rfl, completed_only_if_authorised _ _ _ _ _ _ _ Sample.paid hpaid rfl⟩

end Chronicle

end Clearing
