import Clearing.Proofs.Engine.AnyOrder
import Clearing.Proofs.Engine.Authorisation

/-!
# Which results vouch for a payment

A submission forgets what has passed. From then on every result that is handled marks its check, so
what has passed is told by the requests since the last submission, and by no earlier one. A result
does not say which generation it is about: one that was handled before the submission and is handled
once more afterwards counts as if it were new.
-/

namespace Clearing

namespace Checks

/-- What a request makes of the checks of a payment: a submission forgets them, a result marks its
own one. -/
def after (id : String) (checks : Checks) : Request → Checks
  | .submit s _ => if s.requestId = id then .none else checks
  | .check c => if c.requestId = id then checks.mark c.check else checks
  | .confirm _ _ | .sweep _ => checks

/-- What requests make of the checks of a payment, one after the other. -/
def afterAll (id : String) (checks : Checks) (rs : List Request) : Checks :=
  rs.foldl (fun checks r => checks.after id r) checks

variable {id : String} {checks : Checks} {r : Request} {rs : List Request}

/-- The last of some requests comes after the others. -/
theorem afterAll_concat (id : String) (checks : Checks) (rs : List Request) (r : Request) :
    checks.afterAll id (rs ++ [r]) = (checks.afterAll id rs).after id r := by
  rw [afterAll, List.foldl_append]
  rfl

/-- A request that names another payment leaves the checks. -/
theorem after_of_other (h : ∀ other, r.requestId? = some other → other ≠ id) :
    checks.after id r = checks := by
  cases r with
  | submit s now => exact if_neg (h s.requestId rfl)
  | check c => exact if_neg (h c.requestId rfl)
  | confirm d now => rfl
  | sweep now => rfl

/-- Without a submission the checks that have passed are those before and those of the results. -/
theorem passed_afterAll (last : ∀ r ∈ rs, ¬ r.submits id) (check : Check) :
    (checks.afterAll id rs).passed check = true ↔
      checks.passed check = true ∨ ∃ c, .check c ∈ rs ∧ c.requestId = id ∧ c.check = check := by
  induction rs generalizing checks with
  | nil => simp [afterAll]
  | cons r rs ih =>
    have hlast : ∀ r ∈ rs, ¬ r.submits id := fun r hr => last r (List.mem_cons_of_mem _ hr)
    change ((checks.after id r).afterAll id rs).passed check = true ↔ _
    rw [ih hlast]
    cases r with
    | submit s now =>
      have hother : s.requestId ≠ id := last _ List.mem_cons_self
      simp [after, hother]
    | check c =>
      by_cases hid : c.requestId = id
      · simp only [after, hid, if_true, passed_mark, Bool.or_eq_true, beq_iff_eq, List.mem_cons,
          Request.check.injEq, or_and_right, exists_or, exists_eq_left, or_assoc, true_and]
        rw [eq_comm (a := check)]
      · simp only [after, hid, if_false, List.mem_cons, Request.check.injEq, or_and_right,
          exists_or, exists_eq_left, false_and, false_or]
    | confirm d now => simp [after]
    | sweep now => simp [after]

end Checks

namespace Generation

/-- The submission is the last one of a payment and has stated its parties and its amount. -/
structure Fixes (g : Generation) (p : Payment) : Prop where
  submitted : g.submission.requestId = p.requestId
  transfer : p.transfer = ⟨g.submission.payer, g.submission.payee, g.submission.amount⟩
  last : ∀ r ∈ g.since, ¬ r.submits p.requestId

/-- Whether a result was handled since the submission that does not speak against the payment. -/
structure Vouches (g : Generation) (limit : UInt64) (p : Payment) (c : CheckResult) : Prop where
  handled : .check c ∈ g.since
  named : c.requestId = p.requestId
  passed : ¬ p.Against limit c

variable {g : Generation} {limit : UInt64} {p : Payment}

/-- What bears a payment has fixed its parties and its amount. -/
theorem Bears.fixes (h : g.Bears limit p) : g.Fixes p := ⟨h.submitted, h.transfer, h.last⟩

/-- The requests before the submission do not show in the checks. -/
theorem passed_afterAll (h : g.Fixes p) (check : Check) :
    (Checks.none.afterAll p.requestId g.requests).passed check = true ↔
      ∃ c, .check c ∈ g.since ∧ c.requestId = p.requestId ∧ c.check = check := by
  have hsplit : Checks.none.afterAll p.requestId g.requests =
      Checks.none.afterAll p.requestId g.since := by
    have hforgets (checks : Checks) :
        checks.after p.requestId (.submit g.submission g.arrival) = .none := if_pos h.submitted
    rw [requests, Checks.afterAll, List.foldl_append, List.foldl_cons, hforgets]
    rfl
  have hnone : Checks.none.passed check ≠ true := by
    cases check <;> simp [Checks.none, Checks.passed]
  rw [hsplit, Checks.passed_afterAll h.last]
  exact or_iff_right hnone

end Generation

namespace Payment

/-- Whether the requests that were handled tell which checks of an open payment have passed. -/
def Shown (handled : List Request) (p : Payment) : Prop :=
  p.status.terminal = false → p.checks = Checks.none.afterAll p.requestId handled

variable {limit : UInt64} {handled : List Request} {p q : Payment} {r : Request}

/-- Requests that name another payment do not show. -/
theorem Shown.append (h : p.Shown handled)
    (other : ∀ id, r.requestId? = some id → id ≠ p.requestId) : p.Shown (handled ++ [r]) := by
  intro isOpen
  rw [Checks.afterAll_concat, Checks.after_of_other other]
  exact h isOpen

/-- A submission shows no check, and a result that leaves a payment open shows its own one. -/
theorem Shown.changed (h : p.Shown handled) (change : p.Change limit r q)
    (named : ∀ id, r.requestId? = some id → id = p.requestId) : q.Shown (handled ++ [r]) := by
  intro isOpen
  have hid := change.follows.requestId
  have hstatus := change.status
  rw [Checks.afterAll_concat, hid]
  cases change with
  | @resubmitted s now _ _ next =>
    obtain ⟨-, -, rfl⟩ := regenerate_eq_ok_iff.mp next
    exact (if_pos (named s.requestId rfl)).symm
  | @checked c wasOpen differs =>
    obtain ⟨passed, inTime⟩ := passed_of_open wasOpen isOpen
    have hmark : (Checks.none.afterAll p.requestId handled).after p.requestId (.check c) =
        (Checks.none.afterAll p.requestId handled).mark c.check :=
      if_pos (named c.requestId rfl)
    rw [hmark, ← h wasOpen]
    exact checks_afterCheck_of_passed wasOpen passed inTime
  | late | rejected | unfunded | paid => exact absurd (isOpen.symm.trans hstatus) nofun
  | swept =>
    rw [hstatus] at isOpen
    exact absurd isOpen nofun

/-- A result that changes nothing shows nothing new. -/
theorem Shown.kept (h : p.Shown handled) {c : CheckResult} (named : c.requestId = p.requestId)
    (idle : p.status.terminal = true ∨ p.afterCheck limit c = p) :
    p.Shown (handled ++ [.check c]) := by
  intro isOpen
  rcases idle with final | same
  · exact absurd (isOpen.symm.trans final) nofun
  · obtain ⟨passed, inTime⟩ := passed_of_open isOpen (by rwa [same])
    have hmark := checks_afterCheck_of_passed isOpen passed inTime
    rw [same] at hmark
    rw [Checks.afterAll_concat, ← h isOpen, Checks.after, if_pos named]
    exact hmark

end Payment

/-- Whether the requests that were handled tell which checks of the open payments have passed. -/
def Store.Shown (handled : List Request) (s : Store) : Prop :=
  ∀ id p, s.payments.get? id = some p → p.Shown handled

namespace Store.Shown

variable {limit : UInt64} {handled : List Request} {s t : Store} {r : Request} {q : Payment}

/-- A request for one payment shows in what it has written. -/
theorem written (h : s.Shown handled) (keyed : s.Keyed) (one : ∀ now, r ≠ .sweep now)
    (write : s.Write limit r q t) : t.Shown (handled ++ [r]) := by
  have hnamed (id : String) (hr : r.requestId? = some id) : id = q.requestId := write.named hr
  intro id p hp
  rcases write.stored hp with ⟨-, rfl⟩ | ⟨hq, hs⟩
  · rcases write.begins_or_changes with ⟨-, b, now, rfl, -, rfl, -⟩ | ⟨p, stored, change, -⟩
    · intro _
      rw [Checks.afterAll_concat]
      exact (if_pos rfl).symm
    · refine (h _ _ stored).changed change fun id hr => ?_
      rw [hnamed id hr, keyed _ _ stored]
  · refine (h id p hs).append fun other hr he => hq ?_
    rw [← hnamed other hr, he, keyed id p hs]

/-- A result that changes nothing shows nothing new. -/
theorem kept (h : s.Shown handled) (keyed : s.Keyed) {c : CheckResult} {p : Payment}
    (stored : s.payments.get? c.requestId = some p)
    (idle : p.status.terminal = true ∨ p.afterCheck limit c = p) :
    s.Shown (handled ++ [.check c]) := by
  intro id p' hp
  by_cases hid : c.requestId = id
  · subst hid
    cases stored.symm.trans hp
    exact (h _ _ stored).kept (keyed _ _ stored).symm idle
  · refine (h id p' hp).append fun other hr he => hid ?_
    cases hr
    rw [he, keyed id p' hp]

/-- A sweep does not show in what it leaves open. -/
theorem swept {m after : Moment} {now : Time.Instant} {qs : List Payment}
    (hw : Writes limit (.sweep now) m qs after) (h : m.store.Shown handled) :
    after.store.Shown handled := by
  refine hw.lasts (fun s q t write h id p hp => ?_) h
  obtain ⟨old, stored, rfl | change⟩ := write.kept_or_changed (fun _ _ hr => by cases hr) hp
  · exact h id p stored
  · intro isOpen
    have declined : p.status = .declined := change.status
    rw [declined] at isOpen
    exact absurd isOpen nofun

end Store.Shown

namespace Chronicle

/-- Whether the requests that were handled tell which checks of the open payments have passed. -/
def Shown (c : Chronicle) : Prop := c.store.Keyed ∧ c.store.Shown c.handled

/-- Every step shows. -/
theorem Shown.next {limit : UInt64} {c next : Chronicle} (h : c.Shown) (hn : c.Next limit next) :
    next.Shown := by
  obtain ⟨keyed, shown⟩ := h
  refine ⟨hn.keyed keyed, ?_⟩
  unfold store at keyed shown ⊢
  cases hn with
  | idle moment handled =>
    rw [moment, handled]
    exact shown
  | opened a moment handled =>
    rw [moment, handled, Moment.store_see]
    exact shown
  | served effect handled =>
    rw [handled]
    generalize next.moment = after at effect
    cases effect with
    | kept check stored idle =>
      rw [check]
      exact shown.kept keyed stored idle
    | written one write =>
      rw [Moment.store_written]
      exact shown.written keyed one write
    | swept sweep writes =>
      subst sweep
      refine Store.Shown.swept writes fun id p hp => ?_
      exact (shown id p hp).append fun _ => nofun

/-- Start from a store without payments and obey any commands, while any call of the store may fail.
The last submission of an open payment has fixed its parties and its amount. A check has passed
exactly when a result of it was handled since then, which did not speak against the payment, and the
payment waits exactly when there is one of every check. So as long as no result from before the
submission is handled once more, every check that has passed has passed by a result that came first
since then. -/
theorem vouched_since_submission (settings : Settings) (accounts : Table Account)
    (lastId : UInt64) (plan : List (Option Fault)) (outbox : Outbox) (running : Bool)
    (commands : List Command) :
    let start : Engine Watched :=
      ⟨settings, .ofStore ⟨.empty, accounts, lastId⟩ plan, outbox, running⟩
    let c := (ofEngine start).follow commands
    ∀ p ∈ c.store.payments.values, p.status.terminal = false →
      ∃ g : Generation, c.handled = g.requests ∧ g.Fixes p ∧
        (∀ check, p.checks.passed check = true ↔
          ∃ r, g.Vouches settings.timeLimit p r ∧ r.check = check) ∧
        (p.status = .waiting ↔ ∀ check, ∃ r, g.Vouches settings.timeLimit p r ∧ r.check = check) ∧
        ((∀ r, r.requestId = p.requestId → .check r ∈ g.since → .check r ∉ g.before) →
          ∀ check, p.checks.passed check = true →
            ∃ r, g.Vouches settings.timeLimit p r ∧ r.check = check ∧ .check r ∉ g.before) := by
  intro start c p hp isOpen
  have hkeyed : (ofEngine start).store.Keyed := fun _ _ => nofun
  have htold : c.Told settings.timeLimit := by
    refine holds_follow rfl hkeyed ⟨hkeyed, ?_, fun _ _ => nofun⟩ Told.next commands
    exact fun _ _ r hr => absurd hr List.not_mem_nil
  have hstart : (ofEngine start).Shown := ⟨hkeyed, fun _ _ => nofun⟩
  have hshown : c.Shown := holds_follow rfl hkeyed hstart Shown.next commands
  have hwellFormed : c.store.WellFormed settings.timeLimit :=
    wellFormed_follow (c := ofEngine start)
      (Store.wellFormed_of_no_payments settings.timeLimit accounts lastId) commands
  obtain ⟨id, hid⟩ := Table.mem_values_iff.mp hp
  obtain ⟨g, hg, bears⟩ := (htold.2.stored id p hid).bears isOpen
  have hpassed (check : Check) : p.checks.passed check = true ↔
      ∃ r, g.Vouches settings.timeLimit p r ∧ r.check = check := by
    rw [hshown.2 id p hid isOpen, hg, Generation.passed_afterAll bears.fixes]
    constructor
    · rintro ⟨r, handled, named, rfl⟩
      obtain ⟨passed, inTime⟩ := bears.sound r handled named
      exact ⟨r, ⟨handled, named, not_or.mpr ⟨Bool.eq_false_iff.mp passed, inTime⟩⟩, rfl⟩
    · rintro ⟨r, vouches, rfl⟩
      exact ⟨r, vouches.handled, vouches.named, rfl⟩
  have hwaiting : p.status = .waiting ↔
      ∀ check, ∃ r, g.Vouches settings.timeLimit p r ∧ r.check = check := by
    have hrecord := hwellFormed.records p hp
    simp only [← hpassed, ← Checks.complete_iff]
    constructor
    · intro waits
      have hagrees := hrecord.agrees
      rw [waits] at hagrees
      exact hagrees.complete
    · exact hrecord.waits isOpen
  refine ⟨g, hg, bears.fixes, hpassed, hwaiting, fun fresh check passed => ?_⟩
  obtain ⟨r, vouches, rfl⟩ := (hpassed check).mp passed
  exact ⟨r, vouches, rfl, fresh r vouches.named vouches.handled⟩

/-- The tenant is to pay more than the rent was at first. -/
def dearRent : Submission :=
  { Sample.rent with amount := ⟨⟨9, 0, Sample.nine_lt, Decimal.zero.scale_le⟩, by decide⟩ }

/-- What an engine without payments has done once it was told to obey requests. -/
def rentChronicle (rs : List Request) : Chronicle :=
  (ofEngine ⟨.default, .ofStore ⟨.empty, Sample.accounts, 0⟩ [], Sample.outbox, true⟩).follow
    (rs.map .request)

/-- The sanction check of the rent passes, the rent is raised and its other check passes. -/
def raisedRent : List Request :=
  [.submit Sample.rent .epoch, Sample.passed .sanction, .submit dearRent .epoch,
    Sample.passed .auth]

/-- The record of the raised rent then. -/
def raisedRecord : Payment :=
  ((((Payment.begun Sample.rent .epoch).numbered 1).succ.renewed dearRent).succ.afterCheck
    Settings.default.timeLimit ⟨"rent", .epoch, .auth, false, none⟩).succ

/-- Only the result that came since vouches for the raised rent. -/
theorem raised_rent_vouched :
    raisedRecord ∈ (rentChronicle raisedRent).store.payments.values ∧
      raisedRecord.status.terminal = false ∧
      ∃ g : Generation, (rentChronicle raisedRent).handled = g.requests ∧ g.Fixes raisedRecord ∧
        (∃ r, g.Vouches Settings.default.timeLimit raisedRecord r ∧ r.check = .auth) ∧
        ¬ ∃ r, g.Vouches Settings.default.timeLimit raisedRecord r ∧ r.check = .sanction := by
  have stored : raisedRecord ∈ (rentChronicle raisedRent).store.payments.values := by
    decide +kernel
  have isOpen : raisedRecord.status.terminal = false := by decide +kernel
  obtain ⟨g, hg, fixes, passed, -, -⟩ := vouched_since_submission .default Sample.accounts 0 []
    Sample.outbox true (raisedRent.map .request) raisedRecord stored isOpen
  refine ⟨stored, isOpen, g, hg, fixes, (passed .auth).mp (by decide +kernel), fun vouched => ?_⟩
  exact absurd ((passed .sanction).mpr vouched) (by decide +kernel)

/-- The checks of the rent pass, the rent is raised and the same results are handled once more. -/
def staleRent : Generation := ⟨Sample.checked, dearRent, .epoch, Check.all.map Sample.passed⟩

/-- The raised rent waits for its confirmation, though every result that was handled since it was
raised had been handled before. -/
theorem stale_results_vouch :
    let c := rentChronicle staleRent.requests
    c.handled = staleRent.requests ∧ (∀ r ∈ staleRent.since, r ∈ staleRent.before) ∧
      ∃ p ∈ c.store.payments.values, p.status = .waiting ∧ p.amount = dearRent.amount := by
  decide +kernel

end Chronicle

end Clearing
