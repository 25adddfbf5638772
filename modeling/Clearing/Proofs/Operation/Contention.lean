import Clearing.Proofs.Store.Exchange

/-!
# One write each

An operation on one payment among other writers ends in one of four ways: it fails without a write,
it returns the record that it read, it is overtaken by another writer and returns the record that it
read again, or its one write is carried out and announced.
-/

namespace Clearing

open Clearing.Time

namespace Payment

/-- Whether a record shows the result of a check: it is final, or the check has passed and is
marked. -/
def Heeds (p : Payment) (c : CheckResult) : Prop :=
  p.status.terminal = true ∨ c.failed = false ∧ p.checks.passed c.check = true

/-- A record that a result was applied to shows it. -/
theorem heeds_afterCheck (p : Payment) (limit : UInt64) (c : CheckResult)
    (isOpen : p.status.terminal = false) : (p.afterCheck limit c).Heeds c := by
  by_cases refused : c.failed = true ∨ p.expired limit c.occurredAt
  · refine .inl ?_
    rw [(afterCheck_of_refused isOpen refused).status]
    rfl
  · rw [not_or, Bool.not_eq_true] at refused
    refine .inr ⟨refused.1, ?_⟩
    rw [checks_afterCheck_of_passed isOpen refused.1 refused.2, Checks.passed_mark,
      beq_self_eq_true, Bool.or_true]

end Payment

/-- What an operation has done so far. -/
structure Log where
  /-- The calls and their answers, newest first. -/
  past : List Exchange
  /-- The notices in the order in which they were sent. -/
  sent : List Notice

namespace Log

/-- Nothing has been done yet. -/
def empty : Log := ⟨[], []⟩

/-- Note an exchange. -/
def note (l : Log) (e : Exchange) : Log := { l with past := e :: l.past }

/-- What was done after something else. -/
def after (l base : Log) : Log := ⟨l.past ++ base.past, base.sent ++ l.sent⟩

/-- Whether no write was tried and no notice sent. -/
structure Fresh (l : Log) : Prop where
  plain : ∀ e ∈ l.past, e.Plain
  unsent : l.sent = []

/-- Whether nothing was written and no notice sent, and only writes of one payment were refused. -/
structure Idle (id : String) (l : Log) : Prop where
  unstored : ∀ e ∈ l.past, e.stored? = none
  unsent : l.sent = []
  refused : ∀ e ∈ l.past, ∀ q, e.refused? = some q → q.requestId = id

/-- Whether one record of a payment was written by the last call, and all notices are about it. -/
structure Wrote (id : String) (q : Payment) (l : Log) : Prop where
  newest : ∃ e before, l.past = e :: before ∧ e.stored? = some q ∧ ∀ e' ∈ before, e'.Plain
  named : q.requestId = id
  told : ∀ n ∈ l.sent, n.requestId = id

/-- Whether a record was written, if there is one, and otherwise nothing was done. -/
def Leaves (id : String) (l : Log) : Option Payment → Prop
  | some q => l.Wrote id q
  | none => l.Idle id

variable {l : Log} {id : String} {e : Exchange} {q : Payment}

theorem fresh_empty : Fresh empty := ⟨fun _ he => absurd he List.not_mem_nil, rfl⟩

theorem Fresh.note (h : l.Fresh) (he : e.Plain) : (l.note e).Fresh := by
  refine ⟨fun e' hm => ?_, h.unsent⟩
  rcases List.mem_cons.mp hm with rfl | hm
  · exact he
  · exact h.plain e' hm

theorem Fresh.idle (h : l.Fresh) (id : String) : l.Idle id := by
  refine ⟨fun e he => (h.plain e he).unstored, h.unsent, fun e he q hq => ?_⟩
  exact absurd hq ((h.plain e he).refused_ne q)

theorem Idle.note (h : l.Idle id) (unstored : e.stored? = none)
    (refused : ∀ q, e.refused? = some q → q.requestId = id) : (l.note e).Idle id := by
  refine ⟨fun e' hm => ?_, h.unsent, fun e' hm => ?_⟩
  · rcases List.mem_cons.mp hm with rfl | hm
    · exact unstored
    · exact h.unstored e' hm
  · rcases List.mem_cons.mp hm with rfl | hm
    · exact refused
    · exact h.refused e' hm

/-- An operation that is refused has done nothing. -/
theorem Fresh.refused (h : l.Fresh) (refused : e.refused? = some q) (named : q.requestId = id) :
    (l.note e).Idle id := by
  refine (h.idle id).note (Exchange.unstored_of_refused refused) fun q' hq' => ?_
  rw [refused] at hq'
  cases hq'
  exact named

theorem Fresh.wrote (h : l.Fresh) (stored : e.stored? = some q) (named : q.requestId = id) :
    (l.note e).Wrote id q := by
  refine ⟨⟨e, l.past, rfl, stored, h.plain⟩, named, fun n hn => ?_⟩
  rw [Log.note, h.unsent] at hn
  exact absurd hn List.not_mem_nil

/-- What was written may be announced. -/
theorem Wrote.tell (h : l.Wrote id q) {notices : List Notice}
    (told : ∀ n ∈ notices, n.requestId = id) : Wrote id q { l with sent := l.sent ++ notices } := by
  refine ⟨h.newest, h.named, fun n hn => ?_⟩
  rcases List.mem_append.mp hn with hn | hn
  · exact h.told n hn
  · exact told n hn

end Log

/-- The world of an operation that shares a store with other writers: a call can be answered in any
way in which a store with every record under its own name answers, or fail. -/
def observed : World Log where
  allows _ _ := True
  answers l c answer after := (Exchange.mk c answer).Keyed ∧ after = l.note ⟨c, answer⟩
  hears l notice := { l with sent := l.sent ++ [notice] }

/-- What a program does depends on the answers alone and not on what was done before. -/
theorem Program.ensures_observed_after {α : Type} {post : α → Log → Prop} (p : Program α)
    (l base : Log) :
    p.Ensures observed post (l.after base) ↔
      p.Ensures observed (fun a final => post a (final.after base)) l := by
  induction p generalizing l with
  | done a => exact Iff.rfl
  | call c next ih =>
    refine and_congr_right fun _ => ⟨fun h answer final hf => ?_, fun h answer final hf => ?_⟩
    · obtain ⟨keyed, rfl⟩ := hf
      exact (ih answer _).mp (h answer _ ⟨keyed, rfl⟩)
    · obtain ⟨keyed, rfl⟩ := hf
      exact (ih answer (l.note ⟨c, answer⟩)).mpr (h answer _ ⟨keyed, rfl⟩)
  | send notice next ih =>
    have hs := ih ⟨l.past, l.sent ++ [notice]⟩
    rw [Log.after, ← List.append_assoc] at hs
    exact hs

/-- A program can always come to an end, and what it has done till then is not undone. -/
theorem Program.Ensures.ends {α : Type} {post : α → Log → Prop} {p : Program α} {l : Log}
    (h : p.Ensures observed post l) :
    ∃ a final, post a final ∧ (∃ newer, final.past = newer ++ l.past) ∧
      ∃ later, final.sent = l.sent ++ later := by
  induction p generalizing l with
  | done a => exact ⟨a, l, h, ⟨[], rfl⟩, [], (List.append_nil _).symm⟩
  | call c next ih =>
    have hfails := h.2 (.error (.internal .workerStopped)) _ ⟨Exchange.keyed_error _ _, rfl⟩
    obtain ⟨a, final, hpost, ⟨newer, hpast⟩, hsent⟩ := ih _ hfails
    exact ⟨a, final, hpost, ⟨newer ++ [_], by rw [hpast, List.append_assoc]; rfl⟩, hsent⟩
  | send notice next ih =>
    obtain ⟨a, final, hpost, hpast, later, hsent⟩ := ih h
    exact ⟨a, final, hpost, hpast, notice :: later, hsent.trans (List.append_assoc _ _ _)⟩

/-- How an operation on one payment ends, by its result. -/
inductive Attempt (id : String) (good : Payment → Prop) : Except Fault Payment → Log → Prop
  | failed {l : Log} (fault : Fault) (idle : l.Idle id) : Attempt id good (.error fault) l
  | kept {l : Log} {p : Payment} (fresh : l.Fresh) (holds : good p) :
      Attempt id good (.ok p) (l.note ⟨.get id, .ok (some p)⟩)
  | overtaken {l : Log} {e : Exchange} {p q : Payment} {version : UInt64} (fresh : l.Fresh)
      (replaces : e.call.replaces? = some (q, version)) (refused : e.refused? = some q)
      (named : q.requestId = id) (same : p.requestId = id) :
      Attempt id good (.ok p) ((l.note e).note ⟨.get id, .ok (some p)⟩)
  | written {l : Log} {q : Payment} (wrote : l.Wrote id q) (holds : good q) :
      Attempt id good (.ok q) l

/-- How the write of a changed payment ends, before it is announced. -/
inductive Contested (id : String) (good : Payment → Prop) :
    Except Fault Operation.Committed → Log → Prop
  | failed {l : Log} (fault : Fault) (idle : l.Idle id) : Contested id good (.error fault) l
  | discarded {l : Log} {e : Exchange} {p q : Payment} {version : UInt64} (fresh : l.Fresh)
      (replaces : e.call.replaces? = some (q, version)) (refused : e.refused? = some q)
      (named : q.requestId = id) (same : p.requestId = id) :
      Contested id good (.ok (.discarded p)) ((l.note e).note ⟨.get id, .ok (some p)⟩)
  | applied {l : Log} {q : Payment} (wrote : l.Wrote id q) (holds : good q) :
      Contested id good (.ok (.applied q)) l

namespace Operation

variable {α β : Type} {limit : UInt64} {l : Log} {id : String} {good : Payment → Prop}

/-- A call can get any answer that a store with every record under its own name gives. -/
theorem ensures_ask_observed {c : Call} {post : Except Fault c.Answer → Log → Prop} :
    (ask c).Ensures observed post l ↔
      ∀ answer, (Exchange.mk c answer).Keyed → post answer (l.note ⟨c, answer⟩) := by
  rw [ensures_ask]
  refine ⟨fun h answer keyed => h.2 answer _ ⟨keyed, rfl⟩, fun h => ⟨trivial, ?_⟩⟩
  rintro answer after ⟨keyed, rfl⟩
  exact h answer keyed

/-- Reading a payment leaves a log without writes. -/
theorem fresh_get (id : String) (fresh : l.Fresh) (answer : Except Fault (Option Payment)) :
    (l.note ⟨.get id, answer⟩).Fresh := fresh.note ⟨rfl, rfl⟩

theorem fresh_getAccount (fresh : l.Fresh) {name : AccountId}
    (answer : Except Fault (Option Account)) : (l.note ⟨.getAccount name, answer⟩).Fresh :=
  fresh.note ⟨rfl, rfl⟩

/-- A payment is read under its own name, or the operation fails. -/
theorem ensures_load_observed {post : Except Fault Payment → Log → Prop}
    (failed : ∀ fault answer, post (.error fault) (l.note ⟨.get id, answer⟩))
    (found : ∀ p, p.requestId = id → post (.ok p) (l.note ⟨.get id, .ok (some p)⟩)) :
    (load id).Ensures observed post l := by
  rw [load, ensures_bind]
  refine ensures_ask_observed.mpr fun answer keyed => ?_
  rcases answer with fault | _ | p
  · exact failed _ _
  · exact failed _ _
  · exact found p keyed

/-- After a refused write the record that won is read. -/
theorem ensures_reload_observed (fresh : l.Fresh) {e : Exchange} {q : Payment} {version : UInt64}
    (replaces : e.call.replaces? = some (q, version)) (refused : e.refused? = some q)
    (named : q.requestId = id) :
    (do return .discarded (← load id) : Operation Committed).Ensures observed
      (Contested id good) (l.note e) := by
  rw [ensures_bind]
  refine ensures_load_observed (fun fault answer => ?_) fun p hp => ?_
  · exact .failed fault ((fresh.refused refused named).note rfl fun _ => nofun)
  · exact .discarded fresh replaces refused named hp

/-- A changed payment is written once or not at all. -/
theorem ensures_commit_observed {q : Payment} (fresh : l.Fresh) (named : q.requestId = id)
    (holds : good q.succ) : (commit q).Ensures observed (Contested id good) l := by
  rw [commit, ensures_bind]
  refine ensures_ask_observed.mpr fun answer _ => ?_
  rcases answer with fault | _ | _
  · exact .failed fault ((fresh.idle id).note rfl fun _ hq => by cases hq)
  · exact .applied (fresh.wrote rfl named) holds
  · rw [← named]
    exact ensures_reload_observed fresh rfl rfl rfl

/-- An operation that goes on to announce what it has written is an attempt. -/
theorem ensures_attempt {op : Operation Committed} {f : Committed → Operation Payment}
    (h : op.Ensures observed (Contested id good) l)
    (discarded : ∀ p final, Attempt id good (.ok p) final →
      (f (.discarded p)).Ensures observed (Attempt id good) final)
    (applied : ∀ q final, final.Wrote id q → good q →
      (f (.applied q)).Ensures observed (Attempt id good) final) :
    (op >>= f : Operation Payment).Ensures observed (Attempt id good) l := by
  rw [ensures_bind]
  refine h.mono ?_
  rintro result final (⟨fault, idle⟩ | ⟨fresh, replaces, refused, named, same⟩ | ⟨wrote, holds⟩)
  · exact .failed fault idle
  · exact discarded _ _ (.overtaken fresh replaces refused named same)
  · exact applied _ _ wrote holds

/-- What is sent when a payment begins to wait or waits no longer is about that payment. -/
theorem ensures_announceWaiting_observed {before : Status} {q : Payment} {now : Instant}
    {post : Except Fault Unit → Log → Prop}
    (sent : ∀ notices, (∀ n ∈ notices, n.requestId = q.requestId) →
      post (.ok ()) { l with sent := l.sent ++ notices }) :
    (announceWaiting before q limit now).Ensures observed post l := by
  have hnone : post (.ok ()) l := by
    have h := sent [] fun _ hn => absurd hn List.not_mem_nil
    rwa [List.append_nil] at h
  have hone (n : Notice) (hn : n.requestId = q.requestId) :
      post (.ok ()) { l with sent := l.sent ++ [n] } :=
    sent [n] fun _ hm => List.mem_singleton.mp hm ▸ hn
  unfold announceWaiting
  split
  · split
    · exact hnone
    · exact hone _ rfl
  · split
    · exact hone _ rfl
    · exact hnone

/-- The result of a check is an attempt, and a record that it keeps or writes heeds it. -/
theorem ensures_applyCheck_observed (c : CheckResult) :
    (applyCheck limit c).Ensures observed (Attempt c.requestId (·.Heeds c)) .empty := by
  rw [applyCheck, ensures_bind]
  refine ensures_load_observed (fun fault answer => ?_) fun p hp => ?_
  · exact .failed fault ((fresh_get _ Log.fresh_empty answer).idle _)
  · rw [rest_ok]
    split
    · next final => exact .kept Log.fresh_empty (.inl final)
    · next isOpen =>
      rw [Bool.not_eq_true] at isOpen
      have heeds := p.heeds_afterCheck limit c isOpen
      dsimp only
      split
      · next same =>
        rw [same] at heeds
        exact .kept Log.fresh_empty heeds
      · have hid : (p.afterCheck limit c).requestId = c.requestId :=
          (p.keeps_afterCheck limit c).requestId.trans hp
        refine ensures_attempt (ensures_commit_observed (fresh_get _ Log.fresh_empty _) hid heeds)
          (fun _ _ attempt => attempt) fun q final wrote holds => ?_
        rw [ensures_bind, ensures_notify, rest_ok, ensures_bind]
        refine ensures_announceWaiting_observed fun notices told => .written ?_ holds
        have houtcome : Log.Wrote _ q { final with sent := final.sent ++ [.outcome q.view] } :=
          wrote.tell fun n hn => List.mem_singleton.mp hn ▸ wrote.named
        exact houtcome.tell fun n hn => (told n hn).trans wrote.named

/-- A final record that was written is announced. -/
theorem ensures_announceFinal_observed {q : Payment} {post : Except Fault Unit → Log → Prop}
    (wrote : l.Wrote id q) (announced : ∀ final, final.Wrote id q → post (.ok ()) final) :
    (announceFinal q).Ensures observed post l := by
  rw [announceFinal, ensures_bind, ensures_notify, rest_ok, ensures_notify]
  have houtcome : Log.Wrote id q { l with sent := l.sent ++ [.outcome q.view] } :=
    wrote.tell fun n hn => List.mem_singleton.mp hn ▸ wrote.named
  exact announced _ (houtcome.tell fun n hn => List.mem_singleton.mp hn ▸ wrote.named)

/-- A payment that cannot be paid is finished by one write. -/
theorem ensures_finishUnfunded_observed {p : Payment} {now : Instant} (fresh : l.Fresh)
    (named : p.requestId = id) (waits : p.status = .waiting) :
    (finishUnfunded p now).Ensures observed (Contested id (·.status.terminal = true)) l := by
  refine ensures_commit_observed fresh ((p.keeps_advanced _ _ _).requestId.trans named) ?_
  rw [Payment.advanced_of_next (by rw [waits]; rfl)]
  rfl

/-- A payment that can be paid is finished by one write, together with the transfer or without. -/
theorem ensures_finishFunded_observed {p : Payment} {now : Instant} (fresh : l.Fresh)
    (named : p.requestId = id) (waits : p.status = .waiting) :
    (finishFunded p now).Ensures observed (Contested id (·.status.terminal = true)) l := by
  have hid : (p.advanced (.confirmed true) now (some Payment.completedMessage)).succ.requestId =
      id := (p.keeps_advanced _ _ _).requestId.trans named
  have hfinal : (p.advanced (.confirmed true) now
      (some Payment.completedMessage)).succ.status.terminal = true := by
    rw [Payment.advanced_of_next (by rw [waits]; rfl)]
    rfl
  rw [finishFunded, ensures_bind]
  refine ensures_ask_observed.mpr fun answer _ => ?_
  rcases answer with fault | _ | _ | _
  · exact .failed fault ((fresh.idle id).note rfl fun _ hq => by cases hq)
  · exact .applied (fresh.wrote rfl hid) hfinal
  · exact ensures_finishUnfunded_observed (fresh.note ⟨rfl, rfl⟩) named waits
  · rw [rest_ok]
    subst named
    exact ensures_reload_observed fresh rfl rfl hid

/-- A payment that waits is finished by one write. -/
theorem ensures_conclude_observed {p : Payment} {d : Decision} {now : Instant} (fresh : l.Fresh)
    (named : p.requestId = id) (waits : p.status = .waiting) :
    (conclude limit d p now).Ensures observed (Contested id (·.status.terminal = true)) l := by
  have hdeclined (e : Status.Event) (message : String) (h : p.status.next e = some .declined) :
      (commit (p.advanced e now (some message))).Ensures observed
        (Contested id (·.status.terminal = true)) l := by
    refine ensures_commit_observed fresh ((p.keeps_advanced _ _ _).requestId.trans named) ?_
    rw [Payment.advanced_of_next h]
    rfl
  unfold conclude
  split
  · exact hdeclined _ _ (by rw [waits]; rfl)
  · split
    · rw [pay, ensures_bind, loadAccount, ensures_bind]
      refine ensures_ask_observed.mpr fun answer _ => ?_
      rcases answer with fault | _ | a
      · exact .failed fault ((fresh_getAccount fresh _).idle id)
      · exact .failed _ ((fresh_getAccount fresh _).idle id)
      · change (ite _ _ _ : Operation Committed).Ensures _ _ _
        split
        · exact ensures_finishFunded_observed (fresh_getAccount fresh _) named waits
        · exact ensures_finishUnfunded_observed (fresh_getAccount fresh _) named waits
    · exact hdeclined _ _ (by rw [waits]; rfl)

/-- A decision is an attempt to finish the payment. -/
theorem ensures_settle_observed (d : Decision) (now : Instant) :
    (settle limit d now).Ensures observed
      (Attempt d.requestId (·.status.terminal = true)) .empty := by
  rw [settle, ensures_bind]
  refine ensures_load_observed (fun fault answer => ?_) fun p hp => ?_
  · exact .failed fault ((fresh_get _ Log.fresh_empty answer).idle _)
  · rw [rest_ok]
    have hfresh := fresh_get d.requestId Log.fresh_empty (.ok (some p))
    split
    · exact .failed _ (hfresh.idle _)
    · next hready =>
      simp only [not_or, ne_eq, Decidable.not_not] at hready
      refine ensures_attempt (ensures_conclude_observed hfresh hp hready.1)
        (fun _ _ attempt => attempt) fun q final wrote holds => ?_
      rw [ensures_bind]
      exact ensures_announceFinal_observed wrote fun _ announced => .written announced holds

/-- A payment is begun by one write. -/
theorem ensures_begin_observed {b : Submission} {now : Instant} (fresh : l.Fresh) :
    (begin b now).Ensures observed
      (fun result final => final.Leaves b.requestId result.toOption) l := by
  rw [begin, ensures_bind, ensures_ofExcept]
  cases hb : Payment.ofSubmission b now with
  | error fault => exact fresh.idle _
  | ok p =>
    obtain ⟨-, rfl⟩ := Payment.ofSubmission_eq_ok_iff.mp hb
    refine ensures_ask_observed.mpr fun answer keyed => ?_
    cases answer with
    | ok q => exact fresh.wrote rfl keyed
    | error fault =>
      refine (fresh.idle _).note (Exchange.stored?_error _ _) fun q hq => ?_
      cases fault with
      | conflict => cases hq; rfl
      | refused | misstep | unknownPayment | unknownAccount | internal | overflow => cases hq

/-- A new generation of a payment is begun by one write. -/
theorem ensures_resubmit_observed {p : Payment} {b : Submission} (fresh : l.Fresh)
    (named : p.requestId = b.requestId) :
    (resubmit p b).Ensures observed
      (fun result final => final.Leaves b.requestId result.toOption) l := by
  unfold resubmit
  split
  · exact fresh.idle _
  · rw [ensures_bind, ensures_ofExcept]
    cases hq : p.regenerate b with
    | error fault => exact fresh.idle _
    | ok q =>
      obtain ⟨-, -, rfl⟩ := Payment.regenerate_eq_ok_iff.mp hq
      rw [rest_ok, ensures_bind]
      have hcommit : (commit (p.renewed b)).Ensures observed
          (Contested b.requestId fun _ => True) l := ensures_commit_observed fresh named trivial
      refine hcommit.mono ?_
      rintro result final (⟨fault, idle⟩ | ⟨fresh, -, refused, hid, -⟩ | ⟨wrote, -⟩)
      · exact idle
      · exact (fresh.refused refused hid).note rfl fun _ => nofun
      · rw [rest_ok]
        dsimp only
        split
        · exact wrote.tell fun n hn => List.mem_singleton.mp hn ▸ wrote.named
        · exact wrote

/-- Looking for an account leaves a log without writes. -/
theorem ensures_demandAccount_observed {name : AccountId} {post : Except Fault Unit → Log → Prop}
    (fresh : l.Fresh) (failed : ∀ fault final, final.Fresh → post (.error fault) final)
    (found : ∀ final, final.Fresh → post (.ok ()) final) :
    (demandAccount name).Ensures observed post l := by
  rw [demandAccount, ensures_bind]
  refine ensures_ask_observed.mpr fun answer _ => ?_
  rcases answer with fault | _ | a
  · exact failed _ _ (fresh_getAccount fresh _)
  · exact failed _ _ (fresh_getAccount fresh _)
  · exact found _ (fresh_getAccount fresh _)

/-- A submission is an attempt to begin the payment or a new generation of it. -/
theorem ensures_submit_observed (b : Submission) (now : Instant) :
    (submit b now).Ensures observed (Attempt b.requestId fun _ => True) .empty := by
  have hfailed (fault : Fault) (final : Log) (fresh : final.Fresh) :
      Attempt b.requestId (fun _ => True) (.error fault) final := .failed fault (fresh.idle _)
  have hannounce {op : Operation Payment} {l : Log} (h : op.Ensures observed
      (fun result final => final.Leaves b.requestId result.toOption) l) :
      (do let p ← op; notify (.outcome p.view); return p : Operation Payment).Ensures observed
        (Attempt b.requestId fun _ => True) l := by
    rw [ensures_bind]
    refine h.mono fun result final leaves => ?_
    cases result with
    | error fault => exact .failed fault leaves
    | ok q =>
      have wrote : final.Wrote b.requestId q := leaves
      exact .written (wrote.tell fun n hn => List.mem_singleton.mp hn ▸ wrote.named) trivial
  rw [submit, ensures_bind, ensures_ofExcept]
  cases b.validate with
  | error fault => exact hfailed _ _ Log.fresh_empty
  | ok _ =>
    rw [rest_ok, ensures_bind]
    refine ensures_demandAccount_observed Log.fresh_empty hfailed fun l fresh => ?_
    rw [rest_ok, ensures_bind]
    refine ensures_demandAccount_observed fresh hfailed fun l fresh => ?_
    rw [rest_ok, ensures_bind]
    refine ensures_ask_observed.mpr fun answer keyed => ?_
    have hfresh := fresh_get b.requestId fresh answer
    rcases answer with fault | _ | p
    · exact hfailed _ _ hfresh
    · exact hannounce (ensures_begin_observed hfresh)
    · exact hannounce (ensures_resubmit_observed hfresh keyed)

/-- A sweep declines a payment by one write or does nothing. -/
theorem ensures_expire_observed (now : Instant) (id : String) :
    (expire limit now id).Ensures observed
      (fun result final => final.Leaves id result.toOption.join) .empty := by
  rw [expire, ensures_bind]
  refine ensures_load_observed (fun fault answer => ?_) fun p hp => ?_
  · exact (fresh_get _ Log.fresh_empty answer).idle id
  · rw [rest_ok]
    have hfresh := fresh_get id Log.fresh_empty (.ok (some p))
    split
    · split
      · exact hfresh.idle id
      · next q hq =>
        rw [ensures_bind]
        have hid : q.requestId = id := (Payment.keeps_of_advance hq).requestId.trans hp
        have hcommit : (commit q).Ensures observed (Contested id fun _ => True)
            (Log.empty.note ⟨.get id, .ok (some p)⟩) := ensures_commit_observed hfresh hid trivial
        refine hcommit.mono ?_
        rintro result final (⟨fault, idle⟩ | ⟨fresh, -, refused, hid, -⟩ | ⟨wrote, -⟩)
        · exact idle
        · exact (fresh.refused refused hid).note rfl fun _ => nofun
        · rw [rest_ok, ensures_bind]
          exact ensures_announceFinal_observed wrote fun _ announced => announced
    · exact hfresh.idle id

end Operation

end Clearing
