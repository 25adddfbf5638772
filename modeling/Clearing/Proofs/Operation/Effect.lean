import Clearing.Proofs.Program.Alone
import Clearing.Proofs.Store.Write

/-!
# The effect of operations that run alone

What each operation does when no other writer is near and any of its calls may fail. An operation
that ends with a fault has changed nothing and sent nothing. Otherwise it has written one record and
announced it, or it was a result of a check that leaves the record as it is. A sweep declines
payments one by one. Every later fact about a run is read off these effects.
-/

namespace Clearing

open Clearing.Time

/-- The moment after a request has written and announced a record. -/
def Moment.written (m : Moment) (limit : UInt64) (r : Request) (q : Payment) (t : Store) : Moment :=
  (m.see t).send (m.store.announcements limit r q)

/-- The effect of an operation on one payment, by its result. -/
inductive Effect (limit : UInt64) (m : Moment) (r : Request) : Except Fault Payment → Moment → Prop
  | failed (fault : Fault) : Effect limit m r (.error fault) m
  | kept {c : CheckResult} {p : Payment} (check : r = .check c)
      (stored : m.store.payments.get? c.requestId = some p)
      (idle : p.status.terminal = true ∨ p.afterCheck limit c = p) : Effect limit m r (.ok p) m
  | written {q : Payment} {t : Store} (write : m.store.Write limit r q t) :
      Effect limit m r (.ok q) (m.written limit r q t)

/-- The effect of finishing a payment, before it is announced. -/
inductive Finished (limit : UInt64) (m : Moment) (r : Request) :
    Except Fault Operation.Committed → Moment → Prop
  | failed (fault : Fault) : Finished limit m r (.error fault) m
  | applied {q : Payment} {t : Store} (write : m.store.Write limit r q t) :
      Finished limit m r (.ok (.applied q)) (m.see t)

/-- The effect of a sweep on one of the payments that it looks at. -/
inductive Expired (limit : UInt64) (m : Moment) (now : Instant) :
    Except Fault (Option Payment) → Moment → Prop
  | failed (fault : Fault) : Expired limit m now (.error fault) m
  | kept : Expired limit m now (.ok none) m
  | declined {q : Payment} {t : Store} (write : m.store.Write limit (.sweep now) q t) :
      Expired limit m now (.ok (some q)) (m.written limit (.sweep now) q t)

/-- Records that one request writes and announces, one after the other. -/
inductive Writes (limit : UInt64) (r : Request) : Moment → List Payment → Moment → Prop
  | none (m : Moment) : Writes limit r m [] m
  | more {m after : Moment} {q : Payment} {t : Store} {qs : List Payment}
      (write : m.store.Write limit r q t) (rest : Writes limit r (m.written limit r q t) qs after) :
      Writes limit r m (q :: qs) after

/-- The effect of a request, by its result. -/
inductive Served (limit : UInt64) (m : Moment) (r : Request) :
    Except Fault (List Payment) → Moment → Prop
  | failed (fault : Fault) : Served limit m r (.error fault) m
  | kept {c : CheckResult} {p : Payment} (check : r = .check c)
      (stored : m.store.payments.get? c.requestId = some p)
      (idle : p.status.terminal = true ∨ p.afterCheck limit c = p) : Served limit m r (.ok [p]) m
  | written {q : Payment} {t : Store} (one : ∀ now, r ≠ .sweep now)
      (write : m.store.Write limit r q t) : Served limit m r (.ok [q]) (m.written limit r q t)
  | swept {now : Instant} {qs : List Payment} {after : Moment} (sweep : r = .sweep now)
      (writes : Writes limit r m qs after) : Served limit m r (.ok qs) after

variable {limit : UInt64} {m after : Moment} {r : Request}

@[simp] theorem Moment.store_written (m : Moment) (limit : UInt64) (r : Request) (q : Payment)
    (t : Store) : (m.written limit r q t).store = t := by simp [written]

/-- A request that ends with a fault has done nothing. -/
theorem Served.of_error {fault : Fault} (h : Served limit m r (.error fault) after) :
    after = m := by
  cases h
  rfl

/-- Whatever a request does is a sequence of writes. -/
theorem Served.writes {result : Except Fault (List Payment)} (h : Served limit m r result after) :
    ∃ qs, Writes limit r m qs after := by
  cases h with
  | failed | kept => exact ⟨[], .none m⟩
  | written _ write => exact ⟨_, .more write (.none _)⟩
  | swept _ writes => exact ⟨_, writes⟩

/-- What no write of a request takes away outlives all that it writes. -/
theorem Writes.lasts {keeps : Store → Prop} {qs : List Payment} (hw : Writes limit r m qs after)
    (write : ∀ s q t, s.Write limit r q t → keeps s → keeps t) (h : keeps m.store) :
    keeps after.store := by
  induction hw with
  | none => exact h
  | more hfirst _ ih =>
    rw [Moment.store_written] at ih
    exact ih (write _ _ _ hfirst h)

/-- Writes store every record under its own name. -/
theorem Writes.keyed {qs : List Payment} (h : Writes limit r m qs after) (keyed : m.store.Keyed) :
    after.store.Keyed := h.lasts (fun _ _ _ write keyed => write.keyed keyed) keyed

namespace Operation

section Steps

variable {m : Moment}

/-- A call that only looks fails or is answered, and leaves the store as it is. -/
theorem ensures_look_alone {β : Type} {c : Call} {a : c.Answer} {f : c.Answer → Operation β}
    {post : Except Fault β → Moment → Prop} (looks : m.store.answer c = (.ok a, m.store))
    (failed : ∀ fault, post (.error fault) m) (answered : (f a).Ensures alone post m) :
    (ask c >>= f : Operation β).Ensures alone post m := by
  rw [ensures_bind]
  refine ensures_ask_alone.mpr ⟨failed, ?_⟩
  rw [looks, Moment.see_store]
  exact answered

/-- A payment is read as it is stored. -/
theorem ensures_load_alone {id : String} {post : Except Fault Payment → Moment → Prop}
    (failed : ∀ fault, post (.error fault) m)
    (found : ∀ p, m.store.payments.get? id = some p → post (.ok p) m) :
    (load id).Ensures alone post m := by
  refine ensures_look_alone rfl failed ?_
  cases h : m.store.payments.get? id with
  | none => exact failed _
  | some p => exact found p h

/-- An account is there or the operation ends. -/
theorem ensures_demandAccount_alone {id : AccountId} {post : Except Fault Unit → Moment → Prop}
    (failed : ∀ fault, post (.error fault) m) (found : m.store.HasAccount id → post (.ok ()) m) :
    (demandAccount id).Ensures alone post m := by
  refine ensures_look_alone rfl failed ?_
  cases h : m.store.accounts.get? id with
  | none => exact failed _
  | some a => exact found ⟨a, h⟩

/-- An account is read as it is stored. -/
theorem ensures_loadAccount_alone {id : AccountId} {post : Except Fault Account → Moment → Prop}
    (failed : ∀ fault, post (.error fault) m)
    (found : ∀ a, m.store.accounts.get? id = some a → post (.ok a) m) :
    (loadAccount id).Ensures alone post m := by
  refine ensures_look_alone rfl failed ?_
  cases h : m.store.accounts.get? id with
  | none => exact failed _
  | some a => exact found a h

/-- A change of the stored record is written, as there is no other writer. -/
theorem ensures_commit_alone {p q : Payment} {post : Except Fault Committed → Moment → Prop}
    (stored : m.store.payments.get? q.requestId = some p) (isOpen : p.status.terminal = false)
    (version : q.version = p.version) (failed : ∀ fault, post (.error fault) m)
    (applied : post (.ok (.applied q.succ)) (m.see (m.store.put q.succ))) :
    (commit q).Ensures alone post m := by
  have ha : m.store.accepts q.succ.requestId q.version = true := by
    change m.store.accepts q.requestId q.version = true
    simp [Store.accepts, stored, isOpen, version]
  rw [commit, ensures_bind]
  refine ensures_ask_alone.mpr ⟨failed, ?_⟩
  simp only [Store.answer, Store.update_of_accepts ha, rest_ok, ensures_pure]
  exact applied

/-- A finished payment is announced. -/
theorem ensures_announceFinal_alone {q : Payment} {post : Except Fault Unit → Moment → Prop}
    (sent : post (.ok ()) (m.send [.outcome q.view, .settled q.requestId])) :
    (announceFinal q).Ensures alone post m := by
  simp only [announceFinal, ensures_bind, ensures_notify, rest_ok, alone_hears,
    Moment.send_send]
  exact sent

/-- It is announced that a payment begins to wait or waits no longer. -/
theorem ensures_announceWaiting_alone {before : Status} {q : Payment} {limit : UInt64}
    {now : Instant} {post : Except Fault Unit → Moment → Prop}
    (sent : post (.ok ()) (m.send (Store.waitingNotices (before = .waiting) q limit now))) :
    (announceWaiting before q limit now).Ensures alone post m := by
  unfold announceWaiting
  split
  · next hq =>
    split
    · next hb => simpa [Store.waitingNotices, hq, hb] using sent
    · next hb => simpa [Store.waitingNotices, hq, hb] using sent
  · next hq =>
    split
    · next hb => simpa [Store.waitingNotices, hq, hb] using sent
    · next hb =>
      rw [not_and, Bool.not_eq_true] at hb
      by_cases hw : before = .waiting
      · simpa [Store.waitingNotices, hq, hw, hb hw] using sent
      · simpa [Store.waitingNotices, hq, hw] using sent

end Steps

variable {limit : UInt64} {m : Moment}

/-- The result of a check fails, leaves the record as it is or changes it. -/
theorem ensures_applyCheck_alone (keyed : m.store.Keyed) (c : CheckResult) :
    (applyCheck limit c).Ensures alone (Effect limit m (.check c)) m := by
  rw [applyCheck, ensures_bind]
  refine ensures_load_alone .failed fun p hp => ?_
  rw [rest_ok]
  split
  · next ht => exact .kept rfl hp (.inl ht)
  · next ht =>
    rw [Bool.not_eq_true] at ht
    dsimp only
    split
    · next hsame => exact .kept rfl hp (.inr hsame)
    · next hdiffers =>
      have hk := p.keeps_afterCheck limit c
      have hid : (p.afterCheck limit c).requestId = c.requestId :=
        hk.requestId.trans (keyed _ _ hp)
      have hstored : m.store.payments.get? (p.afterCheck limit c).requestId = some p := by
        rw [hid, hp]
      have hchange : p.Change limit (.check c) (p.afterCheck limit c).succ := .checked ht hdiffers
      have hwrite : m.store.Write limit (.check c) (p.afterCheck limit c).succ
          (m.store.put (p.afterCheck limit c).succ) :=
        .changed hstored (fun id h => (Option.some.inj h).symm.trans hid.symm) hchange
          (fun _ _ => nofun) (hchange.ne_completed fun _ _ => nofun)
      rw [ensures_bind]
      refine ensures_commit_alone hstored ht hk.version .failed ?_
      simp only [rest_ok, ensures_bind, ensures_notify]
      refine ensures_announceWaiting_alone ?_
      have hwaited : m.store.payments.get? (p.afterCheck limit c).succ.requestId = some p := hstored
      have he := Effect.written hwrite
      simpa [Moment.written, Store.announcements, hwaited] using he

/-- An unknown request begins a payment. -/
theorem ensures_begin_alone {b : Submission} {now : Instant}
    {post : Except Fault Payment → Moment → Prop} (accepted : b.refusal? = none)
    (absent : m.store.payments.get? b.requestId = none) (failed : ∀ fault, post (.error fault) m)
    (inserted : post (.ok ((Payment.begun b now).numbered (m.store.lastId + 1)))
      (m.see ({ m.store with lastId := m.store.lastId + 1 }.put
        ((Payment.begun b now).numbered (m.store.lastId + 1))))) :
    (begin b now).Ensures alone post m := by
  rw [begin, ensures_bind, ensures_ofExcept, Payment.ofSubmission_eq_ok_iff.mpr ⟨accepted, rfl⟩,
    rest_ok]
  refine ensures_ask_alone.mpr ⟨failed, ?_⟩
  have hi : m.store.payments.get? (Payment.begun b now).requestId = none := absent
  simp only [Store.answer, Store.insert, hi]
  exact inserted

/-- A known request begins a new generation of its payment, if it may. -/
theorem ensures_resubmit_alone {p : Payment} {b : Submission}
    {post : Except Fault Payment → Moment → Prop}
    (stored : m.store.payments.get? p.requestId = some p) (failed : ∀ fault, post (.error fault) m)
    (renewed : ∀ q, p.payer = b.payer → p.regenerate b = .ok q →
      post (.ok q.succ) ((m.see (m.store.put q.succ)).send
        (if p.status = .waiting then [.settled p.requestId] else []))) :
    (resubmit p b).Ensures alone post m := by
  unfold resubmit
  split
  · exact failed _
  · next hp =>
    rw [ne_eq, Decidable.not_not] at hp
    rw [ensures_bind, ensures_ofExcept]
    cases hr : p.regenerate b with
    | error fault => exact failed _
    | ok q =>
      have hn := renewed q hp hr
      obtain ⟨-, isOpen, rfl⟩ := Payment.regenerate_eq_ok_iff.mp hr
      rw [rest_ok, ensures_bind]
      refine ensures_commit_alone (q := p.renewed b) stored isOpen rfl failed ?_
      rw [rest_ok]
      dsimp only
      split
      · next hw =>
        rw [if_pos hw] at hn
        exact hn
      · next hw =>
        rw [if_neg hw, Moment.send_nil] at hn
        exact hn

/-- A submission fails, begins a payment or a new generation of it. -/
theorem ensures_submit_alone (keyed : m.store.Keyed) (b : Submission) (now : Instant) :
    (submit b now).Ensures alone (Effect limit m (.submit b now)) m := by
  rw [submit, ensures_bind, ensures_ofExcept]
  cases accepted : b.refusal? with
  | some cause =>
    rw [Submission.validate, accepted]
    exact .failed _
  | none =>
    rw [Submission.validate, accepted, rest_ok, ensures_bind]
    refine ensures_demandAccount_alone .failed fun hpayer => ?_
    rw [rest_ok, ensures_bind]
    refine ensures_demandAccount_alone .failed fun hpayee => ?_
    rw [rest_ok]
    refine ensures_look_alone rfl (fun fault => .failed fault) ?_
    have hid (p) (hs : m.store.payments.get? b.requestId = some p) : p.requestId = b.requestId :=
      keyed _ _ hs
    cases hs : m.store.payments.get? b.requestId with
    | none =>
      dsimp only
      rw [ensures_bind]
      refine ensures_begin_alone accepted hs (fun fault => .failed fault) ?_
      have hwaited : m.store.payments.get?
          ((Payment.begun b now).numbered (m.store.lastId + 1)).requestId = none := hs
      have hwrite : m.store.Write limit (.submit b now)
          ((Payment.begun b now).numbered (m.store.lastId + 1))
          ({ m.store with lastId := m.store.lastId + 1 }.put
            ((Payment.begun b now).numbered (m.store.lastId + 1))) :=
        .begun hs accepted ⟨hpayer, hpayee⟩
      have he := Effect.written hwrite
      simpa [Moment.written, Store.announcements, hwaited] using he
    | some p =>
      have hp := hid p hs
      rw [← hp] at hs
      dsimp only
      rw [ensures_bind]
      refine ensures_resubmit_alone hs (fun fault => .failed fault) fun q hsame hq => ?_
      have hchange : p.Change limit (.submit b now) q.succ := .resubmitted hsame hq
      have hid' : q.succ.requestId = p.requestId := hchange.follows.requestId
      have hwaited : m.store.payments.get? q.succ.requestId = some p := by rw [hid', hs]
      have hwrite : m.store.Write limit (.submit b now) q.succ (m.store.put q.succ) :=
        .changed hwaited (fun id h => (Option.some.inj h).symm.trans (hp.symm.trans hid'.symm))
          hchange (fun _ _ h => by cases h; exact ⟨hpayer, hpayee⟩)
          (hchange.ne_completed fun _ _ h => by cases h)
      have he := Effect.written hwrite
      simpa [Moment.written, Store.announcements, hwaited, ← hid'] using he

/-- A change of a payment that waits is written. -/
theorem ensures_commit_finished {p q : Payment}
    (stored : m.store.payments.get? p.requestId = some p)
    (named : ∀ id, r.requestId? = some id → id = p.requestId) (change : p.Change limit r q.succ)
    (settles : ∀ b now, r ≠ .submit b now) (unpaid : q.status ≠ .completed) :
    (commit q).Ensures alone (Finished limit m r) m := by
  have hid : q.succ.requestId = p.requestId := change.follows.requestId
  have hstored : m.store.payments.get? q.succ.requestId = some p := by rw [hid, stored]
  have hversion : q.version = p.version := (UInt64.add_left_inj 1).mp change.follows.version
  have hwrite : m.store.Write limit r q.succ (m.store.put q.succ) :=
    .changed hstored (fun id h => (named id h).trans hid.symm) change
      (fun b now h => absurd h (settles b now)) unpaid
  exact ensures_commit_alone hstored change.isOpen hversion (fun fault => .failed fault)
    (.applied hwrite)

section Confirmed

variable {p : Payment} {d : Decision} {now : Instant}
  (stored : m.store.payments.get? p.requestId = some p)
  (named : ∀ id, (Request.confirm d now).requestId? = some id → id = p.requestId)
  (waits : p.status = .waiting) (complete : p.checks.complete = true)
  (inTime : ¬ p.expired limit now) (yes : d.confirmed = true)

include stored named waits complete inTime yes

/-- The payer confirmed and cannot pay: the payment ends without the money. -/
theorem ensures_finishUnfunded_alone :
    (finishUnfunded p now).Ensures alone (Finished limit m (.confirm d now)) m := by
  refine ensures_commit_finished stored named (.unfunded waits complete inTime yes)
    (fun _ _ => nofun) ?_
  exact Payment.advanced_ne_completed waits (by nofun) _ _

/-- The payer confirmed and can pay: the money is moved, or the payment ends without it. -/
theorem ensures_finishFunded_alone :
    (finishFunded p now).Ensures alone (Finished limit m (.confirm d now)) m := by
  have hchange : p.Change limit (.confirm d now)
      (p.advanced (.confirmed true) now (some Payment.completedMessage)).succ :=
    .paid waits complete inTime yes
  have hcompleted :
      (p.advanced (.confirmed true) now (some Payment.completedMessage)).succ.status =
        .completed :=
    Payment.completed_advanced waits _ _
  rw [finishFunded]
  generalize (p.advanced (.confirmed true) now (some Payment.completedMessage)).succ = q
    at hchange hcompleted ⊢
  have hid : q.requestId = p.requestId := hchange.follows.requestId
  have hstored : m.store.payments.get? q.requestId = some p := by rw [hid, stored]
  have haccepts : m.store.accepts q.requestId p.version = true := by
    simp [Store.accepts, hstored, hchange.isOpen]
  rw [ensures_bind]
  refine ensures_ask_alone.mpr ⟨fun fault => .failed fault, ?_⟩
  rw [Store.answer]
  rcases m.store.commitTransfer_cases q p.version q.transfer with
    ⟨answer, hanswer, unsettled, admitted⟩ | ⟨found, moved, -, hfound, happlied, hanswer⟩
  · rw [hanswer, Moment.see_store]
    rcases answer with fault | _ | _ | _
    · exact .failed fault
    · exact absurd rfl unsettled
    · exact ensures_finishUnfunded_alone stored named waits complete inTime yes
    · exact absurd rfl (admitted haccepts)
  · rw [hanswer]
    exact .applied (.paid hstored (fun id h => (named id h).trans hid.symm) hchange hcompleted
      hfound happlied)

/-- The payer confirmed: the money is moved, or the payment ends without it. -/
theorem ensures_pay_alone :
    (pay p now).Ensures alone (Finished limit m (.confirm d now)) m := by
  rw [pay, ensures_bind]
  refine ensures_loadAccount_alone (fun fault => .failed fault) fun a _ => ?_
  rw [rest_ok]
  split
  · exact ensures_finishFunded_alone stored named waits complete inTime yes
  · exact ensures_finishUnfunded_alone stored named waits complete inTime yes

end Confirmed

/-- A decision is late, negative or positive. -/
theorem ensures_conclude_alone {p : Payment} {d : Decision} {now : Instant}
    (stored : m.store.payments.get? p.requestId = some p)
    (named : ∀ id, (Request.confirm d now).requestId? = some id → id = p.requestId)
    (waits : p.status = .waiting) (complete : p.checks.complete = true) :
    (conclude limit d p now).Ensures alone (Finished limit m (.confirm d now)) m := by
  unfold conclude
  split
  · next late =>
    refine ensures_commit_finished stored named (.late waits complete late) (fun _ _ => nofun) ?_
    exact Payment.advanced_ne_completed waits (by nofun) _ _
  · next inTime =>
    split
    · next yes => exact ensures_pay_alone stored named waits complete inTime yes
    · next no =>
      rw [Bool.not_eq_true] at no
      refine ensures_commit_finished stored named (.rejected waits complete inTime no)
        (fun _ _ => nofun) ?_
      exact Payment.advanced_ne_completed waits (by nofun) _ _

/-- A decision fails or finishes the payment. -/
theorem ensures_settle_alone (keyed : m.store.Keyed) (d : Decision) (now : Instant) :
    (settle limit d now).Ensures alone (Effect limit m (.confirm d now)) m := by
  rw [settle, ensures_bind]
  refine ensures_load_alone (fun fault => .failed fault) fun p hp => ?_
  have hid := keyed _ _ hp
  rw [← hid] at hp
  rw [rest_ok]
  split
  · exact .failed _
  · next hready =>
    simp only [not_or, ne_eq, Decidable.not_not, Bool.not_eq_true', Bool.not_eq_false] at hready
    rw [ensures_bind]
    have hnamed : ∀ id, (Request.confirm d now).requestId? = some id → id = p.requestId := by
      intro id h
      cases h
      exact hid.symm
    refine (ensures_conclude_alone hp hnamed hready.1 hready.2).mono ?_
    rintro result after (fault | ⟨write⟩)
    · exact .failed fault
    · rw [rest_ok, ensures_bind]
      exact ensures_announceFinal_alone (.written write)

/-- A sweep declines a payment whose time is over, or leaves it as it is. -/
theorem ensures_expire_alone (keyed : m.store.Keyed) (now : Instant) (requestId : String) :
    (expire limit now requestId).Ensures alone (Expired limit m now) m := by
  rw [expire, ensures_bind]
  refine ensures_load_alone (fun fault => .failed fault) fun p hp => ?_
  have hid := keyed _ _ hp
  rw [← hid] at hp
  rw [rest_ok]
  split
  · next late =>
    split
    · exact .kept
    · next q hq =>
      have hchange : p.Change limit (.sweep now) q.succ := .swept late hq
      have hnamed : ∀ id, (Request.sweep now).requestId? = some id → id = p.requestId := by
        intro id h
        cases h
      rw [ensures_bind]
      refine (ensures_commit_finished hp hnamed hchange (fun _ _ => nofun)
        (hchange.ne_completed fun _ _ => nofun)).mono ?_
      rintro result after (fault | ⟨write⟩)
      · exact .failed fault
      · rw [rest_ok, ensures_bind]
        exact ensures_announceFinal_alone (.declined write)
  · exact .kept

/-- Payments are declined one by one. -/
theorem ensures_expireAll_alone (now : Instant) (candidates : List Payment) {m : Moment}
    (keyed : m.store.Keyed) :
    (expireAll limit now candidates).Ensures alone
      (fun result after => ∃ qs, result = .ok qs ∧ Writes limit (.sweep now) m qs after) m := by
  induction candidates generalizing m with
  | nil => exact ⟨[], rfl, .none m⟩
  | cons p rest ih =>
    rw [expireAll, ensures_bind]
    refine ensures_tolerate ((ensures_expire_alone keyed now p.requestId).mono ?_)
    have hrest {m : Moment} (hm : m.store.Keyed) (declined : Option Payment) :
        (do return declined.toList ++ (← expireAll limit now rest)).Ensures alone
          (fun result after => ∃ qs, result = Except.ok (declined.toList ++ qs) ∧
            Writes limit (.sweep now) m qs after) m := by
      rw [ensures_bind]
      refine (ih hm).mono ?_
      rintro result after ⟨qs, rfl, writes⟩
      exact ⟨qs, rfl, writes⟩
    rintro result after (fault | _ | ⟨write⟩)
    · exact hrest keyed none
    · exact hrest keyed none
    · refine (hrest ?_ (some _)).mono ?_
      · rw [Moment.store_written]
        exact write.keyed keyed
      · rintro result after ⟨qs, rfl, writes⟩
        exact ⟨_, rfl, .more write writes⟩

/-- An operation on one payment serves its request. -/
theorem ensures_one_alone {op : Operation Payment} (one : ∀ now, r ≠ .sweep now)
    (h : op.Ensures alone (Effect limit m r) m) :
    (Request.one op).Ensures alone (Served limit m r) m := by
  rw [Request.one, ensures_bind]
  refine h.mono ?_
  rintro result after (fault | ⟨check, stored, idle⟩ | ⟨write⟩)
  · exact .failed fault
  · exact .kept check stored idle
  · exact .written one write

/-- Every request fails, leaves the store as it is or writes and announces records. -/
theorem ensures_operation_alone (keyed : m.store.Keyed) (r : Request) :
    (r.operation limit).Ensures alone (Served limit m r) m := by
  cases r with
  | submit b now => exact ensures_one_alone (fun _ => nofun) (ensures_submit_alone keyed b now)
  | check c => exact ensures_one_alone (fun _ => nofun) (ensures_applyCheck_alone keyed c)
  | confirm d now => exact ensures_one_alone (fun _ => nofun) (ensures_settle_alone keyed d now)
  | sweep now =>
    refine ensures_look_alone rfl (fun fault => .failed fault) ?_
    refine (ensures_expireAll_alone now _ keyed).mono ?_
    rintro result after ⟨qs, rfl, writes⟩
    exact .swept rfl writes

end Operation

end Clearing
