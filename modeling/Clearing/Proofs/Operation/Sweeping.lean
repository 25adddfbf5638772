import Clearing.Operation.Sweep
import Clearing.Proofs.Payment.Deadline
import Clearing.Proofs.Payment.WellFormed
import Clearing.Proofs.Program.Unread
import Clearing.Proofs.Store.Values
import Clearing.Proofs.Store.Write
import Mathlib.Data.List.Basic

/-!
# What a sweep does

A sweep over any candidates declines those that are open, expired and can be read, and tells of each
of them. It is told here once for all candidates what becomes of the store: every record is changed
in place by a rule that looks at nothing but the record and whether it is a candidate.
-/

namespace Clearing

open Clearing.Time

namespace Payment

/-- Whether a sweep declines a payment: it is open and expired. -/
def Lapses (p : Payment) (limit : UInt64) (now : Instant) : Prop :=
  p.status.terminal = false ∧ p.expired limit now

instance (p : Payment) (limit : UInt64) (now : Instant) : Decidable (p.Lapses limit now) :=
  inferInstanceAs (Decidable (_ ∧ _))

/-- The record of a payment that a sweep has declined. -/
def lapsed (p : Payment) (now : Instant) : Payment :=
  { p with
    status := .declined
    processedAt := some now
    failureMessage := some expiredMessage
    version := p.version + 1 }

/-- The record of an open payment that a sweep has declined, whatever was noted of it before. -/
def closed (p : Payment) (now : Instant) : Payment :=
  ((p.enter .declined now).append expiredMessage).succ

variable {limit : UInt64} {now : Instant} {p : Payment}

/-- What a sweep has declined it does not decline again. -/
theorem not_lapses_closed (p : Payment) (limit : UInt64) (now later : Instant) :
    ¬ (p.closed now).Lapses limit later := fun h => absurd h.1 nofun

/-- A payment of which nothing was noted is declined with its message alone. -/
theorem closed_of_unnoted (unnoted : p.failureMessage = none) (now : Instant) :
    p.closed now = p.lapsed now := by
  simp [closed, succ, append, enter, joined, lapsed, unnoted, Status.terminal]

/-- Nothing was noted of an open payment that is well-formed. -/
theorem WellFormed.unnoted {ended : UInt64} (h : p.WellFormed ended)
    (isOpen : p.status.terminal = false) : p.failureMessage = none := by
  by_cases waits : p.status = .waiting
  · have hagrees := h.agrees
    rw [waits] at hagrees
    exact hagrees.failureMessage
  · exact (unchecked_of_open h.agrees isOpen waits).failureMessage

end Payment

namespace Store

/-- Whether a sweep finds every record under its own name and nothing noted of the open ones. -/
structure Sweepable (s : Store) : Prop where
  keyed : s.Keyed
  unnoted : ∀ id p, s.payments.get? id = some p → p.status.terminal = false →
    p.failureMessage = none

variable {limit : UInt64} {now : Instant} {s : Store} {p : Payment}

/-- A sweep notes its message alone of the payments that it finds there. -/
theorem Sweepable.closed_eq (h : s.Sweepable) {id : String} (stored : s.payments.get? id = some p)
    (lapses : p.Lapses limit now) : p.closed now = p.lapsed now :=
  Payment.closed_of_unnoted (h.unnoted id p stored lapses.1) now

/-- The candidates of a sweep are the open payments whose limit has an end that has passed. -/
theorem mem_findOverdue :
    p ∈ s.findOverdue limit now ↔ p ∈ s.payments.values ∧ overdue limit now p = true := by
  rw [findOverdue, (List.mergeSort_perm _ _).mem_iff, List.mem_filter]

/-- Every payment that a sweep is to decline is a candidate. -/
theorem mem_findOverdue_of_lapses (stored : p ∈ s.payments.values) (h : p.Lapses limit now) :
    p ∈ s.findOverdue limit now := by
  obtain ⟨deadline, hdeadline, passed⟩ := Payment.deadline?_of_expired h.2
  rw [mem_findOverdue, overdue, h.1, hdeadline]
  exact ⟨stored, by simpa using passed⟩

/-- No payment is a candidate twice. -/
theorem nodup_findOverdue (keyed : s.Keyed) (limit : UInt64) (now : Instant) :
    ((s.findOverdue limit now).map Payment.requestId).Nodup := by
  have hperm : (s.findOverdue limit now).Perm (s.payments.values.filter (overdue limit now)) :=
    List.mergeSort_perm _ _
  refine (hperm.map _).nodup_iff.mpr ?_
  exact (Table.nodup_map_values keyed).sublist (List.filter_sublist.map _)

/-- The order of creation is an order. -/
theorem createdBefore_trans (a b c : Payment) (h : createdBefore a b = true)
    (h' : createdBefore b c = true) : createdBefore a c = true := by
  simp only [createdBefore, Bool.or_eq_true, Bool.and_eq_true, beq_iff_eq, decide_eq_true_eq] at *
  rcases h with h | ⟨h, hid⟩
  · rcases h' with h' | ⟨h', -⟩
    · exact .inl (Instant.lt_trans h h')
    · exact .inl (h' ▸ h)
  · rcases h' with h' | ⟨h', hid'⟩
    · exact .inl (h ▸ h')
    · exact .inr ⟨h.trans h', String.le_trans hid hid'⟩

theorem createdBefore_total (a b : Payment) : (createdBefore a b || createdBefore b a) = true := by
  simp only [createdBefore, Bool.or_eq_true, Bool.and_eq_true, beq_iff_eq, decide_eq_true_eq]
  by_cases h : a.createdAt ≤ b.createdAt
  · rcases h with h | h
    · exact .inl (.inl h)
    · rcases String.le_total a.requestId b.requestId with hid | hid
      · exact .inl (.inr ⟨h, hid⟩)
      · exact .inr (.inr ⟨h.symm, hid⟩)
  · exact .inr (.inl (Instant.lt_of_not_le h))

/-- The candidates come in the order of their creation. -/
theorem pairwise_findOverdue (s : Store) (limit : UInt64) (now : Instant) :
    (s.findOverdue limit now).Pairwise fun p q => p.createdAt ≤ q.createdAt := by
  refine (List.pairwise_mergeSort createdBefore_trans createdBefore_total _).imp fun {p q} h => ?_
  simp only [createdBefore, Bool.or_eq_true, Bool.and_eq_true, beq_iff_eq, decide_eq_true_eq] at h
  rcases h with h | ⟨h, -⟩
  · exact .inl h
  · exact .inr h

end Store

namespace Unread

/-- The record that a sweep makes of a payment, if it declines that. -/
def declined? (w : Unread) (limit : UInt64) (now : Instant) (requestId : String) : Option Payment :=
  match w.read requestId with
  | .ok p => if p.Lapses limit now then some (p.closed now) else none
  | .error _ => none

/-- The records that a sweep over candidates makes. -/
def returned (w : Unread) (limit : UInt64) (now : Instant) (candidates : List Payment) :
    List Payment :=
  candidates.filterMap fun p => w.declined? limit now p.requestId

/-- Write a record. -/
def put (w : Unread) (p : Payment) : Unread := { w with store := w.store.put p }

/-- What a sweep over candidates makes of the record under a name. -/
def outcome (w : Unread) (limit : UInt64) (now : Instant) (ids : List String) (id : String)
    (p : Payment) : Payment :=
  if id ∈ ids ∧ w.unreadable id = none ∧ p.Lapses limit now then p.closed now else p

/-- The store with every record as a sweep over candidates leaves it. -/
def swept (w : Unread) (limit : UInt64) (now : Instant) (ids : List String) : Unread :=
  { w with store := { w.store with payments := w.store.payments.alter (w.outcome limit now ids) } }

variable {limit : UInt64} {now : Instant} {w : Unread} {requestId : String} {p q : Payment}

theorem declined?_eq_some_iff : w.declined? limit now requestId = some q ↔
    w.unreadable requestId = none ∧ ∃ p, w.store.payments.get? requestId = some p ∧
      p.Lapses limit now ∧ q = p.closed now := by
  unfold declined?
  cases h : w.read requestId with
  | error fault =>
    simp only [reduceCtorEq, false_iff]
    rintro ⟨readable, p, stored, -⟩
    exact absurd (h.symm.trans (read_eq_ok_iff.mpr ⟨readable, stored⟩)) nofun
  | ok p =>
    obtain ⟨readable, stored⟩ := read_eq_ok_iff.mp h
    simp only [readable, stored, true_and, Option.some.injEq, exists_eq_left']
    split
    · next lapses => simp [lapses, eq_comm]
    · next stays => simp [stays]

theorem outcome_of_not_lapses (ids : List String) (id : String) (h : ¬ p.Lapses limit now) :
    w.outcome limit now ids id p = p := if_neg fun declined => h declined.2.2

/-- Other candidates do not show in a record. -/
theorem outcome_cons_of_ne {id : String} (h : id ≠ requestId) (ids : List String) (p : Payment) :
    w.outcome limit now (requestId :: ids) id p = w.outcome limit now ids id p := by
  simp only [outcome, List.mem_cons, h, false_or]

/-- No candidates, no change. -/
theorem swept_nil (w : Unread) (limit : UInt64) (now : Instant) : w.swept limit now [] = w := by
  have hsame : w.store.payments.alter (w.outcome limit now []) = w.store.payments :=
    Table.alter_of_fixed fun _ _ _ => if_neg fun declined => absurd declined.1 List.not_mem_nil
  rw [swept, hsame]

/-- A candidate that is not declined does not show. -/
theorem swept_cons_of_none (h : w.declined? limit now requestId = none) (ids : List String) :
    w.swept limit now (requestId :: ids) = w.swept limit now ids := by
  have hsame : w.store.payments.alter (w.outcome limit now (requestId :: ids)) =
      w.store.payments.alter (w.outcome limit now ids) := by
    refine Table.alter_congr fun id p stored => ?_
    by_cases hid : id = requestId
    · subst hid
      have hnot : ¬ (w.unreadable id = none ∧ p.Lapses limit now) := by
        rintro ⟨readable, lapses⟩
        have hsome := declined?_eq_some_iff.mpr ⟨readable, p, stored, lapses, rfl⟩
        exact absurd (h.symm.trans hsome) nofun
      simp only [outcome, hnot, and_false]
    · exact outcome_cons_of_ne hid ids p
  rw [swept, swept, hsame]

/-- A candidate that is declined is declined before the others. -/
theorem swept_cons_of_some (keyed : w.store.Keyed) (h : w.declined? limit now requestId = some q)
    (ids : List String) : w.swept limit now (requestId :: ids) = (w.put q).swept limit now ids := by
  obtain ⟨readable, p, stored, lapses, rfl⟩ := declined?_eq_some_iff.mp h
  have hid : p.requestId = requestId := keyed _ _ stored
  have hput : (w.put (p.closed now)).store.payments =
      w.store.payments.alter fun id v => if id = requestId then p.closed now else v := by
    rw [← Table.put_eq_alter stored, ← hid]
    rfl
  have hsame : w.store.payments.alter (w.outcome limit now (requestId :: ids)) =
      (w.put (p.closed now)).store.payments.alter (w.outcome limit now ids) := by
    rw [hput, Table.alter_alter]
    refine Table.alter_congr fun id v hv => ?_
    by_cases hname : id = requestId
    · subst hname
      cases hv.symm.trans stored
      rw [if_pos rfl, outcome_of_not_lapses ids _ (p.not_lapses_closed limit now now)]
      exact if_pos ⟨List.mem_cons_self, readable, lapses⟩
    · rw [if_neg hname]
      exact outcome_cons_of_ne hname ids v
  rw [swept, hsame]
  rfl

/-- What becomes of the store depends on which candidates there are, and not on their order. -/
theorem swept_perm {ids others : List String} (h : ids.Perm others) :
    w.swept limit now ids = w.swept limit now others := by
  have hsame : w.outcome limit now ids = w.outcome limit now others := by
    funext id p
    simp only [outcome, h.mem_iff]
  rw [swept, swept, hsame]

/-- A sweep over all candidates changes every payment that is open, expired and can be read. -/
theorem swept_findOverdue (keyed : w.store.Keyed) :
    w.swept limit now ((w.store.findOverdue limit now).map Payment.requestId) =
      { w with
        store := { w.store with
          payments := w.store.payments.alter fun id p =>
            if w.unreadable id = none ∧ p.Lapses limit now then p.closed now else p } } := by
  have hsame : w.store.payments.alter
      (w.outcome limit now ((w.store.findOverdue limit now).map Payment.requestId)) =
        w.store.payments.alter fun id p =>
          if w.unreadable id = none ∧ p.Lapses limit now then p.closed now else p := by
    refine Table.alter_congr fun id p stored => ?_
    by_cases declined : w.unreadable id = none ∧ p.Lapses limit now
    · have hvalue : p ∈ w.store.payments.values := Table.mem_values_iff.mpr ⟨id, stored⟩
      have hcandidate := Store.mem_findOverdue_of_lapses hvalue declined.2
      have hid : id ∈ (w.store.findOverdue limit now).map Payment.requestId :=
        List.mem_map.mpr ⟨p, hcandidate, keyed _ _ stored⟩
      rw [outcome, if_pos ⟨hid, declined⟩, if_pos declined]
    · rw [outcome, if_neg fun h => declined h.2, if_neg declined]
  rw [swept, hsame]

/-- After a sweep over all candidates no payment that can be read is left to be declined. -/
theorem not_lapses_swept (keyed : w.store.Keyed) {id : String}
    (stored : (w.swept limit now ((w.store.findOverdue limit now).map
      Payment.requestId)).store.payments.get? id = some q) (readable : w.unreadable id = none) :
    ¬ q.Lapses limit now := by
  rw [swept_findOverdue keyed, Table.get?_alter] at stored
  obtain ⟨p, -, rfl⟩ := Option.map_eq_some_iff.mp stored
  split
  · exact p.not_lapses_closed limit now now
  · next stays => exact fun lapses => stays ⟨readable, lapses⟩

/-- A sweep leaves every record under its own name. -/
theorem keyed_swept (keyed : w.store.Keyed) (ids : List String) :
    (w.swept limit now ids).store.Keyed := by
  intro id q stored
  obtain ⟨p, hp, rfl⟩ := Option.map_eq_some_iff.mp ((Table.get?_alter _ _ _).symm.trans stored)
  unfold outcome
  split <;> exact keyed id p hp

/-- A candidate does not show in what becomes of another one. -/
theorem declined?_put_of_ne (h : q.requestId ≠ requestId) :
    (w.put q).declined? limit now requestId = w.declined? limit now requestId := by
  have hget : (w.put q).store.payments.get? requestId = w.store.payments.get? requestId :=
    (Table.get?_put _ _ _ _).trans (if_neg h)
  simp only [declined?, read, hget]
  rfl

section Returned

variable (keyed : w.store.Keyed)

include keyed

/-- A stored payment is declined if it is open and expired and can be read. -/
theorem declined?_of_mem (stored : p ∈ w.store.payments.values) :
    w.declined? limit now p.requestId = some q ↔
      w.unreadable p.requestId = none ∧ p.Lapses limit now ∧ q = p.closed now := by
  obtain ⟨id, stored⟩ := Table.mem_values_iff.mp stored
  cases keyed id p stored
  simp only [declined?_eq_some_iff, stored, Option.some.injEq, exists_eq_left']

/-- A sweep returns the open payments that are expired and can be read. -/
theorem mem_returned_findOverdue :
    q ∈ w.returned limit now (w.store.findOverdue limit now) ↔ ∃ p ∈ w.store.payments.values,
      w.unreadable p.requestId = none ∧ p.Lapses limit now ∧ q = p.closed now := by
  rw [returned, List.mem_filterMap]
  constructor
  · rintro ⟨p, candidate, hq⟩
    have stored := (Store.mem_findOverdue.mp candidate).1
    exact ⟨p, stored, (declined?_of_mem keyed stored).mp hq⟩
  · rintro ⟨p, stored, hq⟩
    exact ⟨p, Store.mem_findOverdue_of_lapses stored hq.2.1, (declined?_of_mem keyed stored).mpr hq⟩

/-- A sweep returns no payment twice. -/
theorem nodup_returned_findOverdue :
    ((w.returned limit now (w.store.findOverdue limit now)).map Payment.requestId).Nodup := by
  have hcandidates := List.pairwise_map.mp (Store.nodup_findOverdue keyed limit now)
  refine List.pairwise_map.mpr (hcandidates.filterMap _ fun p p' apart q hq q' hq' => ?_)
  obtain ⟨-, stored, hs, -, rfl⟩ := declined?_eq_some_iff.mp hq
  obtain ⟨-, stored', hs', -, rfl⟩ := declined?_eq_some_iff.mp hq'
  change stored.requestId ≠ stored'.requestId
  rw [keyed _ _ hs, keyed _ _ hs']
  exact apart

/-- A sweep returns the payments in the order of their creation. -/
theorem pairwise_returned_findOverdue :
    (w.returned limit now (w.store.findOverdue limit now)).Pairwise
      fun p q => p.createdAt ≤ q.createdAt := by
  have hcandidates := List.Pairwise.and_mem.mp (w.store.pairwise_findOverdue limit now)
  refine hcandidates.filterMap _ ?_
  rintro p p' ⟨hp, hp', ordered⟩ q hq q' hq'
  obtain ⟨-, -, rfl⟩ := (declined?_of_mem keyed (Store.mem_findOverdue.mp hp).1).mp hq
  obtain ⟨-, -, rfl⟩ := (declined?_of_mem keyed (Store.mem_findOverdue.mp hp').1).mp hq'
  exact ordered

end Returned

end Unread

namespace Operation

variable {limit : UInt64} {now : Instant} {w : Unread} {requestId : String} {p q : Payment}

/-- What is told of a payment that is finished. -/
def finalNotices (p : Payment) : List Notice := [.outcome p.view, .settled p.requestId]

/-- Where an operation ended with a result the next one goes on. -/
theorem run_bind_from {σ α β : Type} [Storage σ] {op : Operation α} {s t : σ} {a : α}
    {first : List Notice} (h : op.run s = ⟨.ok a, t, first⟩) (f : α → Operation β) :
    (op >>= f : Operation β).run s =
      ⟨((f a).run t).result, ((f a).run t).storage, first ++ ((f a).run t).notices⟩ := by
  have hresult : (op.run s).result = .ok a := congrArg Program.Outcome.result h
  rw [run_bind_of_ok hresult, h]

/-- A payment is read. -/
theorem run_load {result : Except Fault Payment} (read : w.read requestId = result) :
    (load requestId).run w = ⟨result, w, []⟩ := by
  subst read
  unfold Unread.read
  cases hu : w.unreadable requestId with
  | some fault =>
    have hask : (ask (.get requestId)).run w = ⟨.error fault, w, []⟩ := by
      rw [run_ask, Unread.answer_of_unreadable hu]
    rw [load, run_bind_of_error (congrArg Program.Outcome.result hask), hask]
  | none =>
    have hask : (ask (.get requestId)).run w = ⟨.ok (w.store.payments.get? requestId), w, []⟩ := by
      rw [run_ask, Unread.answer_of_none hu]
    rw [load, run_bind_from hask]
    cases w.store.payments.get? requestId <;> rfl

/-- A change of the stored record is written. -/
theorem run_commit (stored : w.store.payments.get? q.requestId = some p)
    (isOpen : p.status.terminal = false) (version : q.version = p.version) :
    (commit q).run w = ⟨.ok (.applied q.succ), w.put q.succ, []⟩ := by
  have haccepts : w.store.accepts q.succ.requestId q.version = true := by
    change w.store.accepts q.requestId q.version = true
    simp [Store.accepts, stored, isOpen, version]
  have hask : (ask (.update q.succ q.version)).run w = ⟨.ok .applied, w.put q.succ, []⟩ := by
    rw [run_ask]
    change Program.Outcome.mk (w.answer (.update q.succ q.version)).1
      (w.answer (.update q.succ q.version)).2 [] = _
    simp only [Unread.answer, Store.answer, Store.update_of_accepts haccepts, Unread.put]
  rw [commit, run_bind_from hask]
  rfl

/-- A fault that is tolerated is no result. -/
theorem run_tolerate {σ α : Type} [Storage σ] {op : Operation (Option α)} {s t : σ}
    {result : Except Fault (Option α)} {told : List Notice} (h : op.run s = ⟨result, t, told⟩) :
    (tolerate op).run s = ⟨.ok (result.toOption.getD none), t, told⟩ := by
  refine (Program.run_bind (ExceptT.run op) _ s).trans ?_
  rw [show Program.run (ExceptT.run op) s = ⟨result, t, told⟩ from h]
  cases result <;> exact congrArg _ (List.append_nil _)

/-- A payment that is open and expired is declined, and everybody is told of it. -/
theorem run_expire_of_lapses (keyed : w.store.Keyed) (read : w.read requestId = .ok p)
    (lapses : p.Lapses limit now) : (expire limit now requestId).run w =
      ⟨.ok (some (p.closed now)), w.put (p.closed now), finalNotices (p.closed now)⟩ := by
  obtain ⟨-, stored⟩ := Unread.read_eq_ok_iff.mp read
  have hid := keyed _ _ stored
  have hadvance := Payment.advance_expired lapses.1 now
  have hkeeps := Payment.keeps_of_advance hadvance
  have hstored : w.store.payments.get?
      ((p.enter .declined now).append Payment.expiredMessage).requestId = some p := by
    rw [hkeeps.requestId, hid, stored]
  rw [expire, run_bind_from (run_load read), if_pos lapses.2, hadvance]
  dsimp only
  rw [run_bind_from (run_commit hstored lapses.1 hkeeps.version)]
  rfl

/-- A payment that is final or in time is left as it is. -/
theorem run_expire_of_stays (read : w.read requestId = .ok p) (stays : ¬ p.Lapses limit now) :
    (expire limit now requestId).run w = ⟨.ok none, w, []⟩ := by
  rw [expire, run_bind_from (run_load read)]
  split
  · next late =>
    have final : p.status.terminal = true := by
      rw [← Bool.not_eq_false]
      exact fun isOpen => stays ⟨isOpen, late⟩
    rw [Payment.advance_of_terminal final]
    rfl
  · rfl

/-- A candidate is declined if it is to be, and is left as it is if it cannot be read. -/
theorem run_expire (keyed : w.store.Keyed) (limit : UInt64) (now : Instant) (requestId : String) :
    (tolerate (expire limit now requestId)).run w =
      ⟨.ok (w.declined? limit now requestId),
        (w.declined? limit now requestId).elim w w.put,
        (w.declined? limit now requestId).elim [] finalNotices⟩ := by
  unfold Unread.declined?
  cases read : w.read requestId with
  | error fault =>
    have hload := run_load read
    have hexpire : (expire limit now requestId).run w = ⟨.error fault, w, []⟩ := by
      rw [expire, run_bind_of_error (congrArg Program.Outcome.result hload), hload]
    exact run_tolerate hexpire
  | ok p =>
    dsimp only
    split
    · next lapses => exact run_tolerate (run_expire_of_lapses keyed read lapses)
    · next stays => exact run_tolerate (run_expire_of_stays read stays)

/-- Candidates of which none comes twice are declined if they are to be, in their order, and
everybody is told of each of them. -/
theorem run_expireAll (keyed : w.store.Keyed) {candidates : List Payment}
    (nodup : (candidates.map Payment.requestId).Nodup) :
    (expireAll limit now candidates).run w =
      ⟨.ok (w.returned limit now candidates), w.swept limit now (candidates.map Payment.requestId),
        (w.returned limit now candidates).flatMap finalNotices⟩ := by
  induction candidates generalizing w with
  | nil =>
    rw [List.map_nil, Unread.swept_nil]
    rfl
  | cons p rest ih =>
    rw [List.map_cons, List.nodup_cons] at nodup
    obtain ⟨fresh, nodup⟩ := nodup
    have hfirst := run_expire keyed limit now p.requestId
    rw [expireAll, run_bind_from hfirst]
    cases hd : w.declined? limit now p.requestId with
    | none =>
      have hrest := ih keyed nodup
      have hreturned : w.returned limit now (p :: rest) = w.returned limit now rest :=
        List.filterMap_cons_none hd
      dsimp only [Option.elim]
      rw [run_bind_from hrest, List.map_cons, Unread.swept_cons_of_none hd, hreturned]
      simp
    | some q =>
      obtain ⟨-, stored, hs, -, rfl⟩ := Unread.declined?_eq_some_iff.mp hd
      have hid : stored.requestId = p.requestId := keyed _ _ hs
      have hrest := ih (w := w.put (stored.closed now)) (keyed.put rfl) nodup
      have hothers : (w.put (stored.closed now)).returned limit now rest =
          w.returned limit now rest := by
        refine List.filterMap_congr fun other hm => Unread.declined?_put_of_ne fun hsame => fresh ?_
        exact List.mem_map.mpr ⟨other, hm, hsame.symm.trans hid⟩
      have hreturned : w.returned limit now (p :: rest) =
          stored.closed now :: w.returned limit now rest := List.filterMap_cons_some hd
      rw [hothers] at hrest
      dsimp only [Option.elim]
      rw [run_bind_from hrest, List.map_cons, Unread.swept_cons_of_some keyed hd, hreturned]
      simp

/-- A sweep declines the candidates that are to be declined. -/
theorem run_sweep (keyed : w.store.Keyed) (limit : UInt64) (now : Instant) :
    let candidates := w.store.findOverdue limit now
    (sweep limit now).run w =
      ⟨.ok (w.returned limit now candidates), w.swept limit now (candidates.map Payment.requestId),
        (w.returned limit now candidates).flatMap finalNotices⟩ := by
  intro candidates
  have hask : (ask (.findOverdue limit now)).run w = ⟨.ok candidates, w, []⟩ := rfl
  rw [sweep, run_bind_from hask, run_expireAll keyed (Store.nodup_findOverdue keyed limit now)]
  rfl

/-- A sweep that finds nothing to decline does nothing. -/
theorem run_sweep_of_settled (keyed : w.store.Keyed) (settled : ∀ id p,
    w.store.payments.get? id = some p → w.unreadable id = none → ¬ p.Lapses limit now) :
    (sweep limit now).run w = ⟨.ok [], w, []⟩ := by
  have hreturned : w.returned limit now (w.store.findOverdue limit now) = [] := by
    refine List.filterMap_eq_nil_iff.mpr fun p _ => ?_
    rw [Option.eq_none_iff_forall_ne_some]
    intro q hq
    obtain ⟨readable, stored, hs, lapses, -⟩ := Unread.declined?_eq_some_iff.mp hq
    exact settled _ _ hs readable lapses
  have hswept (ids : List String) : w.swept limit now ids = w := by
    have hsame : w.store.payments.alter (w.outcome limit now ids) = w.store.payments := by
      refine Table.alter_of_fixed fun id p stored => if_neg ?_
      rintro ⟨-, readable, lapses⟩
      exact settled id p stored readable lapses
    rw [Unread.swept, hsame]
  rw [run_sweep keyed, hreturned, hswept]
  rfl

section Readable

variable {s : Store}

/-- A sweep of a store declines every payment that is open and expired. -/
theorem get?_sweep (h : s.Sweepable) (id : String) :
    ((sweep limit now).run s).storage.payments.get? id =
      (s.payments.get? id).map fun p => if p.Lapses limit now then p.lapsed now else p := by
  have hreadable := Program.run_of_readable (ExceptT.run (sweep limit now)) s
  have hswept := run_sweep (w := ⟨s, fun _ => none⟩) h.keyed limit now
  have hstore : ((sweep limit now).run s).storage = (Unread.swept ⟨s, fun _ => none⟩ limit now
      ((s.findOverdue limit now).map Payment.requestId)).store :=
    congrArg (·.storage.store) (hreadable.symm.trans hswept)
  rw [hstore, Unread.swept_findOverdue (w := ⟨s, fun _ => none⟩) h.keyed, Table.get?_alter]
  refine Option.map_congr fun p stored => ?_
  by_cases lapses : p.Lapses limit now
  · rw [if_pos ⟨rfl, lapses⟩, if_pos lapses, h.closed_eq stored lapses]
  · rw [if_neg fun declined => lapses declined.2, if_neg lapses]

/-- A sweep of a store returns the payments that it declines. -/
theorem result_sweep (keyed : s.Keyed) (limit : UInt64) (now : Instant) :
    ((sweep limit now).run s).result =
      .ok (Unread.returned ⟨s, fun _ => none⟩ limit now (s.findOverdue limit now)) := by
  have hreadable := Program.run_of_readable (ExceptT.run (sweep limit now)) s
  have hsweep := run_sweep (w := ⟨s, fun _ => none⟩) keyed limit now
  exact congrArg Program.Outcome.result (hreadable.symm.trans hsweep)

/-- After a sweep of a store no payment is left to be declined at that time. -/
theorem not_lapses_sweep (h : s.Sweepable) {id : String}
    (stored : ((sweep limit now).run s).storage.payments.get? id = some q) :
    ¬ q.Lapses limit now := by
  rw [get?_sweep h] at stored
  obtain ⟨p, -, rfl⟩ := Option.map_eq_some_iff.mp stored
  split
  · exact fun again => absurd again.1 nofun
  · next stays => exact stays

/-- A sweep of a store that holds nothing to decline does nothing. -/
theorem run_sweep_idle (keyed : s.Keyed)
    (settled : ∀ id p, s.payments.get? id = some p → ¬ p.Lapses limit now) :
    (sweep limit now).run s = ⟨.ok [], s, []⟩ := by
  have hreadable := Program.run_of_readable (ExceptT.run (sweep limit now)) s
  have hidle := run_sweep_of_settled (w := ⟨s, fun _ => none⟩) keyed
    fun id p hp _ => settled id p hp
  let seen (o : Program.Outcome (Except Fault (List Payment)) Unread) :
      Program.Outcome (Except Fault (List Payment)) Store := ⟨o.result, o.storage.store, o.notices⟩
  exact congrArg seen (hreadable.symm.trans hidle)

end Readable

end Operation

end Clearing
