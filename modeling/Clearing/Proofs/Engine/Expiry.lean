import Clearing.Proofs.Engine.AnyOrder
import Clearing.Proofs.Engine.WellFormed
import Clearing.Proofs.Operation.Sweeping

/-!
# A sweep declines what is expired

An engine sweeps a store that was left behind, some payments of which cannot be read. It declines
the open payments that are expired and can be read, and no other ones, although it looks for them by
the end of their time limit. What becomes of a record depends on nothing but the record, so the
order of the candidates does not show, and nothing is left for another sweep at the same time.
-/

namespace Clearing

open Clearing.Time

/-- Nothing stands in the way of a sweep of a well-formed store. -/
theorem Store.WellFormed.sweepable {limit : UInt64} {s : Store} (h : s.WellFormed limit) :
    s.Sweepable :=
  ⟨h.keyed, fun id p stored isOpen =>
    (h.records p (Table.mem_values_iff.mpr ⟨id, stored⟩)).unnoted isOpen⟩

namespace Engine

/-- What a sweep makes of an engine, by the payments that it returns. -/
structure Declines (e : Engine Unread) (now : Instant) (declined : List Payment)
    (after : Engine Unread) : Prop where
  /-- The open payments that are expired and can be read are returned, and no other ones. -/
  returned : ∀ q, q ∈ declined ↔ ∃ p ∈ e.storage.store.payments.values,
    e.storage.unreadable p.requestId = none ∧ p.Lapses e.settings.timeLimit now ∧ q = p.lapsed now
  once : (declined.map Payment.requestId).Nodup
  ordered : declined.Pairwise fun p q => p.createdAt ≤ q.createdAt
  /-- Nothing is changed but the records of those payments, and everybody is told of each of
  them. -/
  changed : after =
    { e with
      storage := { e.storage with
        store := { e.storage.store with
          payments := e.storage.store.payments.alter fun id p =>
            if e.storage.unreadable id = none ∧ p.Lapses e.settings.timeLimit now then p.lapsed now
            else p } }
      outbox := e.outbox.acceptAll (declined.flatMap Operation.finalNotices) }
  /-- The same is stored when the candidates are taken in another order. -/
  anyOrder : ∀ candidates,
    candidates.Perm (e.storage.store.findOverdue e.settings.timeLimit now) →
      ((Operation.expireAll e.settings.timeLimit now candidates).run e.storage).storage =
        after.storage
  /-- Another sweep at the same time does nothing. -/
  again : after.sweep now = (.ok [], after)

/-- Every sweep ends with a result, and declines what it is to decline. -/
theorem declines_sweep {e : Engine Unread} (h : e.storage.store.Sweepable) (now : Instant) :
    ∃ declined after, e.sweep now = (.ok declined, after) ∧ e.Declines now declined after := by
  let limit := e.settings.timeLimit
  let candidates := e.storage.store.findOverdue limit now
  let ids := candidates.map Payment.requestId
  let declined := e.storage.returned limit now candidates
  have hrun : (Operation.sweep limit now).run e.storage =
      ⟨.ok declined, e.storage.swept limit now ids, declined.flatMap Operation.finalNotices⟩ :=
    Operation.run_sweep h.keyed limit now
  have hnodup : ids.Nodup := Store.nodup_findOverdue h.keyed limit now
  let after : Engine Unread :=
    { e with
      storage := e.storage.swept limit now ids
      outbox := e.outbox.acceptAll (declined.flatMap Operation.finalNotices) }
  refine ⟨declined, after, ?_, ?_, ?_, ?_, ?_, ?_, ?_⟩
  · rw [sweep, perform, hrun]
  · intro q
    rw [Unread.mem_returned_findOverdue h.keyed]
    refine exists_congr fun p => and_congr_right fun value => and_congr_right fun _ =>
      and_congr_right fun lapses => ?_
    obtain ⟨id, stored⟩ := Table.mem_values_iff.mp value
    rw [h.closed_eq stored lapses]
  · exact Unread.nodup_returned_findOverdue h.keyed
  · exact Unread.pairwise_returned_findOverdue h.keyed
  · have hrecords : e.storage.store.payments.alter (fun id p =>
          if e.storage.unreadable id = none ∧ p.Lapses limit now then p.closed now else p) =
        e.storage.store.payments.alter fun id p =>
          if e.storage.unreadable id = none ∧ p.Lapses limit now then p.lapsed now else p := by
      refine Table.alter_congr fun id p stored => ?_
      split
      · next declined => exact h.closed_eq stored declined.2
      · rfl
    rw [← hrecords]
    exact congrArg (fun w => { after with storage := w }) (Unread.swept_findOverdue h.keyed)
  · intro others hperm
    have hids := hperm.map Payment.requestId
    rw [Operation.run_expireAll h.keyed (hids.nodup_iff.mpr hnodup)]
    exact Unread.swept_perm hids
  · have hagain : (Operation.sweep limit now).run after.storage = ⟨.ok [], after.storage, []⟩ :=
      Operation.run_sweep_of_settled (Unread.keyed_swept h.keyed ids) fun id p stored readable =>
        Unread.not_lapses_swept h.keyed stored readable
    rw [sweep, perform, hagain]
    rfl

end Engine

namespace Inbox

/-- Start from the empty store and do anything that an inbox can be asked to do, while any call of
the store may fail. Whichever of the stores that there have been an engine takes over, whatever its
time limit is and whichever payments it cannot read, a sweep at any time declines the open payments
that are expired and can be read, and no other ones. -/
theorem sweep_declines_expired (settings : Settings) (plan : List (Option Fault)) (outbox : Outbox)
    (running : Bool) (acts : List Act) :
    let start : Engine Watched := ⟨settings, .ofStore .empty plan, outbox, running⟩
    let history := ((ofEngine start).actAll acts).engine.storage.history
    ∀ e : Engine Unread, e.storage.store ∈ history.stores → ∀ now, ∃ declined after,
      e.sweep now = (.ok declined, after) ∧ e.Declines now declined after := by
  intro start history e hs now
  have hwellFormed := (sound_actAll settings plan outbox running acts).wellFormed _ hs
  exact Engine.declines_sweep hwellFormed.sweepable now

/-- The rent is submitted twice and another payment once. -/
def rentAndFood : List Act :=
  rentTwice ++ [.handle (.submit { Sample.rent with requestId := "food" }) .epoch]

/-- An engine over what is stored then, which cannot read the other payment. -/
def foodless : Engine Unread :=
  ⟨.default,
    ⟨((ofEngine ⟨.default, Watched.ofStore .empty [], Sample.outbox, true⟩).actAll
        rentAndFood).engine.storage.history.present,
      fun id => if id = "food" then some (.internal (.storage "cannot read food")) else none⟩,
    Sample.outbox, true⟩

/-- Two days after the epoch. -/
def dayAfterNext : Instant :=
  { Instant.epoch with day := 2, firstDay_le := by decide, le_lastDay := by decide }

/-- The rent is declined two days later, and another sweep finds nothing. The other payment, which
is as old and cannot be read, is left as it is. -/
theorem rent_declined_food_left :
    ∃ declined after, foodless.sweep dayAfterNext = (.ok declined, after) ∧
      rentAgain.lapsed dayAfterNext ∈ declined ∧ (∀ q ∈ declined, q.requestId ≠ "food") ∧
      after.storage.store.payments.get? "food" = foodless.storage.store.payments.get? "food" ∧
      after.sweep dayAfterNext = (.ok [], after) := by
  have reached : foodless.storage.store ∈ ((ofEngine (⟨.default, Watched.ofStore .empty [],
      Sample.outbox, true⟩ : Engine Watched)).actAll rentAndFood).engine.storage.history.stores :=
    List.mem_cons_self
  obtain ⟨declined, after, hsweep, h⟩ :=
    sweep_declines_expired .default [] Sample.outbox true rentAndFood foodless reached dayAfterNext
  refine ⟨declined, after, hsweep, (h.returned _).mpr ?_, fun q hq => ?_, ?_, h.again⟩
  · have stored : rentAgain ∈ foodless.storage.store.payments.values := by decide +kernel
    exact ⟨rentAgain, stored, by decide, by decide +kernel, rfl⟩
  · obtain ⟨p, -, readable, -, rfl⟩ := (h.returned q).mp hq
    exact fun hfood =>
      absurd ((congrArg foodless.storage.unreadable hfood).symm.trans readable) nofun
  · have hunreadable : foodless.storage.unreadable "food" ≠ none := nofun
    simp only [h.changed, Table.get?_alter, hunreadable, false_and, if_false]
    exact Option.map_id_apply

end Inbox

end Clearing
