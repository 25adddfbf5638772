import Clearing.Outbox.Basic
import Mathlib.Data.List.DropRight
import Mathlib.Data.List.Forall2

/-!
# What a feed holds

The outcomes of payments are published and feeds are handed over, in any order. A feed shows the
newest of the payments whose outcomes came for its account since it was handed over the last time,
oldest first and as many as fit. Whatever happens to the outbox leaves the feeds of the accounts
that it is not about.
-/

namespace Clearing

/-- Whether a view shows a payment as it is. -/
structure View.Shows (v : View) (p : Payment) : Prop where
  requestId : v.requestId = p.requestId
  amount : v.amount = p.amount
  payer : v.payer = p.payer
  payee : v.payee = p.payee
  status : v.status = p.status
  createdAt : v.createdAt = p.createdAt
  processedAt : v.processedAt = p.processedAt
  message : v.message = p.failureMessage

theorem Payment.shows_view (p : Payment) : p.view.Shows p :=
  ⟨rfl, rfl, rfl, rfl, rfl, rfl, rfl, rfl⟩

namespace Outbox

variable {id : AccountId}

/-- Something that happens to an outbox. -/
inductive Event where
  /-- The outcome of a payment is published. -/
  | publish (p : Payment)
  /-- A payment waits for its confirmation from now on. -/
  | await (p : Pending)
  /-- The payment of a request waits no longer. -/
  | settle (requestId : String)
  /-- A feed is handed over. -/
  | drain (id : AccountId)
  deriving DecidableEq

namespace Event

/-- The payments whose outcomes come for an account. The payer hears of every outcome and the payee
of money that arrived, so one who is both hears of that twice. -/
def routed (id : AccountId) : Event → List Payment
  | .publish p =>
      (if p.status = .completed ∧ p.payee = id then [p] else []) ++ if p.payer = id then [p] else []
  | .await _ | .settle _ | .drain _ => []

/-- Whether an event is about the feed of an account. -/
inductive Concerns (id : AccountId) : Event → Prop
  | payer {p : Payment} (pays : p.payer = id) : Concerns id (.publish p)
  | payee {p : Payment} (arrived : p.status = .completed) (receives : p.payee = id) :
      Concerns id (.publish p)
  | drained : Concerns id (.drain id)

/-- Nothing comes for an account that an event is not about. -/
theorem routed_of_not_concerns {e : Event} (h : ¬ e.Concerns id) : e.routed id = [] := by
  cases e with
  | await | settle | drain => rfl
  | publish p =>
    have hpayer : p.payer ≠ id := fun pays => h (.payer pays)
    have hpayee : ¬ (p.status = .completed ∧ p.payee = id) := fun hears =>
      h (.payee hears.1 hears.2)
    rw [routed, if_neg hpayee, if_neg hpayer]
    rfl

end Event

/-- The outbox after an event. -/
def after (o : Outbox) : Event → Outbox
  | .publish p => o.accept (.outcome p.view)
  | .await p => o.accept (.waiting p)
  | .settle requestId => o.accept (.settled requestId)
  | .drain id => (o.drain id).2

/-- The outbox after events in their order. -/
def afterAll (o : Outbox) (events : List Event) : Outbox := events.foldl after o

/-- The payments whose outcomes came for an account since its feed was handed over the last time,
oldest first. -/
def unread (id : AccountId) (events : List Event) : List Payment :=
  (events.rtakeWhile fun e => e ≠ .drain id).flatMap (Event.routed id)

theorem unread_concat (id : AccountId) (events : List Event) (e : Event) :
    unread id (events ++ [e]) = if e = .drain id then [] else unread id events ++ e.routed id := by
  by_cases h : e = .drain id <;> simp [unread, h]

/-- The newest of some, with one more pushed on them, are the newest of all. -/
theorem push_rtake {α : Type} (c : Capacity) (xs : List α) (x : α) :
    push c (xs.rtake c.bound) x = (xs ++ [x]).rtake c.bound := by
  have hpos := c.positive
  simp only [push, List.rtake, List.length_drop, List.length_append, List.length_singleton]
  by_cases room : xs.length < c.bound
  · have hall : xs.length - c.bound = 0 := by omega
    have hnext : xs.length + 1 - c.bound = 0 := by omega
    rw [hall, hnext, Nat.sub_zero, if_neg (Nat.ne_of_lt room), List.drop_zero, List.drop_zero]
  · have hfull : xs.length - (xs.length - c.bound) = c.bound := by omega
    have hnext : xs.length + 1 - c.bound = xs.length - c.bound + 1 := by omega
    rw [if_pos hfull, List.drop_drop, hnext, List.drop_append_of_le_length (by omega)]

/-- Pushing one after the other keeps the newest of all. -/
theorem foldl_push_rtake {α : Type} (c : Capacity) (xs ys : List α) :
    ys.foldl (push c) (xs.rtake c.bound) = (xs ++ ys).rtake c.bound := by
  induction ys generalizing xs with
  | nil => rw [List.foldl_nil, List.append_nil]
  | cons y ys ih => rw [List.foldl_cons, push_rtake, ih, List.append_assoc, List.singleton_append]

/-- The view of a payment is pushed on the feed of an account as often as the outcome comes for
it. -/
theorem feed_publish (o : Outbox) (p : Payment) (id : AccountId) :
    (o.publish p.view).feed id =
      (((Event.publish p).routed id).map Payment.view).foldl (push o.capacity) (o.feed id) := by
  have hfeed (o : Outbox) (t : Topic) : ({ o with topic := t } : Outbox).feed id = o.feed id := rfl
  have hcapacity (other : AccountId) : (o.deliver p.view other).capacity = o.capacity := rfl
  have shows := p.shows_view
  simp only [publish, hfeed, listeners, Event.routed, shows.status, shows.payee, shows.payer]
  by_cases arrived : p.status = .completed <;> by_cases hpayee : p.payee = id <;>
    by_cases hpayer : p.payer = id <;>
    simp [arrived, hpayee, hpayer, feed_deliver, hcapacity]

/-- An event empties the feed that is handed over, and pushes on the others what comes for them. -/
theorem feed_after (o : Outbox) (e : Event) (id : AccountId) :
    (o.after e).feed id = if e = .drain id then []
      else ((e.routed id).map Payment.view).foldl (push o.capacity) (o.feed id) := by
  cases e with
  | drain other => by_cases h : other = id <;> simp [after, drain, feed, Event.routed, h]
  | publish p =>
    rw [if_neg Event.noConfusion]
    exact feed_publish o p id
  | await | settle =>
    rw [if_neg Event.noConfusion]
    rfl

theorem capacity_after (o : Outbox) (e : Event) : (o.after e).capacity = o.capacity := by
  cases e with
  | await | settle | drain => rfl
  | publish p =>
    simp only [after, accept, publish, listeners]
    split <;> rfl

theorem capacity_afterAll (o : Outbox) (events : List Event) :
    (o.afterAll events).capacity = o.capacity := by
  induction events generalizing o with
  | nil => rfl
  | cons e events ih => exact (ih (o.after e)).trans (o.capacity_after e)

/-- A feed holds the newest of what came for its account since it was handed over. -/
theorem feed_afterAll (wanted topic : Nat) (events : List Event) (id : AccountId) :
    ((ofCapacities wanted topic).afterAll events).feed id =
      ((unread id events).map Payment.view).rtake (max wanted 1) := by
  induction events using List.reverseRecOn with
  | nil => exact (List.rtake_nil (max wanted 1)).symm
  | append_singleton events e ih =>
    have hlast : (ofCapacities wanted topic).afterAll (events ++ [e]) =
        ((ofCapacities wanted topic).afterAll events).after e := by
      rw [afterAll, List.foldl_append]
      rfl
    rw [hlast, feed_after, unread_concat, capacity_afterAll, ih]
    split
    · exact (List.rtake_nil (max wanted 1)).symm
    · rw [List.map_append]
      exact foldl_push_rtake (.ofNat wanted) _ _

/-- Let the outcomes of any payments be published to an outbox with feeds of any capacity, where
none counts as one, and let any feeds be handed over. The feed that is handed over next shows the
newest payments whose outcomes came for its account since the last time, in their order, and all of
them if they fit. An event leaves the feeds that it is not about. -/
theorem drain_newest (wanted topic : Nat) (events : List Event) :
    let o := (ofCapacities wanted topic).afterAll events
    (∀ id, ∃ newest, newest <:+ unread id events ∧
      newest.length = min (unread id events).length (max wanted 1) ∧
      List.Forall₂ View.Shows (o.drain id).1 newest) ∧
    ∀ e id, ¬ e.Concerns id → ((o.after e).drain id).1 = (o.drain id).1 := by
  intro o
  refine ⟨fun id => ⟨(unread id events).rtake (max wanted 1), List.drop_suffix _ _, ?_, ?_⟩,
    fun e id unconcerned => ?_⟩
  · rw [List.rtake, List.length_drop]
    omega
  · have hfeed : (o.drain id).1 = ((unread id events).rtake (max wanted 1)).map Payment.view := by
      rw [List.rtake, List.map_drop, ← List.length_map (f := Payment.view)]
      exact feed_afterAll wanted topic events id
    rw [hfeed, List.forall₂_map_left_iff, List.forall₂_same]
    exact fun p _ => p.shows_view
  · have other : e ≠ .drain id := by
      rintro rfl
      exact unconcerned .drained
    change (o.after e).feed id = o.feed id
    rw [feed_after, if_neg other, Event.routed_of_not_concerns unconcerned, List.map_nil,
      List.foldl_nil]

end Outbox

end Clearing
