import Clearing.Outbox.Topic
import Clearing.Store.Program

/-!
# The outbox

Notices are taken in order. An outcome goes to the feeds of the accounts that hear of it and to the
topic; a payment that waits for its confirmation is remembered until it waits no longer.
-/

namespace Clearing

/-- What is kept for the outside world. -/
structure Outbox where
  capacity : Outbox.Capacity
  feeds : Table (List View)
  waiting : Table Pending
  topic : Outbox.Topic
  deriving DecidableEq, Repr

namespace Outbox

/-- An outbox whose feeds and topic hold so many outcomes. -/
def ofCapacities (feed topic : Nat) : Outbox := ⟨.ofNat feed, .empty, .empty, .ofNat topic⟩

/-- The feed of an account. -/
def feed (o : Outbox) (id : AccountId) : List View := (o.feeds.get? id).getD []

/-- Add an outcome to the feed of an account. -/
def deliver (o : Outbox) (v : View) (id : AccountId) : Outbox :=
  { o with feeds := o.feeds.put id (push o.capacity (o.feed id) v) }

/-- Send an outcome to all who hear of it. -/
def publish (o : Outbox) (v : View) : Outbox :=
  let o := (listeners v).foldl (·.deliver v) o
  { o with topic := o.topic.publish v }

/-- Take a notice. -/
def accept (o : Outbox) : Notice → Outbox
  | .outcome v => o.publish v
  | .waiting p => { o with waiting := o.waiting.put p.requestId p }
  | .settled requestId => { o with waiting := o.waiting.erase requestId }

/-- Take notices in order. -/
def acceptAll (o : Outbox) (notices : List Notice) : Outbox := notices.foldl accept o

/-- Hand over the feed of an account and forget it. -/
def drain (o : Outbox) (id : AccountId) : List View × Outbox :=
  (o.feed id, { o with feeds := o.feeds.erase id })

/-- The payment of a request, if it waits for its confirmation. -/
def pending? (o : Outbox) (requestId : String) : Option Pending := o.waiting.get? requestId

/-- The payments to a payee that wait for their confirmation, in the order of their requests. -/
def pendingFor (o : Outbox) (payee : AccountId) : List Pending :=
  (o.waiting.values.filter (·.payee == payee)).mergeSort fun a b => a.requestId ≤ b.requestId

/-- Receive from the topic. -/
def receive (o : Outbox) : Topic.Received × Outbox :=
  let (received, topic) := o.topic.receive
  (received, { o with topic := topic })

/-- Taking notices one after the other is taking them all. -/
theorem acceptAll_append (o : Outbox) (a b : List Notice) :
    o.acceptAll (a ++ b) = (o.acceptAll a).acceptAll b := by
  simp [acceptAll]

/-- A delivery ends up in the feed of its account and in no other. -/
theorem feed_deliver (o : Outbox) (v : View) (id other : AccountId) :
    (o.deliver v id).feed other =
      if id = other then push o.capacity (o.feed id) v else o.feed other := by
  by_cases h : id = other <;> simp [deliver, feed, h]

end Outbox

end Clearing
