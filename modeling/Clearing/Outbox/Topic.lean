import Clearing.Outbox.Feed

/-!
# The topic

The topic keeps every outcome for one subscriber until it is received. It holds a power of two of
them; when it is full the oldest is lost, and the subscriber is told how many it has missed.
-/

namespace Clearing.Outbox

/-- Outcomes that wait to be received. -/
structure Topic where
  capacity : Capacity
  queue : List View
  /-- How many were lost since the last time. -/
  lost : Nat
  deriving DecidableEq, Repr

namespace Topic

/-- An empty topic that holds at least the wanted number of outcomes. -/
def ofNat (wanted : Nat) : Topic := ⟨.ofNat (Nat.nextPowerOfTwo (max wanted 1)), [], 0⟩

/-- Add an outcome. -/
def publish (t : Topic) (v : View) : Topic :=
  { t with
    queue := push t.capacity t.queue v
    lost := if t.queue.length = t.capacity.bound then t.lost + 1 else t.lost }

/-- What a subscriber receives. -/
structure Received where
  lost : Nat
  views : List View
  deriving DecidableEq, Repr

/-- Hand over everything that waits. -/
def receive (t : Topic) : Received × Topic := (⟨t.lost, t.queue⟩, { t with queue := [], lost := 0 })

end Topic

end Clearing.Outbox
