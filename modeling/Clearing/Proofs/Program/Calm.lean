import Clearing.Proofs.Program.World

/-!
# Programs whose calls never fail

A program that runs alone on a plain store gets the answer of the store to each of its calls. What
it ensures in that world is what becomes of it.
-/

namespace Clearing

/-- A store, and the notices that a program has sent so far. -/
structure Scene where
  store : Store
  /-- The notices in the order in which they were sent. -/
  sent : List Notice

/-- The world of a program that runs alone and whose calls never fail. -/
def calm : World Scene where
  allows _ _ := True
  answers w c answer after :=
    answer = (w.store.answer c).1 ∧ after = { w with store := (w.store.answer c).2 }
  hears w notice := { w with sent := w.sent ++ [notice] }

@[simp] theorem calm_hears (w : Scene) (notice : Notice) :
    calm.hears w notice = { w with sent := w.sent ++ [notice] } := rfl

/-- What a program ensures when no call fails holds after it was run on a store. -/
theorem Program.Ensures.run_calm {α : Type} {p : Program α} {post : α → Scene → Prop} {s : Store}
    {sent : List Notice} (h : p.Ensures calm post ⟨s, sent⟩) :
    post (p.run s).result ⟨(p.run s).storage, sent ++ (p.run s).notices⟩ := by
  induction p generalizing s sent with
  | done a =>
    rw [Program.run, List.append_nil]
    exact h
  | call c next ih => exact ih _ (h.2 _ _ ⟨rfl, rfl⟩)
  | send notice next ih =>
    have hn := ih h
    simpa [Program.run] using hn

namespace Operation

/-- A call is answered by the store. -/
theorem ensures_ask_calm {c : Call} {post : Except Fault c.Answer → Scene → Prop} {w : Scene} :
    (ask c).Ensures calm post w ↔
      post (w.store.answer c).1 { w with store := (w.store.answer c).2 } := by
  constructor
  · intro h
    exact h.2 _ _ ⟨rfl, rfl⟩
  · intro h
    refine ⟨trivial, ?_⟩
    rintro answer after ⟨rfl, rfl⟩
    exact h

end Operation

end Clearing
