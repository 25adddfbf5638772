import Clearing.Operation.Sweep

/-!
# What programs ensure in a world

A world says which calls a program may make, how they can be answered and what notices do to it. A
program ensures a property when every way through it makes allowed calls only and ends with a result
and a world that have the property. The rules follow the program: each step of an operation is
replaced by what it asks of the rest.
-/

namespace Clearing

/-- What surrounds a program, seen in a state of whatever matters there. -/
structure World (σ : Type) where
  /-- The calls that a program may make. -/
  allows : σ → Call → Prop
  /-- The answers that a call can get, each with the state that it leaves. -/
  answers : σ → (c : Call) → Except Fault c.Answer → σ → Prop
  /-- The state after a notice. -/
  hears : σ → Notice → σ

variable {σ α β : Type}

/-- Every way through the program is allowed and ends with the property. -/
def Program.Ensures (w : World σ) (post : α → σ → Prop) : Program α → σ → Prop
  | .done a, s => post a s
  | .call c next, s =>
      w.allows s c ∧ ∀ answer after, w.answers s c answer after →
        (next answer).Ensures w post after
  | .send notice next, s => next.Ensures w post (w.hears s notice)

/-- A sequence ensures what its first part leaves to the second. -/
theorem Program.ensures_bind {w : World σ} {post : β → σ → Prop} (p : Program α)
    (f : α → Program β) (s : σ) :
    (p.bind f).Ensures w post s ↔ p.Ensures w (fun a after => (f a).Ensures w post after) s := by
  induction p generalizing s with
  | done a => rfl
  | call c next ih => simp only [bind_call, Ensures, ih]
  | send notice next ih => exact ih (w.hears s notice)

/-- A property that follows from an ensured one is ensured. -/
theorem Program.Ensures.mono {w : World σ} {post weaker : α → σ → Prop} {p : Program α} {s : σ}
    (h : p.Ensures w post s) (hw : ∀ a after, post a after → weaker a after) :
    p.Ensures w weaker s := by
  induction p generalizing s with
  | done a => exact hw a s h
  | call c next ih => exact ⟨h.1, fun answer after ha => ih answer (h.2 answer after ha)⟩
  | send notice next ih => exact ih h

namespace Operation

/-- What an operation ensures of its result or fault and of the world that it leaves. -/
def Ensures (w : World σ) (post : Except Fault α → σ → Prop) (op : Operation α) (s : σ) : Prop :=
  Program.Ensures w post (ExceptT.run op) s

theorem Ensures.mono {w : World σ} {post weaker : Except Fault α → σ → Prop} {op : Operation α}
    {s : σ} (h : op.Ensures w post s) (hw : ∀ r after, post r after → weaker r after) :
    op.Ensures w weaker s :=
  Program.Ensures.mono h hw

variable {w : World σ} {post : Except Fault α → σ → Prop} {s : σ}

@[simp] theorem ensures_pure (a : α) :
    (pure a : Operation α).Ensures w post s ↔ post (.ok a) s := Iff.rfl

@[simp] theorem ensures_ofExcept (result : Except Fault α) :
    (ofExcept result).Ensures w post s ↔ post result s := Iff.rfl

@[simp] theorem ensures_notify {post : Except Fault Unit → σ → Prop} (notice : Notice) :
    (notify notice).Ensures w post s ↔ post (.ok ()) (w.hears s notice) := Iff.rfl

/-- A call is allowed and every answer to it has the property. -/
theorem ensures_ask {c : Call} {post : Except Fault c.Answer → σ → Prop} :
    (ask c).Ensures w post s ↔
      w.allows s c ∧ ∀ answer after, w.answers s c answer after → post answer after := Iff.rfl

/-- What is left of a property once the first operation has ended. -/
def Rest (w : World σ) (post : Except Fault β → σ → Prop) (f : α → Operation β) :
    Except Fault α → σ → Prop
  | .ok a, after => (f a).Ensures w post after
  | .error fault, after => post (.error fault) after

@[simp] theorem rest_ok {post : Except Fault β → σ → Prop} (f : α → Operation β) (a : α) :
    Rest w post f (.ok a) s ↔ (f a).Ensures w post s := Iff.rfl

/-- Operations one after the other; a fault of the first is the fault of both. -/
@[simp] theorem ensures_bind {post : Except Fault β → σ → Prop} (op : Operation α)
    (f : α → Operation β) :
    (op >>= f : Operation β).Ensures w post s ↔ op.Ensures w (Rest w post f) s := by
  refine (Program.ensures_bind (ExceptT.run op) (ExceptT.bindCont f) s).trans ⟨?_, ?_⟩ <;>
  · intro h
    refine h.mono fun r after hr => ?_
    cases r <;> exact hr

/-- A tolerated fault is no result. -/
theorem ensures_tolerate {op : Operation (Option α)}
    {post : Except Fault (Option α) → σ → Prop}
    (h : op.Ensures w (fun r after => match r with
      | .ok a => post (.ok a) after
      | .error _ => post (.ok none) after) s) : (tolerate op).Ensures w post s := by
  refine (Program.ensures_bind (ExceptT.run op) _ s).mpr (h.mono fun r after hr => ?_)
  cases r <;> exact hr

end Operation

end Clearing
