import Clearing.Payment.View
import Clearing.Store.Call

/-!
# Programs over the store

An operation is a program: it asks the store one call after the other, each next step depending on
the answer, and it sends notices in between. Between two calls of one program other programs may
take steps of theirs, so a program is data and says nothing of how it is run. Run alone it takes all
its steps at once.
-/

namespace Clearing

/-- Something to be told to the outside world. -/
inductive Notice where
  /-- A change of a payment was stored. -/
  | outcome (view : View)
  /-- A payment waits for its confirmation. -/
  | waiting (pending : Pending)
  /-- A payment waits no longer. -/
  | settled (requestId : String)
  deriving DecidableEq, Repr

/-- The payment that a notice is about. -/
def Notice.requestId : Notice → String
  | .outcome view => view.requestId
  | .waiting pending => pending.requestId
  | .settled requestId => requestId

/-- A sequence of calls and notices that ends with a result. -/
inductive Program (α : Type) : Type where
  | done (result : α)
  | call (c : Call) (next : Except Fault c.Answer → Program α)
  | send (notice : Notice) (next : Program α)

namespace Program

variable {α β : Type}

/-- Go on with the result of a program. -/
def bind : Program α → (α → Program β) → Program β
  | .done a, f => f a
  | .call c next, f => .call c fun answer => (next answer).bind f
  | .send notice next, f => .send notice (next.bind f)

instance : Monad Program where
  pure := .done
  bind := .bind

/-- What a program leaves when it was run alone. -/
structure Outcome (α σ : Type) where
  result : α
  storage : σ
  /-- The notices in the order in which they were sent. -/
  notices : List Notice

/-- Run a program alone. -/
def run {σ : Type} [Storage σ] : Program α → σ → Outcome α σ
  | .done a, s => ⟨a, s, []⟩
  | .call c next, s =>
      let (answer, s) := Storage.answer s c
      (next answer).run s
  | .send notice next, s =>
      let o := next.run s
      { o with notices := notice :: o.notices }

@[simp] theorem bind_done (a : α) (f : α → Program β) : (Program.done a).bind f = f a := rfl

@[simp] theorem bind_call (c : Call) (next : Except Fault c.Answer → Program α)
    (f : α → Program β) : (Program.call c next).bind f = .call c fun a => (next a).bind f := rfl

@[simp] theorem bind_send (notice : Notice) (next : Program α) (f : α → Program β) :
    (Program.send notice next).bind f = .send notice (next.bind f) := rfl

/-- A sequence of programs runs the second where the first ended. -/
theorem run_bind {σ : Type} [Storage σ] (p : Program α) (f : α → Program β) (s : σ) :
    (p.bind f).run s =
      let first := p.run s
      let second := (f first.result).run first.storage
      ⟨second.result, second.storage, first.notices ++ second.notices⟩ := by
  induction p generalizing s with
  | done a => rfl
  | call c next ih => simp only [bind_call, run, ih]
  | send notice next ih => simp only [bind_send, run, ih, List.cons_append]

end Program

/-- A program that may end with a fault. -/
abbrev Operation (α : Type) : Type := ExceptT Fault Program α

namespace Operation

/-- Ask the store. -/
def ask (c : Call) : Operation c.Answer := Program.call c Program.done

/-- Send a notice. -/
def notify (notice : Notice) : Operation Unit := Program.send notice (.done (.ok ()))

/-- End with a fault. -/
def fail {α : Type} (fault : Fault) : Operation α := Program.done (.error fault)

/-- Take a result or a fault that is already there. -/
def ofExcept {α : Type} (result : Except Fault α) : Operation α := Program.done result

variable {α β σ : Type} [Storage σ]

/-- Run an operation alone. -/
def run (op : Operation α) (s : σ) : Program.Outcome (Except Fault α) σ :=
  Program.run (ExceptT.run op) s

/-- A result alone leaves the storage as it is and sends nothing. -/
@[simp] theorem run_pure (a : α) (s : σ) : (pure a : Operation α).run s = ⟨.ok a, s, []⟩ := rfl

/-- A call alone is answered by the storage and sends nothing. -/
@[simp] theorem run_ask (c : Call) (s : σ) :
    (ask c).run s = ⟨(Storage.answer s c).1, (Storage.answer s c).2, []⟩ := rfl

/-- A notice alone leaves the storage as it is. -/
@[simp] theorem run_notify (notice : Notice) (s : σ) :
    (notify notice).run s = ⟨.ok (), s, [notice]⟩ := rfl

/-- A fault leaves the storage as it is and sends nothing. -/
@[simp] theorem run_fail (fault : Fault) (s : σ) :
    (fail fault : Operation α).run s = ⟨.error fault, s, []⟩ := rfl

/-- A result that is already there leaves the storage as it is and sends nothing. -/
@[simp] theorem run_ofExcept (result : Except Fault α) (s : σ) :
    (ofExcept result).run s = ⟨result, s, []⟩ := rfl

/-- After a fault nothing more is done. -/
theorem run_bind_of_error {op : Operation α} {s : σ} {fault : Fault}
    (h : (op.run s).result = .error fault) (f : α → Operation β) :
    (op >>= f : Operation β).run s = ⟨.error fault, (op.run s).storage, (op.run s).notices⟩ := by
  have hb := Program.run_bind (ExceptT.run op) (ExceptT.bindCont f) s
  dsimp only at hb
  rw [show (Program.run (ExceptT.run op) s).result = .error fault from h] at hb
  exact hb.trans (congrArg _ (List.append_nil _))

/-- After a result the next operation goes on where the first ended. -/
theorem run_bind_of_ok {op : Operation α} {s : σ} {a : α} (h : (op.run s).result = .ok a)
    (f : α → Operation β) :
    (op >>= f : Operation β).run s =
      let second := (f a).run (op.run s).storage
      ⟨second.result, second.storage, (op.run s).notices ++ second.notices⟩ := by
  have hb := Program.run_bind (ExceptT.run op) (ExceptT.bindCont f) s
  dsimp only at hb
  rw [show (Program.run (ExceptT.run op) s).result = .ok a from h] at hb
  exact hb

end Operation

end Clearing
