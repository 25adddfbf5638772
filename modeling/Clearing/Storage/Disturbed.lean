import Clearing.Store.Call

/-!
# Disturbed storages

A storage whose calls can be disturbed. A disturbance waits for calls of one kind, lets some of them
pass and then acts on some: right before the call another writer stores a payment or an account, and
the call may fail instead of being answered.
-/

namespace Clearing

/-- Something that happens right before a call. -/
structure Disturbance where
  kind : Call.Kind
  /-- The request or account that the call has to be about, if not any. -/
  subject : Option String
  /-- How many matching calls pass first. -/
  skip : Nat
  /-- On how many calls it acts. -/
  times : Nat
  payment : Option Payment
  account : Option Account
  /-- What the storage says when it fails. -/
  failure : Option String
  deriving DecidableEq, Repr

namespace Disturbance

/-- Whether a call is waited for. -/
def meets (d : Disturbance) (c : Call) : Bool :=
  d.kind == c.kind && d.subject.all (· == c.subject) && 0 < d.times

/-- Whether the disturbance acts on a call. -/
def acts (d : Disturbance) (c : Call) : Bool := d.meets c && d.skip == 0

/-- What is left of a disturbance after a call. -/
def spend (d : Disturbance) (c : Call) : Disturbance :=
  if !d.meets c then d
  else if d.skip = 0 then { d with times := d.times - 1 } else { d with skip := d.skip - 1 }

end Disturbance

/-- Write a payment over whatever version is stored, or as a new one. -/
def Store.overwrite (s : Store) (p : Payment) : Store :=
  match s.payments.get? p.requestId with
  | some stored => (s.update p stored.version).2
  | none => (s.insert p).2

/-- Let another writer act. -/
def Disturbance.write (d : Disturbance) (s : Store) : Store :=
  let s := d.payment.elim s s.overwrite
  d.account.elim s s.putAccount

/-- Let disturbances act in order, up to the first that makes the call fail. -/
def Disturbance.actAll : List Disturbance → Store → Option Fault × Store
  | [], s => (none, s)
  | d :: rest, s =>
      match d.failure with
      | some text => (some (.internal (.storage text)), d.write s)
      | none => actAll rest (d.write s)

/-- A store and what disturbs it. -/
structure Disturbed where
  store : Store
  disturbances : List Disturbance
  deriving DecidableEq, Repr

/-- Answer a call after everything that happens before it. -/
def Disturbed.answer (s : Disturbed) (c : Call) : Except Fault c.Answer × Disturbed :=
  let acting := s.disturbances.filter (·.acts c)
  let left := s.disturbances.map (·.spend c)
  match Disturbance.actAll acting s.store with
  | (some fault, store) => (.error fault, ⟨store, left⟩)
  | (none, store) =>
      let (answer, store) := store.answer c
      (answer, ⟨store, left⟩)

instance : Storage Disturbed := ⟨Disturbed.answer⟩

/-- A storage that nothing disturbs answers as its store does. -/
theorem Disturbed.answer_of_calm (s : Store) (c : Call) :
    Disturbed.answer ⟨s, []⟩ c = ((s.answer c).1, ⟨(s.answer c).2, []⟩) := rfl

end Clearing
