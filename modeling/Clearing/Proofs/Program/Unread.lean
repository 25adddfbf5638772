import Clearing.Store.Program

/-!
# Stores that cannot read some payments

A store whose reads of some payments end with a fault and which answers every other call. When all
payments can be read, a program runs on it as on the store itself.
-/

namespace Clearing

/-- A store, and the faults with which the reads of some payments end. -/
structure Unread where
  store : Store
  unreadable : String → Option Fault

namespace Unread

/-- Answer a call, unless it is to read a payment that cannot be read. -/
def answer (w : Unread) (c : Call) : Except Fault c.Answer × Unread :=
  match c with
  | .get requestId =>
      match w.unreadable requestId with
      | some fault => (.error fault, w)
      | none => (.ok (w.store.payments.get? requestId), w)
  | c =>
      let (answer, store) := w.store.answer c
      (answer, { w with store := store })

instance : Storage Unread := ⟨answer⟩

theorem answer_of_unreadable {w : Unread} {requestId : String} {fault : Fault}
    (h : w.unreadable requestId = some fault) :
    Storage.answer w (.get requestId) = (.error fault, w) := by
  change w.answer (.get requestId) = _
  simp only [answer, h]

theorem answer_of_none {w : Unread} {requestId : String} (h : w.unreadable requestId = none) :
    Storage.answer w (.get requestId) = (.ok (w.store.payments.get? requestId), w) := by
  change w.answer (.get requestId) = _
  simp only [answer, h]

/-- What a payment is read as. -/
def read (w : Unread) (requestId : String) : Except Fault Payment :=
  match w.unreadable requestId with
  | some fault => .error fault
  | none =>
      match w.store.payments.get? requestId with
      | some p => .ok p
      | none => .error (.unknownPayment requestId)

theorem read_eq_ok_iff {w : Unread} {requestId : String} {p : Payment} :
    w.read requestId = .ok p ↔
      w.unreadable requestId = none ∧ w.store.payments.get? requestId = some p := by
  unfold read
  cases w.unreadable requestId with
  | some fault => simp
  | none => cases w.store.payments.get? requestId <;> simp

/-- A store whose payments can all be read answers every call as the store does. -/
theorem answer_of_readable (s : Store) (c : Call) :
    Storage.answer (⟨s, fun _ => none⟩ : Unread) c =
      ((s.answer c).1, ⟨(s.answer c).2, fun _ => none⟩) := by
  cases c <;> rfl

end Unread

/-- On a store whose payments can all be read a program runs as on the store itself. -/
theorem Program.run_of_readable {α : Type} (p : Program α) (s : Store) :
    p.run (⟨s, fun _ => none⟩ : Unread) =
      ⟨(p.run s).result, ⟨(p.run s).storage, fun _ => none⟩, (p.run s).notices⟩ := by
  induction p generalizing s with
  | done a => rfl
  | call c next ih =>
    rw [run, Unread.answer_of_readable]
    exact ih _ _
  | send notice next ih =>
    rw [run, ih]
    rfl

end Clearing
