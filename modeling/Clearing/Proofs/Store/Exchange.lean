import Clearing.Proofs.Operation.Discipline
import Clearing.Proofs.Store.Values
import Clearing.Proofs.Store.Write

/-!
# Exchanges with a store

An exchange stores a record, is refused to store one because another writer was faster, or does
neither. A record is stored under its own name, over the version that the call expects, and nothing
else of the payments changes.
-/

namespace Clearing

namespace Exchange

/-- The record that an exchange stores. -/
def stored? : Exchange → Option Payment
  | ⟨.insert _, .ok q⟩ => some q
  | ⟨.update q _, .ok .applied⟩ => some q
  | ⟨.commitTransfer q _ _, .ok .settled⟩ => some q
  | _ => none

/-- The record that an exchange does not store because another writer was faster. -/
def refused? : Exchange → Option Payment
  | ⟨.insert q, .error (.conflict _)⟩ => some q
  | ⟨.update q _, .ok .conflict⟩ => some q
  | ⟨.commitTransfer q _ _, .ok .conflict⟩ => some q
  | _ => none

/-- Whether an exchange is one with a store that has every record under its own name. -/
def Keyed : Exchange → Prop
  | ⟨.get id, .ok (some p)⟩ => p.requestId = id
  | ⟨.insert p, .ok q⟩ => q.requestId = p.requestId
  | ⟨.findOverdue _ _, .ok ps⟩ => (ps.map (·.requestId)).Nodup
  | _ => True

/-- A call that fails says nothing about the store. -/
theorem keyed_error (c : Call) (fault : Fault) : (Exchange.mk c (.error fault)).Keyed := by
  cases c <;> trivial

/-- A call that fails stores nothing. -/
@[simp] theorem stored?_error (c : Call) (fault : Fault) :
    (Exchange.mk c (.error fault)).stored? = none := by
  cases c <;> rfl

/-- What is refused is not stored. -/
theorem unstored_of_refused {e : Exchange} {q : Payment} (h : e.refused? = some q) :
    e.stored? = none := by
  unfold refused? at h
  split at h
  · rfl
  · rfl
  · rfl
  · exact absurd h nofun

/-- Whether an exchange neither stores a record nor is refused to do so. -/
structure Plain (e : Exchange) : Prop where
  unstored : e.stored? = none
  unrefused : e.refused? = none

variable {e : Exchange} {q : Payment}

theorem Plain.stored_ne (h : e.Plain) (q : Payment) : e.stored? ≠ some q := by
  rw [h.unstored]
  exact nofun

theorem Plain.refused_ne (h : e.Plain) (q : Payment) : e.refused? ≠ some q := by
  rw [h.unrefused]
  exact nofun

theorem stored_ne_of_refused (h : e.refused? = some q) (p : Payment) : e.stored? ≠ some p := by
  rw [unstored_of_refused h]
  exact nofun

end Exchange

/-- The record that a call is to write over a version of it. -/
def Call.replaces? : Call → Option (Payment × UInt64)
  | .update q version => some (q, version)
  | .commitTransfer q version _ => some (q, version)
  | _ => none

/-- A record is stored by a first write or over a version of it. -/
theorem Exchange.insert_or_replaces {e : Exchange} {q : Payment} (h : e.stored? = some q) :
    (∃ p, e.call = .insert p) ∨ ∃ version, e.call.replaces? = some (q, version) := by
  unfold stored? at h
  split at h
  · exact .inl ⟨_, rfl⟩
  · cases h
    exact .inr ⟨_, rfl⟩
  · cases h
    exact .inr ⟨_, rfl⟩
  · exact absurd h nofun

/-- What a request writes over a version it has made of a record that it has read. -/
theorem Call.Justified.of_replaces {limit : UInt64} {r : Request} {past : List Exchange} {c : Call}
    {q : Payment} {version : UInt64} (h : c.Justified limit r past)
    (replaces : c.replaces? = some (q, version)) :
    ∃ p, Read past p ∧ version = p.version ∧ p.Change limit r q := by
  cases c with
  | update =>
    cases replaces
    obtain ⟨p, read, hversion, change, -⟩ := h
    exact ⟨p, read, hversion, change⟩
  | commitTransfer =>
    cases replaces
    obtain ⟨p, read, hversion, change, -⟩ := h
    exact ⟨p, read, hversion, change⟩
  | get | insert | findOverdue | allPayments | storeAccount | getAccount | allAccounts =>
    exact absurd replaces nofun

namespace Store

variable {s : Store} {c : Call} {q : Payment}

/-- The answers of a store with every record under its own name. -/
theorem Keyed.exchange (h : s.Keyed) (c : Call) : (Exchange.mk c (s.answer c).1).Keyed := by
  cases c with
  | get id =>
    change Exchange.Keyed ⟨.get id, .ok (s.payments.get? id)⟩
    cases hp : s.payments.get? id with
    | none => trivial
    | some p => exact h id p hp
  | insert p =>
    change Exchange.Keyed ⟨.insert p, (s.insert p).1⟩
    unfold Store.insert
    split
    · trivial
    · exact rfl
  | findOverdue limit now =>
    change ((s.findOverdue limit now).map Payment.requestId).Nodup
    have hsorted := List.mergeSort_perm (s.payments.values.filter (overdue limit now)) createdBefore
    refine (hsorted.map _).nodup_iff.mpr ?_
    exact (Table.nodup_map_values h).sublist (List.filter_sublist.map _)
  | update | allPayments | storeAccount | getAccount | allAccounts | commitTransfer => trivial

/-- A write is admitted over the expected version of a record that is not final. -/
theorem accepts_iff {id : String} {version : UInt64} :
    s.accepts id version = true ↔
      ∃ p, s.payments.get? id = some p ∧ p.version = version ∧ p.status.terminal = false := by
  unfold accepts
  cases s.payments.get? id with
  | none => simp
  | some p => simp

/-- What a call stores, and what was stored there before. -/
inductive Stores (s : Store) : Call → Payment → Prop
  | inserted {p : Payment} (absent : s.payments.get? p.requestId = none) :
      Stores s (.insert p) (p.numbered (s.lastId + 1))
  | replaced {c : Call} {p q : Payment} (replaces : c.replaces? = some (q, p.version))
      (stored : s.payments.get? q.requestId = some p) (isOpen : p.status.terminal = false) :
      Stores s c q

/-- Why a call is refused. -/
inductive Refuses (s : Store) : Call → Payment → Prop
  | present {p q : Payment} (stored : s.payments.get? q.requestId = some p) :
      Refuses s (.insert q) q
  | overtaken {c : Call} {p q : Payment} {version : UInt64}
      (replaces : c.replaces? = some (q, version))
      (stored : s.payments.get? q.requestId = some p)
      (newer : p.version ≠ version ∨ p.status.terminal = true) : Refuses s c q
  | absent {c : Call} {q : Payment} {version : UInt64} (replaces : c.replaces? = some (q, version))
      (unstored : s.payments.get? q.requestId = none) : Refuses s c q

theorem stores_of_accepts {version : UInt64} (replaces : c.replaces? = some (q, version))
    (accepts : s.accepts q.requestId version = true) : s.Stores c q := by
  obtain ⟨p, stored, rfl, isOpen⟩ := accepts_iff.mp accepts
  exact .replaced replaces stored isOpen

theorem refuses_of_not_accepts (version : UInt64) (replaces : c.replaces? = some (q, version))
    (refused : s.accepts q.requestId version ≠ true) : s.Refuses c q := by
  cases hp : s.payments.get? q.requestId with
  | none => exact .absent replaces hp
  | some p =>
    refine .overtaken replaces hp ?_
    by_cases hversion : p.version = version
    · refine .inr ?_
      rw [← Bool.not_eq_false]
      exact fun isOpen => refused (accepts_iff.mpr ⟨p, hp, hversion, isOpen⟩)
    · exact .inl hversion

/-- What becomes of a store when it answers a call: a record is stored, or it is as before unless an
account was stored. -/
inductive Answered (s : Store) (c : Call) : Prop
  | stored {q : Payment} (log : (Exchange.mk c (s.answer c).1).stored? = some q)
      (stores : s.Stores c q) (payments : (s.answer c).2.payments = s.payments.put q.requestId q)
  | refused {q : Payment} (log : (Exchange.mk c (s.answer c).1).refused? = some q)
      (refuses : s.Refuses c q) (same : (s.answer c).2 = s)
  | plain (log : (Exchange.mk c (s.answer c).1).Plain)
      (same : (s.answer c).2 = s ∨ ∃ a, c = .storeAccount a)

theorem answered (s : Store) (c : Call) : s.Answered c := by
  cases c with
  | get | findOverdue | allPayments | getAccount | allAccounts =>
    exact .plain ⟨rfl, rfl⟩ (.inl rfl)
  | storeAccount a => exact .plain ⟨rfl, rfl⟩ (.inr ⟨a, rfl⟩)
  | insert p =>
    cases hp : s.payments.get? p.requestId with
    | none =>
      have hanswer : s.answer (.insert p) = (.ok (p.numbered (s.lastId + 1)),
          { s with lastId := s.lastId + 1 }.put (p.numbered (s.lastId + 1))) := by
        simp only [answer, insert, hp]
        rfl
      refine .stored (q := p.numbered (s.lastId + 1)) ?_ (.inserted hp) ?_
      · rw [hanswer]
        rfl
      · rw [hanswer]
        rfl
    | some old =>
      have hanswer : s.answer (.insert p) = (.error (.conflict p.requestId), s) := by
        simp only [answer, insert, hp]
      refine .refused (q := p) ?_ (.present hp) ?_
      · rw [hanswer]
        rfl
      · rw [hanswer]
  | update q version =>
    cases ha : s.accepts q.requestId version with
    | true =>
      have hanswer : s.answer (.update q version) = (.ok .applied, s.put q) := by
        simp only [answer, update_of_accepts ha]
      refine .stored (q := q) ?_ (stores_of_accepts rfl ha) ?_
      · rw [hanswer]
        rfl
      · rw [hanswer]
        rfl
    | false =>
      have hanswer : s.answer (.update q version) = (.ok .conflict, s) := by
        simp only [answer, update_of_not_accepts ha]
      refine .refused (q := q) ?_ (refuses_of_not_accepts version rfl ?_) ?_
      · rw [hanswer]
        rfl
      · rw [ha]
        exact nofun
      · rw [hanswer]
  | commitTransfer q version t =>
    rcases s.commitTransfer_cases q version t with
      ⟨answer, hanswer, unsettled, admitted⟩ | ⟨found, moved, ha, -, -, hanswer⟩
    · have hsame : (s.answer (.commitTransfer q version t)).2 = s := congrArg Prod.snd hanswer
      have hlog : (s.answer (.commitTransfer q version t)).1 = answer := congrArg Prod.fst hanswer
      rcases answer with fault | _ | _ | _
      · exact .plain (hlog ▸ ⟨rfl, rfl⟩) (.inl hsame)
      · exact absurd rfl unsettled
      · exact .plain (hlog ▸ ⟨rfl, rfl⟩) (.inl hsame)
      · refine .refused (q := q) (hlog ▸ rfl) (refuses_of_not_accepts version rfl ?_)
          hsame
        exact fun accepts => admitted accepts rfl
    · have hlog : (s.answer (.commitTransfer q version t)).1 = .ok .settled :=
        congrArg Prod.fst hanswer
      refine .stored (q := q) (hlog ▸ rfl) (stores_of_accepts rfl ha) ?_
      change (s.commitTransfer q version t).2.payments = _
      rw [hanswer]
      rfl

/-- What was stored was admitted, and is all that changes of the payments. -/
theorem stores_of_stored (h : (Exchange.mk c (s.answer c).1).stored? = some q) :
    s.Stores c q ∧ (s.answer c).2.payments = s.payments.put q.requestId q := by
  cases s.answered c with
  | stored log stores payments =>
    cases h.symm.trans log
    exact ⟨stores, payments⟩
  | refused log => exact absurd h (Exchange.stored_ne_of_refused log q)
  | plain log => exact absurd h (log.stored_ne q)

/-- What was refused was refused for a reason. -/
theorem refuses_of_refused (h : (Exchange.mk c (s.answer c).1).refused? = some q) :
    s.Refuses c q := by
  cases s.answered c with
  | stored log => exact absurd log (Exchange.stored_ne_of_refused h _)
  | refused log refuses =>
    cases h.symm.trans log
    exact refuses
  | plain log => exact absurd h (log.refused_ne q)

/-- A store that has stored neither a payment nor an account is as it was. -/
theorem same_of_unstored (h : (Exchange.mk c (s.answer c).1).stored? = none)
    (unopened : ∀ a, c ≠ .storeAccount a) : (s.answer c).2 = s := by
  cases s.answered c with
  | stored log =>
    rw [h] at log
    exact absurd log nofun
  | refused _ _ same => exact same
  | plain _ same =>
    rcases same with same | ⟨a, ha⟩
    · exact same
    · exact absurd ha (unopened a)

end Store

end Clearing
