import Clearing.Proofs.Store.Exchange

/-!
# Nothing is told of a finished payment

A record that is final is not written over by any call, whoever makes it and whatever it is to
write. An operation tells of a payment only what it has written, so once a payment is finished no
operation has anything to tell of it, however its calls are answered and whatever other writers do
between them.
-/

namespace Clearing

open Clearing.Time

/-- The record that a call is to write. -/
def Call.writes? : Call → Option Payment
  | .insert q | .update q _ | .commitTransfer q _ _ => some q
  | _ => none

namespace Store

/-- The store after calls, one after the other. -/
def answerAll (s : Store) (calls : List Call) : Store := calls.foldl (fun s c => (s.answer c).2) s

/-- Whether a final record is stored under a name. -/
structure Finished (s : Store) (id : String) (p : Payment) : Prop where
  stored : s.payments.get? id = some p
  final : p.status.terminal = true

variable {s : Store} {id : String} {p : Payment}

/-- No write over a final record is admitted. -/
theorem Finished.not_accepts (h : s.Finished id p) (version : UInt64) :
    s.accepts id version = false := accepts_of_terminal version h.stored h.final

/-- A call that is to write over a final record is refused and changes nothing at all. -/
theorem Finished.refuses (h : s.Finished id p) {c : Call} {q : Payment}
    (writes : c.writes? = some q) (named : q.requestId = id) :
    (Exchange.mk c (s.answer c).1).refused? = some q ∧ (s.answer c).2 = s := by
  subst named
  cases c with
  | insert q =>
    cases writes
    have hanswer : s.answer (.insert q) = (.error (.conflict q.requestId), s) := by
      simp only [answer, insert, h.stored]
    rw [hanswer]
    exact ⟨rfl, rfl⟩
  | update q version =>
    cases writes
    have hanswer : s.answer (.update q version) = (.ok .conflict, s) := by
      simp only [answer, update_of_not_accepts (h.not_accepts version)]
    rw [hanswer]
    exact ⟨rfl, rfl⟩
  | commitTransfer q version t =>
    cases writes
    have hanswer : s.answer (.commitTransfer q version t) = (.ok .conflict, s) := by
      simp [answer, commitTransfer, h.not_accepts version]
    rw [hanswer]
    exact ⟨rfl, rfl⟩
  | get | findOverdue | allPayments | storeAccount | getAccount | allAccounts =>
    cases writes

/-- No call takes a final record away or changes it. -/
theorem Finished.answer (h : s.Finished id p) (c : Call) : (s.answer c).2.Finished id p := by
  refine ⟨?_, h.final⟩
  cases s.answered c with
  | @stored q _ stores payments =>
    have hother : q.requestId ≠ id := by
      rintro rfl
      cases stores with
      | inserted absent => exact absurd (h.stored.symm.trans absent) nofun
      | replaced _ stored isOpen =>
        cases Option.some.inj (h.stored.symm.trans stored)
        exact absurd (h.final.symm.trans isOpen) nofun
    rw [payments, Table.get?_put, if_neg hother, h.stored]
  | refused _ _ same => rw [same, h.stored]
  | plain _ same =>
    rcases same with same | ⟨a, rfl⟩
    · rw [same, h.stored]
    · exact h.stored

/-- A final record stays, whatever is called. -/
theorem Finished.answerAll (h : s.Finished id p) (calls : List Call) :
    (s.answerAll calls).Finished id p := by
  induction calls generalizing s with
  | nil => exact h
  | cons c calls ih => exact ih (h.answer c)

end Store

/-- Whether notices tell nothing of a payment. -/
def Unheard (id : String) (notices : List Notice) : Prop := ∀ n ∈ notices, n.requestId ≠ id

theorem unheard_nil (id : String) : Unheard id [] := fun _ h => absurd h List.not_mem_nil

theorem Unheard.concat {id : String} {notices : List Notice} (h : Unheard id notices)
    {notice : Notice} (other : notice.requestId ≠ id) : Unheard id (notices ++ [notice]) := by
  intro n hn
  rcases List.mem_append.mp hn with hm | hm
  · exact h n hm
  · rw [List.mem_singleton.mp hm]
    exact other

/-- The world of an operation after a payment was finished. Other writers do as they like between
its calls and any call may fail, but the store is always one that holds the final record. The
notices are kept. -/
def afterwards (id : String) (p : Payment) : World (List Notice) where
  allows _ _ := True
  answers sent c answer after :=
    after = sent ∧ ((∃ fault, answer = .error fault) ∨
      ∃ s : Store, s.Finished id p ∧ answer = (s.answer c).1)
  hears sent notice := sent ++ [notice]

@[simp] theorem afterwards_hears (id : String) (p : Payment) (sent : List Notice)
    (notice : Notice) : (afterwards id p).hears sent notice = sent ++ [notice] := rfl

/-- Whether a change was not one of the payment that is finished. -/
def Operation.Committed.Elsewhere (id : String) : Operation.Committed → Prop
  | .applied q => q.requestId ≠ id
  | .discarded _ => True

namespace Operation

variable {α β : Type} {id : String} {p : Payment}

/-- Whether an operation tells nothing of a payment that is finished, and its result is a good
one. -/
def Silent (id : String) (p : Payment) (good : α → Prop) (op : Operation α) : Prop :=
  ∀ sent, Unheard id sent →
    op.Ensures (afterwards id p)
      (fun result after => Unheard id after ∧ ∀ a, result = .ok a → good a) sent

variable {good : α → Prop} {fine : β → Prop}

theorem silent_pure {a : α} (h : good a) : (pure a : Operation α).Silent id p good := by
  intro sent unheard
  refine ⟨unheard, fun b hb => ?_⟩
  cases hb
  exact h

theorem silent_fail (fault : Fault) : (fail fault : Operation α).Silent id p good :=
  fun _ unheard => ⟨unheard, nofun⟩

theorem silent_ofExcept (result : Except Fault α) :
    (ofExcept result).Silent id p fun _ => True :=
  fun _ unheard => ⟨unheard, fun _ _ => trivial⟩

/-- A notice of another payment may be sent. -/
theorem silent_notify (notice : Notice) (other : notice.requestId ≠ id) :
    (notify notice).Silent id p fun _ => True :=
  fun _ unheard => ⟨unheard.concat other, fun _ _ => trivial⟩

/-- What a call is answered, it is answered by a store that holds the final record. -/
theorem silent_ask {c : Call} {good : c.Answer → Prop}
    (h : ∀ s : Store, s.Finished id p → ∀ a, (s.answer c).1 = .ok a → good a) :
    (ask c).Silent id p good := by
  intro sent unheard
  refine ensures_ask.mpr ⟨trivial, ?_⟩
  rintro answer after ⟨rfl, ⟨fault, rfl⟩ | ⟨s, finished, rfl⟩⟩
  · exact ⟨unheard, nofun⟩
  · exact ⟨unheard, h s finished⟩

/-- A call that writes nothing may be answered in any way. -/
theorem silent_look (c : Call) : (ask c).Silent id p fun _ => True :=
  silent_ask fun _ _ _ _ => trivial

theorem Silent.bind {op : Operation α} {f : α → Operation β} (h : op.Silent id p good)
    (hf : ∀ a, good a → (f a).Silent id p fine) :
    (op >>= f : Operation β).Silent id p fine := by
  intro sent unheard
  rw [ensures_bind]
  refine (h sent unheard).mono ?_
  rintro result after ⟨unheard, hgood⟩
  cases result with
  | error fault => exact ⟨unheard, nofun⟩
  | ok a => exact hf a (hgood a rfl) after unheard

/-- An operation that is silent may be tolerated. -/
theorem Silent.tolerate {op : Operation (Option α)} (h : op.Silent id p fun _ => True) :
    (tolerate op).Silent id p fun _ => True := by
  intro sent unheard
  refine ensures_tolerate ((h sent unheard).mono ?_)
  rintro result after ⟨unheard, -⟩
  cases result <;> exact ⟨unheard, fun _ _ => trivial⟩

theorem silent_load (name : String) : (load name).Silent id p fun _ => True := by
  refine (silent_look _).bind fun found _ => ?_
  cases found with
  | none => exact silent_fail _
  | some q => exact silent_pure trivial

/-- What is written is no change of the finished payment. -/
theorem silent_commit (q : Payment) : (commit q).Silent id p (Committed.Elsewhere id) := by
  have hask : (ask (.update q.succ q.version)).Silent id p
      fun written => written = .applied → q.requestId ≠ id := by
    refine silent_ask fun s finished written hanswer applied named => ?_
    have hrefused : s.accepts q.succ.requestId q.version = false := by
      change s.accepts q.requestId q.version = false
      rw [named]
      exact finished.not_accepts q.version
    simp only [Store.answer, Store.update_of_not_accepts hrefused] at hanswer
    cases hanswer
    cases applied
  refine hask.bind fun written hwritten => ?_
  cases written with
  | applied => exact silent_pure (hwritten rfl)
  | conflict => exact (silent_load _).bind fun _ _ => silent_pure trivial

theorem silent_announceFinal {q : Payment} (other : q.requestId ≠ id) :
    (announceFinal q).Silent id p fun _ => True :=
  (silent_notify (.outcome q.view) other).bind fun _ _ =>
    silent_notify (.settled q.requestId) other

theorem silent_announceWaiting (before : Status) {q : Payment} (limit : UInt64) (now : Instant)
    (other : q.requestId ≠ id) :
    (announceWaiting before q limit now).Silent id p fun _ => True := by
  unfold announceWaiting
  split
  · split
    · exact silent_pure trivial
    · exact silent_notify (.waiting (q.pending (q.remaining limit now))) other
  · split
    · exact silent_notify (.settled q.requestId) other
    · exact silent_pure trivial

theorem silent_applyCheck (limit : UInt64) (c : CheckResult) :
    (applyCheck limit c).Silent id p fun _ => True := by
  refine (silent_load _).bind fun before _ => ?_
  split
  · exact silent_pure trivial
  · dsimp only
    split
    · exact silent_pure trivial
    · refine (silent_commit _).bind ?_
      rintro (q | q) elsewhere
      · have hother : q.requestId ≠ id := elsewhere
        refine (silent_notify (.outcome q.view) hother).bind fun _ _ => ?_
        exact (silent_announceWaiting _ _ _ hother).bind fun _ _ => silent_pure trivial
      · exact silent_pure trivial

theorem silent_demandAccount (name : AccountId) :
    (demandAccount name).Silent id p fun _ => True := by
  refine (silent_look _).bind fun found _ => ?_
  cases found with
  | none => exact silent_fail _
  | some a => exact silent_pure trivial

/-- A payment that is begun is not the one that is finished. -/
theorem silent_begin (b : Submission) (now : Instant) :
    (begin b now).Silent id p fun q => q.requestId ≠ id := by
  refine (silent_ofExcept _).bind fun q _ => ?_
  refine silent_ask fun s finished numbered hanswer named => ?_
  have hnamed : numbered.requestId = q.requestId := by
    simp only [Store.answer, Store.insert] at hanswer
    split at hanswer
    · cases hanswer
    · cases hanswer
      rfl
  have hrefused := (finished.refuses (c := .insert q) rfl (hnamed.symm.trans named)).1
  rw [hanswer] at hrefused
  cases hrefused

/-- A payment that is submitted again is not the one that is finished. -/
theorem silent_resubmit (existing : Payment) (b : Submission) :
    (resubmit existing b).Silent id p fun q => q.requestId ≠ id := by
  unfold resubmit
  split
  · exact silent_fail _
  · refine (silent_ofExcept _).bind fun next _ => ?_
    refine (silent_commit next).bind ?_
    rintro (q | q) elsewhere
    · have hother : q.requestId ≠ id := elsewhere
      dsimp only
      split
      · exact (silent_notify (.settled q.requestId) hother).bind fun _ _ => silent_pure hother
      · exact silent_pure hother
    · exact silent_fail _

theorem silent_submit (b : Submission) (now : Instant) :
    (submit b now).Silent id p fun _ => True := by
  refine (silent_ofExcept _).bind fun _ _ => ?_
  refine (silent_demandAccount _).bind fun _ _ => ?_
  refine (silent_demandAccount _).bind fun _ _ => ?_
  refine (silent_look _).bind fun known _ => ?_
  cases known with
  | none =>
    refine (silent_begin b now).bind fun q hother => ?_
    exact (silent_notify (.outcome q.view) hother).bind fun _ _ => silent_pure trivial
  | some existing =>
    refine (silent_resubmit existing b).bind fun q hother => ?_
    exact (silent_notify (.outcome q.view) hother).bind fun _ _ => silent_pure trivial

/-- The settlement of a finished payment loses, so that nothing is moved for it. -/
theorem silent_finishFunded (q : Payment) (now : Instant) :
    (finishFunded q now).Silent id p (Committed.Elsewhere id) := by
  unfold finishFunded
  generalize (q.advanced (.confirmed true) now (some Payment.completedMessage)).succ = completed
  have hask : (ask (.commitTransfer completed q.version completed.transfer)).Silent id p
      fun outcome => outcome = .settled → completed.requestId ≠ id := by
    refine silent_ask fun s finished outcome hanswer hsettled named => ?_
    have hrefused := (finished.refuses
      (c := .commitTransfer completed q.version completed.transfer) rfl named).1
    rw [hanswer, hsettled] at hrefused
    exact absurd hrefused nofun
  refine hask.bind fun outcome hsettled => ?_
  cases outcome with
  | settled => exact silent_pure (hsettled rfl)
  | insufficientFunds => exact silent_commit _
  | conflict => exact (silent_load _).bind fun _ _ => silent_pure trivial

/-- The account of a payer is only read. -/
theorem silent_loadAccount (name : AccountId) :
    (loadAccount name).Silent id p fun _ => True := by
  refine (silent_look _).bind fun found _ => ?_
  cases found with
  | none => exact silent_fail _
  | some a => exact silent_pure trivial

theorem silent_conclude (limit : UInt64) (d : Decision) (q : Payment) (now : Instant) :
    (conclude limit d q now).Silent id p (Committed.Elsewhere id) := by
  unfold conclude
  split
  · exact silent_commit _
  · split
    · refine (silent_loadAccount q.payer).bind fun payer _ => ?_
      split
      · exact silent_finishFunded q now
      · exact silent_commit _
    · exact silent_commit _

theorem silent_settle (limit : UInt64) (d : Decision) (now : Instant) :
    (settle limit d now).Silent id p fun _ => True := by
  refine (silent_load _).bind fun q _ => ?_
  split
  · exact silent_fail _
  · refine (silent_conclude limit d q now).bind ?_
    rintro (settled | current) elsewhere
    · exact (silent_announceFinal elsewhere).bind fun _ _ => silent_pure trivial
    · exact silent_pure trivial

theorem silent_expire (limit : UInt64) (now : Instant) (name : String) :
    (expire limit now name).Silent id p fun _ => True := by
  refine (silent_load _).bind fun q _ => ?_
  split
  · split
    · exact silent_pure trivial
    · refine (silent_commit _).bind ?_
      rintro (declined | current) elsewhere
      · exact (silent_announceFinal elsewhere).bind fun _ _ => silent_pure trivial
      · exact silent_pure trivial
  · exact silent_pure trivial

theorem silent_expireAll (limit : UInt64) (now : Instant) (candidates : List Payment) :
    (expireAll limit now candidates).Silent id p fun _ => True := by
  induction candidates with
  | nil => exact silent_pure trivial
  | cons q rest ih =>
    refine (silent_expire limit now q.requestId).tolerate.bind fun _ _ => ?_
    exact ih.bind fun _ _ => silent_pure trivial

/-- No request tells anything of a payment that is finished. -/
theorem silent_operation (limit : UInt64) (r : Request) :
    (r.operation limit).Silent id p fun _ => True := by
  cases r with
  | submit b now => exact (silent_submit b now).bind fun _ _ => silent_pure trivial
  | check c => exact (silent_applyCheck limit c).bind fun _ _ => silent_pure trivial
  | confirm d now => exact (silent_settle limit d now).bind fun _ _ => silent_pure trivial
  | sweep now =>
    exact (silent_look _).bind fun candidates _ => silent_expireAll limit now candidates

end Operation

end Clearing
