import Clearing.Proofs.Engine.Waiting
import Clearing.Proofs.Operation.Silence

/-!
# What is finished stays finished

A final record outlives every call, whoever makes it. An engine that meets it, in whatever company
and with whatever calls that fail, leaves it stored, tells nothing of it and leaves what is known of
it outside.
-/

namespace Clearing

/-- A store that others call as well. Before each further call of the engine they make some of
theirs, and then the call fails or is answered, as the script says. When the script is used up the
engine is alone with the store. -/
structure Contended where
  store : Store
  script : List (List Call × Option Fault)

namespace Contended

/-- Answer a call after those of the others, unless it fails. -/
def answer (w : Contended) (c : Call) : Except Fault c.Answer × Contended :=
  let (rivals, failure) := w.script.headD ([], none)
  let s := w.store.answerAll rivals
  match failure with
  | some fault => (.error fault, ⟨s, w.script.tail⟩)
  | none => ((s.answer c).1, ⟨(s.answer c).2, w.script.tail⟩)

instance : Storage Contended := ⟨answer⟩

variable {id : String} {p : Payment} {w : Contended}

/-- A final record stays through a call, which fails or is answered by a store that holds it. -/
theorem finished_answer (h : w.store.Finished id p) (c : Call) :
    (Storage.answer w c).2.store.Finished id p ∧
      ((∃ fault, (Storage.answer w c).1 = .error fault) ∨
        ∃ s : Store, s.Finished id p ∧ (Storage.answer w c).1 = (s.answer c).1) := by
  change (w.answer c).2.store.Finished id p ∧ ((∃ fault, (w.answer c).1 = .error fault) ∨
    ∃ s : Store, s.Finished id p ∧ (w.answer c).1 = (s.answer c).1)
  unfold answer
  obtain ⟨rivals, failure⟩ := w.script.headD ([], none)
  have hrivals := h.answerAll rivals
  cases failure with
  | some fault => exact ⟨hrivals, .inl ⟨fault, rfl⟩⟩
  | none => exact ⟨hrivals.answer c, .inr ⟨_, hrivals, rfl⟩⟩

end Contended

variable {α : Type} {id : String} {p : Payment}

/-- What a program ensures after a payment was finished holds after it was run among others, and the
final record is still there. -/
theorem Program.Ensures.run_contended {program : Program α} {post : α → List Notice → Prop}
    {w : Contended} {sent : List Notice} (finished : w.store.Finished id p)
    (h : program.Ensures (afterwards id p) post sent) :
    post (program.run w).result (sent ++ (program.run w).notices) ∧
      (program.run w).storage.store.Finished id p := by
  induction program generalizing w sent with
  | done a =>
    rw [Program.run, List.append_nil]
    exact ⟨h, finished⟩
  | call c next ih =>
    obtain ⟨kept, answered⟩ := Contended.finished_answer finished c
    exact ih _ kept (h.2 _ _ ⟨rfl, answered⟩)
  | send notice next ih =>
    have hn := ih finished h
    rw [Program.run]
    simpa using hn

/-- Nothing is told when an account is opened. -/
theorem Operation.silent_opening (name : AccountId) (balance : Decimal) :
    (Operation.opening name balance).Silent id p fun _ => True := by
  refine (silent_ofExcept _).bind fun a _ => ?_
  exact (silent_look (.storeAccount a)).bind fun _ _ => silent_pure trivial

namespace Engine

/-- Whether a payment is finished, and something is known of it outside or nothing is. -/
structure AtRest (id : String) (p : Payment) (entry : Option Pending) (e : Engine Contended) :
    Prop where
  finished : e.storage.store.Finished id p
  pending : e.outbox.pending? id = entry

variable {entry : Option Pending} {e : Engine Contended}

/-- A silent operation leaves a payment as settled as it is and tells nothing of it. -/
theorem AtRest.runs (h : e.AtRest id p entry) {op : Operation α} {answer : Except Fault α}
    {after : Engine Contended} (silent : op.Silent id p fun _ => True)
    (runs : e.Runs op answer after) :
    after.AtRest id p entry ∧ Unheard id (op.run e.storage).notices := by
  obtain ⟨⟨unheard, -⟩, finished⟩ :=
    Program.Ensures.run_contended h.finished (silent [] (unheard_nil id))
  have hunheard : Unheard id (op.run e.storage).notices := unheard
  refine ⟨⟨?_, ?_⟩, hunheard⟩
  · rw [runs.storage]
    exact finished
  · rw [runs.outbox, Outbox.pending?_acceptAll_of_ne e.outbox hunheard]
    exact h.pending

/-- No request tells anything of a settled payment. -/
theorem AtRest.notices (h : e.AtRest id p entry) (r : Request) : Unheard id (e.notices r) := by
  unfold Engine.notices
  split
  · next taken => exact (h.runs (Operation.silent_operation _ r) (runs_serve taken)).2
  · exact unheard_nil id

/-- No command changes anything of a settled payment. -/
theorem AtRest.obey (h : e.AtRest id p entry) (command : Command) :
    (e.obey command).AtRest id p entry := by
  cases command with
  | opening name balance =>
    exact (h.runs (Operation.silent_opening name balance) (e.runs_perform _)).1
  | shutdown => exact ⟨h.finished, h.pending⟩
  | request r =>
    cases taken : e.takes r with
    | true => exact (h.runs (Operation.silent_operation _ r) (runs_serve taken)).1
    | false =>
      rw [Engine.obey, serve_of_not_takes taken]
      exact h

theorem AtRest.obeyAll (h : e.AtRest id p entry) (commands : List Command) :
    (e.obeyAll commands).AtRest id p entry := by
  induction commands generalizing e with
  | nil => exact h
  | cons command commands ih => exact ih (h.obey command)

end Engine

namespace Inbox

/-- Let a final record be stored. Whatever calls are made, it stays stored as it is, and every call
that is to write over it is refused and changes no payment and no balance. And whatever an inbox
over that store is asked to do, while others call the store as they like and any call may fail, the
record stays stored, what is known outside of the payment stays, and no request tells anything of
it. -/
theorem final_record_stays {s : Store} {id : String} {p : Payment} (finished : s.Finished id p) :
    (∀ calls, (s.answerAll calls).Finished id p ∧
      ∀ c q, c.writes? = some q → q.requestId = id →
        (Exchange.mk c ((s.answerAll calls).answer c).1).refused? = some q ∧
          ((s.answerAll calls).answer c).2 = s.answerAll calls) ∧
      ∀ (settings : Settings) (script : List (List Call × Option Fault)) (outbox : Outbox)
        (running : Bool) (acts : List Act),
        let engine := ((ofEngine (⟨settings, ⟨s, script⟩, outbox, running⟩ :
          Engine Contended)).actAll acts).engine
        engine.storage.store.Finished id p ∧
          engine.outbox.pending? id = outbox.pending? id ∧
          ∀ r, ∀ n ∈ engine.notices r, n.requestId ≠ id := by
  constructor
  · intro calls
    exact ⟨finished.answerAll calls, fun c q writes => (finished.answerAll calls).refuses writes⟩
  · intro settings script outbox running acts engine
    let start : Engine Contended := ⟨settings, ⟨s, script⟩, outbox, running⟩
    obtain ⟨commands, hengine⟩ : ∃ commands, engine = start.obeyAll commands :=
      engine_actAll (ofEngine start) acts
    have hstart : start.AtRest id p (outbox.pending? id) := ⟨finished, rfl⟩
    rw [hengine]
    have hrest := hstart.obeyAll commands
    exact ⟨hrest.finished, hrest.pending, hrest.notices⟩

/-- A store in which the rent is paid. -/
def paidStore : Store := ⟨Table.empty.put "rent" Sample.paid, Sample.accounts, 1⟩

/-- A rival writes the rent as a payment that waits right before a late check of it, and the
landlord hears nothing. -/
theorem paid_rent_stays :
    let waiting := { Sample.paid with status := .waiting }
    let engine : Engine Contended :=
      ⟨.default, ⟨paidStore, [([.update waiting Sample.paid.version], none)]⟩, Sample.outbox, true⟩
    paidStore.Finished "rent" Sample.paid ∧
      (engine.applyCheck ⟨"rent", .epoch, .auth, true, none⟩).2.storage.store.payments.get?
        "rent" = some Sample.paid := by
  intro waiting engine
  have finished : paidStore.Finished "rent" Sample.paid := ⟨by decide +kernel, rfl⟩
  have hstays := (final_record_stays finished).2 .default engine.storage.script Sample.outbox true
    [.command (.request (.check ⟨"rent", .epoch, .auth, true, none⟩))]
  exact ⟨finished, hstays.1.stored⟩

end Inbox

end Clearing
