import Clearing.Proofs.Engine.Command
import Clearing.Proofs.Operation.Contention

/-!
# What an acknowledgement says

An engine shares its store with other writers, which act before any of its calls. When it
acknowledges the result of a check, the stored record is final or has the check marked, and when it
acknowledges a decision the stored record is final, unless the write was refused because another
writer was faster. Then the event is dropped, and the record that is returned need not show it.
-/

namespace Clearing

/-- A store that an engine shares with others. -/
structure Shared where
  store : Store
  /-- What the others call before each further call of the engine. -/
  rivals : List (List Call)
  /-- The calls of the engine and their answers, newest first. -/
  past : List Exchange

namespace Shared

/-- A store that nobody has called yet. -/
def ofStore (s : Store) (rivals : List (List Call)) : Shared := ⟨s, rivals, []⟩

/-- Answer a call after those of the others. -/
def answer (w : Shared) (c : Call) : Except Fault c.Answer × Shared :=
  let s := (w.rivals.headD []).foldl (fun s c => (s.answer c).2) w.store
  ((s.answer c).1, ⟨(s.answer c).2, w.rivals.tail, ⟨c, (s.answer c).1⟩ :: w.past⟩)

instance : Storage Shared := ⟨answer⟩

/-- Whether a write of a payment was refused. -/
def Refused (w : Shared) (id : String) : Prop :=
  ∃ e ∈ w.past, ∃ q, e.refused? = some q ∧ q.requestId = id

end Shared

/-- Every call leaves every record under its own name. -/
theorem Store.Keyed.answer {s : Store} (h : s.Keyed) (c : Call) : (s.answer c).2.Keyed := by
  cases s.answered c with
  | stored _ _ payments => exact h.put payments
  | refused _ _ same => rwa [same]
  | plain _ same =>
    rcases same with same | ⟨a, rfl⟩
    · rwa [same]
    · exact h

theorem Store.Keyed.answerAll {s : Store} (h : s.Keyed) (calls : List Call) :
    (calls.foldl (fun s c => (s.answer c).2) s).Keyed := by
  induction calls generalizing s with
  | nil => exact h
  | cons c calls ih => exact ih (h.answer c)

/-- Whether a store shows the record that an exchange has just read or stored. -/
structure Exchange.Shown (e : Exchange) (s : Store) : Prop where
  read : ∀ id p, e = ⟨.get id, .ok (some p)⟩ → s.payments.get? id = some p
  stored : ∀ q, e.stored? = some q → s.payments.get? q.requestId = some q

/-- A store shows what it has just answered. -/
theorem Store.shown_answer (s : Store) (c : Call) :
    (Exchange.mk c (s.answer c).1).Shown (s.answer c).2 := by
  refine ⟨fun id p he => ?_, fun q hq => ?_⟩
  · obtain ⟨hc, ha⟩ := Exchange.mk.inj he
    subst hc
    exact Except.ok.inj (eq_of_heq ha)
  · rw [(s.stores_of_stored hq).2, Table.get?_put, if_pos rfl]

/-- What a program ensures among other writers holds after it was run on a shared store, and the
store shows what it has read or stored last. -/
theorem Program.Ensures.run_shared {α : Type} {p : Program α} {post : α → Log → Prop} {w : Shared}
    {sent : List Notice} (keyed : w.store.Keyed) (shown : ∀ e ∈ w.past.head?, e.Shown w.store)
    (h : p.Ensures observed post ⟨w.past, sent⟩) :
    post (p.run w).result ⟨(p.run w).storage.past, sent ++ (p.run w).notices⟩ ∧
      ∀ e ∈ (p.run w).storage.past.head?, e.Shown (p.run w).storage.store := by
  induction p generalizing w sent with
  | done a =>
    rw [Program.run, List.append_nil]
    exact ⟨h, shown⟩
  | call c next ih =>
    have hkeyed := keyed.answerAll (w.rivals.headD [])
    generalize hs : (w.rivals.headD []).foldl (fun s c => (s.answer c).2) w.store = s at hkeyed
    have hanswer : Storage.answer w c =
        ((s.answer c).1, ⟨(s.answer c).2, w.rivals.tail, ⟨c, (s.answer c).1⟩ :: w.past⟩) := by
      rw [← hs]
      rfl
    rw [Program.run, hanswer]
    refine ih _ (hkeyed.answer c) (fun e he => ?_) (h.2 _ _ ⟨hkeyed.exchange c, rfl⟩)
    cases Option.mem_some.mp he
    exact s.shown_answer c
  | send notice next ih =>
    have hn := ih keyed shown h
    rw [Program.run]
    simpa using hn

/-- What an attempt that ends without a fault returns is stored, and it is as the event wants it
unless the write was refused. -/
theorem Attempt.acknowledged {id : String} {good : Payment → Prop} {p : Payment} {l : Log}
    {s : Store} (h : Attempt id good (.ok p) l) (shown : ∀ e ∈ l.past.head?, e.Shown s) :
    s.payments.get? id = some p ∧
      (good p ∨ ∃ e ∈ l.past, ∃ q, e.refused? = some q ∧ q.requestId = id) := by
  cases h with
  | kept fresh holds => exact ⟨(shown _ rfl).read id p rfl, .inl holds⟩
  | @overtaken _ e _ q _ fresh replaces refused named same =>
    refine ⟨(shown _ rfl).read id p rfl, .inr ⟨e, ?_, q, refused, named⟩⟩
    exact List.mem_cons_of_mem _ List.mem_cons_self
  | written wrote holds =>
    obtain ⟨e, before, hpast, stored, -⟩ := wrote.newest
    refine ⟨?_, .inl holds⟩
    rw [hpast] at shown
    rw [← wrote.named]
    exact (shown e rfl).stored p stored

/-- An attempt that is made on a store that nobody else has called yet. -/
theorem Shared.acknowledged {op : Operation Payment} {id : String} {good : Payment → Prop}
    {s : Store} (keyed : s.Keyed) {rivals : List (List Call)} {p : Payment}
    (h : op.Ensures observed (Attempt id good) .empty)
    (ok : (op.run (Shared.ofStore s rivals)).result = .ok p) :
    let w := (op.run (Shared.ofStore s rivals)).storage
    w.store.payments.get? id = some p ∧ (good p ∨ w.Refused id) := by
  have hrun := Program.Ensures.run_shared (w := Shared.ofStore s rivals) keyed
    (fun _ he => absurd he nofun) h
  have hattempt := hrun.1
  rw [show (Program.run (ExceptT.run op) (Shared.ofStore s rivals)).result = .ok p from ok]
    at hattempt
  exact hattempt.acknowledged hrun.2

namespace Engine

/-- An engine that shares a store without payments with others. They may fill it before the first
call of the engine, and do anything before each other call. -/
def shared (settings : Settings) (accounts : Table Account) (lastId : UInt64)
    (rivals : List (List Call)) (outbox : Outbox) (running : Bool) : Engine Shared :=
  ⟨settings, .ofStore ⟨.empty, accounts, lastId⟩ rivals, outbox, running⟩

/-- Let others do anything with the store before each call of the engine. If the engine acknowledges
the result of a check, the record that it returns is stored then, and it is final or the check has
passed and is marked, unless the write of the engine was refused. If it acknowledges a decision, the
record that it returns is stored then, and it is final unless the write was refused. -/
theorem acknowledged_unless_refused (settings : Settings) (accounts : Table Account)
    (lastId : UInt64) (rivals : List (List Call)) (outbox : Outbox) (running : Bool) :
    let e := shared settings accounts lastId rivals outbox running
    (∀ (c : CheckResult) (p : Payment), (e.applyCheck c).1 = .ok p →
        let w := (e.applyCheck c).2.storage
        w.store.payments.get? c.requestId = some p ∧ (p.Heeds c ∨ w.Refused c.requestId)) ∧
      ∀ (d : Decision) (now : Time.Instant) (p : Payment), (e.confirm d now).1 = .ok p →
        let w := (e.confirm d now).2.storage
        w.store.payments.get? d.requestId = some p ∧
          (p.status.terminal = true ∨ w.Refused d.requestId) := by
  intro e
  have hkeyed : (⟨.empty, accounts, lastId⟩ : Store).Keyed := fun _ _ => nofun
  refine ⟨fun c p ok => ?_, fun d now p ok => ?_⟩
  · exact Shared.acknowledged hkeyed (Operation.ensures_applyCheck_observed c) ok
  · cases hr : running with
    | false =>
      have hstopped : (e.confirm d now).1 = .error (.internal .workerStopped) := by
        simp [confirm, e, shared, hr]
      rw [hstopped] at ok
      cases ok
    | true =>
      have hconfirm : e.confirm d now = e.work (Operation.settle settings.timeLimit d now) := by
        simp [confirm, e, shared, hr]
      rw [hconfirm] at ok ⊢
      have hruns := e.runs_work (Operation.settle settings.timeLimit d now)
      rw [hruns.storage]
      exact Shared.acknowledged hkeyed (Operation.ensures_settle_observed d now)
        ((hruns.answer p).mp ok)

/-- Whether a call raises the version of what it writes over by one. -/
def raisesVersion (c : Call) : Bool := c.replaces?.all fun (q, version) => q.version == version + 1

/-- The result of a check of the rent, passed at once. -/
def passedCheck (check : Check) : CheckResult := ⟨"rent", .epoch, check, false, none⟩

/-- The records of the rent: it is submitted, one check after the other passes until it waits for
its confirmation, and then it is submitted again. -/
def submitted : Payment := (Payment.begun Sample.rent .epoch).numbered 1

def authorised : Payment := (submitted.afterCheck 120 (passedCheck .auth)).succ

def cleared : Payment := (authorised.afterCheck 120 (passedCheck .sanction)).succ

def awaited : Payment := (cleared.afterCheck 120 (passedCheck .userConfirmation)).succ

def resubmitted : Payment := (awaited.renewed Sample.rent).succ

/-- The rent is submitted, and between the two calls of a further check the other check is noted. -/
def checkRivals : List (List Call) :=
  [[.insert (Payment.begun Sample.rent .epoch)], [.update authorised 0]]

/-- The rent waits for its confirmation and is submitted again right before it is settled. -/
def decisionRivals : List (List Call) :=
  [[.insert (Payment.begun Sample.rent .epoch), .update authorised 0, .update cleared 1,
    .update awaited 2], [], [.update resubmitted 3]]

/-- An engine whose settings are the usual ones, among rivals. -/
def among (rivals : List (List Call)) : Engine Shared :=
  shared .default Sample.accounts 0 rivals Sample.outbox true

/-- Rivals that raise each version by one make an engine acknowledge a check that is not marked and
a decision that finishes nothing. -/
theorem acknowledged_and_dropped :
    (∀ c ∈ (checkRivals ++ decisionRivals).flatten, raisesVersion c = true) ∧
      (((among checkRivals).applyCheck (passedCheck .sanction)).1 = .ok authorised ∧
        ((among checkRivals).applyCheck (passedCheck .sanction)).2.storage.store.payments.get?
          "rent" = some authorised ∧
        authorised.status.terminal = false ∧ authorised.checks.passed .sanction = false) ∧
      ((among decisionRivals).confirm ⟨"rent", true⟩ .epoch).1 = .ok resubmitted ∧
        ((among decisionRivals).confirm ⟨"rent", true⟩ .epoch).2.storage.store.payments.get?
          "rent" = some resubmitted ∧
        resubmitted.status.terminal = false := by
  decide +kernel

/-- The check that was acknowledged and is not marked was refused. -/
theorem checkRivals_refused :
    ((among checkRivals).applyCheck (passedCheck .sanction)).2.storage.Refused "rent" := by
  have ok : ((among checkRivals).applyCheck (passedCheck .sanction)).1 = .ok authorised := by
    decide +kernel
  have isOpen : authorised.status.terminal = false := by decide +kernel
  have unmarked : authorised.checks.passed .sanction = false := by decide +kernel
  rcases ((acknowledged_unless_refused .default Sample.accounts 0 checkRivals Sample.outbox
    true).1 _ _ ok).2 with (final | ⟨-, marked⟩) | refused
  · exact absurd (isOpen.symm.trans final) nofun
  · exact absurd (unmarked.symm.trans marked) nofun
  · exact refused

end Engine

end Clearing
