import Clearing.Proofs.Engine.Request

/-!
# Commands

Everything that an engine can be told. Each command runs one operation over the storage, hands its
notices to the outbox and leaves the settings. A message that is delivered to an inbox is one
request, made again until it is done with.
-/

namespace Clearing

/-- What an engine is told. -/
inductive Command where
  /-- Open an account, over any account of that name. -/
  | opening (id : AccountId) (balance : Decimal)
  | request (r : Request)
  | shutdown
  deriving DecidableEq, Repr

/-- What is run to open an account. -/
def Operation.opening (id : AccountId) (balance : Decimal) : Operation Account := do
  let a ← ofExcept (Account.opening id balance)
  ask (.storeAccount a)
  return a

/-- An operation for one payment, run as one for several, does what it does. -/
theorem Request.run_one {σ : Type} [Storage σ] (op : Operation Payment) (s : σ) :
    (one op).run s =
      ⟨(op.run s).result.map ([·]), (op.run s).storage, (op.run s).notices⟩ := by
  cases hr : (op.run s).result with
  | error fault => exact Operation.run_bind_of_error hr _
  | ok p =>
    have hb := Operation.run_bind_of_ok hr fun p => (pure [p] : Operation (List Payment))
    simp only [Operation.run_pure, List.append_nil] at hb
    exact hb

namespace Engine

variable {σ : Type} [Storage σ]

theorem openAccount_eq (e : Engine σ) (id : AccountId) (balance : Decimal) :
    e.openAccount id balance = e.perform (Operation.opening id balance) := rfl

/-- Obey a command. -/
def obey (e : Engine σ) : Command → Engine σ
  | .opening id balance => (e.openAccount id balance).2
  | .request r => (e.serve r).2
  | .shutdown => e.shutdown

/-- Obey commands one after the other. -/
def obeyAll (e : Engine σ) (commands : List Command) : Engine σ := commands.foldl obey e

/-- The last of some commands is obeyed after the others. -/
theorem obeyAll_concat (e : Engine σ) (commands : List Command) (command : Command) :
    e.obeyAll (commands ++ [command]) = (e.obeyAll commands).obey command := by
  rw [obeyAll, List.foldl_append]
  rfl

/-- Whether the engine runs the operation of a request. -/
def takes (e : Engine σ) : Request → Bool
  | .confirm _ _ => e.running
  | _ => true

/-- The notices of a request, in the order in which they are sent. -/
def notices (e : Engine σ) (r : Request) : List Notice :=
  if e.takes r then ((r.operation e.settings.timeLimit).run e.storage).notices else []

variable {α : Type}

/-- What an engine is after it has run an operation, and what it answers: the result of the
operation or a fault if that ended with one. -/
structure Runs (e : Engine σ) (op : Operation α) (answer : Except Fault α) (after : Engine σ) :
    Prop where
  settings : after.settings = e.settings
  storage : after.storage = (op.run e.storage).storage
  outbox : after.outbox = e.outbox.acceptAll (op.run e.storage).notices
  answer : ∀ a, answer = .ok a ↔ (op.run e.storage).result = .ok a

theorem runs_perform (e : Engine σ) (op : Operation α) :
    e.Runs op (e.perform op).1 (e.perform op).2 := ⟨rfl, rfl, rfl, fun _ => Iff.rfl⟩

/-- The worker runs an operation, and answers with another fault if a balance became too large. -/
theorem runs_work (e : Engine σ) (op : Operation α) : e.Runs op (e.work op).1 (e.work op).2 := by
  obtain ⟨settings, storage, outbox, answer⟩ := e.runs_perform op
  unfold work
  split
  · next overflow after h =>
    rw [h] at settings storage outbox answer
    refine ⟨settings, storage, outbox, fun a => ?_⟩
    rw [← answer a]
    exact ⟨nofun, nofun⟩
  · exact ⟨settings, storage, outbox, answer⟩

/-- The worker does what anyone else would do, unless a balance becomes too large. -/
theorem work_eq_perform {e : Engine σ} {op : Operation α}
    (h : ∀ cause, (op.run e.storage).result ≠ .error (.overflow cause)) :
    e.work op = e.perform op := by
  unfold work
  split
  · next cause after overflow => exact absurd (congrArg Prod.fst overflow) (h cause)
  · rfl

/-- A balance that becomes too large drops what the worker does and stops it. -/
theorem work_of_overflow {e : Engine σ} {op : Operation α} {cause : Decimal.Overflow}
    (h : (op.run e.storage).result = .error (.overflow cause)) :
    (e.work op).1 = .error (.internal .jobDropped) ∧ (e.work op).2.running = false := by
  have hperform : (e.perform op).1 = .error (.overflow cause) := h
  rw [work]
  generalize e.perform op = performed at hperform ⊢
  obtain ⟨answer, after⟩ := performed
  cases hperform
  exact ⟨rfl, rfl⟩

/-- An operation for one payment runs as it would for several. -/
theorem Runs.single {e after : Engine σ} {op : Operation Payment} {answer : Except Fault Payment}
    (h : e.Runs op answer after) : e.Runs (Request.one op) (answer.map ([·])) after := by
  have hone := Request.run_one op e.storage
  obtain ⟨settings, storage, outbox, ha⟩ := h
  refine ⟨settings, by rw [hone, storage], by rw [hone, outbox], fun ps => ?_⟩
  rw [hone]
  cases hr : (op.run e.storage).result with
  | error fault =>
    cases answer with
    | error other => exact ⟨nofun, nofun⟩
    | ok p => exact absurd (hr.symm.trans ((ha p).mp rfl)) nofun
  | ok p =>
    rw [(ha p).mpr hr]

/-- An engine that takes a request runs its operation. -/
theorem runs_serve {e : Engine σ} {r : Request} (h : e.takes r = true) :
    e.Runs (r.operation e.settings.timeLimit) (e.serve r).1 (e.serve r).2 := by
  cases r with
  | submit b now => exact (e.runs_perform _).single
  | check c => exact (e.runs_perform _).single
  | sweep now => exact e.runs_perform _
  | confirm d now =>
    have hr : e.running = true := h
    simp only [serve, confirm, hr, if_true]
    exact (e.runs_work _).single

/-- An engine that does not take a request does nothing. -/
theorem serve_of_not_takes {e : Engine σ} {r : Request} (h : e.takes r = false) :
    e.serve r = (.error (.internal .workerStopped), e) := by
  cases r with
  | submit | check | sweep => exact absurd h nofun
  | confirm d now =>
    have hr : e.running = false := h
    simp [serve, confirm, hr, single, Except.map]

/-- No command changes the settings. -/
theorem settings_obey (e : Engine σ) (command : Command) :
    (e.obey command).settings = e.settings := by
  cases command with
  | opening id balance => exact (e.runs_perform _).settings
  | request r =>
    cases h : e.takes r with
    | true => exact (runs_serve h).settings
    | false => rw [obey, serve_of_not_takes h]
  | shutdown => rfl

/-- No commands change the settings. -/
theorem settings_obeyAll (e : Engine σ) (commands : List Command) :
    (e.obeyAll commands).settings = e.settings := by
  induction commands generalizing e with
  | nil => rfl
  | cons command commands ih => exact (ih (e.obey command)).trans (e.settings_obey command)

/-- A worker that is gone never comes back. -/
theorem stopped_obey {e : Engine σ} (h : e.running = false) (command : Command) :
    (e.obey command).running = false := by
  cases command with
  | opening => exact h
  | shutdown => rfl
  | request r =>
    cases r with
    | submit | check | sweep => exact h
    | confirm d now =>
      change (e.confirm d now).2.running = false
      rw [Engine.confirm, h]
      exact h

/-- A worker that runs has run before. -/
theorem running_of_obey {e : Engine σ} (command : Command)
    (h : (e.obey command).running = true) : e.running = true := by
  rw [← Bool.not_eq_false]
  exact fun stopped => Bool.false_ne_true ((stopped_obey stopped command).symm.trans h)

theorem stopped_obeyAll {e : Engine σ} (h : e.running = false) (commands : List Command) :
    (e.obeyAll commands).running = false := by
  induction commands generalizing e with
  | nil => exact h
  | cons command commands ih => exact ih (stopped_obey h command)

end Engine

namespace Inbox

variable {σ : Type} [Storage σ]

/-- What an inbox is asked to do. -/
inductive Act where
  /-- Tell the engine something directly. -/
  | command (command : Command)
  /-- Let the engine handle a message. -/
  | handle (message : Message) (now : Time.Instant)
  | deliver (message : Message) (now : Time.Instant)
  deriving DecidableEq, Repr

/-- Do what is asked for. -/
def act (i : Inbox σ) : Act → Inbox σ
  | .command command => { i with engine := i.engine.obey command }
  | .handle m now => { i with engine := (i.engine.handle now m).2 }
  | .deliver m now => (i.deliver m now).2

/-- Do one thing after the other. -/
def actAll (i : Inbox σ) (acts : List Act) : Inbox σ := acts.foldl act i

/-- A delivery is the request of its message, made as often as it is tried. -/
theorem engine_deliverFrom (m : Message) (now : Time.Instant) (attempt left : Nat) (i : Inbox σ) :
    ∃ tries, (deliverFrom m now attempt left i).2.engine =
      i.engine.obeyAll (List.replicate tries (.request (m.request now))) := by
  induction left generalizing attempt i with
  | zero =>
    refine ⟨1, ?_⟩
    change _ = (i.engine.serve (m.request now)).2
    rw [deliverFrom, ← Engine.handle_eq_serve]
    split
    · next payments e h => rw [h]
    · next fault e h =>
      rw [h]
      dsimp only
      split <;> rfl
  | succ left ih =>
    cases h : i.engine.handle now m with
    | mk result e =>
      have he : e = i.engine.obeyAll [.request (m.request now)] := by
        change e = (i.engine.serve (m.request now)).2
        rw [← Engine.handle_eq_serve, h]
      rw [deliverFrom, h]
      cases result with
      | ok payments => exact ⟨1, he⟩
      | error fault =>
        dsimp only
        split
        · exact ⟨1, he⟩
        · exact ⟨1, he⟩
        · obtain ⟨tries, ht⟩ := ih (attempt + 1) { i with engine := e }
          refine ⟨tries + 1, ht.trans ?_⟩
          rw [he]
          rfl

/-- Whatever an inbox is asked to do is done by commands to its engine. -/
theorem engine_act (i : Inbox σ) (a : Act) :
    ∃ commands, (i.act a).engine = i.engine.obeyAll commands := by
  cases a with
  | command command => exact ⟨[command], rfl⟩
  | handle m now =>
    refine ⟨[.request (m.request now)], ?_⟩
    change (i.engine.handle now m).2 = _
    rw [Engine.handle_eq_serve]
    rfl
  | deliver m now =>
    obtain ⟨tries, h⟩ := engine_deliverFrom m now 1 (i.policy.maxAttempts.toNat - 1) i
    exact ⟨_, h⟩

theorem engine_actAll (i : Inbox σ) (acts : List Act) :
    ∃ commands, (i.actAll acts).engine = i.engine.obeyAll commands := by
  induction acts generalizing i with
  | nil => exact ⟨[], rfl⟩
  | cons a acts ih =>
    obtain ⟨first, hf⟩ := i.engine_act a
    obtain ⟨rest, hr⟩ := ih (i.act a)
    refine ⟨first ++ rest, ?_⟩
    rw [Engine.obeyAll, List.foldl_append]
    rw [hf] at hr
    exact hr

end Inbox

end Clearing
