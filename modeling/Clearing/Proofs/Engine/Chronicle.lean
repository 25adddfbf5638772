import Clearing.Proofs.Engine.Command
import Clearing.Proofs.Operation.Effect

/-!
# The chronicle of an engine

An engine over a watched store, with the requests that it has answered and the notices that it has
sent, in their order. No other writer is near, and calls may fail. Each command opens an account,
does nothing, or is a request with one of its effects, so what these keep holds after every run.
-/

namespace Clearing

/-- An engine and what it has done so far. -/
structure Chronicle where
  engine : Engine Watched
  /-- The requests that were answered without a fault. -/
  handled : List Request
  sent : List Notice

namespace Chronicle

/-- Nothing has been done yet. -/
def ofEngine (e : Engine Watched) : Chronicle := ⟨e, [], []⟩

/-- What was made of the world so far. -/
def moment (c : Chronicle) : Moment := ⟨c.engine.storage.history, c.sent⟩

/-- The store as it is. -/
def store (c : Chronicle) : Store := c.moment.store

/-- The time limit of payments. -/
def limit (c : Chronicle) : UInt64 := c.engine.settings.timeLimit

/-- Obey a command and note what was done. -/
def obey (c : Chronicle) (command : Command) : Chronicle :=
  let engine := c.engine.obey command
  match command with
  | .request r =>
      ⟨engine, if (c.engine.serve r).1.isOk then c.handled ++ [r] else c.handled,
        c.sent ++ c.engine.notices r⟩
  | .opening _ _ | .shutdown => { c with engine := engine }

/-- Obey commands one after the other. -/
def follow (c : Chronicle) (commands : List Command) : Chronicle := commands.foldl obey c

@[simp] theorem engine_obey (c : Chronicle) (command : Command) :
    (c.obey command).engine = c.engine.obey command := by
  cases command <;> rfl

/-- The engine of a chronicle obeys the commands as it would without one. -/
theorem engine_follow (c : Chronicle) (commands : List Command) :
    (c.follow commands).engine = c.engine.obeyAll commands := by
  induction commands generalizing c with
  | nil => rfl
  | cons command commands ih =>
    refine (ih (c.obey command)).trans ?_
    rw [engine_obey]
    rfl

/-- What one command makes of a chronicle. -/
inductive Next (limit : UInt64) (c next : Chronicle) : Prop
  | idle (moment : next.moment = c.moment) (handled : next.handled = c.handled)
  | opened (a : Account) (moment : next.moment = c.moment.see (c.store.putAccount a))
      (handled : next.handled = c.handled)
  | served {r : Request} {ps : List Payment} (effect : Served limit c.moment r (.ok ps) next.moment)
      (handled : next.handled = c.handled ++ [r])

/-- An account is opened, or a fault ends it and nothing happens. -/
theorem ensures_opening (m : Moment) (id : AccountId) (balance : Decimal) :
    (Operation.opening id balance).Ensures alone
      (fun result after => (∃ fault, result = .error fault ∧ after = m) ∨
        result = .ok ⟨id, balance⟩ ∧ after = m.see (m.store.putAccount ⟨id, balance⟩)) m := by
  rw [Operation.opening, Operation.ensures_bind, Operation.ensures_ofExcept]
  cases h : Account.opening id balance with
  | error fault => exact .inl ⟨fault, rfl, rfl⟩
  | ok a =>
    cases Account.eq_of_opening h
    rw [Operation.rest_ok, Operation.ensures_bind]
    exact Operation.ensures_ask_alone.mpr
      ⟨fun fault => .inl ⟨fault, rfl, rfl⟩, .inr ⟨rfl, rfl⟩⟩

/-- Nothing is sent when an account is opened. -/
theorem notices_opening (w : Watched) (id : AccountId) (balance : Decimal) :
    ((Operation.opening id balance).run w).notices = [] := by
  have h := (ensures_opening ⟨w.history, []⟩ id balance).run
  rcases h with ⟨_, -, h⟩ | ⟨-, h⟩ <;> exact congrArg Moment.sent h

/-- A request that the engine takes has one of its effects. -/
theorem served_of_takes {c : Chronicle} (keyed : c.store.Keyed) {r : Request}
    (h : c.engine.takes r = true) :
    ∃ result, Served c.limit c.moment r result (c.obey (.request r)).moment ∧
      ∀ ps, (c.engine.serve r).1 = .ok ps ↔ result = .ok ps := by
  have hrun := Engine.runs_serve h
  have hens : (r.operation c.limit).Ensures alone (Served c.limit c.moment r) c.moment :=
    Operation.ensures_operation_alone keyed r
  have he := hens.run
  have hm : (c.obey (.request r)).moment =
      ⟨((r.operation c.limit).run c.engine.storage).storage.history,
        c.sent ++ ((r.operation c.limit).run c.engine.storage).notices⟩ := by
    have hs : (c.engine.serve r).2.storage.history =
        ((r.operation c.limit).run c.engine.storage).storage.history :=
      congrArg Watched.history hrun.storage
    have hn : c.engine.notices r = ((r.operation c.limit).run c.engine.storage).notices := if_pos h
    unfold moment obey
    dsimp only [Engine.obey]
    rw [hs, hn]
  rw [hm]
  exact ⟨_, he, hrun.answer⟩

/-- A request is answered without a fault and has one of its effects, or nothing is done. -/
theorem idle_or_served {c : Chronicle} (keyed : c.store.Keyed) (r : Request) :
    ((c.obey (.request r)).moment = c.moment ∧ (c.obey (.request r)).handled = c.handled) ∨
      ∃ ps, (c.engine.serve r).1 = .ok ps ∧
        Served c.limit c.moment r (.ok ps) (c.obey (.request r)).moment ∧
        (c.obey (.request r)).handled = c.handled ++ [r] := by
  cases h : c.engine.takes r with
  | false =>
    have hs := Engine.serve_of_not_takes h
    refine .inl ⟨?_, ?_⟩
    · simp [obey, moment, Engine.obey, Engine.notices, hs, h]
    · simp [obey, hs, Except.isOk, Except.toBool]
  | true =>
    obtain ⟨result, he, ha⟩ := served_of_takes keyed h
    cases result with
    | error fault =>
      refine .inl ⟨he.of_error, ?_⟩
      rw [obey]
      cases hr : (c.engine.serve r).1 with
      | error other => rfl
      | ok ps => cases (ha ps).mp hr
    | ok ps =>
      refine .inr ⟨ps, (ha ps).mpr rfl, he, ?_⟩
      rw [obey, (ha ps).mpr rfl]
      rfl

/-- Every command is one of the steps. -/
theorem next_obey {c : Chronicle} (keyed : c.store.Keyed) (command : Command) :
    c.Next c.limit (c.obey command) := by
  cases command with
  | opening id balance =>
    have he := (ensures_opening c.moment id balance).run
    rcases he with ⟨_, -, he⟩ | ⟨-, he⟩
    · exact .idle (congrArg (Moment.mk ·.history c.sent) he) rfl
    · exact .opened _ (congrArg (Moment.mk ·.history c.sent) he) rfl
  | shutdown => exact .idle rfl rfl
  | request r =>
    rcases idle_or_served keyed r with ⟨moment, handled⟩ | ⟨ps, -, effect, handled⟩
    · exact .idle moment handled
    · exact .served effect handled

/-- An account is opened over any account of its name, or nothing happens. -/
theorem store_opening (c : Chronicle) (id : AccountId) (balance : Decimal) :
    (c.obey (.opening id balance)).store = c.store ∨
      (c.obey (.opening id balance)).store = c.store.putAccount ⟨id, balance⟩ := by
  have hens := (ensures_opening c.moment id balance).run
  rcases hens with ⟨_, -, he⟩ | ⟨-, he⟩
  · exact .inl (congrArg (·.history.present) he)
  · refine .inr ((congrArg (·.history.present) he).trans ?_)
    exact Moment.store_see _ _

/-- Every step stores every record under its own name. -/
theorem Next.keyed {limit : UInt64} {c next : Chronicle} (h : c.Next limit next)
    (keyed : c.store.Keyed) : next.store.Keyed := by
  unfold store at keyed ⊢
  cases h with
  | idle moment =>
    rw [moment]
    exact keyed
  | opened a moment =>
    rw [moment, Moment.store_see]
    exact keyed
  | served effect =>
    obtain ⟨qs, writes⟩ := effect.writes
    exact writes.keyed keyed

/-- Every run stores every record under its own name. -/
theorem keyed_follow {c : Chronicle} (keyed : c.store.Keyed) (commands : List Command) :
    (c.follow commands).store.Keyed := by
  induction commands generalizing c with
  | nil => exact keyed
  | cons command commands ih => exact ih ((next_obey keyed command).keyed keyed)

/-- What every step keeps holds after every run. -/
theorem holds_follow {limit : UInt64} {rule : Chronicle → Prop} {c : Chronicle}
    (timed : c.limit = limit) (keyed : c.store.Keyed) (h : rule c)
    (step : ∀ {c next}, rule c → c.Next limit next → rule next) (commands : List Command) :
    rule (c.follow commands) := by
  induction commands generalizing c with
  | nil => exact h
  | cons command commands ih =>
    have hn := next_obey keyed command
    have hl : (c.obey command).limit = c.limit := by
      rw [Chronicle.limit, engine_obey, Engine.settings_obey, Chronicle.limit]
    rw [timed] at hn hl
    exact ih hl (hn.keyed keyed) (step h hn)

/-- The outbox has taken exactly the notices that were sent. -/
theorem outbox_follow {o : Outbox} {c : Chronicle} (h : c.engine.outbox = o.acceptAll c.sent)
    (commands : List Command) :
    (c.follow commands).engine.outbox = o.acceptAll (c.follow commands).sent := by
  induction commands generalizing c with
  | nil => exact h
  | cons command commands ih =>
    refine ih ?_
    rw [engine_obey]
    cases command with
    | shutdown => exact h
    | opening id balance =>
      have hrun := (c.engine.runs_perform (Operation.opening id balance)).outbox
      rw [notices_opening] at hrun
      rw [Engine.obey, Engine.openAccount_eq, hrun]
      exact h
    | request r =>
      cases ht : c.engine.takes r with
      | false =>
        have hn : c.engine.notices r = [] := by rw [Engine.notices, ht]; rfl
        rw [Engine.obey, Engine.serve_of_not_takes ht, h, obey, hn, List.append_nil]
      | true =>
        have hn : c.engine.notices r = _ := if_pos ht
        rw [Engine.obey, (Engine.runs_serve ht).outbox, h, obey, ← Outbox.acceptAll_append, hn]

end Chronicle

/-- Whatever an inbox is asked to do, its engine is that of a chronicle. -/
theorem Inbox.exists_follow (e : Engine Watched) (acts : List Act) :
    ∃ commands, ((ofEngine e).actAll acts).engine =
      ((Chronicle.ofEngine e).follow commands).engine := by
  obtain ⟨commands, h⟩ := (ofEngine e).engine_actAll acts
  refine ⟨commands, ?_⟩
  rw [h, Chronicle.engine_follow]
  rfl

/-- The engine of an inbox over a store with every record under its own name is that of a chronicle
over such a store, with the same time limit. -/
theorem Inbox.exists_chronicle {start : Engine Watched}
    (keyed : start.storage.history.present.Keyed) (acts : List Act) :
    ∃ c : Chronicle, ((ofEngine start).actAll acts).engine = c.engine ∧ c.store.Keyed ∧
      c.limit = start.settings.timeLimit := by
  have hstart : (Chronicle.ofEngine start).store.Keyed := keyed
  obtain ⟨commands, hengine⟩ := exists_follow start acts
  refine ⟨(Chronicle.ofEngine start).follow commands, hengine,
    Chronicle.keyed_follow hstart commands, ?_⟩
  rw [Chronicle.limit, Chronicle.engine_follow, Engine.settings_obeyAll]
  rfl

end Clearing
