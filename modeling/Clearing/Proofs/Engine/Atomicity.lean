import Clearing.Proofs.Engine.Chronicle

/-!
# A fault leaves no trace

Whatever an engine is told to do, if it answers with a fault it has done nothing: the payments, the
accounts, the numbers, the feeds, the payments that wait and the topic are as they were, and nothing
was sent. The calls of an operation may fail at any point, and every operation writes once or tries
again only after a write that was not carried out. The worker may stop, which nobody sees but those
who confirm later.
-/

namespace Clearing

/-- Whether two engines have the same store, with the same past, and the same outbox. -/
structure Engine.Untouched (before after : Engine Watched) : Prop where
  history : after.storage.history = before.storage.history
  outbox : after.outbox = before.outbox

namespace Chronicle

variable {c : Chronicle}

/-- A request that is answered with a fault has done nothing. -/
theorem untouched_of_serve (keyed : c.store.Keyed) {r : Request} {fault : Fault}
    (h : (c.engine.serve r).1 = .error fault) :
    c.engine.notices r = [] ∧ c.engine.Untouched (c.engine.serve r).2 := by
  cases taken : c.engine.takes r with
  | false =>
    rw [Engine.serve_of_not_takes taken, Engine.notices, taken]
    exact ⟨rfl, rfl, rfl⟩
  | true =>
    obtain ⟨result, effect, answer⟩ := served_of_takes keyed taken
    have hresult : ∃ other, result = .error other := by
      cases result with
      | error other => exact ⟨other, rfl⟩
      | ok ps => cases h.symm.trans ((answer ps).mpr rfl)
    obtain ⟨other, rfl⟩ := hresult
    have hmoment : (c.obey (.request r)).moment = c.moment := effect.of_error
    have hsent : c.sent ++ c.engine.notices r = c.sent := congrArg Moment.sent hmoment
    have hnotices : c.engine.notices r = [] := List.append_right_eq_self.mp hsent
    refine ⟨hnotices, congrArg Moment.history hmoment, ?_⟩
    have hrun : c.engine.notices r = _ := if_pos taken
    rw [(Engine.runs_serve taken).outbox, ← hrun, hnotices]
    rfl

/-- An account that is not opened leaves everything as it was. -/
theorem untouched_of_openAccount {id : AccountId} {balance : Decimal} {fault : Fault}
    (h : (c.engine.openAccount id balance).1 = .error fault) :
    c.engine.Untouched (c.engine.openAccount id balance).2 := by
  have hrun := c.engine.runs_perform (Operation.opening id balance)
  have hens := (ensures_opening ⟨c.engine.storage.history, []⟩ id balance).run
  rw [Engine.openAccount_eq] at h ⊢
  refine ⟨?_, ?_⟩
  · rcases hens with ⟨other, -, hm⟩ | ⟨ha, -⟩
    · rw [hrun.storage]
      exact congrArg Moment.history hm
    · exact absurd (h.symm.trans ((hrun.answer _).mpr ha)) nofun
  · rw [hrun.outbox, notices_opening]
    rfl

end Chronicle

namespace Inbox

/-- Start from a store without payments and do anything that an inbox can be asked to do, while any
call of the store may fail. Whatever the engine is told next, if it answers with a fault nothing was
sent, and the store and the outbox are as they were. -/
theorem fault_leaves_no_trace (settings : Settings) (accounts : Table Account) (lastId : UInt64)
    (plan : List (Option Fault)) (outbox : Outbox) (running : Bool) (acts : List Act) :
    let start : Engine Watched :=
      ⟨settings, .ofStore ⟨.empty, accounts, lastId⟩ plan, outbox, running⟩
    let engine := ((ofEngine start).actAll acts).engine
    (∀ id balance fault, (engine.openAccount id balance).1 = .error fault →
        engine.Untouched (engine.openAccount id balance).2) ∧
      (∀ request fault, (engine.serve request).1 = .error fault →
        engine.notices request = [] ∧ engine.Untouched (engine.serve request).2) ∧
      ∀ message now fault, (engine.handle now message).1 = .error fault →
        engine.notices (message.request now) = [] ∧
          engine.Untouched (engine.handle now message).2 := by
  intro start engine
  obtain ⟨commands, hengine⟩ : ∃ commands,
      engine = ((Chronicle.ofEngine start).follow commands).engine := exists_follow start acts
  have hstart : (Chronicle.ofEngine start).store.Keyed := fun _ _ => nofun
  have hkeyed := Chronicle.keyed_follow hstart commands
  rw [hengine]
  refine ⟨fun id balance fault h => ?_, fun r fault h => ?_, fun m now fault h => ?_⟩
  · exact Chronicle.untouched_of_openAccount h
  · exact Chronicle.untouched_of_serve hkeyed h
  · rw [Engine.handle_eq_serve] at h ⊢
    exact Chronicle.untouched_of_serve hkeyed h

/-- The largest coefficient. -/
theorem most_lt : (79228162514264337593543950335 : Int).natAbs < Decimal.coefficientBound := by
  decide

/-- The landlord has all the money that an account can hold. -/
def fullAccounts : Table Account :=
  Sample.accounts.put "landlord"
    ⟨"landlord", ⟨79228162514264337593543950335, 0, most_lt, Decimal.zero.scale_le⟩⟩

/-- The rent waits for its confirmation. -/
def rentChecked : List Act := Sample.checked.map fun r => .command (.request r)

/-- An engine whose next settlement is too much for the landlord. -/
def fullEngine : Engine Watched :=
  ((ofEngine ⟨.default, .ofStore ⟨.empty, fullAccounts, 0⟩ [], Sample.outbox, true⟩).actAll
    rentChecked).engine

/-- The worker drops the settlement, and nobody has lost or gained anything. -/
theorem fullEngine_untouched :
    (fullEngine.serve Sample.confirmed).1 = .error (.internal .jobDropped) ∧
      fullEngine.Untouched (fullEngine.serve Sample.confirmed).2 := by
  have hdropped : (fullEngine.serve Sample.confirmed).1 = .error (.internal .jobDropped) := by
    decide +kernel
  exact ⟨hdropped, ((fault_leaves_no_trace .default fullAccounts 0 [] Sample.outbox true
    rentChecked).2.1 Sample.confirmed _ hdropped).2⟩

end Inbox

end Clearing
