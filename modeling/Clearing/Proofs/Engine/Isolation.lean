import Clearing.Proofs.Engine.Atomicity
import Clearing.Proofs.Engine.Watched
import Clearing.Proofs.Operation.Calm

/-!
# What a failed confirmation leaves to the others

A confirmation that fails leaves an engine that confirms all other payments as it would have done
without it, with one exception. When a balance overflows while the worker is settling, the worker is
gone, and from then on no payment is confirmed any more. When no call fails, this happens exactly
when the payment could be settled but for the balance.
-/

namespace Clearing

namespace Engine

/-- The engine when these calls are to fail from now on. -/
def facing (e : Engine Watched) (failures : List (Option Fault)) : Engine Watched :=
  ⟨e.settings, ⟨e.storage.history, failures⟩, e.outbox, e.running⟩

/-- Whether a decision breaks the worker. -/
def Breaks (e : Engine Watched) (d : Decision) (now : Time.Instant) : Prop :=
  e.running = true ∧ ∃ cause,
    ((Operation.settle e.settings.timeLimit d now).run e.storage).result = .error (.overflow cause)

variable {e : Engine Watched} {d : Decision} {now : Time.Instant}

/-- A decision that breaks the worker is dropped, and the worker is gone. -/
theorem Breaks.confirm (h : e.Breaks d now) :
    (e.confirm d now).1 = .error (.internal .jobDropped) ∧
      (e.confirm d now).2.running = false := by
  obtain ⟨running, cause, overflow⟩ := h
  rw [Engine.confirm, if_pos running]
  exact work_of_overflow overflow

/-- A decision that does not break the worker leaves it as it is. -/
theorem running_confirm (h : ¬ e.Breaks d now) : (e.confirm d now).2.running = e.running := by
  unfold Engine.confirm
  split
  · next running =>
    have hwhole (cause : Decimal.Overflow) : ((Operation.settle e.settings.timeLimit d now).run
        e.storage).result ≠ .error (.overflow cause) := fun overflow => h ⟨running, cause, overflow⟩
    rw [work_eq_perform hwhole]
    rfl
  · rfl

/-- Without a worker nothing is confirmed. -/
theorem confirm_of_stopped (h : e.running = false) (d : Decision) (now : Time.Instant) :
    e.confirm d now = (.error (.internal .workerStopped), e) := by
  rw [Engine.confirm, h]
  rfl

/-- An engine that was left untouched with its worker differs in nothing but the calls that are to
fail. -/
theorem Untouched.facing {after : Engine Watched} (h : e.Untouched after)
    (settings : after.settings = e.settings) (running : after.running = e.running)
    (failures : List (Option Fault)) : after.facing failures = e.facing failures := by
  obtain ⟨history, outbox⟩ := h
  unfold Engine.facing
  rw [history, outbox, settings, running]

/-- When no call is to fail, the worker is broken exactly by the confirmation of a payment whose
money overflows a balance. -/
theorem breaks_iff (calm : e.storage.plan = []) (keyed : e.storage.history.present.Keyed) :
    e.Breaks d now ↔ e.running = true ∧ ∃ cause,
      Operation.Overflowing e.settings.timeLimit e.storage.history.present d now cause := by
  have hrun := Program.run_of_shows (ExceptT.run (Operation.settle e.settings.timeLimit d now))
    (⟨rfl, calm⟩ : e.storage.Shows e.storage.history.present)
  have hresult : ((Operation.settle e.settings.timeLimit d now).run e.storage).result =
      ((Operation.settle e.settings.timeLimit d now).run e.storage.history.present).result :=
    hrun.1
  unfold Breaks
  simp only [hresult, Operation.settle_overflows_iff keyed]

end Engine

namespace Inbox

/-- Start from a store without payments and do anything that an inbox can be asked to do, while any
call of the store may fail, and let a confirmation fail then. Unless it breaks the worker, whatever
is done next, and whatever calls fail then, every later confirmation is answered and leaves
everything as it would without the one that failed. If it breaks the worker, the settlement is
dropped and every later confirmation finds no worker. As long as no call is to fail, the worker is
broken exactly when the payment waits with all its checks passed, is confirmed in time, its payer
has the money and a balance overflows. -/
theorem failed_confirmation_isolated (settings : Settings) (accounts : Table Account)
    (lastId : UInt64) (plan : List (Option Fault)) (outbox : Outbox) (running : Bool)
    (acts : List Act) :
    let start : Engine Watched :=
      ⟨settings, .ofStore ⟨.empty, accounts, lastId⟩ plan, outbox, running⟩
    let engine := ((ofEngine start).actAll acts).engine
    ∀ d now fault, (engine.confirm d now).1 = .error fault →
      let after := (engine.confirm d now).2
      (¬ engine.Breaks d now → ∀ failures commands other later,
        ((after.facing failures).obeyAll commands).confirm other later =
          ((engine.facing failures).obeyAll commands).confirm other later) ∧
      (engine.Breaks d now → fault = .internal .jobDropped ∧
        ∀ failures commands other later,
          let lamed := (after.facing failures).obeyAll commands
          lamed.confirm other later = (.error (.internal .workerStopped), lamed)) ∧
      (engine.storage.plan = [] → (engine.Breaks d now ↔ engine.running = true ∧ ∃ cause,
        Operation.Overflowing settings.timeLimit engine.storage.history.present d now cause)) := by
  intro start engine d now fault failed after
  have hstart : start.storage.history.present.Keyed := fun _ _ => nofun
  obtain ⟨c, hengine, hkeyed, hlimit⟩ : ∃ c : Chronicle, engine = c.engine ∧ c.store.Keyed ∧
      c.limit = settings.timeLimit := exists_chronicle hstart acts
  have huntouched : engine.Untouched after := by
    have hserve : (engine.serve (.confirm d now)).1 = .error fault :=
      congrArg (Except.map ([·])) failed
    change engine.Untouched (engine.serve (.confirm d now)).2
    rw [hengine] at hserve ⊢
    exact (Chronicle.untouched_of_serve hkeyed hserve).2
  refine ⟨fun whole failures commands other later => ?_, fun breaks => ?_, fun unplanned => ?_⟩
  · have hsame : after.facing failures = engine.facing failures :=
      huntouched.facing (engine.settings_obey (.request (.confirm d now)))
        (Engine.running_confirm whole) failures
    rw [hsame]
  · obtain ⟨hdropped, hstopped⟩ := breaks.confirm
    refine ⟨Except.error.inj (failed.symm.trans hdropped), ?_⟩
    intro failures commands other later lamed
    have hfaced : (after.facing failures).running = false := hstopped
    have hlamed : lamed.running = false := Engine.stopped_obeyAll hfaced commands
    exact Engine.confirm_of_stopped hlamed other later
  · rw [← hlimit]
    rw [hengine] at unplanned ⊢
    exact Engine.breaks_iff unplanned hkeyed

/-- A confirmation of a payment that nobody knows changes nothing for the rent. -/
theorem unknown_confirmation_isolated :
    let engine := ((ofEngine (⟨.default, .ofStore ⟨.empty, Sample.accounts, 0⟩ [], Sample.outbox,
      true⟩ : Engine Watched)).actAll rentChecked).engine
    let after := (engine.confirm ⟨"food", true⟩ .epoch).2
    (engine.confirm ⟨"food", true⟩ .epoch).1 = .error (.unknownPayment "food") ∧
      (after.facing []).confirm ⟨"rent", true⟩ .epoch =
        (engine.facing []).confirm ⟨"rent", true⟩ .epoch := by
  intro engine after
  have failed : (engine.confirm ⟨"food", true⟩ .epoch).1 = .error (.unknownPayment "food") := by
    decide +kernel
  have whole : ¬ engine.Breaks ⟨"food", true⟩ .epoch := by
    rintro ⟨-, cause, overflow⟩
    have hunknown : ((Operation.settle engine.settings.timeLimit ⟨"food", true⟩ .epoch).run
        engine.storage).result = .error (.unknownPayment "food") := by
      decide +kernel
    exact absurd (hunknown.symm.trans overflow) nofun
  exact ⟨failed, (failed_confirmation_isolated .default Sample.accounts 0 [] Sample.outbox true
    rentChecked ⟨"food", true⟩ .epoch _ failed).1 whole [] [] ⟨"rent", true⟩ .epoch⟩

/-- The tenant is to pay for food as well, and its checks pass. -/
def foodChecked : List Act :=
  (.submit { Sample.rent with requestId := "food", payee := "grocer" } .epoch ::
    Check.all.map fun check => Request.check ⟨"food", .epoch, check, false, none⟩).map
    fun r => .command (.request r)

/-- The rent is too much for the landlord, and the food is not too much for the grocer. -/
def crowdedEngine : Engine Watched :=
  ((ofEngine ⟨.default, .ofStore ⟨.empty, fullAccounts.put "grocer" ⟨"grocer", .zero⟩, 0⟩ [],
    Sample.outbox, true⟩).actAll (rentChecked ++ foodChecked)).engine

/-- The food is paid unless the confirmation of the rent fails before. -/
theorem crowdedEngine_lamed :
    let after := (crowdedEngine.confirm ⟨"rent", true⟩ .epoch).2
    crowdedEngine.running = true ∧
      (crowdedEngine.confirm ⟨"rent", true⟩ .epoch).1 = .error (.internal .jobDropped) ∧
      (after.confirm ⟨"food", true⟩ .epoch).1 = .error (.internal .workerStopped) ∧
      (crowdedEngine.confirm ⟨"food", true⟩ .epoch).1.map Payment.status = .ok .completed := by
  decide +kernel

end Inbox

end Clearing
