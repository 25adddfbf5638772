import Clearing.Proofs.Engine.Authorisation
import Clearing.Proofs.Engine.WellFormed
import Clearing.Proofs.Operation.Silence

/-!
# What lasts while an engine runs

An engine over a plain store, on which no call fails, and the requests that it answers without a
fault. A request that it does not answer changes nothing. What no opening of an account and no write
of some requests takes away lasts as long as the engine answers those requests only.
-/

namespace Clearing

/-- Whether a property of stores lasts while nothing is written but for certain requests. -/
structure Store.Lasting (limit : UInt64) (allowed : Request → Prop) (keeps : Store → Prop) :
    Prop where
  putAccount : ∀ s a, keeps s → keeps (s.putAccount a)
  write : ∀ s r q t, allowed r → s.Keyed → s.Write limit r q t → keeps s → keeps t

namespace Store

variable {limit : UInt64}

theorem lasting_keyed : Lasting limit (fun _ => True) Keyed :=
  ⟨fun _ _ h => h, fun _ _ _ _ _ _ write h => write.keyed h⟩

theorem lasting_wellFormed : Lasting limit (fun _ => True) (WellFormed limit) :=
  ⟨fun _ a h => h.putAccount a, fun _ _ _ _ _ _ write h => write.wellFormed h⟩

/-- No write replaces a final record. -/
theorem lasting_finished (id : String) (p : Payment) :
    Lasting limit (fun _ => True) fun s => s.Finished id p := by
  refine ⟨fun _ _ h => ⟨h.stored, h.final⟩, fun s r q t _ _ write h => ⟨?_, h.final⟩⟩
  rw [write.get?]
  split
  · next hid =>
    subst hid
    rcases write.begins_or_changes with ⟨absent, -⟩ | ⟨old, stored, change, -⟩
    · exact absurd (h.stored.symm.trans absent) nofun
    · cases h.stored.symm.trans stored
      exact absurd (h.final.symm.trans change.isOpen) nofun
  · exact h.stored

end Store

namespace Engine

section Accepted

variable {σ : Type} [Storage σ]

/-- The request of a command, if the engine answers it without a fault. -/
def accepted? (e : Engine σ) : Command → Option Request
  | .request r => if (e.serve r).1.isOk then some r else none
  | .opening _ _ | .shutdown => none

/-- The requests that an engine answers without a fault while it obeys commands. -/
def accepted (e : Engine σ) : List Command → List Request
  | [] => []
  | command :: rest => (e.accepted? command).toList ++ (e.obey command).accepted rest

end Accepted

variable {e : Engine Store}

/-- A request that an engine takes has one of its effects. -/
theorem served_of_takes (keyed : e.storage.Keyed) {r : Request} (taken : e.takes r = true) :
    ∃ result after, Served e.settings.timeLimit ⟨⟨e.storage, []⟩, []⟩ r result after ∧
      (e.serve r).2.storage = after.store ∧ ∀ ps, (e.serve r).1 = .ok ps ↔ result = .ok ps := by
  have hrun := runs_serve taken
  have hens : (r.operation e.settings.timeLimit).Ensures alone
      (Served e.settings.timeLimit ⟨⟨e.storage, []⟩, []⟩ r) ⟨⟨e.storage, []⟩, []⟩ :=
    Operation.ensures_operation_alone (m := ⟨⟨e.storage, []⟩, []⟩) keyed r
  obtain ⟨after, effect, hstore⟩ := Program.Ensures.run_plain hens
  exact ⟨_, after, effect, hrun.storage.trans hstore.symm, hrun.answer⟩

/-- A request that is answered without a fault has been taken and has one of its effects. -/
theorem served_of_ok (keyed : e.storage.Keyed) {r : Request} {ps : List Payment}
    (h : (e.serve r).1 = .ok ps) :
    ∃ after, Served e.settings.timeLimit ⟨⟨e.storage, []⟩, []⟩ r (.ok ps) after ∧
      (e.serve r).2.storage = after.store := by
  cases taken : e.takes r with
  | false =>
    rw [serve_of_not_takes taken] at h
    exact absurd h nofun
  | true =>
    obtain ⟨result, after, effect, hstore, answer⟩ := served_of_takes keyed taken
    cases (answer ps).mp h
    exact ⟨after, effect, hstore⟩

/-- A request that is answered with a fault leaves the store. -/
theorem storage_of_error (keyed : e.storage.Keyed) {r : Request} {fault : Fault}
    (h : (e.serve r).1 = .error fault) : (e.serve r).2.storage = e.storage := by
  cases taken : e.takes r with
  | false => rw [serve_of_not_takes taken]
  | true =>
    obtain ⟨result, after, effect, hstore, answer⟩ := served_of_takes keyed taken
    cases result with
    | error other => rw [hstore, effect.of_error]; rfl
    | ok ps => exact absurd (h.symm.trans ((answer ps).mpr rfl)) nofun

/-- An account is opened over any account of its name, or the store stays. -/
theorem storage_opening (e : Engine Store) (id : AccountId) (balance : Decimal) :
    (e.obey (.opening id balance)).storage = e.storage ∨
      ∃ a, (e.obey (.opening id balance)).storage = e.storage.putAccount a := by
  have hens := Chronicle.ensures_opening ⟨⟨e.storage, []⟩, []⟩ id balance
  obtain ⟨after, effect, hstore⟩ := Program.Ensures.run_plain hens
  change ((Operation.opening id balance).run e.storage).storage = _ ∨
    ∃ a, ((Operation.opening id balance).run e.storage).storage = _
  rcases effect with ⟨-, -, rfl⟩ | ⟨-, rfl⟩
  · exact .inl hstore.symm
  · rw [Moment.store_see] at hstore
    exact .inr ⟨_, hstore.symm⟩

variable {allowed : Request → Prop} {keeps : Store → Prop}

/-- What no write of a request takes away, if it is answered without a fault, outlives the
request. -/
theorem lasts_serve (keeps : Store → Prop) (keyed : e.storage.Keyed) (h : keeps e.storage)
    {r : Request}
    (write : ∀ ps, (e.serve r).1 = .ok ps → ∀ s q t, s.Keyed →
      s.Write e.settings.timeLimit r q t → keeps s → keeps t) : keeps (e.serve r).2.storage := by
  cases answer : (e.serve r).1 with
  | error fault =>
    rw [storage_of_error keyed answer]
    exact h
  | ok ps =>
    obtain ⟨after, effect, hstore⟩ := served_of_ok keyed answer
    obtain ⟨qs, writes⟩ := effect.writes
    rw [hstore]
    have hboth : after.store.Keyed ∧ keeps after.store := by
      refine writes.lasts (fun s q t hw (h : s.Keyed ∧ keeps s) => ?_) ⟨keyed, h⟩
      exact ⟨hw.keyed h.1, write ps answer s q t h.1 hw h.2⟩
    exact hboth.2

/-- What lasts outlives a command. -/
theorem lasts_obey (lasting : Store.Lasting e.settings.timeLimit allowed keeps)
    (keyed : e.storage.Keyed) (h : keeps e.storage) {command : Command}
    (since : ∀ r ∈ e.accepted? command, allowed r) : keeps (e.obey command).storage := by
  cases command with
  | shutdown => exact h
  | opening id balance =>
    rcases e.storage_opening id balance with same | ⟨a, opened⟩
    · rwa [same]
    · rw [opened]
      exact lasting.putAccount _ a h
  | request r =>
    refine lasts_serve keeps keyed h fun ps answer s q t => ?_
    have accepted : e.accepted? (.request r) = some r := by
      rw [accepted?, answer]
      rfl
    exact lasting.write s r q t (since r accepted)

/-- What lasts outlives all commands, as long as the engine answers those requests only. -/
theorem lasts_obeyAll (lasting : Store.Lasting e.settings.timeLimit allowed keeps)
    (keyed : e.storage.Keyed) (h : keeps e.storage) {commands : List Command}
    (since : ∀ r ∈ e.accepted commands, allowed r) : keeps (e.obeyAll commands).storage := by
  induction commands generalizing e with
  | nil => exact h
  | cons command rest ih =>
    have first : ∀ r ∈ e.accepted? command, allowed r := fun r hr =>
      since r (List.mem_append_left _ (Option.mem_toList.mpr hr))
    have others : ∀ r ∈ (e.obey command).accepted rest, allowed r := fun r hr =>
      since r (List.mem_append_right _ hr)
    have hsettings := e.settings_obey command
    have hkeyed : (e.obey command).storage.Keyed :=
      lasts_obey Store.lasting_keyed keyed keyed fun _ _ => trivial
    refine ih ?_ hkeyed (lasts_obey lasting keyed h first) others
    rw [hsettings]
    exact lasting

/-- A well-formed store stays well-formed. -/
theorem wellFormed_obeyAll (h : e.storage.WellFormed e.settings.timeLimit)
    (commands : List Command) : (e.obeyAll commands).storage.WellFormed e.settings.timeLimit :=
  lasts_obeyAll Store.lasting_wellFormed h.keyed h fun _ _ => trivial

end Engine

end Clearing
