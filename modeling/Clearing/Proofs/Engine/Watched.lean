import Clearing.Proofs.Engine.Command
import Clearing.Proofs.Program.Alone

/-!
# Engines over a watched store

A watched store lets nothing fail when its plan is used up. An engine over it then answers, sends
and stores what an engine over the store itself does, so what is known of every run over watched
stores is known of the runs over plain ones.
-/

namespace Clearing.Engine

variable {α : Type}

/-- Whether an engine over a watched store does what an engine over a store does. -/
structure Shows (w : Engine Watched) (e : Engine Store) : Prop where
  settings : w.settings = e.settings
  storage : w.storage.Shows e.storage
  outbox : w.outbox = e.outbox
  running : w.running = e.running

namespace Shows

variable {w : Engine Watched} {e : Engine Store}

theorem perform (h : w.Shows e) (op : Operation α) :
    (w.perform op).1 = (e.perform op).1 ∧ (w.perform op).2.Shows (e.perform op).2 := by
  obtain ⟨hresult, hnotices, hstorage⟩ := Program.run_of_shows (ExceptT.run op) h.storage
  have houtbox : (w.perform op).2.outbox = (e.perform op).2.outbox := by
    change w.outbox.acceptAll _ = e.outbox.acceptAll _
    rw [h.outbox]
    exact congrArg e.outbox.acceptAll hnotices
  exact ⟨hresult, h.settings, hstorage, houtbox, h.running⟩

theorem work (h : w.Shows e) (op : Operation α) :
    (w.work op).1 = (e.work op).1 ∧ (w.work op).2.Shows (e.work op).2 := by
  obtain ⟨hanswer, hshows⟩ := h.perform op
  unfold Engine.work
  generalize w.perform op = first at hanswer hshows
  generalize e.perform op = second at hanswer hshows
  obtain ⟨answer, w'⟩ := first
  obtain ⟨other, e'⟩ := second
  dsimp only at hanswer hshows
  subst hanswer
  rcases answer with fault | a
  · cases fault with
    | overflow =>
      exact ⟨rfl, hshows.settings, hshows.storage, hshows.outbox, rfl⟩
    | _ => exact ⟨rfl, hshows⟩
  · exact ⟨rfl, hshows⟩

theorem single {first : Except Fault Payment × Engine Watched}
    {second : Except Fault Payment × Engine Store}
    (h : first.1 = second.1 ∧ first.2.Shows second.2) :
    (Engine.single first).1 = (Engine.single second).1 ∧
      (Engine.single first).2.Shows (Engine.single second).2 := by
  refine ⟨?_, h.2⟩
  change first.1.map _ = second.1.map _
  rw [h.1]

theorem serve (h : w.Shows e) (r : Request) :
    (w.serve r).1 = (e.serve r).1 ∧ (w.serve r).2.Shows (e.serve r).2 := by
  cases r with
  | submit b now => exact single (h.perform _)
  | check c =>
    simp only [Engine.serve, applyCheck, h.settings]
    exact single (h.perform _)
  | confirm d now =>
    simp only [Engine.serve, confirm, h.settings, h.running]
    refine single ?_
    split
    · exact h.work _
    · exact ⟨rfl, h⟩
  | sweep now =>
    simp only [Engine.serve, sweep, h.settings]
    exact h.perform _

theorem obey (h : w.Shows e) (command : Command) : (w.obey command).Shows (e.obey command) := by
  cases command with
  | opening id balance => exact (h.perform _).2
  | request r => exact (h.serve r).2
  | shutdown => exact ⟨h.settings, h.storage, h.outbox, rfl⟩

/-- An engine over a store does what an engine over the watched store does, when no call fails. -/
theorem obeyAll (h : w.Shows e) (commands : List Command) :
    (w.obeyAll commands).Shows (e.obeyAll commands) := by
  induction commands generalizing w e with
  | nil => exact h
  | cons command commands ih => exact ih (h.obey command)

end Shows

/-- What an engine does over a store, it does over the store under watch. -/
theorem obeyAll_ofStore (e : Engine Store) (commands : List Command) :
    ((⟨e.settings, .ofStore e.storage [], e.outbox, e.running⟩ : Engine Watched).obeyAll
      commands).Shows (e.obeyAll commands) :=
  Shows.obeyAll ⟨rfl, Watched.shows_ofStore e.storage, rfl, rfl⟩ commands

end Clearing.Engine
