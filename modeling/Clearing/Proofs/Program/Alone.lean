import Clearing.Proofs.Program.World

/-!
# Programs that run alone

A watched storage is a store whose calls may fail, as a plan says, and which remembers every store
that there has been. A call that fails changes nothing. A program that runs alone on it meets only
its own writes: what it ensures in that world holds after every run, whatever the plan.
-/

namespace Clearing

/-- The store as it is and all earlier ones, newest first. -/
structure History where
  present : Store
  earlier : List Store
  deriving DecidableEq, Repr

namespace History

/-- Every store that there has been. -/
def stores (h : History) : List Store := h.present :: h.earlier

/-- Look at the store again. -/
def see (h : History) (s : Store) : History :=
  if s = h.present then h else ⟨s, h.present :: h.earlier⟩

@[simp] theorem see_present (h : History) : h.see h.present = h := if_pos rfl

@[simp] theorem present_see (h : History) (s : Store) : (h.see s).present = s := by
  unfold see
  split
  · next hs => exact hs.symm
  · rfl

/-- Looking again adds the store that is seen to those that there have been. -/
theorem mem_stores_see {h : History} {s t : Store} :
    t ∈ (h.see s).stores ↔ t = s ∨ t ∈ h.stores := by
  unfold see
  split
  · next hs =>
    subst hs
    simp [stores]
  · simp [stores]

end History

/-- A store under watch. Each call to come fails or is answered, as the plan says; when the plan is
used up no call fails any more. -/
structure Watched where
  history : History
  plan : List (Option Fault)
  deriving DecidableEq, Repr

namespace Watched

/-- Begin to watch a store. -/
def ofStore (s : Store) (plan : List (Option Fault)) : Watched := ⟨⟨s, []⟩, plan⟩

/-- Answer a call, unless it fails. -/
def answer (w : Watched) (c : Call) : Except Fault c.Answer × Watched :=
  match w.plan with
  | some fault :: rest => (.error fault, { w with plan := rest })
  | plan =>
      let (answer, store) := w.history.present.answer c
      (answer, ⟨w.history.see store, plan.tail⟩)

instance : Storage Watched := ⟨answer⟩

/-- A call fails and changes nothing, or it is answered by the store. -/
theorem answer_cases (w : Watched) (c : Call) :
    (∃ fault, (Storage.answer w c).1 = .error fault ∧
      (Storage.answer w c).2.history = w.history) ∨
    (Storage.answer w c).1 = (w.history.present.answer c).1 ∧
      (Storage.answer w c).2.history = w.history.see (w.history.present.answer c).2 := by
  change (∃ fault, (w.answer c).1 = _ ∧ (w.answer c).2.history = _) ∨
    (w.answer c).1 = _ ∧ (w.answer c).2.history = _
  unfold answer
  split
  · exact .inl ⟨_, rfl, rfl⟩
  · exact .inr ⟨rfl, rfl⟩

end Watched

/-- What a program that runs alone has made of the world. -/
structure Moment where
  history : History
  /-- The notices in the order in which they were sent. -/
  sent : List Notice

namespace Moment

/-- The store as it is. -/
def store (m : Moment) : Store := m.history.present

/-- Look at the store again. -/
def see (m : Moment) (s : Store) : Moment := { m with history := m.history.see s }

/-- Send notices. -/
def send (m : Moment) (notices : List Notice) : Moment := { m with sent := m.sent ++ notices }

@[simp] theorem store_see (m : Moment) (s : Store) : (m.see s).store = s := m.history.present_see s

@[simp] theorem see_store (m : Moment) : m.see m.store = m := by simp [see, store]

@[simp] theorem store_send (m : Moment) (notices : List Notice) :
    (m.send notices).store = m.store := rfl

@[simp] theorem send_nil (m : Moment) : m.send [] = m := by simp [send]

@[simp] theorem send_send (m : Moment) (first second : List Notice) :
    (m.send first).send second = m.send (first ++ second) := by simp [send]

end Moment

/-- The world of a program that runs alone: each call is answered by the store or fails. -/
def alone : World Moment where
  allows _ _ := True
  answers m c answer after :=
    (∃ fault, answer = .error fault ∧ after = m) ∨
      answer = (m.store.answer c).1 ∧ after = m.see (m.store.answer c).2
  hears m notice := m.send [notice]

@[simp] theorem alone_hears (m : Moment) (notice : Notice) :
    alone.hears m notice = m.send [notice] := rfl

/-- What a program ensures alone holds after it was run on a watched store. -/
theorem Program.Ensures.run {α : Type} {p : Program α} {post : α → Moment → Prop} {w : Watched}
    {sent : List Notice} (h : p.Ensures alone post ⟨w.history, sent⟩) :
    post (p.run w).result ⟨(p.run w).storage.history, sent ++ (p.run w).notices⟩ := by
  induction p generalizing w sent with
  | done a =>
    rw [Program.run, List.append_nil]
    exact h
  | call c next ih =>
    have hn : (next (Storage.answer w c).1).Ensures alone post
        ⟨(Storage.answer w c).2.history, sent⟩ := by
      refine h.2 _ _ ?_
      rcases w.answer_cases c with ⟨fault, ha, hh⟩ | ⟨ha, hh⟩
      · exact .inl ⟨fault, ha, congrArg (Moment.mk · sent) hh⟩
      · exact .inr ⟨ha, congrArg (Moment.mk · sent) hh⟩
    exact ih _ hn
  | send notice next ih =>
    have hn := ih h
    simpa [Program.run] using hn

/-- Whether a watched store shows a store and lets no call fail. -/
structure Watched.Shows (w : Watched) (s : Store) : Prop where
  present : w.history.present = s
  plan : w.plan = []

/-- A watched store shows the store at the beginning of the watch. -/
theorem Watched.shows_ofStore (s : Store) : (Watched.ofStore s []).Shows s := ⟨rfl, rfl⟩

/-- A program that runs on a watched store that lets no call fail runs as on the store itself. -/
theorem Program.run_of_shows {α : Type} (p : Program α) {w : Watched} {s : Store} (h : w.Shows s) :
    (p.run w).result = (p.run s).result ∧ (p.run w).notices = (p.run s).notices ∧
      (p.run w).storage.Shows (p.run s).storage := by
  induction p generalizing w s with
  | done a => exact ⟨rfl, rfl, h⟩
  | call c next ih =>
    obtain ⟨history, plan⟩ := w
    obtain ⟨rfl, rfl⟩ := h
    exact ih (history.present.answer c).1 ⟨history.present_see _, rfl⟩
  | send notice next ih =>
    obtain ⟨hr, hn, hs⟩ := ih h
    exact ⟨hr, congrArg (notice :: ·) hn, hs⟩

/-- What a program ensures alone holds after it was run on a store. -/
theorem Program.Ensures.run_plain {α : Type} {p : Program α} {post : α → Moment → Prop} {s : Store}
    (h : p.Ensures alone post ⟨⟨s, []⟩, []⟩) :
    ∃ after, post (p.run s).result after ∧ after.store = (p.run s).storage := by
  obtain ⟨hresult, -, hstorage⟩ := p.run_of_shows (Watched.shows_ofStore s)
  have hrun := h.run (w := Watched.ofStore s [])
  rw [hresult] at hrun
  exact ⟨_, hrun, hstorage.present⟩

namespace Operation

/-- A call alone fails and changes nothing, or is answered by the store. -/
theorem ensures_ask_alone {c : Call} {post : Except Fault c.Answer → Moment → Prop} {m : Moment} :
    (ask c).Ensures alone post m ↔
      (∀ fault, post (.error fault) m) ∧
        post (m.store.answer c).1 (m.see (m.store.answer c).2) := by
  constructor
  · intro h
    exact ⟨fun fault => h.2 _ _ (.inl ⟨fault, rfl, rfl⟩), h.2 _ _ (.inr ⟨rfl, rfl⟩)⟩
  · rintro ⟨hf, ha⟩
    refine ⟨trivial, ?_⟩
    rintro answer after (⟨fault, rfl, rfl⟩ | ⟨rfl, rfl⟩)
    · exact hf fault
    · exact ha

end Operation

end Clearing
