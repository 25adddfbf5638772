import Clearing.Proofs.Interleaving.Machine
import Clearing.Proofs.Program.Alone

/-!
# What justified calls keep

A rule for stores that no justified call breaks, where the records that were read obey a rule of
their own. It holds of every store that there is while a disciplined program runs alone, whichever
of its calls fail, and after every schedule of requests that are served together.
-/

namespace Clearing

/-- Whether the calls of some requests keep a rule for stores, when every record that is stored and
every record that was read obeys another rule. -/
structure Store.Abiding (limit : UInt64) (allowed : Request → Prop) (rule : Payment → Prop)
    (keeps : Store → Prop) : Prop where
  stored : ∀ s, keeps s → ∀ id p, s.payments.get? id = some p → rule p
  call : ∀ s r past c, allowed r → c.Justified limit r past → (∀ p, Read past p → rule p) →
    keeps s → keeps (s.answer c).2

variable {limit : UInt64} {allowed : Request → Prop} {rule : Payment → Prop} {keeps : Store → Prop}

/-- Every store that there is while a disciplined program runs alone keeps the rule. -/
theorem Store.Abiding.run (abiding : Abiding limit allowed rule keeps) {r : Request}
    (hr : allowed r) {α : Type} {p : Program α} {past : List Exchange} {w : Watched}
    (disciplined : p.Ensures (among limit r) (fun _ _ => True) past)
    (reads : ∀ q, Read past q → rule q) (h : ∀ s ∈ w.history.stores, keeps s) :
    ∀ s ∈ (p.run w).storage.history.stores, keeps s := by
  induction p generalizing past w with
  | done a => exact h
  | send notice next ih => exact ih disciplined reads h
  | call c next ih =>
    obtain ⟨justified, goesOn⟩ := disciplined
    have hpresent : keeps w.history.present := h _ List.mem_cons_self
    have hreads : ∀ q, Read (⟨c, (Storage.answer w c).1⟩ :: past) q → rule q := by
      intro q hq
      rcases w.answer_cases c with ⟨fault, hanswer, -⟩ | ⟨hanswer, -⟩ <;> rw [hanswer] at hq
      · exact reads q (read_cons_error hq)
      · rcases read_cons_answer hq with hread | ⟨id, hid⟩
        · exact reads q hread
        · exact abiding.stored _ hpresent id q hid
    have hstores : ∀ s ∈ (Storage.answer w c).2.history.stores, keeps s := by
      intro s hs
      rcases w.answer_cases c with ⟨fault, -, hhistory⟩ | ⟨-, hhistory⟩ <;> rw [hhistory] at hs
      · exact h s hs
      · rcases History.mem_stores_see.mp hs with rfl | hbefore
        · exact abiding.call _ r past c hr justified reads hpresent
        · exact h s hbefore
    exact ih _ (goesOn _ _ rfl) hreads hstores

/-- The store that a disciplined program leaves keeps the rule. -/
theorem Store.Abiding.run_plain (abiding : Abiding limit allowed rule keeps) {r : Request}
    (hr : allowed r) {α : Type} {p : Program α} {s : Store}
    (disciplined : p.Ensures (among limit r) (fun _ _ => True) []) (h : keeps s) :
    keeps (p.run s).storage := by
  have hstart : ∀ t ∈ (Watched.ofStore s []).history.stores, keeps t := by
    intro t ht
    rwa [List.mem_singleton.mp ht]
  have hrun := abiding.run hr disciplined (fun p read => absurd read (not_read_nil p)) hstart _
    List.mem_cons_self
  rwa [(p.run_of_shows (Watched.shows_ofStore s)).2.2.present] at hrun

/-- What holds of the accounts of a store alone is kept by every call of a request, if settlements
keep it. -/
theorem Store.abiding_of_settlements (limit : UInt64)
    (unmoved : ∀ s t : Store, t.accounts = s.accounts → keeps s → keeps t)
    (settles : ∀ (s : Store) (q : Payment) (version : UInt64) (t : Transfer),
      keeps s → keeps (s.commitTransfer q version t).2) :
    Abiding limit (fun _ => True) (fun _ => True) keeps := by
  refine ⟨fun _ _ _ _ _ => trivial, fun s r past c _ justified _ h => ?_⟩
  cases c with
  | get | findOverdue | allPayments | getAccount | allAccounts => exact h
  | storeAccount a => exact justified.elim
  | insert p =>
    simp only [answer, insert]
    split
    · exact h
    · exact unmoved s _ rfl h
  | update q version =>
    simp only [answer, update]
    split
    · exact unmoved s _ rfl h
    · exact h
  | commitTransfer q version t => exact settles s q version t h

namespace Machine

/-- What holds of a machine whose requests keep a rule: its store obeys it, its tasks are
disciplined and were begun by such requests, and every record that they have read obeys the rule for
records. -/
structure Abides (allowed : Request → Prop) (rule : Payment → Prop) (keeps : Store → Prop)
    (m : Machine) : Prop where
  store : keeps m.store
  disciplined : m.Disciplined
  allowed : ∀ t ∈ m.tasks, allowed t.request
  reads : ∀ t ∈ m.tasks, ∀ p, Read t.past p → rule p

theorem abides_ofStore {s : Store} (h : keeps s) : (ofStore limit s).Abides allowed rule keeps :=
  ⟨h, fun _ ht => absurd ht List.not_mem_nil, fun _ ht => absurd ht List.not_mem_nil,
    fun _ ht => absurd ht List.not_mem_nil⟩

/-- No move changes the time limit. -/
theorem limit_move (m : Machine) (move : Move) : (m.move move).limit = m.limit := by
  have hn := m.next_move move
  generalize m.move move = after at hn
  cases hn <;> rfl

/-- A task after a move was there before, further back, or has just begun. -/
theorem request_of_mem_move {m : Machine} {move : Move} {t : Task} (h : t ∈ (m.move move).tasks) :
    (∃ old ∈ m.tasks, old.request = t.request) ∨ move = .start t.request := by
  have hproceed (i : Nat) (reply : (c : Call) → Except Fault c.Answer × Store)
      (h : t ∈ (m.proceed i reply).tasks) : ∃ old ∈ m.tasks, old.request = t.request := by
    unfold proceed at h
    split at h
    · exact ⟨t, h, rfl⟩
    · next r past rest hget =>
      have hold := List.mem_of_getElem? hget
      cases rest with
      | done => exact ⟨t, h, rfl⟩
      | send | call =>
        rcases List.mem_or_eq_of_mem_set h with hm | rfl
        · exact ⟨t, hm, rfl⟩
        · exact ⟨_, hold, rfl⟩
  cases move with
  | start r =>
    rcases List.mem_append.mp h with hm | hm
    · exact .inl ⟨t, hm, rfl⟩
    · rw [List.mem_singleton.mp hm]
      exact .inr rfl
  | step i => exact .inl (hproceed i _ h)
  | fail i fault => exact .inl (hproceed i _ h)

/-- A move keeps the rule, if it begins an allowed request or none. -/
theorem Abides.move {m : Machine} (h : m.Abides allowed rule keeps)
    (abiding : Store.Abiding m.limit allowed rule keeps) {move : Move}
    (begins : ∀ r, move = .start r → allowed r) : (m.move move).Abides allowed rule keeps := by
  have hn := m.next_move move
  have hallowed : ∀ t ∈ (m.move move).tasks, allowed t.request := by
    intro t ht
    rcases request_of_mem_move ht with ⟨old, hold, hrequest⟩ | hstart
    · rw [← hrequest]
      exact h.allowed old hold
    · exact begins _ hstart
  refine ⟨?_, h.disciplined.next hn, hallowed, reads_next h.reads (abiding.stored _ h.store) hn⟩
  generalize m.move move = after at hn
  cases hn with
  | idle | started | noticed => exact h.store
  | @answered t c rest answer store i mem calls answers =>
    rcases answers with hs | ⟨fault, hs⟩
    · have hstore : store = (m.store.answer c).2 := congrArg Prod.snd hs
      rw [hstore]
      exact abiding.call _ _ _ c (h.allowed t mem) (h.disciplined.justified mem calls)
        (h.reads t mem) h.store
    · cases hs
      exact h.store

/-- Every schedule of allowed requests keeps the rule. -/
theorem Abides.play {m : Machine} (h : m.Abides allowed rule keeps)
    (abiding : Store.Abiding m.limit allowed rule keeps) {moves : List Move}
    (begins : ∀ r, .start r ∈ moves → allowed r) : (m.play moves).Abides allowed rule keeps := by
  induction moves generalizing m with
  | nil => exact h
  | cons move moves ih =>
    have hfirst : ∀ r, move = .start r → allowed r := by
      rintro r rfl
      exact begins r List.mem_cons_self
    refine ih (h.move abiding hfirst) ?_ fun r hr => begins r (List.mem_cons_of_mem _ hr)
    rw [limit_move]
    exact abiding

end Machine

end Clearing
