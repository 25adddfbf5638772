import Clearing.Proofs.Operation.Discipline

/-!
# Requests in any order

Many requests are served over one store at the same time, and nothing orders them. Each of them is
a task that takes one step at a time, a call of the store or a notice, and from outside it is said
which task goes on and whether its call fails. A rule that every step keeps holds after every
schedule.
-/

namespace Clearing

/-- A request that is being served. -/
structure Task where
  request : Request
  /-- The calls so far and their answers, newest first. -/
  past : List Exchange
  rest : Program (Except Fault (List Payment))

/-- What happens next. -/
inductive Move where
  /-- A request begins to be served. -/
  | start (r : Request)
  /-- A task makes its next call or sends its next notice. -/
  | step (task : Nat)
  /-- The next call of a task fails without effect. -/
  | fail (task : Nat) (fault : Fault)

/-- The tasks of a store, and what they have done. -/
structure Machine where
  limit : UInt64
  store : Store
  tasks : List Task
  /-- Every call and its answer, oldest first. -/
  exchanges : List Exchange
  sent : List Notice

namespace Machine

/-- A store before the first request. -/
def ofStore (limit : UInt64) (s : Store) : Machine := ⟨limit, s, [], [], []⟩

/-- Let a task go one step on; a call of it is answered as `reply` says. -/
def proceed (m : Machine) (i : Nat) (reply : (c : Call) → Except Fault c.Answer × Store) :
    Machine :=
  match m.tasks[i]? with
  | none => m
  | some ⟨r, past, rest⟩ =>
      match rest with
      | .done _ => m
      | .send notice next =>
          { m with
            tasks := m.tasks.set i ⟨r, past, next⟩
            sent := m.sent ++ [notice] }
      | .call c next =>
          let (answer, store) := reply c
          { m with
            store := store
            tasks := m.tasks.set i ⟨r, ⟨c, answer⟩ :: past, next answer⟩
            exchanges := m.exchanges ++ [⟨c, answer⟩] }

/-- Make a move. -/
def move (m : Machine) : Move → Machine
  | .start r => { m with tasks := m.tasks ++ [⟨r, [], ExceptT.run (r.operation m.limit)⟩] }
  | .step i => m.proceed i m.store.answer
  | .fail i fault => m.proceed i fun _ => (.error fault, m.store)

/-- Make moves one after the other. -/
def play (m : Machine) (moves : List Move) : Machine := moves.foldl move m

/-- What one move makes of a machine. -/
inductive Next (m : Machine) : Machine → Prop
  | idle : Next m m
  | started (r : Request) :
      Next m { m with tasks := m.tasks ++ [⟨r, [], ExceptT.run (r.operation m.limit)⟩] }
  | noticed {t : Task} {notice : Notice} {rest : Program (Except Fault (List Payment))} (i : Nat)
      (mem : t ∈ m.tasks) (sends : t.rest = .send notice rest) :
      Next m
        { m with
          tasks := m.tasks.set i { t with rest := rest }
          sent := m.sent ++ [notice] }
  | answered {t : Task} {c : Call}
      {rest : Except Fault c.Answer → Program (Except Fault (List Payment))}
      {answer : Except Fault c.Answer} {store : Store} (i : Nat) (mem : t ∈ m.tasks)
      (calls : t.rest = .call c rest)
      (answers : (answer, store) = m.store.answer c ∨
        ∃ fault, (answer, store) = (.error fault, m.store)) :
      Next m
        { m with
          store := store
          tasks := m.tasks.set i ⟨t.request, ⟨c, answer⟩ :: t.past, rest answer⟩
          exchanges := m.exchanges ++ [⟨c, answer⟩] }

/-- A task goes one step on, if there is one that can. -/
theorem next_proceed (m : Machine) (i : Nat)
    {reply : (c : Call) → Except Fault c.Answer × Store}
    (h : ∀ c, reply c = m.store.answer c ∨ ∃ fault, reply c = (.error fault, m.store)) :
    m.Next (m.proceed i reply) := by
  unfold proceed
  split
  · exact .idle
  · next r past rest ht =>
    have hmem := List.mem_of_getElem? ht
    cases rest with
    | done result => exact .idle
    | send notice rest => exact .noticed i hmem rfl
    | call c rest => exact .answered i hmem rfl (h c)

/-- Every move is one of the steps. -/
theorem next_move (m : Machine) (move : Move) : m.Next (m.move move) := by
  cases move with
  | start r => exact .started r
  | step i => exact m.next_proceed i fun c => .inl rfl
  | fail i fault => exact m.next_proceed i fun c => .inr ⟨fault, rfl⟩

/-- What every step keeps holds after every schedule. -/
theorem holds_play {rule : Machine → Prop} {m : Machine} (h : rule m)
    (step : ∀ {m next}, rule m → m.Next next → rule next) (moves : List Move) :
    rule (m.play moves) := by
  induction moves generalizing m with
  | nil => exact h
  | cons move moves ih => exact ih (step h (m.next_move move))

/-- A task whose next step is a call makes it. -/
theorem move_of_call {m : Machine} {i : Nat} {r : Request} {past : List Exchange} {c : Call}
    {next : Except Fault c.Answer → Program (Except Fault (List Payment))}
    (h : m.tasks[i]? = some ⟨r, past, .call c next⟩) :
    m.move (.step i) =
      { m with
        store := (m.store.answer c).2
        tasks := m.tasks.set i ⟨r, ⟨c, (m.store.answer c).1⟩ :: past, next (m.store.answer c).1⟩
        exchanges := m.exchanges ++ [⟨c, (m.store.answer c).1⟩] } := by
  simp only [move, proceed, h]

/-- A task whose next step is a notice sends it. -/
theorem move_of_send {m : Machine} {i : Nat} {r : Request} {past : List Exchange} {notice : Notice}
    {next : Program (Except Fault (List Payment))}
    (h : m.tasks[i]? = some ⟨r, past, .send notice next⟩) :
    m.move (.step i) =
      { m with
        tasks := m.tasks.set i ⟨r, past, next⟩
        sent := m.sent ++ [notice] } := by
  simp only [move, proceed, h]

/-- A request that is served without others does what its operation does when it is run alone. -/
theorem play_alone (m : Machine) {i : Nat} {t : Task} (h : m.tasks[i]? = some t) :
    ∃ steps, ∃ past,
      (m.play (List.replicate steps (.step i))).store = (t.rest.run m.store).storage ∧
      (m.play (List.replicate steps (.step i))).sent = m.sent ++ (t.rest.run m.store).notices ∧
      (m.play (List.replicate steps (.step i))).tasks[i]? =
        some ⟨t.request, past, .done (t.rest.run m.store).result⟩ := by
  obtain ⟨r, past, rest⟩ := t
  have hi : i < m.tasks.length := (List.getElem?_eq_some_iff.mp h).1
  induction rest generalizing m past with
  | done result => exact ⟨0, past, rfl, (List.append_nil _).symm, h⟩
  | call c next ih =>
    obtain ⟨steps, past', hs, hn, hd⟩ := ih _ { m with
        store := (m.store.answer c).2
        tasks := m.tasks.set i ⟨r, ⟨c, (m.store.answer c).1⟩ :: past, next (m.store.answer c).1⟩
        exchanges := m.exchanges ++ [⟨c, (m.store.answer c).1⟩] } _
      (List.getElem?_set_self hi) (by rwa [List.length_set])
    refine ⟨steps + 1, past', ?_⟩
    rw [List.replicate_succ, play, List.foldl_cons, move_of_call h]
    exact ⟨hs, hn, hd⟩
  | send notice next ih =>
    obtain ⟨steps, past', hs, hn, hd⟩ := ih { m with
        tasks := m.tasks.set i ⟨r, past, next⟩
        sent := m.sent ++ [notice] } _
      (List.getElem?_set_self hi) (by rwa [List.length_set])
    refine ⟨steps + 1, past', ?_⟩
    rw [List.replicate_succ, play, List.foldl_cons, move_of_send h]
    refine ⟨hs, hn.trans ?_, hd⟩
    exact List.append_assoc ..

/-- Whether every task is disciplined in what it still does. -/
def Disciplined (m : Machine) : Prop :=
  ∀ t ∈ m.tasks, t.rest.Ensures (among m.limit t.request) (fun _ _ => True) t.past

/-- Tasks stay disciplined, whatever they are answered. -/
theorem Disciplined.next {m after : Machine} (h : m.Disciplined) (hn : m.Next after) :
    after.Disciplined := by
  cases hn with
  | idle => exact h
  | started r =>
    intro t ht
    rcases List.mem_append.mp ht with hm | hm
    · exact h t hm
    · cases List.mem_singleton.mp hm
      exact Operation.disciplined_operation m.limit r []
  | noticed i mem sends =>
    intro t ht
    rcases List.mem_or_eq_of_mem_set ht with hm | rfl
    · exact h t hm
    · have hs := h _ mem
      rw [sends] at hs
      exact hs
  | answered i mem calls =>
    intro t ht
    rcases List.mem_or_eq_of_mem_set ht with hm | rfl
    · exact h t hm
    · have hc := h _ mem
      rw [calls] at hc
      exact hc.2 _ _ rfl

/-- What holds of every stored record and of every record that the tasks have read holds of what
they read next. -/
theorem reads_next {rule : Payment → Prop} {m after : Machine}
    (reads : ∀ t ∈ m.tasks, ∀ p, Read t.past p → rule p)
    (stored : ∀ id p, m.store.payments.get? id = some p → rule p) (hn : m.Next after) :
    ∀ t ∈ after.tasks, ∀ p, Read t.past p → rule p := by
  cases hn with
  | idle => exact reads
  | started r =>
    intro t ht p hp
    rcases List.mem_append.mp ht with hm | hm
    · exact reads t hm p hp
    · cases List.mem_singleton.mp hm
      exact absurd hp nofun
  | noticed i mem =>
    intro t ht
    rcases List.mem_or_eq_of_mem_set ht with hm | rfl
    · exact reads t hm
    · exact fun p hp => reads _ mem p hp
  | @answered t c rest answer store i mem calls answers =>
    intro t' ht p hp
    rcases List.mem_or_eq_of_mem_set ht with hm | rfl
    · exact reads t' hm p hp
    · rcases answers with hs | ⟨fault, hs⟩
      · have ha : answer = (m.store.answer c).1 := congrArg Prod.fst hs
        rw [ha] at hp
        rcases read_cons_answer hp with hread | ⟨id, hid⟩
        · exact reads _ mem p hread
        · exact stored id p hid
      · cases hs
        exact reads _ mem p (read_cons_error hp)

/-- The call that a disciplined task makes is justified. -/
theorem Disciplined.justified {m : Machine} (h : m.Disciplined) {t : Task} (mem : t ∈ m.tasks)
    {c : Call} {rest : Except Fault c.Answer → Program (Except Fault (List Payment))}
    (calls : t.rest = .call c rest) : c.Justified m.limit t.request t.past := by
  have hc := h t mem
  rw [calls] at hc
  exact hc.1

end Machine

end Clearing
