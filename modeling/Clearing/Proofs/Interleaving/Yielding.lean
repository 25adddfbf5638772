import Clearing.Proofs.Interleaving.Chain

/-!
# A write that comes too late has no effect

Each notice that a machine sends is sent by one of its tasks. A task whose write of a payment was
refused has written nothing of that payment, moved no money and said nothing of it. If it serves a
request for that payment alone it has done nothing at all; a sweep goes on with other payments. What
it returns in the end was stored after it had read the payment.
-/

namespace Clearing

open Clearing.Time

namespace Machine

/-- The notice that a task sends when it goes on, if that is what it does next. -/
def noticeOf (m : Machine) (i : Nat) : List Notice :=
  match m.tasks[i]? with
  | some ⟨_, _, .send notice _⟩ => [notice]
  | _ => []

/-- The notices that a task sends in one move. -/
def sends (m : Machine) (i : Nat) : Move → List Notice
  | .start _ => []
  | .step j | .fail j _ => if j = i then m.noticeOf i else []

/-- The notices that a task sends in a sequence of moves. -/
def sentBy (m : Machine) (i : Nat) : List Move → List Notice
  | [] => []
  | move :: moves => m.sends i move ++ (m.move move).sentBy i moves

end Machine

/-- Whether a task that has sent some notices conducts itself from there on. A task that has not
begun has sent none. -/
def Task.Conducted (sent : List Notice) : Option Task → Prop
  | none => sent = []
  | some t => t.rest.Ensures observed (Conduct t.request) ⟨t.past, sent⟩

namespace Machine

variable {m : Machine} {i : Nat} {sent : List Notice}

/-- A task that goes on leaves the others as they were. -/
theorem getElem?_proceed_of_ne (m : Machine) {i j : Nat} (h : j ≠ i)
    (reply : (c : Call) → Except Fault c.Answer × Store) :
    (m.proceed j reply).tasks[i]? = m.tasks[i]? := by
  unfold proceed
  split
  · rfl
  · split
    · rfl
    · exact List.getElem?_set_ne h
    · exact List.getElem?_set_ne h

/-- A task that goes on conducts itself. -/
theorem conducted_proceed (h : Task.Conducted sent m.tasks[i]?)
    {reply : (c : Call) → Except Fault c.Answer × Store}
    (keyed : ∀ c, (Exchange.mk c (reply c).1).Keyed) :
    Task.Conducted (sent ++ m.noticeOf i) (m.proceed i reply).tasks[i]? := by
  unfold proceed noticeOf
  cases ht : m.tasks[i]? with
  | none =>
    rw [ht] at h
    rw [List.append_nil, ht]
    exact h
  | some t =>
    rw [ht] at h
    obtain ⟨r, past, rest⟩ := t
    have hi := (List.getElem?_eq_some_iff.mp ht).1
    cases rest with
    | done result =>
      rw [List.append_nil, ht]
      exact h
    | send notice rest =>
      dsimp only
      rw [List.getElem?_set_self hi]
      exact h
    | call c rest =>
      dsimp only
      rw [List.append_nil, List.getElem?_set_self hi]
      exact h.2 _ _ ⟨keyed c, rfl⟩

/-- Every task conducts itself in a move. -/
theorem conducted_move (keyed : m.store.Keyed) (h : Task.Conducted sent m.tasks[i]?) (move : Move) :
    Task.Conducted (sent ++ m.sends i move) (m.move move).tasks[i]? := by
  have hproceed (j : Nat) {reply : (c : Call) → Except Fault c.Answer × Store}
      (hreply : ∀ c, (Exchange.mk c (reply c).1).Keyed) :
      Task.Conducted (sent ++ if j = i then m.noticeOf i else [])
        (m.proceed j reply).tasks[i]? := by
    by_cases hj : j = i
    · subst hj
      rw [if_pos rfl]
      exact conducted_proceed h hreply
    · rw [if_neg hj, List.append_nil, m.getElem?_proceed_of_ne hj]
      exact h
  cases move with
  | step j => exact hproceed j keyed.exchange
  | fail j fault => exact hproceed j fun c => Exchange.keyed_error c fault
  | start r =>
    change Task.Conducted (sent ++ []) (m.tasks ++ [_])[i]?
    rw [List.append_nil]
    rcases Nat.lt_trichotomy i m.tasks.length with hi | hi | hi
    · rw [List.getElem?_append_left hi]
      exact h
    · -- The new task has sent nothing, as nobody had this number before.
      subst hi
      rw [List.getElem?_eq_none (Nat.le_refl _)] at h
      cases h
      rw [List.getElem?_concat_length]
      exact Operation.conduct_operation m.limit r
    · rw [List.getElem?_eq_none (Nat.le_of_lt hi)] at h
      rw [List.getElem?_eq_none (by rw [List.length_append, List.length_singleton]; omega)]
      exact h

/-- Every task conducts itself in every sequence of moves. -/
theorem conducted_play {limit : UInt64} (linked : m.Linked limit)
    (h : Task.Conducted sent m.tasks[i]?) (moves : List Move) :
    Task.Conducted (sent ++ m.sentBy i moves) (m.play moves).tasks[i]? := by
  induction moves generalizing m sent with
  | nil =>
    rw [sentBy, List.append_nil]
    exact h
  | cons move moves ih =>
    rw [sentBy, ← List.append_assoc]
    exact ih (linked.next (m.next_move move)) (conducted_move linked.chained.keyed h move)

end Machine

/-- Whether a write of a task was refused because another writer was faster. -/
def Task.Lost (t : Task) (q : Payment) : Prop := ∃ e ∈ t.past, e.refused? = some q

/-- What a task that lost a write has done, and what it returns: nothing of that payment is written
or said and no money moved, nothing at all is done if that is the only payment of its request, and
what it returns was stored after it had read the payment. -/
structure Task.GivesWay (t : Task) (chain : String → List Payment) (sent : List Notice)
    (q : Payment) : Prop where
  unstored : ∀ e ∈ t.past, ∀ p, e.stored? = some p → p.requestId ≠ q.requestId
  untold : ∀ n ∈ sent, n.requestId ≠ q.requestId
  unsettled : ∀ e ∈ t.past, e.settled? = none
  single : t.request.requestId? ≠ none → sent = [] ∧ ∀ e ∈ t.past, e.stored? = none
  returned : ∀ ps, t.rest = .done (.ok ps) → ∀ p ∈ ps,
    ∃ read, Read t.past read ∧ Later (chain p.requestId) read p

/-- What is settled is stored. -/
theorem Exchange.unsettled_of_unstored {e : Exchange} (h : e.stored? = none) :
    e.settled? = none := by
  unfold settled?
  split
  · exact absurd h nofun
  · rfl

namespace Machine

variable {limit : UInt64} {m : Machine} {t : Task} {q : Payment}

/-- Only a confirmation settles a payment. -/
theorem Linked.unsettled_of_sweep (h : m.Linked limit) (ht : t ∈ m.tasks)
    (unnamed : t.request.requestId? = none) {e : Exchange} (he : e ∈ t.past) :
    e.settled? = none := by
  obtain ⟨newer, older, hpast⟩ := List.mem_iff_append.mp he
  have justified := (h.informed t ht).justified _ _ _ hpast
  unfold Exchange.settled?
  split
  · obtain ⟨p, -, -, change, completed, -⟩ := justified
    refine absurd completed (change.ne_completed fun d now hr => ?_)
    rw [hr] at unnamed
    exact absurd unnamed nofun
  · rfl

/-- A record that a sweep has stored was made of one that it had read before. -/
theorem Linked.later_of_stored (h : m.Linked limit)
    (counted : ∀ p ∈ m.records, p.version.toNat + 1 < UInt64.size) (ht : t ∈ m.tasks)
    (unnamed : t.request.requestId? = none) {e : Exchange} (he : e ∈ t.past)
    (stored : e.stored? = some q) :
    ∃ read, Read t.past read ∧ Later (m.chain q.requestId) read q := by
  obtain ⟨newer, older, hpast⟩ := List.mem_iff_append.mp he
  have justified := (h.informed t ht).justified _ _ _ hpast
  rcases Exchange.insert_or_replaces stored with ⟨p, hinsert⟩ | ⟨version, replaces⟩
  · rw [hinsert] at justified
    obtain ⟨b, now, hr, -⟩ := justified
    rw [hr] at unnamed
    exact absurd unnamed nofun
  · obtain ⟨o, ⟨id, hread⟩, -, change⟩ := justified.of_replaces replaces
    have hread' : Read t.past o := by
      rw [hpast]
      exact ⟨id, List.mem_append_right _ (List.mem_cons_of_mem e hread)⟩
    have ho : o ∈ m.chain q.requestId :=
      change.follows.requestId ▸ (h.informed t ht).reads o hread'
    have hq := (h.informed t ht).stored e he q stored
    refine ⟨o, hread', (h.unbroken counted _).later ho hq ?_⟩
    rw [change.follows.version,
      Payment.toNat_version_succ (counted o (List.mem_filter.mp ho).1)]
    exact Nat.lt_succ_self _

/-- A record that is read after a refusal is later than the one that was to be replaced. -/
theorem Linked.later_of_refused (h : m.Linked limit) (ht : t ∈ m.tasks) {e : Exchange}
    {older : List Exchange} {p : Payment} {version : UInt64}
    (hpast : t.past = ⟨.get q.requestId, .ok (some p)⟩ :: e :: older)
    (replaces : e.call.replaces? = some (q, version)) (refused : e.refused? = some q)
    (same : p.requestId = q.requestId) :
    ∃ read, Read t.past read ∧ Later (m.chain p.requestId) read p := by
  have informed := h.informed t ht
  have justified := informed.justified [_] e older hpast
  obtain ⟨o, read, rfl, change⟩ := justified.of_replaces replaces
  obtain ⟨k, winner, before, since⟩ := informed.overtaken [_] e older q _ hpast refused replaces
  obtain ⟨w, hw, wins⟩ := winner
  obtain ⟨i, hi, ho⟩ := before o read change.follows.requestId.symm
  obtain ⟨j, hj, hp⟩ := since p ⟨_, List.mem_cons_self⟩ same
  have hne : i ≠ k := by
    rintro rfl
    cases hw.symm.trans ho
    rcases wins with differs | final
    · exact differs rfl
    · rw [change.isOpen] at final
      exact absurd final nofun
  refine ⟨o, ?_, ?_⟩
  · rw [hpast]
    exact (read.cons e).cons _
  · rw [same]
    exact later_of_lt ho hp (by omega)

/-- A task that lost a write gives way. -/
theorem Linked.givesWay (h : m.Linked limit)
    (counted : ∀ p ∈ m.records, p.version.toNat + 1 < UInt64.size) (ht : t ∈ m.tasks)
    {sent : List Notice} (conducted : Task.Conducted sent (some t)) (lost : t.Lost q) :
    t.GivesWay m.chain sent q := by
  obtain ⟨e, he, refused⟩ := lost
  obtain ⟨result, final, conduct, ⟨newer, hpast⟩, later, hsent⟩ := conducted.ends
  have hm {e : Exchange} (he : e ∈ t.past) : e ∈ final.past :=
    hpast ▸ List.mem_append_right _ he
  have hsingle (named : t.request.requestId? ≠ none) :
      sent = [] ∧ ∀ e ∈ t.past, e.stored? = none := by
    obtain ⟨unsent, unstored⟩ := conduct.single named ⟨e, hm he, q, refused⟩
    rw [hsent] at unsent
    exact ⟨(List.append_eq_nil_iff.mp unsent).1, fun e he => unstored e (hm he)⟩
  refine ⟨fun e' he' p hp => ?_, fun n hn => ?_, fun e' he' => ?_, hsingle, fun ps hps p hp => ?_⟩
  · exact conduct.yields.unstored e (hm he) q refused e' (hm he') p hp
  · exact conduct.yields.untold e (hm he) q refused n (hsent ▸ List.mem_append_left _ hn)
  · by_cases unnamed : t.request.requestId? = none
    · exact h.unsettled_of_sweep ht unnamed he'
    · exact Exchange.unsettled_of_unstored ((hsingle unnamed).2 e' he')
  · have hdone : Conduct t.request (.ok ps) ⟨t.past, sent⟩ := by
      rw [Task.Conducted, hps] at conducted
      exact conducted
    rcases hdone.returned ⟨e, he, q, refused⟩ ps rfl p hp with
      ⟨e', he', stored⟩ | ⟨e', q', older, version, hnewest, replaces, refused', same⟩
    · by_cases unnamed : t.request.requestId? = none
      · exact h.later_of_stored counted ht unnamed he' stored
      · rw [(hsingle unnamed).2 e' he'] at stored
        exact absurd stored nofun
    · exact h.later_of_refused ht hnewest replaces refused' same

/-- Start from a store without payments and let requests be served in any order of their calls, some
of which may fail, and let no version be the last one. Then the records of each payment form an
unbroken chain that ends with the stored one. Whatever is written over another record is written
over the one that its writer has read, and was made of it. A task whose write was refused has no
effect on that payment. -/
theorem no_update_lost (limit : UInt64) (accounts : Table Account) (lastId : UInt64)
    (moves : List Move)
    (counted : ∀ p ∈ ((ofStore limit ⟨.empty, accounts, lastId⟩).play moves).records,
      p.version.toNat + 1 < UInt64.size) :
    let start := ofStore limit ⟨.empty, accounts, lastId⟩
    let m := start.play moves
    (∀ t ∈ m.tasks, ∀ q, t.Replaces m.store q →
        ∃ p, m.store.payments.get? q.requestId = some p ∧ Read t.past p ∧
          p.Change limit t.request q ∧ q.version.toNat = p.version.toNat + 1) ∧
      (∀ id, Unbroken limit (m.chain id) ∧
        m.store.payments.get? id = (m.chain id).getLast?) ∧
      ∀ (i : Nat) (t : Task), m.tasks[i]? = some t → ∀ q, t.Lost q →
        t.GivesWay m.chain (start.sentBy i moves) q := by
  intro start m
  have hstart : start.Linked limit := linked_ofStore limit accounts lastId
  have h : m.Linked limit := holds_play hstart Linked.next moves
  refine ⟨fun t ht q replaces => h.replaced counted ht replaces,
    fun id => ⟨h.unbroken counted id, h.chained.current id⟩, fun i t ht q lost => ?_⟩
  have hnone : Task.Conducted [] start.tasks[i]? := rfl
  have conducted := conducted_play hstart hnone moves
  rw [ht] at conducted
  exact h.givesWay counted (List.mem_of_getElem? ht) conducted lost

/-- Moves one after the other send what each of them sends. -/
theorem sentBy_append (m : Machine) (i : Nat) (first second : List Move) :
    m.sentBy i (first ++ second) = m.sentBy i first ++ (m.play first).sentBy i second := by
  induction first generalizing m with
  | nil => rfl
  | cons move first ih =>
    rw [List.cons_append, sentBy, ih, sentBy, List.append_assoc]
    rfl

/-- A task goes on by the reply to the call that it makes. -/
theorem proceed_congr {m : Machine} {i : Nat}
    {reply other : (c : Call) → Except Fault c.Answer × Store}
    (h : ∀ r past c next, m.tasks[i]? = some ⟨r, past, .call c next⟩ → reply c = other c) :
    m.proceed i reply = m.proceed i other := by
  unfold proceed
  split
  · rfl
  · next r past rest ht =>
    cases rest with
    | done | send => rfl
    | call c next =>
      dsimp only
      rw [h r past c next ht]

/-- The answers of a store that finds the overdue payments in the order in which they are stored. -/
def unsorted (s : Store) : (c : Call) → Except Fault c.Answer × Store
  | .findOverdue limit now => (.ok (s.payments.values.filter (Store.overdue limit now)), s)
  | c => s.answer c

/-- Payments that are stored in the order of their creation are found in that order. -/
theorem move_unsorted {m : Machine} {i : Nat} {limit : UInt64} {now : Instant}
    (calls : ∀ r past c next, m.tasks[i]? = some ⟨r, past, .call c next⟩ →
      c = .findOverdue limit now)
    (sorted : (m.store.payments.values.filter (Store.overdue limit now)).Pairwise
      fun a b => Store.createdBefore a b = true) :
    m.move (.step i) = m.proceed i (unsorted m.store) := by
  have hfound : m.store.findOverdue limit now =
      m.store.payments.values.filter (Store.overdue limit now) := List.mergeSort_of_pairwise sorted
  refine proceed_congr fun r past c next ht => ?_
  cases calls r past c next ht
  exact congrArg (fun found => (Except.ok found, m.store)) hfound

/-- A day after the epoch. -/
def tomorrow : Instant :=
  ⟨1, 0, 0, by decide, by decide, Instant.epoch.second_lt, Instant.epoch.nano_lt⟩

/-- The food and the rent are submitted, and a sweep and a check of the rent begin. -/
def bothSubmitted : List Move :=
  .start (.submit { Sample.rent with requestId := "food" } .epoch) ::
    .start (.submit Sample.rent .epoch) :: .start (.sweep tomorrow) ::
    .start (Sample.passed .sanction) :: (List.replicate 5 (.step 0) ++ List.replicate 5 (.step 1))

/-- The sweep declines the food and reads the rent, the check is noted, and the sweep comes too late
for the rent. -/
def lateSweep : List Move :=
  List.replicate 5 (.step 2) ++ List.replicate 3 (.step 3) ++ List.replicate 2 (.step 2)

/-- The moves of the race: in between the sweep finds both payments. -/
def sweepRace : List Move := bothSubmitted ++ .step 2 :: lateSweep

/-- The machine before the race. -/
def raceStart : Machine := ofStore 120 ⟨.empty, Sample.accounts, 0⟩

/-- The machine after the sweep has found both payments, in the order of their submissions. -/
def raceFound : Machine :=
  (raceStart.play bothSubmitted).proceed 2 (unsorted (raceStart.play bothSubmitted).store)

/-- The machine after the race. -/
def raceEnd : Machine := raceStart.play sweepRace

/-- Whether there is a task that makes this call next. -/
def awaits (c : Call) : Option Task → Bool
  | some ⟨_, _, .call next _⟩ => decide (next = c)
  | _ => false

/-- The order of the submissions is the order in which the sweep finds them. -/
theorem move_bothSubmitted : (raceStart.play bothSubmitted).move (.step 2) = raceFound := by
  have hcall :
      awaits (.findOverdue 120 tomorrow) (raceStart.play bothSubmitted).tasks[2]? = true := by
    decide +kernel
  have hsorted : ((raceStart.play bothSubmitted).store.payments.values.filter
      (Store.overdue 120 tomorrow)).Pairwise (fun a b => Store.createdBefore a b = true) := by
    decide +kernel
  refine move_unsorted (fun r past c next ht => ?_) hsorted
  rw [ht] at hcall
  exact of_decide_eq_true hcall

/-- The race goes on from there. -/
theorem raceEnd_eq : raceEnd = raceFound.play lateSweep := by
  rw [raceEnd, sweepRace, play, List.foldl_append, List.foldl_cons, ← move_bothSubmitted]
  rfl

/-- No version is the last one, and the sweep has no effect on the rent. -/
theorem sweepRace_givesWay :
    (∀ p ∈ raceEnd.records, p.version.toNat + 1 < UInt64.size) ∧
      ∀ t, raceEnd.tasks[2]? = some t → ∀ q, t.Lost q →
        t.GivesWay raceEnd.chain (raceStart.sentBy 2 sweepRace) q := by
  have counted : ∀ p ∈ raceEnd.records, p.version.toNat + 1 < UInt64.size := by
    rw [raceEnd_eq]
    decide +kernel
  exact ⟨counted, (no_update_lost 120 Sample.accounts 0 sweepRace counted).2.2 2⟩

/-- A sweep that lost one write has declined another payment and said so. -/
theorem sweepRace_goes_on :
    ∃ t, raceEnd.tasks[2]? = some t ∧ (∃ q, t.Lost q) ∧ (∃ e ∈ t.past, e.stored? ≠ none) ∧
      raceStart.sentBy 2 sweepRace ≠ [] := by
  have htask : (match raceEnd.tasks[2]? with
      | some t => t.past.any (·.refused?.isSome) && t.past.any (·.stored?.isSome)
      | none => false) = true := by
    rw [raceEnd_eq]
    decide +kernel
  have hsent : raceStart.sentBy 2 sweepRace ≠ [] := by
    have hlate : raceFound.sentBy 2 lateSweep ≠ [] := by decide +kernel
    rw [sweepRace, sentBy_append, sentBy, move_bothSubmitted]
    exact List.append_ne_nil_of_right_ne_nil _ (List.append_ne_nil_of_right_ne_nil _ hlate)
  split at htask
  · next t ht =>
    obtain ⟨hrefused, hstored⟩ := Bool.and_eq_true_iff.mp htask
    obtain ⟨e, he, refused⟩ := List.any_eq_true.mp hrefused
    obtain ⟨e', he', stored⟩ := List.any_eq_true.mp hstored
    obtain ⟨q, hq⟩ := Option.isSome_iff_exists.mp refused
    exact ⟨t, ht, ⟨q, e, he, hq⟩, ⟨e', he', Option.isSome_iff_ne_none.mp stored⟩, hsent⟩
  · exact absurd htask nofun

end Machine

end Clearing
