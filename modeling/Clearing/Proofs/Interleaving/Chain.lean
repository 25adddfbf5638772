import Clearing.Proofs.Interleaving.Settlement
import Clearing.Proofs.Operation.Conduct

/-!
# No update is lost

However the calls of requests interleave, the records of a payment form one chain: each was made of
the one before it, which is the record that its writer had read. A task whose write came too late
leaves the payment alone and returns, if anything, a later record than the one that it had read.
-/

namespace Clearing

/-- The records of a payment that exchanges have stored, in their order. -/
def Exchange.chain (exchanges : List Exchange) (id : String) : List Payment :=
  (exchanges.filterMap stored?).filter (·.requestId = id)

namespace Exchange

variable {exchanges : List Exchange} {e : Exchange} {q : Payment}

theorem chain_of_unstored (h : e.stored? = none) : chain (exchanges ++ [e]) = chain exchanges := by
  funext id
  simp only [chain, List.filterMap_append, List.filterMap_cons, h, List.filterMap_nil,
    List.append_nil]

theorem chain_of_stored (h : e.stored? = some q) (id : String) :
    chain (exchanges ++ [e]) id =
      chain exchanges id ++ if q.requestId = id then [q] else [] := by
  simp only [chain, List.filterMap_append, List.filterMap_cons, h, List.filterMap_nil,
    List.filter_append]
  split <;> simp_all

/-- Chains only grow. -/
theorem chain_prefix (exchanges : List Exchange) (e : Exchange) (id : String) :
    chain exchanges id <+: chain (exchanges ++ [e]) id := by
  cases h : e.stored? with
  | none => exact ⟨[], by rw [List.append_nil, chain_of_unstored h]⟩
  | some q =>
    rw [chain_of_stored h]
    exact List.prefix_append _ _

end Exchange

/-- What an exchange with a store says of it, when the call was answered or failed. -/
structure Store.Replies (s : Store) (e : Exchange) (after : Store) : Prop where
  read : ∀ past p, Read (e :: past) p → Read past p ∨ s.payments.get? p.requestId = some p
  stored : ∀ q, e.stored? = some q →
    s.Stores e.call q ∧ after.payments = s.payments.put q.requestId q
  refused : ∀ q version, e.refused? = some q → e.call.replaces? = some (q, version) →
    s.Refuses e.call q
  unstored : e.stored? = none → (∀ a, e.call ≠ .storeAccount a) → after = s

/-- A store with every record under its own name replies so. -/
theorem Store.Keyed.replies {s store : Store} (h : s.Keyed) {c : Call}
    {answer : Except Fault c.Answer}
    (answers : (answer, store) = s.answer c ∨ ∃ fault, (answer, store) = (.error fault, s)) :
    s.Replies ⟨c, answer⟩ store := by
  rcases answers with hs | ⟨fault, hs⟩
  · obtain ⟨rfl, rfl⟩ : answer = (s.answer c).1 ∧ store = (s.answer c).2 :=
      ⟨congrArg Prod.fst hs, congrArg Prod.snd hs⟩
    refine ⟨fun past p hp => ?_, fun q hq => s.stores_of_stored hq,
      fun q version hq _ => s.refuses_of_refused hq, fun hn hc => s.same_of_unstored hn hc⟩
    rcases read_cons_answer hp with hread | ⟨id, hid⟩
    · exact .inl hread
    · rw [h id p hid]
      exact .inr hid
  · cases hs
    refine ⟨fun past p hp => .inl (read_cons_error hp), fun q hq => ?_, fun q version hq hc => ?_,
      fun _ _ => rfl⟩
    · rw [Exchange.stored?_error] at hq
      exact absurd hq nofun
    · cases c with
      | update | commitTransfer | get | findOverdue | allPayments | storeAccount | getAccount
        | allAccounts => exact absurd hq nofun
      | insert => exact absurd hc nofun

/-- Whether chains account for the payments of a store: each payment is the last record of its
chain, versions count the records, and each record but the first was made of an earlier one. -/
structure Chained (limit : UInt64) (chain : String → List Payment) (s : Store) : Prop where
  keyed : s.Keyed
  current : ∀ id, s.payments.get? id = (chain id).getLast?
  numbered : ∀ id k p, (chain id)[k]? = some p → p.version = UInt64.ofNat k
  computed : ∀ id k q, (chain id)[k + 1]? = some q → ∃ p ∈ chain id, ∃ r, p.Change limit r q

namespace Chained

variable {limit : UInt64} {chain : String → List Payment} {s t : Store} {q : Payment}

/-- A stored record is in the chain of its payment. -/
theorem mem (h : Chained limit chain s) {p : Payment} {id : String}
    (stored : s.payments.get? id = some p) : p ∈ chain id := by
  rw [h.current] at stored
  exact List.mem_of_getLast? stored

/-- A record of a chain that has grown was there before or is the new one. -/
theorem getElem?_grown {l : List Payment} {k : Nat} {p : Payment}
    (h : (l ++ [q])[k]? = some p) : l[k]? = some p ∨ (k = l.length ∧ p = q) := by
  rw [List.getElem?_append] at h
  split at h
  · exact .inl h
  · next hk =>
    obtain ⟨hlast, he⟩ := List.getElem?_eq_some_iff.mp h
    rw [List.length_singleton] at hlast
    rw [List.getElem_singleton] at he
    exact .inr ⟨by omega, he.symm⟩

/-- A record may begin a chain, or follow on the stored one if it was made of a record of that
version. -/
theorem put (h : Chained limit chain s) {next : String → List Payment}
    (payments : t.payments = s.payments.put q.requestId q)
    (grows : ∀ id, next id = chain id ++ if q.requestId = id then [q] else [])
    (follows : (s.payments.get? q.requestId = none ∧ q.version = 0) ∨
      ∃ p, s.payments.get? q.requestId = some p ∧
        ∃ o ∈ chain q.requestId, o.version = p.version ∧ ∃ r, o.Change limit r q) :
    Chained limit next t := by
  -- The version of the new record is its place in the chain.
  have hversion : q.version = UInt64.ofNat (chain q.requestId).length := by
    rcases follows with ⟨absent, hq⟩ | ⟨p, stored, o, -, ho, r, change⟩
    · rw [h.current, List.getLast?_eq_none_iff] at absent
      rw [absent, hq]
      rfl
    · rw [h.current, List.getLast?_eq_getElem?] at stored
      have hlength := (List.getElem?_eq_some_iff.mp stored).1
      have hp := h.numbered _ _ _ stored
      have hsucc : (chain q.requestId).length - 1 + 1 = (chain q.requestId).length := by omega
      rw [change.follows.version, ho, hp, ← hsucc, UInt64.ofNat_add]
      rfl
  refine ⟨h.keyed.put payments, fun id => ?_, fun id k p hp => ?_, fun id k p hp => ?_⟩
  · rw [payments, Table.get?_put, grows]
    split
    · rw [List.getLast?_concat]
    · rw [List.append_nil, h.current]
  · rw [grows] at hp
    split at hp
    · next hid =>
      subst hid
      rcases getElem?_grown hp with hp | ⟨rfl, rfl⟩
      · exact h.numbered _ _ _ hp
      · exact hversion
    · rw [List.append_nil] at hp
      exact h.numbered _ _ _ hp
  · rw [grows] at hp ⊢
    split at hp
    · next hid =>
      subst hid
      rw [if_pos rfl]
      rcases getElem?_grown hp with hp | ⟨hk, rfl⟩
      · obtain ⟨o, ho, change⟩ := h.computed _ _ _ hp
        exact ⟨o, List.mem_append_left _ ho, change⟩
      · rcases follows with ⟨absent, -⟩ | ⟨p', -, o, ho, -, change⟩
        · rw [h.current, List.getLast?_eq_none_iff] at absent
          rw [absent] at hk
          exact absurd hk (Nat.succ_ne_zero k)
        · exact ⟨o, List.mem_append_left _ ho, change⟩
    · next hid =>
      rw [if_neg hid, List.append_nil]
      rw [List.append_nil] at hp
      exact h.computed _ _ _ hp

end Chained

/-- Whether a write over a version came too late: by then another record of the payment or a final
one was stored, whatever the writer had read before is not later than that record, and whatever it
reads from then on is not earlier. -/
structure Overtaken (chain : List Payment) (id : String) (version : UInt64)
    (older newer : List Exchange) (k : Nat) : Prop where
  winner : ∃ p, chain[k]? = some p ∧ (p.version ≠ version ∨ p.status.terminal = true)
  before : ∀ p, Read older p → p.requestId = id → ∃ i ≤ k, chain[i]? = some p
  since : ∀ p, Read newer p → p.requestId = id → ∃ j ≥ k, chain[j]? = some p

/-- What a task knows of the chains: it has read records of them only, each of its calls was
justified, its own records are in them, and it was refused only when it was overtaken. -/
structure Task.Informed (limit : UInt64) (chain : String → List Payment) (t : Task) : Prop where
  reads : ∀ p, Read t.past p → p ∈ chain p.requestId
  justified : ∀ newer e older, t.past = newer ++ e :: older →
    e.call.Justified limit t.request older
  stored : ∀ e ∈ t.past, ∀ q, e.stored? = some q → q ∈ chain q.requestId
  overtaken : ∀ newer e older q version, t.past = newer ++ e :: older → e.refused? = some q →
    e.call.replaces? = some (q, version) →
    ∃ k, Overtaken (chain q.requestId) q.requestId version older newer k

section Informed

variable {limit : UInt64} {chain next : String → List Payment} {s after : Store} {t : Task}
  {e : Exchange}

/-- A record keeps its place in a chain that grows. -/
theorem getElem?_of_prefix {l m : List Payment} (h : l <+: m) {k : Nat} {p : Payment}
    (hp : l[k]? = some p) : m[k]? = some p := by
  obtain ⟨rest, rfl⟩ := h
  rwa [List.getElem?_append_left (List.getElem?_eq_some_iff.mp hp).1]

theorem Overtaken.grow {l m : List Payment} (h : l <+: m) {id : String} {version : UInt64}
    {older newer : List Exchange} {k : Nat} (ho : Overtaken l id version older newer k) :
    Overtaken m id version older newer k := by
  refine ⟨?_, fun p hp hid => ?_, fun p hp hid => ?_⟩
  · obtain ⟨p, hp, wins⟩ := ho.winner
    exact ⟨p, getElem?_of_prefix h hp, wins⟩
  · obtain ⟨i, hi, hp⟩ := ho.before p hp hid
    exact ⟨i, hi, getElem?_of_prefix h hp⟩
  · obtain ⟨j, hj, hp⟩ := ho.since p hp hid
    exact ⟨j, hj, getElem?_of_prefix h hp⟩

/-- A task stays informed while the chains grow. -/
theorem Task.Informed.grow (h : t.Informed limit chain) (grows : ∀ id, chain id <+: next id) :
    t.Informed limit next := by
  refine ⟨fun p hp => (grows _).subset (h.reads p hp), h.justified,
    fun e he q hq => (grows _).subset (h.stored e he q hq), ?_⟩
  intro newer e older q version hpast refused replaces
  obtain ⟨k, ho⟩ := h.overtaken newer e older q version hpast refused replaces
  exact ⟨k, ho.grow (grows _)⟩

/-- A task that is refused was overtaken. -/
theorem Chained.overtaken (h : Chained limit chain s) (replies : s.Replies e after)
    (ht : t.Informed limit chain) (justified : e.call.Justified limit t.request t.past)
    {q : Payment} {version : UInt64} (refused : e.refused? = some q)
    (replaces : e.call.replaces? = some (q, version)) :
    ∃ k, Overtaken (chain q.requestId) q.requestId version t.past [] k := by
  obtain ⟨o, read, -, change⟩ := justified.of_replaces replaces
  have ho : o ∈ chain q.requestId := change.follows.requestId ▸ ht.reads o read
  have hwinner : ∃ p, s.payments.get? q.requestId = some p ∧
      (p.version ≠ version ∨ p.status.terminal = true) := by
    have refuses := replies.refused q version refused replaces
    obtain ⟨c, answer⟩ := e
    cases refuses with
    | present => exact absurd replaces nofun
    | overtaken same stored newer =>
      cases replaces.symm.trans same
      exact ⟨_, stored, newer⟩
    | absent _ unstored =>
      rw [h.current, List.getLast?_eq_none_iff] at unstored
      rw [unstored] at ho
      exact absurd ho List.not_mem_nil
  obtain ⟨p, stored, wins⟩ := hwinner
  rw [h.current, List.getLast?_eq_getElem?] at stored
  refine ⟨(chain q.requestId).length - 1, ⟨p, stored, wins⟩, fun p' hp hid => ?_, fun p' hp => ?_⟩
  · have hm := ht.reads p' hp
    rw [hid] at hm
    obtain ⟨i, hi⟩ := List.mem_iff_getElem?.mp hm
    have hlength := (List.getElem?_eq_some_iff.mp hi).1
    exact ⟨i, by omega, hi⟩
  · obtain ⟨id, hm⟩ := hp
    exact absurd hm List.not_mem_nil

/-- A task that makes a justified call stays informed. -/
theorem Task.Informed.call (ht : t.Informed limit chain) (h : Chained limit chain s)
    (replies : s.Replies e after) (justified : e.call.Justified limit t.request t.past)
    (grows : ∀ id, chain id <+: next id)
    (stored : ∀ q, e.stored? = some q → q ∈ next q.requestId)
    (rest : Program (Except Fault (List Payment))) :
    Task.Informed limit next ⟨t.request, e :: t.past, rest⟩ := by
  have hlast (p : Payment) (hp : s.payments.get? p.requestId = some p) :
      (chain p.requestId)[(chain p.requestId).length - 1]? = some p := by
    rw [← List.getLast?_eq_getElem?, ← h.current, hp]
  refine ⟨fun p hp => ?_, fun newer e' older hpast => ?_, fun e' he q hq => ?_, ?_⟩
  · refine (grows _).subset ?_
    rcases replies.read _ p hp with hread | hs
    · exact ht.reads p hread
    · exact h.mem hs
  · cases newer with
    | nil =>
      cases hpast
      exact justified
    | cons _ newer => exact ht.justified newer e' older (List.cons.inj hpast).2
  · rcases List.mem_cons.mp he with rfl | he
    · exact stored q hq
    · exact (grows _).subset (ht.stored e' he q hq)
  · intro newer e' older q version hpast refused replaces
    cases newer with
    | nil =>
      cases hpast
      obtain ⟨k, ho⟩ := h.overtaken replies ht justified refused replaces
      exact ⟨k, ho.grow (grows _)⟩
    | cons _ newer =>
      obtain ⟨rfl, hnewer⟩ := List.cons.inj hpast
      obtain ⟨k, ho⟩ := ht.overtaken newer e' older q version hnewer refused replaces
      have hg := ho.grow (grows q.requestId)
      refine ⟨k, hg.winner, hg.before, fun p hp hid => ?_⟩
      rcases replies.read _ p hp with hread | hs
      · exact hg.since p hread hid
      · -- What is read now is the last record, and no earlier than the one that won.
        obtain ⟨winner, hwinner, -⟩ := ho.winner
        have hk := (List.getElem?_eq_some_iff.mp hwinner).1
        have hp := getElem?_of_prefix (grows _) (hlast p hs)
        rw [hid] at hp
        exact ⟨(chain q.requestId).length - 1, by omega, hp⟩

end Informed

namespace Machine

/-- The records of a payment, in the order in which they were stored. -/
def chain (m : Machine) (id : String) : List Payment := Exchange.chain m.exchanges id

/-- What holds of a machine at all times: its chains account for its store, its tasks are
disciplined, and they know the chains. -/
structure Linked (limit : UInt64) (m : Machine) : Prop where
  timed : m.limit = limit
  chained : Chained limit m.chain m.store
  disciplined : m.Disciplined
  informed : ∀ t ∈ m.tasks, t.Informed limit m.chain

theorem linked_ofStore (limit : UInt64) (accounts : Table Account) (lastId : UInt64) :
    Linked limit (ofStore limit ⟨.empty, accounts, lastId⟩) :=
  ⟨rfl, ⟨fun _ _ => nofun, fun _ => rfl, fun _ _ _ => nofun, fun _ _ _ => nofun⟩,
    fun _ ht => absurd ht List.not_mem_nil, fun _ ht => absurd ht List.not_mem_nil⟩

/-- A justified call leaves the chains in account with the store. -/
theorem Linked.chained_call {limit : UInt64} {m : Machine} (h : m.Linked limit) {t : Task}
    (ht : t.Informed limit m.chain) {e : Exchange} {after : Store}
    (replies : m.store.Replies e after) (justified : e.call.Justified limit t.request t.past) :
    Chained limit (Exchange.chain (m.exchanges ++ [e])) after := by
  cases hstored : e.stored? with
  | none =>
    have hcall (a : Account) (hc : e.call = .storeAccount a) : False := by
      rw [hc] at justified
      exact justified
    rw [Exchange.chain_of_unstored hstored, replies.unstored hstored hcall]
    exact h.chained
  | some q =>
    obtain ⟨stores, payments⟩ := replies.stored q hstored
    refine h.chained.put payments (Exchange.chain_of_stored hstored) ?_
    obtain ⟨c, answer⟩ := e
    cases stores with
    | inserted absent =>
      obtain ⟨b, now, -, -, rfl⟩ := justified
      exact .inl ⟨absent, rfl⟩
    | replaced replaces stored =>
      obtain ⟨o, read, hversion, change⟩ := justified.of_replaces replaces
      refine .inr ⟨_, stored, o, ?_, hversion.symm, t.request, change⟩
      exact change.follows.requestId ▸ ht.reads o read

/-- Every step keeps the chains. -/
theorem Linked.next {limit : UInt64} {m after : Machine} (h : m.Linked limit)
    (hn : m.Next after) : after.Linked limit := by
  have hdisciplined := h.disciplined.next hn
  cases hn with
  | idle => exact h
  | started r =>
    refine ⟨h.timed, h.chained, hdisciplined, fun t ht => ?_⟩
    rcases List.mem_append.mp ht with hm | hm
    · exact h.informed t hm
    · cases List.mem_singleton.mp hm
      refine ⟨fun p hp => ?_, fun newer e older he => ?_, fun e he => ?_,
        fun newer e older q version he => ?_⟩
      · obtain ⟨id, hm⟩ := hp
        exact absurd hm List.not_mem_nil
      · exact absurd he.symm (List.append_ne_nil_of_right_ne_nil _ (List.cons_ne_nil _ _))
      · exact absurd he List.not_mem_nil
      · exact absurd he.symm (List.append_ne_nil_of_right_ne_nil _ (List.cons_ne_nil _ _))
  | noticed i mem =>
    refine ⟨h.timed, h.chained, hdisciplined, fun t ht => ?_⟩
    rcases List.mem_or_eq_of_mem_set ht with hm | rfl
    · exact h.informed t hm
    · obtain ⟨reads, justified, stored, overtaken⟩ := h.informed _ mem
      exact ⟨reads, justified, stored, overtaken⟩
  | @answered t c rest answer store i mem calls answers =>
    have replies := h.chained.keyed.replies answers
    have justified := h.disciplined.justified mem calls
    rw [h.timed] at justified
    have grows := Exchange.chain_prefix m.exchanges ⟨c, answer⟩
    refine ⟨h.timed, h.chained_call (h.informed t mem) replies justified, hdisciplined,
      fun t' ht => ?_⟩
    rcases List.mem_or_eq_of_mem_set ht with hm | rfl
    · exact (h.informed t' hm).grow grows
    · refine (h.informed t mem).call h.chained replies justified grows (fun q hq => ?_) _
      rw [Exchange.chain_of_stored hq, if_pos rfl]
      exact List.mem_append_right _ List.mem_cons_self

end Machine

/-- Whether records follow each other: the versions count them from zero on, and each is a change of
the one before it. -/
structure Unbroken (limit : UInt64) (chain : List Payment) : Prop where
  numbered : ∀ (k : Nat) (p : Payment), chain[k]? = some p → p.version.toNat = k
  computed : ∀ (k : Nat) (p q : Payment), chain[k]? = some p → chain[k + 1]? = some q →
    ∃ r, p.Change limit r q

/-- Whether a record comes after another one. -/
def Later (chain : List Payment) (p q : Payment) : Prop :=
  ∃ before after, chain = before ++ p :: after ∧ q ∈ after

theorem later_of_lt {chain : List Payment} {p q : Payment} {i j : Nat} (hp : chain[i]? = some p)
    (hq : chain[j]? = some q) (h : i < j) : Later chain p q := by
  obtain ⟨hi, rfl⟩ := List.getElem?_eq_some_iff.mp hp
  refine ⟨chain.take i, chain.drop (i + 1), ?_, ?_⟩
  · rw [List.getElem_cons_drop, List.take_append_drop]
  · refine List.mem_of_getElem? (i := j - (i + 1)) ?_
    rw [List.getElem?_drop, show i + 1 + (j - (i + 1)) = j by omega]
    exact hq

namespace Unbroken

variable {limit : UInt64} {chain : List Payment} {p q : Payment}

/-- A version tells a record of a chain from all others. -/
theorem eq_of_version (h : Unbroken limit chain) (hp : p ∈ chain) (hq : q ∈ chain)
    (same : p.version = q.version) : p = q := by
  obtain ⟨i, hi⟩ := List.mem_iff_getElem?.mp hp
  obtain ⟨j, hj⟩ := List.mem_iff_getElem?.mp hq
  have hij : i = j := by rw [← h.numbered i p hi, ← h.numbered j q hj, same]
  subst hij
  exact Option.some.inj (hi.symm.trans hj)

/-- A record with a higher version comes later. -/
theorem later (h : Unbroken limit chain) (hp : p ∈ chain) (hq : q ∈ chain)
    (less : p.version.toNat < q.version.toNat) : Later chain p q := by
  obtain ⟨i, hi⟩ := List.mem_iff_getElem?.mp hp
  obtain ⟨j, hj⟩ := List.mem_iff_getElem?.mp hq
  rw [h.numbered i p hi, h.numbered j q hj] at less
  exact later_of_lt hi hj less

end Unbroken

/-- Chains are unbroken as long as no version is the last one. -/
theorem Chained.unbroken {limit : UInt64} {chain : String → List Payment} {s : Store}
    (h : Chained limit chain s) {id : String}
    (counted : ∀ p ∈ chain id, p.version.toNat + 1 < UInt64.size) : Unbroken limit (chain id) := by
  have hnumbered (k : Nat) (p : Payment) (hp : (chain id)[k]? = some p) : p.version.toNat = k := by
    have hlength := (List.getElem?_eq_some_iff.mp hp).1
    -- A chain as long as there are versions would have a record with the last one.
    have hk : k < UInt64.size - 1 := by
      refine Nat.lt_of_not_le fun hlong => ?_
      have hlast := List.getElem?_eq_getElem (l := chain id) (i := UInt64.size - 1) (by omega)
      have hcount := counted _ (List.mem_of_getElem? hlast)
      rw [h.numbered _ _ _ hlast] at hcount
      exact absurd hcount (by decide)
    rw [h.numbered _ _ _ hp, UInt64.toNat_ofNat']
    exact Nat.mod_eq_of_lt (Nat.lt_of_lt_pred hk)
  refine ⟨hnumbered, fun k p q hp hq => ?_⟩
  obtain ⟨o, ho, r, change⟩ := h.computed id k q hq
  obtain ⟨i, hi⟩ := List.mem_iff_getElem?.mp ho
  have hversion := change.follows.version
  have hsucc := Payment.toNat_version_succ (counted o ho)
  rw [← hversion, hnumbered _ _ hq, hnumbered _ _ hi] at hsucc
  cases Nat.succ.inj hsucc
  cases hi.symm.trans hp
  exact ⟨r, change⟩

/-- Whether the next call of a task writes a record over another one. -/
def Task.Replaces (t : Task) (s : Store) (q : Payment) : Prop :=
  ∃ c rest version, t.rest = .call c rest ∧ c.replaces? = some (q, version) ∧
    (Exchange.mk c (s.answer c).1).stored? = some q

namespace Machine

/-- Every record that was stored. -/
def records (m : Machine) : List Payment := m.exchanges.filterMap Exchange.stored?

variable {limit : UInt64} {m : Machine}

theorem Linked.unbroken (h : m.Linked limit)
    (counted : ∀ p ∈ m.records, p.version.toNat + 1 < UInt64.size) (id : String) :
    Unbroken limit (m.chain id) :=
  h.chained.unbroken fun p hp => counted p (List.mem_filter.mp hp).1

/-- What a task writes over is the record that it has read, and it was made of that record. -/
theorem Linked.replaced (h : m.Linked limit)
    (counted : ∀ p ∈ m.records, p.version.toNat + 1 < UInt64.size) {t : Task} (ht : t ∈ m.tasks)
    {q : Payment} (replaces : t.Replaces m.store q) :
    ∃ p, m.store.payments.get? q.requestId = some p ∧ Read t.past p ∧
      p.Change limit t.request q ∧ q.version.toNat = p.version.toNat + 1 := by
  obtain ⟨c, rest, version, calls, expects, hstored⟩ := replaces
  have justified := h.disciplined.justified ht calls
  rw [h.timed] at justified
  obtain ⟨p, read, hversion, change⟩ := justified.of_replaces expects
  have hp : p ∈ m.chain q.requestId := change.follows.requestId ▸ (h.informed t ht).reads p read
  have hcounted := counted p (List.mem_filter.mp hp).1
  cases (h.chained.keyed.replies (.inl rfl)).stored q hstored |>.1 with
  | inserted => exact absurd expects nofun
  | @replaced _ o _ same stored =>
    cases expects.symm.trans same
    have ho := h.chained.mem stored
    cases (h.unbroken counted q.requestId).eq_of_version ho hp hversion
    refine ⟨p, stored, read, change, ?_⟩
    rw [change.follows.version]
    exact Payment.toNat_version_succ hcounted

end Machine

end Clearing
