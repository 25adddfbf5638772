import Clearing.Proofs.Engine.Chronicle

/-!
# Every version is published once

The outcomes of a payment are the views of its versions, from the first one to the one that is
stored. A record and its outcome are written and sent by the same request, so one invariant ties
the notices to the stores that there have been, and each write extends both by one.
-/

namespace Clearing

/-- The outcomes of a payment among notices. -/
def outcomesOf (id : String) (notices : List Notice) : List View :=
  notices.filterMap fun
    | .outcome v => if v.requestId = id then some v else none
    | .waiting _ | .settled _ => none

theorem outcomesOf_append (id : String) (first second : List Notice) :
    outcomesOf id (first ++ second) = outcomesOf id first ++ outcomesOf id second :=
  List.filterMap_append

/-- No outcome is sent for the waiting. -/
theorem outcomesOf_waitingNotices (id : String) (waited : Bool) (q : Payment) (limit : UInt64)
    (now : Time.Instant) : outcomesOf id (Store.waitingNotices waited q limit now) = [] := by
  unfold Store.waitingNotices
  split <;> split <;> rfl

/-- A record that is written is announced with one outcome, its view. -/
theorem outcomesOf_announcements (id : String) (s : Store) (limit : UInt64) (r : Request)
    (q : Payment) :
    outcomesOf id (s.announcements limit r q) = if q.requestId = id then [q.view] else [] := by
  have hone : outcomesOf id [.outcome q.view] = if q.requestId = id then [q.view] else [] := by
    by_cases h : q.requestId = id <;> simp [outcomesOf, Payment.view, h]
  cases r with
  | submit b now =>
    simp only [Store.announcements]
    rw [outcomesOf_append, hone]
    split <;> rfl
  | check c =>
    simp only [Store.announcements]
    rw [← List.singleton_append, outcomesOf_append, hone, outcomesOf_waitingNotices,
      List.append_nil]
  | confirm | sweep =>
    simp only [Store.announcements]
    rw [← List.singleton_append, outcomesOf_append, hone]
    exact List.append_nil _

/-- The versions of a payment so far, oldest first. They are numbered from zero on and are exactly
the records that have been stored for it, the last of them is stored now, and the outcomes that have
been sent are their views. -/
structure Moment.Published (m : Moment) (id : String) (versions : List Payment) : Prop where
  sent : outcomesOf id m.sent = versions.map Payment.view
  numbered : ∀ k (h : k < versions.length), versions[k].version = UInt64.ofNat k
  current : m.store.payments.get? id = versions.getLast?
  stored : ∀ p, p ∈ versions ↔ ∃ s ∈ m.history.stores, s.payments.get? id = some p

namespace Moment.Published

variable {m : Moment} {id : String} {versions : List Payment}

/-- What leaves a payment as it is and tells nothing of it leaves its versions. -/
theorem unchanged (h : m.Published id versions) {s : Store} {notices : List Notice}
    (same : s.payments.get? id = m.store.payments.get? id) (silent : outcomesOf id notices = []) :
    ((m.see s).send notices).Published id versions := by
  refine ⟨?_, h.numbered, ?_, ?_⟩
  · change outcomesOf id (m.sent ++ notices) = _
    rw [outcomesOf_append, silent, List.append_nil, h.sent]
  · rw [store_send, store_see, same]
    exact h.current
  · intro p
    rw [h.stored]
    constructor
    · rintro ⟨t, ht, hp⟩
      exact ⟨t, History.mem_stores_see.mpr (.inr ht), hp⟩
    · rintro ⟨t, ht, hp⟩
      rcases History.mem_stores_see.mp ht with rfl | hm
      · rw [same] at hp
        exact ⟨m.store, List.mem_cons_self, hp⟩
      · exact ⟨t, hm, hp⟩

/-- The next version has the next number. -/
theorem version_of_write (h : m.Published id versions) {limit : UInt64} {r : Request} {q : Payment}
    {t : Store} (write : m.store.Write limit r q t) (hq : q.requestId = id) :
    q.version = UInt64.ofNat versions.length := by
  subst hq
  rcases write.begins_or_changes with ⟨absent, b, now, -, -, rfl, -⟩ | ⟨p, stored, change, -⟩
  · have hnone : versions = [] := List.getLast?_eq_none_iff.mp (h.current.symm.trans absent)
    rw [hnone]
    rfl
  · have hlast : versions.getLast? = some p := h.current.symm.trans stored
    -- The change starts from the last version, whose number is its place.
    obtain ⟨before, rfl⟩ := List.getLast?_eq_some_iff.mp hlast
    have hp := h.numbered before.length (by simp)
    rw [List.getElem_concat_length rfl] at hp
    rw [change.follows.version, hp, List.length_append, UInt64.ofNat_add]
    rfl

/-- A write adds a version to its payment and leaves those of the others. -/
theorem written (h : m.Published id versions) {limit : UInt64} {r : Request} {q : Payment}
    {t : Store} (write : m.store.Write limit r q t) :
    (m.written limit r q t).Published id
      (versions ++ if q.requestId = id then [q] else []) := by
  by_cases hq : q.requestId = id
  · have hget : t.payments.get? id = some q := by rw [write.get?, if_pos hq]
    rw [if_pos hq]
    refine ⟨?_, ?_, ?_, ?_⟩
    · change outcomesOf id (m.sent ++ m.store.announcements limit r q) = _
      rw [outcomesOf_append, h.sent, outcomesOf_announcements, if_pos hq, List.map_append,
        List.map_singleton]
    · intro k hk
      rw [List.length_append, List.length_singleton] at hk
      rcases Nat.lt_or_eq_of_le (Nat.le_of_lt_succ hk) with hlt | rfl
      · rw [List.getElem_append_left hlt]
        exact h.numbered k hlt
      · rw [List.getElem_concat_length rfl]
        exact h.version_of_write write hq
    · rw [store_written, hget, List.getLast?_concat]
    · intro p
      rw [List.mem_append, List.mem_singleton, h.stored]
      constructor
      · rintro (⟨s, hs, hp⟩ | rfl)
        · exact ⟨s, History.mem_stores_see.mpr (.inr hs), hp⟩
        · exact ⟨t, History.mem_stores_see.mpr (.inl rfl), hget⟩
      · rintro ⟨s, hs, hp⟩
        rcases History.mem_stores_see.mp hs with rfl | hm
        · exact .inr (Option.some.inj (hp.symm.trans hget))
        · exact .inl ⟨s, hm, hp⟩
  · rw [if_neg hq, List.append_nil]
    refine h.unchanged ?_ ?_
    · rw [write.get?, if_neg hq]
    · rw [outcomesOf_announcements, if_neg hq]

/-- Each write of a request adds a version. -/
theorem writes {limit : UInt64} {r : Request} {after : Moment} {qs : List Payment}
    (hw : Writes limit r m qs after) (h : ∃ versions, m.Published id versions) :
    ∃ versions, after.Published id versions := by
  induction hw with
  | none => exact h
  | more write _ ih =>
    obtain ⟨versions, hv⟩ := h
    exact ih ⟨_, hv.written write⟩

end Moment.Published

namespace Chronicle

/-- Whether all payments are published as they are stored. -/
def Faithful (c : Chronicle) : Prop := ∀ id, ∃ versions, c.moment.Published id versions

/-- Every step keeps all payments published. -/
theorem Faithful.next {limit : UInt64} {c next : Chronicle} (h : c.Faithful)
    (hn : c.Next limit next) : next.Faithful := by
  intro id
  cases hn with
  | idle moment =>
    rw [moment]
    exact h id
  | opened a moment =>
    obtain ⟨versions, hv⟩ := h id
    rw [moment, ← Moment.send_nil (c.moment.see _)]
    exact ⟨versions, hv.unchanged rfl rfl⟩
  | served effect =>
    obtain ⟨qs, hw⟩ := effect.writes
    exact Moment.Published.writes hw (h id)

/-- Whether a request fails, names a finished payment or brings a result of a check that leaves the
payment as it is. -/
def Void (c : Chronicle) (r : Request) : Prop :=
  (∃ fault, (c.engine.serve r).1 = .error fault) ∨
    ∃ id p, r.requestId? = some id ∧ c.store.payments.get? id = some p ∧
      (p.status.terminal = true ∨ ∃ k, r = .check k ∧ p.afterCheck c.limit k = p)

/-- A request that comes to nothing writes nothing. -/
theorem Void.not_write {c : Chronicle} {r : Request} {id : String} {p q : Payment} {t : Store}
    (write : c.store.Write c.limit r q t) (hid : r.requestId? = some id)
    (hp : c.store.payments.get? id = some p)
    (idle : p.status.terminal = true ∨ ∃ k, r = .check k ∧ p.afterCheck c.limit k = p) : False := by
  rw [write.named hid] at hp
  rcases write.begins_or_changes with ⟨absent, -⟩ | ⟨p', stored, change, -⟩
  · exact absurd (absent.symm.trans hp) nofun
  · cases Option.some.inj (stored.symm.trans hp)
    rcases idle with final | ⟨k, rfl, same⟩
    · exact absurd (final.symm.trans change.isOpen) nofun
    · cases change with
      | checked _ differs => exact differs same

/-- A request that comes to nothing sends nothing. -/
theorem sent_of_void {c : Chronicle} (keyed : c.store.Keyed) {r : Request} (void : c.Void r) :
    (c.obey (.request r)).sent = c.sent := by
  cases ht : c.engine.takes r with
  | false =>
    have hn : c.engine.notices r = [] := by rw [Engine.notices, ht]; rfl
    rw [obey, hn, List.append_nil]
  | true =>
    obtain ⟨result, effect, answer⟩ := served_of_takes keyed ht
    have hsame : (c.obey (.request r)).moment = c.moment := by
      rcases void with ⟨fault, hf⟩ | ⟨id, p, hid, hp, idle⟩
      · cases result with
        | error other => exact effect.of_error
        | ok ps => cases hf.symm.trans ((answer ps).mpr rfl)
      · generalize (c.obey (.request r)).moment = after at effect
        cases effect with
        | failed | kept => rfl
        | written _ write => exact (Void.not_write write hid hp idle).elim
        | swept sweep =>
          rw [sweep] at hid
          cases hid
    exact congrArg Moment.sent hsame

/-- Start from a store without payments and obey any commands, while any call of the store may fail.
Then every payment has its versions, numbered from zero on and the last of them stored, and the
outcomes that were sent for it are the views of these versions, in order. All that was sent is what
the outbox has taken, and a request that comes to nothing sends nothing. -/
theorem published_exactly_once (settings : Settings) (accounts : Table Account) (lastId : UInt64)
    (plan : List (Option Fault)) (outbox : Outbox) (running : Bool) (commands : List Command) :
    let start : Engine Watched :=
      ⟨settings, .ofStore ⟨.empty, accounts, lastId⟩ plan, outbox, running⟩
    let c := (ofEngine start).follow commands
    (∀ id, ∃ versions, c.moment.Published id versions) ∧
      c.engine.outbox = outbox.acceptAll c.sent ∧
      ∀ r, c.Void r → (c.obey (.request r)).sent = c.sent := by
  intro start c
  have hkeyed : (ofEngine start).store.Keyed := fun _ _ => nofun
  have hstart : (ofEngine start).Faithful := by
    intro id
    refine ⟨[], rfl, fun k hk => absurd hk (Nat.not_lt_zero k), rfl, fun p => ⟨nofun, ?_⟩⟩
    rintro ⟨s, hs, hp⟩
    cases List.mem_singleton.mp hs
    exact absurd hp nofun
  have hfaithful : c.Faithful := holds_follow rfl hkeyed hstart Faithful.next commands
  refine ⟨hfaithful, outbox_follow rfl commands, fun r hr => ?_⟩
  exact sent_of_void (keyed_follow hkeyed commands) hr

end Chronicle

end Clearing
