import Clearing.Proofs.Payment.Change

/-!
# Writes of a store

Everything that a request can write into a store: the first record of a payment, a change of a
record that is stored, or a change that completes a payment together with the two balances that it
moves. Each write puts one record under its own name, and no write takes an account away.
-/

namespace Clearing

open Clearing.Time

/-- The payment that a request names; a sweep names none. -/
def Request.requestId? : Request → Option String
  | .submit s _ => some s.requestId
  | .check r => some r.requestId
  | .confirm d _ => some d.requestId
  | .sweep _ => none

namespace Store

/-- Whether there is an account of that name. -/
def HasAccount (s : Store) (id : AccountId) : Prop := ∃ a, s.accounts.get? id = some a

/-- Whether both parties of a submission have accounts. -/
def HasParties (s : Store) (b : Submission) : Prop := s.HasAccount b.payer ∧ s.HasAccount b.payee

/-- Whether every record is stored under its own name. -/
def Keyed (s : Store) : Prop := ∀ id p, s.payments.get? id = some p → p.requestId = id

/-- Whether every account is stored under its own name. -/
def Named (s : Store) : Prop := ∀ id a, s.accounts.get? id = some a → a.id = id

section Put

variable {s t : Store} {q : Payment}

/-- A record of a store is the one that was put there or was there before. -/
theorem stored_of_put (ht : t.payments = s.payments.put q.requestId q) {id : String} {p : Payment}
    (hp : t.payments.get? id = some p) :
    (q.requestId = id ∧ p = q) ∨ (q.requestId ≠ id ∧ s.payments.get? id = some p) := by
  rw [ht, Table.get?_put] at hp
  split at hp
  · next hq => exact .inl ⟨hq, (Option.some.inj hp).symm⟩
  · next hq => exact .inr ⟨hq, hp⟩

/-- A record that is put under its own name leaves every record under its own name. -/
theorem Keyed.put (h : s.Keyed) (ht : t.payments = s.payments.put q.requestId q) : t.Keyed := by
  intro id p hp
  rcases stored_of_put ht hp with ⟨hid, rfl⟩ | ⟨-, hs⟩
  · exact hid
  · exact h id p hs

end Put

/-- What a request writes: the record and the store with it. -/
inductive Write (limit : UInt64) (s : Store) : Request → Payment → Store → Prop
  | begun {b : Submission} {now : Instant} (absent : s.payments.get? b.requestId = none)
      (accepted : b.refusal? = none) (known : s.HasParties b) :
      Write limit s (.submit b now) ((Payment.begun b now).numbered (s.lastId + 1))
        ({ s with lastId := s.lastId + 1 }.put ((Payment.begun b now).numbered (s.lastId + 1)))
  | changed {p q : Payment} {r : Request} (stored : s.payments.get? q.requestId = some p)
      (named : ∀ id, r.requestId? = some id → id = q.requestId) (change : p.Change limit r q)
      (known : ∀ b now, r = .submit b now → s.HasParties b) (unpaid : q.status ≠ .completed) :
      Write limit s r q (s.put q)
  | paid {p q : Payment} {r : Request} {parties moved : Parties}
      (stored : s.payments.get? q.requestId = some p)
      (named : ∀ id, r.requestId? = some id → id = q.requestId) (change : p.Change limit r q)
      (completed : q.status = .completed) (found : s.parties q.transfer = .ok parties)
      (applied : q.transfer.apply parties = (.ok (), moved)) :
      Write limit s r q (s.putSettlement q moved)

variable {limit : UInt64} {s t : Store} {r : Request} {q : Payment}

/-- A write puts its record under its name. -/
theorem Write.payments (h : s.Write limit r q t) :
    t.payments = s.payments.put q.requestId q := by
  cases h <;> rfl

/-- A written record is found under its name, and the others are found as before. -/
theorem Write.get? (h : s.Write limit r q t) (id : String) :
    t.payments.get? id = if q.requestId = id then some q else s.payments.get? id := by
  rw [h.payments, Table.get?_put]

/-- A write begins a payment or changes the record that is stored. -/
theorem Write.begins_or_changes (h : s.Write limit r q t) :
    (s.payments.get? q.requestId = none ∧ ∃ b now, r = .submit b now ∧ b.refusal? = none ∧
      q = (Payment.begun b now).numbered (s.lastId + 1) ∧ t.lastId = s.lastId + 1) ∨
    ∃ p, s.payments.get? q.requestId = some p ∧ p.Change limit r q ∧ t.lastId = s.lastId := by
  cases h with
  | begun absent accepted known => exact .inl ⟨absent, _, _, rfl, accepted, rfl, rfl⟩
  | changed stored _ change => exact .inr ⟨_, stored, change, rfl⟩
  | paid stored _ change => exact .inr ⟨_, stored, change, rfl⟩

/-- The record that is written is the one that the request names. -/
theorem Write.named (h : s.Write limit r q t) {id : String} (hr : r.requestId? = some id) :
    id = q.requestId := by
  cases h with
  | begun => exact (Option.some.inj hr).symm
  | changed _ named => exact named id hr
  | paid _ named => exact named id hr

/-- The parties of a submission that is written have accounts. -/
theorem Write.hasParties (h : s.Write limit r q t) {b : Submission} {now : Instant}
    (hr : r = .submit b now) : s.HasParties b := by
  cases h with
  | begun _ _ known =>
    cases hr
    exact known
  | changed _ _ _ known => exact known b now hr
  | paid _ _ change completed =>
    subst hr
    exact absurd (completed.symm.trans change.status) nofun

/-- A settlement that is not carried out changes nothing, and it loses against another writer only
when it is not admitted. One that is carried out was admitted and moves the money between both
accounts. -/
theorem commitTransfer_cases (s : Store) (q : Payment) (version : UInt64) (transfer : Transfer) :
    (∃ answer, s.commitTransfer q version transfer = (answer, s) ∧ answer ≠ .ok .settled ∧
      (s.accepts q.requestId version = true → answer ≠ .ok .conflict)) ∨
    ∃ found moved, s.accepts q.requestId version = true ∧ s.parties transfer = .ok found ∧
      transfer.apply found = (.ok (), moved) ∧
      s.commitTransfer q version transfer = (.ok .settled, s.putSettlement q moved) := by
  unfold commitTransfer
  split
  · next accepts =>
    split
    · exact .inl ⟨_, rfl, nofun, fun _ => nofun⟩
    · next found hfound =>
      split
      · split
        · next moved happlied => exact .inr ⟨found, moved, accepts, hfound, happlied, rfl⟩
        · exact .inl ⟨_, rfl, nofun, fun _ => nofun⟩
      · exact .inl ⟨_, rfl, nofun, fun _ => nofun⟩
  · next refused => exact .inl ⟨_, rfl, nofun, fun accepts => absurd accepts refused⟩

/-- The parties of a transfer are the accounts of their names. -/
theorem accounts_of_parties {transfer : Transfer} {found : Parties}
    (h : s.parties transfer = .ok found) :
    s.accounts.get? transfer.payer = some found.payer ∧
      s.accounts.get? transfer.payee = some found.payee := by
  unfold parties at h
  split at h
  · exact absurd h nofun
  · next payer hpayer =>
    split at h
    · exact absurd h nofun
    · next payee hpayee =>
      cases h
      exact ⟨hpayer, hpayee⟩

/-- A transfer whose accounts are not both there says which one is missing. -/
theorem unknown_of_parties {transfer : Transfer} {fault : Fault}
    (h : s.parties transfer = .error fault) : ∃ id, fault = .unknownAccount id := by
  unfold parties at h
  split at h
  · cases h
    exact ⟨_, rfl⟩
  · split at h
    · cases h
      exact ⟨_, rfl⟩
    · exact absurd h nofun

theorem hasAccount_putAccount {a : Account} {id : AccountId} (h : s.HasAccount id) :
    (s.putAccount a).HasAccount id := by
  obtain ⟨b, hb⟩ := h
  unfold HasAccount putAccount
  rw [Table.get?_put]
  split
  · exact ⟨a, rfl⟩
  · exact ⟨b, hb⟩

/-- No write takes an account away. -/
theorem Write.hasAccount (h : s.Write limit r q t) {id : AccountId} (ha : s.HasAccount id) :
    t.HasAccount id := by
  cases h with
  | begun => exact ha
  | changed => exact ha
  | paid => exact hasAccount_putAccount (hasAccount_putAccount ha)

/-- Writes store every record under its own name. -/
theorem Write.keyed (h : s.Write limit r q t) (hs : s.Keyed) : t.Keyed := hs.put h.payments

/-- A record after a write was written or was there before. -/
theorem Write.stored (h : s.Write limit r q t) {id : String} {p : Payment}
    (hp : t.payments.get? id = some p) :
    (q.requestId = id ∧ p = q) ∨ (q.requestId ≠ id ∧ s.payments.get? id = some p) :=
  stored_of_put h.payments hp

/-- What a request that submits nothing leaves stored was there before, or is a change of what
was. -/
theorem Write.kept_or_changed (h : s.Write limit r q t) (others : ∀ b now, r ≠ .submit b now)
    {id : String} {p : Payment} (hp : t.payments.get? id = some p) :
    ∃ old, s.payments.get? id = some old ∧ (p = old ∨ old.Change limit r p) := by
  rcases h.stored hp with ⟨hid, rfl⟩ | ⟨-, stored⟩
  · rcases h.begins_or_changes with ⟨-, b, now, hr, -⟩ | ⟨old, stored, change, -⟩
    · exact absurd hr (others b now)
    · rw [hid] at stored
      exact ⟨old, stored, .inr change⟩
  · exact ⟨p, stored, .inl rfl⟩

/-- No write takes a record away. -/
theorem Write.absent (h : s.Write limit r q t) {id : String} (hp : t.payments.get? id = none) :
    q.requestId ≠ id ∧ s.payments.get? id = none := by
  rw [h.get?] at hp
  split at hp
  · exact absurd hp nofun
  · next hq => exact ⟨hq, hp⟩

/-- What is announced when a payment begins to wait or waits no longer. -/
def waitingNotices (waited : Bool) (q : Payment) (limit : UInt64) (now : Instant) : List Notice :=
  if q.status = .waiting then
    if waited then [] else [.waiting (q.pending (q.remaining limit now))]
  else if waited && q.status.terminal then [.settled q.requestId] else []

/-- What is announced of a record that a request has written over the present store. -/
def announcements (s : Store) (limit : UInt64) (r : Request) (q : Payment) : List Notice :=
  let waited := (s.payments.get? q.requestId).any (·.status = .waiting)
  match r with
  | .submit _ _ => (if waited then [.settled q.requestId] else []) ++ [.outcome q.view]
  | .check c => .outcome q.view :: waitingNotices waited q limit c.occurredAt
  | .confirm _ _ | .sweep _ => [.outcome q.view, .settled q.requestId]

end Store

end Clearing
