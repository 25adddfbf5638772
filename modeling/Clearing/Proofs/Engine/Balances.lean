import Clearing.Proofs.Account.Transfer
import Clearing.Proofs.Engine.Atomicity
import Clearing.Proofs.Store.Money

/-!
# What changes a balance

An account keeps its balance until a confirmation completes a payment of which it is the payer or
the payee. No other request touches an account, whichever calls fail and however often a message is
tried. Only an account that is opened once more does not wait for that: the new one takes its place.
-/

namespace Clearing

namespace Store

/-- Whether a payment was completed between two stores, of which an account is the payer or the
payee. -/
structure Settles (s t : Store) (requestId : String) (id : AccountId) : Prop where
  before : ∀ p, s.payments.get? requestId = some p → p.status ≠ .completed
  after : ∃ p, t.payments.get? requestId = some p ∧ p.status = .completed ∧
    (p.payer = id ∨ p.payee = id)

/-- What a request does to the accounts: it leaves each of them, unless it is a confirmation that
completes a payment of it. Payments that are completed stay. -/
structure Audited (r : Request) (s t : Store) : Prop where
  completed : ∀ id p, s.payments.get? id = some p → p.status = .completed →
    t.payments.get? id = some p
  accounts : ∀ id, t.accounts.get? id = s.accounts.get? id ∨
    ∃ d now, r = .confirm d now ∧ s.Settles t d.requestId id

variable {limit : UInt64} {s t u : Store} {r : Request} {q : Payment}

theorem Audited.refl (r : Request) (s : Store) : s.Audited r s :=
  ⟨fun _ _ hp _ => hp, fun _ => .inl rfl⟩

/-- What is completed before a request is made once more stays completed. -/
theorem Audited.trans (first : s.Audited r t) (second : t.Audited r u) : s.Audited r u := by
  refine ⟨?_, ?_⟩
  · intro id p hp completed
    exact second.completed id p (first.completed id p hp completed) completed
  · intro id
    rcases second.accounts id with same | ⟨d, now, hr, before, after⟩
    · rcases first.accounts id with hs | ⟨d, now, hr, before, p, hp, completed, party⟩
      · exact .inl (same.trans hs)
      · exact .inr ⟨d, now, hr, before, p, second.completed _ p hp completed, completed, party⟩
    · refine .inr ⟨d, now, hr, fun p hp completed => ?_, after⟩
      exact before p (first.completed _ p hp completed) completed

/-- A write replaces no completed payment. -/
theorem Write.keeps_completed (h : s.Write limit r q t) {id : String} {p : Payment}
    (hp : s.payments.get? id = some p) (completed : p.status = .completed) :
    t.payments.get? id = some p := by
  rw [h.get?]
  split
  · next hid =>
    subst hid
    rcases h.begins_or_changes with ⟨absent, -⟩ | ⟨old, stored, change, -⟩
    · exact absurd (absent.symm.trans hp) nofun
    · have isOpen := change.isOpen
      cases stored.symm.trans hp
      rw [completed] at isOpen
      exact absurd isOpen nofun
  · exact hp

/-- Every write does to the accounts what a request may do to them. -/
theorem Write.audited (h : s.Write limit r q t) : s.Audited r t := by
  refine ⟨fun id p hp completed => h.keeps_completed hp completed, fun id => ?_⟩
  by_cases completed : q.status = .completed
  · by_cases party : q.payer = id ∨ q.payee = id
    · refine .inr ?_
      rcases h.begins_or_changes with ⟨-, b, now, -, -, rfl, -⟩ | ⟨p, stored, change, -⟩
      · exact absurd completed nofun
      · obtain ⟨d, now, rfl, -, -, waited, -⟩ := change.of_completed completed
        have hid : d.requestId = q.requestId := h.named rfl
        refine ⟨d, now, rfl, ?_, q, ?_, completed, party⟩
        · intro old hold
          rw [hid, stored] at hold
          cases hold
          rw [waited]
          exact nofun
        · rw [h.get?, if_pos hid.symm]
    · rw [not_or] at party
      cases h with
      | begun => exact absurd completed nofun
      | changed _ _ _ _ unpaid => exact absurd completed unpaid
      | paid _ _ _ _ _ applied => exact .inl (accounts_putSettlement applied party.1 party.2)
  · exact .inl (congrArg (·.get? id) (h.accounts_of_unpaid completed))

/-- All that a request writes does to the accounts what it may do to them. -/
theorem audited_of_writes {m after : Moment} {qs : List Payment}
    (h : Writes limit r m qs after) : m.store.Audited r after.store := by
  induction h with
  | none m => exact .refl r m.store
  | more write _ ih =>
    rw [Moment.store_written] at ih
    exact write.audited.trans ih

end Store

namespace Chronicle

variable {c : Chronicle}

/-- A request does to the accounts what it may do to them. -/
theorem audited_obey (keyed : c.store.Keyed) (r : Request) :
    c.store.Audited r (c.obey (.request r)).store := by
  cases taken : c.engine.takes r with
  | true =>
    obtain ⟨result, effect, -⟩ := served_of_takes keyed taken
    obtain ⟨qs, writes⟩ := effect.writes
    exact Store.audited_of_writes writes
  | false =>
    have hstore : (c.obey (.request r)).store = c.store := by
      change (c.engine.serve r).2.storage.history.present = c.store
      rw [Engine.serve_of_not_takes taken]
      rfl
    rw [hstore]
    exact .refl r c.store

/-- A request that is made again and again does no more than that. -/
theorem audited_replicate (keyed : c.store.Keyed) (r : Request) (tries : Nat) :
    c.store.Audited r (c.follow (List.replicate tries (.request r))).store := by
  induction tries generalizing c with
  | zero => exact .refl r c.store
  | succ tries ih =>
    have hkeyed : (c.obey (.request r)).store.Keyed := (next_obey keyed (.request r)).keyed keyed
    exact (audited_obey keyed r).trans (ih hkeyed)

end Chronicle

namespace Inbox

/-- The request that an act makes, if it makes one. -/
def Act.request? : Act → Option Request
  | .command (.request r) => some r
  | .command (.opening _ _) | .command .shutdown => none
  | .handle m now | .deliver m now => some (m.request now)

/-- An act that makes a request makes it once, or as often as it is tried. -/
theorem engine_act_of_request {σ : Type} [Storage σ] (i : Inbox σ) {a : Act} {r : Request}
    (h : a.request? = some r) :
    ∃ tries, (i.act a).engine = i.engine.obeyAll (List.replicate tries (.request r)) := by
  cases a with
  | command command =>
    cases command with
    | request r' =>
      cases h
      exact ⟨1, rfl⟩
    | opening | shutdown => exact absurd h nofun
  | handle m now =>
    cases h
    refine ⟨1, ?_⟩
    change (i.engine.handle now m).2 = (i.engine.serve (m.request now)).2
    rw [Engine.handle_eq_serve]
  | deliver m now =>
    cases h
    exact engine_deliverFrom m now 1 (i.policy.maxAttempts.toNat - 1) i

/-- Start from a store without payments and do anything that an inbox can be asked to do, while any
call of the store may fail. Whatever is done next, every account that there was is as it was, unless
a payment of which it is the payer or the payee was completed by a confirmation, or the account was
opened once more. -/
theorem balances_change_by_settlement (settings : Settings) (accounts : Table Account)
    (lastId : UInt64) (plan : List (Option Fault)) (outbox : Outbox) (running : Bool)
    (acts : List Act) (a : Act) :
    let start : Engine Watched :=
      ⟨settings, .ofStore ⟨.empty, accounts, lastId⟩ plan, outbox, running⟩
    let inbox := (ofEngine start).actAll acts
    let before := inbox.engine.storage.history.present
    let after := (inbox.act a).engine.storage.history.present
    ∀ id account, before.accounts.get? id = some account →
      after.accounts.get? id = some account ∨
        (∃ d now, a.request? = some (.confirm d now) ∧ before.Settles after d.requestId id) ∨
        ∃ balance, a = .command (.opening id balance) ∧
          after.accounts.get? id = some ⟨id, balance⟩ := by
  intro start inbox before after id account there
  have hstart : start.storage.history.present.Keyed := fun _ _ => nofun
  obtain ⟨c, hengine, keyed, -⟩ : ∃ c : Chronicle, inbox.engine = c.engine ∧ c.store.Keyed ∧
      c.limit = settings.timeLimit := exists_chronicle hstart acts
  have hbefore : before = c.store := congrArg (·.storage.history.present) hengine
  have hfollow {commands : List Command}
      (h : (inbox.act a).engine = inbox.engine.obeyAll commands) :
      after = (c.follow commands).store := by
    rw [hengine, ← Chronicle.engine_follow] at h
    exact congrArg (·.storage.history.present) h
  cases made : a.request? with
  | some r =>
    obtain ⟨tries, htries⟩ := inbox.engine_act_of_request made
    have haudited := Chronicle.audited_replicate keyed r tries
    rw [← hfollow htries, ← hbefore] at haudited
    rcases haudited.accounts id with same | ⟨d, now, rfl, settles⟩
    · exact .inl (same.trans there)
    · exact .inr (.inl ⟨d, now, rfl, settles⟩)
  | none =>
    cases a with
    | handle | deliver => exact absurd made nofun
    | command command =>
      have hafter : after = (c.follow [command]).store := hfollow rfl
      cases command with
      | request => exact absurd made nofun
      | shutdown =>
        refine .inl ?_
        rw [hafter]
        rw [hbefore] at there
        exact there
      | opening name balance =>
        rw [hbefore] at there
        rcases c.store_opening name balance with same | opened
        · refine .inl ?_
          rw [hafter]
          exact (congrArg (·.accounts.get? id) same).trans there
        · have hget : after.accounts.get? id =
              if name = id then some ⟨name, balance⟩ else c.store.accounts.get? id := by
            rw [hafter]
            refine (congrArg (·.accounts.get? id) opened).trans ?_
            exact Table.get?_put _ _ _ _
          by_cases hname : name = id
          · subst hname
            rw [if_pos rfl] at hget
            exact .inr (.inr ⟨balance, rfl, hget⟩)
          · rw [if_neg hname] at hget
            exact .inl (hget.trans there)

/-- The rent waits for its confirmation, which is delivered then. -/
def rentDelivery : Inbox Watched × Act :=
  ((ofEngine ⟨.default, .ofStore ⟨.empty, Sample.accounts, 0⟩ [], Sample.outbox, true⟩).actAll
    rentChecked, .deliver (.confirm ⟨"rent", true⟩ none) .epoch)

/-- The tenant has another balance once the rent is confirmed, and the payment was completed. -/
theorem rent_settled :
    let before := rentDelivery.1.engine.storage.history.present
    let after := (rentDelivery.1.act rentDelivery.2).engine.storage.history.present
    before.accounts.get? "tenant" ≠ after.accounts.get? "tenant" ∧
      before.Settles after "rent" "tenant" := by
  intro before after
  have hthere : before.accounts.get? "tenant" =
      some ⟨"tenant", ⟨9, 0, by decide, by decide⟩⟩ := by decide +kernel
  have hchanged : before.accounts.get? "tenant" ≠ after.accounts.get? "tenant" := by decide +kernel
  refine ⟨hchanged, ?_⟩
  rcases balances_change_by_settlement .default Sample.accounts 0 [] Sample.outbox true rentChecked
    rentDelivery.2 "tenant" _ hthere with same | ⟨d, now, hr, settles⟩ | ⟨balance, opening, -⟩
  · exact absurd (hthere.trans same.symm) hchanged
  · cases hr
    exact settles
  · exact absurd opening nofun

/-- The tenant had nine units, is opened once more with none and has none, though there is no
payment that could have been completed. -/
theorem reopened_account_is_replaced :
    let inbox := ofEngine
      (⟨.default, .ofStore ⟨.empty, Sample.accounts, 0⟩ [], Sample.outbox, true⟩ : Engine Watched)
    let before := inbox.engine.storage.history.present
    let after := (inbox.act (.command (.opening "tenant" .zero))).engine.storage.history.present
    before.accounts.get? "tenant" = some ⟨"tenant", ⟨9, 0, by decide, by decide⟩⟩ ∧
      after.accounts.get? "tenant" = some ⟨"tenant", .zero⟩ ∧ after.payments = .empty := by
  decide +kernel

end Inbox

end Clearing
