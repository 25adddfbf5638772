import Clearing.Proofs.Engine.Atomicity
import Clearing.Proofs.Engine.WellFormed
import Clearing.Proofs.Store.Money

/-!
# What a confirmation does to the money

A confirmation that completes a payment moves its money between two accounts and touches no other
one. What the payer has left and what the payee has then are rounded to decimals, so all the money
there is stays the same only when both are decimals without that. Every other confirmation leaves
every account as it is.
-/

namespace Clearing

/-- A confirmation that is acknowledged has written the record that it returns. -/
theorem Chronicle.written_of_confirm {c : Chronicle} (keyed : c.store.Keyed) {d : Decision}
    {now : Time.Instant} {p : Payment} (h : (c.engine.confirm d now).1 = .ok p) :
    c.store.Write c.limit (.confirm d now) p (c.obey (.request (.confirm d now))).store := by
  have hserve : (c.engine.serve (.confirm d now)).1 = .ok [p] := congrArg (Except.map ([·])) h
  have taken : c.engine.takes (.confirm d now) = true := by
    cases stopped : c.engine.takes (.confirm d now) with
    | true => rfl
    | false =>
      rw [Engine.serve_of_not_takes stopped] at hserve
      exact absurd hserve nofun
  obtain ⟨result, effect, answer⟩ := served_of_takes keyed taken
  rw [(answer [p]).mp hserve] at effect
  unfold store
  generalize (c.obey (.request (.confirm d now))).moment = after at effect ⊢
  cases effect with
  | kept check => exact absurd check nofun
  | swept sweep => exact absurd sweep nofun
  | written one write =>
    rw [Moment.store_written]
    exact write

namespace Inbox

/-- Start from the empty store and do anything that an inbox can be asked to do, while any call of
the store may fail, and then confirm a payment. If that completes the payment, its amount is taken
from the payer and given to the payee, each balance rounded to the nearest decimal, and no other
account changes. When both exact balances are decimals they are the new ones, and all accounts
together are worth what they were. If it does not complete the payment, no account changes. -/
theorem confirmation_conserves_money (settings : Settings) (plan : List (Option Fault))
    (outbox : Outbox) (running : Bool) (acts : List Act) (d : Decision) (now : Time.Instant) :
    let start : Engine Watched := ⟨settings, .ofStore .empty plan, outbox, running⟩
    let engine := ((ofEngine start).actAll acts).engine
    let before := engine.storage.history.present
    let after := (engine.confirm d now).2.storage.history.present
    (∀ p, (engine.confirm d now).1 = .ok p → p.status = .completed →
      ∃ payer payee less more, before.Moved p.transfer payer payee less more after ∧
        ((∃ exact : Decimal, exact.worth = payer.worth - p.amount.value.worth) →
          (∃ exact : Decimal, exact.worth = payee.worth + p.amount.value.worth) →
          less.worth = payer.worth - p.amount.value.worth ∧
            more.worth = payee.worth + p.amount.value.worth ∧ after.total = before.total)) ∧
      ((∀ p, (engine.confirm d now).1 = .ok p → p.status ≠ .completed) →
        after.accounts = before.accounts) := by
  intro start engine before after
  have hsound : History.Sound settings.timeLimit engine.storage.history :=
    sound_actAll settings plan outbox running acts
  have hstart : start.storage.history.present.Keyed := fun _ _ => nofun
  obtain ⟨c, hengine, hkeyed, -⟩ : ∃ c : Chronicle, engine = c.engine ∧ c.store.Keyed ∧
      c.limit = settings.timeLimit := exists_chronicle hstart acts
  have hwellFormed : before.WellFormed settings.timeLimit := hsound.wellFormed _ List.mem_cons_self
  have hbefore : before = c.store := congrArg (·.storage.history.present) hengine
  have hafter : after = (c.obey (.request (.confirm d now))).store :=
    congrArg (fun e : Engine Watched => (e.confirm d now).2.storage.history.present) hengine
  have hwrite {p : Payment} (h : (engine.confirm d now).1 = .ok p) :
      before.Write c.limit (.confirm d now) p after := by
    rw [hengine] at h
    rw [hbefore, hafter]
    exact Chronicle.written_of_confirm hkeyed h
  constructor
  · intro p acknowledged completed
    have hproper := (hwrite acknowledged).proper fun q hq => (hwellFormed.records q hq).proper
    obtain ⟨payer, payee, less, more, moved⟩ :=
      (hwrite acknowledged).moved completed hproper.distinct
    exact ⟨payer, payee, less, more, moved, moved.conserved⟩
  · intro uncompleted
    cases answered : (engine.confirm d now).1 with
    | ok p => exact (hwrite answered).accounts_of_unpaid (uncompleted p answered)
    | error fault =>
      have hserve : (c.engine.serve (.confirm d now)).1 = .error fault := by
        rw [hengine] at answered
        exact congrArg (Except.map ([·])) answered
      have huntouched := (Chronicle.untouched_of_serve hkeyed hserve).2.history
      rw [hbefore, hafter]
      exact congrArg (·.present.accounts) huntouched

/-- What leads to a rent that waits for its confirmation, from balances of the tenant and of the
landlord and an amount on. -/
def rentOf (tenant landlord : Decimal) (amount : Amount) : List Act :=
  [.command (.opening "tenant" tenant), .command (.opening "landlord" landlord),
    .command (.request (.submit { Sample.rent with amount := amount } .epoch))] ++
    Check.all.map fun check => .command (.request (Sample.passed check))

/-- The engine then. -/
def rentEngine (tenant landlord : Decimal) (amount : Amount) : Engine Watched :=
  ((ofEngine ⟨.default, .ofStore .empty [], Sample.outbox, true⟩).actAll
    (rentOf tenant landlord amount)).engine

/-- Nine units of money, and the four that are left of them once five are paid. -/
def nine : Decimal := ⟨9, 0, Sample.nine_lt, Decimal.zero.scale_le⟩

def four : Decimal := ⟨4, 0, by decide, Decimal.zero.scale_le⟩

/-- Five units of nine are moved and nothing is lost. -/
theorem rent_conserved :
    let engine := rentEngine nine .zero Sample.five
    (engine.confirm ⟨"rent", true⟩ .epoch).1 = .ok Sample.paid ∧
      (engine.confirm ⟨"rent", true⟩ .epoch).2.storage.history.present.total =
        engine.storage.history.present.total := by
  intro engine
  have acknowledged : (engine.confirm ⟨"rent", true⟩ .epoch).1 = .ok Sample.paid := by
    decide +kernel
  obtain ⟨payer, payee, less, more, moved, exact⟩ := (confirmation_conserves_money .default []
    Sample.outbox true (rentOf nine .zero Sample.five) ⟨"rent", true⟩ .epoch).1 Sample.paid
    acknowledged rfl
  have hpayer : engine.storage.history.present.accounts.get? "tenant" = some ⟨"tenant", nine⟩ := by
    decide +kernel
  have hpayee : engine.storage.history.present.accounts.get? "landlord" =
      some ⟨"landlord", .zero⟩ := by
    decide +kernel
  cases hpayer.symm.trans moved.payerBefore
  cases hpayee.symm.trans moved.payeeBefore
  exact ⟨acknowledged, (exact ⟨four, by decide⟩ ⟨Sample.five.value, by decide⟩).2.2⟩

/-- All the money that an account can hold, and one unit less. -/
def most : Decimal := ⟨79228162514264337593543950335, 0, most_lt, Decimal.zero.scale_le⟩

def almostMost : Decimal :=
  ⟨79228162514264337593543950334, 0, by decide, Decimal.zero.scale_le⟩

/-- Half a unit of money, and a tenth. -/
def half : Amount := ⟨⟨5, 1, Sample.five.value.coefficient_lt, by decide⟩, by decide⟩

def tenth : Amount := ⟨⟨1, 1, by decide, by decide⟩, by decide⟩

/-- The balances of the tenant and of the landlord once the rent was confirmed. -/
def settledBalances (e : Engine Watched) : List (Option Decimal) :=
  ["tenant", "landlord"].map fun id =>
    ((e.confirm ⟨"rent", true⟩ .epoch).2.storage.history.present.accounts.get? id).map
      Account.balance

/-- A completed payment takes half a unit from the tenant and gives nothing to a landlord who has
almost all that an account can hold, and another one takes nothing from a tenant who has all of it
and gives a tenth to the landlord. -/
theorem money_lost_and_made :
    let losing := rentEngine nine almostMost half
    let making := rentEngine most .zero tenth
    ((losing.confirm ⟨"rent", true⟩ .epoch).1.map Payment.status = .ok .completed ∧
      settledBalances losing = [some ⟨85, 1, by decide, by decide⟩, some almostMost] ∧
      (losing.confirm ⟨"rent", true⟩ .epoch).2.storage.history.present.total <
        losing.storage.history.present.total) ∧
      (making.confirm ⟨"rent", true⟩ .epoch).1.map Payment.status = .ok .completed ∧
      settledBalances making = [some most, some tenth.value] ∧
      making.storage.history.present.total <
        (making.confirm ⟨"rent", true⟩ .epoch).2.storage.history.present.total := by
  decide +kernel

end Inbox

end Clearing
