import Clearing.Proofs.Engine.Conclusion
import Mathlib.Data.List.Nodup

/-!
# Settlements in any order

Several payments wait and every payer has the money for all of them that he is to pay. Where
balances do not overflow and are not rounded, each confirmation takes its amount from one account
and gives it to another one. What a payer still owes is therefore covered after every confirmation,
whichever comes next, so in every order all payments are completed and every account ends with what
it had, less what it owed, and with what was due to it.
-/

namespace Clearing

open Clearing.Time

namespace Payment

/-- What payments amount to together of which an account is this party. -/
def amounts (party : Payment → AccountId) (id : AccountId) (ps : List Payment) : Int :=
  (ps.map fun p => if party p = id then p.amount.value.worth else 0).sum

/-- What an account holds once payments are made: less what it owes, and with what is due to it. -/
def heldAfter (id : AccountId) (ps : List Payment) (held : Int) : Int :=
  held - amounts payer id ps + amounts payee id ps

variable {party : Payment → AccountId} {id : AccountId} {p : Payment} {ps qs : List Payment}

theorem amounts_nil (party : Payment → AccountId) (id : AccountId) : amounts party id [] = 0 := rfl

theorem amounts_singleton_of_party (h : party p = id) :
    amounts party id [p] = p.amount.value.worth :=
  (Int.add_zero _).trans (if_pos h)

theorem amounts_singleton_of_other (h : party p ≠ id) : amounts party id [p] = 0 :=
  (Int.add_zero _).trans (if_neg h)

theorem amounts_cons (party : Payment → AccountId) (id : AccountId) (p : Payment)
    (ps : List Payment) :
    amounts party id (p :: ps) = amounts party id [p] + amounts party id ps := by
  simp [amounts]

theorem amounts_nonneg (party : Payment → AccountId) (id : AccountId) (ps : List Payment) :
    0 ≤ amounts party id ps := by
  refine List.sum_nonneg fun x hx => ?_
  obtain ⟨p, -, rfl⟩ := List.mem_map.mp hx
  have hpos := Decimal.positive_iff_worth_pos.mp p.amount.positive
  split <;> omega

/-- What payments amount to does not depend on their order. -/
theorem amounts_perm (h : ps.Perm qs) (party : Payment → AccountId) (id : AccountId) :
    amounts party id ps = amounts party id qs := (h.map _).sum_eq

theorem heldAfter_nil (id : AccountId) (held : Int) : heldAfter id [] held = held := by
  rw [heldAfter, amounts_nil, amounts_nil, Int.sub_zero, Int.add_zero]

/-- The first payment may be made before the others. -/
theorem heldAfter_cons (id : AccountId) (p : Payment) (ps : List Payment) (held : Int) :
    heldAfter id (p :: ps) held = heldAfter id ps (heldAfter id [p] held) := by
  simp only [heldAfter, amounts_cons _ _ p ps]
  omega

/-- What an account holds in the end does not depend on the order. -/
theorem heldAfter_perm (h : ps.Perm qs) (id : AccountId) (held : Int) :
    heldAfter id ps held = heldAfter id qs held := by
  rw [heldAfter, amounts_perm h, amounts_perm h, heldAfter]

end Payment

/-- What an account is worth, if there is one. -/
def Store.holdings (s : Store) (id : AccountId) : Option Int :=
  (s.accounts.get? id).map (·.balance.worth)

/-- The store that two unrounded balances are written to holds the amount elsewhere. -/
theorem Store.Ends.holdings {s after : Store} {p q : Payment} {payer payee : Account}
    {ending : Status × String} {now : Instant}
    (ends : s.Ends p payer payee ending now q after) (completed : ending.1 = .completed)
    (found : s.parties p.transfer = .ok ⟨payer, payee⟩) (distinct : p.payer ≠ p.payee)
    {less more : Decimal} (exact : Parties.Unrounded ⟨payer, payee⟩ p.amount less more)
    (id : AccountId) : after.holdings id =
      (s.holdings id).map (Payment.heldAfter id [p]) := by
  obtain ⟨less', more', debit, credit, accounts⟩ := ends.moved completed
  cases exact.debit.symm.trans debit
  cases exact.credit.symm.trans credit
  obtain ⟨hpayer, hpayee⟩ := accounts_of_parties found
  have hless := exact.debitExact.worth
  have hmore := exact.creditExact.worth
  rw [Decimal.worth_neg] at hless
  rw [Store.holdings, Store.holdings, accounts id]
  by_cases pays : p.payer = id
  · subst pays
    rw [if_neg distinct.symm, if_pos rfl, show s.accounts.get? p.payer = some payer from hpayer]
    refine congrArg some ?_
    rw [Payment.heldAfter, Payment.amounts_singleton_of_party rfl,
      Payment.amounts_singleton_of_other distinct.symm]
    dsimp only at hless ⊢
    omega
  · by_cases gets : p.payee = id
    · subst gets
      rw [if_pos rfl, show s.accounts.get? p.payee = some payee from hpayee]
      refine congrArg some ?_
      rw [Payment.heldAfter, Payment.amounts_singleton_of_party rfl,
        Payment.amounts_singleton_of_other pays]
      dsimp only at hmore ⊢
      omega
    · rw [if_neg gets, if_neg pays, Option.map_map]
      refine congrArg (Option.map · _) (funext fun a => ?_)
      rw [Function.comp_apply, Payment.heldAfter, Payment.amounts_singleton_of_other pays,
        Payment.amounts_singleton_of_other gets, Int.sub_zero, Int.add_zero]

namespace Engine

/-- Let payers confirm their payments one after the other, each at its time. -/
def confirmAll (e : Engine Store) (cs : List (Payment × Instant)) : Engine Store :=
  cs.foldl (fun e c => (e.confirm ⟨c.1.requestId, true⟩ c.2).2) e

/-- Whether an engine can settle payments that wait, in a store where no balance overflows or is
rounded. -/
structure Prepared (scale : Nat) (e : Engine Store) (ps : List Payment) : Prop where
  running : e.running = true
  standing : e.storage.Standing e.settings.timeLimit
  roomy : e.storage.Roomy scale []
  waits : ∀ p ∈ ps, e.storage.payments.get? p.requestId = some p ∧ p.status = .waiting
  /-- Every payer has the money for all that he is to pay. -/
  covered : ∀ id held, e.storage.holdings id = some held →
    Payment.amounts Payment.payer id ps ≤ held

variable {e : Engine Store} {scale : Nat} {p : Payment} {ps : List Payment} {now : Instant}

/-- A confirmation leaves an engine without overflows, with its worker and with a store that
stands. -/
theorem roomy_confirm (running : e.running = true)
    (standing : e.storage.Standing e.settings.timeLimit) (roomy : e.storage.Roomy scale [])
    (d : Decision) (now : Instant) :
    (e.confirm d now).2.running = true ∧ (e.confirm d now).2.settings = e.settings ∧
      (e.confirm d now).2.storage.Standing e.settings.timeLimit ∧
      (e.confirm d now).2.storage.Roomy scale [] := by
  let commands : List Command := [.request (.confirm d now)]
  have keyed := standing.wellFormed.keyed
  have hconfirm : e.obeyAll commands = (e.confirm d now).2 := rfl
  have within : ∀ r, .request r ∈ commands → r.Within scale := by
    intro r hr
    cases List.mem_singleton.mp hr
    trivial
  have up : .shutdown ∉ commands := fun hm => absurd (List.mem_singleton.mp hm) nofun
  obtain ⟨hrunning, -, hroomy⟩ := roomy_obeyAll keyed roomy running within up
  have hwellFormed := wellFormed_obeyAll standing.wellFormed commands
  have hnamed : (e.obeyAll commands).storage.Named :=
    lasts_obeyAll Store.lasting_named keyed standing.named fun _ _ => trivial
  have hsettings := e.settings_obeyAll commands
  rw [hconfirm] at hrunning hroomy hwellFormed hnamed hsettings
  exact ⟨hrunning, hsettings, ⟨hwellFormed, hnamed, hroomy.solvent⟩, hroomy⟩

/-- The payer of a payment to settle has the money for it. -/
theorem Prepared.covers (h : e.Prepared scale (p :: ps)) {payer : Account}
    (found : e.storage.accounts.get? p.payer = some payer) : payer.covers p.amount := by
  have hcovered := h.covered p.payer payer.balance.worth
    (congrArg (Option.map fun a : Account => a.balance.worth) found)
  have hothers := Payment.amounts_nonneg Payment.payer p.payer ps
  rw [Payment.amounts_cons, Payment.amounts_singleton_of_party rfl] at hcovered
  exact Decimal.le_iff_worth_le.mpr (by omega)

/-- The first of the payments is completed in time, its amount is held elsewhere, and the others can
still be settled. -/
theorem Prepared.confirm (h : e.Prepared scale (p :: ps))
    (distinct : p.requestId ∉ ps.map Payment.requestId)
    (inTime : ¬ p.expired e.settings.timeLimit now) :
    let after := (e.confirm ⟨p.requestId, true⟩ now).2
    after.settings = e.settings ∧ after.Prepared scale ps ∧
      (∀ id, after.storage.payments.get? id =
        if p.requestId = id then some (p.ended (.completed, Payment.completedMessage) now)
        else e.storage.payments.get? id) ∧
      ∀ id, after.storage.holdings id =
        (e.storage.holdings id).map (Payment.heldAfter id [p]) := by
  intro after
  obtain ⟨stored, waits⟩ := h.waits p List.mem_cons_self
  obtain ⟨hrunning, hsettings, hstanding, hroomy⟩ :=
    roomy_confirm h.running h.standing h.roomy ⟨p.requestId, true⟩ now
  obtain ⟨payer, payee, found, hpayer, hpayee⟩ := h.standing.exists_accounts stored
  have covers := h.covers hpayer
  obtain ⟨proper, places⟩ := h.roomy.payments _ _ stored
  obtain ⟨less, more, exact⟩ := h.roomy.exists_unrounded found covers proper.distinct places
  have hending : p.ending e.settings.timeLimit ⟨p.requestId, true⟩ now payer =
      (.completed, Payment.completedMessage) := Payment.ending_of_covered inTime rfl covers
  have hends : ∃ q, (e.confirm ⟨p.requestId, true⟩ now).1 = .ok q ∧
      e.storage.Ends p payer payee (.completed, Payment.completedMessage) now q after.storage := by
    have hconclusive := confirm_conclusive ⟨p.requestId, true⟩ now h.standing h.running stored waits
      found
    rw [hending] at hconclusive
    refine hconclusive.resolve_left ?_
    rintro ⟨-, overflow, -⟩
    cases exact.credit.symm.trans overflow
  obtain ⟨q, -, ends⟩ := hends
  have hpayments := ends.payments
  rw [ends.record] at hpayments
  have hholdings := ends.holdings rfl found proper.distinct exact
  refine ⟨hsettings, ⟨hrunning, ?_, hroomy, ?_, ?_⟩, hpayments, hholdings⟩
  · rw [hsettings]
    exact hstanding
  · intro other mem
    have hne : p.requestId ≠ other.requestId := fun same =>
      distinct (same ▸ List.mem_map_of_mem mem)
    rw [hpayments, if_neg hne]
    exact h.waits other (List.mem_cons_of_mem _ mem)
  · intro id held hheld
    rw [hholdings id, Option.map_eq_some_iff] at hheld
    obtain ⟨before, hbefore, rfl⟩ := hheld
    have hcovered := h.covered id before hbefore
    have hdue := Payment.amounts_nonneg Payment.payee id [p]
    rw [Payment.amounts_cons] at hcovered
    rw [Payment.heldAfter]
    omega

/-- All the payments are completed, no other record is touched, and every account holds what it had,
less what it owed, and with what was due to it. -/
theorem Prepared.confirmAll {cs : List (Payment × Instant)}
    (h : e.Prepared scale (cs.map Prod.fst))
    (distinct : ((cs.map Prod.fst).map Payment.requestId).Nodup)
    (inTime : ∀ c ∈ cs, ¬ c.1.expired e.settings.timeLimit c.2) :
    let after := (e.confirmAll cs).storage
    (∀ c ∈ cs, after.payments.get? c.1.requestId =
        some (c.1.ended (.completed, Payment.completedMessage) c.2)) ∧
      (∀ id ∉ (cs.map Prod.fst).map Payment.requestId,
        after.payments.get? id = e.storage.payments.get? id) ∧
      ∀ id, after.holdings id =
        (e.storage.holdings id).map (Payment.heldAfter id (cs.map Prod.fst)) := by
  induction cs generalizing e with
  | nil =>
    refine ⟨fun _ => nofun, fun _ _ => rfl, fun id => ?_⟩
    have hnil : Payment.heldAfter id [] = fun held => held := funext (Payment.heldAfter_nil id)
    rw [List.map_nil, hnil, Option.map_id']
    rfl
  | cons c cs ih =>
    obtain ⟨hname, hothers⟩ := List.nodup_cons.mp distinct
    obtain ⟨settings, prepared, payments, holdings⟩ :=
      h.confirm hname (inTime c List.mem_cons_self)
    obtain ⟨completed, untouched, held⟩ := ih prepared hothers fun d hd => by
      rw [settings]
      exact inTime d (List.mem_cons_of_mem _ hd)
    refine ⟨fun d hd => ?_, fun id absent => ?_, fun id => ?_⟩
    · rcases List.mem_cons.mp hd with rfl | hd
      · exact (untouched _ hname).trans ((payments _).trans (if_pos rfl))
      · exact completed d hd
    · rw [List.map_cons, List.map_cons, List.mem_cons, not_or] at absent
      obtain ⟨hne, habsent⟩ := absent
      exact (untouched id habsent).trans ((payments id).trans (if_neg fun same => hne same.symm))
    · refine (held id).trans ?_
      rw [holdings id, Option.map_map]
      refine congrArg (Option.map · _) (funext fun before => ?_)
      exact (Payment.heldAfter_cons id c.1 _ before).symm

end Engine

/-- Where one decimal could hold all balances together, with as many places as any balance and any
amount has, there is room for all the money that is there. -/
theorem Store.Standing.roomy {limit : UInt64} {s : Store} {scale : Nat} (h : s.Standing limit)
    (bound : scale ≤ Decimal.maxScale)
    (balances : ∀ a ∈ s.accounts.values, a.balance.scale ≤ scale)
    (amounts : ∀ p ∈ s.payments.values, p.amount.value.scale ≤ scale)
    (room : (s.accounts.values.map (·.balance.coefficientAt scale)).sum <
      Decimal.coefficientBound) : s.Roomy scale [] := by
  have hpos : (0 : Int) < pow10 (Decimal.maxScale - scale) := Int.natCast_pos.mpr (pow10_pos _)
  have htotal : s.total =
      (s.accounts.values.map (·.balance.coefficientAt scale)).sum *
        pow10 (Decimal.maxScale - scale) := by
    have hplaces : ∀ o ∈ s.accounts.values.map fun a => (a.id, a.balance), o.2.scale ≤ scale := by
      intro o ho
      obtain ⟨a, ha, rfl⟩ := List.mem_map.mp ho
      exact balances a ha
    have hsum := Engine.sum_worth bound hplaces
    simp only [List.map_map, Function.comp_def] at hsum
    exact hsum
  refine ⟨h.solvent, fun id a ha => ?_, fun id p hp => ⟨?_, ?_⟩, fun _ => nofun, .nil, ?_⟩
  · exact balances a (Table.mem_values_iff.mpr ⟨id, ha⟩)
  · exact (h.wellFormed.records p (Table.mem_values_iff.mpr ⟨id, hp⟩)).proper
  · exact amounts p (Table.mem_values_iff.mpr ⟨id, hp⟩)
  · rw [List.map_nil, List.sum_nil, Int.add_zero, htotal, Decimal.capacity, Int.natCast_mul]
    exact Int.mul_lt_mul_of_pos_right room hpos

namespace Inbox

/-- Start from the empty store and do anything that an inbox can be asked to do, while any call of
the store may fail. Let an engine whose worker runs take over any of the stores that there have
been, and let one decimal be able to hold all balances together, with as many places as any balance
and any amount has. When some payments wait and every payer has the money for all of them that he is
to pay, then whatever the order in which they are confirmed in time, all of them are completed, and
every account ends with what it had, less what it owed, and with what was due to it. -/
theorem settlement_order_irrelevant (settings : Settings) (plan : List (Option Fault))
    (outbox : Outbox) (running : Bool) (acts : List Act) :
    let start : Engine Watched := ⟨settings, .ofStore .empty plan, outbox, running⟩
    let history := ((ofEngine start).actAll acts).engine.storage.history
    ∀ s ∈ history.stores, ∀ scale ≤ Decimal.maxScale,
      (∀ a ∈ s.accounts.values, a.balance.scale ≤ scale) →
      (∀ p ∈ s.payments.values, p.amount.value.scale ≤ scale) →
      (s.accounts.values.map (·.balance.coefficientAt scale)).sum < Decimal.coefficientBound →
      ∀ ps : List Payment, ps.Nodup →
      (∀ p ∈ ps, p ∈ s.payments.values ∧ p.status = .waiting) →
      (∀ a ∈ s.accounts.values, Payment.amounts Payment.payer a.id ps ≤ a.balance.worth) →
      ∀ (outbox : Outbox) (first second : List (Payment × Instant)),
      (first.map Prod.fst).Perm ps → (second.map Prod.fst).Perm ps →
      (∀ c ∈ first ++ second, ¬ c.1.expired settings.timeLimit c.2) →
        let engine : Engine Store := ⟨settings, s, outbox, true⟩
        let after (cs : List (Payment × Instant)) : Store := (engine.confirmAll cs).storage
        (∀ p ∈ ps, ∃ q r, (after first).payments.get? p.requestId = some q ∧
          (after second).payments.get? p.requestId = some r ∧
          q.status = .completed ∧ r.status = .completed) ∧
        ∀ a ∈ s.accounts.values, ∃ b c, (after first).accounts.get? a.id = some b ∧
          (after second).accounts.get? a.id = some c ∧ b.balance.sameValue c.balance ∧
          b.balance.worth = Payment.heldAfter a.id ps a.balance.worth := by
  intro start history s hs scale bound balances amounts room ps nodup waits covered outbox
    first second hfirst hsecond inTime engine after
  have standing : s.Standing settings.timeLimit := standing_actAll settings plan _ _ acts s hs
  have stored {p : Payment} (hp : p ∈ ps) : s.payments.get? p.requestId = some p := by
    obtain ⟨id, hid⟩ := Table.mem_values_iff.mp (waits p hp).1
    rwa [standing.wellFormed.keyed id p hid]
  have hnames : (ps.map Payment.requestId).Nodup := by
    refine List.Nodup.map_on (fun p hp q hq same => ?_) nodup
    exact Option.some.inj ((stored hp).symm.trans ((congrArg _ same).trans (stored hq)))
  -- Each order alone completes all payments and moves what is owed.
  have horder {cs : List (Payment × Instant)} (order : (cs.map Prod.fst).Perm ps)
      (timely : ∀ c ∈ cs, ¬ c.1.expired settings.timeLimit c.2) :
      (∀ p ∈ ps, ∃ q, (after cs).payments.get? p.requestId = some q ∧ q.status = .completed) ∧
        ∀ a ∈ s.accounts.values, ∃ b, (after cs).accounts.get? a.id = some b ∧
          b.balance.worth = Payment.heldAfter a.id ps a.balance.worth := by
    have hprepared : engine.Prepared scale (cs.map Prod.fst) := by
      refine ⟨rfl, standing, standing.roomy bound balances amounts room, fun p hp => ?_, ?_⟩
      · have hmem := order.mem_iff.mp hp
        exact ⟨stored hmem, (waits p hmem).2⟩
      · intro id held hheld
        obtain ⟨a, ha, rfl⟩ := Option.map_eq_some_iff.mp hheld
        rw [Payment.amounts_perm order, ← standing.named id a ha]
        exact covered a (Table.mem_values_iff.mpr ⟨id, ha⟩)
    obtain ⟨completed, -, holdings⟩ := hprepared.confirmAll
      ((order.map Payment.requestId).nodup_iff.mpr hnames) timely
    refine ⟨fun p hp => ?_, fun a ha => ?_⟩
    · obtain ⟨c, hc, rfl⟩ := List.mem_map.mp (order.mem_iff.mpr hp)
      exact ⟨_, completed c hc, rfl⟩
    · obtain ⟨id, hid⟩ := Table.mem_values_iff.mp ha
      cases standing.named id a hid
      have hheld := holdings a.id
      rw [show engine.storage.holdings a.id = some a.balance.worth from
        congrArg (Option.map fun a : Account => a.balance.worth) hid] at hheld
      obtain ⟨b, hb, hworth⟩ := Option.map_eq_some_iff.mp hheld
      exact ⟨b, hb, hworth.trans (Payment.heldAfter_perm order _ _)⟩
  obtain ⟨hpaid, hheld⟩ := horder hfirst fun c hc => inTime c (List.mem_append_left _ hc)
  obtain ⟨hpaid', hheld'⟩ := horder hsecond fun c hc => inTime c (List.mem_append_right _ hc)
  refine ⟨fun p hp => ?_, fun a ha => ?_⟩
  · obtain ⟨q, hq, qcompleted⟩ := hpaid p hp
    obtain ⟨r, hr, rcompleted⟩ := hpaid' p hp
    exact ⟨q, r, hq, hr, qcompleted, rcompleted⟩
  · obtain ⟨b, hb, hworth⟩ := hheld a ha
    obtain ⟨c, hc, hworth'⟩ := hheld' a ha
    exact ⟨b, c, hb, hc, Decimal.sameValue_iff_worth_eq.mpr (hworth.trans hworth'.symm), hworth⟩

/-- A tenant owes a landlord the rent, and the landlord owes the tenant wages. Each has the money,
and both payments wait. -/
def crossing : List Act :=
  let wages : Submission := ⟨"wages", Sample.five, "landlord", "tenant", none⟩
  [.command (.opening "tenant" nine), .command (.opening "landlord" nine)] ++
    (Sample.checked ++ .submit wages .epoch ::
      Check.all.map fun check => Request.check ⟨"wages", .epoch, check, false, none⟩).map
      fun r => .command (.request r)

/-- The store then. -/
def crossed : Store :=
  ((ofEngine ⟨.default, Watched.ofStore .empty [], Sample.outbox, true⟩).actAll
    crossing).engine.storage.history.present

/-- Whether the rent is paid first or the wages are, the landlord has nine units in the end. -/
theorem crossed_in_any_order :
    let engine : Engine Store := ⟨.default, crossed, Sample.outbox, true⟩
    let order := crossed.payments.values.map fun p => (p, Instant.epoch)
    order.map (·.1.requestId) = ["rent", "wages"] ∧
      ∃ b c, (engine.confirmAll order).storage.accounts.get? "landlord" = some b ∧
        (engine.confirmAll order.reverse).storage.accounts.get? "landlord" = some c ∧
        b.balance.sameValue c.balance ∧ b.balance.worth = nine.worth := by
  intro engine order
  have landlord : ⟨"landlord", nine⟩ ∈ crossed.accounts.values := by decide +kernel
  have held : Payment.heldAfter "landlord" crossed.payments.values nine.worth = nine.worth := by
    decide +kernel
  obtain ⟨-, accounts⟩ := settlement_order_irrelevant .default [] Sample.outbox true crossing
    crossed List.mem_cons_self 0 (by decide) (by decide +kernel) (by decide +kernel)
    (by decide +kernel) crossed.payments.values (by decide +kernel) (by decide +kernel)
    (by decide +kernel) Sample.outbox order order.reverse (by decide +kernel) (by decide +kernel)
    (by decide +kernel)
  obtain ⟨b, c, hb, hc, same, worth⟩ := accounts ⟨"landlord", nine⟩ landlord
  exact ⟨by decide +kernel, b, c, hb, hc, same, worth.trans held⟩

end Inbox

end Clearing
