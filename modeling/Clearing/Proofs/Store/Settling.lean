import Clearing.Proofs.Account.Transfer
import Clearing.Proofs.Engine.Request
import Clearing.Proofs.Store.Exchange

/-!
# A settlement is carried out as a whole or not at all

A store is asked to settle: to write a record over the version that was seen and to move money
between two accounts, which need not be those of the record. There are five reasons for not doing
so, one of them found only when the payer has been debited already. All of them come before anything
is written.
-/

namespace Clearing

namespace Store

/-- Whether nothing hinders a settlement: an open record of the expected version is stored, both
accounts are there, the payer can pay, and the payee can hold what it becomes. -/
structure Settleable (s : Store) (requestId : String) (expected : UInt64) (t : Transfer)
    (found : Parties) (more : Decimal) : Prop where
  isOpen : ∃ p, s.payments.get? requestId = some p ∧ p.version = expected ∧
    p.status.terminal = false
  payer : s.accounts.get? t.payer = some found.payer
  payee : s.accounts.get? t.payee = some found.payee
  covers : t.amount.value ≤ found.payer.balance
  fits : found.payee.balance.add t.amount.value = .ok more

/-- What a settlement leaves: the record is stored, the two accounts have these balances, and all
other records and accounts are as they were. -/
structure CarriedOut (s : Store) (q : Payment) (t : Transfer) (less more : Decimal)
    (after : Store) : Prop where
  payments : ∀ id, after.payments.get? id =
    if id = q.requestId then some q else s.payments.get? id
  accounts : ∀ id, after.accounts.get? id =
    if id = t.payer then some ⟨t.payer, less⟩
    else if id = t.payee then some ⟨t.payee, more⟩ else s.accounts.get? id
  lastId : after.lastId = s.lastId

/-- Why a settlement is not carried out, with the answer that says so. -/
inductive Hinders (s : Store) (requestId : String) (expected : UInt64) (t : Transfer) :
    Except Fault Clearing.Settled → Prop
  | overtaken (gone : ¬ ∃ p, s.payments.get? requestId = some p ∧ p.version = expected ∧
      p.status.terminal = false) : Hinders s requestId expected t (.ok .conflict)
  | unknown {id : AccountId} (party : id = t.payer ∨ id = t.payee)
      (absent : s.accounts.get? id = none) :
      Hinders s requestId expected t (.error (.unknownAccount id))
  | short {payer : Account} (found : s.accounts.get? t.payer = some payer)
      (short : ¬ t.amount.value ≤ payer.balance) :
      Hinders s requestId expected t (.ok .insufficientFunds)
  | full {payee : Account} (found : s.accounts.get? t.payee = some payee)
      (full : payee.balance.add t.amount.value = .error .addition) :
      Hinders s requestId expected t (.error (.overflow .addition))

variable {s : Store} {q : Payment} {expected : UInt64} {t : Transfer} {found : Parties}
  {more : Decimal}

/-- A settlement that nothing hinders is not hindered for any reason. -/
theorem Settleable.not_hinders (h : s.Settleable q.requestId expected t found more)
    (answer : Except Fault Clearing.Settled) : ¬ s.Hinders q.requestId expected t answer := by
  intro hinders
  cases hinders with
  | overtaken gone => exact gone h.isOpen
  | unknown party absent =>
    rcases party with rfl | rfl
    · exact absurd (h.payer.symm.trans absent) nofun
    · exact absurd (h.payee.symm.trans absent) nofun
  | short found short =>
    cases h.payer.symm.trans found
    exact short h.covers
  | full found full =>
    cases h.payee.symm.trans found
    exact absurd (h.fits.symm.trans full) nofun

theorem Settleable.parties (h : s.Settleable q.requestId expected t found more) :
    s.parties t = .ok found := by
  rw [Store.parties, h.payer, h.payee]

/-- A settlement that nothing hinders is carried out. -/
theorem Settleable.commitTransfer (h : s.Settleable q.requestId expected t found more)
    (named : s.Named) (apart : t.payer ≠ t.payee) :
    ∃ less, found.payer.balance.sub t.amount.value = .ok less ∧
      (s.commitTransfer q expected t).1 = .ok .settled ∧
      s.CarriedOut q t less more (s.commitTransfer q expected t).2 := by
  have accepts : s.accepts q.requestId expected = true := accepts_iff.mpr h.isOpen
  have covers : found.payer.covers t.amount := h.covers
  obtain ⟨less, hless, applied⟩ :=
    Transfer.apply_of_covers (named _ _ h.payer) (named _ _ h.payee) covers
  rw [h.fits] at applied
  have hcommit : s.commitTransfer q expected t =
      (.ok .settled, s.putSettlement q ⟨⟨t.payer, less⟩, ⟨t.payee, more⟩⟩) := by
    simp only [Store.commitTransfer, accepts, h.parties, covers, applied, if_true]
  rw [hcommit]
  refine ⟨less, hless, rfl, fun id => ?_, fun id => ?_, rfl⟩
  · simp only [putSettlement, put, putAccount, Table.get?_put, eq_comm]
  · simp only [putSettlement, put, putAccount, Table.get?_put, @eq_comm _ id]
    split
    · next hpayee => rw [if_neg fun hpayer => apart (hpayer.trans hpayee.symm)]
    · rfl

/-- A settlement is hindered, and then nothing is written, or nothing hinders it. -/
theorem hinders_or_settleable (named : s.Named) (q : Payment) (expected : UInt64) (t : Transfer) :
    (s.Hinders q.requestId expected t (s.commitTransfer q expected t).1 ∧
      (s.commitTransfer q expected t).2 = s) ∨
    ∃ found more, s.Settleable q.requestId expected t found more := by
  rw [commitTransfer]
  split
  · next accepts =>
    unfold parties
    cases hpayer : s.accounts.get? t.payer with
    | none => exact .inl ⟨.unknown (.inl rfl) hpayer, rfl⟩
    | some payer =>
      cases hpayee : s.accounts.get? t.payee with
      | none => exact .inl ⟨.unknown (.inr rfl) hpayee, rfl⟩
      | some payee =>
        dsimp only
        split
        · next covers =>
          obtain ⟨less, -, applied⟩ := Transfer.apply_of_covers (p := ⟨payer, payee⟩)
            (named _ _ hpayer) (named _ _ hpayee) covers
          cases hfits : payee.balance.add t.amount.value with
          | ok more =>
            exact .inr ⟨⟨payer, payee⟩, more, accepts_iff.mp accepts, hpayer, hpayee, covers, hfits⟩
          | error cause =>
            rw [hfits] at applied
            rw [applied]
            obtain ⟨-, -, full⟩ := Transfer.overflow_of_apply (congrArg Prod.fst applied)
            cases hfits.symm.trans full
            exact .inl ⟨.full hpayee full, rfl⟩
        · next short => exact .inl ⟨.short hpayer short, rfl⟩
  · next refused =>
    exact .inl ⟨.overtaken fun isOpen => refused (accepts_iff.mpr isOpen), rfl⟩

/-- Whatever record is to be written over whatever version, and whatever money is to be moved
between two accounts: the store settles exactly when an open record of that version is stored, both
accounts are there, the payer can pay and the payee's balance does not overflow. Then the record is
stored and both balances are changed, and nothing else. Otherwise the answer says why, and nothing
is changed. -/
theorem settled_or_untouched (s : Store) (named : s.Named) (q : Payment) (expected : UInt64)
    (t : Transfer) (apart : t.payer ≠ t.payee) :
    let answer := (s.commitTransfer q expected t).1
    let after := (s.commitTransfer q expected t).2
    (answer = .ok .settled ↔ ∃ found more, s.Settleable q.requestId expected t found more) ∧
      (∀ found more, s.Settleable q.requestId expected t found more →
        ∃ less, found.payer.balance.sub t.amount.value = .ok less ∧
          s.CarriedOut q t less more after) ∧
      (answer ≠ .ok .settled → after = s ∧ s.Hinders q.requestId expected t answer) := by
  intro answer after
  rcases hinders_or_settleable named q expected t with ⟨hinders, same⟩ | ⟨found, more, h⟩
  · have unsettled : answer ≠ .ok .settled := by
      intro settled
      rw [show (s.commitTransfer q expected t).1 = .ok .settled from settled] at hinders
      cases hinders
    refine ⟨⟨fun settled => absurd settled unsettled, fun ⟨_, _, h⟩ => ?_⟩, fun _ _ h => ?_,
      fun _ => ⟨same, hinders⟩⟩
    · exact absurd hinders (h.not_hinders _)
    · exact absurd hinders (h.not_hinders _)
  · obtain ⟨-, -, settled, -⟩ := h.commitTransfer named apart
    refine ⟨⟨fun _ => ⟨found, more, h⟩, fun _ => settled⟩, fun found more h => ?_,
      fun unsettled => absurd settled unsettled⟩
    obtain ⟨less, hless, -, settles⟩ := h.commitTransfer named apart
    exact ⟨less, hless, settles⟩

/-- The rent waits for its confirmation, and nothing else is stored. -/
def awaitingRent : Store :=
  ⟨Table.empty.put "rent"
      { Sample.paid with status := .waiting, failureMessage := none, version := 3 },
    Sample.accounts, 1⟩

/-- A record of the rent that says that the grocer was paid. -/
def rentToGrocer : Payment := { Sample.paid with payee := "grocer" }

theorem named_awaitingRent : awaitingRent.Named := by
  intro id a found
  rw [awaitingRent, Sample.accounts, Table.get?_put, Table.get?_put] at found
  split at found
  · next hid =>
    cases found
    exact hid
  · split at found
    · next hid =>
      cases found
      exact hid
    · cases found

/-- The landlord is paid although the record names the grocer, and the record is stored as it is. -/
theorem landlord_paid_for_grocer :
    let after := (awaitingRent.commitTransfer rentToGrocer 3 ⟨"tenant", "landlord", Sample.five⟩).2
    awaitingRent.Named ∧ "tenant" ≠ "landlord" ∧
      (∃ less more,
        awaitingRent.CarriedOut rentToGrocer ⟨"tenant", "landlord", Sample.five⟩ less more after ∧
          less.text = "4" ∧ more.text = "5") ∧
      after.payments.get? "rent" = some rentToGrocer := by
  intro after
  have apart : "tenant" ≠ "landlord" := by decide
  have settleable : awaitingRent.Settleable "rent" 3 ⟨"tenant", "landlord", Sample.five⟩
      ⟨⟨"tenant", ⟨9, 0, Sample.nine_lt, Decimal.zero.scale_le⟩⟩, ⟨"landlord", .zero⟩⟩
      Sample.five.value :=
    ⟨⟨_, rfl, rfl, rfl⟩, rfl, rfl, by decide, by decide⟩
  obtain ⟨-, carried, -⟩ := settled_or_untouched awaitingRent named_awaitingRent rentToGrocer 3
    ⟨"tenant", "landlord", Sample.five⟩ apart
  obtain ⟨less, hless, out⟩ := carried _ _ settleable
  refine ⟨named_awaitingRent, apart, ⟨less, _, out, ?_, by decide⟩, out.payments "rent"⟩
  have hfour : Decimal.sub ⟨9, 0, Sample.nine_lt, Decimal.zero.scale_le⟩ Sample.five.value =
      .ok ⟨4, 0, by decide, Decimal.zero.scale_le⟩ := by decide
  cases hless.symm.trans hfour
  decide

end Store

end Clearing
