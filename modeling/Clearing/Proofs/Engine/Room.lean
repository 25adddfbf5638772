import Clearing.Proofs.Engine.Overdraft
import Clearing.Proofs.Engine.Lasting
import Clearing.Proofs.Operation.Calm
import Mathlib.Algebra.Order.BigOperators.Group.List

/-!
# Room for all the money

When every balance and every amount has so many places at most, and one decimal with that many
places could hold all the money there is, then every balance has room for all that is paid into it.
Debits and credits are exact and keep their places, money is neither lost nor made, and so the room
stays. The worker never meets an overflow and answers every decision until it is shut down.
-/

namespace Clearing

/-- Whether both balances of a transfer become the exact ones, with all their places. -/
structure Parties.Unrounded (p : Parties) (amount : Amount) (less more : Decimal) : Prop where
  debit : p.payer.balance.sub amount.value = .ok less
  debitExact : Decimal.Unrounded p.payer.balance amount.value.neg less
  credit : p.payee.balance.add amount.value = .ok more
  creditExact : Decimal.Unrounded p.payee.balance amount.value more

namespace Store

variable {limit : UInt64} {s : Store} {scale : Nat} {later : List (AccountId × Decimal)}

/-- A new account adds what it is worth. -/
theorem total_putAccount_of_absent {a : Account} (h : s.accounts.get? a.id = none) :
    (s.putAccount a).total = s.total + a.balance.worth := by
  change ((s.accounts.put a.id a).values.map _).sum = (s.accounts.values.map _).sum + _
  rw [Table.values_put_of_absent h]
  simp

/-- All accounts together are worth nothing or more. -/
theorem total_nonneg (h : s.Solvent) : 0 ≤ s.total := by
  refine List.sum_nonneg fun x hx => ?_
  obtain ⟨a, ha, rfl⟩ := List.mem_map.mp hx
  obtain ⟨id, hid⟩ := Table.mem_values_iff.mp ha
  exact Decimal.zero_le_iff_worth_nonneg.mp (h id a hid)

/-- Two accounts are worth no more than all of them. -/
theorem worth_add_le_total (h : s.Solvent) {t : Transfer} {found : Parties}
    (hfound : s.parties t = .ok found) (distinct : t.payer ≠ t.payee) :
    found.payer.balance.worth + found.payee.balance.worth ≤ s.total := by
  obtain ⟨hpayer, hpayee⟩ := accounts_of_parties hfound
  -- What is left of the total when both accounts are emptied is not negative.
  have hzero : Decimal.zero.worth = 0 := Decimal.worth_of_coefficient_eq_zero rfl
  have hle : Decimal.zero ≤ Decimal.zero := Decimal.zero_le_iff_worth_nonneg.mpr (by omega)
  have hother : (s.putAccount ⟨t.payer, .zero⟩).accounts.get? t.payee = some found.payee := by
    rw [putAccount, Table.get?_put, if_neg distinct]
    exact hpayee
  have hfirst := total_putAccount (a := ⟨t.payer, .zero⟩) hpayer
  have hsecond := total_putAccount (a := ⟨t.payee, .zero⟩) hother
  have hrest := total_nonneg ((h.putAccount (a := ⟨t.payer, .zero⟩) hle).putAccount
    (a := ⟨t.payee, .zero⟩) hle)
  dsimp only at hfirst hsecond
  omega

/-- Whether all the money that there is, with what is to come, fits into a decimal with so many
places: no balance and no amount has more places, and the accounts to come are new ones. -/
structure Roomy (scale : Nat) (later : List (AccountId × Decimal)) (s : Store) : Prop where
  solvent : s.Solvent
  places : ∀ id a, s.accounts.get? id = some a → a.balance.scale ≤ scale
  payments : ∀ id p, s.payments.get? id = some p → p.Proper ∧ p.amount.value.scale ≤ scale
  openings : ∀ o ∈ later, .zero ≤ o.2 ∧ o.2.scale ≤ scale ∧ s.accounts.get? o.1 = none
  distinct : (later.map Prod.fst).Nodup
  room : s.total + (later.map (·.2.worth)).sum < Decimal.capacity scale

/-- There is room for all the money that is there. -/
theorem Roomy.total_lt (h : s.Roomy scale later) : s.total < Decimal.capacity scale := by
  have hlater : 0 ≤ (later.map (·.2.worth)).sum := by
    refine List.sum_nonneg fun x hx => ?_
    obtain ⟨o, ho, rfl⟩ := List.mem_map.mp hx
    exact Decimal.zero_le_iff_worth_nonneg.mp (h.openings o ho).1
  have hroom := h.room
  omega

/-- Where there is room, a payer who can pay is debited and the payee is credited exactly. -/
theorem Roomy.exists_unrounded (h : s.Roomy scale later) {t : Transfer} {found : Parties}
    (hfound : s.parties t = .ok found) (covers : found.payer.covers t.amount)
    (distinct : t.payer ≠ t.payee) (places : t.amount.value.scale ≤ scale) :
    ∃ less more, found.Unrounded t.amount less more := by
  obtain ⟨hpayer, hpayee⟩ := accounts_of_parties hfound
  have htotal := worth_add_le_total h.solvent hfound distinct
  have hroom := h.total_lt
  have hcovers := Decimal.le_iff_worth_le.mp covers
  have hamount := Decimal.positive_iff_worth_pos.mp t.amount.positive
  have hnonneg := Decimal.zero_le_iff_worth_nonneg.mp (h.solvent _ _ hpayee)
  obtain ⟨less, debit, debitExact⟩ :=
    Decimal.exists_sub_of_room (h.places _ _ hpayer) places (by omega)
  obtain ⟨more, credit, creditExact⟩ :=
    Decimal.exists_add_of_room (h.places _ _ hpayee) places (by omega)
  exact ⟨less, more, debit, debitExact, credit, creditExact⟩

/-- A record that fits may be written where no account changes. -/
theorem Roomy.put (h : s.Roomy scale later) {t : Store} {q : Payment}
    (accounts : t.accounts = s.accounts) (payments : t.payments = s.payments.put q.requestId q)
    (fits : q.Proper ∧ q.amount.value.scale ≤ scale) : t.Roomy scale later := by
  obtain ⟨solvent, places, stored, openings, distinct, room⟩ := h
  refine ⟨?_, ?_, ?_, ?_, distinct, ?_⟩
  · rwa [Solvent, accounts]
  · rwa [accounts]
  · intro id p hp
    rcases stored_of_put payments hp with ⟨-, rfl⟩ | ⟨-, hs⟩
    · exact fits
    · exact stored id p hs
  · rwa [accounts]
  · rwa [total, accounts]

/-- A settlement neither loses nor makes money and leaves no balance with more places. -/
theorem Roomy.putSettlement (h : s.Roomy scale later) {q : Payment} {found moved : Parties}
    (hfound : s.parties q.transfer = .ok found)
    (happlied : q.transfer.apply found = (.ok (), moved))
    (fits : q.Proper ∧ q.amount.value.scale ≤ scale) :
    (s.putSettlement q moved).Roomy scale later := by
  obtain ⟨less, more, debit, debitExact, credit, creditExact⟩ := h.exists_unrounded hfound
    (Transfer.covers_of_apply happlied) fits.1.distinct fits.2
  obtain ⟨hpayer, hpayee⟩ := accounts_of_parties hfound
  obtain ⟨hless, hmore⟩ := Transfer.nonneg_of_apply happlied (h.solvent _ _ hpayee)
  have htotal := total_putSettlement hfound happlied fits.1.distinct
  obtain ⟨hpayerId, hpayeeId, less', more', debit', credit', rfl⟩ :=
    Transfer.moves_of_apply happlied
  cases debit.symm.trans debit'
  cases credit.symm.trans credit'
  have hpayerPlaces : less.scale ≤ scale := by
    rw [debitExact.scale]
    exact Decimal.sumScale_le (h.places _ _ hpayer) fits.2
  have hpayeePlaces : more.scale ≤ scale := by
    rw [creditExact.scale]
    exact Decimal.sumScale_le (h.places _ _ hpayee) fits.2
  refine ⟨?_, ?_, ?_, ?_, h.distinct, ?_⟩
  · exact (h.solvent.putAccount hless).putAccount hmore
  · exact forall_putAccount (forall_putAccount h.places hpayerPlaces) hpayeePlaces
  · intro id p hp
    rcases stored_of_put (t := s.putSettlement q _) rfl hp with ⟨-, rfl⟩ | ⟨-, hs⟩
    · exact fits
    · exact h.payments id p hs
  · intro o ho
    obtain ⟨nonneg, places, fresh⟩ := h.openings o ho
    refine ⟨nonneg, places, ?_⟩
    -- The accounts of the transfer are there already, so they are none of those to come.
    have hother {id : AccountId} {a : Account} (present : s.accounts.get? id = some a) :
        id ≠ o.1 := by
      rintro rfl
      cases present.symm.trans fresh
    rw [accounts_putSettlement happlied (hother hpayer) (hother hpayee)]
    exact fresh
  · have hdebited := debitExact.worth
    have hcredited := creditExact.worth
    rw [Decimal.worth_neg] at hdebited
    have hroom := h.room
    rw [htotal]
    dsimp only
    omega

/-- An account to come may be opened. -/
theorem Roomy.opened {id : AccountId} {balance : Decimal}
    (h : s.Roomy scale ((id, balance) :: later)) :
    (s.putAccount ⟨id, balance⟩).Roomy scale later := by
  obtain ⟨nonneg, places, fresh⟩ := h.openings _ List.mem_cons_self
  obtain ⟨hname, hothers⟩ := List.nodup_cons.mp h.distinct
  refine ⟨h.solvent.putAccount nonneg, forall_putAccount h.places places, h.payments, ?_, hothers,
    ?_⟩
  · intro o ho
    obtain ⟨nonneg, places, unopened⟩ := h.openings o (List.mem_cons_of_mem _ ho)
    have hne : id ≠ o.1 := by
      rintro rfl
      exact hname (List.mem_map.mpr ⟨o, ho, rfl⟩)
    refine ⟨nonneg, places, ?_⟩
    rw [putAccount, Table.get?_put, if_neg hne]
    exact unopened
  · have hroom := h.room
    rw [List.map_cons, List.sum_cons] at hroom
    rw [total_putAccount_of_absent fresh]
    dsimp only at hroom ⊢
    omega

end Store

/-- Whether no more places are submitted than are kept. -/
def Request.Within (scale : Nat) : Request → Prop
  | .submit b _ => b.amount.value.scale ≤ scale
  | .check _ | .confirm _ _ | .sweep _ => True

instance (scale : Nat) : (r : Request) → Decidable (r.Within scale)
  | .submit b _ => inferInstanceAs (Decidable (b.amount.value.scale ≤ scale))
  | .check _ | .confirm _ _ | .sweep _ => inferInstanceAs (Decidable True)

/-- A change of a record that fits by a request that fits makes a record that fits. -/
theorem Payment.Change.fits {limit : UInt64} {scale : Nat} {r : Request} {p q : Payment}
    (h : p.Change limit r q) (within : r.Within scale)
    (fits : p.Proper ∧ p.amount.value.scale ≤ scale) : q.Proper ∧ q.amount.value.scale ≤ scale := by
  refine ⟨h.proper fits.1, ?_⟩
  rcases h.renews_or_keeps with ⟨b, now, rfl, -, -, rfl⟩ | ⟨-, next, keeps, rfl⟩
  · exact within
  · have hamount : next.amount = p.amount := congrArg Transfer.amount keeps.transfer
    rw [show next.succ.amount = next.amount from rfl, hamount]
    exact fits.2

/-- No call of a request takes the room away. -/
theorem Store.abiding_roomy (limit : UInt64) (scale : Nat) (later : List (AccountId × Decimal)) :
    Abiding limit (Request.Within scale) (fun p => p.Proper ∧ p.amount.value.scale ≤ scale)
      (Roomy scale later) := by
  refine ⟨fun s h => h.payments, fun s r past c within justified reads h => ?_⟩
  cases c with
  | get | findOverdue | allPayments | getAccount | allAccounts => exact h
  | storeAccount a => exact justified.elim
  | insert p =>
    obtain ⟨b, now, rfl, accepted, rfl⟩ := justified
    simp only [answer, insert]
    split
    · exact h
    · exact h.put rfl rfl ⟨Payment.proper_begun accepted now _, within⟩
  | update q version =>
    obtain ⟨p, read, -, change, -⟩ := justified
    simp only [answer, update]
    split
    · exact h.put rfl rfl (change.fits within (reads p read))
    · exact h
  | commitTransfer q version t =>
    obtain ⟨p, read, -, change, -, rfl⟩ := justified
    rw [answer]
    rcases s.commitTransfer_cases q version q.transfer with
      ⟨answer, hanswer, -, -⟩ | ⟨found, moved, -, hfound, happlied, hanswer⟩
    · rw [hanswer]
      exact h
    · rw [hanswer]
      exact h.putSettlement hfound happlied (change.fits within (reads p read))

/-- Where there is room, no decision overflows a balance. -/
theorem Store.Roomy.not_overflowing {s : Store} {scale : Nat} {later : List (AccountId × Decimal)}
    (h : s.Roomy scale later) {limit : UInt64} {d : Decision} {now : Time.Instant}
    {cause : Decimal.Overflow} : ¬ Operation.Overflowing limit s d now cause := by
  rintro ⟨p, stored, -, -, -, -, parties, found, covers, overflow⟩
  obtain ⟨proper, places⟩ := h.payments _ _ stored
  obtain ⟨less, more, exact⟩ := h.exists_unrounded found covers proper.distinct places
  obtain ⟨-, -, hadd⟩ := Transfer.overflow_of_apply overflow
  exact absurd (exact.credit.symm.trans hadd) nofun

/-- The account that a command opens, and with what. -/
def Command.opens? : Command → Option (AccountId × Decimal)
  | .opening id balance => some (id, balance)
  | .request _ | .shutdown => none

namespace Engine

variable {e : Engine Store} {scale : Nat}

/-- Where there is room, a worker that runs settles as anyone else would, and goes on running. -/
theorem confirm_of_roomy {later : List (AccountId × Decimal)} (keyed : e.storage.Keyed)
    (h : e.storage.Roomy scale later) (running : e.running = true) (d : Decision)
    (now : Time.Instant) :
    e.confirm d now = e.perform (Operation.settle e.settings.timeLimit d now) := by
  rw [confirm, if_pos running]
  refine work_eq_perform fun cause overflow => ?_
  exact h.not_overflowing ((Operation.settle_overflows_iff keyed _ d now cause).mp overflow)

/-- An account that does not begin below zero is opened. -/
theorem storage_opening_of_nonneg {id : AccountId} {balance : Decimal} (nonneg : .zero ≤ balance) :
    (e.obey (.opening id balance)).storage = e.storage.putAccount ⟨id, balance⟩ := by
  have hopening : Account.opening id balance = .ok ⟨id, balance⟩ :=
    if_neg (Decimal.not_negative_of_zero_le nonneg)
  rw [obey, openAccount_eq, (e.runs_perform _).storage, Operation.opening, hopening]
  rfl

/-- Commands that open new accounts and submit no more places than are kept leave the room that
there is, and the worker runs until it is shut down. -/
theorem roomy_obeyAll {commands : List Command} (keyed : e.storage.Keyed)
    (h : e.storage.Roomy scale (commands.filterMap Command.opens?)) (running : e.running = true)
    (within : ∀ r, .request r ∈ commands → r.Within scale) (up : .shutdown ∉ commands) :
    (e.obeyAll commands).running = true ∧ (e.obeyAll commands).storage.Keyed ∧
      (e.obeyAll commands).storage.Roomy scale [] := by
  induction commands generalizing e with
  | nil => exact ⟨running, keyed, h⟩
  | cons command rest ih =>
    have hkeyed : (e.obey command).storage.Keyed :=
      lasts_obey Store.lasting_keyed keyed keyed fun _ _ => trivial
    have hwithin : ∀ r, .request r ∈ rest → r.Within scale := fun r hr =>
      within r (List.mem_cons_of_mem _ hr)
    have hup : .shutdown ∉ rest := fun hm => up (List.mem_cons_of_mem _ hm)
    cases command with
    | shutdown => exact absurd List.mem_cons_self up
    | opening id balance =>
      have hopened := h.opened
      rw [← storage_opening_of_nonneg (h.openings _ List.mem_cons_self).1] at hopened
      exact ih hkeyed hopened running hwithin hup
    | request r =>
      have taken : e.takes r = true := by
        cases r <;> first | rfl | exact running
      have hroomy : (e.obey (.request r)).storage.Roomy scale (rest.filterMap Command.opens?) := by
        rw [obey, (runs_serve taken).storage]
        exact (Store.abiding_roomy e.settings.timeLimit scale _).run_plain
          (within r List.mem_cons_self) (Operation.disciplined_operation _ r []) h
      have hrunning : (e.obey (.request r)).running = true := by
        cases r with
        | submit | check | sweep => exact running
        | confirm d now =>
          change (e.confirm d now).2.running = true
          rw [confirm_of_roomy keyed h running]
          exact running
      exact ih hkeyed hroomy hrunning hwithin hup

/-- Balances with so many places are together worth what their coefficients are. -/
theorem sum_worth {openings : List (AccountId × Decimal)} (bound : scale ≤ Decimal.maxScale)
    (places : ∀ o ∈ openings, o.2.scale ≤ scale) :
    (openings.map (·.2.worth)).sum =
      (openings.map (·.2.coefficientAt scale)).sum * pow10 (Decimal.maxScale - scale) := by
  induction openings with
  | nil => simp
  | cons o rest ih =>
    have hfirst := o.2.coefficientAt_mul (places o List.mem_cons_self) bound
    have hrest := ih fun o ho => places o (List.mem_cons_of_mem _ ho)
    rw [List.map_cons, List.map_cons, List.sum_cons, List.sum_cons, Int.add_mul, hfirst, hrest]

/-- The empty store has room for accounts that one decimal could hold together. -/
theorem roomy_empty {openings : List (AccountId × Decimal)} (bound : scale ≤ Decimal.maxScale)
    (distinct : (openings.map Prod.fst).Nodup)
    (fits : ∀ o ∈ openings, .zero ≤ o.2 ∧ o.2.scale ≤ scale)
    (room : (openings.map (·.2.coefficientAt scale)).sum < Decimal.coefficientBound) :
    Store.empty.Roomy scale openings := by
  have hpos : (0 : Int) < pow10 (Decimal.maxScale - scale) := Int.natCast_pos.mpr (pow10_pos _)
  have htotal : Store.empty.total = 0 := rfl
  refine ⟨Store.solvent_empty, fun _ _ => nofun, fun _ _ => nofun, ?_, distinct, ?_⟩
  · exact fun o ho => ⟨(fits o ho).1, (fits o ho).2, rfl⟩
  · rw [htotal, Int.zero_add, sum_worth bound fun o ho => (fits o ho).2, Decimal.capacity,
      Int.natCast_mul]
    exact Int.mul_lt_mul_of_pos_right room hpos

/-- Start from the empty store, open each account once and not below zero, and submit, check,
confirm and sweep as often as you like. Let all opening balances and all submitted amounts have so
many places at most, and let one decimal with that many places be able to hold all the opening
balances together. Then the worker runs until it is shut down and no decision ends with a breakdown.
Every payment whose payer has the money can be settled exactly and without giving up a place, and so
can every settlement that comes up when requests are served together from then on. -/
theorem never_overflows (settings : Settings) (topicCapacity scale : Nat)
    (bound : scale ≤ Decimal.maxScale) (commands : List Command)
    (distinct : ((commands.filterMap Command.opens?).map Prod.fst).Nodup)
    (fits : ∀ o ∈ commands.filterMap Command.opens?, .zero ≤ o.2 ∧ o.2.scale ≤ scale)
    (room : ((commands.filterMap Command.opens?).map (·.2.coefficientAt scale)).sum <
      Decimal.coefficientBound)
    (within : ∀ r, .request r ∈ commands → r.Within scale) (up : .shutdown ∉ commands) :
    let e := (Engine.start settings Store.empty topicCapacity).obeyAll commands
    e.running = true ∧
      (∀ d now cause, (e.confirm d now).1 ≠ .error (.internal cause)) ∧
      (∀ p ∈ e.storage.payments.values, ∀ parties, e.storage.parties p.transfer = .ok parties →
        parties.payer.covers p.amount → ∃ less more, parties.Unrounded p.amount less more) ∧
      ∀ moves, (∀ r, .start r ∈ moves → r.Within scale) →
        let m := (Machine.ofStore settings.timeLimit e.storage).play moves
        ∀ task ∈ m.tasks, ∀ q version t next,
          task.rest = .call (.commitTransfer q version t) next →
            ∀ parties, m.store.parties t = .ok parties → parties.payer.covers t.amount →
              ∃ less more, parties.Unrounded t.amount less more := by
  intro e
  have hstart : (Engine.start settings Store.empty topicCapacity).storage.Keyed := fun _ _ => nofun
  obtain ⟨hrunning, hkeyed, hroomy⟩ := roomy_obeyAll hstart (roomy_empty bound distinct fits room)
    rfl within up
  refine ⟨hrunning, fun d now cause => ?_, fun p hp parties found covers => ?_, ?_⟩
  · rw [confirm_of_roomy hkeyed hroomy hrunning]
    exact (Operation.settlement_settle hkeyed _ d now).ne_internal cause
  · obtain ⟨id, stored⟩ := Table.mem_values_iff.mp hp
    obtain ⟨proper, places⟩ := hroomy.payments id p stored
    exact hroomy.exists_unrounded found covers proper.distinct places
  · intro moves begins m task mem q version t next calls parties found covers
    have habides : m.Abides (Request.Within scale)
        (fun p => p.Proper ∧ p.amount.value.scale ≤ scale) (Store.Roomy scale []) :=
      (Machine.abides_ofStore hroomy).play (Store.abiding_roomy _ scale []) begins
    -- What is settled is a change of a record that was read, so its amount fits.
    obtain ⟨p, read, -, change, -, rfl⟩ := habides.disciplined.justified mem calls
    obtain ⟨proper, places⟩ :=
      change.fits (habides.allowed task mem) (habides.reads task mem p read)
    exact habides.store.exists_unrounded found covers proper.distinct places

/-- What a landlord may have besides the nine units of the tenant. -/
def nearlyMost : Decimal :=
  ⟨79228162514264337593543950326, 0, by decide, Decimal.zero.scale_le⟩

/-- The tenant and the landlord have all the money that one decimal can hold, and the rent waits. -/
def nearlyFull : List Command :=
  [.opening "tenant" Inbox.nine, .opening "landlord" nearlyMost] ++ Sample.checked.map .request

/-- The record of the rent while it waits. -/
def waitingRent : Payment :=
  { Sample.paid with status := .waiting, failureMessage := none, version := 3 }

/-- The rent is paid to a landlord who has almost all the money there is, and nothing is rounded. -/
theorem nearlyFull_settles :
    let e := (Engine.start .default Store.empty 1).obeyAll nearlyFull
    let parties : Parties := ⟨⟨"tenant", Inbox.nine⟩, ⟨"landlord", nearlyMost⟩⟩
    (e.confirm ⟨"rent", true⟩ .epoch).1 = .ok Sample.paid ∧
      (∀ cause, (e.confirm ⟨"rent", true⟩ .epoch).1 ≠ .error (.internal cause)) ∧
      ∃ less more, parties.Unrounded Sample.five less more := by
  intro e parties
  have checked : ∀ r ∈ Sample.checked, r.Within 0 := by decide
  have within : ∀ r, .request r ∈ nearlyFull → r.Within 0 := by
    intro r hr
    rcases List.mem_append.mp hr with hopening | hrequest
    · simp at hopening
    · obtain ⟨other, mem, same⟩ := List.mem_map.mp hrequest
      cases same
      exact checked r mem
  obtain ⟨-, whole, settles, -⟩ := never_overflows .default 1 0 (by decide) nearlyFull (by decide)
    (by decide) (by decide) within (by decide)
  have stored : waitingRent ∈ e.storage.payments.values := by decide +kernel
  have found : e.storage.parties waitingRent.transfer = .ok parties := by decide +kernel
  have covers : parties.payer.covers waitingRent.amount := by decide
  exact ⟨by decide +kernel, whole ⟨"rent", true⟩ .epoch,
    settles waitingRent stored parties found covers⟩

end Engine

end Clearing
