import Clearing.Proofs.Account.Transfer
import Clearing.Proofs.Engine.Conservation
import Clearing.Proofs.Interleaving.Abiding

/-!
# No overdraft

A balance begins at zero or above, and a settlement takes from a payer only what the payer has, so
no balance ever falls below zero: not while an engine runs and its calls fail, and not while
requests are served together and accounts are opened in between. The debit of a settlement cannot
fail. What can still overflow is the credit.
-/

namespace Clearing

namespace Store

variable {s : Store}

/-- Whether no balance is below zero. -/
def Solvent (s : Store) : Prop := ∀ id a, s.accounts.get? id = some a → .zero ≤ a.balance

theorem solvent_empty : empty.Solvent := fun _ _ => nofun

/-- An account that is not below zero may be written. -/
theorem Solvent.putAccount (h : s.Solvent) {a : Account} (nonneg : .zero ≤ a.balance) :
    (s.putAccount a).Solvent := forall_putAccount h nonneg

/-- A settlement leaves no balance below zero. -/
theorem Solvent.commitTransfer (h : s.Solvent) (q : Payment) (version : UInt64) (t : Transfer) :
    (s.commitTransfer q version t).2.Solvent := by
  rcases s.commitTransfer_cases q version t with
    ⟨answer, hanswer, -, -⟩ | ⟨found, moved, -, hfound, happlied, hanswer⟩
  · rw [hanswer]
    exact h
  · rw [hanswer]
    have hpayee := h _ _ (accounts_of_parties hfound).2
    obtain ⟨hless, hmore⟩ := Transfer.nonneg_of_apply happlied hpayee
    exact (h.putAccount hless).putAccount hmore

/-- No call of a request puts a balance below zero. -/
theorem abiding_solvent (limit : UInt64) :
    Abiding limit (fun _ => True) (fun _ => True) Solvent := by
  refine abiding_of_settlements limit (fun s t same h => ?_) fun s q version t h =>
    h.commitTransfer q version t
  rw [Solvent, same]
  exact h

end Store

/-- An account is opened with what it is opened with, and not below zero. -/
theorem Account.nonneg_of_opening {id : AccountId} {balance : Decimal} {a : Account}
    (h : opening id balance = .ok a) : .zero ≤ a.balance := by
  unfold opening at h
  split at h
  · exact absurd h nofun
  · next nonneg =>
    cases h
    exact Decimal.zero_le_of_not_negative nonneg

/-- An account is not opened below zero, whatever storage it is opened in. -/
theorem Operation.nonneg_of_opening {σ : Type} [Storage σ] {id : AccountId} {balance : Decimal}
    {a : Account} {s : σ} (h : ((opening id balance).run s).result = .ok a) : .zero ≤ balance := by
  cases hopening : Account.opening id balance with
  | error fault =>
    rw [opening, hopening] at h
    cases h
  | ok b =>
    cases Account.eq_of_opening hopening
    exact Account.nonneg_of_opening hopening

namespace Machine

/-- The machines that come out of the empty store when accounts are opened and moves are made, in
any order. -/
inductive Reachable (limit : UInt64) : Machine → Prop
  | empty : Reachable limit (ofStore limit .empty)
  | opened {m : Machine} {id : AccountId} {balance : Decimal} {a : Account}
      (before : Reachable limit m) (opening : Account.opening id balance = .ok a) :
      Reachable limit { m with store := m.store.putAccount a }
  | moved {m : Machine} (before : Reachable limit m) (move : Move) : Reachable limit (m.move move)

variable {limit : UInt64} {m : Machine}

theorem Reachable.play (h : Reachable limit m) (moves : List Move) :
    Reachable limit (m.play moves) := by
  induction moves generalizing m with
  | nil => exact h
  | cons move moves ih => exact ih (h.moved move)

/-- No balance is below zero on the way, and the tasks stay disciplined. -/
theorem Reachable.abides (h : Reachable limit m) :
    m.limit = limit ∧ m.Abides (fun _ => True) (fun _ => True) Store.Solvent := by
  induction h with
  | empty => exact ⟨rfl, abides_ofStore Store.solvent_empty⟩
  | opened _ opening ih =>
    obtain ⟨hlimit, store, disciplined, allowed, reads⟩ := ih
    exact ⟨hlimit, store.putAccount (Account.nonneg_of_opening opening), disciplined, allowed,
      reads⟩
  | @moved m _ move ih =>
    obtain ⟨hlimit, habides⟩ := ih
    refine ⟨(limit_move m move).trans hlimit, ?_⟩
    exact habides.move (Store.abiding_solvent m.limit) fun _ _ => trivial

end Machine

namespace Engine

/-- A command puts no balance below zero, not even for a moment. -/
theorem solvent_obey {e : Engine Watched} (h : ∀ s ∈ e.storage.history.stores, s.Solvent)
    (command : Command) : ∀ s ∈ (e.obey command).storage.history.stores, s.Solvent := by
  cases command with
  | shutdown => exact h
  | request r =>
    cases taken : e.takes r with
    | false =>
      rw [obey, serve_of_not_takes taken]
      exact h
    | true =>
      rw [obey, (runs_serve taken).storage]
      exact (Store.abiding_solvent e.settings.timeLimit).run trivial
        (Operation.disciplined_operation e.settings.timeLimit r [])
        (fun p read => absurd read (not_read_nil p)) h
  | opening id balance =>
    have hens := (Chronicle.ensures_opening ⟨e.storage.history, []⟩ id balance).run (w := e.storage)
    rcases hens with ⟨-, -, after⟩ | ⟨result, after⟩
    · have hhistory : (e.obey (.opening id balance)).storage.history = e.storage.history :=
        congrArg Moment.history after
      rw [hhistory]
      exact h
    · have hhistory : (e.obey (.opening id balance)).storage.history =
          e.storage.history.see (e.storage.history.present.putAccount ⟨id, balance⟩) :=
        congrArg Moment.history after
      rw [hhistory]
      intro s hs
      rcases History.mem_stores_see.mp hs with rfl | hbefore
      · exact (h _ List.mem_cons_self).putAccount (Operation.nonneg_of_opening result)
      · exact h s hbefore

/-- No commands put a balance below zero. -/
theorem solvent_obeyAll {e : Engine Watched} (h : ∀ s ∈ e.storage.history.stores, s.Solvent)
    (commands : List Command) : ∀ s ∈ (e.obeyAll commands).storage.history.stores, s.Solvent := by
  induction commands generalizing e with
  | nil => exact h
  | cons command rest ih => exact ih (solvent_obey h command)

end Engine

/-- Open accounts over the empty store and let requests be served in any order of their calls, some
of which may fail, or do anything that an inbox can be asked to do. Then no balance is ever below
zero. An amount that a balance covers can be taken from it, whatever the scales of the two, and what
is left lies between zero and the old balance. So only the addition to the payee's balance can
overflow in a transfer. -/
theorem never_overdrawn :
    (∀ limit m, Machine.Reachable limit m → m.store.Solvent) ∧
      (∀ (settings : Settings) (plan : List (Option Fault)) (outbox : Outbox) (running : Bool)
        (acts : List Inbox.Act),
        let start : Engine Watched := ⟨settings, .ofStore .empty plan, outbox, running⟩
        ∀ s ∈ ((Inbox.ofEngine start).actAll acts).engine.storage.history.stores, s.Solvent) ∧
      (∀ (payer : Account) (amount : Amount), payer.covers amount →
        ∃ rest, payer.balance.sub amount.value = .ok rest ∧ .zero ≤ rest ∧ rest ≤ payer.balance) ∧
      ∀ (t : Transfer) (p : Parties) (cause : Decimal.Overflow),
        (t.apply p).1 = .error (.overflow cause) →
          cause = .addition ∧ p.payee.balance.add t.amount.value = .error .addition := by
  refine ⟨fun limit m reachable => reachable.abides.2.store, ?_, fun _ _ => Account.exists_debit,
    fun _ _ _ overflow => (Transfer.overflow_of_apply overflow).2⟩
  intro settings plan outbox running acts start
  have hstart : ∀ s ∈ start.storage.history.stores, s.Solvent := by
    intro s hs
    rw [List.mem_singleton.mp hs]
    exact Store.solvent_empty
  obtain ⟨commands, hcommands⟩ := (Inbox.ofEngine start).engine_actAll acts
  rw [hcommands]
  exact Engine.solvent_obeyAll hstart commands

/-- The store in which a tenant has nine units and a landlord none. -/
def openedStore : Store :=
  (Store.empty.putAccount ⟨"tenant", Inbox.nine⟩).putAccount ⟨"landlord", .zero⟩

/-- Two payments of five wait for the tenant, who confirms both at the same time, with a call of
each confirmation in turn. -/
def rivalMoves : List Move :=
  let food : Submission := { Sample.rent with requestId := "food" }
  let requests := Sample.checked ++ .submit food .epoch ::
    Check.all.map fun check => .check ⟨"food", .epoch, check, false, none⟩
  (requests.zipIdx.flatMap fun (r, i) => .start r :: List.replicate 8 (.step i)) ++
    .start Sample.confirmed :: .start (.confirm ⟨"food", true⟩ .epoch) ::
      (List.replicate 8 [.step 8, .step 9]).flatten

/-- One of the two is paid and the tenant keeps four units. A tenth can be taken from the largest
balance, though the balance has no place for it, and five cannot be added to that balance. -/
theorem rivals_not_overdrawn :
    let rivals := (Machine.ofStore 120 openedStore).play rivalMoves
    let full : Parties := ⟨⟨"tenant", Inbox.nine⟩, ⟨"landlord", Inbox.most⟩⟩
    (rivals.store.Solvent ∧
      rivals.store.payments.values.map (·.status) = [.completed, .insufficientResources] ∧
      (rivals.store.accounts.get? "tenant").map (·.balance) = some Inbox.four) ∧
    (Inbox.tenth.value ≤ Inbox.most ∧ ∃ rest, Inbox.most.sub Inbox.tenth.value = .ok rest ∧
      .zero ≤ rest ∧ rest ≤ Inbox.most) ∧
    (Sample.paid.transfer.apply full).1 = .error (.overflow .addition) ∧
      Inbox.most.add Sample.five.value = .error .addition := by
  intro rivals full
  have tenant : Account.opening "tenant" Inbox.nine = .ok ⟨"tenant", Inbox.nine⟩ := rfl
  have landlord : Account.opening "landlord" .zero = .ok ⟨"landlord", .zero⟩ := rfl
  have hopened : Machine.Reachable 120 (.ofStore 120 openedStore) :=
    .opened (.opened .empty tenant) landlord
  have covers : Account.covers ⟨"tenant", Inbox.most⟩ Inbox.tenth := by decide
  have overflow : (Sample.paid.transfer.apply full).1 = .error (.overflow .addition) := by
    decide +kernel
  obtain ⟨solvent, -, debit, credit⟩ := never_overdrawn
  refine ⟨⟨solvent 120 rivals (hopened.play rivalMoves), ?_, ?_⟩,
    ⟨covers, debit ⟨"tenant", Inbox.most⟩ Inbox.tenth covers⟩, overflow,
    (credit Sample.paid.transfer full .addition overflow).2⟩
  · decide +kernel
  · decide +kernel

end Clearing
