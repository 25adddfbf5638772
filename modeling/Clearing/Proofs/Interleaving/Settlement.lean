import Clearing.Proofs.Account.Transfer
import Clearing.Proofs.Interleaving.Machine
import Clearing.Proofs.Store.Values
import Clearing.Proofs.Store.Write

/-!
# Each payment is settled once

The payments that are completed, in the order in which their settlements were committed, account for
every balance: whatever requests are served over the store and however their calls interleave, the
accounts are those that were opened after one transfer for each of these payments.
-/

namespace Clearing

/-- The accounts after a transfer between two of them. -/
def Transfer.carryOut (t : Transfer) (accounts : Table Account) : Except Fault (Table Account) :=
  match accounts.get? t.payer, accounts.get? t.payee with
  | some payer, some payee =>
      match t.apply ⟨payer, payee⟩ with
      | (.ok (), moved) => .ok ((accounts.put t.payer moved.payer).put t.payee moved.payee)
      | (.error fault, _) => .error fault
  | none, _ => .error (.unknownAccount t.payer)
  | _, none => .error (.unknownAccount t.payee)

/-- The accounts after the transfers of payments, in their order. -/
def Transfer.carryOutAll (payments : List Payment) (accounts : Table Account) :
    Except Fault (Table Account) :=
  payments.foldlM (fun accounts p => p.transfer.carryOut accounts) accounts

/-- The completed payments of a store. -/
def Store.completed (s : Store) : List Payment :=
  s.payments.values.filter (·.status = .completed)

/-- The payment that an exchange settles. -/
def Exchange.settled? : Exchange → Option Payment
  | ⟨.commitTransfer p _ _, .ok .settled⟩ => some p
  | _ => none

/-- A call that fails settles nothing. -/
theorem Exchange.settled?_error (c : Call) (fault : Fault) :
    (Exchange.mk c (.error fault)).settled? = none := by
  cases c <;> rfl

/-- The payments whose settlements were committed, in the order of the commits. -/
def Machine.settlements (m : Machine) : List Payment := m.exchanges.filterMap Exchange.settled?

namespace Store

variable {s : Store} {q : Payment}

/-- A settlement that is written carries the transfer out. -/
theorem carryOut_of_parties {t : Transfer} {found moved : Parties} (h : s.parties t = .ok found)
    (ha : t.apply found = (.ok (), moved)) :
    t.carryOut s.accounts = .ok (s.putSettlement q moved).accounts := by
  obtain ⟨hpayer, hpayee⟩ := Transfer.names_of_apply ha
  obtain ⟨hp, hq⟩ := accounts_of_parties h
  rw [Transfer.carryOut, hp, hq]
  dsimp only
  rw [ha]
  simp only [putSettlement, putAccount, put, hpayer, hpayee]

/-- A record that is written over none that is completed adds itself, if it is completed. -/
theorem perm_completed_put {t : Store} (ht : t.payments = s.payments.put q.requestId q)
    (free : ∀ p, s.payments.get? q.requestId = some p → p.status ≠ .completed) :
    t.completed.Perm (s.completed ++ [q].filter (·.status = .completed)) := by
  unfold completed
  rw [ht]
  cases hp : s.payments.get? q.requestId with
  | none => rw [Table.values_put_of_absent hp, List.filter_append]
  | some p =>
    obtain ⟨before, after, hs, hput⟩ := Table.values_put_of_present hp q
    -- The old record was not counted, so the new one may take its place in the list.
    have hopen : [p].filter (·.status = .completed) = [] := by simp [free p hp]
    rw [hput, hs, List.filter_append, List.filter_append, List.append_assoc]
    refine List.Perm.append_left _ ?_
    rw [← List.singleton_append, List.filter_append, ← List.singleton_append (x := p),
      List.filter_append, hopen, List.nil_append]
    exact List.perm_append_comm

end Store

/-- The settled payments account for the store: its balances are those of the opening after their
transfers, and they are the payments that are completed. -/
structure Accounted (opening : Table Account) (settled : List Payment) (s : Store) : Prop where
  balances : Transfer.carryOutAll settled opening = .ok s.accounts
  completed : settled.Perm s.completed
  keyed : s.Keyed
  proper : ∀ id p, s.payments.get? id = some p → p.Proper

namespace Accounted

variable {opening : Table Account} {settled : List Payment} {s t : Store} {q : Payment}

/-- A proper record may be written over one that is not completed, and is settled if it is completed
itself. -/
theorem written (h : Accounted opening settled s)
    (payments : t.payments = s.payments.put q.requestId q)
    (free : ∀ p, s.payments.get? q.requestId = some p → p.status ≠ .completed) (proper : q.Proper)
    (balances : Transfer.carryOutAll (settled ++ [q].filter (·.status = .completed)) opening =
      .ok t.accounts) :
    Accounted opening (settled ++ [q].filter (·.status = .completed)) t := by
  refine ⟨balances, ?_, h.keyed.put payments, ?_⟩
  · exact (h.completed.append_right _).trans (Store.perm_completed_put payments free).symm
  · intro id p hp
    rcases Store.stored_of_put payments hp with ⟨-, rfl⟩ | ⟨-, hs⟩
    · exact proper
    · exact h.proper id p hs

/-- A proper record that is not completed may be written over one that is not. -/
theorem put (h : Accounted opening settled s) (payments : t.payments = s.payments.put q.requestId q)
    (accounts : t.accounts = s.accounts)
    (free : ∀ p, s.payments.get? q.requestId = some p → p.status ≠ .completed)
    (unpaid : q.status ≠ .completed) (proper : q.Proper) : Accounted opening settled t := by
  have hnone : settled ++ [q].filter (·.status = .completed) = settled := by simp [unpaid]
  rw [← hnone]
  refine h.written payments free proper ?_
  rw [hnone, accounts]
  exact h.balances

/-- An admitted write is over a record that is not final. -/
theorem free_of_accepts {version : UInt64} (h : s.accepts q.requestId version = true) :
    ∀ p, s.payments.get? q.requestId = some p → p.status ≠ .completed := by
  intro p hp hc
  rw [Store.accepts_of_terminal version hp (by rw [hc]; rfl)] at h
  exact absurd h nofun

/-- A settlement moves the money of the payment that it completes. -/
theorem settle (h : Accounted opening settled s) {found moved : Parties}
    (free : ∀ p, s.payments.get? q.requestId = some p → p.status ≠ .completed)
    (completed : q.status = .completed) (proper : q.Proper)
    (parties : s.parties q.transfer = .ok found)
    (applied : q.transfer.apply found = (.ok (), moved)) :
    Accounted opening (settled ++ [q]) (s.putSettlement q moved) := by
  have hone : [q].filter (·.status = .completed) = [q] := by simp [completed]
  have hcarried : Transfer.carryOutAll (settled ++ [q]) opening =
      .ok (s.putSettlement q moved).accounts := by
    have hbefore : settled.foldlM (fun accounts p => p.transfer.carryOut accounts) opening =
        .ok s.accounts := h.balances
    have hlast : q.transfer.carryOut s.accounts = .ok (s.putSettlement q moved).accounts :=
      Store.carryOut_of_parties parties applied
    rw [Transfer.carryOutAll, List.foldlM_append, hbefore]
    change (q.transfer.carryOut s.accounts >>= pure) = _
    rw [hlast]
    rfl
  have hw := h.written (t := s.putSettlement q moved) rfl free proper (by rwa [hone])
  rwa [hone] at hw

/-- The answer to a justified call leaves the store accounted for. -/
theorem answer (h : Accounted opening settled s) {limit : UInt64} {r : Request}
    {past : List Exchange} {c : Call} (justified : c.Justified limit r past)
    (proper : ∀ p, Read past p → p.Proper) :
    Accounted opening (settled ++ (Exchange.mk c (s.answer c).1).settled?.toList)
      (s.answer c).2 := by
  cases c with
  | get | findOverdue | allPayments | getAccount | allAccounts =>
    rw [show Exchange.settled? _ = none from rfl, Option.toList_none, List.append_nil]
    exact h
  | storeAccount a => exact justified.elim
  | insert p =>
    rw [show Exchange.settled? _ = none from rfl, Option.toList_none, List.append_nil]
    obtain ⟨b, now, -, accepted, rfl⟩ := justified
    simp only [Store.answer, Store.insert]
    split
    · exact h
    · next absent =>
      refine h.put (q := (Payment.begun b now).numbered (s.lastId + 1)) rfl rfl ?_ nofun ?_
      · intro p hp
        exact absurd (absent.symm.trans hp) nofun
      · exact Payment.proper_begun accepted now _
  | update q version =>
    rw [show Exchange.settled? _ = none from rfl, Option.toList_none, List.append_nil]
    obtain ⟨p, read, -, change, unpaid⟩ := justified
    simp only [Store.answer, Store.update]
    split
    · next haccepts =>
      exact h.put rfl rfl (free_of_accepts haccepts) unpaid (change.proper (proper p read))
    · exact h
  | commitTransfer q version transfer =>
    obtain ⟨p, read, -, change, completed, rfl⟩ := justified
    -- Every answer but `settled` leaves both the store and the log of settlements.
    have hnone (answer : Except Fault Settled) (ha : answer ≠ .ok .settled) :
        Accounted opening (settled ++
          (Exchange.mk (.commitTransfer q version q.transfer) answer).settled?.toList) s := by
      rcases answer with fault | _ | _ | _
      · simpa [Exchange.settled?] using h
      · exact absurd rfl ha
      · simpa [Exchange.settled?] using h
      · simpa [Exchange.settled?] using h
    rw [Store.answer]
    rcases s.commitTransfer_cases q version q.transfer with
      ⟨answer, hanswer, unsettled, -⟩ | ⟨found, moved, haccepts, hfound, happlied, hanswer⟩
    · rw [hanswer]
      exact hnone answer unsettled
    · rw [hanswer]
      exact h.settle (free_of_accepts haccepts) completed (change.proper (proper p read)) hfound
        happlied

end Accounted

namespace Machine

/-- What holds of a machine at all times: the settlements account for its store, its tasks are
disciplined, and every record that they have read is proper. -/
structure Settling (opening : Table Account) (m : Machine) : Prop where
  accounted : Accounted opening m.settlements m.store
  disciplined : m.Disciplined
  reads : ∀ t ∈ m.tasks, ∀ p, Read t.past p → p.Proper

theorem settling_ofStore (limit : UInt64) (accounts : Table Account) (lastId : UInt64) :
    Settling accounts (ofStore limit ⟨.empty, accounts, lastId⟩) := by
  refine ⟨⟨rfl, List.Perm.nil, fun _ _ => nofun, fun _ _ => nofun⟩, ?_, ?_⟩
  · exact fun t ht => absurd ht List.not_mem_nil
  · exact fun t ht => absurd ht List.not_mem_nil

/-- Every step keeps the account. -/
theorem Settling.next {opening : Table Account} {m after : Machine} (h : Settling opening m)
    (hn : m.Next after) : Settling opening after := by
  refine ⟨?_, h.disciplined.next hn, ?_⟩
  · cases hn with
    | idle | started | noticed => exact h.accounted
    | @answered t c rest answer store i mem calls answers =>
      have ha := h.accounted.answer (h.disciplined.justified mem calls) (h.reads t mem)
      have hlog : (m.exchanges ++ [Exchange.mk c answer]).filterMap Exchange.settled? =
          m.settlements ++ (Exchange.mk c answer).settled?.toList := by
        rw [List.filterMap_append, settlements]
        cases hc : (Exchange.mk c answer).settled? <;> simp [hc]
      change Accounted opening ((m.exchanges ++ [Exchange.mk c answer]).filterMap _) store
      rw [hlog]
      rcases answers with hs | ⟨fault, hs⟩
      · rw [← hs] at ha
        exact ha
      · cases hs
        rw [Exchange.settled?_error, Option.toList_none, List.append_nil]
        exact h.accounted
  · exact reads_next h.reads h.accounted.proper hn

/-- Start from a store without payments and let requests be served in any order of their calls, some
of which may fail. The accounts are those of the start after one transfer for each settled payment,
in the order of the settlements. The settled payments are the completed ones, each name is settled
once at most, and nobody pays himself. -/
theorem settled_exactly_once (limit : UInt64) (accounts : Table Account) (lastId : UInt64)
    (moves : List Move) :
    let m := (ofStore limit ⟨.empty, accounts, lastId⟩).play moves
    Transfer.carryOutAll m.settlements accounts = .ok m.store.accounts ∧
      m.settlements.Perm m.store.completed ∧
      (m.settlements.map (·.requestId)).Nodup ∧
      ∀ p ∈ m.settlements, p.payer ≠ p.payee := by
  intro m
  have h : Settling accounts m :=
    holds_play (settling_ofStore limit accounts lastId) Settling.next moves
  obtain ⟨balances, completed, keyed, proper⟩ := h.accounted
  refine ⟨balances, completed, ?_, ?_⟩
  · have hnames : (m.store.completed.map (·.requestId)).Nodup :=
      (Table.nodup_map_values keyed).sublist (List.filter_sublist.map _)
    exact (completed.map _).nodup_iff.mpr hnames
  · intro p hp
    have hm := (List.mem_filter.mp (completed.mem_iff.mp hp)).1
    obtain ⟨id, hid⟩ := Table.mem_values_iff.mp hm
    exact (proper id p hid).distinct

/-- Two confirmations of one payment take turns call by call, and one of them settles it. -/
example :
    let moves := (Sample.checked.zipIdx.flatMap fun (r, i) =>
        .start r :: List.replicate 8 (.step i)) ++
      .start Sample.confirmed :: .start Sample.confirmed ::
        (List.replicate 8 [.step 4, .step 5]).flatten
    ((ofStore 120 ⟨.empty, Sample.accounts, 0⟩).play moves).settlements = [Sample.paid] := by
  decide +kernel

end Machine

end Clearing
