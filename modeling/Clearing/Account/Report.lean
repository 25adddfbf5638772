import Clearing.Account.Basic
import Clearing.Csv.Writer

/-!
# The report of accounts

A table of names and balances, which can be read again as opening balances.
-/

namespace Clearing.Account

/-- The columns of the report. -/
def columns : List (List Char) := ["account".toList, "balance".toList]

/-- The row of an account. -/
def reportRow (a : Account) : List (List Char) := [a.id.toList, a.balance.text.toList]

/-- The report of accounts. -/
def report (accounts : List Account) : String :=
  String.ofList (Csv.tableText columns (accounts.map reportRow))

end Clearing.Account
