import Clearing.Csv.Writer
import Clearing.Payment.Record

/-!
# The report of payments

A table of payments with their status and what was noted of them.
-/

namespace Clearing.Payment

/-- The columns of the report. -/
def columns : List (List Char) :=
  ["request_id", "status", "amount", "payer", "payee", "message"].map String.toList

/-- The row of a payment. Nothing noted is an empty field. -/
def reportRow (p : Payment) : List (List Char) :=
  [p.requestId, p.status.name, p.amount.text, p.payer, p.payee, p.failureMessage.getD ""].map
    String.toList

/-- The report of payments. -/
def report (payments : List Payment) : String :=
  String.ofList (Csv.tableText columns (payments.map reportRow))

end Clearing.Payment
