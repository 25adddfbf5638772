import Clearing.Decimal.Arithmetic
import Clearing.Decimal.Text
import Clearing.Payment.Status
import Clearing.Text.Quoted

/-!
# Faults

Why a request is not carried out. A request that names something unknown, or that meets a breakdown,
may succeed when it is repeated; a refused one never does.
-/

namespace Clearing

open Clearing.Text

/-- A request that means nothing or is not allowed. -/
inductive Refusal where
  | amountNotPositive
  | negativeOpeningBalance
  | requestIdMissing
  | partyMissing
  | selfPayment
  | insufficientFunds
  /-- The request belongs to a payer other than the one who submits it. -/
  | otherPayer (requestId : String)
  /-- An opening balance that is no number. -/
  | malformedBalance (balance account : String) (cause : Decimal.Malformed)
  deriving DecidableEq, Repr

/-- The wording of a refusal. -/
def Refusal.message : Refusal → String
  | .amountNotPositive => "Amount must be positive"
  | .negativeOpeningBalance => "Opening balance cannot be negative"
  | .requestIdMissing => "Request id is required"
  | .partyMissing => "Payer and payee are required"
  | .selfPayment => "Cannot make a payment for yourself"
  | .insufficientFunds => "Insufficient funds"
  | .otherPayer requestId => "Request id " ++ requestId ++ " belongs to another payer"
  | .malformedBalance balance account cause =>
      "Invalid balance " ++ quoted balance ++ " for account " ++ account ++ ": " ++ cause.message

/-- A request that comes at the wrong time. -/
inductive Misstep where
  /-- The payment cannot be submitted again. -/
  | notReopened (status : Status)
  /-- The payment does not wait for a confirmation. -/
  | notWaiting (requestId : String) (status : Status)
  /-- The accounts are not the ones that the transfer names. -/
  | wrongAccounts
  deriving DecidableEq, Repr

/-- The wording of a misstep. -/
def Misstep.message : Misstep → String
  | .notReopened status => "Cannot reprocess a " ++ status.name ++ " payment"
  | .notWaiting requestId status =>
      "Payment " ++ requestId ++ " is " ++ status.name ++ " and cannot be confirmed"
  | .wrongAccounts => "Transfer applied to the wrong accounts"

/-- A part of the system that does not work. -/
inductive Breakdown where
  /-- Nobody takes settlements any more. -/
  | workerStopped
  /-- The settlement was begun and never answered. -/
  | jobDropped
  /-- The storage says why it fails. -/
  | storage (text : String)
  deriving DecidableEq, Repr

/-- The wording of a breakdown. -/
def Breakdown.message : Breakdown → String
  | .workerStopped => "settlement worker is not running"
  | .jobDropped => "settlement worker dropped the job"
  | .storage text => text

/-- Why a request is not carried out. -/
inductive Fault where
  | refused (cause : Refusal)
  | misstep (cause : Misstep)
  | unknownPayment (requestId : String)
  | unknownAccount (id : String)
  /-- Another writer was faster. -/
  | conflict (requestId : String)
  | internal (cause : Breakdown)
  /-- A balance would be too large. -/
  | overflow (cause : Decimal.Overflow)
  deriving DecidableEq, Repr

/-- The wording of a fault. -/
def Fault.message : Fault → String
  | .refused cause => "Validation error: " ++ cause.message
  | .misstep cause => "Invalid saga state: " ++ cause.message
  | .unknownPayment requestId => "Not found: payment " ++ requestId
  | .unknownAccount id => "Not found: account " ++ id
  | .conflict requestId => "Concurrent update lost for payment " ++ requestId
  | .internal cause => "Internal error: " ++ cause.message
  | .overflow cause => cause.message

/-- Whether the same request could be carried out later. -/
def Fault.retryable : Fault → Bool
  | .unknownPayment _ | .unknownAccount _ | .internal _ => true
  | .refused _ | .misstep _ | .conflict _ | .overflow _ => false

end Clearing
