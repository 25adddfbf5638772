import Clearing.Account.Basic
import Clearing.Csv.Records
import Clearing.Text.Blank
import Clearing.Text.Lines

/-!
# Opening balances

A table of accounts and balances. The first record names the columns, in any order and beside other
columns; blanks around names and fields do not count. A row that cannot be used is a fault of its
own and the rows after it are still read. When the names are no text, the first two columns are
taken.
-/

namespace Clearing

open Clearing.Text

namespace OpeningBalances

/-- Why the columns of a row do not give an account. -/
inductive Misfit where
  | duplicateColumn (name : String)
  | missingColumn (name : String)
  /-- A row without names has too few fields. -/
  | tooFewFields (count : Nat)
  deriving DecidableEq, Repr

/-- The wording of a misfit. -/
def Misfit.message : Misfit → String
  | .duplicateColumn name => "duplicate field `" ++ name ++ "`"
  | .missingColumn name => "missing field `" ++ name ++ "`"
  | .tooFewFields count =>
      "invalid length " ++ toString count ++ ", expected struct AccountRecord with 2 elements"

/-- Why a row opens no account. -/
inductive RowFault where
  /-- The row has not as many fields as there are columns. -/
  | unequalLengths (columns fields : Nat)
  /-- A field is no text. -/
  | notText (field : Nat)
  | misfit (cause : Misfit)
  /-- The account cannot be opened. -/
  | refused (fault : Fault)
  deriving DecidableEq, Repr

/-- The fields of a record as texts without blanks around them; the number of the first field that
is no text. -/
def texts : (index : Nat) → List Csv.Field → Except Nat (List String)
  | _, [] => .ok []
  | index, field :: rest =>
      match decodeUtf8? field with
      | none => .error index
      | some s => (texts (index + 1) rest).map (String.ofList (trim s.toList) :: ·)

/-- A row of the table. -/
structure Row where
  account : String
  balance : String
  deriving DecidableEq, Repr

/-- The column of account names. -/
def accountColumn : String := "account"

/-- The column of balances. -/
def balanceColumn : String := "balance"

/-- Fill a column that has not been met yet. -/
def fill (name : String) (slot : Option String) (field : String) :
    Except Misfit (Option String) :=
  match slot with
  | some _ => .error (.duplicateColumn name)
  | none => .ok (some field)

/-- Find account and balance among named fields. -/
def collect (account balance : Option String) : List (String × String) → Except Misfit Row
  | [] =>
      match account, balance with
      | none, _ => .error (.missingColumn accountColumn)
      | some _, none => .error (.missingColumn balanceColumn)
      | some account, some balance => .ok ⟨account, balance⟩
  | (name, field) :: rest => do
      if name = accountColumn then collect (← fill name account field) balance rest
      else if name = balanceColumn then collect account (← fill name balance field) rest
      else collect account balance rest

/-- The row of fields whose columns may have names. -/
def row (columns : Option (List String)) (fields : List String) : Except Misfit Row :=
  match columns with
  | some names => collect none none (names.zip fields)
  | none =>
      match fields with
      | account :: balance :: _ => .ok ⟨account, balance⟩
      | _ => .error (.tooFewFields fields.length)

/-- Open the account of a row. -/
def Row.toAccount (r : Row) : Except Fault Account :=
  match Decimal.ofText r.balance with
  | .error cause => .error (.refused (.malformedBalance r.balance r.account cause))
  | .ok balance => Account.opening r.account balance

/-- Read a record under `width` columns. -/
def readRecord (width : Nat) (columns : Option (List String)) (fields : List Csv.Field) :
    Except RowFault Account :=
  if fields.length ≠ width then .error (.unequalLengths width fields.length)
  else
    match texts 0 fields with
    | .error field => .error (.notText field)
    | .ok fields =>
        match row columns fields with
        | .error cause => .error (.misfit cause)
        | .ok r =>
            match r.toAccount with
            | .error fault => .error (.refused fault)
            | .ok a => .ok a

/-- Read every row of a table. -/
def read (bytes : List UInt8) : List (Except RowFault Account) :=
  match Csv.records bytes with
  | [] => []
  | header :: rows => rows.map (readRecord header.length (texts 0 header).toOption)

end OpeningBalances

end Clearing
