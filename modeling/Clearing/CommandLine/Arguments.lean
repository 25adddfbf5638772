import Clearing.Settings

/-!
# Arguments

Arguments are read from left to right. An option takes the argument after it, which may not look
like an option, or what stands behind its equals sign. Each option and flag may be given once, and
there is one argument without a name. Asking for help or for the version ends the reading, unless an
earlier argument was wrong.
-/

namespace Clearing.CommandLine

open Clearing.Text

/-- What is printed in the end. -/
inductive Report where
  | accounts
  | payments
  deriving DecidableEq, Repr

/-- The report of a name. -/
def Report.ofName? (s : String) : Option Report :=
  if s = "accounts" then some .accounts else if s = "payments" then some .payments else none

/-- What a run is asked to do. -/
structure Options where
  /-- The file of messages. -/
  input : String
  /-- The file of opening balances. -/
  accounts : Option String
  timeLimit : Option UInt64
  report : Report
  deriving DecidableEq, Repr

/-- The result of reading the arguments. -/
inductive Request where
  | run (options : Options)
  | help
  | version
  /-- The arguments mean nothing. -/
  | wrong
  deriving DecidableEq, Repr

/-- The options that take a value. -/
inductive Key where
  | accounts
  | database
  | timeLimit
  | report
  | logLevel
  deriving DecidableEq, Repr

/-- What a long name means. -/
inductive Name where
  | option (key : Key)
  | jsonLogs
  | help
  | version
  deriving DecidableEq, Repr

/-- The meaning of a long name. -/
def Name.ofString? : String → Option Name
  | "accounts" => some (.option .accounts)
  | "db-path" => some (.option .database)
  | "ttl-secs" => some (.option .timeLimit)
  | "report" => some (.option .report)
  | "log-level" => some (.option .logLevel)
  | "json-logs" => some .jsonLogs
  | "help" => some .help
  | "version" => some .version
  | _ => none

/-- The arguments read so far. -/
structure Draft where
  input : Option String
  accounts : Option String
  database : Option String
  timeLimit : Option UInt64
  report : Option Report
  logLevel : Option String
  jsonLogs : Bool
  deriving DecidableEq, Repr

namespace Draft

/-- No argument was read. -/
def empty : Draft := ⟨none, none, none, none, none, none, false⟩

/-- Fill what was not given yet with a value that means something. -/
def fill {α : Type} (slot value : Option α) : Option (Option α) :=
  match slot, value with
  | none, some a => some (some a)
  | _, _ => none

/-- A path has at least one character. -/
def path? (value : String) : Option String := if value.isEmpty then none else some value

/-- A time limit is a whole number of seconds, up to a year. -/
def timeLimit? (value : String) : Option UInt64 :=
  (readWhole? Settings.maxTimeLimit.toNat value.toList).map UInt64.ofNat

/-- Take the value of an option. -/
def set (d : Draft) (key : Key) (value : String) : Option Draft :=
  match key with
  | .accounts => (fill d.accounts (path? value)).map fun x => { d with accounts := x }
  | .database => (fill d.database (path? value)).map fun x => { d with database := x }
  | .timeLimit => (fill d.timeLimit (timeLimit? value)).map fun x => { d with timeLimit := x }
  | .report => (fill d.report (Report.ofName? value)).map fun x => { d with report := x }
  | .logLevel => (fill d.logLevel (some value)).map fun x => { d with logLevel := x }

/-- Take the argument without a name. -/
def setInput (d : Draft) (value : String) : Option Draft :=
  (fill d.input (path? value)).map fun x => { d with input := x }

/-- Take the flag for logs. -/
def setJsonLogs (d : Draft) : Option Draft :=
  if d.jsonLogs then none else some { d with jsonLogs := true }

/-- The request, once all arguments were read. -/
def finish (d : Draft) : Request :=
  match d.input with
  | none => .wrong
  | some input => .run ⟨input, d.accounts, d.timeLimit, d.report.getD .accounts⟩

/-- Read arguments that have no names, whatever they look like. -/
def readInputs (d : Draft) : List String → Request
  | [] => d.finish
  | arg :: rest =>
      match d.setInput arg with
      | some d => d.readInputs rest
      | none => .wrong

end Draft

/-- An argument by its looks. -/
inductive Shape where
  /-- All that follows has no names. -/
  | separator
  /-- A long name, perhaps with a value. -/
  | long (name : String) (value : Option String)
  /-- Letters behind one hyphen. -/
  | short (letters : List Char)
  | plain (value : String)
  deriving DecidableEq, Repr

/-- The looks of an argument. A lone hyphen is an argument like any other. -/
def Shape.ofString (arg : String) : Shape :=
  match arg.toList with
  | ['-', '-'] => .separator
  | '-' :: '-' :: cs =>
      let name := String.ofList (cs.takeWhile (· ≠ '='))
      match cs.dropWhile (· ≠ '=') with
      | [] => .long name none
      | _ :: value => .long name (some (String.ofList value))
  | '-' :: c :: cs => .short (c :: cs)
  | _ => .plain arg

/-- Whether an argument can be the value of the option before it. -/
def isValue (arg : String) : Bool :=
  match Shape.ofString arg with
  | .plain _ => true
  | _ => false

/-- What the first of some letters asks for. -/
def Request.ofLetters (letters : List Char) : Request :=
  match letters.head? with
  | some 'h' => .help
  | some 'V' => .version
  | _ => .wrong

/-- Read arguments one by one. -/
def Draft.read (d : Draft) : List String → Request
  | [] => d.finish
  | arg :: rest =>
      match Shape.ofString arg with
      | .separator => d.readInputs rest
      | .short letters => .ofLetters letters
      | .plain value =>
          match d.setInput value with
          | some d => d.read rest
          | none => .wrong
      | .long name value =>
          match Name.ofString? name, value with
          | some .help, none => .help
          | some .version, none => .version
          | some .jsonLogs, none =>
              match d.setJsonLogs with
              | some d => d.read rest
              | none => .wrong
          | some (.option key), some value =>
              match d.set key value with
              | some d => d.read rest
              | none => .wrong
          | some (.option key), none =>
              match rest with
              | [] => .wrong
              | value :: rest =>
                  if isValue value then
                    match d.set key value with
                    | some d => d.read rest
                    | none => .wrong
                  else .wrong
          | _, _ => .wrong

/-- Read the arguments of a run. -/
def Request.ofArguments (args : List String) : Request := Draft.empty.read args

/-- The answer to a request for the version. -/
def versionText : String := "saga-pay 0.1.0\n"

/-- The lines of the answer to a request for help. -/
def helpLines : List String :=
  ["Usage: saga-pay [OPTIONS] <INPUT>",
    "",
    "Arguments:",
    "  <INPUT>  Inbox messages, one JSON object per line",
    "",
    "Options:",
    "      --accounts <ACCOUNTS>    Opening balances CSV (`account,balance`)",
    "      --db-path <DB_PATH>      Path to persistent database (optional). "
      ++ "If provided, uses RocksDB",
    "      --ttl-secs <TTL_SECS>    Overrides EXPIRE_PAYMENT_TTL_SECONDS",
    "      --report <REPORT>        Which final state to print [default: accounts] "
      ++ "[possible values: accounts, payments]",
    "      --log-level <LOG_LEVEL>  [default: warn]",
    "      --json-logs              Emit logs as JSON lines",
    "  -h, --help                   Print help",
    "  -V, --version                Print version"]

/-- The answer to a request for help. -/
def helpText : String := String.join (helpLines.map (· ++ "\n"))

end Clearing.CommandLine
