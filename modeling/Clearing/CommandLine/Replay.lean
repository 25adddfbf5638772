import Clearing.Account.OpeningBalances
import Clearing.Account.Report
import Clearing.CommandLine.Arguments
import Clearing.Engine.Inbox
import Clearing.Message.Reader
import Clearing.Payment.Report

/-!
# Replaying messages

A run opens the accounts of one file, delivers the messages of another in their order and reports
the accounts or the payments in the end. Rows and lines that cannot be read are skipped, and so are
messages that are rejected. A file that is missing ends the run.
-/

namespace Clearing.CommandLine

/-- How a run ends. -/
structure Exit where
  code : UInt8
  output : String
  deriving DecidableEq, Repr

/-- The end of a run that could not be carried out. -/
def Exit.failure : Exit := ⟨1, ""⟩

/-- The end of a run whose arguments were wrong. -/
def Exit.usage : Exit := ⟨2, ""⟩

/-- What surrounds a run. -/
structure Surroundings where
  lookup? : String → Option String
  /-- The bytes of a file, if it exists. -/
  file? : String → Option (List UInt8)
  now : Time.Instant

/-- How many outcomes wait for a subscriber at most. -/
def topicCapacity : Nat := 1024

/-- The settings of a run. -/
def Options.settings (o : Options) (lookup? : String → Option String) : Settings :=
  let s := Settings.ofEnvironment lookup?
  o.timeLimit.elim s s.withTimeLimit

/-- Store the accounts of the rows that can be used. -/
def seed (bytes : List UInt8) : Store :=
  ((OpeningBalances.read bytes).filterMap Except.toOption).foldl Store.putAccount .empty

/-- The accounts at the beginning of a run. -/
def Options.store? (o : Options) (file? : String → Option (List UInt8)) : Option Store :=
  match o.accounts with
  | none => some .empty
  | some path => (file? path).map seed

/-- Deliver the messages of a file. -/
def replay (settings : Settings) (store : Store) (bytes : List UInt8) (now : Time.Instant) :
    Engine Store :=
  let inbox := Inbox.ofEngine (Engine.start settings store topicCapacity)
  let messages := (Message.readLines bytes).filterMap Except.toOption
  (inbox.deliverAll messages now).engine.shutdown

/-- The report of a store. -/
def Report.text (r : Report) (s : Store) : String :=
  match r with
  | .accounts => Account.report s.allAccounts
  | .payments => Payment.report s.allPayments

/-- Carry out a run. -/
def Options.run (o : Options) (s : Surroundings) : Exit :=
  match o.store? s.file? with
  | none => .failure
  | some store =>
      match s.file? o.input with
      | none => .failure
      | some bytes =>
          ⟨0, o.report.text (replay (o.settings s.lookup?) store bytes s.now).storage⟩

/-- Answer the arguments of a run. -/
def answer (args : List String) (s : Surroundings) : Exit :=
  match Request.ofArguments args with
  | .run o => o.run s
  | .help => ⟨0, helpText⟩
  | .version => ⟨0, versionText⟩
  | .wrong => .usage

end Clearing.CommandLine
