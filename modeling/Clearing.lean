import Clearing.Text.Blank
import Clearing.Text.Quoted
import Clearing.Text.Lines
import Clearing.Decimal.Arithmetic
import Clearing.Decimal.Text
import Clearing.Double.Shortest
import Clearing.Time.Text
import Clearing.Json.Reader
import Clearing.Json.Writer
import Clearing.Csv.Records
import Clearing.Csv.Writer
import Clearing.Fault
import Clearing.Account.Transfer
import Clearing.Payment.TimeLimit
import Clearing.Payment.View
import Clearing.Store.Program
import Clearing.Operation.Submit
import Clearing.Operation.ApplyCheck
import Clearing.Operation.Sweep
import Clearing.Engine.Inbox
import Clearing.Storage.Disturbed
import Clearing.Storage.Unreliable
import Clearing.Message.Writer
import Clearing.CommandLine.Replay
import Clearing.Main
import Clearing.Proofs.Program.Alone
import Clearing.Proofs.Store.Write
import Clearing.Proofs.Operation.Effect
import Clearing.Proofs.Operation.Discipline
import Clearing.Proofs.Store.Values
import Clearing.Proofs.Interleaving.Settlement
import Clearing.Proofs.Engine.Command
import Clearing.Proofs.Engine.Chronicle
import Clearing.Proofs.Engine.Publication
import Clearing.Proofs.Engine.Authorisation
import Clearing.Proofs.Payment.WellFormed
import Clearing.Proofs.Engine.WellFormed
import Clearing.Proofs.Engine.Watched
import Clearing.Proofs.Engine.Waiting
import Clearing.Proofs.Engine.Atomicity
import Clearing.Proofs.Operation.Conduct
import Clearing.Proofs.Interleaving.Chain
import Clearing.Proofs.Interleaving.Yielding
import Clearing.Proofs.Engine.Acknowledgement
import Clearing.Proofs.Engine.Finality
import Clearing.Proofs.Operation.Calm
import Clearing.Proofs.Engine.AnyOrder
import Clearing.Proofs.Engine.Isolation
import Clearing.Proofs.Store.Money
import Clearing.Proofs.Store.Settling
import Clearing.Proofs.Engine.Conservation
import Clearing.Proofs.Account.Transfer
import Clearing.Proofs.Engine.Balances
import Clearing.Proofs.Engine.Vouching
import Clearing.Proofs.Operation.Sweeping
import Clearing.Proofs.Time.Elapsed
import Clearing.Proofs.Operation.Lapsing
import Clearing.Proofs.Engine.Expiry
import Clearing.Proofs.Engine.Lasting
import Clearing.Proofs.Engine.Redelivery
import Clearing.Proofs.Engine.Delivery
import Clearing.Proofs.Decimal.Range
import Clearing.Proofs.Interleaving.Abiding
import Clearing.Proofs.Engine.Overdraft
import Clearing.Proofs.Engine.Room
import Clearing.Proofs.Engine.Lineage
import Clearing.Proofs.Engine.Course
import Clearing.Proofs.Engine.Interference
import Clearing.Proofs.Engine.Standing
import Clearing.Proofs.Engine.Conclusion
import Clearing.Proofs.Engine.SettlementOrder
import Clearing.Proofs.Text.Utf8
import Clearing.Proofs.Text.Blank
import Clearing.Proofs.Text.Digits
import Clearing.Proofs.Decimal.Text
import Clearing.Proofs.Csv.RoundTrip
import Clearing.Proofs.Account.Report
import Clearing.Proofs.Time.Calendar
import Clearing.Proofs.Time.Text
import Clearing.Proofs.Json.RoundTrip
import Clearing.Proofs.Message.RoundTrip
import Clearing.Proofs.CommandLine.Report
import Clearing.Proofs.Decimal.Numeral
import Clearing.Proofs.Double.Nearest
import Clearing.Proofs.Double.Shortest
import Clearing.Proofs.Json.Literal
import Clearing.Proofs.Message.Amount
import Clearing.Proofs.Outbox.Feed
import Clearing.Proofs.Account.Halfway
import Clearing.Proofs.CommandLine.Lines
import Clearing.Proofs.Message.Times
