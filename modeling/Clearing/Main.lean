import Clearing.CommandLine.Replay
import Std.Time.DateTime.Timestamp

/-!
# The command line

The outer layer of a run: it gathers the environment, the clock and the files that the arguments
name, and writes down how the run ends.
-/

namespace Clearing.CommandLine

/-- The names of the variables that settings are read from. -/
def variableNames : List String :=
  ["EXPIRE_PAYMENT_TTL_SECONDS", "SWEEP_INTERVAL_MS", "SETTLEMENT_QUEUE_CAPACITY",
    "FEED_CAPACITY", "INBOX_MAX_ATTEMPTS", "INBOX_BACKOFF_MS", "INBOX_MAX_IN_FLIGHT"]

/-- The variables that are set. -/
def readVariables : IO (List (String × String)) :=
  variableNames.filterMapM fun name => do
    return (← IO.getEnv name).map (name, ·)

/-- The files that a request names. -/
def Request.paths : Request → List String
  | .run o => o.accounts.toList ++ [o.input]
  | .help | .version | .wrong => []

/-- The bytes of the files that can be read. -/
def readFiles (paths : List String) : IO (List (String × List UInt8)) :=
  paths.filterMapM fun (path : String) => do
    try
      return some (path, (← IO.FS.readBinFile path).toList)
    catch _ => return none

/-- The instant of a number of nanoseconds since the beginning of 1970. -/
def instantOfNanos (n : Int) : Time.Instant :=
  let seconds := n / Time.nanosPerSecond
  (Time.Instant.ofParts? (seconds / Time.secondsPerDay) (seconds % Time.secondsPerDay).toNat
    (n % Time.nanosPerSecond).toNat).getD Time.Instant.epoch

/-- The present instant. -/
def readClock : IO Time.Instant := do
  let stamp ← Std.Time.Timestamp.now
  return instantOfNanos stamp.toNanosecondsSinceUnixEpoch.val

end Clearing.CommandLine

/-- Carry out the run that the arguments ask for. -/
def main (args : List String) : IO UInt32 := do
  let settings ← Clearing.CommandLine.readVariables
  let files ← Clearing.CommandLine.readFiles (Clearing.CommandLine.Request.ofArguments args).paths
  let now ← Clearing.CommandLine.readClock
  let exit := Clearing.CommandLine.answer args ⟨(settings.lookup ·), (files.lookup ·), now⟩
  IO.print exit.output
  return exit.code.toUInt32
