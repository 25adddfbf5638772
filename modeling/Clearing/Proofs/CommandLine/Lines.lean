import Clearing.CommandLine.Replay
import Clearing.Proofs.Message.Lines

/-!
# Runs over lines that cannot be read

A run delivers the messages of its file and skips every other line, so it ends as it would without
the lines that cannot be read.
-/

namespace Clearing.CommandLine

open Clearing.Text

/-- A run ends as it would without the lines that cannot be read. -/
theorem replay_withoutFaults (settings : Settings) (store : Store) (bytes : List UInt8)
    (now : Time.Instant) :
    replay settings store (Message.withoutFaults bytes) now = replay settings store bytes now := by
  have same : (Message.readLines (Message.withoutFaults bytes)).filterMap Except.toOption =
      (Message.readLines bytes).filterMap Except.toOption := Message.received_withoutFaults bytes
  rw [replay, replay, same]

/-- Whatever the bytes: those before and after the end of a line are read independently. A line
gives nothing if it is blank and one result otherwise, and a file gives the results of its lines in
their order. A run ends with the same accounts, payments and outbox as it would without the lines
that cannot be read. -/
theorem lines_are_independent :
    (∀ a b, WholeLines a →
      Message.readLines (a ++ b) = Message.readLines a ++ Message.readLines b) ∧
    (∀ line, IsLine line → (BlankBytes line → Message.readLines line = []) ∧
      (¬ BlankBytes line → ∃ result, Message.readLines line = [result])) ∧
    (∀ bytes, (pieces bytes).flatten = bytes ∧ (∀ line ∈ pieces bytes, IsLine line) ∧
      Message.readLines bytes = (pieces bytes).flatMap Message.readLines) ∧
    ∀ settings store bytes now,
      replay settings store (Message.withoutFaults bytes) now =
        replay settings store bytes now := by
  refine ⟨fun a b whole => Message.readLines_append whole b, fun line single => ?_, fun bytes => ?_,
    replay_withoutFaults⟩
  · exact ⟨Message.readLines_of_blank single, Message.exists_readLines single⟩
  · exact ⟨flatten_pieces bytes, fun line h => isLine_of_mem_pieces h,
      Message.readLines_eq_flatMap bytes⟩

end Clearing.CommandLine
