import Clearing.Json.Reader
import Clearing.Message.Fields
import Clearing.Text.Lines

/-!
# Reading messages

A message is a JSON object whose entry `type` says what kind of message it is; the other entries may
stand before or after it. It may also be an array that begins with the kind and goes on with the
fields in order. Each line of a file is read by itself and blank lines are skipped.
-/

namespace Clearing

open Clearing.Json

/-- The kinds of messages. -/
inductive Message.Kind where
  | submit
  | check
  | confirm
  | sweep
  deriving DecidableEq, Repr

namespace Message

namespace Kind

/-- The name of a kind. -/
def name : Kind → String
  | .submit => "submit"
  | .check => "check"
  | .confirm => "confirm"
  | .sweep => "sweep"

/-- Every kind. -/
def all : List Kind := [.submit, .check, .confirm, .sweep]

/-- The kind of a name. -/
def ofName? (s : String) : Option Kind := all.find? (·.name == s)

/-- A kind. -/
def decode : Decoder Kind
  | .string s =>
      match ofName? s with
      | some k => .ok k
      | none => .error (.unknownVariant s (all.map name))
  | v => .error (.invalidType v.description "variant identifier")

end Kind

/-- The entry that says the kind. -/
def kindKey : String := "type"

/-- What a message is made of besides its kind. -/
inductive Content where
  | entries (es : List (String × Value))
  | items (vs : List Value)
  deriving Repr

/-- The fields of a submission as they are found. -/
structure SubmissionDraft where
  requestId : Option String
  amount : Option Amount
  payer : Option AccountId
  payee : Option AccountId
  createdAt : Option (Option Time.Instant)

/-- No field has been found. -/
def SubmissionDraft.empty : SubmissionDraft := ⟨none, none, none, none, none⟩

/-- Take an entry; entries of other names are ignored. -/
def SubmissionDraft.take (d : SubmissionDraft) (entry : String × Value) :
    Except Mismatch SubmissionDraft :=
  match entry.1 with
  | "request_id" =>
      (fill "request_id" d.requestId text entry.2).map fun x => { d with requestId := x }
  | "amount" => (fill "amount" d.amount Amount.decode entry.2).map fun x => { d with amount := x }
  | "payer" => (fill "payer" d.payer text entry.2).map fun x => { d with payer := x }
  | "payee" => (fill "payee" d.payee text entry.2).map fun x => { d with payee := x }
  | "created_at" =>
      (fill "created_at" d.createdAt (nullable Time.Instant.decode) entry.2).map fun x =>
        { d with createdAt := x }
  | _ => .ok d

/-- The submission, once all entries were taken. -/
def SubmissionDraft.finish (d : SubmissionDraft) : Except Mismatch Submission := do
  let requestId ← demand "request_id" d.requestId
  let amount ← demand "amount" d.amount
  let payer ← demand "payer" d.payer
  let payee ← demand "payee" d.payee
  .ok ⟨requestId, amount, payer, payee, d.createdAt.join⟩

/-- The submission of items in order. -/
def submissionOfItems (vs : List Value) : Except Mismatch Submission := do
  let expected := "struct SubmitPayment with 5 elements"
  let (requestId, vs) ← nextField 0 expected text vs
  let (amount, vs) ← nextField 1 expected Amount.decode vs
  let (payer, vs) ← nextField 2 expected text vs
  let (payee, vs) ← nextField 3 expected text vs
  let (createdAt, vs) ← nextDefault none (nullable Time.Instant.decode) vs
  endAfter 5 vs
  .ok ⟨requestId, amount, payer, payee, createdAt⟩

/-- The submission of a content. -/
def submission : Content → Except Mismatch Submission
  | .entries es => (es.foldlM SubmissionDraft.take .empty).bind (·.finish)
  | .items vs => submissionOfItems vs

/-- The fields of the result of a check as they are found. -/
structure ResultDraft where
  requestId : Option String
  occurredAt : Option Time.Instant
  check : Option Check
  failed : Option Bool
  reason : Option (Option String)

/-- No field has been found. -/
def ResultDraft.empty : ResultDraft := ⟨none, none, none, none, none⟩

/-- Take an entry; entries of other names are ignored. -/
def ResultDraft.take (d : ResultDraft) (entry : String × Value) : Except Mismatch ResultDraft :=
  match entry.1 with
  | "request_id" =>
      (fill "request_id" d.requestId text entry.2).map fun x => { d with requestId := x }
  | "occurred_at" =>
      (fill "occurred_at" d.occurredAt Time.Instant.decode entry.2).map fun x =>
        { d with occurredAt := x }
  | "check_type" =>
      (fill "check_type" d.check Check.decode entry.2).map fun x => { d with check := x }
  | "failed" => (fill "failed" d.failed truth entry.2).map fun x => { d with failed := x }
  | "reason" => (fill "reason" d.reason (nullable text) entry.2).map fun x => { d with reason := x }
  | _ => .ok d

/-- The result, once all entries were taken. -/
def ResultDraft.finish (d : ResultDraft) : Except Mismatch CheckResult := do
  let requestId ← demand "request_id" d.requestId
  let occurredAt ← demand "occurred_at" d.occurredAt
  let c ← demand "check_type" d.check
  .ok ⟨requestId, occurredAt, c, d.failed.getD false, d.reason.join⟩

/-- The result of items in order. -/
def resultOfItems (vs : List Value) : Except Mismatch CheckResult := do
  let expected := "struct CheckEvent with 5 elements"
  let (requestId, vs) ← nextField 0 expected text vs
  let (occurredAt, vs) ← nextField 1 expected Time.Instant.decode vs
  let (c, vs) ← nextField 2 expected Check.decode vs
  let (failed, vs) ← nextDefault false truth vs
  let (reason, vs) ← nextDefault none (nullable text) vs
  endAfter 5 vs
  .ok ⟨requestId, occurredAt, c, failed, reason⟩

/-- The result of a content. -/
def checkResult : Content → Except Mismatch CheckResult
  | .entries es => (es.foldlM ResultDraft.take .empty).bind (·.finish)
  | .items vs => resultOfItems vs

/-- The time of a decision; it is read before the decision. -/
def decisionTime (es : List (String × Value)) : Except Mismatch (Option Time.Instant) :=
  let take (slot : Option (Option Time.Instant)) (entry : String × Value) :=
    if entry.1 = "at" then fill "at" slot (nullable Time.Instant.decode) entry.2 else .ok slot
  (es.foldlM take none).map Option.join

/-- The fields of a decision as they are found. -/
structure DecisionDraft where
  requestId : Option String
  confirmed : Option Bool

/-- Take an entry; entries of other names are ignored. -/
def DecisionDraft.take (d : DecisionDraft) (entry : String × Value) :
    Except Mismatch DecisionDraft :=
  match entry.1 with
  | "request_id" =>
      (fill "request_id" d.requestId text entry.2).map fun x => { d with requestId := x }
  | "confirmed" =>
      (fill "confirmed" d.confirmed truth entry.2).map fun x => { d with confirmed := x }
  | _ => .ok d

/-- The decision, once all entries were taken. -/
def DecisionDraft.finish (d : DecisionDraft) : Except Mismatch Decision := do
  let requestId ← demand "request_id" d.requestId
  let confirmed ← demand "confirmed" d.confirmed
  .ok ⟨requestId, confirmed⟩

/-- The confirmation of a content, which has to have names. -/
def confirmation : Content → Except Mismatch Message
  | .entries es => do
      let time ← decisionTime es
      let draft ← es.foldlM DecisionDraft.take ⟨none, none⟩
      let decision ← draft.finish
      .ok (.confirm decision time)
  | .items vs =>
      .error (.invalidType (Value.array vs).description "struct variant InboxMessage::Confirm")

/-- The time of a sweep. -/
def sweepTime : Content → Except Mismatch Time.Instant
  | .entries es => do
      let take (slot : Option Time.Instant) (entry : String × Value) :=
        if entry.1 = "at" then fill "at" slot Time.Instant.decode entry.2 else .ok slot
      demand "at" (← es.foldlM take none)
  | .items vs => do
      let (time, vs) ←
        nextField 0 "struct variant InboxMessage::Sweep with 1 element" Time.Instant.decode vs
      endAfter 1 vs
      .ok time

/-- The message of a kind and a content. -/
def ofContent (kind : Kind) (content : Content) : Except Mismatch Message :=
  match kind with
  | .submit => (submission content).map .submit
  | .check => (checkResult content).map .check
  | .confirm => confirmation content
  | .sweep => (sweepTime content).map .sweep

/-- Read the kind where it stands. -/
def readKind (cs : List Char) : Except Json.Fault (Kind × List Char) := do
  let (v, cs) ← opened cs
  .ok (← fits (Kind.decode v), cs)

/-- How deep the content of a message may be nested. -/
def contentDepth : Nat := maxDepth - 1

/-- A kind, if it was met, and the other entries. -/
structure Tagged where
  kind : Option Kind
  entries : List (String × Value)

/-- Read the entries of an object up to its end. The kind is read as soon as it is met. -/
def readEntries : (fuel : Nat) → (first : Bool) → (kind : Option Kind) → List Char →
    Except Json.Fault (Tagged × List Char)
  | 0, _, _, _ => .error .unfinished
  | fuel + 1, first, kind, cs => do
      let (key?, cs) ← nextKey first cs
      match key? with
      | none => .ok (⟨kind, []⟩, cs)
      | some key =>
          if key = kindKey then
            match kind with
            | some _ => .error (.mismatch (.duplicateField kindKey))
            | none =>
                let (k, cs) ← readKind cs
                readEntries fuel false (some k) cs
          else
            let (v, cs) ← value contentDepth cs
            let (tagged, cs) ← readEntries fuel false kind cs
            .ok ({ tagged with entries := (key, v) :: tagged.entries }, cs)

/-- Read an object after its brace. -/
def readObject (cs : List Char) : Except Json.Fault ((Kind × Content) × List Char) := do
  let (tagged, cs) ← readEntries (cs.length + 1) true none cs
  let kind ← fits (demand kindKey tagged.kind)
  .ok ((kind, .entries tagged.entries), cs)

/-- Read an array after its bracket. -/
def readArray (cs : List Char) : Except Json.Fault ((Kind × Content) × List Char) := do
  let (more, cs) ← nextItem true cs
  if more then
    let (kind, cs) ← readKind cs
    let (vs, cs) ← items (value contentDepth) (cs.length + 1) false cs
    .ok ((kind, .items vs), cs)
  else .error (.mismatch (.missingField kindKey))

/-- Read kind and content of a message. -/
def readContent (cs : List Char) : Except Json.Fault ((Kind × Content) × List Char) :=
  match skipSpace cs with
  | '{' :: rest => readObject rest
  | '[' :: rest => readArray rest
  | cs => do
      let (v, _) ← value 0 cs
      .error (.mismatch (.invalidType v.description "internally tagged enum InboxMessage"))

/-- Read a message, after which nothing but space may follow. -/
def ofChars (cs : List Char) : Except Json.Fault Message := do
  let ((kind, content), rest) ← readContent cs
  let m ← fits (ofContent kind content)
  if atEnd rest then .ok m else .error .malformed

/-- Why a line holds no message. -/
inductive Unreadable where
  /-- The line is no text. -/
  | notText
  /-- The line is no message. -/
  | json (cause : Json.Fault)
  deriving DecidableEq, Repr

/-- Read a line; a blank one is skipped. -/
def ofLine? (line : List UInt8) : Option (Except Unreadable Message) :=
  match Text.decodeUtf8? line with
  | none => some (.error .notText)
  | some s =>
      if Text.blank s then none
      else
        match ofChars s.toList with
        | .ok m => some (.ok m)
        | .error cause => some (.error (.json cause))

/-- Read every line. -/
def readLines (bytes : List UInt8) : List (Except Unreadable Message) :=
  (Text.lines bytes).filterMap ofLine?

end Message

end Clearing
