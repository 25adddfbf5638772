import Clearing.Message.Writer
import Clearing.Proofs.Decimal.Text
import Clearing.Proofs.Json.RoundTrip
import Clearing.Proofs.Message.Times
import Clearing.Proofs.Text.Utf8

/-!
# Messages read back

Every field of a message is read from what it was written as, so the message is made again of its
kind and its fields. Only a leap second within a minute is not, which has no text: it is read as the
second that comes next. A line holds no control and ends with a brace. So the lines of a file are
the lines that were written, one for each message.
-/

namespace Clearing.Message

open Clearing.Json Clearing.Text

section Fields

variable {α : Type} {decode : Decoder α} {v : Value} {a : α}

theorem fill_none (name : String) (h : decode v = .ok a) :
    fill name none decode v = .ok (some a) := by
  rw [fill, h]
  rfl

/-- A text is read from its atom. -/
theorem text_textAtom (s : String) : text (textAtom s).value = .ok s := by
  rw [textAtom, Atom.value, text, String.ofList_toList]

/-- What an instant tells is read from its atom. -/
theorem decode_timeAtom (t : Time.Instant) :
    Time.Instant.decode (timeAtom t).value = .ok t.told := by
  have hread : Time.Instant.ofText (String.ofList t.chars) = .ok t.told := t.ofText_text
  rw [timeAtom, Atom.value, Time.Instant.decode, hread]

/-- An amount is read from its text. -/
theorem decode_amount (x : Amount) : Amount.decode (textAtom x.text).value = .ok x := by
  have hread : Decimal.decode (textAtom x.text).value = .ok x.value := by
    have hchars : Decimal.ofChars x.text.toList = .ok x.value := x.value.ofText_text
    rw [textAtom, Atom.value, Decimal.decode, Decimal.ofCharsIn, String.ofList_toList, hchars]
  rw [Amount.decode, hread]
  dsimp only
  rw [Amount.ofDecimal_value]

/-- A check is read from its name. -/
theorem decode_check (c : Check) : Check.decode (textAtom c.name).value = .ok c := by
  rw [textAtom, Atom.value, Check.decode, Check.ofName, String.ofList_toList, Check.ofName?_name]

/-- A value that may be missing is read from its atom as it is read when it is there. -/
theorem nullable_optionAtom {write : α → Atom} {f : α → α}
    (reads : ∀ a, decode (write a).value = .ok (f a)) (given : ∀ a, (write a).value ≠ .null)
    (x : Option α) : nullable decode (optionAtom write x).value = .ok (x.map f) := by
  cases x with
  | none => rfl
  | some a =>
    change nullable decode (write a).value = .ok (some (f a))
    unfold nullable
    split
    · next null => exact absurd null (given a)
    · rw [reads]
      rfl

end Fields

/-- What is read from an entry. -/
def entryValue (e : String × Atom) : String × Value := (e.1, e.2.value)

/-- A submission is made of its fields. -/
theorem submission_fields (s : Submission) :
    submission (.entries ((submit s).fields.map entryValue)) =
      .ok { s with createdAt := s.createdAt.map Time.Instant.told } := by
  have hid := fill_none "request_id" (text_textAtom s.requestId)
  have hamount := fill_none "amount" (decode_amount s.amount)
  have hpayer := fill_none "payer" (text_textAtom s.payer)
  have hpayee := fill_none "payee" (text_textAtom s.payee)
  have hcreated := fill_none "created_at"
    (nullable_optionAtom decode_timeAtom (fun _ => nofun) s.createdAt)
  simp only [fields, entryValue, List.map_cons, List.map_nil, submission, List.foldlM_cons,
    List.foldlM_nil, SubmissionDraft.take, SubmissionDraft.empty, SubmissionDraft.finish, demand,
    hid, hamount, hpayer, hpayee, hcreated, Except.map, bind, Except.bind, pure, Except.pure,
    Option.join_some]

/-- The result of a check is made of its fields. -/
theorem checkResult_fields (r : CheckResult) :
    checkResult (.entries ((check r).fields.map entryValue)) =
      .ok { r with occurredAt := r.occurredAt.told } := by
  have hid := fill_none "request_id" (text_textAtom r.requestId)
  have hoccurred := fill_none "occurred_at" (decode_timeAtom r.occurredAt)
  have hcheck := fill_none "check_type" (decode_check r.check)
  have htruth : truth (Atom.bool r.failed).value = .ok r.failed := rfl
  have hfailed := fill_none "failed" htruth
  have hreason := fill_none "reason"
    (nullable_optionAtom (f := id) text_textAtom (fun _ => nofun) r.reason)
  rw [Option.map_id, id_eq] at hreason
  simp only [fields, entryValue, List.map_cons, List.map_nil, checkResult, List.foldlM_cons,
    List.foldlM_nil, ResultDraft.take, ResultDraft.empty, ResultDraft.finish, demand, hid,
    hoccurred, hcheck, hfailed, hreason, Except.map, bind, Except.bind, pure, Except.pure,
    Option.join_some, Option.getD_some]

/-- The time of a decision is read past the fields of the decision. -/
theorem decisionTime_fields (d : Decision) (time : Option Time.Instant) :
    decisionTime ((confirm d time).fields.map entryValue) = .ok (time.map Time.Instant.told) := by
  have htime := fill_none "at" (nullable_optionAtom decode_timeAtom (fun _ => nofun) time)
  simp only [fields, entryValue, List.map_cons, List.map_nil, decisionTime, List.foldlM_cons,
    List.foldlM_nil, String.reduceEq, if_false, if_true, htime, Except.map, bind, Except.bind, pure,
    Except.pure, Option.join_some]

/-- A confirmation is made of its fields. -/
theorem confirmation_fields (d : Decision) (time : Option Time.Instant) :
    confirmation (.entries ((confirm d time).fields.map entryValue)) =
      .ok (confirm d time).told := by
  have hid := fill_none "request_id" (text_textAtom d.requestId)
  have htruth : truth (Atom.bool d.confirmed).value = .ok d.confirmed := rfl
  have hconfirmed := fill_none "confirmed" htruth
  rw [confirmation, decisionTime_fields]
  simp only [fields, entryValue, List.map_cons, List.map_nil, List.foldlM_cons, List.foldlM_nil,
    DecisionDraft.take, DecisionDraft.finish, demand, hid, hconfirmed, Except.map, bind,
    Except.bind, pure, Except.pure]
  rfl

/-- A sweep is made of its only field. -/
theorem sweepTime_fields (time : Time.Instant) :
    sweepTime (.entries ((sweep time).fields.map entryValue)) = .ok time.told := by
  have htime := fill_none "at" (decode_timeAtom time)
  simp only [fields, entryValue, List.map_cons, List.map_nil, sweepTime, List.foldlM_cons,
    List.foldlM_nil, demand, if_true, htime, bind, Except.bind, pure, Except.pure]

/-- What a message tells is made of its kind and its fields. -/
theorem ofContent_fields (m : Message) :
    ofContent m.kind (.entries (m.fields.map entryValue)) = .ok m.told := by
  cases m with
  | submit s =>
    rw [kind, ofContent, submission_fields]
    rfl
  | check r =>
    rw [kind, ofContent, checkResult_fields]
    rfl
  | confirm d time => exact confirmation_fields d time
  | sweep time =>
    rw [kind, ofContent, sweepTime_fields]
    rfl

/-- A kind is read from its name. -/
theorem decode_kind (k : Kind) : Kind.decode (textAtom k.name).value = .ok k := by
  have hname : Kind.ofName? k.name = some k := by cases k <;> decide
  rw [textAtom, Atom.value, Kind.decode, String.ofList_toList, hname]

/-- No field has the key of the kind. -/
theorem key_ne_kindKey (m : Message) : ∀ e ∈ m.fields, e.1 ≠ kindKey := by
  have hkeys : kindKey ∉ m.fields.map Prod.fst := by
    cases m <;> simp [fields, kindKey]
  intro e he same
  exact hkeys (List.mem_map.mpr ⟨e, he, same⟩)

section Entries

variable {es : List (String × Atom)} {k : Kind} {fuel : Nat}

/-- The entries behind the kind are read up to the end of the object. -/
theorem readEntries_more (others : ∀ e ∈ es, e.1 ≠ kindKey) (enough : es.length < fuel)
    (rest : List Char) : readEntries fuel false (some k) (moreEntries es ++ '}' :: rest) =
      .ok (⟨some k, es.map entryValue⟩, rest) := by
  induction es generalizing fuel with
  | nil =>
    obtain ⟨fuel, rfl⟩ := Nat.exists_eq_add_one_of_ne_zero (Nat.ne_zero_of_lt enough)
    rfl
  | cons e es ih =>
    obtain ⟨fuel, rfl⟩ := Nat.exists_eq_add_one_of_ne_zero (Nat.ne_zero_of_lt enough)
    rw [List.length_cons] at enough
    have hrest := ih (fun x hx => others x (List.mem_cons_of_mem _ hx))
      (show es.length < fuel by omega)
    rw [moreEntries, List.flatMap_cons, List.append_assoc, readEntries, nextKey_more]
    dsimp only [bind, Except.bind]
    rw [if_neg (others e List.mem_cons_self), Atom.value_chars]
    dsimp only
    rw [← moreEntries, hrest]
    rfl

/-- An object whose first entry is the kind is read with its kind and its other entries. -/
theorem readObject_entries (others : ∀ e ∈ es, e.1 ≠ kindKey) (rest : List Char) :
    readObject (entriesText ((kindKey, textAtom k.name) :: es) ++ '}' :: rest) =
      .ok ((k, .entries (es.map entryValue)), rest) := by
  have hlength : es.length ≤ (moreEntries es).length :=
    length_le_length_flatMap (fun _ => List.cons_ne_nil _ _) es
  rw [entriesText_cons, List.append_assoc]
  obtain ⟨fuel, hfuel⟩ : ∃ fuel, (entryText (kindKey, textAtom k.name) ++
      (moreEntries es ++ '}' :: rest)).length = fuel := ⟨_, rfl⟩
  have henough : es.length < fuel := by
    rw [← hfuel, List.length_append, List.length_append, List.length_cons]
    omega
  rw [readObject, hfuel, readEntries, nextKey_first]
  dsimp only [bind, Except.bind]
  rw [if_pos rfl]
  rw [readKind, Atom.opened_chars]
  dsimp only [bind, Except.bind]
  rw [decode_kind]
  dsimp only [fits]
  rw [readEntries_more others henough]
  rfl

end Entries

/-- What a message tells is read from its line. -/
theorem ofChars_lineText (m : Message) : ofChars m.lineText = .ok m.told := by
  have hread : readContent m.lineText = .ok ((m.kind, .entries (m.fields.map entryValue)), []) :=
    readObject_entries m.key_ne_kindKey []
  rw [ofChars, hread]
  dsimp only [bind, Except.bind]
  rw [ofContent_fields]
  rfl

/-- A line that holds a message is read as what the message tells. -/
theorem ofLine?_lineText (m : Message) : ofLine? (charBytes m.lineText) = some (.ok m.told) := by
  have hblank : blank (String.ofList m.lineText) = false := by
    rw [blank, String.toList_ofList]
    rfl
  rw [ofLine?, decodeUtf8?_charBytes]
  dsimp only
  rw [hblank, if_neg Bool.false_ne_true, String.toList_ofList, ofChars_lineText]

/-- A message is written on one line. -/
theorem lineFeed_not_mem (m : Message) : lineFeed ∉ charBytes m.lineText := by
  intro mem
  obtain ⟨c, hc, hbyte⟩ := List.mem_flatMap.mp mem
  have hvalue := toNat_eq_of_mem_utf8EncodeChar hbyte (by decide)
  have hprinted : 0x20 ≤ c.toNat := printed_objectText m.entries c hc
  have hfeed : lineFeed.toNat = 10 := rfl
  omega

/-- The line of a message ends with a brace. -/
theorem getLast?_lineText (m : Message) :
    (charBytes m.lineText).getLast? ≠ some carriageReturn := by
  have hbytes : charBytes m.lineText = charBytes ('{' :: entriesText m.entries) ++ [125] := by
    rw [lineText, objectText, charBytes_append]
    rfl
  rw [hbytes, List.getLast?_concat]
  decide

/-- The lines of messages are read as what the messages tell, and what follows them is read
behind. -/
theorem readLines_linesText_append (ms : List Message) (rest : List UInt8) :
    readLines (charBytes (linesText ms) ++ rest) = ms.map (.ok ∘ told) ++ readLines rest := by
  induction ms with
  | nil => rfl
  | cons m ms ih =>
    have hbytes : charBytes (linesText (m :: ms)) ++ rest =
        charBytes m.lineText ++ lineFeed :: (charBytes (linesText ms) ++ rest) := by
      rw [linesText, List.flatMap_cons, charBytes_append, charBytes_append, List.append_assoc,
        List.append_assoc]
      rfl
    rw [hbytes, readLines, lines_cons m.lineFeed_not_mem m.getLast?_lineText, List.filterMap_cons,
      ofLine?_lineText]
    dsimp only
    rw [← readLines, ih]
    rfl

/-- The lines of messages are read as what the messages tell. -/
theorem readLines_linesText (ms : List Message) :
    readLines (encodeUtf8 (String.ofList (linesText ms))) = ms.map (.ok ∘ told) := by
  have hread := readLines_linesText_append ms []
  rw [List.append_nil] at hread
  rw [encodeUtf8_ofList, hread]
  exact List.append_nil _

/-- What a message tells is read from the bytes of its line. -/
theorem readLines_lineText (m : Message) : readLines (charBytes m.lineText) = [.ok m.told] := by
  have hsome : charBytes m.lineText ≠ [] := by
    rw [lineText, objectText, charBytes_append]
    exact List.append_ne_nil_of_right_ne_nil _ (List.cons_ne_nil _ _)
  rw [readLines, lines_singleton m.lineFeed_not_mem hsome, List.filterMap_cons, ofLine?_lineText]
  rfl

/-- Messages are what they tell if all their leap seconds end minutes. -/
theorem map_told_eq_map_iff {ms : List Message} :
    ms.map (.ok ∘ told) = ms.map (Except.ok (ε := Unreadable)) ↔ ∀ m ∈ ms, m.OnMinute := by
  rw [List.map_inj_left]
  refine forall₂_congr fun m _ => ?_
  rw [← told_eq_self_iff, Function.comp_apply, Except.ok.injEq]

/-- A message that is written on one line is read as the only one of that line, and messages that
are written one on each line are read as those messages in their order, whether or not the last line
has an end, if their leap seconds end minutes, and only then. In any case the line of a message is
read as what the message tells. A message that is read from a line has no other leap seconds, so it
is read again. -/
theorem messages_survive_the_wire :
    (∀ m : Message, readLines (encodeUtf8 (String.ofList m.lineText)) = [.ok m] ↔ m.OnMinute) ∧
      (∀ ms : List Message,
        readLines (encodeUtf8 (String.ofList (linesText ms))) = ms.map .ok ↔
          ∀ m ∈ ms, m.OnMinute) ∧
      (∀ (ms : List Message) (last : Message),
        readLines (encodeUtf8 (String.ofList (linesText ms ++ last.lineText))) =
            (ms ++ [last]).map .ok ↔
          ∀ m ∈ ms ++ [last], m.OnMinute) ∧
      (∀ m : Message, readLines (encodeUtf8 (String.ofList m.lineText)) = [.ok m.told]) ∧
      ∀ (bytes : List UInt8) (m : Message), .ok m ∈ readLines bytes → m.OnMinute := by
  have hline (m : Message) : readLines (encodeUtf8 (String.ofList m.lineText)) = [.ok m.told] := by
    rw [encodeUtf8_ofList]
    exact readLines_lineText m
  refine ⟨fun m => ?_, fun ms => ?_, fun ms last => ?_, hline, fun _ _ => onMinute_of_mem_readLines⟩
  · rw [hline, List.cons.injEq, Except.ok.injEq, told_eq_self_iff]
    exact and_iff_left rfl
  · rw [readLines_linesText, map_told_eq_map_iff]
  · have hread : readLines (encodeUtf8 (String.ofList (linesText ms ++ last.lineText))) =
        (ms ++ [last]).map (.ok ∘ told) := by
      rw [encodeUtf8_ofList, charBytes_append, readLines_linesText_append, readLines_lineText,
        List.map_append]
      rfl
    rw [hread, map_told_eq_map_iff]

/-- The rent of seven units, submitted at an instant. -/
def rentAt (time : Time.Instant) : Submission :=
  ⟨"rent", ⟨⟨7, 0, by decide, Decimal.zero.scale_le⟩, by decide⟩, "tenant", "landlord", some time⟩

/-- Half a second into a leap second behind second 30 of a minute. -/
def withinMinute : Time.Instant := (Time.Instant.ofParts? 20454 30 1500000000).get rfl

/-- Half a second into the next second. -/
def nextSecond : Time.Instant := (Time.Instant.ofParts? 20454 31 500000000).get rfl

/-- A minute after the second that comes next. -/
def minuteLater : Time.Instant := (Time.Instant.ofParts? 20454 91 0).get rfl

/-- The rent that is submitted in a leap second within a minute is not read as that, but as rent
that is submitted in the next second. A minute after that, 60 whole seconds have passed since the
one and 59 since the other. -/
theorem leap_second_within_minute_lost :
    readLines (encodeUtf8 (String.ofList (submit (rentAt withinMinute)).lineText)) ≠
        [.ok (submit (rentAt withinMinute))] ∧
      readLines (encodeUtf8 (String.ofList (submit (rentAt withinMinute)).lineText)) =
        [.ok (submit (rentAt nextSecond))] ∧
      minuteLater.secondsSince withinMinute = 60 ∧ minuteLater.secondsSince nextSecond = 59 := by
  have htold : (submit (rentAt withinMinute)).told = submit (rentAt nextSecond) := by decide
  have hread : readLines (encodeUtf8 (String.ofList (submit (rentAt withinMinute)).lineText)) =
      [.ok (submit (rentAt nextSecond))] := by
    rw [encodeUtf8_ofList, readLines_lineText, htold]
  refine ⟨?_, hread, by decide, by decide⟩
  rw [hread]
  decide

end Clearing.Message
