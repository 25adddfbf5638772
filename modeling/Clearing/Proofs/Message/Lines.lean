import Clearing.Message.Writer
import Clearing.Proofs.Text.Lines

/-!
# Messages line by line

What a line gives is decided by that line. A blank one gives nothing and every other one a message
or a fault, so the results of a file are those of its lines in their order, and the lines that
cannot be read can be left out without losing a message.
-/

namespace Clearing.Message

open Clearing.Text

variable {line : List UInt8}

/-- Only blank lines are skipped. -/
theorem ofLine?_eq_none_iff : ofLine? line = none ↔ BlankBytes line := by
  unfold ofLine?
  cases hdecode : decodeUtf8? line with
  | none =>
    refine iff_of_false nofun ?_
    rintro ⟨cs, rfl, -⟩
    exact absurd (hdecode.symm.trans (decodeUtf8?_charBytes cs)) nofun
  | some s =>
    obtain rfl := decodeUtf8?_eq_some_iff.mp hdecode
    have hblank : blank s = true ↔ BlankBytes (encodeUtf8 s) := by
      rw [blank, List.all_eq_true]
      constructor
      · exact fun h => ⟨s.toList, encodeUtf8_eq s, h⟩
      · rintro ⟨cs, hbytes, h⟩
        have hsame : s = String.ofList cs := Option.some.inj
          (hdecode.symm.trans (hbytes ▸ decodeUtf8?_charBytes cs))
        rwa [hsame, String.toList_ofList]
    dsimp only
    rw [← hblank]
    split
    · next h => exact iff_of_true rfl h
    · next h =>
      refine iff_of_false ?_ h
      split <;> exact nofun

/-- Files are read one after the other, when the first ends with a line. -/
theorem readLines_append {a : List UInt8} (whole : WholeLines a) (b : List UInt8) :
    readLines (a ++ b) = readLines a ++ readLines b := by
  rw [readLines, lines_append whole, List.filterMap_append]
  rfl

theorem readLines_of_isLine (h : IsLine line) :
    readLines line = (ofLine? (content line)).toList := by
  rw [readLines, lines_of_isLine h, List.filterMap_cons, List.filterMap_nil]
  cases ofLine? (content line) <;> rfl

/-- A blank line gives nothing. -/
theorem readLines_of_blank (h : IsLine line) (blank : BlankBytes line) : readLines line = [] := by
  rw [readLines_of_isLine h, ofLine?_eq_none_iff.mpr (blankBytes_content_iff.mpr blank)]
  rfl

/-- A line that is not blank gives one result. -/
theorem exists_readLines (h : IsLine line) (filled : ¬ BlankBytes line) :
    ∃ result, readLines line = [result] := by
  obtain ⟨result, hresult⟩ := Option.ne_none_iff_exists'.mp fun skipped =>
    filled (blankBytes_content_iff.mp (ofLine?_eq_none_iff.mp skipped))
  exact ⟨result, by rw [readLines_of_isLine h, hresult]; rfl⟩

/-- Lines of which all but the last have an end are read one by one. -/
theorem readLines_flatten {ls : List (List UInt8)}
    (ended : ls.Pairwise fun earlier _ => WholeLines earlier) :
    readLines ls.flatten = ls.flatMap readLines := by
  induction ls with
  | nil => rfl
  | cons line ls ih =>
    obtain ⟨hline, hrest⟩ := List.pairwise_cons.mp ended
    rw [List.flatten_cons, List.flatMap_cons, ← ih hrest]
    cases ls with
    | nil => rw [List.flatten_nil, List.append_nil]; exact (List.append_nil _).symm
    | cons next ls => exact readLines_append (hline next List.mem_cons_self) _

/-- A file gives what its lines give. -/
theorem readLines_eq_flatMap (bytes : List UInt8) :
    readLines bytes = (pieces bytes).flatMap readLines := by
  rw [← readLines_flatten (pairwise_pieces bytes), flatten_pieces]

/-- The messages among results. -/
def received (results : List (Except Unreadable Message)) : List Message :=
  results.filterMap Except.toOption

theorem received_append (first second : List (Except Unreadable Message)) :
    received (first ++ second) = received first ++ received second := List.filterMap_append

/-- Whether a line gives no fault. -/
def faultless (line : List UInt8) : Bool := (readLines line).all Except.isOk

/-- The bytes of a file without the lines that cannot be read. -/
def withoutFaults (bytes : List UInt8) : List UInt8 := ((pieces bytes).filter faultless).flatten

/-- A line that cannot be read holds no message. -/
theorem received_of_not_faultless (h : IsLine line) (fault : ¬ faultless line = true) :
    received (readLines line) = [] := by
  by_cases blank : BlankBytes line
  · rw [readLines_of_blank h blank]
    rfl
  · obtain ⟨result, hresult⟩ := exists_readLines h blank
    rw [faultless, hresult] at fault
    rw [hresult]
    cases result with
    | ok m => exact absurd rfl fault
    | error cause => rfl

/-- Lines that cannot be read can be left out among single lines. -/
theorem received_flatMap_filter {ls : List (List UInt8)} (single : ∀ line ∈ ls, IsLine line) :
    received ((ls.filter faultless).flatMap readLines) = received (ls.flatMap readLines) := by
  induction ls with
  | nil => rfl
  | cons line ls ih =>
    have hrest := ih fun other hm => single other (List.mem_cons_of_mem _ hm)
    by_cases fine : faultless line = true
    · rw [List.filter_cons_of_pos fine, List.flatMap_cons, List.flatMap_cons, received_append,
        received_append, hrest]
    · have hnone := received_of_not_faultless (single line List.mem_cons_self) fine
      rw [List.filter_cons_of_neg fine, List.flatMap_cons, received_append, hnone, hrest,
        List.nil_append]

/-- No message is lost with the lines that cannot be read. -/
theorem received_withoutFaults (bytes : List UInt8) :
    received (readLines (withoutFaults bytes)) = received (readLines bytes) := by
  have ended := (pairwise_pieces bytes).filter faultless
  rw [withoutFaults, readLines_flatten ended, readLines_eq_flatMap bytes]
  exact received_flatMap_filter fun line h => isLine_of_mem_pieces h

-- Of a byte that begins no text, a blank and a message, each on its line, the first is left out.
example :
    withoutFaults
        (0xFF :: lineFeed :: 0x20 :: lineFeed :: charBytes (lineText (.sweep .epoch))) =
      0x20 :: lineFeed :: charBytes (lineText (.sweep .epoch)) := by
  decide +kernel

end Clearing.Message
