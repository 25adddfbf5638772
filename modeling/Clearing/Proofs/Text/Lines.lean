import Clearing.Proofs.Text.Utf8
import Clearing.Text.Blank
import Mathlib.Data.List.SplitBy

/-!
# Lines with their ends

A byte sequence falls into lines that keep their ends, and gives those bytes when they are put
together again. Lines are cut in what goes before a line feed and in what follows it alike. Whether
a line is blank does not depend on its end, since the bytes of a line end are blank characters by
themselves.
-/

namespace Clearing.Text

variable {bytes line : List UInt8}

/-- Whether a byte sequence is made of lines that have an end. -/
def WholeLines (bytes : List UInt8) : Prop := bytes = [] ∨ bytes.getLast? = some lineFeed

/-- Whether a byte sequence is a single line, with or without an end. -/
structure IsLine (line : List UInt8) : Prop where
  nonempty : line ≠ []
  unbroken : lineFeed ∉ line.dropLast

/-- The lines of a byte sequence, with their ends. -/
def pieces (bytes : List UInt8) : List (List UInt8) := bytes.splitBy fun b _ => b ≠ lineFeed

/-- The lines with their ends are the bytes again. -/
@[simp] theorem flatten_pieces (bytes : List UInt8) : (pieces bytes).flatten = bytes :=
  List.flatten_splitBy _ _

theorem isLine_of_mem_pieces (h : line ∈ pieces bytes) : IsLine line := by
  refine ⟨List.ne_nil_of_mem_splitBy h, fun mem => ?_⟩
  obtain ⟨k, hk, hfeed⟩ := List.mem_iff_getElem.mp mem
  have hlast : k + 1 < line.length := by
    rw [List.length_dropLast] at hk
    omega
  have hnext := List.isChain_iff_getElem.mp (List.isChain_of_mem_splitBy h) k hlast
  rw [List.getElem_dropLast] at hfeed
  exact of_decide_eq_true hnext hfeed

/-- A line that others follow has an end. -/
theorem pairwise_pieces (bytes : List UInt8) :
    (pieces bytes).Pairwise fun earlier _ => WholeLines earlier := by
  let ends : List UInt8 → List UInt8 → Prop := fun earlier _ => WholeLines earlier
  have htrans : Trans ends ends ends := ⟨fun h _ => h⟩
  refine List.isChain_iff_pairwise.mp ?_
  refine (List.isChain_getLast_head_splitBy _ bytes).imp fun earlier later hends => ?_
  obtain ⟨hearlier, hlater, hfeed⟩ := hends
  have hlast : earlier.getLast hearlier = lineFeed :=
    Decidable.not_not.mp (of_decide_eq_false hfeed)
  exact .inr (by rw [List.getLast?_eq_some_getLast hearlier, hlast])

/-- Lines are cut alike before and after a line end. -/
theorem lines_append {a : List UInt8} (whole : WholeLines a) (b : List UInt8) :
    lines (a ++ b) = lines a ++ lines b := by
  rcases whole with rfl | hlast
  · rfl
  · obtain ⟨before, rfl⟩ := List.getLast?_eq_some_iff.mp hlast
    rw [List.append_assoc, List.singleton_append]
    exact linesFrom_append_lineFeed [] before b

/-- A line without its end. -/
def content (line : List UInt8) : List UInt8 :=
  if line.getLast? = some lineFeed then chomp line.dropLast else line

/-- A single line is cut into itself. -/
theorem lines_of_isLine (h : IsLine line) : lines line = [content line] := by
  by_cases ended : line.getLast? = some lineFeed
  · obtain ⟨before, rfl⟩ := List.getLast?_eq_some_iff.mp ended
    have hbefore : lineFeed ∉ before := by
      have unbroken := h.unbroken
      rwa [List.dropLast_concat] at unbroken
    rw [content, if_pos ended, List.dropLast_concat, lines, linesFrom_unbroken hbefore, linesFrom,
      if_pos rfl, List.append_nil, List.reverse_reverse]
    rfl
  · have hline : lineFeed ∉ line := by
      intro mem
      rw [← List.dropLast_concat_getLast h.nonempty, List.mem_append, List.mem_singleton] at mem
      rcases mem with mem | hlast
      · exact h.unbroken mem
      · exact ended (by rw [List.getLast?_eq_some_getLast h.nonempty, ← hlast])
    rw [content, if_neg ended, lines_singleton hline h.nonempty]

/-- Bytes are read as a text when they are the bytes of that text. -/
theorem decodeUtf8?_eq_some_iff {s : String} :
    decodeUtf8? bytes = some s ↔ bytes = encodeUtf8 s := by
  constructor
  · intro h
    rw [decodeUtf8?, String.fromUTF8?] at h
    split at h
    · cases h
      rfl
    · cases h
  · rintro rfl
    exact decodeUtf8?_encodeUtf8 s

/-- Whether a byte sequence is a text of blank characters alone. -/
def BlankBytes (bytes : List UInt8) : Prop :=
  ∃ cs, bytes = charBytes cs ∧ ∀ c ∈ cs, isBlank c = true

/-- A last byte of the ASCII range is the last character by itself. -/
theorem exists_of_charBytes_concat {cs : List Char} {b : UInt8} (small : b < 128)
    (h : charBytes cs = bytes ++ [b]) :
    ∃ before c, cs = before ++ [c] ∧ charBytes before = bytes := by
  have hsome : cs ≠ [] := by
    rintro rfl
    exact absurd h.symm (List.append_ne_nil_of_right_ne_nil _ (List.cons_ne_nil _ _))
  rw [← List.dropLast_concat_getLast hsome] at h ⊢
  generalize cs.dropLast = before at h ⊢
  generalize cs.getLast hsome = c at h ⊢
  have hchar : charBytes [c] = String.utf8EncodeChar c := List.append_nil _
  rw [charBytes_append, hchar] at h
  have hlast : (String.utf8EncodeChar c).getLast? = some b := by
    have hwhole := congrArg List.getLast? h
    rwa [List.getLast?_append_of_ne_nil _ String.utf8EncodeChar_ne_nil,
      List.getLast?_concat] at hwhole
  have hvalue := toNat_eq_of_mem_utf8EncodeChar (List.mem_of_getLast? hlast) small
  have hascii : c.toNat < 128 := by
    rw [hvalue]
    exact UInt8.lt_iff_toNat_lt.mp small
  rw [utf8EncodeChar_of_lt hascii] at h
  exact ⟨before, c, rfl, (List.append_inj' h rfl).1⟩

/-- A blank character that is one byte does not count at the end. -/
theorem blankBytes_concat_iff {c : Char} {b : UInt8} (small : b < 128)
    (byte : String.utf8EncodeChar c = [b]) (blank : isBlank c = true) :
    BlankBytes (bytes ++ [b]) ↔ BlankBytes bytes := by
  constructor
  · rintro ⟨cs, hbytes, hblank⟩
    obtain ⟨before, last, rfl, rfl⟩ := exists_of_charBytes_concat small hbytes.symm
    exact ⟨before, rfl, fun d hd => hblank d (List.mem_append_left _ hd)⟩
  · rintro ⟨cs, rfl, hblank⟩
    refine ⟨cs ++ [c], by rw [charBytes_append, charBytes_cons, charBytes_nil, byte]; rfl, ?_⟩
    intro d hd
    rcases List.mem_append.mp hd with hd | hd
    · exact hblank d hd
    · rw [List.mem_singleton.mp hd, blank]

/-- A line is blank without its end when it is with it. -/
theorem blankBytes_content_iff : BlankBytes (content line) ↔ BlankBytes line := by
  unfold content
  split
  · next ended =>
    obtain ⟨before, rfl⟩ := List.getLast?_eq_some_iff.mp ended
    have hfeed : String.utf8EncodeChar '\n' = [lineFeed] := by decide
    rw [List.dropLast_concat, blankBytes_concat_iff (by decide) hfeed (by decide), chomp]
    split
    · next returned =>
      obtain ⟨text, rfl⟩ := List.getLast?_eq_some_iff.mp returned
      have hreturn : String.utf8EncodeChar '\r' = [carriageReturn] := by decide
      rw [List.dropLast_concat, blankBytes_concat_iff (by decide) hreturn (by decide)]
    · exact Iff.rfl
  · exact Iff.rfl

end Clearing.Text
