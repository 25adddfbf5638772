import Clearing.Text.Lines

/-!
# Bytes and lines of texts

A text is encoded character by character, and decoding undoes it. A character of the ASCII range is
one byte, and no byte of any other character is in that range, so what is looked for among the bytes
is found where it stands among the characters. Bytes without a line feed are a line as they stand,
unless they end with a carriage return.
-/

namespace Clearing.Text

/-- The bytes of characters. -/
def charBytes (cs : List Char) : List UInt8 := cs.flatMap String.utf8EncodeChar

@[simp] theorem charBytes_nil : charBytes [] = [] := rfl

@[simp] theorem charBytes_cons (c : Char) (cs : List Char) :
    charBytes (c :: cs) = String.utf8EncodeChar c ++ charBytes cs := rfl

@[simp] theorem charBytes_append (cs ds : List Char) :
    charBytes (cs ++ ds) = charBytes cs ++ charBytes ds := List.flatMap_append

/-- A text is encoded character by character. -/
theorem encodeUtf8_eq (s : String) : encodeUtf8 s = charBytes s.toList := by
  have hbytes : s.toUTF8 = s.toList.utf8Encode := String.utf8Encode_toList.symm
  rw [encodeUtf8, hbytes, List.utf8Encode, List.toList_data_toByteArray]
  rfl

theorem encodeUtf8_ofList (cs : List Char) : encodeUtf8 (String.ofList cs) = charBytes cs := by
  rw [encodeUtf8_eq, String.toList_ofList]

/-- Decoding undoes encoding. -/
theorem decodeUtf8?_encodeUtf8 (s : String) : decodeUtf8? (encodeUtf8 s) = some s := by
  have hbytes : (⟨(encodeUtf8 s).toArray⟩ : ByteArray) = s.toByteArray := rfl
  rw [decodeUtf8?, hbytes, String.fromUTF8?, dif_pos s.isValidUTF8]
  rfl

/-- The bytes of characters are a text of those characters. -/
theorem decodeUtf8?_charBytes (cs : List Char) :
    decodeUtf8? (charBytes cs) = some (String.ofList cs) := by
  rw [← encodeUtf8_ofList, decodeUtf8?_encodeUtf8]

/-- A character of the ASCII range is one byte. -/
theorem utf8EncodeChar_of_lt {c : Char} (h : c.toNat < 128) :
    String.utf8EncodeChar c = [c.val.toUInt8] := by
  refine String.utf8EncodeChar_eq_singleton (Char.utf8Size_eq_one_iff.mpr ?_)
  rw [UInt32.le_iff_toNat_le]
  exact Nat.le_of_lt_succ h

/-- No byte of any other character is in the ASCII range. -/
theorem le_of_mem_utf8EncodeChar {c : Char} (h : 128 ≤ c.toNat) {b : UInt8}
    (hb : b ∈ String.utf8EncodeChar c) : 128 ≤ b := by
  have hlarge : ¬ c.val.toNat ≤ 127 := Nat.not_le.mpr h
  rw [UInt8.le_iff_toNat_le]
  rw [String.utf8EncodeChar, if_neg hlarge] at hb
  split at hb
  · simp only [List.mem_cons, List.not_mem_nil, or_false] at hb
    rcases hb with rfl | rfl <;> simp only [UInt8.toNat_ofNat', UInt8.reduceToNat] <;> omega
  · split at hb
    · simp only [List.mem_cons, List.not_mem_nil, or_false] at hb
      rcases hb with rfl | rfl | rfl <;> simp only [UInt8.toNat_ofNat', UInt8.reduceToNat] <;> omega
    · simp only [List.mem_cons, List.not_mem_nil, or_false] at hb
      rcases hb with rfl | rfl | rfl | rfl <;>
        simp only [UInt8.toNat_ofNat', UInt8.reduceToNat] <;> omega

/-- A byte of the ASCII range stands for the character of its number. -/
theorem toNat_eq_of_mem_utf8EncodeChar {c : Char} {b : UInt8} (hb : b ∈ String.utf8EncodeChar c)
    (small : b < 128) : c.toNat = b.toNat := by
  by_cases h : c.toNat < 128
  · rw [utf8EncodeChar_of_lt h, List.mem_singleton] at hb
    have hvalue : b.toNat = c.toNat % 256 := by rw [hb]; exact UInt32.toNat_toUInt8 c.val
    rw [hvalue, Nat.mod_eq_of_lt (by omega)]
  · exact absurd small (UInt8.not_lt.mpr (le_of_mem_utf8EncodeChar (Nat.not_lt.mp h) hb))

section Lines

variable {line : List UInt8}

/-- Bytes without a line feed belong to one line. -/
theorem linesFrom_unbroken (unbroken : lineFeed ∉ line) (before rest : List UInt8) :
    linesFrom before (line ++ rest) = linesFrom (line.reverse ++ before) rest := by
  induction line generalizing before with
  | nil => rfl
  | cons b line ih =>
    have hb : b ≠ lineFeed := fun same => unbroken (List.mem_cons.mpr (.inl same.symm))
    have hrest : lineFeed ∉ line := fun mem => unbroken (List.mem_cons_of_mem _ mem)
    rw [List.cons_append, linesFrom, if_neg hb, ih hrest, List.reverse_cons, List.append_assoc]
    rfl

/-- A line is cut off at its line feed. -/
theorem lines_cons (unbroken : lineFeed ∉ line) (ends : line.getLast? ≠ some carriageReturn)
    (rest : List UInt8) : lines (line ++ lineFeed :: rest) = line :: lines rest := by
  rw [lines, linesFrom_unbroken unbroken, linesFrom, if_pos rfl, List.append_nil,
    List.reverse_reverse, chomp, if_neg ends]
  rfl

/-- A line without an end is a line. -/
theorem lines_singleton (unbroken : lineFeed ∉ line) (some : line ≠ []) : lines line = [line] := by
  have hread := linesFrom_unbroken unbroken [] []
  rw [List.append_nil, List.append_nil] at hread
  have hsome : line.reverse.isEmpty = false := by
    rw [List.isEmpty_reverse]
    exact List.isEmpty_eq_false_iff.mpr some
  rw [lines, hread, linesFrom, hsome, if_neg Bool.false_ne_true, List.reverse_reverse]

end Lines

end Clearing.Text
