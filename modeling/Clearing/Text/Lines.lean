/-!
# Lines of bytes

A byte sequence is cut at its line feeds. A carriage return right before a line feed belongs to the
line end; a last line without a line feed keeps every byte it has. A line is text when its bytes are
UTF-8.
-/

namespace Clearing.Text

/-- The byte that ends a line. -/
def lineFeed : UInt8 := 10

/-- The byte that may stand before a line feed. -/
def carriageReturn : UInt8 := 13

/-- Drop one carriage return at the end. -/
def chomp (line : List UInt8) : List UInt8 :=
  if line.getLast? = some carriageReturn then line.dropLast else line

/-- Cut at the line feeds. `line` holds the bytes of the current line, last byte first. -/
def linesFrom (line : List UInt8) : List UInt8 → List (List UInt8)
  | [] => if line.isEmpty then [] else [line.reverse]
  | b :: bytes =>
      if b = lineFeed then chomp line.reverse :: linesFrom [] bytes else linesFrom (b :: line) bytes

/-- The lines of a byte sequence, without their ends. -/
def lines (bytes : List UInt8) : List (List UInt8) := linesFrom [] bytes

/-- The text that a byte sequence encodes in UTF-8, if it does. -/
def decodeUtf8? (bytes : List UInt8) : Option String := String.fromUTF8? ⟨bytes.toArray⟩

/-- The bytes of a text in UTF-8. -/
def encodeUtf8 (s : String) : List UInt8 := s.toUTF8.data.toList

/-- Lines are cut alike before and after a line feed. -/
theorem linesFrom_append_lineFeed (line a b : List UInt8) :
    linesFrom line (a ++ lineFeed :: b) = linesFrom line (a ++ [lineFeed]) ++ lines b := by
  induction a generalizing line with
  | nil => simp [linesFrom, lines]
  | cons x a ih =>
      by_cases h : x = lineFeed
      · simp [linesFrom, h, ih]
      · simp [linesFrom, h, ih]

end Clearing.Text
