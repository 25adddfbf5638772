import Clearing.Number.Power

/-!
# Decimal digits

Natural numbers as digit texts: the plain text, the text of a fixed width, and the reading of both.
-/

namespace Clearing.Text

/-- The value of an ASCII digit. -/
def digit? (c : Char) : Option Nat := if c.isDigit then some (c.toNat - 48) else none

/-- The digits of a number, without leading zeros. Zero has one digit. -/
def natDigits (n : Nat) : List Char := Nat.toDigits 10 n

/-- The last `width` digits of a number, with leading zeros. -/
def padded : (width n : Nat) → List Char
  | 0, _ => []
  | width + 1, n => padded width (n / 10) ++ [Nat.digitChar (n % 10)]

/-- The digits of a number, with leading zeros up to `width`. -/
def atLeast (width n : Nat) : List Char :=
  let ds := natDigits n
  List.replicate (width - ds.length) '0' ++ ds

/-- The value of a digit text; characters that are no digits count as zero. -/
def digitsValue (cs : List Char) : Nat := cs.foldl (fun n c => 10 * n + (digit? c).getD 0) 0

/-- A whole number as programs receive it in settings: an optional plus and at least one digit, up
to a limit. -/
def readWhole? (limit : Nat) (cs : List Char) : Option Nat :=
  let ds := match cs with
    | '+' :: rest => rest
    | _ => cs
  if ds.isEmpty || !ds.all Char.isDigit then none
  else
    let n := digitsValue ds
    if n ≤ limit then some n else none

/-- A text of fixed width has that width. -/
theorem length_padded (width n : Nat) : (padded width n).length = width := by
  induction width generalizing n with
  | zero => rfl
  | succ width ih => simp [padded, ih]

/-- Reading one digit after a text multiplies its value by ten. -/
theorem digitsValue_append_singleton (cs : List Char) (c : Char) :
    digitsValue (cs ++ [c]) = 10 * digitsValue cs + (digit? c).getD 0 := by
  simp [digitsValue]

/-- The digit written for a value below ten has that value. -/
theorem digit?_digitChar {d : Nat} (h : d < 10) : digit? (Nat.digitChar d) = some d := by
  have : ∀ d < 10, digit? (Nat.digitChar d) = some d := by decide
  exact this d h

/-- A text of fixed width reads back as the number, less the digits that did not fit. -/
theorem digitsValue_padded (width n : Nat) : digitsValue (padded width n) = n % pow10 width := by
  induction width generalizing n with
  | zero => simp [padded, digitsValue, Nat.mod_one]
  | succ width ih =>
      rw [padded, digitsValue_append_singleton, ih, digit?_digitChar (Nat.mod_lt _ (by decide)),
        Option.getD_some, pow10_succ, Nat.mul_comm (pow10 width) 10, Nat.mod_mul]
      omega

end Clearing.Text
