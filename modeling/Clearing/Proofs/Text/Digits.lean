import Clearing.Text.Digits
import Mathlib.Data.Nat.Digits.Defs

/-!
# Digit texts read back

The digits of a number are digits, and their value is the number: in the plain text, in one with
leading zeros, and in one of fixed width as far as the number fits. Digits that follow others count
after the value of those, and a number of digits is worth less than that power of ten.
-/

namespace Clearing.Text

variable {cs : List Char} {c : Char}

theorem digit?_of_isDigit (h : c.isDigit = true) : digit? c = some (c.toNat - '0'.toNat) := if_pos h

/-- A digit is below ten. -/
theorem digit?_lt {d : Nat} (h : digit? c = some d) : d < 10 := by
  unfold digit? at h
  split at h
  · next hdigit =>
    cases h
    simp only [Char.isDigit, Bool.and_eq_true, decide_eq_true_eq] at hdigit
    have hle : c.toNat ≤ 57 := UInt32.le_iff_toNat_le.mp hdigit.2
    omega
  · exact absurd h nofun

/-- Whether every character is a digit. -/
def AllDigits (cs : List Char) : Prop := ∀ c ∈ cs, c.isDigit = true

theorem AllDigits.append {ds : List Char} (h : AllDigits cs) (hd : AllDigits ds) :
    AllDigits (cs ++ ds) := by
  intro c hc
  rcases List.mem_append.mp hc with hc | hc
  · exact h c hc
  · exact hd c hc

theorem allDigits_natDigits (n : Nat) : AllDigits (natDigits n) := fun _ hc =>
  Nat.isDigit_of_mem_toDigits (by decide) (by decide) hc

theorem allDigits_padded (width n : Nat) : AllDigits (padded width n) := by
  induction width generalizing n with
  | zero => exact fun _ => nofun
  | succ width ih =>
    refine (ih _).append fun c hc => ?_
    rw [List.mem_singleton.mp hc, Nat.isDigit_digitChar]
    exact decide_eq_true (Nat.mod_lt _ (by decide))

theorem allDigits_atLeast (width n : Nat) : AllDigits (atLeast width n) := by
  refine AllDigits.append (fun c hc => ?_) (allDigits_natDigits n)
  rw [List.eq_of_mem_replicate hc]
  rfl

theorem natDigits_ne_nil (n : Nat) : natDigits n ≠ [] := Nat.toDigits_ne_nil

/-- Digits count after a value as the digits of one number. -/
theorem foldl_digits (h : AllDigits cs) (n : Nat) :
    cs.foldl (fun n c => 10 * n + (digit? c).getD 0) n = Nat.ofDigitChars 10 cs n := by
  induction cs generalizing n with
  | nil => rfl
  | cons c cs ih =>
    have hc := digit?_of_isDigit (h c List.mem_cons_self)
    rw [List.foldl_cons, hc, Nat.ofDigitChars_cons]
    exact ih (fun d hd => h d (List.mem_cons_of_mem _ hd)) _

theorem digitsValue_of_digits (h : AllDigits cs) : digitsValue cs = Nat.ofDigitChars 10 cs 0 :=
  foldl_digits h 0

/-- A value grows with the digits after it. -/
theorem le_ofDigitChars (cs : List Char) (n : Nat) : n ≤ Nat.ofDigitChars 10 cs n := by
  rw [Nat.ofDigitChars_eq_ofDigitChars_zero]
  have hpos : 0 < 10 ^ cs.length := Nat.pow_pos (by decide)
  have hle : n ≤ 10 ^ cs.length * n := Nat.le_mul_of_pos_left n hpos
  omega

/-- Digits are worth less than the next power of ten. -/
theorem ofDigitChars_lt {cs : List Char} (h : AllDigits cs) (n : Nat) :
    Nat.ofDigitChars 10 cs n < (n + 1) * 10 ^ cs.length := by
  induction cs generalizing n with
  | nil => simp
  | cons c cs ih =>
    have hlt := ih (fun d hd => h d (List.mem_cons_of_mem _ hd)) (10 * n + (c.toNat - '0'.toNat))
    have hdigit := digit?_lt (digit?_of_isDigit (h c List.mem_cons_self))
    rw [Nat.ofDigitChars_cons]
    refine lt_of_lt_of_le hlt ?_
    rw [List.length_cons, Nat.pow_succ, Nat.mul_comm _ 10, ← Nat.mul_assoc]
    exact Nat.mul_le_mul_right _ (by omega)

/-- The digits of a number are as many as the power of ten that it reaches says. -/
theorem length_natDigits {n : Nat} (hn : 0 < n) :
    10 ^ ((natDigits n).length - 1) ≤ n ∧ n < 10 ^ (natDigits n).length := by
  constructor
  · by_contra hlt
    have hpos : 0 < (natDigits n).length - 1 := by
      refine Nat.pos_of_ne_zero fun hzero => hlt ?_
      rw [hzero]
      exact hn
    have hlen := Nat.toDigits_length 10 n _ hpos (Nat.not_le.mp hlt)
    change (natDigits n).length ≤ _ at hlen
    omega
  · have hlt := ofDigitChars_lt (allDigits_natDigits n) 0
    rwa [natDigits, Nat.ofDigitChars_ten_toDigits, Nat.zero_add, Nat.one_mul] at hlt

/-- Leading zeros do not change the value. -/
theorem digitsValue_atLeast (width n : Nat) : digitsValue (atLeast width n) = n := by
  rw [digitsValue_of_digits (allDigits_atLeast width n), atLeast, Nat.ofDigitChars_append,
    Nat.ofDigitChars_replicate_zero, Nat.mul_zero]
  exact Nat.ofDigitChars_ten_toDigits

/-- What follows a value in a text of fixed width counts after it. -/
theorem ofDigitChars_padded (width m n : Nat) :
    Nat.ofDigitChars 10 (padded width n) m = pow10 width * m + n % pow10 width := by
  rw [Nat.ofDigitChars_eq_ofDigitChars_zero, ← digitsValue_of_digits (allDigits_padded width n),
    digitsValue_padded, length_padded]
  rfl

end Clearing.Text
