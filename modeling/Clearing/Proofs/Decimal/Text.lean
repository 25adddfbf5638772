import Clearing.Decimal.Text
import Clearing.Proofs.Text.Digits
import Mathlib.Data.List.TakeWhile

/-!
# Decimal texts read back

The text of a decimal has all its places, no more than a decimal can hold, and no exponent. Reading
it therefore rounds nothing and gives back the coefficient and the scale.
-/

namespace Clearing.Decimal

open Clearing.Text

variable {ds : List Char} {n scale : Nat}

/-- Digits to the end of a text are read, with a place for each of them behind the point. -/
theorem readMagnitude_digits (digits : AllDigits ds) (some : ds ≠ []) (m : Magnitude)
    (point any : Bool) (fits : Nat.ofDigitChars 10 ds m.digits < coefficientBound)
    (places : point = true → m.scale + ds.length ≤ maxScale) :
    readMagnitude m point any ds = .ok ⟨Nat.ofDigitChars 10 ds m.digits,
      if point then m.scale + ds.length else m.scale⟩ := by
  induction ds generalizing m any with
  | nil => exact absurd rfl some
  | cons c rest ih =>
    have hc := digit?_of_isDigit (digits c List.mem_cons_self)
    rw [Nat.ofDigitChars_cons] at fits ⊢
    have hle := le_ofDigitChars rest (10 * m.digits + (c.toNat - '0'.toNat))
    rw [readMagnitude, hc]
    dsimp only
    rw [if_neg (by omega)]
    cases rest with
    | nil => cases point <;> rfl
    | cons next rest =>
      have hplaces :
          (point && decide (maxScale ≤ if point then m.scale + 1 else m.scale)) = false := by
        cases point with
        | false => rfl
        | true =>
          have hscale := places rfl
          simp only [List.length_cons] at hscale
          simpa using by omega
      dsimp only
      rw [hplaces, if_neg Bool.false_ne_true]
      refine (ih (fun d hd => digits d (List.mem_cons_of_mem _ hd)) (List.cons_ne_nil _ _) _ true
        fits fun hpoint => ?_).trans ?_
      · have hscale := places hpoint
        simp only [hpoint, if_true, List.length_cons] at hscale ⊢
        omega
      · cases point with
        | false => rfl
        | true =>
          simp only [if_true, List.length_cons]
          congr 2
          omega

/-- Digits up to the point are read, and then the places begin. -/
theorem readMagnitude_point (digits : AllDigits ds) (some : ds ≠ []) (m : Magnitude) (any : Bool)
    (fits : Nat.ofDigitChars 10 ds m.digits < coefficientBound) (rest : List Char) :
    readMagnitude m false any (ds ++ '.' :: rest) =
      readMagnitude ⟨Nat.ofDigitChars 10 ds m.digits, m.scale⟩ true true rest := by
  induction ds generalizing m any with
  | nil => exact absurd rfl some
  | cons c ds ih =>
    have hc := digit?_of_isDigit (digits c List.mem_cons_self)
    rw [Nat.ofDigitChars_cons] at fits ⊢
    have hle := le_ofDigitChars ds (10 * m.digits + (c.toNat - '0'.toNat))
    rw [List.cons_append, readMagnitude, hc]
    dsimp only
    rw [if_neg (by omega)]
    cases ds with
    | nil =>
      rw [List.nil_append]
      dsimp only
      rw [Bool.false_and, if_neg Bool.false_ne_true, readMagnitude]
      rfl
    | cons d ds =>
      rw [List.cons_append]
      dsimp only
      rw [Bool.false_and, if_neg Bool.false_ne_true, ← List.cons_append]
      exact ih (fun x hx => digits x (List.mem_cons_of_mem _ hx)) (List.cons_ne_nil _ _) _ true fits

/-- The text of a magnitude that a decimal can have is read as that magnitude. -/
theorem readMagnitude_magnitudeText (fits : n < coefficientBound) (places : scale ≤ maxScale) :
    readMagnitude ⟨0, 0⟩ false false (magnitudeText n scale) = .ok ⟨n, scale⟩ := by
  have hwhole (k : Nat) : Nat.ofDigitChars 10 (natDigits k) 0 = k := Nat.ofDigitChars_ten_toDigits
  unfold magnitudeText
  split
  · next hzero =>
    subst hzero
    rw [readMagnitude_digits (allDigits_natDigits n) (natDigits_ne_nil n) ⟨0, 0⟩ false false
      (by rw [hwhole]; exact fits) (fun h => absurd h Bool.false_ne_true), hwhole]
    rfl
  · next hscale =>
    have hle : n / pow10 scale ≤ n := Nat.div_le_self _ _
    have hpos := pow10_pos scale
    have hplaces : Nat.ofDigitChars 10 (padded scale (n % pow10 scale)) (n / pow10 scale) = n := by
      rw [ofDigitChars_padded, Nat.mod_mod, Nat.div_add_mod]
    have hsome : padded scale (n % pow10 scale) ≠ [] := by
      rw [← List.length_pos_iff, length_padded]
      omega
    rw [readMagnitude_point (allDigits_natDigits _) (natDigits_ne_nil _) _ _
      (by rw [hwhole]; omega), hwhole]
    rw [readMagnitude_digits (allDigits_padded _ _) hsome _ _ _ (by rw [hplaces]; exact fits)
      (fun _ => by rw [length_padded, Nat.zero_add]; exact places), hplaces, length_padded]
    dsimp only
    rw [if_pos rfl, Nat.zero_add]

/-- The characters of a magnitude are digits and a point. -/
theorem mem_magnitudeText {c : Char} (h : c ∈ magnitudeText n scale) :
    c.isDigit = true ∨ c = '.' := by
  unfold magnitudeText at h
  split at h
  · exact .inl (allDigits_natDigits _ c h)
  · rcases List.mem_append.mp h with h | h
    · exact .inl (allDigits_natDigits _ c h)
    · rcases List.mem_cons.mp h with h | h
      · exact .inr h
      · exact .inl (allDigits_padded _ _ c h)

/-- A magnitude begins with a digit. -/
theorem exists_digit_magnitudeText (n scale : Nat) :
    ∃ c rest, magnitudeText n scale = c :: rest ∧ c.isDigit = true := by
  have hdigits (k : Nat) (rest : List Char) :
      ∃ c more, natDigits k ++ rest = c :: more ∧ c.isDigit = true := by
    obtain ⟨c, more, hk⟩ := List.exists_cons_of_ne_nil (natDigits_ne_nil k)
    refine ⟨c, more ++ rest, by rw [hk, List.cons_append], allDigits_natDigits k c ?_⟩
    rw [hk]
    exact List.mem_cons_self
  unfold magnitudeText
  split
  · obtain ⟨c, more, hc⟩ := hdigits n []
    rw [List.append_nil] at hc
    exact ⟨c, more, hc⟩
  · exact hdigits _ _

/-- A digit is no sign. -/
theorem not_sign_of_isDigit {c : Char} (h : c.isDigit = true) : c ≠ '-' ∧ c ≠ '+' := by
  constructor
  · rintro rfl
    exact absurd h (by decide)
  · rintro rfl
    exact absurd h (by decide)

/-- The characters of a decimal. -/
theorem toList_text (d : Decimal) : d.text.toList =
    (if d.coefficient < 0 then ['-'] else []) ++ magnitudeText d.coefficient.natAbs d.scale := by
  rw [text, String.toList_ofList]
  split <;> rfl

/-- The text of a decimal without an exponent is read as the decimal. -/
theorem readPlain_text (d : Decimal) : readPlain d.text.toList = .ok d := by
  have hread := readMagnitude_magnitudeText d.coefficient_lt d.scale_le
  rw [toList_text]
  by_cases negative : d.coefficient < 0
  · have hparts : ofParts? (-(d.coefficient.natAbs : Int)) d.scale = some d :=
      ofParts?_eq_some_iff.mpr ⟨by omega, rfl⟩
    rw [if_pos negative]
    simp only [List.singleton_append, readPlain, decide_true, Bool.true_or, if_true, hread,
      Except.bind, Magnitude.toDecimal, hparts]
  · have hparts : ofParts? (d.coefficient.natAbs : Int) d.scale = some d :=
      ofParts?_eq_some_iff.mpr ⟨by omega, rfl⟩
    obtain ⟨c, rest, htext, hdigit⟩ := exists_digit_magnitudeText d.coefficient.natAbs d.scale
    obtain ⟨hminus, hplus⟩ := not_sign_of_isDigit hdigit
    rw [if_neg negative, List.nil_append]
    rw [htext] at hread ⊢
    simp only [readPlain, hminus, hplus, decide_false, Bool.or_false, Bool.false_eq_true, if_false,
      hread, Except.bind, Magnitude.toDecimal, hparts]

/-- The characters of a decimal are a sign, digits and a point. -/
theorem mem_text {d : Decimal} {c : Char} (h : c ∈ d.text.toList) :
    c = '-' ∨ c.isDigit = true ∨ c = '.' := by
  rw [toList_text] at h
  rcases List.mem_append.mp h with h | h
  · split at h
    · exact .inl (List.mem_singleton.mp h)
    · exact absurd h List.not_mem_nil
  · exact .inr (mem_magnitudeText h)

/-- Every decimal is read back from its text, with its scale. -/
theorem ofText_text (d : Decimal) : ofText d.text = .ok d := by
  have hplain : ∀ c ∈ d.text.toList, (!isExponentMark c) = true := by
    intro c hc
    rcases mem_text hc with rfl | hdigit | rfl
    · rfl
    · rw [Bool.not_eq_true', isExponentMark, Bool.or_eq_false_iff]
      constructor <;> rw [decide_eq_false_iff_not] <;> rintro rfl <;>
        exact absurd hdigit (by decide)
    · rfl
  rw [ofText, ofChars, List.dropWhile_eq_nil_iff.mpr hplain]
  exact readPlain_text d

end Clearing.Decimal
