import Clearing.Proofs.Decimal.Text
import Clearing.Proofs.Number.Power
import Mathlib.Algebra.Order.Field.Basic
import Mathlib.Tactic.FieldSimp
import Mathlib.Tactic.Linarith
import Mathlib.Tactic.Ring

/-!
# What a numeral denotes

A text denotes a number whatever its length: its digits, moved by the point and by the exponent.
Reading a decimal from a text rounds what a decimal cannot hold. When the text before the exponent
denotes a decimal, there is nothing to round: what the reader leaves out are zeros.
-/

namespace Clearing

open Clearing.Text

/-- A number as it is written. -/
structure Numeral where
  negative : Bool
  /-- The digits without the point. -/
  digits : Nat
  /-- How many of the digits stand behind the point. -/
  places : Nat
  exponent : ℤ
  deriving DecidableEq, Repr

namespace Numeral

/-- The number that is denoted. -/
def value (n : Numeral) : ℚ :=
  (if n.negative then -1 else 1) * n.digits * 10 ^ (n.exponent - n.places)

/-- The number before the exponent. -/
def base (n : Numeral) : Numeral := { n with exponent := 0 }

/-- Read digits with a point among them and underscores behind them; there is no limit to them. -/
def digits? (n places : Nat) (point any : Bool) : List Char → Option (Nat × Nat)
  | [] => if any then some (n, places) else none
  | c :: rest =>
      match digit? c with
      | some d => digits? (10 * n + d) (if point then places + 1 else places) point true rest
      | none =>
          if c = '.' ∧ point = false then digits? n places true any rest
          else if c = '_' ∧ any = true then digits? n places point any rest
          else none

/-- Read a number without an exponent. -/
def plain? (cs : List Char) : Option Numeral :=
  match cs with
  | [] => none
  | c :: rest =>
      let signed := c = '-' || c = '+'
      (digits? 0 0 false false (if signed then rest else cs)).map fun r => ⟨c = '-', r.1, r.2, 0⟩

/-- Read the digits of an exponent. -/
def exponentDigits? (cs : List Char) : Option Nat :=
  if cs ≠ [] ∧ cs.all Char.isDigit = true then some (digitsValue cs) else none

/-- Read an exponent. -/
def exponent? : List Char → Option ℤ
  | '-' :: ds => (exponentDigits? ds).map fun (e : Nat) => -(e : ℤ)
  | '+' :: ds => (exponentDigits? ds).map fun (e : Nat) => (e : ℤ)
  | ds => (exponentDigits? ds).map fun (e : Nat) => (e : ℤ)

/-- Read a number. -/
def ofChars? (cs : List Char) : Option Numeral :=
  match cs.dropWhile (!Decimal.isExponentMark ·) with
  | [] => plain? cs
  | _ :: exponent => do
      let n ← plain? (cs.takeWhile (!Decimal.isExponentMark ·))
      let e ← exponent? exponent
      some { n with exponent := e }

/-- A fraction with the point before it, if there is one. -/
def pointed : List Char → List Char
  | [] => []
  | f :: fs => '.' :: f :: fs

/-- The number of the digits before the point and those behind it. -/
def ofDigits (whole fraction : List Char) : Numeral :=
  ⟨false, Nat.ofDigitChars 10 (whole ++ fraction) 0, fraction.length, 0⟩

/-- A number without an exponent is its own base. -/
theorem base_of_plain? {cs : List Char} {n : Numeral} (h : plain? cs = some n) : n.base = n := by
  cases cs with
  | nil => exact absurd h nofun
  | cons c rest =>
    obtain ⟨r, -, rfl⟩ := Option.map_eq_some_iff.mp h
    rfl

/-- An exponent multiplies by its power of ten. -/
theorem value_eq_base (n : Numeral) : n.value = n.base.value * 10 ^ n.exponent := by
  have hsplit : (10 : ℚ) ^ (n.exponent - n.places) =
      10 ^ ((0 : ℤ) - n.places) * 10 ^ n.exponent := by
    rw [← zpow_add₀ (by norm_num)]
    congr 1
    omega
  rw [value, hsplit, ← mul_assoc]
  rfl

/-- The digits make a whole number, of which as many are behind the point as the fraction has. -/
theorem value_ofDigits (ds fs : List Char) :
    (ofDigits ds fs).value = Nat.ofDigitChars 10 (ds ++ fs) 0 * 10 ^ (-(fs.length : ℤ)) := by
  rw [value, ofDigits, if_neg Bool.false_ne_true, one_mul, zero_sub]

section Digits

variable {cs ds fs : List Char} {c : Char}

theorem pointed_of_ne_nil (some : fs ≠ []) : pointed fs = '.' :: fs := by
  cases fs with
  | nil => exact absurd rfl some
  | cons f fs => rfl

/-- Digits count after those that were read, and behind the point each of them is a place. -/
theorem digits?_append (digits : AllDigits ds) (n k : Nat) (point any : Bool) (rest : List Char) :
    digits? n k point any (ds ++ rest) = digits? (Nat.ofDigitChars 10 ds n)
      (if point then k + ds.length else k) point (any || !ds.isEmpty) rest := by
  induction ds generalizing n k any with
  | nil => simp
  | cons d ds ih =>
    have hd := digit?_of_isDigit (digits d List.mem_cons_self)
    rw [List.cons_append, digits?, hd]
    dsimp only
    rw [ih (fun c hc => digits c (List.mem_cons_of_mem _ hc)), Nat.ofDigitChars_cons]
    cases point
    · simp
    · simp only [if_true, List.length_cons, List.isEmpty_cons, Bool.not_false, Bool.or_true,
        Bool.true_or]
      rw [Nat.add_assoc, Nat.add_comm 1]

/-- Digits with a point before the last of them are a number without an exponent. -/
theorem plain?_digits (whole : AllDigits ds) (some : ds ≠ []) (fraction : AllDigits fs) :
    plain? (ds ++ pointed fs) = Option.some (ofDigits ds fs) := by
  have hdigits : digits? 0 0 false false (ds ++ pointed fs) =
      Option.some (Nat.ofDigitChars 10 (ds ++ fs) 0, fs.length) := by
    rw [digits?_append whole, List.isEmpty_eq_false_iff.mpr some, Nat.ofDigitChars_append]
    cases fs with
    | nil => rfl
    | cons f fs =>
      have hread := digits?_append fraction (Nat.ofDigitChars 10 ds 0) 0 true true []
      rw [List.append_nil] at hread
      change digits? _ 0 true true (f :: fs) = _
      rw [hread, if_pos rfl, Nat.zero_add]
      rfl
  cases ds with
  | nil => exact absurd rfl some
  | cons d ds =>
    obtain ⟨hminus, hplus⟩ := Decimal.not_sign_of_isDigit (whole d List.mem_cons_self)
    rw [List.cons_append] at hdigits ⊢
    rw [plain?, decide_eq_false hminus, decide_eq_false hplus, Bool.or_self,
      if_neg Bool.false_ne_true, hdigits]
    rfl

/-- No digit is an exponent mark, nor is the point. -/
theorem not_mark_of_digits (whole : AllDigits ds) (fraction : AllDigits fs) :
    ∀ c ∈ ds ++ pointed fs, (!Decimal.isExponentMark c) = true := by
  have hdigit {c : Char} (h : c.isDigit = true) : (!Decimal.isExponentMark c) = true := by
    rw [Bool.not_eq_true', Decimal.isExponentMark, Bool.or_eq_false_iff]
    constructor <;> rw [decide_eq_false_iff_not] <;> rintro rfl <;> exact absurd h (by decide)
  intro c hc
  rcases List.mem_append.mp hc with hc | hc
  · exact hdigit (whole c hc)
  · cases fs with
    | nil => exact absurd hc List.not_mem_nil
    | cons f fs =>
      rcases List.mem_cons.mp hc with rfl | hc
      · rfl
      · exact hdigit (fraction c hc)

/-- Digits with a point among them are a number. -/
theorem ofChars?_digits (whole : AllDigits ds) (some : ds ≠ []) (fraction : AllDigits fs) :
    ofChars? (ds ++ pointed fs) = Option.some (ofDigits ds fs) := by
  rw [ofChars?, List.dropWhile_eq_nil_iff.mpr (not_mark_of_digits whole fraction)]
  exact plain?_digits whole some fraction

/-- Digits alone are a whole number. -/
theorem ofChars?_whole (whole : AllDigits ds) (some : ds ≠ []) :
    ofChars? ds = Option.some (ofDigits ds []) := by
  have hread := ofChars?_digits whole some (show AllDigits [] from fun _ => nofun)
  rwa [pointed, List.append_nil] at hread

/-- Digits alone are what they denote. -/
theorem value_of_digits {m : Numeral} (digits : AllDigits ds) (denoted : ofChars? ds = some m) :
    m.value = m.digits := by
  cases ds with
  | nil => exact absurd denoted nofun
  | cons d ds =>
    cases denoted.symm.trans (ofChars?_whole digits (List.cons_ne_nil d ds))
    rw [value_ofDigits, List.length_nil, Nat.cast_zero, neg_zero, zpow_zero, mul_one, ofDigits]

/-- Digits with an exponent behind them are a number. -/
theorem ofChars?_marked {exponent : List Char} {e : ℤ} (whole : AllDigits ds) (some : ds ≠ [])
    (fraction : AllDigits fs) (mark : Decimal.isExponentMark c = true)
    (denoted : exponent? exponent = Option.some e) :
    ofChars? (ds ++ pointed fs ++ c :: exponent) =
      Option.some { ofDigits ds fs with exponent := e } := by
  have hplain := not_mark_of_digits whole fraction
  have hmark : ¬ (!Decimal.isExponentMark c) = true := by rw [mark]; exact Bool.false_ne_true
  rw [ofChars?, List.dropWhile_append_of_pos hplain,
    List.dropWhile_cons_of_neg (p := (!Decimal.isExponentMark ·)) hmark,
    List.takeWhile_append_of_pos hplain,
    List.takeWhile_cons_of_neg (p := (!Decimal.isExponentMark ·)) hmark, List.append_nil,
    plain?_digits whole some fraction]
  dsimp only [bind, Option.bind]
  rw [denoted]

/-- The digits of an exponent are their value. -/
theorem exponentDigits?_digits (digits : AllDigits ds) (some : ds ≠ []) :
    exponentDigits? ds = Option.some (digitsValue ds) :=
  if_pos ⟨some, List.all_eq_true.mpr digits⟩

end Digits

end Numeral

namespace Decimal

open Numeral

/-- The number that a decimal is. -/
def value (d : Decimal) : ℚ := d.coefficient / 10 ^ d.scale

/-- Whether a number is that of a decimal. -/
def Representable (q : ℚ) : Prop := ∃ d : Decimal, d.value = q

variable {cs : List Char} {n k : Nat} {d : Decimal}

theorem positive_iff : d.positive ↔ 0 < d.value := by
  rw [positive, value, div_pos_iff_of_pos_right (by positivity), Int.cast_pos]

/-- Digits follow those that were read, and behind the point each of them is a place. -/
theorem exists_of_digits? {places n' k' : Nat} {point any : Bool}
    (h : digits? n places point any cs = some (n', k')) :
    ∃ r t, t < 10 ^ r ∧ n' = n * 10 ^ r + t ∧ (point = true → k' = places + r) := by
  induction cs generalizing n places point any with
  | nil =>
    rw [digits?] at h
    split at h
    · cases h
      exact ⟨0, 0, by decide, by omega, fun _ => rfl⟩
    · exact absurd h nofun
  | cons c rest ih =>
    rw [digits?] at h
    split at h
    · next x hx =>
      obtain ⟨r, t, ht, hn, hk⟩ := ih h
      have hdigit : x < 10 := digit?_lt hx
      refine ⟨r + 1, x * 10 ^ r + t, ?_, ?_, fun hpoint => ?_⟩
      · rw [Nat.pow_succ]
        nlinarith [Nat.pow_pos (n := r) (show 0 < 10 by decide)]
      · rw [hn, Nat.pow_succ]
        ring
      · rw [hk hpoint, if_pos hpoint]
        omega
    · split at h
      · next hpoint =>
        obtain ⟨r, t, ht, hn, -⟩ := ih h
        exact ⟨r, t, ht, hn, fun same => absurd (hpoint.2.symm.trans same) nofun⟩
      · split at h
        · exact ih h
        · exact absurd h nofun

/-- What follows the places of a decimal is zero. -/
theorem rest_eq_zero {r t c j : Nat} (rest : t < 10 ^ r) (places : j ≤ k)
    (same : (n * 10 ^ r + t) * 10 ^ j = c * 10 ^ (k + r)) : t = 0 := by
  obtain ⟨i, rfl⟩ := Nat.exists_eq_add_of_le places
  have hsplit : c * 10 ^ (j + i + r) = c * 10 ^ i * 10 ^ r * 10 ^ j := by ring
  rw [hsplit] at same
  have hwhole := Nat.eq_of_mul_eq_mul_right (Nat.pow_pos (by decide)) same
  have hmod := congrArg (· % 10 ^ r) hwhole
  simpa only [Nat.mul_mod_left, Nat.mul_add_mod_self_right, Nat.mod_eq_of_lt rest] using hmod

/-- What a decimal has no coefficient for has more places than the decimal. -/
theorem places_le_of_large {r t c j : Nat} (coefficient : c < coefficientBound)
    (large : coefficientBound ≤ n) (same : (n * 10 ^ r + t) * 10 ^ j = c * 10 ^ (k + r)) :
    j < k := by
  by_contra few
  obtain ⟨i, rfl⟩ := Nat.exists_eq_add_of_le (Nat.not_lt.mp few)
  have hpos : 0 < 10 ^ (k + r) := Nat.pow_pos (by decide)
  have hle : n * 10 ^ (k + r) ≤ (n * 10 ^ r + t) * 10 ^ (k + i) := by
    calc n * 10 ^ (k + r) ≤ n * 10 ^ (k + r) * 10 ^ i :=
          Nat.le_mul_of_pos_right _ (Nat.pow_pos (by decide))
      _ = n * 10 ^ r * 10 ^ (k + i) := by ring
      _ ≤ (n * 10 ^ r + t) * 10 ^ (k + i) := Nat.mul_le_mul_right _ (Nat.le_add_right _ _)
  rw [same] at hle
  have := Nat.le_of_mul_le_mul_right hle hpos
  omega

/-- A digit behind the places of a decimal is a zero, and so are those after it. -/
theorem roundBy_exact {m m' : Magnitude} {x c j : Nat} (digit : x < 10)
    (denoted : digits? (10 * m.digits + x) (m.scale + 1) true true cs = some (n, k))
    (places : j ≤ m.scale) (same : n * 10 ^ j = c * 10 ^ k) (read : m.roundBy x = .ok m') :
    m'.digits * 10 ^ k = n * 10 ^ m'.scale := by
  obtain ⟨r, t, ht, rfl, hk⟩ := exists_of_digits? denoted
  cases hk rfl
  have hsplit : (10 * m.digits + x) * 10 ^ r + t = m.digits * 10 ^ (r + 1) + (x * 10 ^ r + t) := by
    ring
  have hplaces : m.scale + 1 + r = m.scale + (r + 1) := by omega
  have hrest : x * 10 ^ r + t < 10 ^ (r + 1) := by
    rw [Nat.pow_succ]
    nlinarith
  rw [hsplit, hplaces] at same ⊢
  have hzero := rest_eq_zero hrest places same
  have hx : x = 0 := by
    by_contra hx
    have := Nat.mul_pos (Nat.pos_of_ne_zero hx) (Nat.pow_pos (n := r) (show 0 < 10 by decide))
    omega
  rw [hx, Magnitude.roundBy, if_pos (by decide)] at read
  cases read
  rw [hzero, Nat.add_zero, Nat.pow_add]
  ring

/-- What follows the last place of a decimal is nothing but zeros. -/
theorem roundByChar_exact {m m' : Magnitude} {x : Char} {c j : Nat}
    (denoted : digits? m.digits m.scale true true (x :: cs) = some (n, k))
    (full : m.scale = maxScale) (places : j ≤ maxScale) (same : n * 10 ^ j = c * 10 ^ k)
    (read : m.roundByChar x = .ok m') :
    m'.digits * 10 ^ k = n * 10 ^ m'.scale := by
  rw [← full] at places
  rw [Magnitude.roundByChar] at read
  cases hx : digit? x with
  | some d =>
    rw [digits?, hx] at denoted
    rw [hx] at read
    exact roundBy_exact (digit?_lt hx) denoted places same read
  | none =>
    rw [hx] at read
    dsimp only at read
    split at read
    · cases read
      obtain ⟨r, t, ht, rfl, hk⟩ := exists_of_digits? denoted
      cases hk rfl
      rw [rest_eq_zero ht places same]
      ring
    · exact absurd read nofun

/-- A magnitude of which nothing but zeros is left out is read exactly. -/
theorem readMagnitude_exact {m m' : Magnitude} {point any : Bool} {c j : Nat}
    (denoted : digits? m.digits m.scale point any cs = some (n, k)) (room : m.scale < maxScale)
    (coefficient : c < coefficientBound) (places : j ≤ maxScale) (same : n * 10 ^ j = c * 10 ^ k)
    (read : readMagnitude m point any cs = .ok m') : m'.digits * 10 ^ k = n * 10 ^ m'.scale := by
  induction cs generalizing m any point with
  | nil =>
    rw [digits?] at denoted
    rw [readMagnitude] at read
    split at denoted
    · cases denoted
      rw [if_pos ‹_›] at read
      cases read
      rfl
    · cases denoted
  | cons x rest ih =>
    rw [digits?] at denoted
    rw [readMagnitude] at read
    cases hx : digit? x with
    | some d =>
      rw [hx] at denoted read
      dsimp only at denoted read
      split at read
      · next large =>
        cases point with
        | false => cases read
        | true =>
          obtain ⟨r, t, ht, rfl, hk⟩ := exists_of_digits? denoted
          cases hk rfl
          have hfew := places_le_of_large coefficient large same
          exact roundBy_exact (digit?_lt hx) denoted (Nat.le_of_lt_succ hfew) same read
      · cases rest with
        | nil =>
          cases denoted
          cases read
          rfl
        | cons next rest =>
          cases point with
          | false => exact ih (m := ⟨10 * m.digits + d, m.scale⟩) denoted room read
          | true =>
            simp only [if_true, Bool.true_and, decide_eq_true_eq] at read denoted
            split at read
            · next full =>
              have hscale : m.scale + 1 = maxScale := Nat.le_antisymm room full
              exact roundByChar_exact denoted hscale places same read
            · next more =>
              exact ih (m := ⟨10 * m.digits + d, m.scale + 1⟩) denoted (Nat.not_le.mp more) read
    | none =>
      rw [hx] at denoted read
      dsimp only at denoted read
      by_cases hpoint : x = '.' ∧ point = false
      · rw [if_pos hpoint] at denoted
        rw [if_pos (by simp [hpoint])] at read
        exact ih denoted room read
      · rw [if_neg hpoint] at denoted
        rw [if_neg (by simpa using hpoint)] at read
        by_cases hunderscore : x = '_' ∧ any = true
        · rw [if_pos hunderscore] at denoted
          rw [if_pos (by simp [hunderscore])] at read
          exact ih denoted room read
        · rw [if_neg hunderscore] at denoted
          cases denoted

/-- A decimal is what a numeral without an exponent denotes if the digits are the same at one
scale. -/
theorem value_eq_iff {negative : Bool} : d.value = Numeral.value ⟨negative, n, k, 0⟩ ↔
    d.coefficient * 10 ^ k = (if negative then -(n : ℤ) else n) * 10 ^ d.scale := by
  have hpower : (10 : ℚ) ^ ((0 : ℤ) - (k : ℤ)) = 1 / 10 ^ k := by
    rw [zero_sub, zpow_neg, zpow_natCast, one_div]
  have hsign : (if negative then (-1 : ℚ) else 1) * n =
      ((if negative then -(n : ℤ) else n : ℤ) : ℚ) := by
    cases negative <;> simp
  rw [value, Numeral.value, hpower, hsign, mul_one_div,
    div_eq_div_iff (by positivity) (by positivity)]
  exact_mod_cast Iff.rfl

theorem ofParts?_of_toDecimal {m : Magnitude} {negative : Bool}
    (h : m.toDecimal negative = .ok d) :
    ofParts? (if negative then -(m.digits : ℤ) else m.digits) m.scale = some d := by
  unfold Magnitude.toDecimal at h
  split at h
  · next x hx =>
    cases h
    exact hx
  · exact absurd h nofun

/-- A decimal is read from a text without an exponent that denotes it. -/
theorem readPlain_exact {m : Numeral} (denoted : plain? cs = some m) (fits : Representable m.value)
    (read : readPlain cs = .ok d) : d.value = m.value := by
  cases cs with
  | nil => cases denoted
  | cons c rest =>
    obtain ⟨⟨n, k⟩, hdigits, rfl⟩ := Option.map_eq_some_iff.mp denoted
    obtain ⟨e, he⟩ := fits
    have hfits : n * 10 ^ e.scale = e.coefficient.natAbs * 10 ^ k := by
      have habs := congrArg Int.natAbs (value_eq_iff.mp he)
      rw [Int.natAbs_mul, Int.natAbs_mul, Int.natAbs_pow, Int.natAbs_pow] at habs
      rw [show n = (if decide (c = '-') then -(n : ℤ) else n).natAbs by split <;> simp]
      exact habs.symm
    rw [readPlain] at read
    cases hread : readMagnitude ⟨0, 0⟩ false false
        (if (decide (c = '-') || decide (c = '+')) = true then rest else c :: rest) with
    | error cause =>
      rw [hread] at read
      cases read
    | ok m' =>
      rw [hread] at read
      have hexact := readMagnitude_exact (m := ⟨0, 0⟩) hdigits (by decide) e.coefficient_lt
        e.scale_le hfits hread
      have hparts := ofParts?_of_toDecimal read
      obtain ⟨hcoefficient, hscale⟩ := ofParts?_eq_some_iff.mp hparts
      rw [value_eq_iff, hcoefficient, hscale]
      split
      · rw [Int.neg_mul, Int.neg_mul]
        exact_mod_cast congrArg Neg.neg (congrArg Nat.cast hexact : _ = _)
      · exact_mod_cast hexact

/-- A decimal that is raised is multiplied. -/
theorem value_of_raise {e : Nat} {d' : Decimal} (h : d.raise e = .ok d') :
    d'.value = d.value * 10 ^ (e : ℤ) := by
  have hparts : (if e ≤ d.scale then ofParts? d.coefficient (d.scale - e)
      else ofParts? (d.coefficient * pow10 (e - d.scale)) 0) = some d' := by
    unfold raise at h
    generalize (if e ≤ d.scale then ofParts? d.coefficient (d.scale - e)
      else ofParts? (d.coefficient * pow10 (e - d.scale)) 0) = shifted at h
    split at h
    · exact absurd h nofun
    · cases shifted with
      | none => exact absurd h nofun
      | some x =>
        cases h
        rfl
  split at hparts
  · next le =>
    obtain ⟨hcoefficient, hscale⟩ := ofParts?_eq_some_iff.mp hparts
    have hsplit : (10 : ℚ) ^ d.scale = 10 ^ (d.scale - e) * 10 ^ e := by
      rw [← pow_add, Nat.sub_add_cancel le]
    rw [value, value, hcoefficient, hscale, hsplit, zpow_natCast]
    field_simp
  · next lt =>
    obtain ⟨hcoefficient, hscale⟩ := ofParts?_eq_some_iff.mp hparts
    have hsplit : (10 : ℚ) ^ e = 10 ^ (e - d.scale) * 10 ^ d.scale := by
      rw [← pow_add, Nat.sub_add_cancel (Nat.le_of_not_le lt)]
    rw [value, value, hcoefficient, hscale, zpow_natCast, hsplit, Int.cast_mul, Int.cast_natCast,
      cast_pow10, pow_zero]
    field_simp

/-- A decimal that is lowered is divided. -/
theorem value_of_lower {e : Nat} {d' : Decimal} (h : d.lower e = .ok d') :
    d'.value = d.value * 10 ^ (-(e : ℤ)) := by
  unfold lower at h
  split at h
  · next x hx =>
    cases h
    obtain ⟨hcoefficient, hscale⟩ := ofParts?_eq_some_iff.mp hx
    rw [value, value, hcoefficient, hscale, zpow_neg, zpow_natCast, pow_add]
    field_simp
  · exact absurd h nofun

/-- The digits of an exponent are read as they are, with or without a plus, if they are not too
many. -/
theorem readWhole?_of_exponentDigits {limit e i : Nat} (denoted : exponentDigits? cs = some e)
    (read : readWhole? limit cs = some i ∨ readWhole? limit ('+' :: cs) = some i) : i = e := by
  unfold exponentDigits? at denoted
  split at denoted
  · next hdigits =>
    cases denoted
    have hread : readWhole? limit ('+' :: cs) = some i := by
      rcases read with read | read
      · cases cs with
        | nil => exact absurd rfl hdigits.1
        | cons c rest =>
          have hc : c.isDigit = true := by
            have hall := hdigits.2
            rw [List.all_cons, Bool.and_eq_true] at hall
            exact hall.1
          have hplus := (not_sign_of_isDigit hc).2
          unfold readWhole? at read
          split at read
          · next same => exact absurd (List.cons.inj same).1 hplus
          · exact read
      · exact read
    simp only [readWhole?, List.isEmpty_eq_false_iff.mpr hdigits.1, hdigits.2, Bool.not_true,
      Bool.or_self, Bool.false_eq_true, if_false] at hread
    split at hread
    · exact (Option.some.inj hread).symm
    · exact absurd hread nofun
  · exact absurd denoted nofun

/-- A decimal is moved by the exponent that a text denotes. -/
theorem value_of_applyExponent {e : ℤ} {d' : Decimal} (denoted : exponent? cs = some e)
    (read : d.applyExponent cs = .ok d') : d'.value = d.value * 10 ^ e := by
  unfold exponent? at denoted
  split at denoted
  · next ds =>
    obtain ⟨i, hi, rfl⟩ := Option.map_eq_some_iff.mp denoted
    rw [applyExponent] at read
    split at read
    · next j hj =>
      cases readWhole?_of_exponentDigits hi (.inl hj)
      exact value_of_lower read
    · exact absurd read nofun
  · next ds =>
    obtain ⟨i, hi, rfl⟩ := Option.map_eq_some_iff.mp denoted
    rw [applyExponent] at read
    · split at read
      · next j hj =>
        cases readWhole?_of_exponentDigits hi (.inr hj)
        exact value_of_raise read
      · exact absurd read nofun
    · simp
  · next ds hminus hplus =>
    obtain ⟨i, hi, rfl⟩ := Option.map_eq_some_iff.mp denoted
    rw [applyExponent] at read
    · split at read
      · next j hj =>
        cases readWhole?_of_exponentDigits hi (.inl hj)
        exact value_of_raise read
      · exact absurd read nofun
    · exact hminus

/-- A decimal is read exactly from a text that denotes a decimal before the exponent. -/
theorem ofChars_exact {m : Numeral} (denoted : ofChars? cs = some m)
    (fits : Representable m.base.value) (read : ofChars cs = .ok d) : d.value = m.value := by
  unfold Numeral.ofChars? at denoted
  unfold ofChars at read
  dsimp only at read
  split at denoted
  · next plain =>
    rw [plain] at read
    have hbase : m.base = m := base_of_plain? denoted
    rw [hbase] at fits
    exact readPlain_exact denoted fits read
  · next c exponent marked =>
    rw [marked] at read
    obtain ⟨n, hn, denoted⟩ := Option.bind_eq_some_iff.mp denoted
    obtain ⟨e, he, denoted⟩ := Option.bind_eq_some_iff.mp denoted
    cases denoted
    have hbase : Numeral.base { n with exponent := e } = n := base_of_plain? hn
    rw [value_eq_base, hbase]
    rw [hbase] at fits
    cases hread : readPlain (cs.takeWhile (!isExponentMark ·)) with
    | error cause =>
      rw [hread] at read
      exact absurd read nofun
    | ok x =>
      rw [hread] at read
      rw [value_of_applyExponent he read, readPlain_exact hn fits hread]

end Decimal

end Clearing
