import Clearing.Json.Number
import Clearing.Proofs.Decimal.Numeral

/-!
# What a JSON number is read as

A number is read from the front of a text: digits, a point with digits behind it, an exponent. What
is read denotes a number, whatever its length. As long as all digits of it fit 64 bits none of them
is left out, and then the value is made of these digits and of the exponent, less the places.
-/

namespace Clearing

open Clearing.Text

namespace Numeral

/-- What may stand behind the digits of a number: an exponent or nothing. -/
inductive Tail : List Char → ℤ → Prop
  | none : Tail [] 0
  | exponent {c : Char} {cs : List Char} {e : ℤ} (mark : Decimal.isExponentMark c = true)
      (denoted : exponent? cs = some e) : Tail (c :: cs) e

/-- Digits and what may stand behind them are a number. -/
theorem ofChars?_tail {ds fs tail : List Char} {e : ℤ} (whole : AllDigits ds) (some : ds ≠ [])
    (fraction : AllDigits fs) (behind : Tail tail e) :
    ofChars? (ds ++ pointed fs ++ tail) = Option.some { ofDigits ds fs with exponent := e } := by
  cases behind with
  | none =>
    rw [List.append_nil]
    exact ofChars?_digits whole some fraction
  | exponent mark denoted => exact ofChars?_marked whole some fraction mark denoted

end Numeral

namespace Json

section Digits

variable {limit value taken dropped : Nat} {cs : List Char}

/-- Gathering goes past the digits in front. -/
theorem gather_rest (limit value taken dropped : Nat) (cs : List Char) :
    (gather limit value taken dropped cs).rest = cs.dropWhile Char.isDigit := by
  induction cs generalizing value taken dropped with
  | nil => rfl
  | cons c cs ih =>
    rw [gather]
    by_cases digit : c.isDigit = true
    · rw [digit?_of_isDigit digit, List.dropWhile_cons_of_pos digit]
      dsimp only
      split
      · exact ih _ _ _
      · exact ih _ _ _
    · rw [digit?, if_neg digit, List.dropWhile_cons_of_neg digit]

/-- Every digit is taken or dropped. -/
theorem gather_count (limit value taken dropped : Nat) (cs : List Char) :
    (gather limit value taken dropped cs).taken + (gather limit value taken dropped cs).dropped =
      taken + dropped + (cs.takeWhile Char.isDigit).length := by
  induction cs generalizing value taken dropped with
  | nil => rfl
  | cons c cs ih =>
    rw [gather]
    by_cases digit : c.isDigit = true
    · rw [digit?_of_isDigit digit, List.takeWhile_cons_of_pos digit, List.length_cons]
      dsimp only
      split
      · rw [ih]
        omega
      · rw [ih]
        omega
    · rw [digit?, if_neg digit, List.takeWhile_cons_of_neg digit]
      rfl

/-- What was dropped stays dropped. -/
theorem le_dropped (limit value taken dropped : Nat) (cs : List Char) :
    dropped ≤ (gather limit value taken dropped cs).dropped := by
  induction cs generalizing value taken dropped with
  | nil => exact Nat.le_refl _
  | cons c cs ih =>
    rw [gather]
    split
    · exact Nat.le_refl _
    · split
      · exact ih _ _ _
      · exact Nat.le_of_succ_le (ih _ _ _)

/-- If no digit is dropped, the value is that of the digits. -/
theorem gather_exact (kept : (gather limit value taken dropped cs).dropped = 0) :
    (gather limit value taken dropped cs).value =
      Nat.ofDigitChars 10 (cs.takeWhile Char.isDigit) value := by
  induction cs generalizing value taken dropped with
  | nil => rfl
  | cons c cs ih =>
    rw [gather] at kept ⊢
    by_cases digit : c.isDigit = true
    · rw [digit?_of_isDigit digit] at kept ⊢
      rw [List.takeWhile_cons_of_pos digit, Nat.ofDigitChars_cons]
      dsimp only at kept ⊢
      split
      · next fits =>
        rw [if_pos fits] at kept
        exact ih kept
      · next large =>
        rw [if_neg large] at kept
        have := le_dropped limit value taken (dropped + 1) cs
        omega
    · rw [digit?, if_neg digit, List.takeWhile_cons_of_neg digit]
      rfl

/-- No digit is dropped if the value of the digits is within the limit. -/
theorem gather_fits (taken : Nat)
    (fits : Nat.ofDigitChars 10 (cs.takeWhile Char.isDigit) value ≤ limit) :
    (gather limit value taken 0 cs).dropped = 0 := by
  induction cs generalizing value taken with
  | nil => rfl
  | cons c cs ih =>
    rw [gather]
    by_cases digit : c.isDigit = true
    · rw [List.takeWhile_cons_of_pos digit, Nat.ofDigitChars_cons] at fits
      -- What has been gathered is worth no more than it will be with the digits to come.
      have hle := le_ofDigitChars (cs.takeWhile Char.isDigit) (10 * value + (c.toNat - '0'.toNat))
      rw [digit?_of_isDigit digit]
      dsimp only
      rw [if_pos ⟨rfl, hle.trans fits⟩]
      exact ih _ fits
    · rw [digit?, if_neg digit]

theorem allDigits_takeWhile (cs : List Char) : AllDigits (cs.takeWhile Char.isDigit) :=
  fun _ hc => List.mem_takeWhile_imp hc

theorem takeWhile_ne_nil {c : Char} (digit : c.isDigit = true) :
    (c :: cs).takeWhile Char.isDigit ≠ [] := by
  rw [List.takeWhile_cons_of_pos digit]
  exact List.cons_ne_nil _ _

end Digits

section Parts

variable {significand : Nat} {power : ℤ} {cs after : List Char} {v : Value}

/-- Whether a value is the number of double precision for digits and a power of ten, with the
exponent that was written. No digits, or an exponent below all others, make zero. -/
def ReadsFloat (digits : Nat) (power exponent : ℤ) (v : Value) : Prop :=
  ∃ x, v = .float x ∧ (double? false digits power = some x ∨
    (digits = 0 ∨ exponent < -maxExponent) ∧ double? false 0 0 = some x)

theorem double?_of_floatValue {negative : Bool}
    (h : floatValue negative significand power cs = .ok (v, after)) :
    after = cs ∧ ∃ x, v = .float x ∧ double? negative significand power = some x := by
  unfold floatValue at h
  split at h
  · next x hx =>
    cases h
    exact ⟨rfl, x, rfl, hx⟩
  · exact absurd h nofun

/-- Read the digits of an exponent of known sign. -/
def exponentDigits (negative : Bool) (significand : Nat) (power : ℤ) (down : Bool)
    (cs : List Char) : Except Fault (Value × List Char) :=
  match cs with
  | [] => .error .unfinished
  | c :: _ =>
      if !c.isDigit then .error .malformed
      else
        let g := gather maxExponent 0 0 0 cs
        if g.dropped = 0 then
          floatValue negative significand (if down then power - g.value else power + g.value) g.rest
        else if significand ≠ 0 ∧ !down then .error .malformed
        else floatValue negative 0 0 g.rest

/-- An exponent is its digits behind a sign, or its digits alone. -/
theorem exponentDigits_of_exponentPart {negative : Bool}
    (h : exponentPart negative significand power cs = .ok (v, after)) :
    (∃ ds, cs = '+' :: ds ∧ exponentDigits negative significand power false ds = .ok (v, after)) ∨
    (∃ ds, cs = '-' :: ds ∧ exponentDigits negative significand power true ds = .ok (v, after)) ∨
      exponentDigits negative significand power false cs = .ok (v, after) := by
  unfold exponentPart at h
  split at h
  next sign =>
  split at sign
  · cases sign
    exact .inl ⟨_, rfl, h⟩
  · cases sign
    exact .inr (.inl ⟨_, rfl, h⟩)
  · cases sign
    exact .inr (.inr h)

/-- The digits of an exponent are added to the power or taken from it. -/
theorem exponentDigits_sound {down : Bool}
    (h : exponentDigits false significand power down cs = .ok (v, after)) :
    ∃ c es, cs = c :: es ++ after ∧ c.isDigit = true ∧ ∃ e,
      Numeral.exponentDigits? (c :: es) = some e ∧
      ReadsFloat significand (power + if down then -(e : ℤ) else e)
        (if down then -(e : ℤ) else e) v := by
  cases cs with
  | nil => exact absurd h nofun
  | cons c rest =>
    rw [exponentDigits] at h
    split at h
    · exact absurd h nofun
    · next digit =>
      rw [Bool.not_eq_true', Bool.not_eq_false] at digit
      dsimp only at h
      have hdigits := allDigits_takeWhile (c :: rest)
      have hvalue := Numeral.exponentDigits?_digits hdigits (takeWhile_ne_nil digit)
      have hsplit := (List.takeWhile_append_dropWhile (p := Char.isDigit) (l := c :: rest)).symm
      rw [List.takeWhile_cons_of_pos digit] at hvalue hsplit
      refine ⟨c, rest.takeWhile Char.isDigit, ?_⟩
      split at h
      · next kept =>
        obtain ⟨rfl, x, rfl, hx⟩ := double?_of_floatValue h
        rw [gather_rest]
        rw [gather_exact kept, ← digitsValue_of_digits hdigits,
          List.takeWhile_cons_of_pos digit] at hx
        refine ⟨hsplit, digit, _, hvalue, x, rfl, .inl ?_⟩
        cases down
        · exact hx
        · exact hx
      · next large =>
        split at h
        · exact absurd h nofun
        · next small =>
          obtain ⟨rfl, x, rfl, hx⟩ := double?_of_floatValue h
          rw [gather_rest]
          refine ⟨hsplit, digit, _, hvalue, x, rfl, .inr ⟨?_, hx⟩⟩
          have hlarge := Nat.not_le.mp (mt (gather_fits 0) large)
          rw [← digitsValue_of_digits hdigits, List.takeWhile_cons_of_pos digit] at hlarge
          cases down with
          | false => exact .inl (by simpa using small)
          | true =>
            right
            rw [if_pos rfl]
            omega

/-- An exponent is added to the power. -/
theorem exponentPart_sound (h : exponentPart false significand power cs = .ok (v, after)) :
    ∃ es e, cs = es ++ after ∧ Numeral.exponent? es = some e ∧
      ReadsFloat significand (power + e) e v := by
  rcases exponentDigits_of_exponentPart h with ⟨ds, rfl, h⟩ | ⟨ds, rfl, h⟩ | h
  · obtain ⟨c, es, rfl, -, e, he, hv⟩ := exponentDigits_sound h
    refine ⟨'+' :: c :: es, e, rfl, ?_, hv⟩
    rw [Numeral.exponent?, he]
    rfl
  · obtain ⟨c, es, rfl, -, e, he, hv⟩ := exponentDigits_sound h
    refine ⟨'-' :: c :: es, -(e : ℤ), rfl, ?_, hv⟩
    rw [Numeral.exponent?, he]
    rfl
  · obtain ⟨c, es, rfl, hdigit, e, he, hv⟩ := exponentDigits_sound h
    obtain ⟨hminus, hplus⟩ := Decimal.not_sign_of_isDigit hdigit
    refine ⟨c :: es, e, rfl, ?_, hv⟩
    rw [Numeral.exponent?, he]
    · rfl
    · rintro ds ⟨⟩
      exact hminus rfl
    · rintro ds ⟨⟩
      exact hplus rfl

theorem exists_of_exponentMark? {rest : List Char} (h : exponentMark? cs = some rest) :
    ∃ c, cs = c :: rest ∧ Decimal.isExponentMark c = true := by
  cases cs with
  | nil => cases h
  | cons c cs =>
    rw [exponentMark?] at h
    split at h
    · next mark =>
      cases h
      refine ⟨c, rfl, ?_⟩
      rw [Decimal.isExponentMark, Bool.or_eq_true, decide_eq_true_eq, decide_eq_true_eq]
      exact mark
    · cases h

/-- Behind the point every digit is a place, and an exponent may follow. -/
theorem fractionPart_sound (h : fractionPart false significand power cs = .ok (v, after)) :
    ∃ fs tail e, cs = fs ++ tail ++ after ∧ AllDigits fs ∧ fs ≠ [] ∧ Numeral.Tail tail e ∧
      (Nat.ofDigitChars 10 fs significand ≤ maxSignificand →
        ReadsFloat (Nat.ofDigitChars 10 fs significand) (power - fs.length + e) e v) := by
  have hdigits := allDigits_takeWhile cs
  have hsplit := (List.takeWhile_append_dropWhile (p := Char.isDigit) (l := cs)).symm
  have hcount := gather_count maxSignificand significand 0 0 cs
  have hkept (fits : Nat.ofDigitChars 10 (cs.takeWhile Char.isDigit) significand ≤ maxSignificand) :
      (gather maxSignificand significand 0 0 cs).value =
        Nat.ofDigitChars 10 (cs.takeWhile Char.isDigit) significand ∧
      (gather maxSignificand significand 0 0 cs).taken = (cs.takeWhile Char.isDigit).length := by
    have hdropped := gather_fits 0 fits
    exact ⟨gather_exact hdropped, by omega⟩
  rw [← gather_rest maxSignificand significand 0 0 cs] at hsplit
  unfold fractionPart at h
  generalize gather maxSignificand significand 0 0 cs = g at *
  dsimp only at h
  split at h
  · exact absurd h nofun
  · next some =>
    have hsome : cs.takeWhile Char.isDigit ≠ [] := by
      intro none
      rw [none, List.length_nil] at hcount
      omega
    split at h
    · next rest hmark =>
      obtain ⟨c, hrest, hc⟩ := exists_of_exponentMark? hmark
      obtain ⟨es, e, rfl, he, hv⟩ := exponentPart_sound h
      rw [hrest] at hsplit
      refine ⟨cs.takeWhile Char.isDigit, c :: es, e, ?_, hdigits, hsome, .exponent hc he,
        fun fits => ?_⟩
      · rw [List.append_assoc]
        exact hsplit
      · rw [← (hkept fits).1, ← (hkept fits).2]
        exact hv
    · obtain ⟨rfl, x, rfl, hx⟩ := double?_of_floatValue h
      refine ⟨cs.takeWhile Char.isDigit, [], 0, ?_, hdigits, hsome, .none, fun fits => ?_⟩
      · rw [List.append_nil]
        exact hsplit
      · rw [← (hkept fits).1, ← (hkept fits).2, add_zero]
        exact ⟨x, rfl, .inl hx⟩

/-- A number goes on behind its whole digits, or it ends with them. -/
theorem numberTail_sound {dropped : Nat}
    (h : numberTail false significand dropped cs = .ok (v, after)) :
    ∃ fs tail e, cs = Numeral.pointed fs ++ tail ++ after ∧ AllDigits fs ∧ Numeral.Tail tail e ∧
      (dropped = 0 → Nat.ofDigitChars 10 fs significand ≤ maxSignificand →
        fs = [] ∧ tail = [] ∧ v = .natural significand ∨
        (fs ≠ [] ∨ tail ≠ []) ∧
          ReadsFloat (Nat.ofDigitChars 10 fs significand) (e - fs.length) e v) := by
  unfold numberTail at h
  split at h
  · next rest =>
    obtain ⟨fs, tail, e, rfl, hdigits, hsome, htail, hv⟩ := fractionPart_sound h
    refine ⟨fs, tail, e, ?_, hdigits, htail, fun kept fits => .inr ⟨.inl hsome, ?_⟩⟩
    · rw [Numeral.pointed_of_ne_nil hsome]
      rfl
    · have hpower : (dropped : ℤ) - fs.length + e = e - fs.length := by omega
      rw [← hpower]
      exact hv fits
  · split at h
    · next rest hmark =>
      obtain ⟨c, rfl, hc⟩ := exists_of_exponentMark? hmark
      obtain ⟨es, e, rfl, he, hv⟩ := exponentPart_sound h
      refine ⟨[], c :: es, e, rfl, fun _ => nofun, .exponent hc he,
        fun kept _ => .inr ⟨.inr (List.cons_ne_nil _ _), ?_⟩⟩
      have hpower : (dropped : ℤ) + e = e - ([] : List Char).length := by
        rw [kept, List.length_nil]
        omega
      rw [← hpower]
      exact hv
    · split at h
      · cases h
        exact ⟨[], [], 0, rfl, fun _ => nofun, .none, fun _ _ => .inl ⟨rfl, rfl, rfl⟩⟩
      · next large =>
        obtain ⟨rfl, x, rfl, hx⟩ := double?_of_floatValue h
        exact ⟨[], [], 0, rfl, fun _ => nofun, .none, fun kept => absurd kept large⟩

/-- A number begins with its whole digits, and none of them is left out while they fit. -/
theorem whole_sound (h : number false cs = .ok (v, after)) :
    ∃ ds significand dropped rest, cs = ds ++ rest ∧ AllDigits ds ∧ ds ≠ [] ∧
      (Nat.ofDigitChars 10 ds 0 ≤ maxSignificand →
        dropped = 0 ∧ significand = Nat.ofDigitChars 10 ds 0) ∧
      numberTail false significand dropped rest = .ok (v, after) := by
  cases cs with
  | nil => exact absurd h nofun
  | cons c rest =>
    rw [number] at h
    by_cases digit : c.isDigit = true
    · have hvalue : Nat.ofDigitChars 10 [c] 0 = c.toNat - '0'.toNat := by
        rw [Nat.ofDigitChars_cons, Nat.ofDigitChars_nil, Nat.mul_zero, Nat.zero_add]
      rw [digit?_of_isDigit digit] at h
      split at h
      · next none => exact absurd none nofun
      · next zero =>
        split at h
        · exact absurd h nofun
        · refine ⟨[c], 0, 0, rest, rfl, ?_, List.cons_ne_nil _ _, fun _ => ⟨rfl, ?_⟩, h⟩
          · intro d hd
            rwa [List.mem_singleton.mp hd]
          · rw [hvalue]
            exact (Option.some.inj zero).symm
      · next d _ same =>
        cases same
        refine ⟨c :: rest.takeWhile Char.isDigit, _, _, _, ?_, ?_, List.cons_ne_nil _ _,
          fun fits => ?_, h⟩
        · rw [gather_rest, List.cons_append, List.takeWhile_append_dropWhile]
        · intro d hd
          rcases List.mem_cons.mp hd with rfl | hd
          · exact digit
          · exact allDigits_takeWhile rest d hd
        · rw [Nat.ofDigitChars_cons, Nat.mul_zero, Nat.zero_add] at fits ⊢
          have hdropped := gather_fits 0 fits
          exact ⟨hdropped, gather_exact hdropped⟩
    · rw [digit?, if_neg digit] at h
      exact absurd h nofun

/-- Neither a point nor an exponent mark is a digit. -/
theorem not_allDigits {ds fs tail : List Char} {e : ℤ} (behind : Numeral.Tail tail e)
    (more : fs ≠ [] ∨ tail ≠ []) : ¬AllDigits (ds ++ Numeral.pointed fs ++ tail) := by
  intro all
  rcases more with some | some
  · rw [Numeral.pointed_of_ne_nil some] at all
    have hpoint := all '.' (by simp)
    exact absurd hpoint (by decide)
  · cases behind with
    | none => exact some rfl
    | @exponent c es _ mark =>
      have hdigit := all c (by simp)
      rw [Decimal.isExponentMark, Bool.or_eq_true, decide_eq_true_eq, decide_eq_true_eq] at mark
      rcases mark with rfl | rfl <;> exact absurd hdigit (by decide)

/-- What is read as a number denotes one, and while the digits fit 64 bits the value is made of all
of them: a natural number if there is nothing but digits, and one of double precision otherwise. -/
theorem number_sound (h : number false cs = .ok (v, after)) :
    ∃ l m, cs = l ++ after ∧ Numeral.ofChars? l = some m ∧ m.negative = false ∧
      (m.digits ≤ maxSignificand → AllDigits l ∧ v = .natural m.digits ∨
        ¬AllDigits l ∧ ReadsFloat m.digits (m.exponent - m.places) m.exponent v) := by
  obtain ⟨ds, significand, dropped, rest, rfl, hdigits, hsome, hkept, htail⟩ := whole_sound h
  obtain ⟨fs, tail, e, rfl, hfraction, hbehind, hv⟩ := numberTail_sound htail
  refine ⟨ds ++ Numeral.pointed fs ++ tail, _, by simp only [List.append_assoc],
    Numeral.ofChars?_tail hdigits hsome hfraction hbehind, rfl, fun fits => ?_⟩
  simp only [Numeral.ofDigits, Nat.ofDigitChars_append] at fits ⊢
  -- The digits before the point are worth no more than all of them, so none of them is left out
  -- either.
  obtain ⟨rfl, rfl⟩ := hkept ((le_ofDigitChars fs _).trans fits)
  rcases hv rfl fits with ⟨rfl, rfl, rfl⟩ | ⟨more, hv⟩
  · left
    simpa [Numeral.pointed] using hdigits
  · exact .inr ⟨not_allDigits hbehind more, hv⟩

end Parts

section Sign

/-- Whether a value is a number of a sign. Zero has a sign too if it is not written as a natural
number. -/
def Value.Signed (negative : Bool) : Value → Prop
  | .natural _ => negative = false
  | .negative n => negative = true ∧ n ≤ 0
  | .float x => x.negative = negative
  | _ => False

variable {negative : Bool} {significand : Nat} {power : ℤ} {cs after : List Char} {v : Value}

/-- No number has two signs. -/
theorem Value.Signed.not_false (h : v.Signed true) : ¬v.Signed false := by
  intro plain
  cases v with
  | natural n => exact absurd h nofun
  | negative n => exact absurd plain.1 nofun
  | float x => exact absurd (h.symm.trans plain) nofun
  | _ => exact h

theorem nearest?_negative {n d : Nat} {x : Double} (h : Double.nearest? negative n d = some x) :
    x.negative = negative := by
  obtain ⟨r, -, rfl⟩ := Option.map_eq_some_iff.mp h
  rfl

theorem powerOfTen_negative (k : Nat) : (powerOfTen k).negative = false := by
  unfold powerOfTen
  cases h : Double.ofNat? (pow10 k) with
  | none => rfl
  | some x => exact nearest?_negative h

theorem divideByPower_negative {x : Double} (h : x.negative = false) (k : Nat) :
    (divideByPower x k).negative = false := by
  unfold divideByPower
  cases hq : x.div? (powerOfTen k) with
  | none => rfl
  | some y =>
    have hsign := nearest?_negative hq
    rw [h, powerOfTen_negative] at hsign
    exact hsign

theorem descend_negative {x : Double} (h : x.negative = false) (last steps : Nat) :
    (descend x last steps).negative = false := by
  induction steps generalizing x with
  | zero => exact divideByPower_negative h last
  | succ steps ih =>
    rw [descend]
    split
    · exact h
    · exact ih (divideByPower_negative h maxPower)

/-- A number of double precision has the sign that it is written with. -/
theorem double?_negative {x : Double} (h : double? negative significand power = some x) :
    x.negative = negative := by
  obtain ⟨y, hy, rfl⟩ := Option.map_eq_some_iff.mp h
  have hstart : ((Double.ofNat? significand).getD Double.zero).negative = false := by
    cases hs : Double.ofNat? significand with
    | none => rfl
    | some s => exact nearest?_negative hs
  have hplain : y.negative = false := by
    split at hy
    · split at hy
      · have hsign := nearest?_negative hy
        rw [hstart, powerOfTen_negative] at hsign
        exact hsign
      · split at hy
        · cases hy
          exact hstart
        · exact absurd hy nofun
    · cases hy
      exact descend_negative hstart _ _
  cases negative with
  | false => exact hplain
  | true =>
    rw [if_pos rfl, Double.neg, hplain]
    rfl

theorem floatValue_signed (h : floatValue negative significand power cs = .ok (v, after)) :
    v.Signed negative := by
  obtain ⟨-, x, rfl, hx⟩ := double?_of_floatValue h
  exact double?_negative hx

theorem exponentPart_signed (h : exponentPart negative significand power cs = .ok (v, after)) :
    v.Signed negative := by
  have hdigits {down : Bool} {cs : List Char}
      (h : exponentDigits negative significand power down cs = .ok (v, after)) :
      v.Signed negative := by
    unfold exponentDigits at h
    split at h
    · exact absurd h nofun
    · split at h
      · exact absurd h nofun
      · dsimp only at h
        split at h
        · exact floatValue_signed h
        · split at h
          · exact absurd h nofun
          · exact floatValue_signed h
  rcases exponentDigits_of_exponentPart h with ⟨ds, -, h⟩ | ⟨ds, -, h⟩ | h <;> exact hdigits h

theorem fractionPart_signed (h : fractionPart negative significand power cs = .ok (v, after)) :
    v.Signed negative := by
  unfold fractionPart at h
  dsimp only at h
  split at h
  · exact absurd h nofun
  · split at h
    · exact exponentPart_signed h
    · exact floatValue_signed h

theorem wholeValue_signed (h : wholeValue negative significand cs = .ok (v, after)) :
    v.Signed negative := by
  unfold wholeValue at h
  split at h
  · next natural =>
    cases h
    exact (Bool.not_eq_true' _).mp natural
  · next minus =>
    rw [Bool.not_eq_true', Bool.not_eq_false] at minus
    rw [minus] at *
    split at h
    · exact floatValue_signed h
    · cases h
      exact ⟨rfl, by omega⟩

theorem numberTail_signed {dropped : Nat}
    (h : numberTail negative significand dropped cs = .ok (v, after)) : v.Signed negative := by
  unfold numberTail at h
  split at h
  · exact fractionPart_signed h
  · split at h
    · exact exponentPart_signed h
    · split at h
      · exact wholeValue_signed h
      · exact floatValue_signed h

/-- A number has the sign that it is written with. -/
theorem number_signed (h : number negative cs = .ok (v, after)) : v.Signed negative := by
  unfold number at h
  split at h
  · exact absurd h nofun
  · split at h
    · exact absurd h nofun
    · split at h
      · exact absurd h nofun
      · exact numberTail_signed h
    · exact numberTail_signed h

end Sign

section Zero

/-- The quotient of zero is zero. -/
theorem nearest?_zero (negative : Bool) (d : Nat) :
    Double.nearest? negative 0 d = some ⟨negative, 0, Double.minExponent⟩ := rfl

theorem descend_zero {x : Double} (h : x.mantissa = 0) (last steps : Nat) :
    (descend x last steps).mantissa = 0 := by
  cases steps with
  | zero =>
    rw [descend, divideByPower, Double.div?, Double.numerator, h, Nat.zero_mul, Nat.zero_mul,
      nearest?_zero]
    rfl
  | succ steps =>
    rw [descend, if_pos h]
    exact h

/-- No digits make zero, whatever the exponent. -/
theorem double?_zero {negative : Bool} {power : ℤ} {x : Double}
    (h : double? negative 0 power = some x) : x.mantissa = 0 := by
  obtain ⟨y, hy, rfl⟩ := Option.map_eq_some_iff.mp h
  have hzero : y.mantissa = 0 := by
    split at hy
    · split at hy
      · rw [Double.ofNat?, nearest?_zero, Option.getD_some, Double.mul?, Double.numerator,
          Nat.zero_mul, Nat.zero_mul, nearest?_zero] at hy
        cases hy
        rfl
      · cases hy
        rfl
    · cases hy
      exact descend_zero rfl _ _
  cases negative with
  | false => exact hzero
  | true => exact hzero

end Zero

end Json

end Clearing
