import Clearing.Proofs.Decimal.Numeral
import Clearing.Proofs.Double.Nearest
import Clearing.Proofs.Text.Digits

/-!
# Few digits come back from a double precision number

The shortest digits that round to a number are those that it was made of, as long as there are no
more than fifteen. Two numbers with so few digits are further apart than the interval is wide, on
the grid of the digits as on every coarser one, so no other digits are found before them. The text
of a number is a numeral of its shortest digits.
-/

namespace Clearing

open Clearing.Text

namespace Double

variable {x : Double} {q : ℚ} {g : ℤ}

/-- The power of ten of the leading digit of a quotient that is not too small. -/
theorem leadingExponent_spec {n d : Nat} (hd : 0 < d) (low : d ≤ n * pow10 399) :
    (10 : ℚ) ^ leadingExponent n d ≤ n / d ∧ (n / d : ℚ) < 10 ^ (leadingExponent n d + 1) := by
  have hdq : (0 : ℚ) < d := by exact_mod_cast hd
  rw [le_div_iff₀ hdq, div_lt_iff₀ hdq]
  unfold leadingExponent
  split
  · next le =>
    obtain ⟨hle, hlt⟩ := length_natDigits (Nat.div_pos le hd)
    obtain ⟨len, hlen⟩ : ∃ len, (natDigits (n / d)).length = len + 1 :=
      ⟨_, (Nat.succ_pred (fun h => natDigits_ne_nil _ (List.length_eq_zero_iff.mp h))).symm⟩
    rw [hlen, Nat.add_sub_cancel] at hle
    rw [hlen] at hlt ⊢
    have hexponent : ((len + 1 : Nat) : ℤ) - 1 = (len : ℤ) := by omega
    rw [hexponent, zpow_natCast, zpow_add_one₀ (by norm_num), zpow_natCast, ← pow_succ]
    constructor
    · exact_mod_cast (Nat.le_div_iff_mul_le hd).mp hle
    · exact_mod_cast (Nat.div_lt_iff_lt_mul hd).mp hlt
  · next lt =>
    cases hfind : (List.range 400).find? fun k => d ≤ n * pow10 k with
    | none =>
      have hmiss := List.find?_range_eq_none.mp hfind 399 (by decide)
      exact absurd low (by simpa using hmiss)
    | some k =>
      obtain ⟨hfound, -, hmiss⟩ := List.find?_range_eq_some.mp hfind
      rw [decide_eq_true_eq] at hfound
      cases k with
      | zero => exact absurd hfound (by simpa using lt)
      | succ k =>
        have hbefore : n * pow10 k < d := by simpa using hmiss k (Nat.lt_succ_self k)
        have hexponent : -((k + 1 : Nat) : ℤ) + 1 = -(k : ℤ) := by omega
        have hpower : (0 : ℚ) < pow10 (k + 1) := by exact_mod_cast pow10_pos _
        have hpower' : (0 : ℚ) < pow10 k := by exact_mod_cast pow10_pos _
        dsimp only
        rw [hexponent, zpow_neg, zpow_neg, zpow_natCast, zpow_natCast, ← cast_pow10, ← cast_pow10,
          inv_mul_le_iff₀ hpower, lt_inv_mul_iff₀ hpower', mul_comm, mul_comm _ (n : ℚ)]
        exact ⟨by exact_mod_cast hfound, by exact_mod_cast hbefore⟩

/-- What rounds to a number lies within its bounds. -/
theorem Rounds.bounds (h : x.Rounds q) :
    (roundingBounds x).1 * 2 ^ x.exponent ≤ 4 * q ∧
      4 * q ≤ (roundingBounds x).2 * 2 ^ x.exponent := by
  unfold Rounds at h
  split at h
  · exact h
  · exact ⟨h.1.le, h.2.le⟩

/-- What rounds to a number is within half a unit of it. -/
theorem Rounds.near (hx : x.Normal) (h : x.Rounds q) :
    2 * x.magnitude ≤ 2 * q + 2 ^ x.exponent ∧ 2 * q ≤ 2 * x.magnitude + 2 ^ x.exponent := by
  obtain ⟨hlow, hhigh⟩ := h.bounds
  have hunit := two_zpow_pos x.exponent
  rw [upperBound_eq] at hhigh
  unfold magnitude
  rcases lowerBound_cases hx with hbound | ⟨-, hbound⟩ <;>
  · rw [hbound] at hlow
    exact ⟨by linarith, by linarith⟩

/-- The units of a number are small against it. -/
theorem Normal.unit_le (hx : x.Normal) : 2 ^ 52 * 2 ^ x.exponent ≤ x.magnitude := by
  have hle : (2 ^ 52 : ℚ) ≤ x.mantissa := by exact_mod_cast hx.le_mantissa
  exact mul_le_mul_of_nonneg_right hle (two_zpow_pos _).le

/-- A number with all bits of its mantissa is not too small for its leading digit to be found. -/
theorem Normal.denominator_le (hx : x.Normal) : x.denominator ≤ x.numerator * pow10 399 := by
  have hmantissa := hx.le_mantissa
  have hexponent := hx.lt_exponent
  simp only [minExponent] at hexponent
  calc x.denominator ≤ pow2 1073 := pow2_le_pow2 (by omega)
    _ ≤ 2 ^ 52 * 1 * pow10 399 := by decide +kernel
    _ ≤ x.numerator * pow10 399 :=
      Nat.mul_le_mul_right _ (Nat.mul_le_mul hmantissa (pow2_pos _))

/-- On a grid that is wider than the interval there is one number that rounds. -/
theorem eq_of_rounds (hx : x.Normal) {n m : Nat} (wide : (2 : ℚ) ^ x.exponent < 10 ^ g)
    (hn : x.Rounds (n * 10 ^ g)) (hm : x.Rounds (m * 10 ^ g)) : n = m := by
  have hstep := ten_zpow_pos g
  have hapart {a b : Nat} (ha : x.Rounds (a * 10 ^ g)) (hb : x.Rounds (b * 10 ^ g)) :
      a < b + 1 := by
    have hnear := (ha.near hx).2
    have hnear' := (hb.near hx).1
    have hlt : (a : ℚ) * 10 ^ g < (b + 1) * 10 ^ g := by linarith
    exact_mod_cast (mul_lt_mul_iff_left₀ hstep).mp hlt
  have hle := hapart hn hm
  have hge := hapart hm hn
  omega

/-- What is found on a grid rounds. -/
theorem rounds_of_onGrid {m : Nat} (h : onGrid? x g = some m) : x.Rounds (m * 10 ^ g) := by
  unfold onGrid? at h
  dsimp only at h
  generalize divideEven (x.numerator * pow10 (-g).toNat) (x.denominator * pow10 g.toNat) = near at h
  generalize (if near = x.numerator * pow10 (-g).toNat / (x.denominator * pow10 g.toNat) then
    x.numerator * pow10 (-g).toNat / (x.denominator * pow10 g.toNat) + 1
    else x.numerator * pow10 (-g).toNat / (x.denominator * pow10 g.toNat)) = far at h
  split at h
  · next hnear =>
    cases h
    exact (readsBack_iff _).mp hnear
  · split at h
    · next hfar =>
      cases h
      exact (readsBack_iff _).mp hfar
    · exact absurd h nofun

/-- A number of a wide grid that rounds is found on the grid. -/
theorem onGrid_of_rounds (hx : x.Normal) {n : Nat} (wide : (2 : ℚ) ^ x.exponent < 10 ^ g)
    (h : x.Rounds (n * 10 ^ g)) : onGrid? x g = some n := by
  have hden : 0 < x.denominator * pow10 g.toNat := Nat.mul_pos (pow2_pos _) (pow10_pos _)
  have hstep := ten_zpow_pos g
  have hratio : ((x.numerator * pow10 (-g).toNat : Nat) : ℚ) /
      ((x.denominator * pow10 g.toNat : Nat) : ℚ) = x.magnitude / 10 ^ g := by
    have hpower : (0 : ℚ) < pow10 (-g).toNat := by exact_mod_cast pow10_pos _
    rw [Nat.cast_mul, Nat.cast_mul, ← ten_zpow_mul g, mul_div_mul_comm, numerator_div_denominator]
    field_simp
  obtain ⟨habove, hbelow, -⟩ := divideEven_spec (x.numerator * pow10 (-g).toNat) hden
  have hnear : divideEven (x.numerator * pow10 (-g).toNat) (x.denominator * pow10 g.toNat) = n := by
    rw [hratio] at habove hbelow
    generalize divideEven (x.numerator * pow10 (-g).toNat) (x.denominator * pow10 g.toNat) = m at *
    have hscale : x.magnitude / 10 ^ g * 10 ^ g = x.magnitude := div_mul_cancel₀ _ hstep.ne'
    obtain ⟨hlow, hhigh⟩ := h.near hx
    have hup : (m : ℚ) < n + 1 := by
      rw [← mul_lt_mul_iff_left₀ hstep]
      have := mul_le_mul_of_nonneg_right habove hstep.le
      linarith
    have hdown : (n : ℚ) < m + 1 := by
      rw [← mul_lt_mul_iff_left₀ hstep]
      have := mul_le_mul_of_nonneg_right hbelow hstep.le
      linarith
    have hup' : m < n + 1 := by exact_mod_cast hup
    have hdown' : n < m + 1 := by exact_mod_cast hdown
    omega
  unfold onGrid?
  dsimp only
  rw [hnear, if_pos ((readsBack_iff n).mpr h)]

/-- Zeros at the end of the digits are in the exponent. -/
theorem dropZeros_value (digits : Nat) (exponent : ℤ) (fuel : Nat) :
    ((dropZeros digits exponent fuel).digits : ℚ) * 10 ^ (dropZeros digits exponent fuel).exponent =
      digits * 10 ^ exponent := by
  induction fuel generalizing digits exponent with
  | zero => rfl
  | succ fuel ih =>
    rw [dropZeros]
    split
    · next zeros =>
      obtain ⟨tens, htens⟩ : ∃ tens, digits = 10 * tens := ⟨digits / 10, by omega⟩
      rw [ih, zpow_add_one₀ (by norm_num), htens, Nat.mul_div_cancel_left _ (by decide)]
      push_cast
      ring
    · rfl

/-- On a wide grid and on coarser ones nothing else is found than a number of the grid that
rounds. -/
theorem value_of_onGrid (hx : x.Normal) {n m i : Nat} (wide : (2 : ℚ) ^ x.exponent < 10 ^ g)
    (h : x.Rounds (n * 10 ^ g)) (found : onGrid? x (g + i) = some m) :
    (m * 10 ^ (g + i) : ℚ) = n * 10 ^ g := by
  have hsplit : (m * 10 ^ (g + i) : ℚ) = (m * 10 ^ i : Nat) * 10 ^ g := by
    rw [add_comm, zpow_add₀ (by norm_num), zpow_natCast]
    push_cast
    ring
  have hm := rounds_of_onGrid found
  rw [hsplit] at hm ⊢
  rw [eq_of_rounds hx wide hm h]

/-- The shortest digits are worth a number that rounds on a wide grid, if the grid is tried. -/
theorem shortest_value_of_wide (hx : x.Normal) {n i : Nat} (wide : (2 : ℚ) ^ x.exponent < 10 ^ g)
    (h : x.Rounds (n * 10 ^ g)) (tried : i < 17)
    (top : leadingExponent x.numerator x.denominator = g + i) :
    ((shortest x).digits : ℚ) * 10 ^ (shortest x).exponent = n * 10 ^ g := by
  have hmantissa : x.mantissa ≠ 0 := by
    have hle := hx.le_mantissa
    omega
  have hgrid : onGrid? x (g + i - i) = some n := by
    rw [add_sub_cancel_right]
    exact onGrid_of_rounds hx wide h
  unfold shortest
  rw [if_neg hmantissa, top]
  dsimp only
  cases hfound : (List.range 17).findSome? fun (k : Nat) =>
      (onGrid? x (g + i - k)).map fun digits => dropZeros digits (g + i - k) 18 with
  | none =>
    have hmiss := List.findSome?_eq_none_iff.mp hfound i (List.mem_range.mpr tried)
    rw [hgrid] at hmiss
    exact absurd hmiss nofun
  | some r =>
    -- The first grid with a number is this one or a coarser one.
    obtain ⟨k, -, hk, hmiss⟩ := Decimal.findSome?_range hfound
    obtain ⟨m, hm, rfl⟩ := Option.map_eq_some_iff.mp hk
    have hle : k ≤ i := by
      by_contra hlt
      have hnone := hmiss i (Nat.not_le.mp hlt)
      rw [hgrid] at hnone
      exact absurd hnone nofun
    obtain ⟨j, rfl⟩ := Nat.exists_eq_add_of_le hle
    have hcoarse : g + ((k + j : Nat) : ℤ) - k = g + j := by
      push_cast
      ring
    rw [hcoarse] at hm ⊢
    rw [Option.getD_some, dropZeros_value]
    exact value_of_onGrid hx wide h hm

/-- The shortest digits of a number that few digits round to are worth those digits. -/
theorem shortest_value (hx : x.Normal) {n : Nat} {e : ℤ} (few : n < 10 ^ 15)
    (h : x.Rounds (n * 10 ^ e)) :
    ((shortest x).digits : ℚ) * 10 ^ (shortest x).exponent = n * 10 ^ e := by
  obtain ⟨htop, htop'⟩ :=
    leadingExponent_spec (show 0 < x.denominator from pow2_pos _) hx.denominator_le
  rw [numerator_div_denominator] at htop htop'
  generalize hleading : leadingExponent x.numerator x.denominator = top at htop htop'
  have hunit := two_zpow_pos x.exponent
  have hsmall := hx.unit_le
  obtain ⟨hnear, hnear'⟩ := h.near hx
  by_cases hle : e ≤ top
  · have hdigits : (n * 10 ^ e : ℚ) < 10 ^ 15 * 10 ^ e :=
      mul_lt_mul_of_pos_right (by exact_mod_cast few) (ten_zpow_pos e)
    have hwide : (2 : ℚ) ^ x.exponent < 10 ^ e := by linarith
    have hbound : top < e + 17 := by
      refine (zpow_lt_zpow_iff_right₀ (show (1 : ℚ) < 10 by norm_num)).mp ?_
      rw [zpow_add₀ (by norm_num)]
      linarith
    obtain ⟨i, rfl⟩ := Int.le.dest hle
    exact shortest_value_of_wide hx hwide h (by omega) hleading
  · -- The digits end in zeros, and the grid of the leading digit is already theirs.
    obtain ⟨i, rfl⟩ := Int.le.dest (Int.le_of_not_le hle)
    have hzeros : (n * 10 ^ (top + i) : ℚ) = (n * 10 ^ i : Nat) * 10 ^ top := by
      rw [add_comm, zpow_add₀ (by norm_num), zpow_natCast]
      push_cast
      ring
    have hwide : (2 : ℚ) ^ x.exponent < 10 ^ top := by
      rw [zpow_add_one₀ (by norm_num)] at htop'
      linarith
    rw [hzeros] at h ⊢
    exact shortest_value_of_wide hx hwide h (i := 0) (by decide) (by rw [hleading]; simp)

/-- The text of digits in positional notation denotes what they are worth. -/
theorem exists_positional (s : Shortest) : ∃ m, Numeral.ofChars? (positional s) = some m ∧
    m.base = m ∧ m.value = s.digits * 10 ^ s.exponent := by
  have hwhole (n : Nat) : Nat.ofDigitChars 10 (natDigits n) 0 = n := Nat.ofDigitChars_ten_toDigits
  unfold positional
  split
  · next hle =>
    have hdigits : AllDigits (natDigits s.digits ++ List.replicate s.exponent.toNat '0') :=
      (allDigits_natDigits _).append fun c hc => by rw [List.eq_of_mem_replicate hc]; rfl
    have hsome : natDigits s.digits ++ List.replicate s.exponent.toNat '0' ≠ [] :=
      List.append_ne_nil_of_left_ne_nil (natDigits_ne_nil _) _
    refine ⟨_, Numeral.ofChars?_whole hdigits hsome, rfl, ?_⟩
    have hexponent : (10 : ℚ) ^ s.exponent = 10 ^ s.exponent.toNat := by
      rw [← zpow_natCast, Int.toNat_of_nonneg hle]
    rw [Numeral.value_ofDigits, List.append_nil, Nat.ofDigitChars_append, hwhole,
      Nat.ofDigitChars_replicate_zero, hexponent, Nat.cast_mul, Nat.cast_pow, List.length_nil,
      Nat.cast_zero, neg_zero, zpow_zero, mul_one, mul_comm]
    rfl
  · next hlt =>
    obtain ⟨places, hplaces⟩ : ∃ k, (-s.exponent).toNat = k + 1 :=
      ⟨(-s.exponent).toNat - 1, by omega⟩
    have hexponent : -((places + 1 : Nat) : ℤ) = s.exponent := by omega
    dsimp only
    rw [hplaces]
    have hlength := length_padded (places + 1) (s.digits % pow10 (places + 1))
    have hsome : padded (places + 1) (s.digits % pow10 (places + 1)) ≠ [] :=
      List.length_pos_iff.mp (by rw [hlength]; exact Nat.succ_pos _)
    rw [← Numeral.pointed_of_ne_nil hsome]
    refine ⟨_, Numeral.ofChars?_digits (allDigits_natDigits _) (natDigits_ne_nil _)
      (allDigits_padded _ _), rfl, ?_⟩
    rw [Numeral.value_ofDigits, hlength, hexponent, Nat.ofDigitChars_append, hwhole,
      ofDigitChars_padded, Nat.mod_mod, Nat.div_add_mod]

/-- The text of a number without a minus is read as what the shortest digits are worth. -/
theorem value_of_plainText {d : Decimal} (sign : x.negative = false)
    (fits : Decimal.Representable ((shortest x).digits * 10 ^ (shortest x).exponent))
    (read : Decimal.ofChars x.plainText = .ok d) :
    d.value = (shortest x).digits * 10 ^ (shortest x).exponent := by
  obtain ⟨m, hm, hbase, hvalue⟩ := exists_positional (shortest x)
  have hsigned : x.plainText = positional (shortest x) :=
    if_neg (by rw [sign]; exact Bool.false_ne_true)
  rw [hsigned] at read
  rw [← hvalue] at fits ⊢
  exact Decimal.ofChars_exact hm (by rwa [hbase]) read

end Double

end Clearing
