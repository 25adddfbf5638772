import Clearing.Json.Number
import Clearing.Proofs.Decimal.Worth
import Clearing.Proofs.Number.Power
import Mathlib.Tactic.FieldSimp
import Mathlib.Tactic.Linarith
import Mathlib.Tactic.Ring

/-!
# Which numbers round to a double precision number

A quotient becomes the number in whose interval it lies: half a unit of the last bit to either side,
and a quarter below a power of two, where the numbers are closer. The ends of the interval belong to
an even mantissa only. This is told for quotients far from both ends of the range.
-/

namespace Clearing

/-- A quotient that is as far from two whole numbers becomes the even one. -/
theorem divideEven_tie {n d : Nat} (h : 0 < d)
    (tie : 2 * (divideEven n d * d) = 2 * n + d ∨ 2 * n = 2 * (divideEven n d * d) + d) :
    divideEven n d % 2 = 0 := by
  have hdivided : n / d * d + n % d = n := Nat.div_add_mod' n d
  have hremainder : n % d < d := Nat.mod_lt n h
  have hnext : (n / d + 1) * d = n / d * d + d := Nat.succ_mul (n / d) d
  unfold divideEven at *
  dsimp only at *
  split at tie
  · omega
  · split at tie
    · omega
    · rw [if_neg ‹_›, if_neg ‹_›]
      omega

namespace Double

/-- The magnitude as a rational number. -/
def magnitude (x : Double) : ℚ := x.mantissa * 2 ^ x.exponent

/-- Whether a magnitude lies in the interval of those that round to a number. -/
def Rounds (x : Double) (q : ℚ) : Prop :=
  if x.mantissa % 2 = 0 then
    (roundingBounds x).1 * 2 ^ x.exponent ≤ 4 * q ∧ 4 * q ≤ (roundingBounds x).2 * 2 ^ x.exponent
  else (roundingBounds x).1 * 2 ^ x.exponent < 4 * q ∧ 4 * q < (roundingBounds x).2 * 2 ^ x.exponent

/-- Whether a number has all bits of its mantissa. -/
structure Normal (x : Double) : Prop where
  le_mantissa : 2 ^ 52 ≤ x.mantissa
  mantissa_lt : x.mantissa < 2 ^ 53
  lt_exponent : minExponent < x.exponent

variable {x : Double} {n d : Nat} {k : ℤ} {q : ℚ}

theorem numerator_div_denominator (x : Double) :
    (x.numerator : ℚ) / x.denominator = x.magnitude := by
  have hden : (0 : ℚ) < pow2 (-x.exponent).toNat := by exact_mod_cast pow2_pos _
  rw [div_eq_iff (show (x.denominator : ℚ) ≠ 0 from hden.ne'), numerator, denominator, magnitude,
    mul_assoc, two_zpow_mul, Nat.cast_mul]

theorem readsBack_iff (digits : Nat) :
    readsBack x digits k = true ↔ x.Rounds (digits * 10 ^ k) := by
  have hpos : (0 : ℚ) < pow10 (-k).toNat * pow2 (-x.exponent).toNat := by
    exact_mod_cast Nat.mul_pos (pow10_pos _) (pow2_pos _)
  have hmiddle : 4 * (digits * (10 : ℚ) ^ k) * (pow10 (-k).toNat * pow2 (-x.exponent).toNat) =
      ((digits * pow10 k.toNat * 4 * x.denominator : Nat) : ℚ) := by
    rw [denominator]
    push_cast
    rw [← ten_zpow_mul k]
    ring
  have hbound (b : Nat) :
      (b : ℚ) * 2 ^ x.exponent * (pow10 (-k).toNat * pow2 (-x.exponent).toNat) =
        ((b * pow2 x.exponent.toNat * pow10 (-k).toNat : Nat) : ℚ) := by
    push_cast
    rw [← two_zpow_mul x.exponent]
    ring
  have hle (b : Nat) : (b : ℚ) * 2 ^ x.exponent ≤ 4 * (digits * 10 ^ k) ↔
      b * pow2 x.exponent.toNat * pow10 (-k).toNat ≤
        digits * pow10 k.toNat * 4 * x.denominator := by
    rw [← mul_le_mul_iff_left₀ hpos, hbound, hmiddle, Nat.cast_le]
  have hge (b : Nat) : 4 * (digits * (10 : ℚ) ^ k) ≤ (b : ℚ) * 2 ^ x.exponent ↔
      digits * pow10 k.toNat * 4 * x.denominator ≤
        b * pow2 x.exponent.toNat * pow10 (-k).toNat := by
    rw [← mul_le_mul_iff_left₀ hpos, hbound, hmiddle, Nat.cast_le]
  unfold readsBack Rounds
  dsimp only
  split
  · rw [Bool.and_eq_true, decide_eq_true_eq, decide_eq_true_eq, hle, hge]
  · rw [Bool.and_eq_true, decide_eq_true_eq, decide_eq_true_eq, ← not_le, ← not_le, ← not_le,
      ← not_le, hle, hge]

theorem powerLe_iff (hd : 0 < d) : powerLe n d k = true ↔ (2 : ℚ) ^ k ≤ n / d := by
  have hdq : (0 : ℚ) < d := by exact_mod_cast hd
  have hpos : (0 : ℚ) < pow2 (-k).toNat := by exact_mod_cast pow2_pos _
  rw [le_div_iff₀ hdq, ← mul_le_mul_iff_left₀ hpos, mul_right_comm, two_zpow_mul, powerLe,
    decide_eq_true_eq]
  rw [mul_comm (pow2 k.toNat : ℚ)]
  exact_mod_cast Iff.rfl

/-- The power of two of the leading bit of a quotient. -/
theorem exists_top (hn : 0 < n) (hd : 0 < d) :
    let guess : ℤ := (Nat.log2 n : ℤ) - Nat.log2 d
    let top := if powerLe n d guess then guess else guess - 1
    (2 : ℚ) ^ top ≤ n / d ∧ (n / d : ℚ) < 2 ^ (top + 1) := by
  intro guess top
  have hdq : (0 : ℚ) < d := by exact_mod_cast hd
  have hn₁ : (2 : ℚ) ^ (Nat.log2 n : ℤ) ≤ n := by
    rw [zpow_natCast]
    exact_mod_cast Nat.log2_self_le (Nat.ne_of_gt hn)
  have hn₂ : (n : ℚ) < 2 ^ ((Nat.log2 n : ℤ) + 1) := by
    have h : (n : ℚ) < 2 ^ (Nat.log2 n + 1) := by exact_mod_cast Nat.lt_log2_self
    exact_mod_cast h
  have hd₁ : (2 : ℚ) ^ (Nat.log2 d : ℤ) ≤ d := by
    rw [zpow_natCast]
    exact_mod_cast Nat.log2_self_le (Nat.ne_of_gt hd)
  have hd₂ : (d : ℚ) < 2 ^ ((Nat.log2 d : ℤ) + 1) := by
    have h : (d : ℚ) < 2 ^ (Nat.log2 d + 1) := by exact_mod_cast Nat.lt_log2_self
    exact_mod_cast h
  have habove : (n / d : ℚ) < 2 ^ (guess + 1) := by
    rw [div_lt_iff₀ hdq]
    calc (n : ℚ) < 2 ^ ((Nat.log2 n : ℤ) + 1) := hn₂
      _ = 2 ^ (guess + 1) * 2 ^ (Nat.log2 d : ℤ) := by
        rw [← zpow_add₀ (by norm_num)]
        congr 1
        omega
      _ ≤ 2 ^ (guess + 1) * d := mul_le_mul_of_nonneg_left hd₁ (two_zpow_pos _).le
  have hbelow : (2 : ℚ) ^ (guess - 1) ≤ n / d := by
    rw [le_div_iff₀ hdq]
    calc (2 : ℚ) ^ (guess - 1) * d ≤ 2 ^ (guess - 1) * 2 ^ ((Nat.log2 d : ℤ) + 1) :=
          mul_le_mul_of_nonneg_left hd₂.le (two_zpow_pos _).le
      _ = 2 ^ (Nat.log2 n : ℤ) := by
        rw [← zpow_add₀ (by norm_num)]
        congr 1
        omega
      _ ≤ n := hn₁
  by_cases hle : powerLe n d guess = true
  · have htop : top = guess := if_pos hle
    rw [htop]
    exact ⟨(powerLe_iff hd).mp hle, habove⟩
  · have htop : top = guess - 1 := if_neg hle
    rw [htop, Int.sub_add_cancel]
    exact ⟨hbelow, not_le.mp fun h => hle ((powerLe_iff hd).mpr h)⟩

/-- A rounded quotient is within half a unit of the exact one, and closer unless it is even. -/
theorem divideEven_spec (n : Nat) (hd : 0 < d) :
    2 * (divideEven n d : ℚ) ≤ 2 * (n / d) + 1 ∧ 2 * (n / d : ℚ) ≤ 2 * divideEven n d + 1 ∧
      (divideEven n d % 2 ≠ 0 →
        2 * (divideEven n d : ℚ) < 2 * (n / d) + 1 ∧ 2 * (n / d : ℚ) < 2 * divideEven n d + 1) := by
  have hdq : (0 : ℚ) < d := by exact_mod_cast hd
  obtain ⟨habove, hbelow⟩ := divideEven_near n hd
  have hodd := mt (divideEven_tie (n := n) hd)
  generalize divideEven n d = m at *
  have hscale : (n / d : ℚ) * d = n := div_mul_cancel₀ _ hdq.ne'
  refine ⟨?_, ?_, fun odd => ⟨?_, ?_⟩⟩
  · rw [← mul_le_mul_iff_left₀ hdq, add_mul, mul_assoc, mul_assoc, hscale, one_mul]
    exact_mod_cast habove
  · rw [← mul_le_mul_iff_left₀ hdq, add_mul, mul_assoc, mul_assoc, hscale, one_mul]
    exact_mod_cast hbelow
  · rw [← mul_lt_mul_iff_left₀ hdq, add_mul, mul_assoc, mul_assoc, hscale, one_mul]
    exact_mod_cast lt_of_le_of_ne habove fun h => hodd odd (.inl h)
  · rw [← mul_lt_mul_iff_left₀ hdq, add_mul, mul_assoc, mul_assoc, hscale, one_mul]
    exact_mod_cast lt_of_le_of_ne hbelow fun h => hodd odd (.inr h)

/-- A quotient in units of a power of two, rounded. -/
theorem scaledQuotient_spec (n : Nat) (hd : 0 < d) (k : ℤ) :
    2 * (scaledQuotient n d k : ℚ) ≤ 2 * (n / d * 2 ^ k) + 1 ∧
      2 * (n / d * 2 ^ k : ℚ) ≤ 2 * scaledQuotient n d k + 1 ∧
      (scaledQuotient n d k % 2 ≠ 0 →
        2 * (scaledQuotient n d k : ℚ) < 2 * (n / d * 2 ^ k) + 1 ∧
          2 * (n / d * 2 ^ k : ℚ) < 2 * scaledQuotient n d k + 1) := by
  have hden : (0 : ℚ) < pow2 (-k).toNat := by exact_mod_cast pow2_pos _
  have hscale : ((n * pow2 k.toNat : Nat) : ℚ) / ((d * pow2 (-k).toNat : Nat) : ℚ) =
      n / d * 2 ^ k := by
    push_cast
    rw [← two_zpow_mul k]
    field_simp
  have hspec := divideEven_spec (n * pow2 k.toNat) (Nat.mul_pos hd (pow2_pos (-k).toNat))
  rw [hscale] at hspec
  exact hspec

/-- The lower bound of the interval is half a unit or a quarter below the number. -/
theorem lowerBound_cases (hx : x.Normal) :
    ((roundingBounds x).1 : ℚ) = 4 * x.mantissa - 2 ∨
      x.mantissa = 2 ^ 52 ∧ ((roundingBounds x).1 : ℚ) = 4 * x.mantissa - 1 := by
  have hle := hx.le_mantissa
  unfold roundingBounds
  dsimp only
  split
  · next boundary =>
    right
    rw [Bool.and_eq_true, decide_eq_true_eq] at boundary
    exact ⟨boundary.1, by rw [Nat.cast_sub (by omega)]; push_cast; rfl⟩
  · left
    rw [Nat.cast_sub (by omega)]
    push_cast
    rfl

theorem upperBound_eq (x : Double) : ((roundingBounds x).2 : ℚ) = 4 * x.mantissa + 2 := by
  unfold roundingBounds
  push_cast
  rfl

/-- A number whose mantissa is that of a rounded quotient is one that the quotient rounds to. -/
theorem rounds_of_mantissa {y : ℚ} (hx : x.Normal) (hq : q = y * 2 ^ x.exponent)
    (hle : (2 : ℚ) ^ 52 ≤ y) (habove : 2 * (x.mantissa : ℚ) ≤ 2 * y + 1)
    (hbelow : 2 * y ≤ 2 * x.mantissa + 1)
    (odd : x.mantissa % 2 ≠ 0 →
      2 * (x.mantissa : ℚ) < 2 * y + 1 ∧ 2 * y < 2 * x.mantissa + 1) : x.Rounds q := by
  have hunit := two_zpow_pos x.exponent
  have hfour : 4 * q = 4 * y * 2 ^ x.exponent := by rw [hq, mul_assoc]
  unfold Rounds
  rw [hfour, upperBound_eq, mul_le_mul_iff_left₀ hunit, mul_le_mul_iff_left₀ hunit,
    mul_lt_mul_iff_left₀ hunit, mul_lt_mul_iff_left₀ hunit]
  rcases lowerBound_cases hx with hlow | ⟨hpower, hlow⟩
  · rw [hlow]
    split
    · exact ⟨by linarith, by linarith⟩
    · next hodd =>
      obtain ⟨habove, hbelow⟩ := odd hodd
      exact ⟨by linarith, by linarith⟩
  · rw [hlow, if_pos (by rw [hpower]; rfl)]
    rw [hpower] at hbelow ⊢
    push_cast at hbelow ⊢
    exact ⟨by linarith, by linarith⟩

/-- A quotient just below a power of two is one that the power rounds to. -/
theorem rounds_of_carry {y : ℚ} {e : ℤ} (hx : x.Normal) (power : x.mantissa = 2 ^ 52)
    (hle : 2 ^ 54 - 1 ≤ 2 * y) (hlt : y < 2 ^ 53) (hexponent : x.exponent = e + 1)
    (hq : q = y * 2 ^ e) : x.Rounds q := by
  have hunit := two_zpow_pos x.exponent
  have hfour : 4 * q = 2 * y * 2 ^ x.exponent := by
    rw [hq, hexponent, zpow_add_one₀ (by norm_num)]
    ring
  unfold Rounds
  rw [hfour, upperBound_eq, mul_le_mul_iff_left₀ hunit, mul_le_mul_iff_left₀ hunit,
    if_pos (by rw [power]; rfl)]
  rcases lowerBound_cases hx with hlow | ⟨-, hlow⟩ <;>
  · rw [hlow, power]
    push_cast
    exact ⟨by linarith, by linarith⟩

/-- The number nearest to a quotient far from both ends of the range is one that it rounds to. -/
theorem exists_nearest (negative : Bool) (hn : 0 < n) (hd : 0 < d)
    (low : (2 : ℚ) ^ (-1000 : ℤ) ≤ n / d) (high : (n / d : ℚ) < 2 ^ (1000 : ℤ)) :
    ∃ x, nearest? negative n d = some x ∧ x.negative = negative ∧ x.Normal ∧ x.Rounds (n / d) := by
  obtain ⟨htop₁, htop₂⟩ := exists_top hn hd
  unfold nearest? nearestMagnitude?
  rw [if_neg (Nat.ne_of_gt hn)]
  dsimp only
  generalize (if powerLe n d ((Nat.log2 n : ℤ) - Nat.log2 d) then (Nat.log2 n : ℤ) - Nat.log2 d
    else (Nat.log2 n : ℤ) - Nat.log2 d - 1) = top at *
  have hlow : -1000 < top + 1 :=
    (zpow_lt_zpow_iff_right₀ (by norm_num)).mp (lt_of_le_of_lt low htop₂)
  have hhigh : top < 1000 := (zpow_lt_zpow_iff_right₀ (by norm_num)).mp (lt_of_le_of_lt htop₁ high)
  obtain ⟨e, rfl⟩ : ∃ e, top = e + 52 := ⟨top - 52, by omega⟩
  have hexponent : max (e + 52 - (precision - 1)) minExponent = e := by
    simp only [precision, minExponent]
    omega
  rw [hexponent]
  obtain ⟨habove, hbelow, hodd⟩ := scaledQuotient_spec n hd (-e)
  generalize scaledQuotient n d (-e) = m at *
  have hunit := two_zpow_pos e
  have hq : (n / d : ℚ) = n / d * 2 ^ (-e) * 2 ^ e := by
    rw [mul_assoc, ← zpow_add₀ (by norm_num), neg_add_cancel, zpow_zero, mul_one]
  have hy₁ : (2 : ℚ) ^ 52 ≤ n / d * 2 ^ (-e) := by
    rw [← mul_le_mul_iff_left₀ hunit, ← hq, ← zpow_natCast, ← zpow_add₀ (by norm_num), add_comm]
    exact htop₁
  have hy₂ : (n / d : ℚ) * 2 ^ (-e) < 2 ^ 53 := by
    rw [← mul_lt_mul_iff_left₀ hunit, ← hq, ← zpow_natCast, ← zpow_add₀ (by norm_num), add_comm]
    rw [add_assoc] at htop₂
    exact htop₂
  generalize (n / d : ℚ) * 2 ^ (-e) = y at *
  have hm₁ : 2 ^ 52 ≤ m := by
    have h : (2 ^ 53 : ℚ) - 1 ≤ 2 * m := by linarith
    have h' : 2 ^ 53 ≤ 2 * m + 1 := by exact_mod_cast (by linarith : (2 ^ 53 : ℚ) ≤ 2 * m + 1)
    omega
  have hm₂ : m ≤ 2 ^ 53 := by
    have h : 2 * m < 2 ^ 54 + 1 := by exact_mod_cast (by linarith : (2 * m : ℚ) < 2 ^ 54 + 1)
    omega
  by_cases hcarry : m = pow2 precision
  · have hx : Normal ⟨negative, pow2 (precision - 1), e + 1⟩ :=
      ⟨Nat.le_refl _, show 2 ^ 52 < 2 ^ 53 by decide, by simp only [minExponent]; omega⟩
    refine ⟨_, ?_, rfl, hx, rounds_of_carry hx rfl ?_ hy₂ rfl hq⟩
    · rw [if_pos hcarry, if_pos (by simp only [maxExponent]; omega)]
      rfl
    · rw [hcarry] at habove
      have hpower : (pow2 precision : ℚ) = 2 ^ 53 := cast_pow2 53
      linarith
  · have hx : Normal ⟨negative, m, e⟩ := by
      refine ⟨hm₁, lt_of_le_of_ne hm₂ hcarry, ?_⟩
      simp only [minExponent]
      omega
    refine ⟨_, ?_, rfl, hx, rounds_of_mantissa hx hq hy₁ habove hbelow hodd⟩
    rw [if_neg hcarry, if_pos (by simp only [maxExponent]; omega)]
    rfl

theorem numerator_pos (hx : 0 < x.magnitude) : 0 < x.numerator := by
  refine Nat.pos_of_ne_zero fun hzero => hx.ne' ?_
  rw [← numerator_div_denominator, hzero, Nat.cast_zero, zero_div]

/-- A product far from both ends of the range becomes a number that it rounds to. -/
theorem exists_mul {y : Double} (hx : 0 < x.magnitude) (hy : 0 < y.magnitude)
    (low : (2 : ℚ) ^ (-1000 : ℤ) ≤ x.magnitude * y.magnitude)
    (high : x.magnitude * y.magnitude < 2 ^ (1000 : ℤ)) :
    ∃ z, x.mul? y = some z ∧ z.negative = (x.negative != y.negative) ∧ z.Normal ∧
      z.Rounds (x.magnitude * y.magnitude) := by
  have hratio :
      ((x.numerator * y.numerator : Nat) : ℚ) / ((x.denominator * y.denominator : Nat) : ℚ) =
        x.magnitude * y.magnitude := by
    rw [Nat.cast_mul, Nat.cast_mul, mul_div_mul_comm, numerator_div_denominator,
      numerator_div_denominator]
  rw [← hratio] at low high ⊢
  exact exists_nearest _ (Nat.mul_pos (numerator_pos hx) (numerator_pos hy))
    (Nat.mul_pos (pow2_pos _) (pow2_pos _)) low high

/-- A quotient far from both ends of the range becomes a number that it rounds to. -/
theorem exists_div {y : Double} (hx : 0 < x.magnitude) (hy : 0 < y.magnitude)
    (low : (2 : ℚ) ^ (-1000 : ℤ) ≤ x.magnitude / y.magnitude)
    (high : x.magnitude / y.magnitude < 2 ^ (1000 : ℤ)) :
    ∃ z, x.div? y = some z ∧ z.negative = (x.negative != y.negative) ∧ z.Normal ∧
      z.Rounds (x.magnitude / y.magnitude) := by
  have hratio :
      ((x.numerator * y.denominator : Nat) : ℚ) / ((x.denominator * y.numerator : Nat) : ℚ) =
        x.magnitude / y.magnitude := by
    rw [Nat.cast_mul, Nat.cast_mul, ← div_div_div_eq, numerator_div_denominator,
      numerator_div_denominator]
  rw [← hratio] at low high ⊢
  exact exists_nearest _ (Nat.mul_pos (numerator_pos hx) (pow2_pos _))
    (Nat.mul_pos (pow2_pos _) (numerator_pos hy)) low high

/-- A natural number of no more bits than a mantissa is represented exactly. -/
theorem exists_ofNat (hn : 0 < n) (hlt : n < 2 ^ 53) :
    ∃ x, ofNat? n = some x ∧ x.negative = false ∧ x.magnitude = n := by
  have hlog : Nat.log2 n < 53 := (Nat.log2_lt (Nat.ne_of_gt hn)).mpr hlt
  have hone : Nat.log2 1 = 0 := by decide
  have hguess : powerLe n 1 ((Nat.log2 n : ℤ) - Nat.log2 1) = true := by
    have hle : (2 : ℚ) ^ Nat.log2 n ≤ n := by exact_mod_cast Nat.log2_self_le (Nat.ne_of_gt hn)
    rw [powerLe_iff Nat.one_pos, hone, Nat.cast_zero, sub_zero, zpow_natCast, Nat.cast_one,
      div_one]
    exact hle
  obtain ⟨k, hk⟩ := Nat.exists_eq_add_of_le (Nat.le_of_lt_succ hlog)
  have hexponent :
      max ((Nat.log2 n : ℤ) - Nat.log2 1 - (precision - 1)) minExponent = -(k : ℤ) := by
    simp only [precision, minExponent, hone]
    omega
  have hmantissa : scaledQuotient n 1 (-(-(k : ℤ))) = n * pow2 k := by
    rw [neg_neg, scaledQuotient, Int.toNat_natCast, Int.toNat_neg_natCast, pow2_zero, Nat.mul_one,
      divideEven_one]
  have hbits : n * pow2 k < pow2 precision := by
    have hpower : 2 ^ (Nat.log2 n + 1) * pow2 k = pow2 precision := by
      rw [show precision = Nat.log2 n + 1 + k by simp only [precision]; omega]
      exact (Nat.pow_add 2 _ _).symm
    rw [← hpower]
    exact Nat.mul_lt_mul_of_pos_right Nat.lt_log2_self (pow2_pos k)
  refine ⟨⟨false, n * pow2 k, -(k : ℤ)⟩, ?_, rfl, ?_⟩
  · unfold ofNat? nearest? nearestMagnitude?
    rw [if_neg (Nat.ne_of_gt hn)]
    dsimp only
    rw [if_pos hguess, hexponent, hmantissa, if_neg (Nat.ne_of_lt hbits),
      if_pos (by simp only [maxExponent]; omega)]
    rfl
  · rw [magnitude, Nat.cast_mul, cast_pow2, zpow_neg, zpow_natCast]
    field_simp

/-- The powers of ten up to the twenty-second are represented exactly. -/
theorem magnitude_powerOfTen {k : Nat} (hk : k ≤ 22) :
    (Json.powerOfTen k).magnitude = 10 ^ k ∧ (Json.powerOfTen k).negative = false := by
  have hall : ∀ k < 23, (Json.powerOfTen k).numerator = pow10 k * (Json.powerOfTen k).denominator ∧
      (Json.powerOfTen k).negative = false := by decide +kernel
  obtain ⟨hexact, hsign⟩ := hall k (Nat.lt_succ_of_le hk)
  refine ⟨?_, hsign⟩
  have hden : (0 : ℚ) < (Json.powerOfTen k).denominator := by exact_mod_cast pow2_pos _
  rw [← numerator_div_denominator, div_eq_iff hden.ne', ← cast_pow10]
  exact_mod_cast hexact

end Double

namespace Json

open Double

/-- Few digits and a small exponent denote a number far from both ends of the range. -/
theorem range_of_digits {n : Nat} {e : ℤ} (hn : 0 < n) (hlt : n < 2 ^ 53) (he : e.natAbs ≤ 22) :
    (2 : ℚ) ^ (-1000 : ℤ) ≤ n * 10 ^ e ∧ (n * 10 ^ e : ℚ) < 2 ^ (1000 : ℤ) := by
  have hone : (1 : ℚ) ≤ n := by exact_mod_cast hn
  have hbits : (n : ℚ) < 2 ^ (53 : ℤ) := by exact_mod_cast hlt
  have hlow : (10 : ℚ) ^ (-22 : ℤ) ≤ 10 ^ e := zpow_le_zpow_right₀ (by norm_num) (by omega)
  have hhigh : (10 : ℚ) ^ e ≤ 10 ^ (22 : ℤ) := zpow_le_zpow_right₀ (by norm_num) (by omega)
  constructor
  · calc (2 : ℚ) ^ (-1000 : ℤ) ≤ 2 ^ (-74 : ℤ) := zpow_le_zpow_right₀ (by norm_num) (by norm_num)
      _ ≤ 10 ^ (-22 : ℤ) := by norm_num
      _ ≤ 10 ^ e := hlow
      _ ≤ n * 10 ^ e := le_mul_of_one_le_left (ten_zpow_pos e).le hone
  · calc (n * 10 ^ e : ℚ) < 2 ^ (53 : ℤ) * 10 ^ e := mul_lt_mul_of_pos_right hbits (ten_zpow_pos e)
      _ ≤ 2 ^ (53 : ℤ) * 10 ^ (22 : ℤ) := mul_le_mul_of_nonneg_left hhigh (two_zpow_pos _).le
      _ ≤ 2 ^ (53 : ℤ) * 2 ^ (74 : ℤ) := by norm_num
      _ = 2 ^ (127 : ℤ) := by norm_num
      _ ≤ 2 ^ (1000 : ℤ) := zpow_le_zpow_right₀ (by norm_num) (by norm_num)

/-- Few digits and a small exponent become a number that what they denote rounds to. -/
theorem exists_double {n : Nat} {e : ℤ} (hn : 0 < n) (hlt : n < 2 ^ 53) (he : e.natAbs ≤ 22) :
    ∃ x, double? false n e = some x ∧ x.negative = false ∧ x.Normal ∧ x.Rounds (n * 10 ^ e) := by
  obtain ⟨start, hstart, hsign, hexact⟩ := exists_ofNat hn hlt
  obtain ⟨hlow, hhigh⟩ := range_of_digits hn hlt he
  obtain ⟨hpower, hplain⟩ := magnitude_powerOfTen he
  have hstart' : 0 < start.magnitude := by
    rw [hexact]
    exact_mod_cast hn
  have hpower' : 0 < (powerOfTen e.natAbs).magnitude := by
    rw [hpower]
    exact pow_pos (by norm_num) _
  unfold double?
  rw [hstart]
  dsimp only [Option.getD_some]
  by_cases hnonneg : 0 ≤ e
  · have hvalue : (n * 10 ^ e : ℚ) = start.magnitude * (powerOfTen e.natAbs).magnitude := by
      rw [hexact, hpower, ← zpow_natCast, Int.natAbs_of_nonneg hnonneg]
    rw [hvalue] at hlow hhigh ⊢
    obtain ⟨x, hx, hsign', hnormal, hrounds⟩ := exists_mul hstart' hpower' hlow hhigh
    have hk : e.toNat = e.natAbs := by omega
    refine ⟨x, ?_, by rw [hsign', hsign, hplain]; rfl, hnormal, hrounds⟩
    rw [if_pos hnonneg, hk, if_pos (by simp only [maxPower]; omega), hx]
    rfl
  · have hvalue : (n * 10 ^ e : ℚ) = start.magnitude / (powerOfTen e.natAbs).magnitude := by
      rw [hexact, hpower, ← zpow_natCast, Int.ofNat_natAbs_of_nonpos (by omega), zpow_neg,
        div_inv_eq_mul]
    rw [hvalue] at hlow hhigh ⊢
    obtain ⟨x, hx, hsign', hnormal, hrounds⟩ := exists_div hstart' hpower' hlow hhigh
    have hk : (-e).toNat = e.natAbs := by omega
    have hsteps : (e.natAbs - 1) / maxPower = 0 :=
      Nat.div_eq_of_lt (by simp only [maxPower]; omega)
    refine ⟨x, ?_, by rw [hsign', hsign, hplain]; rfl, hnormal, hrounds⟩
    rw [if_neg hnonneg, hk, hsteps, Nat.zero_mul, Nat.sub_zero, descend, divideByPower, hx]
    rfl

end Json

end Clearing
