import Mathlib.Algebra.Order.Field.Basic
import Mathlib.Algebra.Order.Field.Power
import Mathlib.Algebra.Order.Ring.Rat
import Mathlib.Tactic.Linarith
import Mathlib.Tactic.NormNum
import ModelSchema.Proofs.Spelling

namespace ModelSchema

namespace Double

/-- Half a unit above the greatest double, `(2 ^ 53 - 1) · 2 ^ 971`. From there on the nearest
double is an infinity. -/
def overflow : ℚ := (2 ^ 54 - 1) * 2 ^ 970

theorem overflow_eq : overflow = (2 ^ 53 - 1 / 2) * 2 ^ (971 : Int) := by
  have hunit : (2 : ℚ) ^ (971 : Int) = 2 ^ 970 * 2 := by
    rw [← pow_succ]
    exact zpow_ofNat 2 971
  rw [overflow, hunit]
  generalize (2 : ℚ) ^ 970 = p
  ring

theorem two_pow_le_overflow : (2 : ℚ) ^ (1023 : Int) ≤ overflow := by
  have hpow : (2 : ℚ) ^ (1023 : Int) = 2 ^ (52 : Int) * 2 ^ (971 : Int) := by
    rw [← zpow_add₀ (by norm_num)]
    rfl
  rw [overflow_eq, hpow]
  apply mul_le_mul_of_nonneg_right
  · norm_num
  · exact (zpow_pos (by norm_num) _).le

theorem two_pow_top : (2 : ℚ) ^ (1024 : Int) = 2 ^ 53 * 2 ^ (971 : Int) := by
  rw [← zpow_natCast, ← zpow_add₀ (by norm_num)]
  rfl

theorem overflow_le_two_pow : overflow ≤ (2 : ℚ) ^ (1024 : Int) := by
  rw [overflow_eq, two_pow_top]
  apply mul_le_mul_of_nonneg_right
  · norm_num
  · exact (zpow_pos (by norm_num) _).le

/-- A double that a magnitude may be rounded to: finite below the overflow only. -/
inductive Rounded (negative : Bool) (q : ℚ) : Double → Prop
  | finite {m : Nat} {e : Int} (h : q < overflow) : Rounded negative q (.finite negative m e)
  | infinite (h : overflow ≤ q) : Rounded negative q (.infinite negative)

variable {negative : Bool} {num den : Nat} {e : Int}

theorem Rounded.isFinite_iff {q : ℚ} {x : Double} (h : Rounded negative q x) :
    x.isFinite = true ↔ q < overflow := by
  cases h with
  | finite h => simp [isFinite, ratio?, h]
  | infinite h => simp [isFinite, ratio?, h]

theorem Rounded.eq_infinite {q : ℚ} {x : Double} (h : Rounded negative q x) (hover : overflow ≤ q) :
    x = .infinite negative := by
  cases h with
  | finite h => exact absurd hover (not_le.mpr h)
  | infinite => rfl

theorem Rounded.ne_nan {q : ℚ} {x : Double} (h : Rounded negative q x) : x ≠ .nan := by
  cases h with
  | finite => simp
  | infinite => simp

theorem scale_pos (hden : 0 < den) (e : Int) : 0 < (scale num den e).2 := by
  unfold scale
  split
  · exact hden
  · exact Nat.mul_pos hden (Nat.pow_pos (by decide))

theorem zpow_of_nonneg (b : Nat) (he : 0 ≤ e) :
    (b : ℚ) ^ e = (Nat.pow b e.natAbs : Nat) := by
  rw [Nat.pow_eq, Nat.cast_pow, ← zpow_natCast, Int.natAbs_of_nonneg he]

theorem zpow_of_neg (b : Nat) (he : e < 0) :
    (b : ℚ) ^ e = ((Nat.pow b e.natAbs : Nat) : ℚ)⁻¹ := by
  rw [Nat.pow_eq, Nat.cast_pow, ← zpow_natCast, ← zpow_neg, Int.ofNat_natAbs_of_nonpos he.le,
    Int.neg_neg]

theorem scale_ratio (num den : Nat) (e : Int) :
    ((scale num den e).1 : ℚ) / (scale num den e).2 = num / den / 2 ^ e := by
  unfold scale
  split
  · rename_i hneg
    have hpow := zpow_of_neg 2 hneg
    rw [Nat.cast_ofNat] at hpow
    rw [hpow, Nat.cast_mul, div_inv_eq_mul, mul_div_right_comm]
  · rename_i hneg
    have hpow := zpow_of_nonneg 2 (Int.not_lt.mp hneg)
    rw [Nat.cast_ofNat] at hpow
    rw [hpow, Nat.cast_mul, div_div]

theorem scale_le_iff (num : Nat) (hden : 0 < den) (e : Int) :
    (scale num den e).2 ≤ (scale num den e).1 ↔ (2 : ℚ) ^ e ≤ num / den := by
  have hpos : (0 : ℚ) < (scale num den e).2 := Nat.cast_pos.mpr (scale_pos hden e)
  have htwo : (0 : ℚ) < 2 ^ e := zpow_pos (by norm_num) e
  rw [← Nat.cast_le (α := ℚ), ← one_le_div hpos, scale_ratio, one_le_div htwo]

theorem log2_bounds {n : Nat} (hn : 0 < n) :
    (2 : ℚ) ^ (n.log2 : Int) ≤ n ∧ (n : ℚ) < 2 ^ ((n.log2 : Int) + 1) := by
  constructor
  · rw [zpow_natCast]
    exact_mod_cast Nat.log2_self_le (Nat.pos_iff_ne_zero.mp hn)
  · exact_mod_cast Nat.lt_log2_self (n := n)

/-- The exponents of the numerator and of the denominator give that of the ratio up to one. -/
theorem log2_sub_bounds (hnum : 0 < num) (hden : 0 < den) :
    (2 : ℚ) ^ ((num.log2 : Int) - den.log2 - 1) ≤ num / den ∧
      (num : ℚ) / den < 2 ^ ((num.log2 : Int) - den.log2 + 1) := by
  have hd : (0 : ℚ) < den := Nat.cast_pos.mpr hden
  have htwo : (2 : ℚ) ≠ 0 := by norm_num
  obtain ⟨hnlow, hnhigh⟩ := log2_bounds hnum
  obtain ⟨hdlow, hdhigh⟩ := log2_bounds hden
  have hpow (e : Int) : (0 : ℚ) < 2 ^ e := zpow_pos (by norm_num) e
  constructor
  · rw [le_div_iff₀ hd]
    calc (2 : ℚ) ^ ((num.log2 : Int) - den.log2 - 1) * den
        ≤ 2 ^ ((num.log2 : Int) - den.log2 - 1) * 2 ^ ((den.log2 : Int) + 1) :=
          mul_le_mul_of_nonneg_left hdhigh.le (hpow _).le
      _ = 2 ^ (num.log2 : Int) := by
          rw [← zpow_add₀ htwo]
          congr 1
          omega
      _ ≤ num := hnlow
  · rw [div_lt_iff₀ hd]
    calc (num : ℚ) < 2 ^ ((num.log2 : Int) + 1) := hnhigh
      _ = 2 ^ ((num.log2 : Int) - den.log2 + 1) * 2 ^ (den.log2 : Int) := by
          rw [← zpow_add₀ htwo]
          congr 1
          omega
      _ ≤ 2 ^ ((num.log2 : Int) - den.log2 + 1) * den :=
          mul_le_mul_of_nonneg_left hdlow (hpow _).le

/-- The binary exponent of a ratio. -/
theorem log2Ratio_spec (hnum : 0 < num) (hden : 0 < den) :
    (2 : ℚ) ^ log2Ratio num den ≤ num / den ∧ (num : ℚ) / den < 2 ^ (log2Ratio num den + 1) := by
  obtain ⟨hlow, hhigh⟩ := log2_sub_bounds hnum hden
  have hcompare := scale_le_iff num hden ((num.log2 : Int) - den.log2)
  simp only [log2Ratio]
  split
  · rename_i hle
    exact ⟨hcompare.mp hle, hhigh⟩
  · rename_i hle
    rw [Int.sub_add_cancel]
    exact ⟨hlow, lt_of_not_ge fun h => hle (hcompare.mpr h)⟩

/-- A quotient half way below an even number is rounded up to it. -/
theorem le_roundDiv_iff (hden : 0 < den) {m : Nat} (heven : m % 2 = 0) :
    m ≤ roundDiv num den ↔ 2 * (m * den) ≤ 2 * num + den := by
  have hsplit : num = num / den * den + num % den := by
    rw [Nat.mul_comm]
    exact (Nat.div_add_mod num den).symm
  have hrest : num % den < den := Nat.mod_lt num hden
  have hround : roundDiv num den = num / den ∧ 2 * (num % den) < den ∨
      roundDiv num den = num / den + (num / den) % 2 ∧ 2 * (num % den) = den ∨
      roundDiv num den = num / den + 1 ∧ den < 2 * (num % den) := by
    simp only [roundDiv]
    split
    · omega
    · split
      · omega
      · omega
  rcases Nat.lt_trichotomy m (num / den + 1) with hm | hm | hm
  · have hmul : m * den ≤ num / den * den := Nat.mul_le_mul_right den (Nat.lt_succ_iff.mp hm)
    omega
  · have hmul : m * den = num / den * den + den := by rw [hm, Nat.succ_mul]
    omega
  · have hmul : (num / den + 2) * den ≤ m * den := Nat.mul_le_mul_right den hm
    rw [Nat.add_mul] at hmul
    omega

theorem roundDiv_le {m : Nat} (h : num < m * den) : roundDiv num den ≤ m := by
  have hquotient : num / den < m := Nat.div_lt_of_lt_mul (Nat.mul_comm m den ▸ h)
  simp only [roundDiv]
  split
  · omega
  · split
    · omega
    · omega

theorem normal_of_lt (h : e < 971) (m : Nat) :
    ∃ n f, normal negative m e = .finite negative n f := by
  unfold normal
  split
  · exact ⟨_, _, rfl⟩
  · exact ⟨_, _, if_neg (by omega)⟩

theorem normal_of_gt (h : 971 < e) (m : Nat) : normal negative m e = .infinite negative := by
  unfold normal
  split
  · exact if_neg (by omega)
  · rfl

theorem normal_of_ne {m : Nat} (h : m ≠ 2 ^ 53) :
    normal negative m 971 = .finite negative m 971 := by
  unfold normal
  split
  · rename_i hm
    exact absurd hm h
  · rfl

/-- With the greatest exponent the significand is rounded up to `2 ^ 53` from the overflow on. -/
theorem le_roundDiv_scale (num : Nat) (hden : 0 < den) :
    2 ^ 53 ≤ roundDiv (scale num den 971).1 (scale num den 971).2 ↔ overflow ≤ num / den := by
  have hs : (0 : ℚ) < (scale num den 971).2 := Nat.cast_pos.mpr (scale_pos hden 971)
  have hunit : (0 : ℚ) < 2 ^ (971 : Int) := zpow_pos (by norm_num) _
  rw [overflow_eq, ← le_div_iff₀ hunit, ← scale_ratio, le_div_iff₀ hs,
    le_roundDiv_iff (scale_pos hden 971) (by decide), ← Nat.cast_le (α := ℚ)]
  push_cast
  constructor
  · intro h
    linarith
  · intro h
    linarith

theorem roundDiv_scale_le (hden : 0 < den) (h : (num : ℚ) / den < 2 ^ 53 * 2 ^ e) :
    roundDiv (scale num den e).1 (scale num den e).2 ≤ 2 ^ 53 := by
  have hs : (0 : ℚ) < (scale num den e).2 := Nat.cast_pos.mpr (scale_pos hden e)
  apply roundDiv_le
  have hlt : ((scale num den e).1 : ℚ) / (scale num den e).2 < 2 ^ 53 := by
    rw [scale_ratio, div_lt_iff₀ (zpow_pos (by norm_num) e)]
    exact h
  rw [div_lt_iff₀ hs] at hlt
  exact_mod_cast hlt

/-- A ratio is rounded to a finite double exactly if it is below the overflow. -/
theorem rounded_ofRatio (negative : Bool) (num : Nat) (hden : 0 < den) :
    Rounded negative (num / den) (ofRatio negative num den) := by
  rcases Nat.eq_zero_or_pos num with rfl | hnum
  · apply Rounded.finite
    rw [Nat.cast_zero, zero_div]
    exact lt_of_lt_of_le (zpow_pos (by norm_num) _) two_pow_le_overflow
  · obtain ⟨hlow, hhigh⟩ := log2Ratio_spec hnum hden
    have htwo : (1 : ℚ) ≤ 2 := by norm_num
    rw [ofRatio, if_neg (Nat.pos_iff_ne_zero.mp hnum)]
    dsimp only
    rcases Int.lt_trichotomy (log2Ratio num den) 1023 with hk | hk | hk
    · -- the exponent leaves room for a carry
      have he : max (log2Ratio num den - 52) (-1074) < 971 := by omega
      obtain ⟨m, f, hfinite⟩ := normal_of_lt he _
      rw [hfinite]
      apply Rounded.finite
      calc (num : ℚ) / den < 2 ^ (log2Ratio num den + 1) := hhigh
        _ ≤ 2 ^ (1023 : Int) := zpow_le_zpow_right₀ htwo (by omega)
        _ ≤ overflow := two_pow_le_overflow
    · -- the greatest exponent: the rounding decides
      have he : max (log2Ratio num den - 52) (-1074) = 971 := by omega
      rw [hk] at hhigh
      have hle := roundDiv_scale_le hden (two_pow_top ▸ hhigh)
      have hcarry := le_roundDiv_scale num hden
      rw [he]
      by_cases hover : overflow ≤ num / den
      · rw [Nat.le_antisymm hle (hcarry.mpr hover)]
        exact .infinite hover
      · rw [normal_of_ne fun h => hover (hcarry.mp h.ge)]
        exact .finite (not_le.mp hover)
    · have he : 971 < max (log2Ratio num den - 52) (-1074) := by omega
      rw [normal_of_gt he]
      apply Rounded.infinite
      calc overflow ≤ 2 ^ (1024 : Int) := overflow_le_two_pow
        _ ≤ 2 ^ log2Ratio num den := zpow_le_zpow_right₀ htwo (by omega)
        _ ≤ num / den := hlow

theorem overflow_le_ten_pow : overflow ≤ (10 : ℚ) ^ (310 : Int) := by
  have hpow : 2 ^ 1024 ≤ 10 ^ 310 := by decide +kernel
  calc overflow ≤ (2 : ℚ) ^ (1024 : Int) := overflow_le_two_pow
    _ = ((2 ^ 1024 : Nat) : ℚ) := by
        rw [Nat.cast_pow]
        exact zpow_ofNat 2 1024
    _ ≤ ((10 ^ 310 : Nat) : ℚ) := Nat.cast_le.mpr hpow
    _ = (10 : ℚ) ^ (310 : Int) := by
        rw [Nat.cast_pow]
        exact (zpow_ofNat 10 310).symm

/-- Each three bits fit into a decimal digit. -/
theorem lt_ten_pow_log2 (n : Nat) : n < 10 ^ (n.log2 / 3 + 1) :=
  calc n < 2 ^ (n.log2 + 1) := Nat.lt_log2_self
    _ ≤ 2 ^ (3 * (n.log2 / 3 + 1)) := Nat.pow_le_pow_right (by decide) (by omega)
    _ = 8 ^ (n.log2 / 3 + 1) := by rw [Nat.pow_mul]
    _ ≤ 10 ^ (n.log2 / 3 + 1) := Nat.pow_le_pow_left (by decide) _

theorem one_le_overflow : 1 ≤ overflow :=
  le_trans (one_le_zpow₀ (by norm_num) (by decide)) two_pow_le_overflow

/-- The powers of ten that are too large to be worked out reach the overflow. -/
theorem overflow_le_decimal {digits : Nat} (hdigits : digits ≠ 0) {exponent : Int}
    (hlarge : 310 < exponent) : overflow ≤ digits * 10 ^ exponent := by
  have hten : (1 : ℚ) ≤ 10 := by norm_num
  have hone : (1 : ℚ) ≤ digits := Nat.one_le_cast.mpr (Nat.pos_iff_ne_zero.mpr hdigits)
  have hpos : (0 : ℚ) < 10 ^ exponent := zpow_pos (by norm_num) _
  calc overflow ≤ (10 : ℚ) ^ (310 : Int) := overflow_le_ten_pow
    _ ≤ 10 ^ exponent := zpow_le_zpow_right₀ hten hlarge.le
    _ ≤ digits * 10 ^ exponent := le_mul_of_one_le_left hpos.le hone

theorem decimal_lt_overflow {digits : Nat} {exponent : Int}
    (hsmall : (digits.log2 / 3 + 1 : Int) + exponent < -330) :
    digits * 10 ^ exponent < overflow := by
  have hten : (1 : ℚ) ≤ 10 := by norm_num
  have hpos : (0 : ℚ) < 10 ^ exponent := zpow_pos (by norm_num) _
  have hdigits : (digits : ℚ) < 10 ^ ((digits.log2 / 3 + 1 : Nat) : Int) := by
    exact_mod_cast lt_ten_pow_log2 digits
  calc (digits : ℚ) * 10 ^ exponent
      < 10 ^ ((digits.log2 / 3 + 1 : Nat) : Int) * 10 ^ exponent :=
        mul_lt_mul_of_pos_right hdigits hpos
    _ = 10 ^ (((digits.log2 / 3 + 1 : Nat) : Int) + exponent) := by
        rw [← zpow_add₀ (by norm_num)]
    _ ≤ 1 := zpow_le_one_of_nonpos₀ hten (by omega)
    _ ≤ overflow := one_le_overflow

/-- A decimal is rounded to a finite double exactly if it is below the overflow. -/
theorem rounded_ofDecimal (negative : Bool) (digits : Nat) (exponent : Int) :
    Rounded negative (digits * 10 ^ exponent) (ofDecimal negative digits exponent) := by
  unfold ofDecimal
  split
  · rename_i hzero
    apply Rounded.finite
    rw [hzero, Nat.cast_zero, zero_mul]
    exact lt_of_lt_of_le one_pos one_le_overflow
  · rename_i hzero
    split
    · rename_i hlarge
      exact .infinite (overflow_le_decimal hzero hlarge)
    · split
      · rename_i hnonneg
        have hround := rounded_ofRatio negative (digits * Nat.pow 10 exponent.natAbs) Nat.one_pos
        have hpow := zpow_of_nonneg 10 hnonneg
        rwa [Nat.cast_one, div_one, Nat.cast_mul, ← hpow] at hround
      · rename_i hneg
        split
        · rename_i hsmall
          exact .finite (decimal_lt_overflow hsmall)
        · have hden : 0 < Nat.pow 10 exponent.natAbs := Nat.pow_pos (by decide)
          have hround := rounded_ofRatio negative digits hden
          have hpow := zpow_of_neg 10 (Int.not_le.mp hneg)
          rwa [div_eq_mul_inv, ← hpow] at hround

end Double

namespace Numeral

/-- The digits on both sides of the point. -/
def significand (n : Numeral) : Nat := Text.decimal (n.whole ++ n.fraction.getD [])

/-- The power of ten that the last digit counts. -/
def scale (n : Numeral) : Int :=
  (match n.exponent with
    | some (negative, digits) => signed negative (Text.decimal digits)
    | none => 0) - (n.fraction.getD []).length

/-- The value of a numeral without its sign. -/
def magnitude (n : Numeral) : ℚ := n.significand * 10 ^ n.scale

/-- A numeral names a finite double exactly if its magnitude is below the overflow. -/
theorem rounded_toDouble (n : Numeral) : Double.Rounded n.negative n.magnitude n.toDouble := by
  have hround := Double.rounded_ofDecimal n.negative n.significand n.scale
  unfold toDouble
  simp only [Text.digitsValue_zero]
  exact hround

end Numeral

end ModelSchema
