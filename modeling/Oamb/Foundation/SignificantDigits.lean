import Mathlib.Analysis.Real.Sqrt
import Oamb.Foundation.DecimalContext

/-!
# Arithmetic with significant digits

A result is rounded half to even to a number of significant digits, with no bound on its exponent.
The rounded value is relatively close to the exact one (`abs_significant_sub_le`,
`abs_significantSqrt_sub_le`), the rounding keeps the order (`significant_mono`), and a rounded
value is not changed by another rounding (`significant_significant`).
-/

set_option autoImplicit false

namespace Oamb.Foundation.SignificantDigits

open DecimalContext

/-- The exponent of the last digit that is kept. -/
def lastExponent (digits : ℕ) (value : ℚ) : ℤ := Int.log 10 |value| + 1 - digits

/-- The value with its significant digits. -/
def significant (digits : ℕ) (value : ℚ) : ℚ :=
  roundHalfEven (value / 10 ^ lastExponent digits value) * 10 ^ lastExponent digits value

/-- The exponent of the last digit that is kept of a square root. -/
def rootExponent (digits : ℕ) (value : ℚ) : ℤ := Int.log 10 value / 2 + 1 - digits

/-- The integer that is nearest to a square root, ties to the even neighbour. -/
def nearestRoot (value : ℚ) : ℕ :=
  let lower := Nat.sqrt ⌊value⌋₊
  if value < (lower + 1 / 2) ^ 2 then lower
  else if (lower + 1 / 2 : ℚ) ^ 2 < value then lower + 1
  else if Even lower then lower
  else lower + 1

/-- The square root with its significant digits. -/
def significantSqrt (digits : ℕ) (value : ℚ) : ℚ :=
  nearestRoot (value / 10 ^ (2 * rootExponent digits value)) * 10 ^ rootExponent digits value

/-- The bound of the relative error. -/
def unitError (digits : ℕ) : ℚ := 10 ^ (1 - digits : ℤ) / 2

variable {digits : ℕ} {value other : ℚ}

/-! ### Nearest integers -/

theorem abs_roundHalfEven_sub_le (value : ℚ) : |(roundHalfEven value : ℚ) - value| ≤ 1 / 2 := by
  have hlower := Int.floor_le value
  have hupper := Int.lt_floor_add_one value
  rw [abs_le]
  simp only [roundHalfEven]
  split_ifs <;> push_cast <;> constructor <;> linarith

theorem roundHalfEven_mono (hle : value ≤ other) : roundHalfEven value ≤ roundHalfEven other := by
  rcases (Int.floor_mono hle).lt_or_eq with hlt | hsame
  · have hfirst : roundHalfEven value ≤ ⌊value⌋ + 1 := by
      simp only [roundHalfEven]
      split_ifs <;> omega
    have hsecond : ⌊other⌋ ≤ roundHalfEven other := by
      simp only [roundHalfEven]
      split_ifs <;> omega
    omega
  · simp only [roundHalfEven, hsame]
    split_ifs <;> first | omega | linarith

/-- Rounding does not cross an integer from below. -/
theorem roundHalfEven_le {bound : ℤ} (hle : value ≤ bound) : roundHalfEven value ≤ bound := by
  have hmono := roundHalfEven_mono hle
  rwa [roundHalfEven_intCast] at hmono

/-! ### Rounded values -/

theorem ten_zpow_pos (exponent : ℤ) : (0 : ℚ) < 10 ^ exponent := zpow_pos (by norm_num) _

@[simp] theorem significant_zero : significant digits 0 = 0 := by
  have hzero : roundHalfEven (0 : ℚ) = 0 := by
    simpa using roundHalfEven_intCast 0
  rw [significant, zero_div, hzero, Int.cast_zero, zero_mul]

/-- The last digit of a value is small. -/
theorem half_ten_zpow_le (hvalue : value ≠ 0) :
    10 ^ lastExponent digits value / 2 ≤ |value| * unitError digits := by
  have hlog : (10 : ℚ) ^ Int.log 10 |value| ≤ |value| := by
    exact_mod_cast Int.zpow_log_le_self (by norm_num) (abs_pos.mpr hvalue)
  have hsplit : (10 : ℚ) ^ lastExponent digits value =
      10 ^ Int.log 10 |value| * 10 ^ (1 - digits : ℤ) := by
    rw [← zpow_add₀ (by norm_num), lastExponent]
    congr 1
    ring
  calc 10 ^ lastExponent digits value / 2
    _ = 10 ^ Int.log 10 |value| * unitError digits := by rw [hsplit, unitError, mul_div_assoc]
    _ ≤ |value| * unitError digits :=
      mul_le_mul_of_nonneg_right hlog (div_nonneg (ten_zpow_pos _).le zero_le_two)

/-- The rounded value is close to the exact one. -/
theorem abs_significant_sub_le (digits : ℕ) (value : ℚ) :
    |significant digits value - value| ≤ |value| * unitError digits := by
  by_cases hvalue : value = 0
  · simp [hvalue]
  have hpos := ten_zpow_pos (lastExponent digits value)
  have hsplit : significant digits value - value =
      (roundHalfEven (value / 10 ^ lastExponent digits value) -
        value / 10 ^ lastExponent digits value) * 10 ^ lastExponent digits value := by
    rw [significant, sub_mul, div_mul_cancel₀ _ hpos.ne']
  calc |significant digits value - value|
    _ = |(roundHalfEven (value / 10 ^ lastExponent digits value) : ℚ) -
          value / 10 ^ lastExponent digits value| * 10 ^ lastExponent digits value := by
      rw [hsplit, abs_mul, abs_of_pos hpos]
    _ ≤ 1 / 2 * 10 ^ lastExponent digits value :=
      mul_le_mul_of_nonneg_right (abs_roundHalfEven_sub_le _) hpos.le
    _ ≤ |value| * unitError digits := by
      rw [one_div_mul_eq_div]
      exact half_ten_zpow_le hvalue

theorem unitError_lt_one (hdigits : 0 < digits) : unitError digits < 1 := by
  have hpower : (10 : ℚ) ^ (1 - digits : ℤ) ≤ 1 := zpow_le_one_of_nonpos₀ (by norm_num) (by omega)
  rw [unitError]
  linarith

/-- A positive value is rounded to a positive one. -/
theorem significant_pos (hdigits : 0 < digits) (hvalue : 0 < value) :
    0 < significant digits value := by
  have herror := abs_significant_sub_le digits value
  rw [abs_of_pos hvalue, abs_le] at herror
  have hsmall : value * unitError digits < value * 1 :=
    mul_lt_mul_of_pos_left (unitError_lt_one hdigits) hvalue
  linarith [herror.1]

/-- A negative value is rounded to a negative one. -/
theorem significant_neg (hdigits : 0 < digits) (hvalue : value < 0) :
    significant digits value < 0 := by
  have herror := abs_significant_sub_le digits value
  rw [abs_of_neg hvalue, abs_le] at herror
  have hsmall : -value * unitError digits < -value * 1 :=
    mul_lt_mul_of_pos_left (unitError_lt_one hdigits) (neg_pos.mpr hvalue)
  linarith [herror.2]

theorem significant_nonneg (hdigits : 0 < digits) (hvalue : 0 ≤ value) :
    0 ≤ significant digits value := by
  rcases hvalue.lt_or_eq with hpos | rfl
  · exact (significant_pos hdigits hpos).le
  · rw [significant_zero]

theorem significant_neg_iff (hdigits : 0 < digits) : significant digits value < 0 ↔ value < 0 := by
  refine ⟨fun hneg ↦ ?_, significant_neg hdigits⟩
  by_contra hvalue
  exact absurd (significant_nonneg hdigits (not_lt.mp hvalue)) (not_le.mpr hneg)

/-! ### Order -/

theorem ten_zpow_log_eq (hdigits : 0 < digits) (hvalue : 0 < value) :
    (10 : ℚ) ^ Int.log 10 value =
      ((10 ^ (digits - 1) : ℤ) : ℚ) * 10 ^ lastExponent digits value := by
  rw [lastExponent, abs_of_pos hvalue]
  push_cast
  rw [← zpow_natCast, ← zpow_add₀ (by norm_num)]
  congr 1
  omega

theorem ten_zpow_log_add_one_eq (hvalue : 0 < value) :
    (10 : ℚ) ^ (Int.log 10 value + 1) =
      ((10 ^ digits : ℤ) : ℚ) * 10 ^ lastExponent digits value := by
  rw [lastExponent, abs_of_pos hvalue]
  push_cast
  rw [← zpow_natCast, ← zpow_add₀ (by norm_num)]
  congr 1
  omega

/-- A positive value is not rounded below its first digit. -/
theorem ten_pow_le_count (hdigits : 0 < digits) (hvalue : 0 < value) :
    10 ^ (digits - 1) ≤ roundHalfEven (value / 10 ^ lastExponent digits value) := by
  have hlog : (10 : ℚ) ^ Int.log 10 value ≤ value := by
    exact_mod_cast Int.zpow_log_le_self (by norm_num) hvalue
  refine le_roundHalfEven ?_
  rwa [le_div_iff₀ (ten_zpow_pos _), ← ten_zpow_log_eq hdigits hvalue]

/-- A positive value is not rounded above the next power of ten. -/
theorem count_le_ten_pow (hvalue : 0 < value) :
    roundHalfEven (value / 10 ^ lastExponent digits value) ≤ 10 ^ digits := by
  have hlog : value < (10 : ℚ) ^ (Int.log 10 value + 1) := by
    exact_mod_cast Int.lt_zpow_succ_log_self (by norm_num) value
  refine roundHalfEven_le ?_
  rw [div_le_iff₀ (ten_zpow_pos _), ← ten_zpow_log_add_one_eq hvalue]
  exact hlog.le

theorem ten_zpow_le_significant (hdigits : 0 < digits) (hvalue : 0 < value) :
    10 ^ Int.log 10 value ≤ significant digits value := by
  rw [ten_zpow_log_eq hdigits hvalue, significant]
  exact mul_le_mul_of_nonneg_right (Int.cast_le.mpr (ten_pow_le_count hdigits hvalue))
    (ten_zpow_pos _).le

theorem significant_le_ten_zpow (hvalue : 0 < value) :
    significant digits value ≤ 10 ^ (Int.log 10 value + 1) := by
  rw [ten_zpow_log_add_one_eq hvalue, significant]
  exact mul_le_mul_of_nonneg_right (Int.cast_le.mpr (count_le_ten_pow hvalue))
    (ten_zpow_pos _).le

/-- Rounding keeps the order of values that are not negative. -/
theorem significant_mono (hdigits : 0 < digits) (hvalue : 0 ≤ value) (hle : value ≤ other) :
    significant digits value ≤ significant digits other := by
  rcases hvalue.lt_or_eq with hpos | rfl
  · have hother := hpos.trans_le hle
    rcases (Int.log_mono_right (b := 10) hpos hle).lt_or_eq with hlt | hsame
    · calc significant digits value
        _ ≤ 10 ^ (Int.log 10 value + 1) := significant_le_ten_zpow hpos
        _ ≤ 10 ^ Int.log 10 other := zpow_le_zpow_right₀ (by norm_num) (by omega)
        _ ≤ significant digits other := ten_zpow_le_significant hdigits hother
    · have hexponent : lastExponent digits value = lastExponent digits other := by
        rw [lastExponent, lastExponent, abs_of_pos hpos, abs_of_pos hother, hsame]
      have htest := ten_zpow_pos (lastExponent digits other)
      rw [significant, significant, hexponent]
      refine mul_le_mul_of_nonneg_right ?_ htest.le
      exact_mod_cast roundHalfEven_mono (div_le_div_of_nonneg_right hle htest.le)
  · rw [significant_zero]
    exact significant_nonneg hdigits hle

/-! ### Values that are kept -/

/-- A value of few digits is kept. -/
theorem significant_eq_of_abs_lt {count exponent : ℤ} (hcount : |count| < 10 ^ digits)
    (hvalue : value = count * 10 ^ exponent) : significant digits value = value := by
  by_cases hzero : value = 0
  · rw [hzero, significant_zero]
  have habs : |value| < 10 ^ (digits + exponent) := by
    rw [hvalue, abs_mul, abs_of_pos (ten_zpow_pos exponent), zpow_add₀ (by norm_num),
      zpow_natCast]
    refine mul_lt_mul_of_pos_right ?_ (ten_zpow_pos exponent)
    exact_mod_cast hcount
  have hlog : Int.log 10 |value| < digits + exponent :=
    (Int.lt_zpow_iff_log_lt (by norm_num) (abs_pos.mpr hzero)).mp (by exact_mod_cast habs)
  obtain ⟨shift, hshift⟩ : ∃ shift : ℕ, exponent = lastExponent digits value + shift :=
    ⟨(exponent - lastExponent digits value).toNat, by rw [lastExponent]; omega⟩
  have hpos := ten_zpow_pos (lastExponent digits value)
  have hinteger : value / 10 ^ lastExponent digits value = ((count * 10 ^ shift : ℤ) : ℚ) := by
    rw [div_eq_iff hpos.ne']
    push_cast
    rw [mul_assoc, ← zpow_natCast, ← zpow_add₀ (by norm_num), Int.add_comm, ← hshift, hvalue]
  rw [significant, hinteger, roundHalfEven_intCast, ← hinteger, div_mul_cancel₀ _ hpos.ne']

theorem significant_one (hdigits : 0 < digits) : significant digits 1 = 1 := by
  have hcount : |(1 : ℤ)| < 10 ^ digits := by
    rw [abs_one]
    exact one_lt_pow₀ (by norm_num) (by omega)
  have hone : (1 : ℚ) = (1 : ℤ) * 10 ^ (0 : ℤ) := by norm_num
  exact significant_eq_of_abs_lt hcount hone

theorem significant_significant (hdigits : 0 < digits) (hvalue : 0 ≤ value) :
    significant digits (significant digits value) = significant digits value := by
  rcases hvalue.lt_or_eq with hpos | rfl
  · have hfirst := ten_pow_le_count hdigits hpos
    have hnonneg : 0 ≤ roundHalfEven (value / 10 ^ lastExponent digits value) :=
      (pow_nonneg (by norm_num) _).trans hfirst
    have hlast : roundHalfEven (value / 10 ^ lastExponent digits value) ≤ 10 ^ digits :=
      count_le_ten_pow hpos
    rcases hlast.lt_or_eq with hlt | hsame
    · exact significant_eq_of_abs_lt (by rwa [abs_of_nonneg hnonneg]) rfl
    · -- The value is rounded to the next power of ten.
      have hcount : |(1 : ℤ)| < 10 ^ digits := by
        rw [abs_one]
        exact one_lt_pow₀ (by norm_num) (by omega)
      have hpower : significant digits value =
          (1 : ℤ) * 10 ^ (digits + lastExponent digits value) := by
        rw [significant, hsame, zpow_add₀ (by norm_num)]
        push_cast
        rw [one_mul, zpow_natCast]
      exact significant_eq_of_abs_lt hcount hpower
  · rw [significant_zero, significant_zero]

/-! ### Square roots -/

/-- The root of a value lies between the root of its floor and the next integer. -/
theorem root_bounds (hvalue : 0 ≤ value) :
    (Nat.sqrt ⌊value⌋₊ : ℝ) ≤ √value ∧ √value < Nat.sqrt ⌊value⌋₊ + 1 := by
  have hlower : (Nat.sqrt ⌊value⌋₊ : ℚ) ^ 2 ≤ value :=
    calc (Nat.sqrt ⌊value⌋₊ : ℚ) ^ 2
      _ ≤ (⌊value⌋₊ : ℚ) := by exact_mod_cast Nat.sqrt_le' _
      _ ≤ value := Nat.floor_le hvalue
  have hupper : value < (Nat.sqrt ⌊value⌋₊ + 1 : ℚ) ^ 2 :=
    calc value
      _ < (⌊value⌋₊ + 1 : ℕ) := by exact_mod_cast Nat.lt_floor_add_one value
      _ ≤ (Nat.sqrt ⌊value⌋₊ + 1 : ℚ) ^ 2 := by exact_mod_cast Nat.lt_succ_sqrt' _
  constructor
  · exact Real.le_sqrt_of_sq_le (by exact_mod_cast hlower)
  · exact (Real.sqrt_lt' (by positivity)).mpr (by exact_mod_cast hupper)

theorem abs_nearestRoot_sub_le (hvalue : 0 ≤ value) :
    |(nearestRoot value : ℝ) - √value| ≤ 1 / 2 := by
  obtain ⟨hlower, hupper⟩ := root_bounds hvalue
  have hbelow (hlt : value ≤ (Nat.sqrt ⌊value⌋₊ + 1 / 2 : ℚ) ^ 2) :
      |(Nat.sqrt ⌊value⌋₊ : ℝ) - √value| ≤ 1 / 2 := by
    have hroot : √value ≤ Nat.sqrt ⌊value⌋₊ + 1 / 2 := by
      have hsquare := (Rat.cast_le (K := ℝ)).mpr hlt
      push_cast at hsquare
      exact Real.sqrt_le_iff.mpr ⟨by positivity, hsquare⟩
    rw [abs_le]
    constructor <;> linarith
  have habove (hlt : (Nat.sqrt ⌊value⌋₊ + 1 / 2 : ℚ) ^ 2 ≤ value) :
      |((Nat.sqrt ⌊value⌋₊ + 1 : ℕ) : ℝ) - √value| ≤ 1 / 2 := by
    have hroot : Nat.sqrt ⌊value⌋₊ + 1 / 2 ≤ √(value : ℝ) := by
      have hsquare := (Rat.cast_le (K := ℝ)).mpr hlt
      push_cast at hsquare
      exact Real.le_sqrt_of_sq_le hsquare
    rw [abs_le]
    push_cast
    constructor <;> linarith
  unfold nearestRoot
  dsimp only
  split_ifs with hlt hgt
  · exact hbelow hlt.le
  · exact habove hgt.le
  · exact hbelow (not_lt.mp hgt)
  · exact habove (not_lt.mp hlt)

/-- The last digit of a root is small. -/
theorem half_ten_zpow_le_sqrt (hvalue : 0 < value) :
    ((10 ^ rootExponent digits value / 2 : ℚ) : ℝ) ≤ √value * unitError digits := by
  have hlog : (10 : ℚ) ^ Int.log 10 value ≤ value := by
    exact_mod_cast Int.zpow_log_le_self (by norm_num) hvalue
  have hsquare : ((10 : ℚ) ^ (Int.log 10 value / 2)) ^ 2 ≤ value := by
    rw [← zpow_natCast, ← zpow_mul]
    exact (zpow_le_zpow_right₀ (by norm_num) (by push_cast; omega)).trans hlog
  have hroot : (((10 : ℚ) ^ (Int.log 10 value / 2) : ℚ) : ℝ) ≤ √value :=
    Real.le_sqrt_of_sq_le (by exact_mod_cast hsquare)
  have hsplit : (10 : ℚ) ^ rootExponent digits value / 2 =
      10 ^ (Int.log 10 value / 2) * unitError digits := by
    rw [unitError, ← mul_div_assoc, ← zpow_add₀ (by norm_num), rootExponent]
    congr 2
    ring
  have hunit : (0 : ℝ) ≤ (unitError digits : ℚ) := by
    exact_mod_cast div_nonneg (ten_zpow_pos _).le zero_le_two
  rw [hsplit, Rat.cast_mul]
  exact mul_le_mul_of_nonneg_right hroot hunit

/-- The rounded root is close to the exact one. -/
theorem abs_significantSqrt_sub_le (digits : ℕ) (hvalue : 0 ≤ value) :
    |(significantSqrt digits value : ℝ) - √value| ≤ √value * unitError digits := by
  rcases hvalue.lt_or_eq with hpos | rfl
  · have hpower : (0 : ℚ) < 10 ^ rootExponent digits value := ten_zpow_pos _
    have hcast : (0 : ℝ) < (10 ^ rootExponent digits value : ℚ) := by exact_mod_cast hpower
    generalize hscaled : value / 10 ^ (2 * rootExponent digits value) = scaled
    have hnonneg : 0 ≤ scaled := hscaled ▸ div_nonneg hvalue (ten_zpow_pos _).le
    have hroot : √(value : ℝ) = √(scaled : ℝ) * (10 ^ rootExponent digits value : ℚ) := by
      have hparts : (value : ℝ) = scaled * ((10 ^ rootExponent digits value : ℚ) : ℝ) ^ 2 := by
        have hrat : value = scaled * (10 ^ rootExponent digits value) ^ 2 := by
          rw [← hscaled, ← zpow_natCast, ← zpow_mul, mul_comm _ ((2 : ℕ) : ℤ)]
          exact (div_mul_cancel₀ _ (ten_zpow_pos _).ne').symm
        exact_mod_cast congrArg (Rat.cast (K := ℝ)) hrat
      rw [hparts, Real.sqrt_mul (by exact_mod_cast hnonneg), Real.sqrt_sq hcast.le]
    have hsplit : (significantSqrt digits value : ℝ) - √value =
        (nearestRoot scaled - √scaled) * (10 ^ rootExponent digits value : ℚ) := by
      rw [significantSqrt, hscaled, hroot, sub_mul]
      push_cast
      rfl
    calc |(significantSqrt digits value : ℝ) - √value|
      _ = |(nearestRoot scaled : ℝ) - √scaled| * (10 ^ rootExponent digits value : ℚ) := by
        rw [hsplit, abs_mul, abs_of_pos hcast]
      _ ≤ 1 / 2 * (10 ^ rootExponent digits value : ℚ) :=
        mul_le_mul_of_nonneg_right (abs_nearestRoot_sub_le hnonneg) hcast.le
      _ = ((10 ^ rootExponent digits value / 2 : ℚ) : ℝ) := by
        push_cast
        ring
      _ ≤ √value * unitError digits := half_ten_zpow_le_sqrt hpos
  · have hroot : significantSqrt digits 0 = 0 := by
      have hnearest : nearestRoot 0 = 0 := by decide +kernel
      rw [significantSqrt, zero_div, hnearest, Nat.cast_zero, zero_mul]
    simp [hroot]

end Oamb.Foundation.SignificantDigits
