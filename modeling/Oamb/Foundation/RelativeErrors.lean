import Oamb.Foundation.SignificantDigits

/-!
# Relative errors

A computed value is near an exact one when each is at most the other one but for some factors that
are close to one. Products, quotients, sums and roots of near values are near, and one rounding adds
one factor. Only values that are not negative are near each other, so a difference is outside of
this calculus.
-/

set_option autoImplicit false

namespace Oamb.Foundation.RelativeErrors

open SignificantDigits

/-- The factor of one rounding. -/
noncomputable def roundingFactor (digits : ℕ) : ℝ := 1 + 2 * (unitError digits : ℚ)

/-- The values agree but for the factors of some roundings. -/
structure Near (digits steps : ℕ) (computed : ℚ) (exact : ℝ) : Prop where
  nonneg : 0 ≤ exact
  upper : (computed : ℝ) ≤ roundingFactor digits ^ steps * exact
  lower : exact ≤ roundingFactor digits ^ steps * computed

variable {digits steps more : ℕ} {computed second : ℚ} {exact other : ℝ}

theorem unitError_pos (digits : ℕ) : 0 < unitError digits :=
  div_pos (ten_zpow_pos _) zero_lt_two

theorem one_le_roundingFactor (digits : ℕ) : 1 ≤ roundingFactor digits := by
  have hunit : (0 : ℝ) < (unitError digits : ℚ) := by exact_mod_cast unitError_pos digits
  rw [roundingFactor]
  linarith

theorem roundingFactor_pos (digits : ℕ) : 0 < roundingFactor digits :=
  zero_lt_one.trans_le (one_le_roundingFactor digits)

theorem one_le_roundingFactor_pow (digits steps : ℕ) : 1 ≤ roundingFactor digits ^ steps :=
  one_le_pow₀ (one_le_roundingFactor digits)

theorem roundingFactor_pow_pos (digits steps : ℕ) : 0 < roundingFactor digits ^ steps :=
  pow_pos (roundingFactor_pos digits) steps

/-! ### Near values -/

namespace Near

theorem refl (hcomputed : 0 ≤ computed) : Near digits 0 computed computed where
  nonneg := by exact_mod_cast hcomputed
  upper := by rw [pow_zero, one_mul]
  lower := by rw [pow_zero, one_mul]

theorem computed_nonneg (hnear : Near digits steps computed exact) : 0 ≤ computed := by
  have hreal : (0 : ℝ) ≤ computed :=
    nonneg_of_mul_nonneg_right (hnear.nonneg.trans hnear.lower) (roundingFactor_pow_pos ..)
  exact_mod_cast hreal

theorem cast_nonneg (hnear : Near digits steps computed exact) : (0 : ℝ) ≤ computed := by
  exact_mod_cast hnear.computed_nonneg

theorem mono (hnear : Near digits steps computed exact) (hle : steps ≤ more) :
    Near digits more computed exact where
  nonneg := hnear.nonneg
  upper := hnear.upper.trans (mul_le_mul_of_nonneg_right
    (pow_le_pow_right₀ (one_le_roundingFactor digits) hle) hnear.nonneg)
  lower := hnear.lower.trans (mul_le_mul_of_nonneg_right
    (pow_le_pow_right₀ (one_le_roundingFactor digits) hle) hnear.cast_nonneg)

theorem mul (hfirst : Near digits steps computed exact) (hsecond : Near digits more second other) :
    Near digits (steps + more) (computed * second) (exact * other) where
  nonneg := mul_nonneg hfirst.nonneg hsecond.nonneg
  upper := by
    have hproduct := mul_le_mul hfirst.upper hsecond.upper hsecond.cast_nonneg
      (mul_nonneg (roundingFactor_pow_pos ..).le hfirst.nonneg)
    push_cast
    calc (computed : ℝ) * second
      _ ≤ roundingFactor digits ^ steps * exact * (roundingFactor digits ^ more * other) := hproduct
      _ = roundingFactor digits ^ (steps + more) * (exact * other) := by ring
  lower := by
    have hproduct := mul_le_mul hfirst.lower hsecond.lower hsecond.nonneg
      (mul_nonneg (roundingFactor_pow_pos ..).le hfirst.cast_nonneg)
    push_cast
    calc exact * other
      _ ≤ roundingFactor digits ^ steps * computed * (roundingFactor digits ^ more * second) :=
        hproduct
      _ = roundingFactor digits ^ (steps + more) * (computed * second) := by ring

theorem inv (hnear : Near digits steps computed exact) :
    Near digits steps computed⁻¹ exact⁻¹ := by
  have hpower := roundingFactor_pow_pos digits steps
  rcases hnear.nonneg.lt_or_eq with hpos | hzero
  · have hcomputed : (0 : ℝ) < computed :=
      pos_of_mul_pos_right (hpos.trans_le hnear.lower) hpower.le
    refine ⟨inv_nonneg.mpr hnear.nonneg, ?_, ?_⟩
    · rw [Rat.cast_inv, ← div_eq_mul_inv, inv_eq_one_div, div_le_div_iff₀ hcomputed hpos, one_mul]
      exact hnear.lower
    · rw [Rat.cast_inv, ← div_eq_mul_inv, inv_eq_one_div, div_le_div_iff₀ hpos hcomputed, one_mul]
      exact hnear.upper
  · have hupper := hnear.upper
    rw [← hzero, mul_zero] at hupper
    have hcomputed : computed = 0 :=
      le_antisymm (by exact_mod_cast hupper) hnear.computed_nonneg
    rw [hcomputed, ← hzero, inv_zero, inv_zero]
    exact ⟨le_rfl, by simp, by simp⟩

theorem div (hfirst : Near digits steps computed exact) (hsecond : Near digits more second other) :
    Near digits (steps + more) (computed / second) (exact / other) := by
  rw [div_eq_mul_inv, div_eq_mul_inv]
  exact hfirst.mul hsecond.inv

theorem add (hfirst : Near digits steps computed exact)
    (hsecond : Near digits steps second other) :
    Near digits steps (computed + second) (exact + other) where
  nonneg := add_nonneg hfirst.nonneg hsecond.nonneg
  upper := by
    push_cast
    rw [mul_add]
    exact add_le_add hfirst.upper hsecond.upper
  lower := by
    push_cast
    rw [mul_add]
    exact add_le_add hfirst.lower hsecond.lower

theorem trans (hfirst : Near digits steps computed second)
    (hsecond : Near digits more second exact) : Near digits (steps + more) computed exact where
  nonneg := hsecond.nonneg
  upper :=
    calc (computed : ℝ)
      _ ≤ roundingFactor digits ^ steps * second := hfirst.upper
      _ ≤ roundingFactor digits ^ steps * (roundingFactor digits ^ more * exact) :=
        mul_le_mul_of_nonneg_left hsecond.upper (roundingFactor_pow_pos ..).le
      _ = roundingFactor digits ^ (steps + more) * exact := by ring
  lower :=
    calc exact
      _ ≤ roundingFactor digits ^ more * second := hsecond.lower
      _ ≤ roundingFactor digits ^ more * (roundingFactor digits ^ steps * computed) :=
        mul_le_mul_of_nonneg_left hfirst.lower (roundingFactor_pow_pos ..).le
      _ = roundingFactor digits ^ (steps + more) * computed := by ring

/-- The absolute error is a part of the exact value. -/
theorem abs_sub_le (hnear : Near digits steps computed exact) :
    |(computed : ℝ) - exact| ≤ (roundingFactor digits ^ steps - 1) * exact := by
  have hone := one_le_roundingFactor_pow digits steps
  have hbelow : exact - computed ≤ (roundingFactor digits ^ steps - 1) * exact := by
    rcases le_total exact computed with hle | hle
    · have hproduct := mul_nonneg (sub_nonneg.mpr hone) hnear.nonneg
      linarith
    · have hproduct := mul_le_mul_of_nonneg_left hle (sub_nonneg.mpr hone)
      linarith [hnear.lower]
  rw [abs_le]
  constructor
  · linarith
  · linarith [hnear.upper]

end Near

/-! ### Rounding -/

/-- One rounding. -/
theorem near_of_abs_sub_le (hdigits : 0 < digits) (hexact : 0 ≤ exact)
    (herror : |(computed : ℝ) - exact| ≤ exact * (unitError digits : ℚ)) :
    Near digits 1 computed exact := by
  have hunit : (0 : ℝ) < (unitError digits : ℚ) := by exact_mod_cast unitError_pos digits
  have hhalf : ((unitError digits : ℚ) : ℝ) ≤ 1 / 2 := by
    have hpower : (10 : ℚ) ^ (1 - digits : ℤ) ≤ 1 :=
      zpow_le_one_of_nonpos₀ (by norm_num) (by omega)
    have hrat : unitError digits ≤ 1 / 2 := by
      rw [unitError]
      linarith
    calc ((unitError digits : ℚ) : ℝ)
      _ ≤ ((1 / 2 : ℚ) : ℝ) := Rat.cast_le.mpr hrat
      _ = 1 / 2 := by norm_num
  obtain ⟨hlower, hupper⟩ := abs_le.mp herror
  refine ⟨hexact, ?_, ?_⟩
  · rw [pow_one, roundingFactor]
    nlinarith
  · rw [pow_one, roundingFactor]
    -- The factor is larger than what the error takes away.
    have hfactor : 1 ≤ (1 + 2 * ((unitError digits : ℚ) : ℝ)) * (1 - (unitError digits : ℚ)) := by
      nlinarith
    calc exact
      _ ≤ (1 + 2 * ((unitError digits : ℚ) : ℝ)) * (1 - (unitError digits : ℚ)) * exact :=
        le_mul_of_one_le_left hexact hfactor
      _ = (1 + 2 * ((unitError digits : ℚ) : ℝ)) * (exact - exact * (unitError digits : ℚ)) := by
        ring
      _ ≤ (1 + 2 * ((unitError digits : ℚ) : ℝ)) * computed :=
        mul_le_mul_of_nonneg_left (by linarith) (by linarith)

theorem near_significant (hdigits : 0 < digits) (hcomputed : 0 ≤ computed) :
    Near digits 1 (significant digits computed) computed := by
  refine near_of_abs_sub_le hdigits (by exact_mod_cast hcomputed) ?_
  have herror := abs_significant_sub_le digits computed
  rw [abs_of_nonneg hcomputed] at herror
  exact_mod_cast (Rat.cast_le (K := ℝ)).mpr herror

/-- A rounded value is near what the value is near to. -/
theorem Near.significant (hdigits : 0 < digits) (hnear : Near digits steps computed exact) :
    Near digits (steps + 1) (significant digits computed) exact := by
  rw [Nat.add_comm]
  exact (near_significant hdigits hnear.computed_nonneg).trans hnear

theorem Near.significantSqrt (hdigits : 0 < digits) (hnear : Near digits steps computed exact) :
    Near digits (steps + 1) (significantSqrt digits computed) √exact := by
  have hroot : Near digits 1 (SignificantDigits.significantSqrt digits computed) √computed :=
    near_of_abs_sub_le hdigits (Real.sqrt_nonneg _)
      (abs_significantSqrt_sub_le digits hnear.computed_nonneg)
  have hone := one_le_roundingFactor_pow digits steps
  have hfactor : √(roundingFactor digits ^ steps) ≤ roundingFactor digits ^ steps := by
    refine Real.sqrt_le_iff.mpr ⟨(roundingFactor_pow_pos ..).le, ?_⟩
    rw [sq]
    exact le_mul_of_one_le_left (roundingFactor_pow_pos ..).le hone
  have hscale {first last : ℝ} (hle : first ≤ roundingFactor digits ^ steps * last) :
      √first ≤ roundingFactor digits ^ steps * √last :=
    calc √first
      _ ≤ √(roundingFactor digits ^ steps * last) := Real.sqrt_le_sqrt hle
      _ = √(roundingFactor digits ^ steps) * √last := Real.sqrt_mul (roundingFactor_pow_pos ..).le _
      _ ≤ roundingFactor digits ^ steps * √last :=
        mul_le_mul_of_nonneg_right hfactor (Real.sqrt_nonneg _)
  refine ⟨Real.sqrt_nonneg _, ?_, ?_⟩
  · calc ((SignificantDigits.significantSqrt digits computed : ℚ) : ℝ)
      _ ≤ roundingFactor digits ^ 1 * √computed := hroot.upper
      _ ≤ roundingFactor digits ^ 1 * (roundingFactor digits ^ steps * √exact) :=
        mul_le_mul_of_nonneg_left (hscale hnear.upper) (roundingFactor_pow_pos ..).le
      _ = roundingFactor digits ^ (steps + 1) * √exact := by ring
  · calc √exact
      _ ≤ roundingFactor digits ^ steps * √computed := hscale hnear.lower
      _ ≤ roundingFactor digits ^ steps *
            (roundingFactor digits ^ 1 * SignificantDigits.significantSqrt digits computed) :=
        mul_le_mul_of_nonneg_left hroot.lower (roundingFactor_pow_pos ..).le
      _ = roundingFactor digits ^ (steps + 1) *
            SignificantDigits.significantSqrt digits computed := by ring

end Oamb.Foundation.RelativeErrors
