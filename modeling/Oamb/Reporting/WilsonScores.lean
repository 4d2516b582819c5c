import Oamb.Reporting.WilsonInterval

/-!
# The exact Wilson interval

The exact interval of a score lies between zero and one, contains the share of the successes, and is
mirrored with it. The spread falls short of the center by the square of the share
(`Score.center_sq_sub_spread_sq`), so without a success they are equal.
-/

set_option autoImplicit false

namespace Oamb.Reporting.WilsonScores

open WilsonInterval

variable {numerator denominator : ℤ}

/-- A score of some trials. -/
structure Score (numerator denominator : ℤ) : Prop where
  nonneg : 0 ≤ numerator
  le : numerator ≤ denominator
  pos : 0 < denominator

/-- The exact proportion. -/
noncomputable def share (numerator denominator : ℤ) : ℝ := numerator / denominator

theorem Score.cast_pos (hscore : Score numerator denominator) : (0 : ℝ) < denominator := by
  exact_mod_cast hscore.pos

theorem Score.one_le (hscore : Score numerator denominator) : (1 : ℝ) ≤ denominator := by
  exact_mod_cast hscore.pos

theorem Score.share_nonneg (hscore : Score numerator denominator) :
    0 ≤ share numerator denominator :=
  div_nonneg (by exact_mod_cast hscore.nonneg) hscore.cast_pos.le

theorem Score.share_le_one (hscore : Score numerator denominator) :
    share numerator denominator ≤ 1 := by
  rw [share, div_le_one hscore.cast_pos]
  exact_mod_cast hscore.le

theorem Score.mirrored (hscore : Score numerator denominator) :
    Score (denominator - numerator) denominator where
  nonneg := by
    have hle := hscore.le
    omega
  le := by
    have hnonneg := hscore.nonneg
    omega
  pos := hscore.pos

theorem Score.share_mirrored (hscore : Score numerator denominator) :
    share (denominator - numerator) denominator = 1 - share numerator denominator := by
  have hne := hscore.cast_pos.ne'
  rw [share, share]
  push_cast
  field_simp

theorem wilson95Z_bounds : (1 : ℝ) ≤ (wilson95Z : ℚ) ∧ ((wilson95Z : ℚ) : ℝ) ≤ 2 := by
  constructor
  · exact_mod_cast (show (1 : ℚ) ≤ wilson95Z by norm_num [wilson95Z])
  · exact_mod_cast (show wilson95Z ≤ (2 : ℚ) by norm_num [wilson95Z])

theorem exactCenter_eq (numerator denominator : ℤ) : exactCenter numerator denominator =
    share numerator denominator + (wilson95Z : ℝ) ^ 2 / (2 * denominator) := by
  rw [exactCenter, share]
  push_cast
  rfl

theorem exactSpread_eq (numerator denominator : ℤ) : exactSpread numerator denominator =
    wilson95Z * √(share numerator denominator * (1 - share numerator denominator) / denominator +
      (wilson95Z : ℝ) ^ 2 / (4 * denominator ^ 2)) := by
  rw [exactSpread, share]
  push_cast
  rfl

theorem Score.radicand_nonneg (hscore : Score numerator denominator) :
    0 ≤ share numerator denominator * (1 - share numerator denominator) / denominator +
      (wilson95Z : ℝ) ^ 2 / (4 * denominator ^ 2) := by
  have hshare := hscore.share_nonneg
  have hrest := sub_nonneg.mpr hscore.share_le_one
  have hpos := hscore.cast_pos
  positivity

theorem Score.spread_nonneg (numerator denominator : ℤ) : 0 ≤ exactSpread numerator denominator :=
  mul_nonneg (zero_le_one.trans wilson95Z_bounds.1) (Real.sqrt_nonneg _)

theorem Score.center_nonneg (hscore : Score numerator denominator) :
    0 ≤ exactCenter numerator denominator := by
  have hshare := hscore.share_nonneg
  have hpos := hscore.cast_pos
  rw [exactCenter_eq]
  positivity

theorem Score.spread_sq (hscore : Score numerator denominator) :
    exactSpread numerator denominator ^ 2 = (wilson95Z : ℝ) ^ 2 *
      (share numerator denominator * (1 - share numerator denominator) / denominator +
        (wilson95Z : ℝ) ^ 2 / (4 * denominator ^ 2)) := by
  rw [exactSpread_eq, mul_pow, Real.sq_sqrt hscore.radicand_nonneg]

/-- The spread falls short of the center by the square of the share. -/
theorem Score.center_sq_sub_spread_sq (hscore : Score numerator denominator) :
    exactCenter numerator denominator ^ 2 - exactSpread numerator denominator ^ 2 =
      share numerator denominator ^ 2 * exactDivisor denominator := by
  have hne := hscore.cast_pos.ne'
  rw [hscore.spread_sq, exactCenter_eq, exactDivisor]
  field_simp
  ring

theorem Score.one_le_divisor (hscore : Score numerator denominator) :
    1 ≤ exactDivisor denominator := by
  have hpos := hscore.cast_pos
  rw [exactDivisor]
  exact le_add_of_nonneg_right (by positivity)

theorem Score.divisor_pos (hscore : Score numerator denominator) : 0 < exactDivisor denominator :=
  zero_lt_one.trans_le hscore.one_le_divisor

theorem Score.spread_le_center (hscore : Score numerator denominator) :
    exactSpread numerator denominator ≤ exactCenter numerator denominator := by
  refine le_of_sq_le_sq ?_ hscore.center_nonneg
  have hgap := hscore.center_sq_sub_spread_sq
  have hnonneg := mul_nonneg (sq_nonneg (share numerator denominator)) hscore.divisor_pos.le
  linarith

theorem Score.lower_nonneg (hscore : Score numerator denominator) :
    0 ≤ exactLower numerator denominator :=
  div_nonneg (sub_nonneg.mpr hscore.spread_le_center) hscore.divisor_pos.le

/-- The interval of the failures is the mirror image. -/
theorem Score.lower_mirrored (hscore : Score numerator denominator) :
    exactLower (denominator - numerator) denominator =
      1 - exactUpper numerator denominator := by
  have hne := hscore.cast_pos.ne'
  have hspread : exactSpread (denominator - numerator) denominator =
      exactSpread numerator denominator := by
    rw [exactSpread_eq, exactSpread_eq, hscore.share_mirrored, sub_sub_cancel,
      mul_comm (1 - share numerator denominator)]
  have hcenter : exactCenter (denominator - numerator) denominator =
      exactDivisor denominator - exactCenter numerator denominator := by
    rw [exactCenter_eq, exactCenter_eq, exactDivisor, hscore.share_mirrored]
    field_simp
    ring
  rw [exactLower, exactUpper, hspread, hcenter, eq_sub_iff_add_eq, ← add_div,
    div_eq_one_iff_eq hscore.divisor_pos.ne']
  ring

theorem Score.upper_mirrored (hscore : Score numerator denominator) :
    exactUpper (denominator - numerator) denominator =
      1 - exactLower numerator denominator := by
  have hmirrored := hscore.mirrored.lower_mirrored
  rw [sub_sub_cancel] at hmirrored
  linarith

theorem Score.upper_le_one (hscore : Score numerator denominator) :
    exactUpper numerator denominator ≤ 1 := by
  have hmirrored := hscore.lower_mirrored
  have hnonneg := hscore.mirrored.lower_nonneg
  linarith

theorem Score.lower_le_share (hscore : Score numerator denominator) :
    exactLower numerator denominator ≤ share numerator denominator := by
  have hpos := hscore.cast_pos
  have hne := hpos.ne'
  -- The center leans away from the share by less than the spread.
  have hlean : (wilson95Z : ℝ) ^ 2 / (2 * denominator) * (1 - 2 * share numerator denominator) ≤
      exactSpread numerator denominator := by
    refine le_of_sq_le_sq ?_ (Score.spread_nonneg ..)
    have hshare := hscore.share_nonneg
    have hrest := sub_nonneg.mpr hscore.share_le_one
    have hgap : exactSpread numerator denominator ^ 2 -
        ((wilson95Z : ℝ) ^ 2 / (2 * denominator) *
          (1 - 2 * share numerator denominator)) ^ 2 =
        (wilson95Z : ℝ) ^ 2 * (share numerator denominator * (1 - share numerator denominator)) /
          denominator * exactDivisor denominator := by
      rw [hscore.spread_sq, exactDivisor]
      field_simp
      ring
    have hnonneg : 0 ≤ (wilson95Z : ℝ) ^ 2 *
        (share numerator denominator * (1 - share numerator denominator)) /
          denominator * exactDivisor denominator :=
      mul_nonneg (by positivity) hscore.divisor_pos.le
    linarith
  rw [exactLower, div_le_iff₀ hscore.divisor_pos]
  have hsplit : exactCenter numerator denominator -
      share numerator denominator * exactDivisor denominator =
        (wilson95Z : ℝ) ^ 2 / (2 * denominator) * (1 - 2 * share numerator denominator) := by
    rw [exactCenter_eq, exactDivisor]
    field_simp
    ring
  linarith

theorem Score.share_le_upper (hscore : Score numerator denominator) :
    share numerator denominator ≤ exactUpper numerator denominator := by
  have hmirrored := hscore.mirrored.lower_le_share
  rw [hscore.lower_mirrored, hscore.share_mirrored] at hmirrored
  linarith

end Oamb.Reporting.WilsonScores
