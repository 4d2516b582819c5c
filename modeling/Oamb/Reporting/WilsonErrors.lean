import Oamb.Foundation.RelativeErrors
import Oamb.Reporting.WilsonScores

/-!
# Errors of the computed Wilson interval

The rounded results of the interval are near the exact ones, but for the share of the failures,
whose error is small against one and not against itself. With a success the center stays above the
spread (`Score.spread_lt_center`), and the bounds are always close to the exact ones
(`Score.abs_lowerBound_sub_le`, `Score.abs_upperBound_sub_le`).
-/

set_option autoImplicit false

namespace Oamb.Reporting.WilsonScores

open Foundation Foundation.SignificantDigits Foundation.RelativeErrors WilsonInterval

variable {numerator denominator : ℤ}

/-! ### The computed interval -/

/-- The computed share of the failures. -/
def remainder (numerator denominator : ℤ) : ℚ := rounded (1 - proportion numerator denominator)

theorem sixty_pos : 0 < 60 := by norm_num

theorem near_intCast {count : ℤ} (hcount : 0 ≤ count) : Near 60 0 (count : ℚ) (count : ℝ) := by
  have hnear : Near 60 0 (count : ℚ) ((count : ℚ) : ℝ) := .refl (by exact_mod_cast hcount)
  rwa [Rat.cast_intCast] at hnear

theorem near_wilson95Z : Near 60 0 wilson95Z (wilson95Z : ℝ) :=
  .refl (by norm_num [wilson95Z])

theorem near_zSquared : Near 60 1 zSquared ((wilson95Z : ℝ) ^ 2) := by
  rw [sq]
  exact (near_wilson95Z.mul near_wilson95Z).significant sixty_pos

theorem Score.near_denominator (hscore : Score numerator denominator) :
    Near 60 0 (denominator : ℚ) (denominator : ℝ) :=
  near_intCast hscore.pos.le

theorem Score.near_proportion (hscore : Score numerator denominator) :
    Near 60 1 (proportion numerator denominator) (share numerator denominator) :=
  ((near_intCast hscore.nonneg).div hscore.near_denominator).significant sixty_pos

theorem Score.near_center (hscore : Score numerator denominator) :
    Near 60 4 (center numerator denominator) (exactCenter numerator denominator) := by
  have hdouble : Near 60 1 (rounded (2 * denominator)) (2 * denominator) := by
    have htwo : Near 60 0 ((2 : ℤ) : ℚ) ((2 : ℤ) : ℝ) := near_intCast (by norm_num)
    exact_mod_cast (htwo.mul hscore.near_denominator).significant sixty_pos
  have hshift := (near_zSquared.div hdouble).significant sixty_pos
  rw [exactCenter_eq]
  exact ((hscore.near_proportion.mono (by norm_num)).add hshift).significant sixty_pos

theorem Score.near_divisor (hscore : Score numerator denominator) :
    Near 60 3 (divisor denominator) (exactDivisor denominator) := by
  have hone : Near 60 2 (1 : ℚ) (1 : ℝ) := by
    have hnear : Near 60 0 ((1 : ℤ) : ℚ) ((1 : ℤ) : ℝ) := near_intCast (by norm_num)
    exact_mod_cast hnear.mono (Nat.zero_le 2)
  exact (hone.add ((near_zSquared.div hscore.near_denominator).significant sixty_pos)).significant
    sixty_pos

theorem Score.proportion_nonneg (hscore : Score numerator denominator) :
    0 ≤ proportion numerator denominator :=
  hscore.near_proportion.computed_nonneg

theorem Score.proportion_le_one (hscore : Score numerator denominator) :
    proportion numerator denominator ≤ 1 := by
  have hpos : (0 : ℚ) < denominator := by exact_mod_cast hscore.pos
  have hshare : (numerator : ℚ) / denominator ≤ 1 := by
    rw [div_le_one hpos]
    exact_mod_cast hscore.le
  have hnonneg : (0 : ℚ) ≤ numerator / denominator :=
    div_nonneg (by exact_mod_cast hscore.nonneg) hpos.le
  calc proportion numerator denominator
    _ ≤ significant 60 1 := significant_mono sixty_pos hnonneg hshare
    _ = 1 := significant_one sixty_pos

theorem Score.near_remainder (hscore : Score numerator denominator) :
    Near 60 1 (remainder numerator denominator)
      ((1 - proportion numerator denominator : ℚ) : ℝ) :=
  near_significant sixty_pos (sub_nonneg.mpr hscore.proportion_le_one)

/-- What the root is taken of, but for the relative errors. -/
noncomputable def nearRadicand (numerator denominator : ℤ) : ℝ :=
  share numerator denominator * (remainder numerator denominator : ℚ) / denominator +
    (wilson95Z : ℝ) ^ 2 / ((4 * denominator ^ 2 : ℤ) : ℝ)

theorem nearRadicand_eq (numerator denominator : ℤ) : nearRadicand numerator denominator =
    share numerator denominator * (remainder numerator denominator : ℚ) / denominator +
      (wilson95Z : ℝ) ^ 2 / (4 * denominator ^ 2) := by
  rw [nearRadicand]
  push_cast
  rfl

theorem Score.near_radicand (hscore : Score numerator denominator) :
    Near 60 5 (radicand numerator denominator) (nearRadicand numerator denominator) := by
  have hremainder : Near 60 0 (remainder numerator denominator)
      (remainder numerator denominator : ℚ) := .refl hscore.near_remainder.computed_nonneg
  have hproduct := ((hscore.near_proportion.mul hremainder).significant sixty_pos)
  have hfirst := (hproduct.div hscore.near_denominator).significant sixty_pos
  have hsquare : Near 60 2 (rounded (rounded (4 * denominator) * denominator))
      (4 * denominator ^ 2) := by
    have hfour : Near 60 0 ((4 : ℤ) : ℚ) ((4 : ℤ) : ℝ) := near_intCast (by norm_num)
    have hnear := (((hfour.mul hscore.near_denominator).significant sixty_pos).mul
      hscore.near_denominator).significant sixty_pos
    rw [sq, ← mul_assoc]
    exact_mod_cast hnear
  have hsecond := (near_zSquared.div hsquare).significant sixty_pos
  rw [nearRadicand_eq]
  exact ((hfirst.mono (by norm_num)).add hsecond).significant sixty_pos

theorem Score.near_spread (hscore : Score numerator denominator) :
    Near 60 7 (spread numerator denominator)
      (wilson95Z * √(nearRadicand numerator denominator)) := by
  have hroot := hscore.near_radicand.significantSqrt sixty_pos
  exact ((near_wilson95Z.mul hroot).significant sixty_pos).mono (by norm_num)

theorem roundingFactor_sixty : roundingFactor 60 = 1 + 1 / 10 ^ 59 := by
  have hunit : unitError 60 = 1 / 10 ^ 59 / 2 := by
    rw [unitError]
    norm_num
  rw [roundingFactor, hunit]
  push_cast
  ring

/-! ### Order of center and spread -/

theorem Score.remainder_le (hscore : Score numerator denominator) :
    ((remainder numerator denominator : ℚ) : ℝ) ≤ roundingFactor 60 := by
  have hupper := hscore.near_remainder.upper
  have hone : ((1 - proportion numerator denominator : ℚ) : ℝ) ≤ 1 := by
    exact_mod_cast sub_le_self 1 hscore.proportion_nonneg
  rw [pow_one] at hupper
  calc ((remainder numerator denominator : ℚ) : ℝ)
    _ ≤ roundingFactor 60 * ((1 - proportion numerator denominator : ℚ) : ℝ) := hupper
    _ ≤ roundingFactor 60 * 1 := mul_le_mul_of_nonneg_left hone (roundingFactor_pos 60).le
    _ = roundingFactor 60 := mul_one _

/-- What the root is taken of is at most what it is with a remainder of one. -/
theorem Score.nearRadicand_le (hscore : Score numerator denominator) :
    nearRadicand numerator denominator ≤ roundingFactor 60 *
      (share numerator denominator / denominator +
        (wilson95Z : ℝ) ^ 2 / (4 * denominator ^ 2)) := by
  have hpos := hscore.cast_pos
  have hshare := hscore.share_nonneg
  rw [nearRadicand_eq, mul_add]
  refine add_le_add ?_ ?_
  · rw [mul_div_assoc', mul_comm (roundingFactor 60)]
    exact div_le_div_of_nonneg_right (mul_le_mul_of_nonneg_left hscore.remainder_le hshare) hpos.le
  · exact le_mul_of_one_le_left (by positivity) (one_le_roundingFactor 60)

theorem Score.nearRadicand_nonneg (hscore : Score numerator denominator) :
    0 ≤ nearRadicand numerator denominator :=
  hscore.near_radicand.nonneg

/-- With a success the center is at most three times the share. -/
theorem Score.center_le (hscore : Score numerator denominator) (hone : 1 ≤ numerator) :
    exactCenter numerator denominator ≤ 3 * share numerator denominator := by
  have hpos := hscore.cast_pos
  have hsquare : (wilson95Z : ℝ) ^ 2 ≤ 4 := by
    have hbounds := wilson95Z_bounds
    nlinarith
  have hshift : (wilson95Z : ℝ) ^ 2 / (2 * denominator) ≤ 2 * share numerator denominator := by
    have hnumerator : (1 : ℝ) ≤ numerator := by exact_mod_cast hone
    rw [div_le_iff₀ (by positivity), share]
    field_simp
    linarith
  rw [exactCenter_eq]
  linarith

/-- With a success the center is larger than the spread by more than all errors. -/
theorem Score.spread_lt_center (hscore : Score numerator denominator) (hone : 1 ≤ numerator) :
    spread numerator denominator < center numerator denominator := by
  have hpos := hscore.cast_pos
  have hfactor := roundingFactor_pos 60
  have hspread := hscore.near_spread
  have hcenter := hscore.near_center
  have hshare : 0 < share numerator denominator :=
    div_pos (by exact_mod_cast hone) hpos
  have hexact : 0 < exactCenter numerator denominator := by
    rw [exactCenter_eq]
    positivity
  have hcomputed : (0 : ℝ) < center numerator denominator :=
    pos_of_mul_pos_right (hexact.trans_le hcenter.lower) (pow_pos hfactor 4).le
  have hspreadSq : ((spread numerator denominator : ℚ) : ℝ) ^ 2 ≤ roundingFactor 60 ^ 15 *
      (exactCenter numerator denominator ^ 2 - share numerator denominator ^ 2) :=
    calc ((spread numerator denominator : ℚ) : ℝ) ^ 2
      _ ≤ (roundingFactor 60 ^ 7 * (wilson95Z * √(nearRadicand numerator denominator))) ^ 2 :=
        pow_le_pow_left₀ hspread.cast_nonneg hspread.upper 2
      _ = roundingFactor 60 ^ 14 *
            ((wilson95Z : ℝ) ^ 2 * nearRadicand numerator denominator) := by
        rw [mul_pow, mul_pow, Real.sq_sqrt hscore.nearRadicand_nonneg, ← pow_mul]
      _ ≤ roundingFactor 60 ^ 14 * ((wilson95Z : ℝ) ^ 2 * (roundingFactor 60 *
            (share numerator denominator / denominator +
              (wilson95Z : ℝ) ^ 2 / (4 * denominator ^ 2)))) := by
        have hle := hscore.nearRadicand_le
        gcongr
      _ = roundingFactor 60 ^ 15 *
            (exactCenter numerator denominator ^ 2 - share numerator denominator ^ 2) := by
        rw [exactCenter_eq]
        field_simp
        ring
  have hcenterSq : exactCenter numerator denominator ^ 2 ≤
      roundingFactor 60 ^ 8 * ((center numerator denominator : ℚ) : ℝ) ^ 2 :=
    calc exactCenter numerator denominator ^ 2
      _ ≤ (roundingFactor 60 ^ 4 * ((center numerator denominator : ℚ) : ℝ)) ^ 2 :=
        pow_le_pow_left₀ hexact.le hcenter.lower 2
      _ = roundingFactor 60 ^ 8 * ((center numerator denominator : ℚ) : ℝ) ^ 2 := by ring
  have hgap : exactCenter numerator denominator ^ 2 - share numerator denominator ^ 2 ≤
      8 / 9 * exactCenter numerator denominator ^ 2 := by
    have hthree := pow_le_pow_left₀ hexact.le (hscore.center_le hone) 2
    linarith
  have hsmall : roundingFactor 60 ^ 15 * (8 / 9 * roundingFactor 60 ^ 8) < 1 := by
    rw [roundingFactor_sixty]
    norm_num
  have hlt : ((spread numerator denominator : ℚ) : ℝ) ^ 2 <
      ((center numerator denominator : ℚ) : ℝ) ^ 2 :=
    calc ((spread numerator denominator : ℚ) : ℝ) ^ 2
      _ ≤ roundingFactor 60 ^ 15 *
            (exactCenter numerator denominator ^ 2 - share numerator denominator ^ 2) := hspreadSq
      _ ≤ roundingFactor 60 ^ 15 * (8 / 9 *
            (roundingFactor 60 ^ 8 * ((center numerator denominator : ℚ) : ℝ) ^ 2)) := by
        have hle := hgap.trans (mul_le_mul_of_nonneg_left hcenterSq (by norm_num))
        gcongr
      _ = roundingFactor 60 ^ 15 * (8 / 9 * roundingFactor 60 ^ 8) *
            ((center numerator denominator : ℚ) : ℝ) ^ 2 := by ring
      _ < 1 * ((center numerator denominator : ℚ) : ℝ) ^ 2 :=
        mul_lt_mul_of_pos_right hsmall (pow_pos hcomputed 2)
      _ = ((center numerator denominator : ℚ) : ℝ) ^ 2 := one_mul _
  exact_mod_cast lt_of_pow_lt_pow_left₀ 2 hcomputed.le hlt

/-! ### Errors -/

theorem sqrt_le_add {first second gap : ℝ} (hsecond : 0 ≤ second) (hgap : 0 ≤ gap)
    (hle : first ≤ second + gap ^ 2) : √first ≤ √second + gap := by
  have hroot := Real.sqrt_nonneg second
  refine Real.sqrt_le_iff.mpr ⟨by positivity, hle.trans ?_⟩
  have hsquare := Real.sq_sqrt hsecond
  nlinarith [mul_nonneg hroot hgap]

/-- Roots of close numbers are close. -/
theorem abs_sqrt_sub_sqrt_le {first second gap : ℝ} (hfirst : 0 ≤ first) (hsecond : 0 ≤ second)
    (hgap : 0 ≤ gap) (hclose : |first - second| ≤ gap ^ 2) : |√first - √second| ≤ gap := by
  obtain ⟨hlower, hupper⟩ := abs_le.mp hclose
  have habove := sqrt_le_add hsecond hgap (show first ≤ second + gap ^ 2 by linarith)
  have hbelow := sqrt_le_add hfirst hgap (show second ≤ first + gap ^ 2 by linarith)
  rw [abs_le]
  constructor <;> linarith

/-- A factor of a few roundings is close to one. -/
theorem roundingFactor_pow_sub_one_le {steps : ℕ} (hsteps : steps ≤ 7) :
    roundingFactor 60 ^ steps - 1 ≤ 1 / 10 ^ 50 := by
  have hmono := pow_le_pow_right₀ (one_le_roundingFactor 60) hsteps
  have hseven : roundingFactor 60 ^ 7 - 1 ≤ 1 / 10 ^ 50 := by
    rw [roundingFactor_sixty]
    norm_num
  linarith

/-- A near value that is not large is close. -/
theorem abs_sub_le_of_near {steps : ℕ} {computed : ℚ} {exact : ℝ}
    (hnear : Near 60 steps computed exact) (hsteps : steps ≤ 7) (hexact : exact ≤ 8) :
    |(computed : ℝ) - exact| ≤ 1 / 10 ^ 40 :=
  calc |(computed : ℝ) - exact|
    _ ≤ (roundingFactor 60 ^ steps - 1) * exact := hnear.abs_sub_le
    _ ≤ 1 / 10 ^ 50 * 8 := mul_le_mul (roundingFactor_pow_sub_one_le hsteps) hexact hnear.nonneg
      (by norm_num)
    _ ≤ 1 / 10 ^ 40 := by norm_num

theorem Score.abs_remainder_sub_le (hscore : Score numerator denominator) :
    |((remainder numerator denominator : ℚ) : ℝ) - (1 - share numerator denominator)| ≤
      2 / 10 ^ 40 := by
  have hproportion := abs_sub_le_of_near hscore.near_proportion (by norm_num)
    (hscore.share_le_one.trans (by norm_num))
  have hone : ((1 - proportion numerator denominator : ℚ) : ℝ) ≤ 8 := by
    have hle : 1 - proportion numerator denominator ≤ 8 := by
      have hnonneg := hscore.proportion_nonneg
      linarith
    exact_mod_cast hle
  have hremainder := abs_sub_le_of_near hscore.near_remainder (by norm_num) hone
  push_cast at hremainder
  rw [abs_le] at hproportion hremainder ⊢
  constructor <;> linarith [hproportion.1, hproportion.2, hremainder.1, hremainder.2]

theorem Score.share_div_le_one (hscore : Score numerator denominator) :
    share numerator denominator / denominator ≤ 1 :=
  div_le_one_of_le₀ (hscore.share_le_one.trans hscore.one_le) hscore.cast_pos.le

theorem Score.wilson_part_le_one (hscore : Score numerator denominator) :
    (wilson95Z : ℝ) ^ 2 / (4 * denominator ^ 2) ≤ 1 := by
  have hone := hscore.one_le
  have hbounds := wilson95Z_bounds
  refine div_le_one_of_le₀ ?_ (by positivity)
  nlinarith

/-- What the root is taken of is close to what it should be taken of. -/
theorem Score.abs_nearRadicand_sub_le (hscore : Score numerator denominator) :
    |nearRadicand numerator denominator -
      (share numerator denominator * (1 - share numerator denominator) / denominator +
        (wilson95Z : ℝ) ^ 2 / (4 * denominator ^ 2))| ≤ (1 / 10 ^ 19) ^ 2 := by
  have hnonneg : 0 ≤ share numerator denominator / denominator :=
    div_nonneg hscore.share_nonneg hscore.cast_pos.le
  have hsplit : nearRadicand numerator denominator -
      (share numerator denominator * (1 - share numerator denominator) / denominator +
        (wilson95Z : ℝ) ^ 2 / (4 * denominator ^ 2)) =
      share numerator denominator / denominator *
        (((remainder numerator denominator : ℚ) : ℝ) - (1 - share numerator denominator)) := by
    rw [nearRadicand_eq]
    ring
  rw [hsplit, abs_mul, abs_of_nonneg hnonneg]
  calc share numerator denominator / denominator *
        |((remainder numerator denominator : ℚ) : ℝ) - (1 - share numerator denominator)|
    _ ≤ 1 * (2 / 10 ^ 40) :=
      mul_le_mul hscore.share_div_le_one hscore.abs_remainder_sub_le (abs_nonneg _) zero_le_one
    _ ≤ (1 / 10 ^ 19) ^ 2 := by norm_num

theorem Score.sqrt_nearRadicand_le (hscore : Score numerator denominator) :
    √(nearRadicand numerator denominator) ≤ 2 := by
  have hfactor : roundingFactor 60 ≤ 2 := by
    rw [roundingFactor_sixty]
    norm_num
  refine Real.sqrt_le_iff.mpr ⟨by norm_num, hscore.nearRadicand_le.trans ?_⟩
  calc roundingFactor 60 * (share numerator denominator / denominator +
        (wilson95Z : ℝ) ^ 2 / (4 * denominator ^ 2))
    _ ≤ 2 * (1 + 1) :=
      mul_le_mul hfactor (add_le_add hscore.share_div_le_one hscore.wilson_part_le_one)
        (add_nonneg (div_nonneg hscore.share_nonneg hscore.cast_pos.le) (by positivity))
        (by norm_num)
    _ = 2 ^ 2 := by norm_num

theorem Score.abs_spread_sub_le (hscore : Score numerator denominator) :
    |((spread numerator denominator : ℚ) : ℝ) - exactSpread numerator denominator| ≤
      1 / 10 ^ 18 := by
  obtain ⟨hlower, hupper⟩ := wilson95Z_bounds
  have hroots := abs_sqrt_sub_sqrt_le hscore.nearRadicand_nonneg hscore.radicand_nonneg
    (by norm_num) hscore.abs_nearRadicand_sub_le
  have hlarge : (wilson95Z : ℝ) * √(nearRadicand numerator denominator) ≤ 8 := by
    have hproduct := mul_le_mul hupper hscore.sqrt_nearRadicand_le (Real.sqrt_nonneg _) zero_le_two
    linarith
  have hnear := abs_sub_le_of_near hscore.near_spread (by norm_num) hlarge
  have hexact : |(wilson95Z : ℝ) * √(nearRadicand numerator denominator) -
      exactSpread numerator denominator| ≤ 2 * (1 / 10 ^ 19) := by
    rw [exactSpread_eq, ← mul_sub, abs_mul, abs_of_nonneg (by linarith)]
    exact mul_le_mul hupper hroots (abs_nonneg _) zero_le_two
  calc |((spread numerator denominator : ℚ) : ℝ) - exactSpread numerator denominator|
    _ ≤ |((spread numerator denominator : ℚ) : ℝ) -
          wilson95Z * √(nearRadicand numerator denominator)| +
        |(wilson95Z : ℝ) * √(nearRadicand numerator denominator) -
          exactSpread numerator denominator| := abs_sub_le ..
    _ ≤ 1 / 10 ^ 40 + 2 * (1 / 10 ^ 19) := add_le_add hnear hexact
    _ ≤ 1 / 10 ^ 18 := by norm_num

theorem Score.exactCenter_le (hscore : Score numerator denominator) :
    exactCenter numerator denominator ≤ 3 := by
  have hone := hscore.one_le
  have hbounds := wilson95Z_bounds
  have hshift : (wilson95Z : ℝ) ^ 2 / (2 * denominator) ≤ 2 := by
    rw [div_le_iff₀ (by linarith)]
    nlinarith
  have hshare := hscore.share_le_one
  rw [exactCenter_eq]
  linarith

theorem Score.exactDivisor_le (hscore : Score numerator denominator) :
    exactDivisor denominator ≤ 8 := by
  have hone := hscore.one_le
  have hbounds := wilson95Z_bounds
  have hshift : (wilson95Z : ℝ) ^ 2 / denominator ≤ 4 := by
    rw [div_le_iff₀ (by linarith)]
    nlinarith
  rw [exactDivisor]
  linarith

/-- A rounded number that is not large is close to what the number is close to. -/
theorem abs_rounded_sub_le {value : ℚ} {exact gap : ℝ} (hclose : |(value : ℝ) - exact| ≤ gap)
    (hexact : |exact| ≤ 8) (hgap : gap ≤ 1) :
    |((rounded value : ℚ) : ℝ) - exact| ≤ gap + 1 / 10 ^ 18 := by
  have hlarge : |(value : ℝ)| ≤ 9 := by
    have htriangle := abs_sub_le (value : ℝ) exact 0
    rw [sub_zero, sub_zero] at htriangle
    linarith
  have herror : |((rounded value : ℚ) : ℝ) - value| ≤ 1 / 10 ^ 18 := by
    have hrounded := (Rat.cast_le (K := ℝ)).mpr (abs_significant_sub_le 60 value)
    have hunit : ((unitError 60 : ℚ) : ℝ) ≤ 1 / 10 ^ 20 := by
      have hrat : unitError 60 ≤ 1 / 10 ^ 20 := by
        rw [unitError]
        norm_num
      have hcast := (Rat.cast_le (K := ℝ)).mpr hrat
      push_cast at hcast
      exact hcast
    push_cast at hrounded
    calc |((rounded value : ℚ) : ℝ) - value|
      _ ≤ |(value : ℝ)| * (unitError 60 : ℚ) := hrounded
      _ ≤ 9 * (1 / 10 ^ 20) :=
        mul_le_mul hlarge hunit (by exact_mod_cast (unitError_pos 60).le) (by norm_num)
      _ ≤ 1 / 10 ^ 18 := by norm_num
  have htriangle := abs_sub_le ((rounded value : ℚ) : ℝ) value exact
  linarith

theorem abs_div_le_two_mul {number other gap : ℝ} (hother : 1 / 2 ≤ other)
    (hnumber : |number| ≤ gap) : |number / other| ≤ 2 * gap := by
  have hpos : 0 < other := by linarith
  have hgap := (abs_nonneg number).trans hnumber
  rw [abs_div, abs_of_pos hpos, div_le_iff₀ hpos]
  nlinarith

/-- A computed bound is close to the exact one when its numerator is. -/
theorem Score.abs_bound_sub_le (hscore : Score numerator denominator) {value : ℚ} {exact : ℝ}
    (hclose : |(value : ℝ) - exact| ≤ 1 / 10 ^ 17) (hexact : |exact| ≤ 8) :
    |((rounded (rounded value / divisor denominator) : ℚ) : ℝ) -
      exact / exactDivisor denominator| ≤ 1 / 10 ^ 10 := by
  have hpos := hscore.divisor_pos
  have hone := hscore.one_le_divisor
  have hvalue := abs_rounded_sub_le hclose hexact (by norm_num)
  have hdivisor := abs_sub_le_of_near hscore.near_divisor (by norm_num) hscore.exactDivisor_le
  have hhalf : (1 / 2 : ℝ) ≤ divisor denominator := by
    have hlower := (abs_le.mp hdivisor).1
    norm_num at hlower
    linarith
  have hcomputed : (0 : ℝ) < divisor denominator := by linarith
  have hquotient : |exact / exactDivisor denominator| ≤ 8 := by
    rw [abs_div, abs_of_pos hpos]
    exact (div_le_self (abs_nonneg _) hone).trans hexact
  have hsplit : ((rounded value / divisor denominator : ℚ) : ℝ) -
      exact / exactDivisor denominator =
      ((rounded value : ℚ) - exact) / divisor denominator -
        exact / exactDivisor denominator *
          ((divisor denominator : ℚ) - exactDivisor denominator) / divisor denominator := by
    push_cast
    field_simp
    ring
  have hbound : |((rounded value / divisor denominator : ℚ) : ℝ) -
      exact / exactDivisor denominator| ≤ 1 / 10 ^ 15 := by
    have hfirst := abs_div_le_two_mul hhalf hvalue
    have hsecond := abs_div_le_two_mul hhalf
      (show |exact / exactDivisor denominator *
          ((divisor denominator : ℚ) - exactDivisor denominator)| ≤ 8 * (1 / 10 ^ 40) by
        rw [abs_mul]
        exact mul_le_mul hquotient hdivisor (abs_nonneg _) (by norm_num))
    rw [hsplit]
    refine (abs_sub _ _).trans ((add_le_add hfirst hsecond).trans ?_)
    norm_num
  calc |((rounded (rounded value / divisor denominator) : ℚ) : ℝ) -
        exact / exactDivisor denominator|
    _ ≤ 1 / 10 ^ 15 + 1 / 10 ^ 18 := abs_rounded_sub_le hbound hquotient (by norm_num)
    _ ≤ 1 / 10 ^ 10 := by norm_num

/-! ### The bounds -/

/-- The computed lower bound, before it is written. -/
def lowerBound (numerator denominator : ℤ) : ℚ :=
  rounded (rounded (center numerator denominator - spread numerator denominator) /
    divisor denominator)

def upperBound (numerator denominator : ℤ) : ℚ :=
  rounded (rounded (center numerator denominator + spread numerator denominator) /
    divisor denominator)

theorem Score.abs_exactSpread_le (hscore : Score numerator denominator) :
    |exactSpread numerator denominator| ≤ 3 := by
  rw [abs_of_nonneg (Score.spread_nonneg ..)]
  exact hscore.spread_le_center.trans hscore.exactCenter_le

theorem Score.abs_exactCenter_le (hscore : Score numerator denominator) :
    |exactCenter numerator denominator| ≤ 3 := by
  rw [abs_of_nonneg hscore.center_nonneg]
  exact hscore.exactCenter_le

theorem Score.abs_center_sub_le (hscore : Score numerator denominator) :
    |((center numerator denominator : ℚ) : ℝ) - exactCenter numerator denominator| ≤ 1 / 10 ^ 40 :=
  abs_sub_le_of_near hscore.near_center (by norm_num) (hscore.exactCenter_le.trans (by norm_num))

theorem Score.abs_lowerBound_sub_le (hscore : Score numerator denominator) :
    |((lowerBound numerator denominator : ℚ) : ℝ) - exactLower numerator denominator| ≤
      1 / 10 ^ 10 := by
  have hcenter := abs_le.mp hscore.abs_center_sub_le
  have hspread := abs_le.mp hscore.abs_spread_sub_le
  have hlarge := abs_le.mp hscore.abs_exactCenter_le
  have hwide := abs_le.mp hscore.abs_exactSpread_le
  refine hscore.abs_bound_sub_le ?_ ?_
  · push_cast
    rw [abs_le]
    norm_num at hcenter hspread ⊢
    constructor <;> linarith
  · rw [abs_le]
    constructor <;> linarith

theorem Score.abs_upperBound_sub_le (hscore : Score numerator denominator) :
    |((upperBound numerator denominator : ℚ) : ℝ) - exactUpper numerator denominator| ≤
      1 / 10 ^ 10 := by
  have hcenter := abs_le.mp hscore.abs_center_sub_le
  have hspread := abs_le.mp hscore.abs_spread_sub_le
  have hlarge := abs_le.mp hscore.abs_exactCenter_le
  have hwide := abs_le.mp hscore.abs_exactSpread_le
  refine hscore.abs_bound_sub_le ?_ ?_
  · push_cast
    rw [abs_le]
    norm_num at hcenter hspread ⊢
    constructor <;> linarith
  · rw [abs_le]
    constructor <;> linarith

theorem Score.divisor_computed_pos (hscore : Score numerator denominator) :
    0 < divisor denominator := by
  have hnear := hscore.near_divisor
  have hreal : (0 : ℝ) < divisor denominator :=
    pos_of_mul_pos_right (hscore.divisor_pos.trans_le hnear.lower)
      (pow_pos (roundingFactor_pos 60) 3).le
  exact_mod_cast hreal

/-- The lower bound is negative when the spread was rounded above the center. -/
theorem Score.lowerBound_neg_iff (hscore : Score numerator denominator) :
    lowerBound numerator denominator < 0 ↔
      center numerator denominator < spread numerator denominator := by
  rw [lowerBound, rounded, significant_neg_iff sixty_pos, div_lt_iff₀ hscore.divisor_computed_pos,
    zero_mul, rounded, significant_neg_iff sixty_pos, sub_neg]

theorem Score.upperBound_nonneg (hscore : Score numerator denominator) :
    0 ≤ upperBound numerator denominator :=
  significant_nonneg sixty_pos (div_nonneg (significant_nonneg sixty_pos
    (add_nonneg hscore.near_center.computed_nonneg hscore.near_spread.computed_nonneg))
    hscore.divisor_computed_pos.le)

theorem Score.lowerBound_le_upperBound (hscore : Score numerator denominator) :
    lowerBound numerator denominator ≤ upperBound numerator denominator := by
  rcases lt_or_ge (center numerator denominator) (spread numerator denominator) with hlt | hle
  · exact ((hscore.lowerBound_neg_iff).mpr hlt).le.trans hscore.upperBound_nonneg
  · have hpos := hscore.divisor_computed_pos
    have hspread := hscore.near_spread.computed_nonneg
    have hnonneg := sub_nonneg.mpr hle
    refine significant_mono sixty_pos
      (div_nonneg (significant_nonneg sixty_pos hnonneg) hpos.le) ?_
    exact div_le_div_of_nonneg_right (significant_mono sixty_pos hnonneg (by linarith)) hpos.le

end Oamb.Reporting.WilsonScores
