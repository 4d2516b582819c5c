import Oamb.Foundation.Numerals
import Oamb.Reporting.WilsonErrors

/-!
# The written Wilson interval

The written bounds are ordered, within one unit of the exact ones, and mirrored with the score.
Without a success the center and the spread of the exact interval are equal, but they are rounded
apart: the lower bound is written as a negative zero exactly when the rounded spread is the larger
one (`written_iff`).
-/

set_option autoImplicit false

namespace Oamb.Reporting.WilsonScores

open Foundation Foundation.SignificantDigits Foundation.RelativeErrors
open WilsonInterval

variable {numerator denominator : ℤ}

/-! ### Six places -/

theorem abs_value_quantize_sub_le (value : ℚ) :
    |(quantize value).value - value| ≤ 1 / 2 / 10 ^ 6 := by
  have hlower := Nat.sub_one_lt_floor (|value| * 10 ^ 6 + 1 / 2)
  have hupper := Nat.floor_le (show 0 ≤ |value| * 10 ^ 6 + 1 / 2 by positivity)
  rw [SixPlaces.value, quantize]
  dsimp only
  rw [abs_le]
  rcases lt_or_ge value 0 with hneg | hnonneg
  · rw [abs_of_neg hneg] at hlower hupper ⊢
    rw [if_pos (decide_eq_true hneg)]
    constructor <;> linarith
  · rw [abs_of_nonneg hnonneg] at hlower hupper ⊢
    rw [if_neg (by simpa using hnonneg)]
    constructor <;> linarith

theorem value_quantize_of_nonneg {value : ℚ} (hvalue : 0 ≤ value) :
    (quantize value).value = (⌊value * 10 ^ 6 + 1 / 2⌋₊ : ℕ) / 10 ^ 6 := by
  rw [SixPlaces.value, quantize]
  dsimp only
  rw [if_neg (by simpa using hvalue), abs_of_nonneg hvalue]

theorem value_quantize_nonpos {value : ℚ} (hvalue : value < 0) : (quantize value).value ≤ 0 := by
  rw [SixPlaces.value, quantize]
  dsimp only
  rw [if_pos (decide_eq_true hvalue)]
  exact div_nonpos_of_nonpos_of_nonneg (neg_nonpos.mpr (Nat.cast_nonneg _)) (by norm_num)

theorem value_quantize_nonneg {value : ℚ} (hvalue : 0 ≤ value) : 0 ≤ (quantize value).value := by
  rw [value_quantize_of_nonneg hvalue]
  positivity

/-- Numbers with six places are in the order of the values. -/
theorem value_quantize_mono {value other : ℚ} (hother : 0 ≤ other) (hle : value ≤ other) :
    (quantize value).value ≤ (quantize other).value := by
  rcases lt_or_ge value 0 with hneg | hnonneg
  · exact (value_quantize_nonpos hneg).trans (value_quantize_nonneg hother)
  · rw [value_quantize_of_nonneg hnonneg, value_quantize_of_nonneg hother]
    refine div_le_div_of_nonneg_right (Nat.cast_le.mpr (Nat.floor_mono ?_)) (by norm_num)
    linarith

/-- A number that is not negative is not written with a sign. -/
theorem text_ne_of_nonneg {value : ℚ} (hvalue : 0 ≤ value) :
    (quantize value).text ≠ "-0.000000" := by
  have hnegative : (quantize value).negative = false := by simpa [quantize] using hvalue
  intro htext
  rw [SixPlaces.text, hnegative] at htext
  have hlist := congrArg (fun text : String ↦ text.toList.head?) htext
  obtain ⟨digit, digits, hdigits⟩ : ∃ digit digits,
      Nat.toDigits 10 ((quantize value).units / 10 ^ 6) = digit :: digits :=
    List.exists_cons_of_ne_nil (Nat.toDigits_ne_nil)
  have hdigit : digit.isDigit = true :=
    List.all_eq_true.mp (Numerals.all_isDigit_toDigits _) digit (hdigits ▸ List.mem_cons_self)
  rw [hdigits] at hlist
  simp only [Bool.false_eq_true, if_false, List.nil_append, List.cons_append, String.toList_ofList,
    List.head?_cons] at hlist
  have hsign : some digit = some '-' := hlist
  rw [Option.some.inj hsign] at hdigit
  exact absurd hdigit (by decide)

/-- A small negative value is written as a negative zero. -/
theorem text_eq_of_neg {value : ℚ} (hneg : value < 0) (hsmall : -(1 / 2 / 10 ^ 6) < value) :
    (quantize value).text = "-0.000000" := by
  have hunits : ⌊|value| * 10 ^ 6 + 1 / 2⌋₊ = 0 := by
    rw [Nat.floor_eq_zero, abs_of_neg hneg]
    linarith
  have hquantize : quantize value = ⟨true, 0⟩ := by
    rw [quantize, hunits, decide_eq_true hneg]
  rw [hquantize]
  rfl

/-! ### No success -/

/-- Without a success the rounded center, half of the squared quantile for each trial, is not below
the rounded spread, which is equal to it but for the root. -/
def ZeroTermsOrdered (denominator : ℤ) : Prop :=
  rounded (wilson95Z * significantSqrt 60
      (rounded (zSquared / rounded (rounded (4 * denominator) * denominator)))) ≤
    rounded (zSquared / rounded (2 * denominator))

theorem proportion_zero (denominator : ℤ) : proportion 0 denominator = 0 := by
  rw [proportion, Int.cast_zero, zero_div, rounded, significant_zero]

theorem rounded_rounded {value : ℚ} (hvalue : 0 ≤ value) :
    rounded (rounded value) = rounded value :=
  significant_significant sixty_pos hvalue

theorem zeroTermsOrdered_iff (hpos : 0 < denominator) :
    ZeroTermsOrdered denominator ↔ spread 0 denominator ≤ center 0 denominator := by
  have hdenominator : (0 : ℚ) < denominator := by exact_mod_cast hpos
  have hsquared : 0 ≤ zSquared := near_zSquared.computed_nonneg
  have hdouble : 0 ≤ rounded (2 * denominator) :=
    significant_nonneg sixty_pos (by positivity)
  have hsquare : 0 ≤ rounded (rounded (4 * denominator) * denominator) :=
    significant_nonneg sixty_pos (mul_nonneg (significant_nonneg sixty_pos (by positivity))
      hdenominator.le)
  have hzero : rounded 0 = 0 := significant_zero
  rw [ZeroTermsOrdered, spread, radicand, center, proportion_zero, zero_mul, hzero, zero_div, hzero,
    zero_add, zero_add, rounded_rounded (div_nonneg hsquared hsquare),
    rounded_rounded (div_nonneg hsquared hdouble)]

/-- The spread is rounded above the center only without a success. -/
theorem Score.spread_le_center_iff (hscore : Score numerator denominator) :
    spread numerator denominator ≤ center numerator denominator ↔
      (numerator = 0 → ZeroTermsOrdered denominator) := by
  rcases hscore.nonneg.eq_or_lt with rfl | hpos
  · rw [zeroTermsOrdered_iff hscore.pos]
    exact ⟨fun hle _ ↦ hle, fun hle ↦ hle rfl⟩
  · exact iff_of_true (hscore.spread_lt_center hpos).le fun hzero ↦ absurd hzero hpos.ne'

/-! ### The written bounds -/

/-- What holds of the written bounds. -/
structure Written (numerator denominator : ℤ) : Prop where
  document : wilsonAccuracyDocument numerator denominator =
    .ok ⟨numerator, denominator, .interval (lower numerator denominator).text
      (upper numerator denominator).text⟩
  ordered : 0 ≤ (lower numerator denominator).value ∧
    (lower numerator denominator).value ≤ (upper numerator denominator).value ∧
      (upper numerator denominator).value ≤ 1
  signed : (lower numerator denominator).text ≠ "-0.000000" ∧
    (upper numerator denominator).text ≠ "-0.000000"
  accurate : |((lower numerator denominator).value : ℝ) - exactLower numerator denominator| ≤
      1 / 10 ^ 6 ∧
    |((upper numerator denominator).value : ℝ) - exactUpper numerator denominator| ≤ 1 / 10 ^ 6
  covers : (lower numerator denominator).value - 1 / 10 ^ 6 ≤ (numerator / denominator : ℚ) ∧
    (numerator / denominator : ℚ) ≤ (upper numerator denominator).value + 1 / 10 ^ 6
  mirrored : |(lower (denominator - numerator) denominator).value -
      (1 - (upper numerator denominator).value)| ≤ 1 / 10 ^ 6 ∧
    |(upper (denominator - numerator) denominator).value -
      (1 - (lower numerator denominator).value)| ≤ 1 / 10 ^ 6

theorem Score.document (hscore : Score numerator denominator) :
    wilsonAccuracyDocument numerator denominator =
      .ok ⟨numerator, denominator, .interval (lower numerator denominator).text
        (upper numerator denominator).text⟩ := by
  have hnonneg := hscore.nonneg
  have hle := hscore.le
  have hpos := hscore.pos
  rw [wilsonAccuracyDocument, if_neg (by omega), if_neg (by omega)]

theorem abs_value_sub_le {bound : ℚ} {exact : ℝ} (hclose : |(bound : ℝ) - exact| ≤ 1 / 10 ^ 10) :
    |((quantize bound).value : ℝ) - exact| ≤ 1 / 2 / 10 ^ 6 + 1 / 10 ^ 10 := by
  have hquantize := (Rat.cast_le (K := ℝ)).mpr (abs_value_quantize_sub_le bound)
  push_cast at hquantize
  exact (abs_sub_le _ (bound : ℝ) _).trans (add_le_add hquantize hclose)

theorem Score.abs_lower_sub_le (hscore : Score numerator denominator) :
    |((lower numerator denominator).value : ℝ) - exactLower numerator denominator| ≤
      1 / 2 / 10 ^ 6 + 1 / 10 ^ 10 :=
  abs_value_sub_le hscore.abs_lowerBound_sub_le

theorem Score.abs_upper_sub_le (hscore : Score numerator denominator) :
    |((upper numerator denominator).value : ℝ) - exactUpper numerator denominator| ≤
      1 / 2 / 10 ^ 6 + 1 / 10 ^ 10 :=
  abs_value_sub_le hscore.abs_upperBound_sub_le

theorem exists_value_eq (number : SixPlaces) : ∃ count : ℤ, number.value = count / 10 ^ 6 := by
  rw [SixPlaces.value]
  split
  · exact ⟨-number.units, by push_cast; rfl⟩
  · exact ⟨number.units, by push_cast; rfl⟩

/-- Numbers with six places that are closer than two units to a mirror image are within one. -/
theorem abs_value_sub_mirrored_le {first second : SixPlaces}
    (hclose : |first.value - (1 - second.value)| < 2 / 10 ^ 6) :
    |first.value - (1 - second.value)| ≤ 1 / 10 ^ 6 := by
  obtain ⟨count, hcount⟩ := exists_value_eq first
  obtain ⟨other, hother⟩ := exists_value_eq second
  have hsplit : first.value - (1 - second.value) = ((count + other - 10 ^ 6 : ℤ) : ℚ) / 10 ^ 6 := by
    rw [hcount, hother]
    push_cast
    ring
  rw [hsplit, abs_div, abs_of_pos (show (0 : ℚ) < 10 ^ 6 by norm_num)] at hclose ⊢
  rw [div_lt_div_iff_of_pos_right (by norm_num)] at hclose
  refine div_le_div_of_nonneg_right ?_ (by norm_num)
  rw [← Int.cast_abs] at hclose ⊢
  have hint : |count + other - 10 ^ 6| < 2 := by exact_mod_cast hclose
  exact_mod_cast Int.lt_add_one_iff.mp hint

theorem Score.upper_value_le_one (hscore : Score numerator denominator) :
    (upper numerator denominator).value ≤ 1 := by
  have hclose := (abs_le.mp hscore.abs_upperBound_sub_le).2
  have hone := hscore.upper_le_one
  have hbound : upperBound numerator denominator ≤ 1 + 1 / 10 ^ 10 := by
    have hreal : ((upperBound numerator denominator : ℚ) : ℝ) ≤ ((1 + 1 / 10 ^ 10 : ℚ) : ℝ) := by
      push_cast
      linarith
    exact_mod_cast hreal
  have hunits : ⌊upperBound numerator denominator * 10 ^ 6 + 1 / 2⌋₊ ≤ 10 ^ 6 := by
    refine Nat.lt_add_one_iff.mp ((Nat.floor_lt (by
      have hnonneg := hscore.upperBound_nonneg
      positivity)).mpr ?_)
    push_cast
    linarith
  have hvalue : (upper numerator denominator).value =
      (⌊upperBound numerator denominator * 10 ^ 6 + 1 / 2⌋₊ : ℕ) / 10 ^ 6 :=
    value_quantize_of_nonneg hscore.upperBound_nonneg
  rw [hvalue, div_le_one (by norm_num)]
  exact_mod_cast hunits

/-- The lower bound has no sign when the rounded terms keep their order. -/
theorem Score.lowerBound_nonneg_iff (hscore : Score numerator denominator) :
    0 ≤ lowerBound numerator denominator ↔ (numerator = 0 → ZeroTermsOrdered denominator) := by
  rw [← hscore.spread_le_center_iff, ← not_lt, ← not_lt, hscore.lowerBound_neg_iff]

theorem Score.neg_half_lt_lowerBound (hscore : Score numerator denominator) :
    -(1 / 2 / 10 ^ 6) < lowerBound numerator denominator := by
  have hclose := (abs_le.mp hscore.abs_lowerBound_sub_le).1
  have hnonneg := hscore.lower_nonneg
  have hreal : ((-(1 / 2 / 10 ^ 6) : ℚ) : ℝ) < (lowerBound numerator denominator : ℚ) := by
    push_cast
    norm_num at hclose ⊢
    linarith
  exact_mod_cast hreal

theorem Score.covers (hscore : Score numerator denominator) :
    (lower numerator denominator).value - 1 / 10 ^ 6 ≤ (numerator / denominator : ℚ) ∧
      (numerator / denominator : ℚ) ≤ (upper numerator denominator).value + 1 / 10 ^ 6 := by
  have hlower := (abs_le.mp hscore.abs_lower_sub_le).2
  have hupper := (abs_le.mp hscore.abs_upper_sub_le).1
  have hbelow := hscore.lower_le_share
  have habove := hscore.share_le_upper
  have hshare : share numerator denominator = ((numerator / denominator : ℚ) : ℝ) := by
    push_cast
    rfl
  rw [hshare] at hbelow habove
  constructor
  · have hreal : (((lower numerator denominator).value - 1 / 10 ^ 6 : ℚ) : ℝ) ≤
        ((numerator / denominator : ℚ) : ℝ) := by
      push_cast at hbelow ⊢
      norm_num at hlower ⊢
      linarith
    exact_mod_cast hreal
  · have hreal : ((numerator / denominator : ℚ) : ℝ) ≤
        (((upper numerator denominator).value + 1 / 10 ^ 6 : ℚ) : ℝ) := by
      push_cast at habove ⊢
      norm_num at hupper ⊢
      linarith
    exact_mod_cast hreal

theorem Score.mirrored_bounds (hscore : Score numerator denominator) :
    |(lower (denominator - numerator) denominator).value -
        (1 - (upper numerator denominator).value)| ≤ 1 / 10 ^ 6 ∧
      |(upper (denominator - numerator) denominator).value -
        (1 - (lower numerator denominator).value)| ≤ 1 / 10 ^ 6 := by
  have hlower := abs_le.mp hscore.abs_lower_sub_le
  have hupper := abs_le.mp hscore.abs_upper_sub_le
  have hlower' := abs_le.mp hscore.mirrored.abs_lower_sub_le
  have hupper' := abs_le.mp hscore.mirrored.abs_upper_sub_le
  rw [hscore.lower_mirrored] at hlower'
  rw [hscore.upper_mirrored] at hupper'
  constructor
  · refine abs_value_sub_mirrored_le ?_
    have hreal : ((|(lower (denominator - numerator) denominator).value -
        (1 - (upper numerator denominator).value)| : ℚ) : ℝ) < ((2 / 10 ^ 6 : ℚ) : ℝ) := by
      push_cast
      norm_num at hlower hupper hlower' hupper'
      rw [abs_lt]
      norm_num
      constructor <;> linarith [hlower'.1, hlower'.2, hupper.1, hupper.2]
    exact_mod_cast hreal
  · refine abs_value_sub_mirrored_le ?_
    have hreal : ((|(upper (denominator - numerator) denominator).value -
        (1 - (lower numerator denominator).value)| : ℚ) : ℝ) < ((2 / 10 ^ 6 : ℚ) : ℝ) := by
      push_cast
      norm_num at hlower hupper hlower' hupper'
      rw [abs_lt]
      norm_num
      constructor <;> linarith [hupper'.1, hupper'.2, hlower.1, hlower.2]
    exact_mod_cast hreal

/-- The written interval is valid exactly when, without a success, the spread is not rounded above
the center. -/
theorem written_iff (numerator denominator : ℤ) (hnonneg : 0 ≤ numerator)
    (hle : numerator ≤ denominator) (hpos : 0 < denominator) :
    Written numerator denominator ↔ (numerator = 0 → ZeroTermsOrdered denominator) := by
  have hscore : Score numerator denominator := ⟨hnonneg, hle, hpos⟩
  rw [← hscore.lowerBound_nonneg_iff]
  constructor
  · intro hwritten
    by_contra hneg
    exact hwritten.signed.1 (text_eq_of_neg (not_le.mp hneg) hscore.neg_half_lt_lowerBound)
  · intro hlower
    have hhalf : (1 / 2 / 10 ^ 6 + 1 / 10 ^ 10 : ℝ) ≤ 1 / 10 ^ 6 := by norm_num
    exact
      { document := hscore.document
        ordered := ⟨value_quantize_nonneg hlower,
          value_quantize_mono hscore.upperBound_nonneg hscore.lowerBound_le_upperBound,
          hscore.upper_value_le_one⟩
        signed := ⟨text_ne_of_nonneg hlower, text_ne_of_nonneg hscore.upperBound_nonneg⟩
        accurate := ⟨hscore.abs_lower_sub_le.trans hhalf, hscore.abs_upper_sub_le.trans hhalf⟩
        covers := hscore.covers
        mirrored := hscore.mirrored_bounds }

/-! ### Twenty-one failures -/

theorem twentyOne_unordered : ¬ZeroTermsOrdered 21 := by
  rw [ZeroTermsOrdered, not_le]
  decide +kernel

/-- Without a success in 21 trials the lower bound is written as a negative zero. -/
theorem negativeZero_written : (lower 0 21).text = "-0.000000" ∧ ¬Written 0 21 := by
  have hscore : Score 0 21 := ⟨le_rfl, by norm_num, by norm_num⟩
  have hneg : ¬0 ≤ lowerBound 0 21 := fun hnonneg ↦
    twentyOne_unordered (hscore.lowerBound_nonneg_iff.mp hnonneg rfl)
  have htext : (lower 0 21).text = "-0.000000" :=
    text_eq_of_neg (not_le.mp hneg) hscore.neg_half_lt_lowerBound
  exact ⟨htext, fun hwritten ↦ hwritten.signed.1 htext⟩

/-- With ten trials it is written without a sign. -/
theorem ten_written : Written 0 10 :=
  (written_iff 0 10 le_rfl (by norm_num) (by norm_num)).mpr fun _ ↦ by
    rw [ZeroTermsOrdered]
    decide +kernel

end Oamb.Reporting.WilsonScores
