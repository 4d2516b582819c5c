import Oamb.Runtime.ResourceArithmetic

/-!
# Exact arithmetic under a ceiling

Decimal arithmetic rounds to the precision of the interpreter's context. Amounts whose decimals are
multiples of one quantum are still combined exactly as long as they stay under a ceiling whose
decimals have at most as many digits above the quantum as the context keeps. An amount that fits
such a ceiling and lies on the quantum is booked under the ceiling.

`Booked.exists_combine` says that a sum or difference of booked amounts which is nonnegative and
fits the ceiling as a rational number is accepted, exact, and booked again. `Booked.of_add_fits`
is the converse for the check of a reservation: when the rounded sum of a booked amount and any
amount on the quantum fits the ceiling, the second amount is booked too and the sum was exact.
-/

set_option autoImplicit false

namespace Oamb.Runtime.ExactAccounts

open Foundation Foundation.DecimalContext ResourceAmounts ResourceArithmetic

/-- The amount in a dimension as a rational number. -/
def value (budget : BudgetAmount) (dimension : Dimension) : ℚ := (budget.amount dimension).toRat

/-- The finite decimals of an amount are multiples of the quantum `10 ^ quantum`. -/
def OnQuantum (quantum : ℤ) (budget : BudgetAmount) : Prop :=
  ∀ (dimension : Dimension) (number : ℚ), dimension.IsDecimal →
    budget.amount dimension = .finite number → OnGrid quantum number

/-- The decimals of a ceiling are finite and below the limit of the quantum. -/
def Bounded (quantum : ℤ) (ceiling : BudgetAmount) : Prop :=
  ∀ dimension, ∃ bound, ceiling.amount dimension = .finite bound ∧
    (dimension.IsDecimal → bound < pythonContext.limit quantum)

/-- An amount on the quantum that fits a ceiling. -/
structure Booked (quantum : ℤ) (ceiling budget : BudgetAmount) : Prop where
  fits : Fits budget ceiling
  onQuantum : OnQuantum quantum budget

theorem amount_zero (dimension : Dimension) : BudgetAmount.zero.amount dimension = 0 := by
  cases dimension <;> simp [BudgetAmount.amount, BudgetAmount.zero, BudgetAmount.providerTable,
    BudgetAmount.resourceTable, Dictionary.ofList, Dictionary.insertAll, Decimal.zero_eq]

theorem OnQuantum.zero (quantum : ℤ) : OnQuantum quantum BudgetAmount.zero := by
  intro dimension number _ hamount
  rw [amount_zero, Decimal.zero_eq, Decimal.finite.injEq] at hamount
  exact hamount ▸ OnGrid.zero quantum

@[simp] theorem value_zero (dimension : Dimension) : value BudgetAmount.zero dimension = 0 := by
  rw [value, amount_zero, Decimal.toRat_zero]

theorem fits_zero (ceiling : BudgetAmount) : Fits BudgetAmount.zero ceiling := by
  refine ⟨fun dimension ↦ ?_, fun name unit hunit ↦ ?_⟩
  · rw [amount_zero]
    exact ceiling.amount_nonneg dimension
  · have hnone := BudgetAmount.unit?_eq_none.mpr (amount_zero (.resource name))
    rw [hnone] at hunit
    cases hunit

theorem Booked.zero (quantum : ℤ) (ceiling : BudgetAmount) :
    Booked quantum ceiling BudgetAmount.zero :=
  ⟨fits_zero ceiling, OnQuantum.zero quantum⟩

theorem fits_trans {first second third : BudgetAmount} (hfirst : Fits first second)
    (hsecond : Fits second third) (hfinite : ∀ dimension, ∃ bound,
      third.amount dimension = .finite bound) : Fits first third := by
  refine ⟨fun dimension ↦ ?_, fun name unit hunit ↦
    hsecond.unit_eq _ _ (hfirst.unit_eq _ _ hunit)⟩
  obtain ⟨bound, hbound⟩ := hfinite dimension
  have hle := hbound ▸ hsecond.amount_le dimension
  obtain ⟨middle, hmiddle, -⟩ :=
    Decimal.exists_finite_of_le (second.amount_nonneg dimension) hle
  have hle' := hmiddle ▸ hfirst.amount_le dimension
  obtain ⟨lower, hlower, -⟩ :=
    Decimal.exists_finite_of_le (first.amount_nonneg dimension) hle'
  rw [hmiddle, Decimal.finite_le_finite] at hle
  rw [hlower, Decimal.finite_le_finite] at hle'
  rw [hlower, hbound, Decimal.finite_le_finite]
  exact hle'.trans hle

/-- The exact result of a combination in one dimension. -/
def exactOperation (subtract : Bool) (first second : ℚ) : ℚ :=
  if subtract then first - second else first + second

section Bounded

variable {quantum : ℤ} {ceiling : BudgetAmount}

theorem amount_eq_value (hbounded : Bounded quantum ceiling) {budget : BudgetAmount}
    (hfits : Fits budget ceiling) (dimension : Dimension) :
    budget.amount dimension = .finite (value budget dimension) := by
  obtain ⟨bound, hbound, -⟩ := hbounded dimension
  obtain ⟨number, hnumber, -⟩ := Decimal.exists_finite_of_le (budget.amount_nonneg dimension)
    (hbound ▸ hfits.amount_le dimension)
  rw [value, hnumber, Decimal.toRat_finite]

theorem ceiling_amount_eq (hbounded : Bounded quantum ceiling) (dimension : Dimension) :
    ceiling.amount dimension = .finite (value ceiling dimension) := by
  obtain ⟨bound, hbound, -⟩ := hbounded dimension
  rw [value, hbound, Decimal.toRat_finite]

theorem value_nonneg (budget : BudgetAmount) (dimension : Dimension) :
    0 ≤ value budget dimension := by
  have hnonneg := budget.amount_nonneg dimension
  rw [value]
  cases hamount : budget.amount dimension with
  | finite number => exact (Decimal.zero_le_finite _).mp (hamount ▸ hnonneg)
  | infinity negative => exact le_rfl

theorem ceiling_value_lt (hbounded : Bounded quantum ceiling) {dimension : Dimension}
    (hdecimal : dimension.IsDecimal) : value ceiling dimension < pythonContext.limit quantum := by
  obtain ⟨bound, hbound, hlt⟩ := hbounded dimension
  rw [value, hbound]
  exact hlt hdecimal

/-- A decimal operation on booked amounts with a nonnegative result under the ceiling is exact. -/
theorem decimalOperation_eq (hadmits : pythonContext.Admits quantum) {subtract : Bool}
    {first second bound : ℚ} (hfirst : OnGrid quantum first) (hsecond : OnGrid quantum second)
    (hnonneg : 0 ≤ exactOperation subtract first second)
    (hle : exactOperation subtract first second ≤ bound)
    (hbound : bound < pythonContext.limit quantum) :
    decimalOperation subtract (.finite first) (.finite second) =
      .ok (.finite (exactOperation subtract first second)) := by
  have hlt : |exactOperation subtract first second| < pythonContext.limit quantum := by
    rw [abs_of_nonneg hnonneg]
    exact hle.trans_lt hbound
  cases subtract with
  | false =>
    rw [decimalOperation, if_neg Bool.false_ne_true,
      Context.add_eq_of_onGrid hadmits hfirst hsecond hlt]
    rfl
  | true =>
    rw [decimalOperation, if_pos rfl, Context.sub_eq_of_onGrid hadmits hfirst hsecond hlt]
    rfl

theorem integerOperation_cast (subtract : Bool) (first second : ℤ) :
    ((integerOperation subtract first second : ℤ) : ℚ) =
      exactOperation subtract first second := by
  cases subtract <;> simp [integerOperation, exactOperation]

namespace Booked

variable {subtract : Bool} {first second result : BudgetAmount}

/-- Every amount of an accepted combination of booked amounts that stays under the ceiling is the
exact one. -/
theorem amount_combine (hadmits : pythonContext.Admits quantum) (hbounded : Bounded quantum ceiling)
    (hfirst : Booked quantum ceiling first) (hsecond : Booked quantum ceiling second)
    (hnonneg : ∀ dimension, 0 ≤ exactOperation subtract (value first dimension)
      (value second dimension))
    (hle : ∀ dimension, exactOperation subtract (value first dimension)
      (value second dimension) ≤ value ceiling dimension)
    (hcombine : combine subtract first second = .ok result) (dimension : Dimension) :
    result.amount dimension =
      .finite (exactOperation subtract (value first dimension) (value second dimension)) := by
  obtain ⟨combination⟩ := combine_eq_ok.mp hcombine
  have hfirstAmount := amount_eq_value hbounded hfirst.fits dimension
  have hsecondAmount := amount_eq_value hbounded hsecond.fits dimension
  by_cases hdecimal : dimension.IsDecimal
  · rcases combination.amount_of_isDecimal hdecimal with ⟨hzero, hkept⟩ | hoperation
    · have hvalue : value second dimension = 0 := by rw [value, hzero, Decimal.toRat_zero]
      rw [hkept, hfirstAmount, hvalue]
      cases subtract <;> simp [exactOperation]
    · have hexact := decimalOperation_eq hadmits
        (hfirst.onQuantum dimension _ hdecimal hfirstAmount)
        (hsecond.onQuantum dimension _ hdecimal hsecondAmount) (hnonneg dimension)
        (hle dimension) (ceiling_value_lt hbounded hdecimal)
      rw [hfirstAmount, hsecondAmount, hexact, Except.ok.injEq] at hoperation
      exact hoperation.symm
  · obtain ⟨firstCount, secondCount, hfirstCount, hsecondCount, hresult⟩ :=
      combination.amount_of_not_isDecimal hdecimal
    rw [hresult, integerOperation_cast, value, value, hfirstCount, hsecondCount]
    rfl

/-- An exact combination lists only units of the ceiling, so it is booked again. -/
theorem of_amount_eq (hadmits : pythonContext.Admits quantum) (hbounded : Bounded quantum ceiling)
    (hfirst : Booked quantum ceiling first) (hsecond : Booked quantum ceiling second)
    (hnonneg : ∀ dimension, 0 ≤ exactOperation subtract (value first dimension)
      (value second dimension))
    (hle : ∀ dimension, exactOperation subtract (value first dimension)
      (value second dimension) ≤ value ceiling dimension)
    (hcombine : combine subtract first second = .ok result) : Booked quantum ceiling result := by
  have hamount := amount_combine hadmits hbounded hfirst hsecond hnonneg hle hcombine
  obtain ⟨combination⟩ := combine_eq_ok.mp hcombine
  refine ⟨⟨fun dimension ↦ ?_, fun name unit hunit ↦ ?_⟩, fun dimension number hdecimal heq ↦ ?_⟩
  · rw [hamount dimension, ceiling_amount_eq hbounded, Decimal.finite_le_finite]
    exact hle dimension
  · rcases combination.unit_of_unit hunit with hfirstUnit | hsecondUnit
    · exact hfirst.fits.unit_eq _ _ hfirstUnit
    · exact hsecond.fits.unit_eq _ _ hsecondUnit
  · rw [hamount dimension, Decimal.finite.injEq] at heq
    have hfirstGrid := hfirst.onQuantum dimension _ hdecimal
      (amount_eq_value hbounded hfirst.fits dimension)
    have hsecondGrid := hsecond.onQuantum dimension _ hdecimal
      (amount_eq_value hbounded hsecond.fits dimension)
    rw [← heq]
    cases subtract
    · exact hfirstGrid.add hsecondGrid
    · exact hfirstGrid.sub hsecondGrid

/-- A combination of booked amounts with a nonnegative exact result under the ceiling is accepted,
exact, and booked again. -/
theorem exists_combine (hadmits : pythonContext.Admits quantum) (hbounded : Bounded quantum ceiling)
    (hfirst : Booked quantum ceiling first) (hsecond : Booked quantum ceiling second)
    (hnonneg : ∀ dimension, 0 ≤ exactOperation subtract (value first dimension)
      (value second dimension))
    (hle : ∀ dimension, exactOperation subtract (value first dimension)
      (value second dimension) ≤ value ceiling dimension) :
    ∃ result, combine subtract first second = .ok result ∧ Booked quantum ceiling result ∧
      ∀ dimension, value result dimension =
        exactOperation subtract (value first dimension) (value second dimension) := by
  have hfirstAmount := amount_eq_value hbounded hfirst.fits
  have hsecondAmount := amount_eq_value hbounded hsecond.fits
  obtain ⟨result, hresult⟩ : ∃ result, combine subtract first second = .ok result := by
    refine ResourceArithmetic.exists_combine (fun dimension hdecimal ↦ ?_)
      (fun dimension firstCount secondCount _ hfirstCount hsecondCount ↦ ?_)
      (fun name unit unit' hfirstUnit hsecondUnit ↦ ?_)
    · refine ⟨_, ?_, (Decimal.zero_le_finite _).mpr (hnonneg dimension)⟩
      rw [hfirstAmount, hsecondAmount]
      exact decimalOperation_eq hadmits
        (hfirst.onQuantum dimension _ hdecimal (hfirstAmount dimension))
        (hsecond.onQuantum dimension _ hdecimal (hsecondAmount dimension)) (hnonneg dimension)
        (hle dimension) (ceiling_value_lt hbounded hdecimal)
    · have hcount := hnonneg dimension
      rw [value, value, hfirstCount, hsecondCount, Decimal.toRat_finite, Decimal.toRat_finite,
        ← integerOperation_cast] at hcount
      exact_mod_cast hcount
    · have hceiling := hfirst.fits.unit_eq _ _ hfirstUnit
      rw [hsecond.fits.unit_eq _ _ hsecondUnit, Option.some.injEq] at hceiling
      exact hceiling.symm
  refine ⟨result, hresult, of_amount_eq hadmits hbounded hfirst hsecond hnonneg hle hresult,
    fun dimension ↦ ?_⟩
  rw [value, amount_combine hadmits hbounded hfirst hsecond hnonneg hle hresult]
  rfl

/-- The amounts behind a rounded sum that fits the ceiling: the second amount is finite, and the
sum is exact. -/
theorem amount_add_of_fits (hadmits : pythonContext.Admits quantum)
    (hbounded : Bounded quantum ceiling) (hfirst : Booked quantum ceiling first)
    (hsecond : OnQuantum quantum second) (hadd : add first second = .ok result)
    (hfits : Fits result ceiling) (dimension : Dimension) :
    second.amount dimension = .finite (value second dimension) ∧
      result.amount dimension = .finite (value first dimension + value second dimension) := by
  obtain ⟨combination⟩ := combine_eq_ok.mp hadd
  have hfirstAmount := amount_eq_value hbounded hfirst.fits dimension
  by_cases hdecimal : dimension.IsDecimal
  · rcases combination.amount_of_isDecimal hdecimal with ⟨hzero, hkept⟩ | hoperation
    · rw [hkept, hfirstAmount, value, value, hzero]
      simp [Decimal.zero_eq]
    · have hle := hfits.amount_le dimension
      rw [ceiling_amount_eq hbounded] at hle
      rw [hfirstAmount, decimalOperation, if_neg Bool.false_ne_true] at hoperation
      split at hoperation
      · rename_i number hcontext
        cases hoperation
        cases hamount : second.amount dimension with
        | infinity negative =>
          -- An infinite amount would leave an infinite sum, which fits no finite ceiling.
          rw [hamount, Context.add, Except.ok.injEq] at hcontext
          have hnegative : negative = true := by
            rw [← hcontext] at hle
            exact (Decimal.infinity_le_finite _ _).mp hle
          have hnonneg := second.amount_nonneg dimension
          rw [hamount, hnegative] at hnonneg
          exact absurd hnonneg (by decide)
        | finite added =>
          have hvalue : value second dimension = added := by
            rw [value, hamount, Decimal.toRat_finite]
          rw [hamount] at hcontext
          obtain ⟨hexact, -⟩ := Context.add_le_of_add_le hadmits
            (hfirst.onQuantum dimension _ hdecimal hfirstAmount)
            (hsecond dimension added hdecimal hamount) (value_nonneg _ _)
            (hvalue ▸ value_nonneg second dimension) (ceiling_value_lt hbounded hdecimal)
            hcontext hle
          rw [hvalue]
          exact ⟨rfl, hexact⟩
      · cases hoperation
  · obtain ⟨firstCount, secondCount, hfirstCount, hsecondCount, hresult⟩ :=
      combination.amount_of_not_isDecimal hdecimal
    rw [hresult, integerOperation_cast, value, value, hfirstCount, hsecondCount]
    exact ⟨rfl, rfl⟩

/-- An amount whose rounded sum with a booked amount fits the ceiling is booked, and the exact sum
fits the ceiling. -/
theorem of_add_fits (hadmits : pythonContext.Admits quantum) (hbounded : Bounded quantum ceiling)
    (hfirst : Booked quantum ceiling first) (hsecond : OnQuantum quantum second)
    (hadd : add first second = .ok result) (hfits : Fits result ceiling) :
    Booked quantum ceiling second ∧
      ∀ dimension, value first dimension + value second dimension ≤ value ceiling dimension := by
  have hamount := amount_add_of_fits hadmits hbounded hfirst hsecond hadd hfits
  have hle : ∀ dimension,
      value first dimension + value second dimension ≤ value ceiling dimension := by
    intro dimension
    have hfit := hfits.amount_le dimension
    rwa [(hamount dimension).2, ceiling_amount_eq hbounded, Decimal.finite_le_finite] at hfit
  refine ⟨⟨⟨fun dimension ↦ ?_, fun name unit hunit ↦ ?_⟩, hsecond⟩, hle⟩
  · rw [(hamount dimension).1, ceiling_amount_eq hbounded, Decimal.finite_le_finite]
    exact le_trans (le_add_of_nonneg_left (value_nonneg _ _)) (hle dimension)
  · obtain ⟨combination⟩ := combine_eq_ok.mp hadd
    have hlisted : second.amount (.resource name) ≠ 0 := by
      rw [ne_eq, ← BudgetAmount.unit?_eq_none, hunit]
      simp
    have hresult : result.amount (.resource name) ≠ 0 := by
      rw [(hamount (.resource name)).1, Decimal.zero_eq, ne_eq, Decimal.finite.injEq] at hlisted
      rw [(hamount (.resource name)).2, Decimal.zero_eq, ne_eq, Decimal.finite.injEq]
      have hpositive := lt_of_le_of_ne (value_nonneg second (.resource name)) (Ne.symm hlisted)
      exact (add_pos_of_nonneg_of_pos (value_nonneg first _) hpositive).ne'
    exact hfits.unit_eq _ _ (combination.unit_of_second hunit hresult)

end Booked

end Bounded

end Oamb.Runtime.ExactAccounts
