import Mathlib.Data.Int.Log
import Mathlib.Data.Rat.Floor

/-!
# Decimal arithmetic in a bounded context

A decimal number is a rational number or a signed infinity, and arithmetic happens in a context of
finite precision: the exact result is rounded half to even to the precision of the context, never
below the smallest exponent, and a rounded result above the largest exponent is an overflow signal.
An operation without a value (`∞ - ∞`) raises a signal instead of producing a quiet result, so no
not-a-number value is part of the type. The number of trailing zeros of a representation does not
influence a result's value, so the value alone is kept.

A grid is the set of integer multiples of one power of ten. `round_eq_of_onGrid` is the exactness
of the context: a grid value with fewer digits than the precision is not changed by rounding.
`le_round_of_le` is the other half: a value with more digits is not rounded back below the range.
`add_eq_of_onGrid` and `sub_eq_of_onGrid` say that grid arithmetic inside the range is exact, and
`add_le_of_add_le` that a rounded sum which stays below a bound inside the range was exact.
-/

set_option autoImplicit false

namespace Oamb.Foundation.DecimalContext

/-- An arithmetic context: the number of significant digits, the exponent below which no digit is
kept, and the largest adjusted exponent of a result. -/
structure Context where
  /-- The number of significant digits of a result. -/
  precision : ℕ
  /-- The smallest exponent of a digit that is kept. -/
  etiny : ℤ
  /-- The largest adjusted exponent of a result. -/
  emax : ℤ
  /-- A result keeps at least one digit. -/
  precision_pos : 0 < precision

/-- The trapped conditions of an operation. -/
inductive Signal
  | invalidOperation
  | divisionByZero
  | overflow
  deriving DecidableEq, Repr

/-- A decimal number: a finite value or a signed infinity. -/
inductive Decimal
  | finite (value : ℚ)
  | infinity (negative : Bool)
  deriving DecidableEq

namespace Decimal

/-- The order of the decimal numbers, as a test. -/
def leTest : Decimal → Decimal → Bool
  | finite first, finite second => decide (first ≤ second)
  | finite _, infinity negative => !negative
  | infinity negative, finite _ => negative
  | infinity first, infinity second => first || !second

instance : LE Decimal := ⟨fun first second ↦ leTest first second = true⟩

instance : DecidableLE Decimal := fun first second ↦
  inferInstanceAs (Decidable (leTest first second = true))

instance : Zero Decimal := ⟨finite 0⟩

instance : Inhabited Decimal := ⟨0⟩

theorem zero_eq : (0 : Decimal) = finite 0 := rfl

/-- The value of a finite number. -/
def toRat : Decimal → ℚ
  | finite value => value
  | infinity _ => 0

@[simp] theorem toRat_finite (value : ℚ) : (finite value).toRat = value := rfl

@[simp] theorem toRat_zero : (0 : Decimal).toRat = 0 := rfl

@[simp] theorem finite_le_finite (first second : ℚ) :
    finite first ≤ finite second ↔ first ≤ second :=
  decide_eq_true_iff

@[simp] theorem infinity_le_finite (negative : Bool) (value : ℚ) :
    infinity negative ≤ finite value ↔ negative = true :=
  Iff.rfl

@[simp] theorem zero_le_finite (value : ℚ) : (0 : Decimal) ≤ finite value ↔ 0 ≤ value :=
  finite_le_finite 0 value

@[simp] theorem zero_le_zero : (0 : Decimal) ≤ 0 := (zero_le_finite 0).mpr le_rfl

/-- A nonnegative decimal number below a finite one is finite. -/
theorem exists_finite_of_le {number : Decimal} {bound : ℚ} (hnonneg : (0 : Decimal) ≤ number)
    (hle : number ≤ finite bound) : ∃ value, number = finite value ∧ 0 ≤ value := by
  cases number with
  | finite value => exact ⟨value, rfl, (zero_le_finite value).mp hnonneg⟩
  | infinity negative =>
    have hnegative : negative = true := hle
    subst hnegative
    exact absurd hnonneg (by decide)

/-- A nonnegative decimal number that is not above zero is zero. -/
theorem eq_zero_of_le_zero {number : Decimal} (hnonneg : 0 ≤ number) (hle : number ≤ 0) :
    number = 0 := by
  obtain ⟨value, rfl, hvalue⟩ := exists_finite_of_le hnonneg hle
  rw [zero_eq, finite_le_finite] at hle
  rw [zero_eq, le_antisymm hle hvalue]

end Decimal

/-! ### Rounding -/

/-- The nearest integer, ties to the even neighbour. -/
def roundHalfEven (value : ℚ) : ℤ :=
  let lower := ⌊value⌋
  if value - lower < 1 / 2 then lower
  else if 1 / 2 < value - lower then lower + 1
  else if Even lower then lower
  else lower + 1

theorem roundHalfEven_intCast (value : ℤ) : roundHalfEven (value : ℚ) = value := by
  simp [roundHalfEven]

/-- Rounding does not cross an integer from above. -/
theorem le_roundHalfEven {bound : ℤ} {value : ℚ} (hle : (bound : ℚ) ≤ value) :
    bound ≤ roundHalfEven value := by
  have hfloor : bound ≤ ⌊value⌋ := Int.le_floor.mpr hle
  simp only [roundHalfEven]
  split_ifs <;> omega

namespace Context

variable (context : Context)

/-- The exponent of the last digit kept of a nonzero value. -/
def exponent (value : ℚ) : ℤ :=
  max (Int.log 10 |value| + 1 - context.precision) context.etiny

/-- The value after rounding to the precision of the context. -/
def round (value : ℚ) : ℚ :=
  if value = 0 then 0
  else roundHalfEven (value / 10 ^ context.exponent value) * 10 ^ context.exponent value

/-- The result of an operation with the exact value `value`. -/
def finalize (value : ℚ) : Except Signal Decimal :=
  if context.round value ≠ 0 ∧ context.emax < Int.log 10 |context.round value| then
    .error .overflow
  else .ok (.finite (context.round value))

/-- Addition in the context. -/
def add : Decimal → Decimal → Except Signal Decimal
  | .finite first, .finite second => context.finalize (first + second)
  | .finite _, .infinity negative => .ok (.infinity negative)
  | .infinity negative, .finite _ => .ok (.infinity negative)
  | .infinity first, .infinity second =>
    if first = second then .ok (.infinity first) else .error .invalidOperation

/-- Subtraction in the context. -/
def sub : Decimal → Decimal → Except Signal Decimal
  | first, .finite second => context.add first (.finite (-second))
  | first, .infinity negative => context.add first (.infinity !negative)

end Context

/-! ### Grid values -/

/-- The value is an integer multiple of `10 ^ quantum`. -/
def OnGrid (quantum : ℤ) (value : ℚ) : Prop := ∃ count : ℤ, value = count * 10 ^ quantum

theorem OnGrid.zero (quantum : ℤ) : OnGrid quantum 0 := ⟨0, by simp⟩

theorem OnGrid.add {quantum : ℤ} {first second : ℚ} (hfirst : OnGrid quantum first)
    (hsecond : OnGrid quantum second) : OnGrid quantum (first + second) := by
  obtain ⟨firstCount, rfl⟩ := hfirst
  obtain ⟨secondCount, rfl⟩ := hsecond
  exact ⟨firstCount + secondCount, by push_cast; ring⟩

theorem OnGrid.neg {quantum : ℤ} {value : ℚ} (hvalue : OnGrid quantum value) :
    OnGrid quantum (-value) := by
  obtain ⟨count, rfl⟩ := hvalue
  exact ⟨-count, by push_cast; ring⟩

theorem OnGrid.sub {quantum : ℤ} {first second : ℚ} (hfirst : OnGrid quantum first)
    (hsecond : OnGrid quantum second) : OnGrid quantum (first - second) := by
  rw [sub_eq_add_neg]
  exact hfirst.add hsecond.neg

theorem onGrid_zero_intCast (value : ℤ) : OnGrid 0 (value : ℚ) := ⟨value, by simp⟩

/-- The grid of `10 ^ quantum` lies inside the exponent range of the context. -/
structure Context.Admits (context : Context) (quantum : ℤ) : Prop where
  etiny_le : context.etiny ≤ quantum
  le_emax : context.precision + quantum ≤ context.emax + 1

/-- The first value with more digits above the grid than the precision of the context. -/
def Context.limit (context : Context) (quantum : ℤ) : ℚ := 10 ^ (context.precision + quantum)

section Exactness

variable {context : Context} {quantum : ℤ}

theorem Context.limit_pos : 0 < context.limit quantum := by
  unfold Context.limit
  exact zpow_pos (by norm_num) _

/-- The exponent of a value inside the range does not lie above the grid. -/
theorem Context.exponent_le (hadmits : context.Admits quantum) {value : ℚ} (hne : value ≠ 0)
    (hlt : |value| < context.limit quantum) : context.exponent value ≤ quantum := by
  have hlog : Int.log 10 |value| < context.precision + quantum :=
    (Int.lt_zpow_iff_log_lt (by norm_num) (abs_pos.mpr hne)).mp (by simpa [Context.limit] using hlt)
  exact max_le (by omega) hadmits.etiny_le

/-- A grid value is not changed by rounding when all its digits are kept. -/
theorem Context.round_eq_of_exponent_le {value : ℚ} (hgrid : OnGrid quantum value)
    (hexponent : context.exponent value ≤ quantum) : context.round value = value := by
  by_cases hzero : value = 0
  · simp [Context.round, hzero]
  obtain ⟨count, hcount⟩ := hgrid
  obtain ⟨shift, hshift⟩ : ∃ shift : ℕ, quantum = context.exponent value + shift :=
    ⟨(quantum - context.exponent value).toNat, by omega⟩
  have hpower : (10 : ℚ) ^ context.exponent value ≠ 0 := zpow_ne_zero _ (by norm_num)
  have hinteger : value / 10 ^ context.exponent value = ((count * 10 ^ shift : ℤ) : ℚ) := by
    rw [div_eq_iff hpower]
    push_cast
    calc value = count * 10 ^ quantum := hcount
      _ = count * 10 ^ (context.exponent value + shift) := by rw [← hshift]
      _ = count * 10 ^ shift * 10 ^ context.exponent value := by
        rw [zpow_add₀ (by norm_num), zpow_natCast]
        ring
  rw [Context.round, if_neg hzero, hinteger, roundHalfEven_intCast, ← hinteger,
    div_mul_cancel₀ _ hpower]

/-- A grid value with at most as many digits as the precision is not changed by rounding. -/
theorem Context.round_eq_of_onGrid (hadmits : context.Admits quantum) {value : ℚ}
    (hgrid : OnGrid quantum value) (hlt : |value| < context.limit quantum) :
    context.round value = value := by
  by_cases hzero : value = 0
  · simp [Context.round, hzero]
  exact Context.round_eq_of_exponent_le hgrid (Context.exponent_le hadmits hzero hlt)

/-- A value at or above the limit of the grid is not rounded below it. -/
theorem Context.le_round_of_le (hadmits : context.Admits quantum) {value : ℚ}
    (hle : context.limit quantum ≤ value) : context.limit quantum ≤ context.round value := by
  have hpos : 0 < value := lt_of_lt_of_le Context.limit_pos hle
  have hlog : context.precision + quantum ≤ Int.log 10 value :=
    (Int.zpow_le_iff_le_log (by norm_num) hpos).mp (by simpa [Context.limit] using hle)
  have hprecision := context.precision_pos
  have hetiny := hadmits.etiny_le
  have hexponent : context.exponent value = Int.log 10 value + 1 - context.precision := by
    rw [Context.exponent, abs_of_pos hpos]
    exact max_eq_left (by omega)
  set last := context.exponent value with hlast
  have hpower : (0 : ℚ) < 10 ^ last := zpow_pos (by norm_num) _
  have hsplit : (10 : ℚ) ^ Int.log 10 value = 10 ^ (context.precision - 1) * 10 ^ last := by
    rw [← zpow_natCast, ← zpow_add₀ (by norm_num)]
    congr 1
    omega
  have hscaled : (((10 : ℤ) ^ (context.precision - 1) : ℤ) : ℚ) ≤ value / 10 ^ last := by
    rw [le_div_iff₀ hpower]
    push_cast
    rw [← hsplit]
    exact_mod_cast Int.zpow_log_le_self (by norm_num) hpos
  have hrounded : ((10 : ℚ) ^ (context.precision - 1)) ≤
      (roundHalfEven (value / 10 ^ last) : ℚ) := by
    exact_mod_cast le_roundHalfEven hscaled
  rw [Context.round, if_neg hpos.ne']
  calc context.limit quantum ≤ 10 ^ Int.log 10 value :=
        zpow_le_zpow_right₀ (by norm_num) hlog
    _ = 10 ^ (context.precision - 1) * 10 ^ last := hsplit
    _ ≤ roundHalfEven (value / 10 ^ last) * 10 ^ last :=
        mul_le_mul_of_nonneg_right hrounded hpower.le

/-- The result of an operation whose exact value is a grid value inside the range is exact. -/
theorem Context.finalize_eq_of_onGrid (hadmits : context.Admits quantum) {value : ℚ}
    (hgrid : OnGrid quantum value) (hlt : |value| < context.limit quantum) :
    context.finalize value = .ok (.finite value) := by
  have hround := Context.round_eq_of_onGrid hadmits hgrid hlt
  have hrange : ¬ (value ≠ 0 ∧ context.emax < Int.log 10 |value|) := by
    rintro ⟨hne, hlog⟩
    have hbelow : Int.log 10 |value| < context.precision + quantum :=
      (Int.lt_zpow_iff_log_lt (by norm_num) (abs_pos.mpr hne)).mp (by simpa [Context.limit] using hlt)
    have hemax := hadmits.le_emax
    omega
  rw [Context.finalize, hround, if_neg hrange]

/-- The sum of two grid values is exact when it lies inside the range. -/
theorem Context.add_eq_of_onGrid (hadmits : context.Admits quantum) {first second : ℚ}
    (hfirst : OnGrid quantum first) (hsecond : OnGrid quantum second)
    (hlt : |first + second| < context.limit quantum) :
    context.add (.finite first) (.finite second) = .ok (.finite (first + second)) :=
  Context.finalize_eq_of_onGrid hadmits (hfirst.add hsecond) hlt

/-- The difference of two grid values is exact when it lies inside the range. -/
theorem Context.sub_eq_of_onGrid (hadmits : context.Admits quantum) {first second : ℚ}
    (hfirst : OnGrid quantum first) (hsecond : OnGrid quantum second)
    (hlt : |first - second| < context.limit quantum) :
    context.sub (.finite first) (.finite second) = .ok (.finite (first - second)) := by
  rw [sub_eq_add_neg] at hlt ⊢
  exact Context.add_eq_of_onGrid hadmits hfirst hsecond.neg hlt

/-- A rounded sum of nonnegative grid values that stays at or below a bound inside the range was
not rounded. -/
theorem Context.add_le_of_add_le (hadmits : context.Admits quantum) {first second bound : ℚ}
    (hfirst : OnGrid quantum first) (hsecond : OnGrid quantum second) (hfirstNonneg : 0 ≤ first)
    (hsecondNonneg : 0 ≤ second) (hbound : bound < context.limit quantum) {result : Decimal}
    (hadd : context.add (.finite first) (.finite second) = .ok result)
    (hle : result ≤ .finite bound) :
    result = .finite (first + second) ∧ first + second ≤ bound := by
  rcases lt_or_ge (first + second) (context.limit quantum) with hinside | houtside
  · have hexact := Context.add_eq_of_onGrid hadmits hfirst hsecond
      (by rwa [abs_of_nonneg (add_nonneg hfirstNonneg hsecondNonneg)])
    rw [hexact, Except.ok.injEq] at hadd
    subst hadd
    exact ⟨rfl, (Decimal.finite_le_finite _ _).mp hle⟩
  · exfalso
    have hround := Context.le_round_of_le hadmits houtside
    simp only [Context.add, Context.finalize] at hadd
    split at hadd
    · cases hadd
    · cases hadd
      exact absurd (le_trans hround ((Decimal.finite_le_finite _ _).mp hle)) (not_le.mpr hbound)

end Exactness

end Oamb.Foundation.DecimalContext
