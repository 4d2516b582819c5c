import Oamb.Foundation.SignificantDigits

/-!
# Accuracy with a Wilson interval

An accuracy is shown with the interval of its score, computed with 60 significant digits and written
with six places. The bounds of the exact interval are real numbers.
-/

set_option autoImplicit false

namespace Oamb.Reporting.WilsonInterval

open Foundation.SignificantDigits

def wilson95Z : ℚ := 1959963984540054 / 10 ^ 15

/-- A result in the context of the interval. -/
def rounded (value : ℚ) : ℚ := significant 60 value

/-! ### Six places -/

/-- A number with six places. The sign of a zero is kept. -/
structure SixPlaces where
  negative : Bool
  units : ℕ
  deriving DecidableEq

/-- The nearest number with six places. A tie goes away from zero. -/
def quantize (value : ℚ) : SixPlaces := ⟨value < 0, ⌊|value| * 10 ^ 6 + 1 / 2⌋₊⟩

def SixPlaces.value (number : SixPlaces) : ℚ :=
  (if number.negative then -(number.units : ℚ) else number.units) / 10 ^ 6

def SixPlaces.text (number : SixPlaces) : String :=
  String.ofList ((if number.negative then ['-'] else []) ++
    (Nat.toDigits 10 (number.units / 10 ^ 6) ++
      '.' :: (Nat.toDigits 10 (number.units % 10 ^ 6)).leftpad 6 '0'))

/-! ### The interval -/

section Interval

variable (numerator denominator : ℤ)

def zSquared : ℚ := rounded (wilson95Z * wilson95Z)

def proportion : ℚ := rounded (numerator / denominator)

def center : ℚ :=
  rounded (proportion numerator denominator + rounded (zSquared / rounded (2 * denominator)))

/-- What the square root is taken of. -/
def radicand : ℚ :=
  rounded (rounded (rounded (proportion numerator denominator *
      rounded (1 - proportion numerator denominator)) / denominator) +
    rounded (zSquared / rounded (rounded (4 * denominator) * denominator)))

def spread : ℚ := rounded (wilson95Z * significantSqrt 60 (radicand numerator denominator))

def divisor : ℚ := rounded (1 + rounded (zSquared / denominator))

def lower : SixPlaces :=
  quantize (rounded (rounded (center numerator denominator - spread numerator denominator) /
    divisor denominator))

def upper : SixPlaces :=
  quantize (rounded (rounded (center numerator denominator + spread numerator denominator) /
    divisor denominator))

end Interval

inductive Wilson95
  | unavailable
  | interval (lower upper : String)
  deriving DecidableEq

structure AccuracyDocument where
  numerator : ℤ
  denominator : ℤ
  wilson95 : Wilson95
  deriving DecidableEq

def wilsonAccuracyDocument (numerator denominator : ℤ) : Except String AccuracyDocument :=
  if numerator < 0 ∨ denominator < 0 ∨ denominator < numerator then
    .error "Wilson accuracy requires 0 <= numerator <= denominator"
  else if denominator = 0 then .ok ⟨numerator, denominator, .unavailable⟩
  else .ok ⟨numerator, denominator, .interval (lower numerator denominator).text
    (upper numerator denominator).text⟩

/-! ### The exact interval -/

section Exact

variable (numerator denominator : ℤ)

noncomputable def exactCenter : ℝ :=
  numerator / denominator + wilson95Z ^ 2 / ((2 * denominator : ℤ) : ℝ)

noncomputable def exactSpread : ℝ :=
  wilson95Z * √(numerator / denominator * (1 - numerator / denominator) / denominator +
    wilson95Z ^ 2 / ((4 * denominator ^ 2 : ℤ) : ℝ))

noncomputable def exactDivisor : ℝ := 1 + wilson95Z ^ 2 / denominator

/-- The bounds of the score. -/
noncomputable def exactLower : ℝ :=
  (exactCenter numerator denominator - exactSpread numerator denominator) /
    exactDivisor denominator

noncomputable def exactUpper : ℝ :=
  (exactCenter numerator denominator + exactSpread numerator denominator) /
    exactDivisor denominator

end Exact

end Oamb.Reporting.WilsonInterval
