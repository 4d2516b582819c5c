import Oamb.Foundation.DecimalContext

/-!
# Sums that are rounded at each step

A sum of decimal numbers is rounded to the precision of a context at each step. A rounded result is
not changed by rounding it again (`rounded_of_add`), so that zeros may be left out of a sum
(`foldlM_zeros`), and a sum of nonnegative numbers is not negative.
-/

set_option autoImplicit false

namespace Oamb.Foundation.RoundedSums

open DecimalContext

variable {context : Context}

/-! ### Rounding twice -/

theorem roundHalfEven_le {bound : ℤ} {value : ℚ} (hle : value ≤ (bound : ℚ)) :
    roundHalfEven value ≤ bound := by
  have hfloor : ⌊value⌋ ≤ bound := by
    exact_mod_cast (Int.floor_le value).trans hle
  by_cases hsame : ⌊value⌋ = bound
  · have hvalue : value - ⌊value⌋ < 1 / 2 := by
      rw [hsame]
      linarith
    rw [roundHalfEven, if_pos hvalue]
    exact hfloor
  · simp only [roundHalfEven]
    split_ifs <;> omega

/-- A value has no more digits above its last one than the precision. -/
theorem abs_scaled_le (context : Context) (value : ℚ) :
    |value / 10 ^ context.exponent value| ≤ (10 : ℚ) ^ context.precision := by
  have hpower : (0 : ℚ) < 10 ^ context.exponent value := zpow_pos (by norm_num) _
  have hlt : |value| < (10 : ℚ) ^ (Int.log 10 |value| + 1) := by
    exact_mod_cast Int.lt_zpow_succ_log_self (by norm_num : 1 < 10) |value|
  rw [abs_div, abs_of_pos hpower, div_le_iff₀ hpower, ← zpow_natCast, ← zpow_add₀ (by norm_num)]
  refine hlt.le.trans (zpow_le_zpow_right₀ (by norm_num) ?_)
  have hexponent : Int.log 10 |value| + 1 - context.precision ≤ context.exponent value :=
    le_max_left _ _
  omega

theorem abs_roundHalfEven_le {value : ℚ} {bound : ℕ} (hle : |value| ≤ (10 : ℚ) ^ bound) :
    |roundHalfEven value| ≤ 10 ^ bound := by
  rw [abs_le] at hle ⊢
  constructor
  · exact le_roundHalfEven (by push_cast; exact hle.1)
  · exact roundHalfEven_le (by push_cast; exact hle.2)

/-- The exponent of a value is known from a power of ten above it. -/
theorem exponent_le_of_lt {value : ℚ} {quantum : ℤ} (hetiny : context.etiny ≤ quantum)
    (hne : value ≠ 0) (hlt : |value| < 10 ^ (context.precision + quantum)) :
    context.exponent value ≤ quantum := by
  have hlog : Int.log 10 |value| < context.precision + quantum :=
    (Int.lt_zpow_iff_log_lt (by norm_num) (abs_pos.mpr hne)).mp (by exact_mod_cast hlt)
  exact max_le (by omega) hetiny

theorem round_zero (context : Context) : context.round 0 = 0 := by simp [Context.round]

/-- A rounded value is not changed by rounding it again. -/
theorem round_round (context : Context) (value : ℚ) :
    context.round (context.round value) = context.round value := by
  by_cases hzero : value = 0
  · rw [hzero, round_zero, round_zero]
  set last := context.exponent value with hlast
  set count := roundHalfEven (value / 10 ^ last) with hcount
  have hround : context.round value = count * 10 ^ last := by
    rw [Context.round, if_neg hzero]
  have hetiny : context.etiny ≤ last := le_max_right _ _
  have hpower : (0 : ℚ) < 10 ^ last := zpow_pos (by norm_num) _
  have hle : |count| ≤ 10 ^ context.precision := abs_roundHalfEven_le (abs_scaled_le context value)
  have habs : |context.round value| = |count| * 10 ^ last := by
    rw [hround, abs_mul, abs_of_pos hpower, Int.cast_abs]
  by_cases hnone : context.round value = 0
  · rw [hnone, round_zero]
  rcases lt_or_eq_of_le hle with hlt | heq
  · have hgrid : OnGrid last (context.round value) := ⟨count, hround⟩
    refine Context.round_eq_of_exponent_le hgrid (exponent_le_of_lt hetiny hnone ?_)
    rw [habs, zpow_add₀ (by norm_num), zpow_natCast]
    exact mul_lt_mul_of_pos_right (by exact_mod_cast hlt) hpower
  · -- All digits were carried, and the last one of them is a zero.
    obtain ⟨digits, hdigits⟩ := Nat.exists_eq_add_of_lt context.precision_pos
    rw [Nat.zero_add] at hdigits
    have hgrid : OnGrid (last + 1) (context.round value) := by
      have hcarry : (10 : ℚ) ^ context.precision * 10 ^ last = 10 ^ digits * 10 ^ (last + 1) := by
        rw [hdigits, zpow_add₀ (by norm_num), pow_succ]
        ring
      rcases abs_eq (by positivity) |>.mp heq with hpos | hneg
      · refine ⟨10 ^ digits, ?_⟩
        rw [hround, hpos]
        push_cast
        exact hcarry
      · refine ⟨-10 ^ digits, ?_⟩
        rw [hround, hneg]
        push_cast
        rw [neg_mul, neg_mul, hcarry]
    refine Context.round_eq_of_exponent_le hgrid (exponent_le_of_lt (by omega) hnone ?_)
    rw [habs, heq, ← add_assoc, zpow_add_one₀ (by norm_num), zpow_add₀ (by norm_num), zpow_natCast]
    push_cast
    have hprod : (0 : ℚ) < 10 ^ context.precision * 10 ^ last := by positivity
    linarith

/-! ### Rounded numbers -/

/-- A number is not changed by adding zero. -/
def Rounded (context : Context) (number : Decimal) : Prop := context.add number 0 = .ok number

theorem rounded_zero (context : Context) : Rounded context 0 := by
  unfold Rounded
  change context.finalize (0 + 0) = _
  rw [add_zero, Context.finalize, round_zero, if_neg fun hboth ↦ hboth.1 rfl]
  rfl

/-- A sum is rounded. -/
theorem rounded_of_add {first second result : Decimal}
    (hadd : context.add first second = .ok result) : Rounded context result := by
  cases result with
  | infinity negative => rfl
  | finite value =>
    cases first with
    | infinity negative =>
      cases second with
      | finite other => cases hadd
      | infinity other =>
        rw [Context.add] at hadd
        split at hadd <;> cases hadd
    | finite first =>
      cases second with
      | infinity other => cases hadd
      | finite second =>
        rw [Context.add, Context.finalize] at hadd
        split at hadd
        · cases hadd
        · next hrange =>
          rw [Except.ok.injEq, Decimal.finite.injEq] at hadd
          subst hadd
          change context.finalize (context.round (first + second) + 0) = _
          rw [add_zero, Context.finalize, round_round, if_neg hrange]

/-- A sum of nonnegative numbers is not negative. -/
theorem nonneg_of_add {first second result : Decimal} (hfirst : 0 ≤ first) (hsecond : 0 ≤ second)
    (hadd : context.add first second = .ok result) : 0 ≤ result := by
  cases first with
  | infinity negative =>
    cases negative with
    | true => exact absurd hfirst (by decide)
    | false =>
      cases second with
      | finite other =>
        cases hadd
        exact hfirst
      | infinity other =>
        rw [Context.add] at hadd
        split at hadd
        · cases hadd
          exact hfirst
        · cases hadd
  | finite first =>
    cases second with
    | infinity other =>
      cases hadd
      exact hsecond
    | finite second =>
      rw [Context.add, Context.finalize] at hadd
      split at hadd
      · cases hadd
      · cases hadd
        rw [Decimal.zero_le_finite] at hfirst hsecond ⊢
        unfold Context.round
        split
        · exact le_rfl
        · have hpower : (0 : ℚ) ≤ 10 ^ context.exponent (first + second) :=
            (zpow_pos (by norm_num) _).le
          have hcount : (0 : ℤ) ≤
              roundHalfEven ((first + second) / 10 ^ context.exponent (first + second)) :=
            le_roundHalfEven (by push_cast; exact div_nonneg (add_nonneg hfirst hsecond) hpower)
          exact mul_nonneg (Int.cast_nonneg hcount) hpower

/-- Zeros may be left out of a sum. -/
theorem foldlM_zeros {ι : Type} {items : List ι} {listed : ι → List Decimal} {amount : ι → Decimal}
    {start : Decimal} (hstart : Rounded context start)
    (hlisted : ∀ item ∈ items, listed item = [amount item] ∨ listed item = [] ∧ amount item = 0) :
    (items.flatMap listed).foldlM context.add start =
      (items.map amount).foldlM context.add start := by
  induction items generalizing start with
  | nil => rfl
  | cons item items ih =>
    obtain ⟨hitem, hlisted⟩ := List.forall_mem_cons.mp hlisted
    rw [List.flatMap_cons, List.map_cons, List.foldlM_append, List.foldlM_cons]
    rcases hitem with hitem | ⟨hnone, hzero⟩
    · rw [hitem, List.foldlM_cons, bind_assoc]
      simp only [List.foldlM_nil, pure_bind]
      cases hadd : context.add start (amount item) with
      | error signal => rfl
      | ok next => exact ih (rounded_of_add hadd) hlisted
    · rw [hnone, hzero, List.foldlM_nil, pure_bind]
      unfold Rounded at hstart
      rw [hstart]
      exact ih hstart hlisted

end Oamb.Foundation.RoundedSums
