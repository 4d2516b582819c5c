import Mathlib.Algebra.BigOperators.Field
import Mathlib.Data.Nat.Choose.Sum
import Mathlib.Data.Rat.Floor

/-!
# The exact test of a fair coin

A fair coin is tossed a number of times. `pointProbability` is the probability of a number of heads,
and `twoSidedProbability` that of the outcomes which are not more likely than an observed one: the
two-sided exact binomial probability. The outcomes that are not more likely are those of the two
tails, so it is twice the smaller tail, and one where the tails meet (`twoSidedProbability_eq_min`).
-/

set_option autoImplicit false

namespace Oamb.Foundation.FairCoin

open Finset

/-- The probability of a number of heads. -/
def pointProbability (tosses heads : ℕ) : ℚ := tosses.choose heads / 2 ^ tosses

/-- The probability of the outcomes that are not more likely than the observed one. -/
def twoSidedProbability (tosses heads : ℕ) : ℚ :=
  ∑ outcome ∈ range (tosses + 1) with
    pointProbability tosses outcome ≤ pointProbability tosses heads,
      pointProbability tosses outcome

/-- The number of sequences of tosses with at most a number of heads. -/
def lowerTail (tosses heads : ℕ) : ℕ := ∑ outcome ∈ range (heads + 1), tosses.choose outcome

variable {tosses heads outcome : ℕ}

theorem pointProbability_le_iff {other : ℕ} :
    pointProbability tosses other ≤ pointProbability tosses heads ↔
      tosses.choose other ≤ tosses.choose heads := by
  rw [pointProbability, pointProbability, div_le_div_iff_of_pos_right (by positivity)]
  exact Nat.cast_le

theorem pointProbability_swap (hle : heads ≤ tosses) :
    pointProbability tosses (tosses - heads) = pointProbability tosses heads := by
  rw [pointProbability, pointProbability, Nat.choose_symm hle]

/-! ### The unimodal coefficients -/

/-- The coefficients below the middle increase strictly. -/
theorem choose_lt_succ (hlt : 2 * heads + 1 < tosses) :
    tosses.choose heads < tosses.choose (heads + 1) := by
  have hstep := Nat.choose_succ_right_eq tosses heads
  have hpos : 0 < tosses.choose heads := Nat.choose_pos (by omega)
  have hfactor : heads + 1 < tosses - heads := by omega
  have hless : tosses.choose heads * (heads + 1) < tosses.choose (heads + 1) * (heads + 1) := by
    rw [hstep]
    exact Nat.mul_lt_mul_of_pos_left hfactor hpos
  exact Nat.lt_of_mul_lt_mul_right hless

theorem choose_mono_below {first second : ℕ} (hle : first ≤ second)
    (hhalf : 2 * second ≤ tosses) : tosses.choose first ≤ tosses.choose second := by
  induction second, hle using Nat.le_induction with
  | base => exact le_rfl
  | succ next _ ih => exact (ih (by omega)).trans (choose_lt_succ (by omega)).le

theorem choose_strictMono_below {first second : ℕ} (hlt : first < second)
    (hhalf : 2 * second ≤ tosses) : tosses.choose first < tosses.choose second :=
  (choose_lt_succ (by omega)).trans_le (choose_mono_below hlt hhalf)

/-- An outcome is not more likely than one of the lower half if it is in one of its two tails. -/
theorem choose_le_iff (hhalf : 2 * heads ≤ tosses) (houtcome : outcome ≤ tosses) :
    tosses.choose outcome ≤ tosses.choose heads ↔ outcome ≤ heads ∨ tosses - heads ≤ outcome := by
  by_cases hlower : 2 * outcome ≤ tosses
  · constructor
    · intro hle
      by_contra hinside
      rw [not_or, not_le, not_le] at hinside
      exact absurd hle (choose_strictMono_below hinside.1 hlower).not_ge
    · rintro (hle | hge)
      · exact choose_mono_below hle hhalf
      · exact choose_mono_below (by omega) hhalf
  · rw [← Nat.choose_symm houtcome]
    constructor
    · intro hle
      by_contra hinside
      rw [not_or, not_le, not_le] at hinside
      exact absurd hle (choose_strictMono_below (by omega) (by omega)).not_ge
    · rintro (hle | hge)
      · exact choose_mono_below (by omega) hhalf
      · exact choose_mono_below (by omega) hhalf

/-! ### The two tails -/

/-- The upper tail has the size of the lower one. -/
theorem sum_upperTail (hle : heads ≤ tosses) :
    ∑ outcome ∈ range (tosses + 1) with tosses - heads ≤ outcome, tosses.choose outcome =
      lowerTail tosses heads := by
  refine Finset.sum_nbij' (tosses - ·) (tosses - ·) ?_ ?_ ?_ ?_ ?_
  · intro other hother
    rw [mem_filter, mem_range] at hother
    rw [mem_range]
    omega
  · intro other hother
    rw [mem_range] at hother
    rw [mem_filter, mem_range]
    omega
  · intro other hother
    rw [mem_filter, mem_range] at hother
    omega
  · intro other hother
    rw [mem_range] at hother
    omega
  · intro other hother
    rw [mem_filter, mem_range] at hother
    exact (Nat.choose_symm (by omega)).symm

/-- The lower tail of the lower half. -/
theorem sum_lowerTail (hle : heads ≤ tosses) :
    ∑ outcome ∈ range (tosses + 1) with outcome ≤ heads, tosses.choose outcome =
      lowerTail tosses heads := by
  refine Finset.sum_congr ?_ fun _ _ ↦ rfl
  ext other
  rw [mem_filter, mem_range, mem_range]
  omega

/-- Tails that do not meet hold the outcomes which are not more likely. -/
theorem sum_tails (hhalf : 2 * heads < tosses) :
    ∑ outcome ∈ range (tosses + 1) with tosses.choose outcome ≤ tosses.choose heads,
      tosses.choose outcome = 2 * lowerTail tosses heads := by
  have hsplit : (range (tosses + 1)).filter
      (fun outcome ↦ tosses.choose outcome ≤ tosses.choose heads) =
      (range (tosses + 1)).filter (fun outcome ↦ outcome ≤ heads) ∪
        (range (tosses + 1)).filter (fun outcome ↦ tosses - heads ≤ outcome) := by
    rw [← Finset.filter_or]
    refine Finset.filter_congr fun other hother ↦ ?_
    exact choose_le_iff hhalf.le (Nat.lt_succ_iff.mp (mem_range.mp hother))
  have hdisjoint : Disjoint ((range (tosses + 1)).filter fun outcome ↦ outcome ≤ heads)
      ((range (tosses + 1)).filter fun outcome ↦ tosses - heads ≤ outcome) := by
    refine Finset.disjoint_filter.mpr fun other _ hle hge ↦ ?_
    omega
  rw [hsplit, Finset.sum_union hdisjoint, sum_lowerTail (by omega), sum_upperTail (by omega)]
  omega

/-- Twice a tail that does not reach the middle is no more than all outcomes. -/
theorem two_mul_lowerTail_le (hhalf : 2 * heads < tosses) :
    2 * lowerTail tosses heads ≤ 2 ^ tosses := by
  rw [← sum_tails hhalf, ← Nat.sum_range_choose]
  exact Finset.sum_le_sum_of_subset (Finset.filter_subset _ _)

/-- Twice a tail that reaches the middle counts the middle twice. -/
theorem le_two_mul_lowerTail (hhalf : 2 * heads = tosses) :
    2 ^ tosses ≤ 2 * lowerTail tosses heads := by
  have hcover : range (tosses + 1) ⊆ (range (tosses + 1)).filter (fun outcome ↦ outcome ≤ heads) ∪
      (range (tosses + 1)).filter (fun outcome ↦ tosses - heads ≤ outcome) := by
    intro other hother
    rw [mem_union, mem_filter, mem_filter]
    rcases le_total other heads with hle | hge
    · exact Or.inl ⟨hother, hle⟩
    · exact Or.inr ⟨hother, by omega⟩
  have hboth := @Finset.sum_union_inter _ _ ((range (tosses + 1)).filter fun outcome ↦ outcome ≤ heads)
    ((range (tosses + 1)).filter fun outcome ↦ tosses - heads ≤ outcome) _ tosses.choose _
  rw [sum_lowerTail (by omega), sum_upperTail (by omega)] at hboth
  have hall : ∑ outcome ∈ range (tosses + 1), tosses.choose outcome ≤ _ :=
    Finset.sum_le_sum_of_subset hcover
  rw [Nat.sum_range_choose] at hall
  omega

/-! ### The probability -/

/-- The probability is that of the outcomes which are not more likely, counted. -/
theorem twoSidedProbability_eq :
    twoSidedProbability tosses heads =
      (∑ outcome ∈ range (tosses + 1) with tosses.choose outcome ≤ tosses.choose heads,
        tosses.choose outcome : ℕ) / 2 ^ tosses := by
  rw [twoSidedProbability, Nat.cast_sum, Finset.sum_div]
  refine Finset.sum_congr (Finset.filter_congr fun other _ ↦ pointProbability_le_iff) ?_
  intro other _
  rfl

theorem twoSidedProbability_swap (hle : heads ≤ tosses) :
    twoSidedProbability tosses (tosses - heads) = twoSidedProbability tosses heads := by
  rw [twoSidedProbability, twoSidedProbability, pointProbability_swap hle]

/-- The observed outcome is among those that are counted. -/
theorem twoSidedProbability_pos (hle : heads ≤ tosses) : 0 < twoSidedProbability tosses heads := by
  have hpoint : 0 < pointProbability tosses heads := by
    have hcoefficient : 0 < tosses.choose heads := Nat.choose_pos hle
    rw [pointProbability]
    positivity
  have hnonneg : ∀ other, 0 ≤ pointProbability tosses other := fun other ↦ by
    rw [pointProbability]
    positivity
  have hmem : heads ∈ (range (tosses + 1)).filter
      (fun other ↦ pointProbability tosses other ≤ pointProbability tosses heads) := by
    rw [mem_filter, mem_range]
    exact ⟨by omega, le_rfl⟩
  exact hpoint.trans_le (Finset.single_le_sum (fun other _ ↦ hnonneg other) hmem)

theorem twoSidedProbability_le_one : twoSidedProbability tosses heads ≤ 1 := by
  rw [twoSidedProbability_eq, div_le_one (by positivity)]
  have hle : ∑ outcome ∈ range (tosses + 1) with tosses.choose outcome ≤ tosses.choose heads,
      tosses.choose outcome ≤ 2 ^ tosses := by
    rw [← Nat.sum_range_choose]
    exact Finset.sum_le_sum_of_subset (Finset.filter_subset _ _)
  exact_mod_cast hle

/-- An outcome in the middle is the most likely one. -/
theorem twoSidedProbability_middle (hhalf : 2 * heads = tosses) :
    twoSidedProbability tosses heads = 1 := by
  have hfilter : (range (tosses + 1)).filter
      (fun outcome ↦ tosses.choose outcome ≤ tosses.choose heads) = range (tosses + 1) := by
    refine Finset.filter_true_of_mem fun other hother ↦ ?_
    rw [mem_range] at hother
    exact (choose_le_iff hhalf.le (by omega)).mpr (by omega)
  rw [twoSidedProbability_eq, hfilter, Nat.sum_range_choose, Nat.cast_pow, Nat.cast_ofNat]
  exact div_self (by positivity)

/-- The probability is twice the smaller tail, and no more than one. -/
theorem twoSidedProbability_eq_min (hhalf : 2 * heads ≤ tosses) :
    twoSidedProbability tosses heads = min 1 ((2 * lowerTail tosses heads : ℚ) / 2 ^ tosses) := by
  rcases hhalf.lt_or_eq with hlt | hmiddle
  · have hle : (2 * lowerTail tosses heads : ℚ) ≤ 2 ^ tosses := by
      exact_mod_cast two_mul_lowerTail_le hlt
    rw [twoSidedProbability_eq, sum_tails hlt, min_eq_right]
    · rw [Nat.cast_mul, Nat.cast_ofNat]
    · rw [div_le_one (by positivity)]
      exact hle
  · have hle : (2 ^ tosses : ℚ) ≤ 2 * lowerTail tosses heads := by
      exact_mod_cast le_two_mul_lowerTail hmiddle
    rw [twoSidedProbability_middle hmiddle, min_eq_left]
    rw [one_le_div (by positivity)]
    exact hle

end Oamb.Foundation.FairCoin
