import Mathlib.Algebra.Order.BigOperators.Group.List
import Mathlib.Tactic.Linarith

/-!
# Means of exact numbers

The mean of some numbers stands between bounds of all of them, follows each of them, and does not
depend on their order.
-/

set_option autoImplicit false

namespace Oamb.Foundation.Means

/-- The mean of some numbers. -/
def mean (values : List ℚ) : ℚ := values.sum / values.length

theorem mean_perm {values others : List ℚ} (hperm : values.Perm others) :
    mean values = mean others := by
  rw [mean, mean, hperm.sum_eq, hperm.length_eq]

variable {ι : Type} {items : List ι} {first second : ι → ℚ}

/-- A mean follows the numbers that it is taken of. -/
theorem mean_mono (hle : ∀ item ∈ items, first item ≤ second item) :
    mean (items.map first) ≤ mean (items.map second) := by
  unfold mean
  rw [List.length_map, List.length_map]
  exact div_le_div_of_nonneg_right (List.sum_le_sum hle) (Nat.cast_nonneg _)

theorem mean_nonneg {values : List ℚ} (hvalues : ∀ value ∈ values, 0 ≤ value) : 0 ≤ mean values :=
  div_nonneg (List.sum_nonneg hvalues) (Nat.cast_nonneg _)

theorem mean_le {values : List ℚ} {bound : ℚ} (hbound : 0 ≤ bound)
    (hvalues : ∀ value ∈ values, value ≤ bound) : mean values ≤ bound := by
  by_cases hempty : values = []
  · subst hempty
    rw [mean, List.sum_nil, zero_div]
    exact hbound
  · have hpositive : (0 : ℚ) < values.length := Nat.cast_pos.mpr (List.length_pos_iff.mpr hempty)
    rw [mean, div_le_iff₀ hpositive, mul_comm, ← nsmul_eq_mul]
    exact List.sum_le_card_nsmul values bound hvalues

end Oamb.Foundation.Means
