import Mathlib.Algebra.Order.BigOperators.Group.Finset

/-!
# Pools of permits

The members of a pool are in phases, and a phase holds a number of permits. `held` is how many the
members hold together; `held_update` and `held_update_of_notMem` say how it changes with the phase
of one member, and `card_le_held` bounds the members in a phase that holds a permit.
-/

set_option autoImplicit false

namespace Oamb.Foundation.PermitPool

universe u v

variable {ι : Type u} {φ : Type v} [DecidableEq ι]

/-- The permits that the members of a pool hold together. -/
def held (weight : φ → ℕ) (members : Finset ι) (phases : ι → φ) : ℕ :=
  ∑ member ∈ members, weight (phases member)

variable (weight : φ → ℕ) {members : Finset ι} (phases : ι → φ) {member : ι}

theorem held_update (hmember : member ∈ members) (phase : φ) :
    held weight members (Function.update phases member phase) + weight (phases member) =
      held weight members phases + weight phase := by
  have hupdate : ∀ other ∈ members.erase member,
      weight (Function.update phases member phase other) = weight (phases other) := by
    intro other hother
    rw [Function.update_of_ne (Finset.ne_of_mem_erase hother)]
  rw [held, held, ← Finset.add_sum_erase members _ hmember,
    ← Finset.add_sum_erase members _ hmember, Finset.sum_congr rfl hupdate, Function.update_self]
  omega

theorem held_update_of_notMem (hmember : member ∉ members) (phase : φ) :
    held weight members (Function.update phases member phase) = held weight members phases := by
  refine Finset.sum_congr rfl fun other hother ↦ ?_
  rw [Function.update_of_ne]
  rintro rfl
  exact hmember hother

variable {weight phases}

omit [DecidableEq ι] in
/-- Members in phases that hold a permit each are not more than the held permits. -/
theorem card_le_held {chosen : Finset ι} (hchosen : chosen ⊆ members)
    (hholds : ∀ member ∈ chosen, 1 ≤ weight (phases member)) :
    chosen.card ≤ held weight members phases := by
  calc chosen.card = ∑ _ ∈ chosen, 1 := Finset.card_eq_sum_ones chosen
    _ ≤ ∑ member ∈ chosen, weight (phases member) := Finset.sum_le_sum hholds
    _ ≤ held weight members phases := Finset.sum_le_sum_of_subset hchosen

end Oamb.Foundation.PermitPool
