import Mathlib.Tactic.Common

/-!
# Runs of labelled transition systems

A run is a sequence of labelled steps from a start state. `Run.history` is the induction over a run
whose assertion sees the labels as well as the state that they lead to; `Run.invariant` is the one
that sees the state only. `Run.countP_add_le` bounds the steps of a run by a potential, and
`Run.split` cuts a run at one of its labels.
-/

set_option autoImplicit false

namespace Oamb.Foundation.LabelledRuns

universe u v

variable {σ : Type u} {ℓ : Type v} {step : σ → ℓ → σ → Prop}

/-- A run from a start state: its labels, in their order, and the state it leads to. -/
inductive Run (step : σ → ℓ → σ → Prop) (start : σ) : List ℓ → σ → Prop
  | nil : Run step start [] start
  | snoc {labels : List ℓ} {state next : σ} {label : ℓ} (hrun : Run step start labels state)
      (hstep : step state label next) : Run step start (labels ++ [label]) next

namespace Run

variable {start final : σ} {labels : List ℓ}

/-- An assertion about the labels and the state that every step keeps. -/
theorem history {assertion : List ℓ → σ → Prop} (hstart : assertion [] start)
    (hstep : ∀ labels state label next, assertion labels state → step state label next →
      assertion (labels ++ [label]) next) (hrun : Run step start labels final) :
    assertion labels final := by
  induction hrun with
  | nil => exact hstart
  | snoc _ hlast ih => exact hstep _ _ _ _ ih hlast

/-- An assertion about the state that every step keeps. -/
theorem invariant {assertion : σ → Prop} (hstart : assertion start)
    (hstep : ∀ state label next, assertion state → step state label next → assertion next)
    (hrun : Run step start labels final) : assertion final := by
  induction hrun with
  | nil => exact hstart
  | snoc _ hlast ih => exact hstep _ _ _ ih hlast

/-- A potential that no step raises, and that every counted step lowers, bounds the counted steps of
a run. -/
theorem countP_add_le (valid : σ → Prop) (potential : σ → ℕ) (counted : ℓ → Bool)
    (hstart : valid start) (hstep : ∀ state label next, valid state → step state label next →
      valid next ∧ potential next + (if counted label = true then 1 else 0) ≤ potential state)
    (hrun : Run step start labels final) :
    labels.countP counted + potential final ≤ potential start := by
  have hboth : valid final ∧ labels.countP counted + potential final ≤ potential start := by
    induction hrun with
    | nil => exact ⟨hstart, Nat.le_of_eq (Nat.zero_add _)⟩
    | snoc _ hlast ih =>
      obtain ⟨hvalid, hbound⟩ := hstep _ _ _ ih.1 hlast
      refine ⟨hvalid, ?_⟩
      rw [List.countP_append, List.countP_singleton]
      omega
  exact hboth.2

/-- A run leads to every state of its own that one of its labels leaves. -/
theorem split {before after : List ℓ} {label : ℓ}
    (hrun : Run step start (before ++ label :: after) final) :
    ∃ state next, Run step start before state ∧ step state label next := by
  generalize hlabels : before ++ label :: after = labels at hrun
  induction hrun generalizing after with
  | nil => simp at hlabels
  | snoc hrun hstep ih =>
    rcases List.eq_nil_or_concat after with rfl | ⟨rest, last, rfl⟩
    · obtain ⟨rfl, hlast⟩ := List.append_inj' hlabels rfl
      cases hlast
      exact ⟨_, _, hrun, hstep⟩
    · rw [List.concat_eq_append, ← List.cons_append, ← List.append_assoc] at hlabels
      exact ih (List.append_inj' hlabels rfl).1

end Run

end Oamb.Foundation.LabelledRuns
