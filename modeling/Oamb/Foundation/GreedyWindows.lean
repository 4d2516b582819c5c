import Mathlib.Data.List.Forall2

/-!
# Greedy windows

A list is cut into windows from its start: every window is the largest one within a limit that a
test accepts, and what the test gives for it is a piece. `windows_eq_some` says what the pieces are
of, and `windows_eq_none_iff` that a cut fails exactly where it is stuck: a position that it
reaches, from which no window within the limit is accepted.
-/

set_option autoImplicit false

namespace Oamb.Foundation.GreedyWindows

variable {τ β : Type} (accept : List τ → Option β)

/-! ### One window -/

/-- The piece of the largest accepted window of at most a size, with one less than its size. -/
def largestWindow (remaining : List τ) : ℕ → Option (β × ℕ)
  | 0 => none
  | size + 1 =>
    match accept (remaining.take (size + 1)) with
    | some piece => some (piece, size)
    | none => largestWindow remaining size

variable {accept}

theorem largestWindow_eq_some {remaining : List τ} {bound size : ℕ} {piece : β}
    (hlargest : largestWindow accept remaining bound = some (piece, size)) :
    size < bound ∧ accept (remaining.take (size + 1)) = some piece ∧
      ∀ other, size < other → other < bound → accept (remaining.take (other + 1)) = none := by
  induction bound with
  | zero => cases hlargest
  | succ bound ih =>
    rw [largestWindow] at hlargest
    cases haccept : accept (remaining.take (bound + 1)) with
    | some found =>
      rw [haccept] at hlargest
      cases hlargest
      exact ⟨Nat.lt_succ_self _, haccept, fun other hlarger hother ↦ by omega⟩
    | none =>
      rw [haccept] at hlargest
      obtain ⟨hsize, hpiece, hlarger⟩ := ih hlargest
      refine ⟨Nat.lt_succ_of_lt hsize, hpiece, fun other hmore hother ↦ ?_⟩
      rcases Nat.lt_succ_iff_lt_or_eq.mp hother with hless | rfl
      · exact hlarger other hmore hless
      · exact haccept

theorem largestWindow_eq_none {remaining : List τ} {bound : ℕ} :
    largestWindow accept remaining bound = none ↔
      ∀ size < bound, accept (remaining.take (size + 1)) = none := by
  induction bound with
  | zero => simp [largestWindow]
  | succ bound ih =>
    rw [largestWindow]
    cases haccept : accept (remaining.take (bound + 1)) with
    | some found =>
      refine iff_of_false (by simp) fun hnone ↦ ?_
      rw [hnone bound (Nat.lt_succ_self _)] at haccept
      cases haccept
    | none =>
      refine ih.trans ⟨fun hnone size hsize ↦ ?_, fun hnone size hsize ↦
        hnone size (Nat.lt_succ_of_lt hsize)⟩
      rcases Nat.lt_succ_iff_lt_or_eq.mp hsize with hless | rfl
      · exact hnone size hless
      · exact haccept

/-! ### All windows -/

variable (accept) (limit : ℕ)

/-- The pieces of a list, when it is cut to its end. -/
def windows : List τ → Option (List β)
  | [] => some []
  | value :: rest =>
    match largestWindow accept (value :: rest) (min limit (rest.length + 1)) with
    | none => none
    | some (piece, size) => (windows (rest.drop size)).map (piece :: ·)
termination_by values => values.length
decreasing_by
  rw [List.length_drop, List.length_cons]
  omega

/-- The positions that a cut comes to, with the pieces before them. -/
inductive Reached (values : List τ) : List β → List τ → Prop
  | start : Reached values [] values
  | next {pieces : List β} {value : τ} {rest : List τ} {piece : β} {size : ℕ}
      (hreached : Reached values pieces (value :: rest))
      (hlargest : largestWindow accept (value :: rest) (min limit (rest.length + 1)) =
        some (piece, size)) :
      Reached values (pieces ++ [piece]) (rest.drop size)

variable {accept limit}

theorem windows_nil : windows accept limit [] = some [] := by rw [windows]

theorem windows_cons_of_none {value : τ} {rest : List τ}
    (hnone : largestWindow accept (value :: rest) (min limit (rest.length + 1)) = none) :
    windows accept limit (value :: rest) = none := by
  rw [windows, hnone]

theorem windows_cons_of_some {value : τ} {rest : List τ} {piece : β} {size : ℕ}
    (hlargest : largestWindow accept (value :: rest) (min limit (rest.length + 1)) =
      some (piece, size)) :
    windows accept limit (value :: rest) =
      (windows accept limit (rest.drop size)).map (piece :: ·) := by
  rw [windows, hlargest]

/-- The pieces are of windows within the limit, which are all of the list. -/
theorem windows_eq_some {values : List τ} {pieces : List β}
    (hwindows : windows accept limit values = some pieces) :
    ∃ parts : List (List τ), parts.flatten = values ∧
      List.Forall₂ (fun part piece ↦ accept part = some piece ∧ part ≠ [] ∧ part.length ≤ limit)
        parts pieces := by
  induction values using windows.induct accept limit generalizing pieces with
  | case1 =>
    rw [windows_nil, Option.some.injEq] at hwindows
    subst hwindows
    exact ⟨[], rfl, .nil⟩
  | case2 value rest hnone =>
    rw [windows_cons_of_none hnone] at hwindows
    cases hwindows
  | case3 value rest piece size hlargest ih =>
    rw [windows_cons_of_some hlargest] at hwindows
    obtain ⟨later, hlater, rfl⟩ := Option.map_eq_some_iff.mp hwindows
    obtain ⟨parts, hparts, hpieces⟩ := ih hlater
    obtain ⟨hsize, hpiece, -⟩ := largestWindow_eq_some hlargest
    refine ⟨(value :: rest).take (size + 1) :: parts, ?_, .cons ⟨hpiece, by simp, ?_⟩ hpieces⟩
    · rw [List.flatten_cons, hparts, List.take_succ_cons, List.cons_append, List.take_append_drop]
    · rw [List.length_take]
      omega

/-- A cut from a position that was reached comes to a position where it is stuck, when it fails. -/
theorem exists_stuck {values remaining : List τ} {pieces : List β}
    (hreached : Reached accept limit values pieces remaining)
    (hwindows : windows accept limit remaining = none) :
    ∃ pieces' value rest, Reached accept limit values pieces' (value :: rest) ∧
      largestWindow accept (value :: rest) (min limit (rest.length + 1)) = none := by
  induction remaining using windows.induct accept limit generalizing pieces with
  | case1 =>
    rw [windows_nil] at hwindows
    cases hwindows
  | case2 value rest hnone => exact ⟨pieces, value, rest, hreached, hnone⟩
  | case3 value rest piece size hlargest ih =>
    rw [windows_cons_of_some hlargest, Option.map_eq_none_iff] at hwindows
    exact ih (hreached.next hlargest) hwindows

/-- What is cut from a position that was reached decides the whole cut. -/
theorem Reached.windows_eq {values remaining : List τ} {pieces : List β}
    (hreached : Reached accept limit values pieces remaining) :
    windows accept limit values = (windows accept limit remaining).map (pieces ++ ·) := by
  induction hreached with
  | start => simp
  | next _ hlargest ih =>
    rw [ih, windows_cons_of_some hlargest, Option.map_map]
    simp [Function.comp_def]

/-- A cut is stuck where no window within the limit is accepted. -/
theorem stuck_iff {remaining : List τ} :
    largestWindow accept remaining (min limit remaining.length) = none ↔
      ∀ size, 0 < size → size ≤ limit → size ≤ remaining.length →
        accept (remaining.take size) = none := by
  rw [largestWindow_eq_none]
  refine ⟨fun hnone size hpos hlimit hlength ↦ ?_, fun hnone size hsize ↦
    hnone (size + 1) (Nat.succ_pos _) (by omega) (by omega)⟩
  obtain ⟨less, rfl⟩ := Nat.exists_eq_succ_of_ne_zero (Nat.ne_of_gt hpos)
  exact hnone less (by omega)

/-- A cut fails exactly when it comes to a position from which no window within the limit is
accepted. -/
theorem windows_eq_none_iff {values : List τ} :
    windows accept limit values = none ↔
      ∃ pieces remaining, Reached accept limit values pieces remaining ∧ remaining ≠ [] ∧
        ∀ size, 0 < size → size ≤ limit → size ≤ remaining.length →
          accept (remaining.take size) = none := by
  constructor
  · intro hwindows
    obtain ⟨pieces, value, rest, hreached, hnone⟩ := exists_stuck Reached.start hwindows
    exact ⟨pieces, value :: rest, hreached, List.cons_ne_nil _ _, stuck_iff.mp hnone⟩
  · rintro ⟨pieces, remaining, hreached, hmore, hnone⟩
    cases remaining with
    | nil => exact absurd rfl hmore
    | cons value rest =>
      rw [hreached.windows_eq, windows_cons_of_none (stuck_iff.mpr hnone)]
      rfl

end Oamb.Foundation.GreedyWindows
