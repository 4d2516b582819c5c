import Mathlib.Algebra.Order.Group.Nat

/-!
# The edit distance

A script edits one text into another: it keeps, replaces, deletes and inserts items. `editDistance`
is the recursion on the first items of two texts, and the least number of edits of a script
(`editDistance_le`, `edits_editDistance`). It is therefore the same for the reversed texts, and may
be computed from the last items (`editDistance_append`), and the same in both directions.
-/

set_option autoImplicit false

namespace Oamb.Foundation.EditDistance

variable {α : Type} [DecidableEq α] {first second third fourth : List α} {edits others : ℕ}

/-- Whether an item has to be replaced. -/
def replacement (item other : α) : ℕ := if item = other then 0 else 1

theorem replacement_comm (item other : α) : replacement item other = replacement other item := by
  unfold replacement
  by_cases hsame : item = other
  · rw [if_pos hsame, if_pos hsame.symm]
  · rw [if_neg hsame, if_neg (Ne.symm hsame)]

/-- The edit distance, by recursion on the first items. -/
def editDistance : List α → List α → ℕ
  | [], second => second.length
  | first, [] => first.length
  | item :: first, other :: second =>
    min (min (editDistance first (other :: second) + 1) (editDistance (item :: first) second + 1))
      (editDistance first second + replacement item other)
  termination_by first second => first.length + second.length

@[simp] theorem editDistance_nil_left (second : List α) :
    editDistance [] second = second.length := by
  rw [editDistance]

@[simp] theorem editDistance_nil_right (first : List α) :
    editDistance first [] = first.length := by
  cases first with
  | nil => rw [editDistance]
  | cons item first => rw [editDistance]; exact nofun

theorem editDistance_cons (item other : α) (first second : List α) :
    editDistance (item :: first) (other :: second) =
      min (min (editDistance first (other :: second) + 1)
        (editDistance (item :: first) second + 1))
        (editDistance first second + replacement item other) := by
  rw [editDistance]

/-! ### Scripts -/

/-- A script edits one text into another. -/
inductive Edits : List α → List α → ℕ → Prop
  | nil : Edits [] [] 0
  | delete {first second : List α} {edits : ℕ} (item : α) :
    Edits first second edits → Edits (item :: first) second (edits + 1)
  | insert {first second : List α} {edits : ℕ} (other : α) :
    Edits first second edits → Edits first (other :: second) (edits + 1)
  | pair {first second : List α} {edits : ℕ} (item other : α) :
    Edits first second edits →
      Edits (item :: first) (other :: second) (edits + replacement item other)

/-- A script behind another one. -/
theorem Edits.append (hscript : Edits first second edits) (hother : Edits third fourth others) :
    Edits (first ++ third) (second ++ fourth) (edits + others) := by
  induction hscript with
  | nil => rwa [Nat.zero_add]
  | delete item _ ih =>
    rw [Nat.add_right_comm]
    exact ih.delete item
  | insert other _ ih =>
    rw [Nat.add_right_comm]
    exact ih.insert other
  | pair item other _ ih =>
    rw [Nat.add_right_comm]
    exact ih.pair item other

/-- A script that is read backwards. -/
theorem Edits.reverse (hscript : Edits first second edits) :
    Edits first.reverse second.reverse edits := by
  induction hscript with
  | nil => exact .nil
  | delete item _ ih =>
    rw [List.reverse_cons]
    simpa using ih.append (Edits.nil.delete item)
  | insert other _ ih =>
    rw [List.reverse_cons]
    simpa using ih.append (Edits.nil.insert other)
  | pair item other _ ih =>
    rw [List.reverse_cons, List.reverse_cons]
    simpa using ih.append (Edits.nil.pair item other)

/-- A script in the other direction. -/
theorem Edits.symm (hscript : Edits first second edits) : Edits second first edits := by
  induction hscript with
  | nil => exact .nil
  | delete item _ ih => exact ih.insert item
  | insert other _ ih => exact ih.delete other
  | pair item other _ ih =>
    rw [replacement_comm]
    exact ih.pair other item

theorem edits_nil_left (second : List α) : Edits [] second second.length := by
  induction second with
  | nil => exact .nil
  | cons other second ih => exact ih.insert other

/-- There is a script with as many edits as the distance. -/
theorem edits_editDistance (first second : List α) :
    Edits first second (editDistance first second) := by
  fun_induction editDistance first second with
  | case1 second => exact edits_nil_left second
  | case2 first _ => exact (edits_nil_left first).symm
  | case3 item first other second hdelete hinsert hpair =>
    rcases min_choice (min (editDistance first (other :: second) + 1)
      (editDistance (item :: first) second + 1))
      (editDistance first second + replacement item other) with hmin | hmin
    · rw [hmin]
      rcases min_choice (editDistance first (other :: second) + 1)
        (editDistance (item :: first) second + 1) with hinner | hinner
      · rw [hinner]
        exact hdelete.delete item
      · rw [hinner]
        exact hinsert.insert other
    · rw [hmin]
      exact hpair.pair item other

theorem editDistance_cons_left (item : α) (first second : List α) :
    editDistance (item :: first) second ≤ editDistance first second + 1 := by
  cases second with
  | nil => simp
  | cons other second =>
    rw [editDistance_cons]
    exact (min_le_left _ _).trans (min_le_left _ _)

theorem editDistance_cons_right (other : α) (first second : List α) :
    editDistance first (other :: second) ≤ editDistance first second + 1 := by
  cases first with
  | nil => simp
  | cons item first =>
    rw [editDistance_cons]
    exact (min_le_left _ _).trans (min_le_right _ _)

/-- No script has fewer edits than the distance. -/
theorem editDistance_le (hscript : Edits first second edits) :
    editDistance first second ≤ edits := by
  induction hscript with
  | nil => simp
  | delete item _ ih => exact (editDistance_cons_left item _ _).trans (Nat.add_le_add_right ih 1)
  | insert other _ ih => exact (editDistance_cons_right other _ _).trans (Nat.add_le_add_right ih 1)
  | pair item other _ ih =>
    rw [editDistance_cons]
    exact (min_le_right _ _).trans (Nat.add_le_add_right ih _)

/-! ### Symmetries -/

theorem editDistance_reverse (first second : List α) :
    editDistance first.reverse second.reverse = editDistance first second := by
  refine le_antisymm (editDistance_le (edits_editDistance first second).reverse) ?_
  have hback := (edits_editDistance first.reverse second.reverse).reverse
  rw [List.reverse_reverse, List.reverse_reverse] at hback
  exact editDistance_le hback

theorem editDistance_comm (first second : List α) :
    editDistance first second = editDistance second first :=
  le_antisymm (editDistance_le (edits_editDistance second first).symm)
    (editDistance_le (edits_editDistance first second).symm)

/-- The edit distance from the last items. -/
theorem editDistance_append (first second : List α) (item other : α) :
    editDistance (first ++ [item]) (second ++ [other]) =
      min (min (editDistance first (second ++ [other]) + 1)
        (editDistance (first ++ [item]) second + 1))
        (editDistance first second + replacement item other) := by
  rw [← editDistance_reverse, List.reverse_append, List.reverse_append, List.reverse_singleton,
    List.reverse_singleton, List.singleton_append, List.singleton_append, editDistance_cons,
    ← editDistance_reverse first (second ++ [other]),
    ← editDistance_reverse (first ++ [item]) second, ← editDistance_reverse first second,
    List.reverse_append, List.reverse_append, List.reverse_singleton, List.reverse_singleton,
    List.singleton_append, List.singleton_append]

end Oamb.Foundation.EditDistance
