import Mathlib.Data.List.Nodup
import Mathlib.Data.List.Induction

/-!
# First occurrences

`firstsBy` keeps the items of a list whose key no earlier item has. What it keeps stands in the
order of the list, has every key once, and is for each key the first item that has it
(`find_firstsBy`).
-/

set_option autoImplicit false

namespace Oamb.Foundation.FirstOccurrences

variable {α : Type} {κ : Type} [DecidableEq κ] {key : α → κ}

/-- Add an item at the end, unless its key is there. -/
def addFirst (key : α → κ) (kept : List α) (item : α) : List α :=
  if key item ∈ kept.map key then kept else kept ++ [item]

/-- The items whose key no earlier item has. -/
def firstsBy (key : α → κ) (items : List α) : List α := items.foldl (addFirst key) []

@[simp] theorem firstsBy_nil : firstsBy key [] = [] := rfl

theorem firstsBy_append (items : List α) (item : α) :
    firstsBy key (items ++ [item]) = addFirst key (firstsBy key items) item :=
  List.foldl_concat ..

theorem mem_map_firstsBy {items : List α} {wanted : κ} :
    wanted ∈ (firstsBy key items).map key ↔ wanted ∈ items.map key := by
  induction items using List.reverseRecOn with
  | nil => rfl
  | append_singleton items item ih =>
    rw [firstsBy_append, addFirst, List.map_append, List.mem_append, List.map_singleton,
      List.mem_singleton, ← ih]
    split
    · next hmem => exact ⟨Or.inl, fun hor ↦ hor.elim id fun hsame ↦ hsame ▸ hmem⟩
    · rw [List.map_append, List.mem_append, List.map_singleton, List.mem_singleton]

theorem firstsBy_append_of_mem {items : List α} {item : α} (hitem : key item ∈ items.map key) :
    firstsBy key (items ++ [item]) = firstsBy key items := by
  rw [firstsBy_append, addFirst, if_pos (mem_map_firstsBy.mpr hitem)]

theorem firstsBy_append_of_not_mem {items : List α} {item : α}
    (hitem : key item ∉ items.map key) :
    firstsBy key (items ++ [item]) = firstsBy key items ++ [item] := by
  rw [firstsBy_append, addFirst, if_neg (mt mem_map_firstsBy.mp hitem)]

/-- What is kept stands in the order of the list. -/
theorem firstsBy_sublist (items : List α) : (firstsBy key items).Sublist items := by
  induction items using List.reverseRecOn with
  | nil => exact List.Sublist.refl _
  | append_singleton items item ih =>
    by_cases hitem : key item ∈ items.map key
    · rw [firstsBy_append_of_mem hitem]
      exact ih.trans (List.sublist_append_left ..)
    · rw [firstsBy_append_of_not_mem hitem]
      exact ih.append (List.Sublist.refl _)

/-- What is kept of the start of a list stands at the start of what is kept. -/
theorem firstsBy_isPrefix (items later : List α) :
    firstsBy key items <+: firstsBy key (items ++ later) := by
  induction later using List.reverseRecOn with
  | nil =>
    simp only [List.append_nil]
    exact List.prefix_refl _
  | append_singleton later item ih =>
    rw [← List.append_assoc, firstsBy_append, addFirst]
    split
    · exact ih
    · exact ih.trans (List.prefix_append ..)

/-- No two items that are kept have the same key. -/
theorem nodup_map_firstsBy (items : List α) : ((firstsBy key items).map key).Nodup := by
  induction items using List.reverseRecOn with
  | nil => exact List.nodup_nil
  | append_singleton items item ih =>
    by_cases hitem : key item ∈ items.map key
    · rw [firstsBy_append_of_mem hitem]
      exact ih
    · rw [firstsBy_append_of_not_mem hitem, List.map_append, List.map_singleton,
        ← List.concat_eq_append]
      exact ih.concat (mt mem_map_firstsBy.mp hitem)

/-- What is kept for a key is the first item that has it. -/
theorem find_firstsBy (items : List α) (wanted : κ) :
    (firstsBy key items).find? (fun item ↦ key item = wanted) =
      items.find? fun item ↦ key item = wanted := by
  induction items using List.reverseRecOn with
  | nil => rfl
  | append_singleton items item ih =>
    rw [List.find?_append]
    by_cases hitem : key item ∈ items.map key
    · rw [firstsBy_append_of_mem hitem, ih]
      cases hfind : items.find? fun item ↦ key item = wanted with
      | some first => rfl
      | none =>
        have hother : key item ≠ wanted := by
          intro hsame
          obtain ⟨first, hfirst, hkey⟩ := List.mem_map.mp hitem
          exact List.find?_eq_none.mp hfind first hfirst (decide_eq_true (hkey.trans hsame))
        rw [Option.none_or, List.find?_singleton, if_neg (mt of_decide_eq_true hother)]
    · rw [firstsBy_append_of_not_mem hitem, List.find?_append, ih]

end Oamb.Foundation.FirstOccurrences
