import Mathlib.Algebra.Order.Ring.Nat

/-!
# Runs of equal values in a list

A list that consists of blocks of equal values is cut into its blocks again from left to right. A
`Segmentation` holds the lengths of the blocks so far and refuses a value that reappears after its
block has ended. `readAll_expand` is the round trip, for blocks with different values.

Blocks that were filled in portions of a fixed size, all of them full but the last, hold as many
portions as their length requires: `portions_add`.
-/

set_option autoImplicit false

namespace Oamb.Foundation.SegmentedRuns

variable {α : Type*}

/-- The blocks of a list that has been read so far, with the latest block first. -/
structure Segmentation (α : Type*) where
  lengths : List ℕ
  seen : List α
  current : Option α
  deriving DecidableEq

/-- The segmentation of the empty list. -/
def Segmentation.empty : Segmentation α := ⟨[], [], none⟩

/-- Read one more value. A value whose block has ended is refused. -/
def Segmentation.push [DecidableEq α] (segmentation : Segmentation α) (value : α) :
    Option (Segmentation α) :=
  if segmentation.current = some value then
    some { segmentation with lengths := segmentation.lengths.modifyHead (· + 1) }
  else if value ∈ segmentation.seen then none
  else some ⟨1 :: segmentation.lengths, value :: segmentation.seen, some value⟩

/-- Read the values of a list. -/
def readAll [DecidableEq α] (segmentation : Segmentation α) (values : List α) :
    Option (Segmentation α) :=
  values.foldlM Segmentation.push segmentation

/-- The list that consists of given blocks. -/
def expand (blocks : List (α × ℕ)) : List α :=
  blocks.flatMap fun block ↦ List.replicate block.2 block.1

@[simp] theorem expand_nil : expand ([] : List (α × ℕ)) = [] := rfl

@[simp] theorem expand_cons (block : α × ℕ) (blocks : List (α × ℕ)) :
    expand (block :: blocks) = List.replicate block.2 block.1 ++ expand blocks := rfl

theorem map_expand {β : Type*} (f : α → β) (blocks : List (α × ℕ)) :
    (expand blocks).map f = expand (blocks.map fun block ↦ (f block.1, block.2)) := by
  induction blocks with
  | nil => rfl
  | cons block blocks hind => simp [hind]

section Segment

variable [DecidableEq α]

theorem push_current (lengths : List ℕ) (length : ℕ) (seen : List α) (value : α) :
    Segmentation.push ⟨length :: lengths, seen, some value⟩ value =
      some ⟨(length + 1) :: lengths, seen, some value⟩ := by
  simp [Segmentation.push]

theorem push_of_not_mem {segmentation : Segmentation α} {value : α}
    (hcurrent : segmentation.current ≠ some value) (hvalue : value ∉ segmentation.seen) :
    segmentation.push value =
      some ⟨1 :: segmentation.lengths, value :: segmentation.seen, some value⟩ := by
  rw [Segmentation.push, if_neg hcurrent, if_neg hvalue]

theorem readAll_append (segmentation : Segmentation α) (first second : List α) :
    readAll segmentation (first ++ second) =
      (readAll segmentation first).bind fun middle ↦ readAll middle second :=
  List.foldlM_append

/-- The rest of a block that has begun lengthens it. -/
theorem readAll_replicate (lengths : List ℕ) (seen : List α) (value : α) (count : ℕ) :
    ∀ length, readAll ⟨length :: lengths, seen, some value⟩ (List.replicate count value) =
      some ⟨(length + count) :: lengths, seen, some value⟩ := by
  induction count with
  | zero => intro length; rfl
  | succ count hind =>
    intro length
    calc readAll ⟨length :: lengths, seen, some value⟩ (List.replicate (count + 1) value)
        = readAll ⟨(length + 1) :: lengths, seen, some value⟩ (List.replicate count value) := by
          simp only [readAll, List.replicate_succ, List.foldlM_cons, push_current,
            Option.bind_eq_bind, Option.bind_some]
      _ = some ⟨(length + (count + 1)) :: lengths, seen, some value⟩ := by
          rw [hind]
          simp only [Option.some.injEq, Segmentation.mk.injEq, List.cons.injEq, and_true]
          omega

/-- A block of a value that is not seen before is recognised. -/
theorem readAll_block {segmentation : Segmentation α} {value : α} {count : ℕ}
    (hcurrent : segmentation.current ≠ some value) (hvalue : value ∉ segmentation.seen)
    (hcount : 0 < count) :
    readAll segmentation (List.replicate count value) =
      some ⟨count :: segmentation.lengths, value :: segmentation.seen, some value⟩ := by
  obtain ⟨count, rfl⟩ : ∃ rest, count = rest + 1 := ⟨count - 1, by omega⟩
  have hrest := readAll_replicate segmentation.lengths (value :: segmentation.seen) value count 1
  rw [Nat.add_comm] at hrest
  simpa only [readAll, List.replicate_succ, List.foldlM_cons, Option.bind_eq_bind,
    push_of_not_mem hcurrent hvalue, Option.bind_some] using hrest

/-- Blocks with different values are recognised, each with its length. -/
theorem readAll_expand (blocks : List (α × ℕ)) :
    ∀ segmentation : Segmentation α, (blocks.map Prod.fst).Nodup →
      (∀ block ∈ blocks, 0 < block.2) →
      (∀ block ∈ blocks, block.1 ∉ segmentation.seen) →
      (∀ value, segmentation.current = some value → value ∈ segmentation.seen) →
      ∃ final, readAll segmentation (expand blocks) = some final ∧
        final.lengths = (blocks.map Prod.snd).reverse ++ segmentation.lengths := by
  induction blocks with
  | nil =>
    intro segmentation _ _ _ _
    exact ⟨segmentation, rfl, rfl⟩
  | cons block blocks hind =>
    intro segmentation hdistinct hpositive hunseen hcurrent
    rw [List.map_cons, List.nodup_cons] at hdistinct
    have hnew : block.1 ∉ segmentation.seen := hunseen block List.mem_cons_self
    have hother : segmentation.current ≠ some block.1 := fun hsame ↦ hnew (hcurrent _ hsame)
    have hblock := readAll_block hother hnew (hpositive block List.mem_cons_self)
    obtain ⟨final, hfinal, hlengths⟩ := hind
      ⟨block.2 :: segmentation.lengths, block.1 :: segmentation.seen, some block.1⟩ hdistinct.2
      (fun other hmember ↦ hpositive other (List.mem_cons_of_mem _ hmember))
      (fun other hmember hseen ↦ by
        rcases List.mem_cons.mp hseen with hsame | hseen
        · exact hdistinct.1 (hsame ▸ List.mem_map_of_mem hmember)
        · exact hunseen other (List.mem_cons_of_mem _ hmember) hseen)
      (fun value hvalue ↦ by
        rw [← Option.some.inj hvalue]
        exact List.mem_cons_self)
    refine ⟨final, ?_, ?_⟩
    · rw [expand_cons, readAll_append, hblock, Option.bind_some, hfinal]
    · simp [hlengths]

end Segment

/-- Empty blocks leave no values. -/
theorem expand_filter (blocks : List (α × ℕ)) :
    expand (blocks.filter fun block ↦ 0 < block.2) = expand blocks := by
  induction blocks with
  | nil => rfl
  | cons block blocks hind =>
    rcases Nat.eq_zero_or_pos block.2 with hempty | hfilled
    · rw [List.filter_cons_of_neg (by simp [hempty]), hind, expand_cons, hempty]
      rfl
    · rw [List.filter_cons_of_pos (by simpa using hfilled), expand_cons, expand_cons, hind]

theorem mem_expand {block : α × ℕ} {blocks : List (α × ℕ)} (hblock : block ∈ blocks)
    (hfilled : 0 < block.2) : block.1 ∈ expand blocks :=
  List.mem_flatMap.mpr ⟨block, hblock, List.mem_replicate.mpr ⟨hfilled.ne', rfl⟩⟩

/-- The number of portions of a size that hold a given count. -/
def portions (size count : ℕ) : ℕ := (count + size - 1) / size

theorem portions_zero {size : ℕ} (hsize : 0 < size) : portions size 0 = 0 := by
  rw [portions]
  exact Nat.div_eq_of_lt (by omega)

/-- A count that is not zero and fits in one portion. -/
theorem portions_eq_one {size count : ℕ} (hcount : 0 < count) (hsize : count ≤ size) :
    portions size count = 1 := by
  rw [portions]
  exact Nat.div_eq_of_lt_le (by omega) (by omega)

/-- A full portion in front of others is one more. -/
theorem portions_add {size count : ℕ} (hsize : 0 < size) :
    portions size (size + count) = 1 + portions size count := by
  rw [portions, portions, show size + count + size - 1 = (count + size - 1) + size by omega,
    Nat.add_div_right _ hsize, Nat.add_comm]

/-- Empty blocks hold no portions. -/
theorem sum_portions_filter {size : ℕ} (hsize : 0 < size) (blocks : List (α × ℕ)) :
    ((blocks.filter fun block ↦ 0 < block.2).map fun block ↦ portions size block.2).sum =
      (blocks.map fun block ↦ portions size block.2).sum := by
  induction blocks with
  | nil => rfl
  | cons block blocks hind =>
    rcases Nat.eq_zero_or_pos block.2 with hempty | hfilled
    · rw [List.filter_cons_of_neg (by simp [hempty]), hind, List.map_cons, List.sum_cons, hempty,
        portions_zero hsize, Nat.zero_add]
    · rw [List.filter_cons_of_pos (by simpa using hfilled), List.map_cons, List.sum_cons, hind,
        List.map_cons, List.sum_cons]

end Oamb.Foundation.SegmentedRuns
