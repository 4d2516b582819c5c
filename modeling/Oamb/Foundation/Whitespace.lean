import Mathlib.Data.List.DropRight

/-!
# White space at the ends of a text

`strip` drops the white space at both ends of a text, and leaves a text alone that has none. A run
of characters with a property ends where a character without it stands (`takeWhile_run`,
`dropWhile_run`).
-/

set_option autoImplicit false

namespace Oamb.Foundation.Whitespace

/-! ### Runs -/

section Runs

variable {property : Char → Bool} {run rest : List Char}

theorem takeWhile_run (hrun : ∀ char ∈ run, property char = true)
    (hrest : ∀ char ∈ rest.head?, property char = false) :
    (run ++ rest).takeWhile property = run := by
  rw [List.takeWhile_append_of_pos hrun]
  cases rest with
  | nil => exact List.append_nil run
  | cons char rest =>
    rw [List.takeWhile_cons_of_neg (Bool.eq_false_iff.mp (hrest char rfl)), List.append_nil]

theorem dropWhile_run (hrun : ∀ char ∈ run, property char = true)
    (hrest : ∀ char ∈ rest.head?, property char = false) :
    (run ++ rest).dropWhile property = rest := by
  rw [List.dropWhile_append_of_pos hrun]
  cases rest with
  | nil => rfl
  | cons char rest => exact List.dropWhile_cons_of_neg (Bool.eq_false_iff.mp (hrest char rfl))

/-- The last run is dropped when another character stands before it. -/
theorem rdropWhile_run (hrun : ∀ char ∈ run, property char = true)
    (hrest : ∀ char ∈ rest.getLast?, property char = false) :
    (rest ++ run).rdropWhile property = rest := by
  unfold List.rdropWhile
  rw [List.reverse_append, dropWhile_run, List.reverse_reverse]
  · exact fun char hchar ↦ hrun char (List.mem_reverse.mp hchar)
  · rwa [List.head?_reverse]

/-- What is dropped at the end stands behind the last character that is kept. -/
theorem rdropWhile_append_cons {char : Char}
    (hchar : property char = false) (before behind : List Char) :
    (before ++ char :: behind).rdropWhile property =
      before ++ char :: behind.rdropWhile property := by
  induction behind using List.reverseRecOn with
  | nil => exact List.rdropWhile_concat_neg _ _ _ (Bool.eq_false_iff.mp hchar)
  | append_singleton behind last ih =>
    rw [← List.cons_append, ← List.append_assoc]
    by_cases hlast : property last = true
    · rw [List.rdropWhile_concat_pos _ _ _ hlast, List.rdropWhile_concat_pos _ _ _ hlast, ih]
    · rw [List.rdropWhile_concat_neg _ _ _ hlast, List.rdropWhile_concat_neg _ _ _ hlast,
        List.append_assoc, List.cons_append]

theorem of_mem_getLast_rdropWhile {text : List Char} {char : Char}
    (hchar : char ∈ (text.rdropWhile property).getLast?) : property char = false := by
  have hne : text.rdropWhile property ≠ [] := by
    intro hnil
    rw [hnil] at hchar
    exact absurd hchar (by simp)
  rw [List.getLast?_eq_some_getLast hne, Option.mem_some_iff] at hchar
  exact hchar ▸ Bool.eq_false_iff.mpr (List.rdropWhile_last_not _ _ hne)

end Runs

/-! ### White space -/

/-- The character is white space. -/
def isSpace (char : Char) : Bool :=
  let code := char.toNat
  (9 ≤ code && code ≤ 13) || (28 ≤ code && code ≤ 32) || (0x2000 ≤ code && code ≤ 0x200a) ||
    code ∈ [0x85, 0xa0, 0x1680, 0x2028, 0x2029, 0x202f, 0x205f, 0x3000]

theorem isSpace_of_isDigit {char : Char} (hchar : char.isDigit = true) : isSpace char = false := by
  simp only [Char.isDigit, Bool.and_eq_true, decide_eq_true_eq] at hchar
  have hlower : 48 ≤ char.toNat := UInt32.le_iff_toNat_le.mp hchar.1
  have hupper : char.toNat ≤ 57 := UInt32.le_iff_toNat_le.mp hchar.2
  simp only [isSpace, List.mem_cons, List.not_mem_nil, or_false, Bool.or_eq_false_iff,
    Bool.and_eq_false_iff, decide_eq_false_iff_not]
  omega

/-- A text without the white space at its ends. -/
def strip (text : List Char) : List Char := (text.dropWhile isSpace).rdropWhile isSpace

theorem strip_of_forall {text : List Char} (htext : ∀ char ∈ text, isSpace char = false) :
    strip text = text := by
  have hstart : text.dropWhile isSpace = text := by
    cases text with
    | nil => rfl
    | cons char rest =>
      refine List.dropWhile_cons_of_neg ?_
      rw [htext char List.mem_cons_self]
      exact Bool.false_ne_true
  rw [strip, hstart]
  refine List.rdropWhile_eq_self_iff.mpr fun hne ↦ ?_
  rw [htext _ (List.getLast_mem hne)]
  exact Bool.false_ne_true

end Oamb.Foundation.Whitespace
