import Mathlib.Data.List.Basic

/-!
# Lines of a text

A text that is read from a file has its line endings translated to line feeds, and is then split at
its line boundaries, which are more characters than the line feed. No line has a boundary, and lines
without boundaries that are each ended by a line feed are read back as they were.
-/

set_option autoImplicit false

namespace Oamb.Foundation.TextLines

/-- A property of all characters of a text is decided character by character. -/
instance (priority := 2000) decidableForallMem (text : List Char) (property : Char → Prop)
    [DecidablePred property] :
    Decidable (∀ char ∈ text, property char) :=
  List.decidableBAll property text

/-- The characters at which a text is split into lines. -/
def lineBoundaries : List Char :=
  ['\n', '\r', '\x0b', '\x0c', '\x1c', '\x1d', '\x1e', '\x85', '\u2028', '\u2029']

/-- The text has no line boundary. -/
def OneLine (text : List Char) : Prop := ∀ char ∈ text, char ∉ lineBoundaries

instance (text : List Char) : Decidable (OneLine text) :=
  inferInstanceAs (Decidable (∀ char ∈ text, char ∉ lineBoundaries))

/-- Translate the line endings of a text that is read. -/
def universalNewlines : List Char → List Char
  | '\r' :: '\n' :: rest => '\n' :: universalNewlines rest
  | '\r' :: rest => '\n' :: universalNewlines rest
  | char :: rest => char :: universalNewlines rest
  | [] => []

/-- Put a character in front of the first line. -/
def extend (char : Char) : List (List Char) → List (List Char)
  | [] => [[char]]
  | line :: lines => (char :: line) :: lines

/-- The lines of a text. -/
def splitlines : List Char → List (List Char)
  | '\r' :: '\n' :: rest => [] :: splitlines rest
  | char :: rest =>
    if char ∈ lineBoundaries then [] :: splitlines rest else extend char (splitlines rest)
  | [] => []

/-- The lines of a text file. -/
def readLines (text : List Char) : List (List Char) := splitlines (universalNewlines text)

theorem OneLine.cons {char : Char} {text : List Char} :
    OneLine (char :: text) ↔ char ∉ lineBoundaries ∧ OneLine text :=
  List.forall_mem_cons

theorem universalNewlines_cons {char : Char} (rest : List Char) (hchar : char ≠ '\r') :
    universalNewlines (char :: rest) = char :: universalNewlines rest := by
  rw [universalNewlines]
  · rintro _ rfl
    exact absurd rfl hchar
  · rintro rfl
    exact absurd rfl hchar

theorem universalNewlines_of_not_mem {text : List Char} (htext : '\r' ∉ text) :
    universalNewlines text = text := by
  induction text with
  | nil => rfl
  | cons char text ih =>
    rw [List.mem_cons, not_or] at htext
    rw [universalNewlines_cons _ (Ne.symm htext.1), ih htext.2]

/-- No carriage return is left in a text that is read. -/
theorem not_mem_universalNewlines (text : List Char) : '\r' ∉ universalNewlines text := by
  induction text using universalNewlines.induct with
  | case1 rest ih =>
    rw [universalNewlines, List.mem_cons, not_or]
    exact ⟨by decide, ih⟩
  | case2 rest hpair ih =>
    rw [universalNewlines.eq_2 rest hpair, List.mem_cons, not_or]
    exact ⟨by decide, ih⟩
  | case3 char rest hpair hreturn ih =>
    rw [universalNewlines_cons rest hreturn, List.mem_cons, not_or]
    exact ⟨Ne.symm hreturn, ih⟩
  | case4 => exact List.not_mem_nil

/-- The characters of joined lines are those of the lines and of the separator. -/
theorem mem_intercalate_iff {char separator : Char} {lines : List (List Char)}
    (hchar : char ≠ separator) :
    char ∈ [separator].intercalate lines ↔ ∃ line ∈ lines, char ∈ line := by
  induction lines with
  | nil => simp
  | cons line lines ih =>
    cases lines with
    | nil => simp
    | cons next lines =>
      rw [List.intercalate_cons_cons, List.mem_append, List.mem_append, List.mem_singleton, ih]
      simp [hchar]

theorem splitlines_of_not_pair {char : Char} {rest : List Char}
    (hpair : ∀ later, char = '\r' → rest = '\n' :: later → False) : splitlines (char :: rest) =
      if char ∈ lineBoundaries then [] :: splitlines rest else extend char (splitlines rest) := by
  rw [splitlines]
  exact hpair

theorem splitlines_cons {char : Char} (rest : List Char) (hchar : char ≠ '\r') :
    splitlines (char :: rest) =
      if char ∈ lineBoundaries then [] :: splitlines rest else extend char (splitlines rest) :=
  splitlines_of_not_pair fun _ hreturn ↦ absurd hreturn hchar

/-- No line has a line boundary. -/
theorem oneLine_of_mem_splitlines {text line : List Char} (hline : line ∈ splitlines text) :
    OneLine line := by
  induction text using splitlines.induct generalizing line with
  | case1 rest ih =>
    rw [splitlines] at hline
    rcases List.mem_cons.mp hline with rfl | hrest
    · exact List.forall_mem_nil _
    · exact ih hrest
  | case2 char rest hne hboundary ih =>
    rw [splitlines_of_not_pair hne, if_pos hboundary] at hline
    rcases List.mem_cons.mp hline with rfl | hrest
    · exact List.forall_mem_nil _
    · exact ih hrest
  | case3 char rest hne hboundary ih =>
    rw [splitlines_of_not_pair hne, if_neg hboundary] at hline
    cases hlines : splitlines rest with
    | nil =>
      rw [hlines, extend, List.mem_singleton] at hline
      rw [hline]
      exact OneLine.cons.mpr ⟨hboundary, List.forall_mem_nil _⟩
    | cons first lines =>
      rw [hlines] at ih
      rw [hlines, extend] at hline
      rcases List.mem_cons.mp hline with rfl | hrest
      · exact OneLine.cons.mpr ⟨hboundary, ih List.mem_cons_self⟩
      · exact ih (List.mem_cons_of_mem _ hrest)
  | case4 => cases hline

theorem oneLine_of_mem_readLines {text line : List Char} (hline : line ∈ readLines text) :
    OneLine line :=
  oneLine_of_mem_splitlines hline

theorem ne_carriageReturn {char : Char} (hchar : char ∉ lineBoundaries) : char ≠ '\r' := by
  rintro rfl
  exact hchar (by decide)

theorem universalNewlines_line {line : List Char} (hline : OneLine line) (rest : List Char) :
    universalNewlines (line ++ '\n' :: rest) = line ++ '\n' :: universalNewlines rest := by
  induction line with
  | nil => exact universalNewlines_cons rest (by decide)
  | cons char line ih =>
    obtain ⟨hchar, hline⟩ := OneLine.cons.mp hline
    rw [List.cons_append, universalNewlines_cons _ (ne_carriageReturn hchar), ih hline,
      List.cons_append]

theorem splitlines_line {line : List Char} (hline : OneLine line) (rest : List Char) :
    splitlines (line ++ '\n' :: rest) = line :: splitlines rest := by
  induction line with
  | nil =>
    rw [List.nil_append, splitlines_cons _ (by decide), if_pos (by decide)]
  | cons char line ih =>
    obtain ⟨hchar, hline⟩ := OneLine.cons.mp hline
    rw [List.cons_append, splitlines_cons _ (ne_carriageReturn hchar), if_neg hchar, ih hline, extend]

/-- A first line that is ended by a line feed is read back. -/
theorem readLines_line {line : List Char} (hline : OneLine line) (rest : List Char) :
    readLines (line ++ '\n' :: rest) = line :: readLines rest := by
  rw [readLines, universalNewlines_line hline, splitlines_line hline, readLines]

/-- Lines that are each ended by a line feed are read back. -/
theorem readLines_flatMap {lines : List (List Char)} (hlines : ∀ line ∈ lines, OneLine line) :
    readLines (lines.flatMap fun line ↦ line ++ ['\n']) = lines := by
  induction lines with
  | nil => rfl
  | cons line lines ih =>
    rw [List.forall_mem_cons] at hlines
    rw [List.flatMap_cons, List.append_assoc, List.singleton_append, readLines_line hlines.1,
      ih hlines.2]

end Oamb.Foundation.TextLines
