import Oamb.Foundation.Numerals
import Oamb.Foundation.TextLines
import Oamb.Foundation.Whitespace

/-!
# Ranked movies

A completion lists movies, one on a line, each behind its rank. `parseRankedMovies` reads the titles
of a completion that is one whole text. It accepts the lists that have every rank from one on, at
most twenty of them, with blank lines and a header in front of them and nothing else
(`parseText_eq_ok`), and reads the titles that it read from what would be written
(`parse_render`).
-/

set_option autoImplicit false

namespace Oamb.Workloads.RankedMovies

open Foundation Foundation.TextLines Foundation.Whitespace

/-! ### Completions -/

inductive FinishDisposition
  | normalStop
  | lengthLimit
  | contentFiltered
  | toolCall
  | missingFinishReason
  | cancelled
  | incompleteStream
  | transportError
  deriving DecidableEq, Repr

structure ModelCandidate where
  content : Option (List Char)
  toolCallPresent : Bool
  complete : Bool

structure ModelCompletion where
  finishDisposition : FinishDisposition
  candidates : List ModelCandidate

/-! ### Lines -/

def header : List Char := "the recommendations are:".toList

def maxRank : ℕ := 20

/-- A character between the parts of a line. -/
def isBlank (char : Char) : Bool := char = ' ' || char = '\t'

/-- The characters that may stand behind a rank. -/
def delimiters : List Char := ['.', ')', '、']

/-- The rank that digits write. -/
def rankOf (digits : List Char) : Option ℕ :=
  (List.range' 1 maxRank).find? fun rank ↦ Nat.toDigits 10 rank = digits

/-- The rank and the title of a line, as in
`^[ \t]*(?:[1-9]|1[0-9]|20)[.)、][ \t]*(?P<title>\S.*?)[ \t]*$`. -/
def rankedLine (line : List Char) : Option (ℕ × List Char) := do
  let line := line.dropWhile isBlank
  let rank ← rankOf (line.takeWhile Char.isDigit)
  match line.dropWhile Char.isDigit with
  | [] => none
  | delimiter :: rest =>
    let title := (rest.dropWhile isBlank).rdropWhile isBlank
    match title with
    | [] => none
    | first :: _ =>
      if delimiter ∈ delimiters ∧ isSpace first = false ∧ '\n' ∉ title then some (rank, title)
      else none

/-- The titles of lines whose ranks are a rank and the ones behind it. -/
def parseLines : ℕ → List (List Char) → Except String (List (List Char))
  | _, [] => .ok []
  | expectedRank, line :: lines =>
    match rankedLine line with
    | none => .error "ReDial ranks must be sequential and every line must be an item"
    | some (rank, title) =>
      if rank ≠ expectedRank then
        .error "ReDial ranks must be sequential and every line must be an item"
      else (title :: ·) <$> parseLines (expectedRank + 1) lines

/-- The lines of a text that are not blank. -/
def contentLines (content : List Char) : List (List Char) :=
  ((universalNewlines content).splitOn '\n').filter fun line ↦ strip line ≠ []

/-- A line that may stand before the movies. -/
def isHeader (line : List Char) : Bool := (strip line).map Char.toLower = header

def withoutHeader (lines : List (List Char)) : List (List Char) :=
  match lines with
  | [] => []
  | line :: rest => if isHeader line then rest else line :: rest

def parseText (content : List Char) : Except String (List (List Char)) :=
  let lines := withoutHeader (contentLines content)
  if lines = [] ∨ maxRank < lines.length then
    .error "ReDial output requires one to twenty ranked items"
  else parseLines 1 lines

def parseRankedMovies (completion : ModelCompletion) : Except String (List (List Char)) :=
  if completion.finishDisposition ≠ .normalStop then
    .error "ReDial output requires a normal stop"
  else
    match completion.candidates with
    | [⟨some content, false, true⟩] => parseText content
    | [_] => .error "ReDial candidate must be complete text without a tool call"
    | _ => .error "ReDial output requires exactly one candidate"

/-! ### Items -/

/-- A title starts with a character that is no white space and does not end with a blank. -/
structure IsTitle (title : List Char) : Prop where
  first : ∃ char ∈ title.head?, isSpace char = false
  last : ∀ char ∈ title.getLast?, isBlank char = false
  oneLine : '\n' ∉ title

/-- A line with a rank and a title. -/
def IsItem (rank : ℕ) (title line : List Char) : Prop :=
  ∃ before delimiter between behind, line =
      before ++ (Nat.toDigits 10 rank ++ delimiter :: (between ++ (title ++ behind))) ∧
    (∀ char ∈ before ++ between ++ behind, isBlank char = true) ∧ delimiter ∈ delimiters ∧
    0 < rank ∧ rank ≤ maxRank ∧ IsTitle title

theorem toDigits_inj {first second : ℕ} (hsame : Nat.toDigits 10 first = Nat.toDigits 10 second) :
    first = second := by
  rw [← Option.some_inj, ← Numerals.readNumeral_toDigits first, hsame,
    Numerals.readNumeral_toDigits]

theorem rankOf_eq_some_iff {digits : List Char} {rank : ℕ} :
    rankOf digits = some rank ↔ 0 < rank ∧ rank ≤ maxRank ∧ digits = Nat.toDigits 10 rank := by
  unfold rankOf
  constructor
  · intro hfound
    have hmem := List.mem_range'_1.mp (List.mem_of_find?_eq_some hfound)
    have hdigits := List.find?_some hfound
    exact ⟨hmem.1, by omega, (of_decide_eq_true hdigits).symm⟩
  · rintro ⟨hpositive, hle, rfl⟩
    cases hfound : (List.range' 1 maxRank).find? fun other ↦
        decide (Nat.toDigits 10 other = Nat.toDigits 10 rank) with
    | some other =>
      have hdigits := List.find?_some hfound
      rw [toDigits_inj (of_decide_eq_true hdigits)]
    | none =>
      have hnone := List.find?_eq_none.mp hfound rank
        (List.mem_range'_1.mpr ⟨hpositive, by omega⟩)
      simp at hnone

theorem isBlank_eq_true {char : Char} : isBlank char = true ↔ char = ' ' ∨ char = '\t' := by
  simp [isBlank]

theorem isBlank_of_isDigit {char : Char} (hchar : char.isDigit = true) : isBlank char = false := by
  refine Bool.eq_false_iff.mpr fun hblank ↦ ?_
  rcases isBlank_eq_true.mp hblank with rfl | rfl <;> exact absurd hchar (by decide)

theorem isBlank_of_isSpace {char : Char} (hchar : isSpace char = false) : isBlank char = false := by
  refine Bool.eq_false_iff.mpr fun hblank ↦ ?_
  rcases isBlank_eq_true.mp hblank with rfl | rfl <;> exact absurd hchar (by decide)

theorem head_toDigits (rank : ℕ) :
    ∀ char ∈ (Nat.toDigits 10 rank).head?, char.isDigit = true := by
  intro char hchar
  exact List.all_eq_true.mp (Numerals.all_isDigit_toDigits rank) char
    (List.mem_of_mem_head? hchar)

theorem rankedLine_of_isItem {line title : List Char} {rank : ℕ} (hitem : IsItem rank title line) :
    rankedLine line = some (rank, title) := by
  obtain ⟨before, delimiter, between, behind, rfl, hblank, hdelimiter, hpositive, hle, htitle⟩ :=
    hitem
  obtain ⟨first, hfirst, hspace⟩ := htitle.first
  obtain ⟨rest, rfl⟩ : ∃ rest, title = first :: rest := by
    cases title with
    | nil => exact absurd hfirst (by simp)
    | cons char rest => exact ⟨rest, by rw [Option.some_inj.mp hfirst]⟩
  have hdigits := List.all_eq_true.mp (Numerals.all_isDigit_toDigits rank)
  have hstart : (before ++ (Nat.toDigits 10 rank ++
      delimiter :: (between ++ (first :: rest ++ behind)))).dropWhile isBlank =
      Nat.toDigits 10 rank ++ delimiter :: (between ++ (first :: rest ++ behind)) := by
    refine dropWhile_run (fun char hchar ↦ hblank char (by simp [hchar])) fun char hchar ↦ ?_
    rw [List.head?_append_of_ne_nil _ Nat.toDigits_ne_nil] at hchar
    exact isBlank_of_isDigit (head_toDigits rank char hchar)
  have hends : ∀ char ∈ (delimiter :: (between ++ (first :: rest ++ behind))).head?,
      char.isDigit = false := by
    intro char hchar
    rw [← Option.some_inj.mp hchar]
    simp only [delimiters, List.mem_cons, List.not_mem_nil, or_false] at hdelimiter
    rcases hdelimiter with rfl | rfl | rfl <;> decide
  have hgap : (between ++ (first :: rest ++ behind)).dropWhile isBlank =
      first :: rest ++ behind := by
    refine dropWhile_run (fun char hchar ↦ hblank char (by simp [hchar])) fun char hchar ↦ ?_
    rw [← Option.some_inj.mp hchar]
    exact isBlank_of_isSpace hspace
  have htail : (first :: rest ++ behind).rdropWhile isBlank = first :: rest :=
    rdropWhile_run (fun char hchar ↦ hblank char (by simp [hchar])) htitle.last
  unfold rankedLine
  simp only [hstart, takeWhile_run hdigits hends, dropWhile_run hdigits hends, hgap, htail,
    rankOf_eq_some_iff.mpr ⟨hpositive, hle, rfl⟩]
  simp only [bind, Option.bind_some]
  rw [if_pos ⟨hdelimiter, hspace, htitle.oneLine⟩]

theorem isItem_of_rankedLine {line title : List Char} {rank : ℕ}
    (hline : rankedLine line = some (rank, title)) : IsItem rank title line := by
  unfold rankedLine at hline
  obtain ⟨found, hrank, hline⟩ := Option.bind_eq_some_iff.mp hline
  obtain ⟨hpositive, hle, hdigits⟩ := rankOf_eq_some_iff.mp hrank
  cases hbehind : (line.dropWhile isBlank).dropWhile Char.isDigit with
  | nil =>
    rw [hbehind] at hline
    exact absurd hline (by simp)
  | cons delimiter rest =>
    simp only [hbehind] at hline
    cases htitle : (rest.dropWhile isBlank).rdropWhile isBlank with
    | nil =>
      rw [htitle] at hline
      exact absurd hline (by simp)
    | cons first others =>
      simp only [htitle] at hline
      split at hline
      · rename_i hchecks
        obtain ⟨rfl, rfl⟩ := Prod.mk.inj (Option.some_inj.mp hline)
        refine ⟨line.takeWhile isBlank, delimiter, rest.takeWhile isBlank,
          (rest.dropWhile isBlank).rtakeWhile isBlank, ?_, ?_, hchecks.1, hpositive, hle,
          ⟨first, rfl, hchecks.2.1⟩, ?_, hchecks.2.2⟩
        · rw [← htitle, List.rdropWhile_append_rtakeWhile, List.takeWhile_append_dropWhile,
            ← hbehind, ← hdigits, List.takeWhile_append_dropWhile,
            List.takeWhile_append_dropWhile]
        · intro char hchar
          rcases List.mem_append.mp hchar with hchar | hchar
          · rcases List.mem_append.mp hchar with hchar | hchar
            · exact List.mem_takeWhile_imp hchar
            · exact List.mem_takeWhile_imp hchar
          · exact List.mem_rtakeWhile_imp hchar
        · intro char hchar
          rw [← htitle] at hchar
          exact of_mem_getLast_rdropWhile hchar
      · exact absurd hline (by simp)

theorem rankedLine_eq_some_iff {line title : List Char} {rank : ℕ} :
    rankedLine line = some (rank, title) ↔ IsItem rank title line :=
  ⟨isItem_of_rankedLine, rankedLine_of_isItem⟩

/-! ### Lists -/

/-- The lines are the items of the titles, with ranks from a rank on. -/
def AreItems (start : ℕ) (titles lines : List (List Char)) : Prop :=
  lines.length = titles.length ∧
    ∀ (position : ℕ) (title line : List Char), titles[position]? = some title →
      lines[position]? = some line → IsItem (start + position) title line

theorem areItems_cons_iff {start : ℕ} {title line : List Char} {titles lines : List (List Char)} :
    AreItems start (title :: titles) (line :: lines) ↔
      IsItem start title line ∧ AreItems (start + 1) titles lines := by
  unfold AreItems
  constructor
  · rintro ⟨hlength, hitems⟩
    refine ⟨hitems 0 title line rfl rfl, Nat.succ.inj hlength,
      fun position other next hother hnext ↦ ?_⟩
    rw [Nat.add_right_comm]
    exact hitems (position + 1) other next hother hnext
  · rintro ⟨hitem, hlength, hitems⟩
    refine ⟨congrArg Nat.succ hlength, fun position other next hother hnext ↦ ?_⟩
    cases position with
    | zero =>
      rw [← Option.some_inj.mp hother, ← Option.some_inj.mp hnext]
      exact hitem
    | succ position =>
      rw [← Nat.add_assoc, Nat.add_right_comm]
      exact hitems position other next hother hnext

/-- By induction on the lines: the titles are read exactly from items with the expected ranks. -/
theorem parseLines_eq_ok {start : ℕ} {titles lines : List (List Char)} :
    parseLines start lines = .ok titles ↔ AreItems start titles lines := by
  induction lines generalizing start titles with
  | nil =>
    rw [parseLines, Except.ok.injEq]
    constructor
    · rintro rfl
      exact ⟨rfl, fun position title line htitle _ ↦ absurd htitle (by simp)⟩
    · exact fun hitems ↦ (List.eq_nil_of_length_eq_zero hitems.1.symm).symm
  | cons line lines ih =>
    cases titles with
    | nil =>
      refine ⟨fun hok ↦ ?_, fun hitems ↦ absurd hitems.1 (by simp)⟩
      unfold parseLines at hok
      split at hok
      · exact absurd hok (by simp)
      · split at hok
        · exact absurd hok (by simp)
        · cases hrest : parseLines (start + 1) lines <;> rw [hrest] at hok <;>
            exact absurd hok (by simp [Functor.map, Except.map])
    | cons title titles =>
      rw [areItems_cons_iff, ← ih, ← rankedLine_eq_some_iff, parseLines]
      cases hline : rankedLine line with
      | none => simp
      | some found =>
        obtain ⟨rank, first⟩ := found
        by_cases hrank : rank = start
        · simp only [hrank, ne_eq, not_true_eq_false, if_false, Option.some_inj, Prod.mk.injEq,
            true_and]
          cases parseLines (start + 1) lines with
          | error message => simp [Functor.map, Except.map]
          | ok rest => simp [Functor.map, Except.map]
        · simp [hrank]

/-- What a text has to be: items with the ranks from one on, behind a header or not. -/
def Accepts (titles : List (List Char)) (content : List Char) : Prop :=
  titles ≠ [] ∧ titles.length ≤ maxRank ∧
    ∃ lines, AreItems 1 titles lines ∧
      (contentLines content = lines ∨
        ∃ line, isHeader line = true ∧ contentLines content = line :: lines)

theorem isSpace_of_isBlank {char : Char} (hchar : isBlank char = true) : isSpace char = true := by
  rcases isBlank_eq_true.mp hchar with rfl | rfl <;> decide

/-- An item starts with a digit, so it is no header and not blank. -/
theorem strip_of_isItem {rank : ℕ} {title line : List Char} (hitem : IsItem rank title line) :
    ∃ digit rest, digit.isDigit = true ∧ strip line = digit :: rest := by
  obtain ⟨before, delimiter, between, behind, rfl, hblank, -⟩ := hitem
  obtain ⟨digit, digits, hdigits⟩ : ∃ digit digits, Nat.toDigits 10 rank = digit :: digits :=
    List.exists_cons_of_ne_nil Nat.toDigits_ne_nil
  have hdigit : digit.isDigit = true := head_toDigits rank digit (by rw [hdigits]; rfl)
  have hspace := isSpace_of_isDigit hdigit
  refine ⟨digit, (digits ++ delimiter :: (between ++ (title ++ behind))).rdropWhile isSpace, hdigit,
    ?_⟩
  have hstart : (before ++ (digit :: digits ++
      delimiter :: (between ++ (title ++ behind)))).dropWhile isSpace =
        digit :: (digits ++ delimiter :: (between ++ (title ++ behind))) := by
    refine dropWhile_run (fun char hchar ↦ ?_) fun char hchar ↦ ?_
    · exact isSpace_of_isBlank (hblank char (by simp [hchar]))
    · exact Option.some_inj.mp hchar ▸ hspace
  rw [strip, hdigits, hstart]
  exact rdropWhile_append_cons hspace [] _

theorem not_isHeader_of_isItem {rank : ℕ} {title line : List Char}
    (hitem : IsItem rank title line) : isHeader line = false := by
  obtain ⟨digit, rest, hdigit, hstrip⟩ := strip_of_isItem hitem
  refine decide_eq_false fun hheader ↦ ?_
  rw [hstrip] at hheader
  have hfirst : digit.toLower = 't' := (List.cons.inj hheader).1
  have hdigits : ∀ code < 58, 48 ≤ code → (Char.ofNat code).toLower ≠ 't' := by decide
  simp only [Char.isDigit, Bool.and_eq_true, decide_eq_true_eq] at hdigit
  have hlower : 48 ≤ digit.toNat := UInt32.le_iff_toNat_le.mp hdigit.1
  have hupper : digit.toNat ≤ 57 := UInt32.le_iff_toNat_le.mp hdigit.2
  have hcode := hdigits digit.toNat (Nat.lt_succ_of_le hupper) hlower
  rw [Char.ofNat_toNat] at hcode
  exact hcode hfirst

theorem parseText_eq_ok {titles : List (List Char)} {content : List Char} :
    parseText content = .ok titles ↔ Accepts titles content := by
  unfold parseText Accepts
  constructor
  · intro hok
    by_cases hlines : withoutHeader (contentLines content) = [] ∨
        maxRank < (withoutHeader (contentLines content)).length
    · rw [if_pos hlines] at hok
      exact absurd hok (by simp)
    · rw [if_neg hlines] at hok
      have hitems := parseLines_eq_ok.mp hok
      rw [← List.length_eq_zero_iff, hitems.1, List.length_eq_zero_iff, not_or,
        Nat.not_lt] at hlines
      refine ⟨hlines.1, hlines.2, _, hitems, ?_⟩
      cases hcontent : contentLines content with
      | nil => exact Or.inl rfl
      | cons line rest =>
        by_cases hheader : isHeader line = true
        · exact Or.inr ⟨line, hheader, by rw [withoutHeader, if_pos hheader]⟩
        · exact Or.inl (by rw [withoutHeader, if_neg hheader])
  · rintro ⟨hne, hle, lines, hitems, hcontent⟩
    have hlines : withoutHeader (contentLines content) = lines := by
      rcases hcontent with hcontent | ⟨line, hheader, hcontent⟩
      · rw [hcontent]
        cases lines with
        | nil => rfl
        | cons line lines =>
          obtain ⟨title, rest, rfl⟩ := List.exists_cons_of_ne_nil hne
          have hitem := (areItems_cons_iff.mp hitems).1
          rw [withoutHeader, not_isHeader_of_isItem hitem, if_neg Bool.false_ne_true]
      · rw [hcontent, withoutHeader, if_pos hheader]
    rw [hlines, if_neg]
    · exact parseLines_eq_ok.mpr hitems
    · rw [← List.length_eq_zero_iff, hitems.1, List.length_eq_zero_iff]
      exact fun hbad ↦ hbad.elim hne (Nat.not_lt.mpr hle)

/-! ### Writing a list -/

/-- The lines of titles, with ranks from a rank on. -/
def renderItems : ℕ → List (List Char) → List (List Char)
  | _, [] => []
  | rank, title :: titles =>
    (Nat.toDigits 10 rank ++ '.' :: ' ' :: title) :: renderItems (rank + 1) titles

/-- A list of movies, as it is read. -/
def render (titles : List (List Char)) : List Char := ['\n'].intercalate (renderItems 1 titles)

/-- The text of titles that can be read. -/
def IsText (title : List Char) : Prop := IsTitle title ∧ '\r' ∉ title

theorem areItems_renderItems {start : ℕ} {titles : List (List Char)}
    (htitles : ∀ title ∈ titles, IsTitle title) (hstart : 0 < start)
    (hle : start + titles.length ≤ maxRank + 1) :
    AreItems start titles (renderItems start titles) := by
  induction titles generalizing start with
  | nil => exact ⟨rfl, fun position title line htitle _ ↦ absurd htitle (by simp)⟩
  | cons title titles ih =>
    rw [List.length_cons] at hle
    refine areItems_cons_iff.mpr ⟨?_, ih ?_ (Nat.succ_pos _) (by omega)⟩
    swap
    · exact fun other hmem ↦ htitles other (List.mem_cons_of_mem _ hmem)
    exact ⟨[], '.', [' '], [], by simp, by simp [isBlank], by simp [delimiters], hstart, by omega,
      htitles title List.mem_cons_self⟩

theorem not_mem_renderItems {start : ℕ} {titles : List (List Char)} {char : Char}
    (hchar : char = '\n' ∨ char = '\r') (htitles : ∀ title ∈ titles, char ∉ title) :
    ∀ line ∈ renderItems start titles, char ∉ line := by
  induction titles generalizing start with
  | nil => exact fun line hline ↦ (List.not_mem_nil hline).elim
  | cons title titles ih =>
    intro line hline hmem
    rcases List.mem_cons.mp hline with rfl | hline
    · simp only [List.mem_append, List.mem_cons] at hmem
      rcases hmem with hdigit | heq | heq | htitle
      · have hisDigit := List.all_eq_true.mp (Numerals.all_isDigit_toDigits start) char hdigit
        rcases hchar with rfl | rfl <;> exact absurd hisDigit (by decide)
      · rcases hchar with rfl | rfl <;> exact absurd heq (by decide)
      · rcases hchar with rfl | rfl <;> exact absurd heq (by decide)
      · exact htitles title List.mem_cons_self htitle
    · exact ih (fun other hother ↦ htitles other (List.mem_cons_of_mem _ hother)) line hline hmem

theorem contentLines_render {titles : List (List Char)} (hne : titles ≠ [])
    (htitles : ∀ title ∈ titles, IsText title) (hle : titles.length ≤ maxRank) :
    contentLines (render titles) = renderItems 1 titles := by
  have hitems : AreItems 1 titles (renderItems 1 titles) :=
    areItems_renderItems (fun title hmem ↦ (htitles title hmem).1) Nat.one_pos (by omega)
  have hreturn : '\r' ∉ render titles := by
    rw [render, mem_intercalate_iff (by decide)]
    rintro ⟨line, hline, hmem⟩
    exact not_mem_renderItems (Or.inr rfl) (fun title htitle ↦ (htitles title htitle).2) line hline
      hmem
  have hlines : renderItems 1 titles ≠ [] := by
    rw [← List.length_pos_iff, hitems.1, List.length_pos_iff]
    exact hne
  rw [contentLines, universalNewlines_of_not_mem hreturn, render, List.splitOn_intercalate '\n'
    (not_mem_renderItems (Or.inl rfl) fun title htitle ↦ (htitles title htitle).1.oneLine) hlines]
  refine List.filter_eq_self.mpr fun line hline ↦ decide_eq_true ?_
  obtain ⟨position, hposition⟩ := List.mem_iff_getElem?.mp hline
  obtain ⟨title, htitle⟩ : ∃ title, titles[position]? = some title := by
    have hlt := (List.getElem?_eq_some_iff.mp hposition).1
    rw [hitems.1] at hlt
    exact ⟨_, List.getElem?_eq_getElem hlt⟩
  obtain ⟨digit, rest, -, hstrip⟩ := strip_of_isItem (hitems.2 position title line htitle hposition)
  rw [hstrip]
  exact List.cons_ne_nil _ _

/-- What was read is read again from what would be written. -/
theorem parse_render {titles : List (List Char)} (hne : titles ≠ [])
    (htitles : ∀ title ∈ titles, IsText title) (hle : titles.length ≤ maxRank) :
    parseText (render titles) = .ok titles :=
  parseText_eq_ok.mpr ⟨hne, hle, renderItems 1 titles,
    areItems_renderItems (fun title hmem ↦ (htitles title hmem).1) Nat.one_pos (by omega),
    Or.inl (contentLines_render hne htitles hle)⟩

/-- The titles of a list that is accepted can be written. -/
theorem isText_of_accepts {titles : List (List Char)} {content : List Char}
    (haccepts : Accepts titles content) : ∀ title ∈ titles, IsText title := by
  obtain ⟨-, -, lines, hitems, hcontent⟩ := haccepts
  intro title htitle
  obtain ⟨position, hposition⟩ := List.mem_iff_getElem?.mp htitle
  obtain ⟨line, hline⟩ : ∃ line, lines[position]? = some line := by
    have hlt := (List.getElem?_eq_some_iff.mp hposition).1
    rw [← hitems.1] at hlt
    exact ⟨_, List.getElem?_eq_getElem hlt⟩
  obtain ⟨before, delimiter, between, behind, hsplit, -, -, -, -, hisTitle⟩ :=
    hitems.2 position title line hposition hline
  refine ⟨hisTitle, fun hmem ↦ not_mem_universalNewlines content ?_⟩
  have hmemLine : '\r' ∈ line := by
    rw [hsplit]
    simp [hmem]
  have hlineMem : line ∈ contentLines content := by
    rcases hcontent with hcontent | ⟨header, -, hcontent⟩
    · exact hcontent ▸ List.mem_of_getElem? hline
    · exact hcontent ▸ List.mem_cons_of_mem _ (List.mem_of_getElem? hline)
  have hjoin : ['\n'].intercalate ((universalNewlines content).splitOn '\n') =
      universalNewlines content := List.intercalate_splitOn '\n'
  rw [← hjoin, mem_intercalate_iff (by decide)]
  exact ⟨line, (List.mem_filter.mp hlineMem).1, hmemLine⟩

/-! ### Completions of one text -/

/-- A completion that is a whole text and nothing else. -/
def textCompletion (content : List Char) : ModelCompletion :=
  ⟨.normalStop, [⟨some content, false, true⟩]⟩

/-- What is accepted is a list of items, which a header may stand before, with their titles; and the
titles that were read are read again from what would be written. -/
theorem parseRankedMovies_grammar (content : List Char) :
    (∀ titles, parseRankedMovies (textCompletion content) = .ok titles ↔
      Accepts titles content) ∧
    (∀ titles, parseRankedMovies (textCompletion content) = .ok titles →
      parseRankedMovies (textCompletion (render titles)) = .ok titles) := by
  refine ⟨fun titles ↦ parseText_eq_ok, fun titles hok ↦ ?_⟩
  have haccepts := parseText_eq_ok.mp hok
  exact parse_render haccepts.1 (isText_of_accepts haccepts) haccepts.2.1

/-- A list with a header has a line more than it has titles. -/
theorem header_is_no_item :
    ¬∀ (content : List Char) (titles : List (List Char)),
      parseRankedMovies (textCompletion content) = .ok titles →
        AreItems 1 titles (contentLines content) := by
  intro hall
  have hitems := hall "The recommendations are:\n1. A".toList [['A']] (by decide +kernel)
  exact absurd hitems.1 (by decide +kernel)

end Oamb.Workloads.RankedMovies
