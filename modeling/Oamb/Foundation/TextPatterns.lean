import Mathlib.Data.List.TakeWhile
import Mathlib.Tactic.Common

/-!
# Patterns of texts

A pattern is read at a place of a text, and `ends` lists the places where a match of it ends, the
preferred one first. The matches of a whole text are searched from its start to its end, each behind
the one before (`findSpans`): a match is found exactly when the pattern is read at its start and no
match that is found covers its start (`mem_findSpans_iff`).
-/

set_option autoImplicit false

namespace Oamb.Foundation.TextPatterns

/-! ### Patterns -/

/-- A place of a text: the character before it, and the text behind it. -/
structure Place where
  before : Option Char
  rest : List Char
  deriving DecidableEq

/-- The place behind some more characters. -/
def Place.skip (place : Place) : ℕ → Place
  | 0 => place
  | count + 1 => ⟨place.rest[count]?, place.rest.drop (count + 1)⟩

/-- Patterns. A run is as long as it can be, and the first of two patterns is preferred. -/
inductive Pattern
  | empty
  | one (test : Char → Bool)
  | run (test : Char → Bool) (least : ℕ) (most : Option ℕ)
  | seq (first second : Pattern)
  | either (first second : Pattern)
  | boundary (isWord : Char → Bool)
  | behind (test : Char → Bool) (wanted : Bool)
  | ahead (test : Char → Bool) (wanted : Bool)

/-- A pattern that may be left out. -/
def Pattern.optional (pattern : Pattern) : Pattern := .either pattern .empty

/-- A text, character by character. -/
def Pattern.text (same : Char → Char → Bool) : List Char → Pattern
  | [] => .empty
  | char :: chars => .seq (.one (same char)) (Pattern.text same chars)

/-- One of some patterns. -/
def Pattern.oneOf : List Pattern → Pattern
  | [] => .one fun _ ↦ false
  | [pattern] => pattern
  | pattern :: patterns => .either pattern (Pattern.oneOf patterns)

/-- Some patterns one after the other. -/
def Pattern.all : List Pattern → Pattern
  | [] => .empty
  | pattern :: patterns => .seq pattern (Pattern.all patterns)

/-- The sizes of the starts of a run, the longest first. -/
def runSizes (length least : ℕ) (most : Option ℕ) : List ℕ :=
  let largest := most.elim length (min length)
  (List.range' least (largest + 1 - least)).reverse

/-- Where a match of a pattern ends. -/
def ends : Pattern → Place → List Place
  | .empty, place => [place]
  | .one test, place =>
    match place.rest with
    | [] => []
    | char :: rest => if test char then [⟨some char, rest⟩] else []
  | .run test least most, place =>
    (runSizes (place.rest.takeWhile test).length least most).map place.skip
  | .seq first second, place => (ends first place).flatMap (ends second)
  | .either first second, place => ends first place ++ ends second place
  | .boundary isWord, place =>
    if place.before.any isWord ≠ place.rest.head?.any isWord then [place] else []
  | .behind test wanted, place => if place.before.any test = wanted then [place] else []
  | .ahead test wanted, place => if place.rest.head?.any test = wanted then [place] else []

/-- The size of the preferred match at a place. -/
def sizeAt (pattern : Pattern) (place : Place) : Option ℕ :=
  (ends pattern place).head?.map fun behind ↦ place.rest.length - behind.rest.length

/-! ### Search -/

/-- Where matches start that are not empty, with their sizes. Some characters are skipped first. -/
def spansFrom (pattern : Pattern) : ℕ → ℕ → Option Char → List Char → List (ℕ × ℕ)
  | _, _, _, [] => []
  | skip + 1, start, _, char :: rest => spansFrom pattern skip (start + 1) (some char) rest
  | 0, start, before, char :: rest =>
    match sizeAt pattern ⟨before, char :: rest⟩ with
    | some (size + 1) =>
      (start, size + 1) :: spansFrom pattern size (start + 1) (some char) rest
    | _ => spansFrom pattern 0 (start + 1) (some char) rest

def findSpans (pattern : Pattern) (text : List Char) : List (ℕ × ℕ) :=
  spansFrom pattern 0 0 none text

/-- The text of a match. -/
def spanText (text : List Char) (span : ℕ × ℕ) : List Char := (text.drop span.1).take span.2

/-- The texts of all matches. -/
def findAll (pattern : Pattern) (text : List Char) : List (List Char) :=
  (findSpans pattern text).map (spanText text)

/-- There is a match. -/
def occurs (pattern : Pattern) (text : List Char) : Bool := !(findSpans pattern text).isEmpty

/-- The text between matches. -/
def splitSpans (text : List Char) : ℕ → List (ℕ × ℕ) → List (List Char)
  | start, [] => [text.drop start]
  | start, (next, size) :: spans =>
    (text.drop start).take (next - start) :: splitSpans text (next + size) spans

/-- The parts of a text between the matches of a pattern. -/
def split (pattern : Pattern) (text : List Char) : List (List Char) :=
  splitSpans text 0 (findSpans pattern text)

/-! ### Ends -/

variable {pattern first second : Pattern} {place behind : Place} {test : Char → Bool}

theorem mem_runSizes {length least size : ℕ} {most : Option ℕ} :
    size ∈ runSizes length least most ↔
      least ≤ size ∧ size ≤ length ∧ ∀ bound, most = some bound → size ≤ bound := by
  rw [runSizes, List.mem_reverse, List.mem_range'_1]
  cases most with
  | none =>
    simp only [Option.elim_none, reduceCtorEq, false_imp_iff, implies_true, and_true]
    omega
  | some bound =>
    simp only [Option.elim_some, Option.some.injEq, forall_eq']
    omega

theorem mem_ends_one : behind ∈ ends (.one test) place ↔
    ∃ char rest, place.rest = char :: rest ∧ test char = true ∧ behind = ⟨some char, rest⟩ := by
  rw [ends]
  cases hrest : place.rest with
  | nil => simp
  | cons char rest =>
    by_cases htest : test char = true
    · simp [htest]
    · simp [htest]

theorem mem_ends_run {least : ℕ} {most : Option ℕ} :
    behind ∈ ends (.run test least most) place ↔
      ∃ size, least ≤ size ∧ size ≤ (place.rest.takeWhile test).length ∧
        (∀ bound, most = some bound → size ≤ bound) ∧ behind = place.skip size := by
  rw [ends, List.mem_map]
  refine exists_congr fun size ↦ ?_
  rw [mem_runSizes, and_assoc, and_assoc, @eq_comm _ behind]

theorem mem_ends_seq : behind ∈ ends (.seq first second) place ↔
    ∃ middle ∈ ends first place, behind ∈ ends second middle := by
  rw [ends, List.mem_flatMap]

theorem mem_ends_boundary {isWord : Char → Bool} : behind ∈ ends (.boundary isWord) place ↔
    place.before.any isWord ≠ place.rest.head?.any isWord ∧ behind = place := by
  rw [ends]
  split
  · next hbound => simp [hbound]
  · next hbound => simp [hbound]

/-! ### Spans -/

/-- The place in front of the rest of a text, after some of it. -/
def placeIn (before : Option Char) (text : List Char) (count : ℕ) : Place :=
  Place.skip ⟨before, text⟩ count

theorem placeIn_succ (before : Option Char) (char : Char) (rest : List Char) (count : ℕ) :
    placeIn before (char :: rest) (count + 1) = placeIn (some char) rest count := by
  cases count with
  | zero => rfl
  | succ count => rfl

theorem spansFrom_start_le {skip start : ℕ} {before : Option Char} {text : List Char}
    {span : ℕ × ℕ} (hspan : span ∈ spansFrom pattern skip start before text) :
    start + skip ≤ span.1 := by
  induction text generalizing skip start before with
  | nil => cases hspan
  | cons char rest ih =>
    cases skip with
    | succ skip =>
      have hle := ih hspan
      omega
    | zero =>
      rw [spansFrom] at hspan
      split at hspan
      · rcases List.mem_cons.mp hspan with rfl | hspan
        · exact le_rfl
        · have hle := ih hspan
          omega
      · have hle := ih hspan
        omega

/-- A match is found where the pattern is read, unless a match that is found covers its start. -/
theorem mem_spansFrom_iff {skip start : ℕ} {before : Option Char} {text : List Char}
    {position size : ℕ} : (position, size) ∈ spansFrom pattern skip start before text ↔
      start + skip ≤ position ∧ position < start + text.length ∧ 0 < size ∧
        sizeAt pattern (placeIn before text (position - start)) = some size ∧
          ∀ span ∈ spansFrom pattern skip start before text,
            span.1 < position → span.1 + span.2 ≤ position := by
  induction text generalizing skip start before with
  | nil =>
    rw [spansFrom]
    refine iff_of_false List.not_mem_nil fun hall ↦ ?_
    have hlt := hall.2.1
    rw [List.length_nil] at hlt
    omega
  | cons char rest ih =>
    have hmove (hlater : start < position) :
        placeIn before (char :: rest) (position - start) =
          placeIn (some char) rest (position - (start + 1)) := by
      rw [show position - start = position - (start + 1) + 1 by omega, placeIn_succ]
    have hlater (hnext : start < position) (spans : List (ℕ × ℕ)) (skipped : ℕ) :
        (start + 1 + skipped ≤ position ∧ position < start + 1 + rest.length ∧ 0 < size ∧
          sizeAt pattern (placeIn (some char) rest (position - (start + 1))) = some size ∧
            ∀ span ∈ spans, span.1 < position → span.1 + span.2 ≤ position) ↔
        (start + 1 + skipped ≤ position ∧ position < start + (char :: rest).length ∧ 0 < size ∧
          sizeAt pattern (placeIn before (char :: rest) (position - start)) = some size ∧
            ∀ span ∈ spans, span.1 < position → span.1 + span.2 ≤ position) := by
      have hlength : start + 1 + rest.length = start + (char :: rest).length := by
        rw [List.length_cons]
        omega
      rw [hmove hnext, hlength]
    cases skip with
    | succ skip =>
      rw [spansFrom, ih]
      by_cases hnext : start < position
      · rw [hlater hnext, Nat.add_assoc, Nat.add_comm 1]
      · exact iff_of_false (fun hall ↦ hnext (by omega)) fun hall ↦ hnext (by omega)
    | zero =>
      have hnone (hunmatched : ¬∃ found, sizeAt pattern ⟨before, char :: rest⟩ = some (found + 1)) :
          spansFrom pattern 0 start before (char :: rest) =
            spansFrom pattern 0 (start + 1) (some char) rest := by
        rw [spansFrom]
        split
        · next found hfound => exact absurd ⟨found, hfound⟩ hunmatched
        · rfl
      by_cases hmatched : ∃ found, sizeAt pattern ⟨before, char :: rest⟩ = some (found + 1)
      · obtain ⟨found, hfound⟩ := hmatched
        rw [spansFrom]
        simp only [hfound]
        rw [List.mem_cons, ih, List.forall_mem_cons]
        by_cases hnext : start < position
        · rw [hlater hnext]
          constructor
          · rintro (hsame | hall)
            · rw [Prod.mk.injEq] at hsame
              omega
            · exact ⟨by omega, hall.2.1, hall.2.2.1, hall.2.2.2.1, fun _ ↦ by omega,
                hall.2.2.2.2⟩
          · rintro ⟨-, hend, hpos, hsize, hcover, hcovers⟩
            have hbehind := hcover hnext
            exact .inr ⟨by omega, hend, hpos, hsize, hcovers⟩
        · constructor
          · rintro (hsame | hall)
            · obtain ⟨rfl, rfl⟩ := Prod.mk.inj hsame
              refine ⟨le_rfl, by simp, Nat.succ_pos _, by rwa [Nat.sub_self],
                fun hlt ↦ absurd hlt (lt_irrefl _), fun span hspan hlt ↦ ?_⟩
              have hle := spansFrom_start_le hspan
              omega
            · omega
          · rintro ⟨hstart, -, -, hsize, -⟩
            have hhere : position = start := by omega
            subst hhere
            rw [Nat.sub_self] at hsize
            have hsame := hfound.symm.trans hsize
            rw [Option.some.injEq] at hsame
            exact .inl (by rw [hsame])
      · rw [hnone hmatched, ih]
        by_cases hnext : start < position
        · rw [hlater hnext]
          exact and_congr_left fun _ ↦ by omega
        · refine iff_of_false (fun hall ↦ hnext (by omega)) ?_
          rintro ⟨hstart, -, hpos, hsize, -⟩
          have hhere : position = start := by omega
          subst hhere
          rw [Nat.sub_self] at hsize
          obtain ⟨found, rfl⟩ := Nat.exists_eq_add_one_of_ne_zero hpos.ne'
          exact hmatched ⟨found, hsize⟩

theorem mem_findSpans_iff {text : List Char} {position size : ℕ} :
    (position, size) ∈ findSpans pattern text ↔
      position < text.length ∧ 0 < size ∧
        sizeAt pattern (placeIn none text position) = some size ∧
          ∀ span ∈ findSpans pattern text, span.1 < position → span.1 + span.2 ≤ position := by
  rw [findSpans, mem_spansFrom_iff, Nat.zero_add, Nat.zero_add, Nat.sub_zero]
  exact and_iff_right (Nat.zero_le _)

end Oamb.Foundation.TextPatterns
