import Mathlib.Data.List.Basic
import Mathlib.Data.List.TakeWhile

/-!
# Texts with placeholders

A placeholder is a name between two opening and two closing marks. `scan` reads a text from left to
right, as the symbols between placeholders and the placeholders, and looks at no placeholder twice.
A layout is a text that was taken apart into literals without placeholders, with a name behind each
literal but the last. `existsUnique_layout` says that a text has exactly one layout, and
`scan_source` that the scan finds it.
-/

set_option autoImplicit false

namespace Oamb.Foundation.Templates

variable {α : Type} [DecidableEq α]

/-- The marks around a name, the symbols that a name starts with, and the others in it. No mark is a
symbol of a name. -/
structure Marks (α : Type) where
  opening : α
  closing : α
  first : α → Bool
  other : α → Bool
  first_opening : first opening = false
  other_opening : other opening = false
  other_closing : other closing = false
  opening_ne_closing : opening ≠ closing

namespace Marks

variable (marks : Marks α)

/-- What stands between the marks. -/
def IsName (name : List α) : Prop :=
  ∃ symbol rest, name = symbol :: rest ∧ marks.first symbol = true ∧
    ∀ next ∈ rest, marks.other next = true

/-- A name between its marks. -/
def placeholder (name : List α) : List α :=
  marks.opening :: marks.opening :: (name ++ [marks.closing, marks.closing])

/-- The name of the placeholder that a text starts with. -/
def placeholderAt : List α → Option (List α)
  | before :: opening :: symbol :: rest =>
    if before = marks.opening ∧ opening = marks.opening ∧ marks.first symbol = true then
      match rest.dropWhile marks.other with
      | closing :: behind :: _ =>
        if closing = marks.closing ∧ behind = marks.closing then
          some (symbol :: rest.takeWhile marks.other)
        else none
      | _ => none
    else none
  | _ => none

end Marks

/-- A symbol of a text, or the name of a placeholder. -/
inductive Piece (α : Type)
  | literal (symbol : α)
  | value (name : List α)
  deriving DecidableEq

/-- The pieces of a text. The first number of symbols still belongs to a placeholder. -/
def scan (marks : Marks α) : ℕ → List α → List (Piece α)
  | _, [] => []
  | skipped + 1, _ :: rest => scan marks skipped rest
  | 0, symbol :: rest =>
    match marks.placeholderAt (symbol :: rest) with
    | some name => .value name :: scan marks (name.length + 3) rest
    | none => .literal symbol :: scan marks 0 rest

/-- The names of some pieces, in order. -/
def names (pieces : List (Piece α)) : List (List α) :=
  pieces.filterMap fun
    | .literal _ => none
    | .value name => some name

/-- A text with values at its placeholders. -/
def fill (values : List α → List α) (pieces : List (Piece α)) : List α :=
  pieces.flatMap fun
    | .literal symbol => [symbol]
    | .value name => values name

omit [DecidableEq α] in
theorem fill_congr {values others : List α → List α} {pieces : List (Piece α)}
    (hsame : ∀ name ∈ names pieces, others name = values name) :
    fill others pieces = fill values pieces := by
  refine List.flatMap_congr fun piece hpiece ↦ ?_
  cases piece with
  | literal symbol => rfl
  | value name => exact hsame name (List.mem_filterMap.mpr ⟨.value name, hpiece, rfl⟩)

/-! ### Layouts -/

/-- Literals that are each followed by a name, and a last literal. -/
structure Layout (α : Type) where
  parts : List (List α × List α)
  last : List α

namespace Layout

/-- The text of a layout. -/
def source (marks : Marks α) (layout : Layout α) : List α :=
  layout.parts.flatMap (fun part ↦ part.1 ++ marks.placeholder part.2) ++ layout.last

/-- The literals of a layout with values between them. -/
def filled (values : List α → List α) (layout : Layout α) : List α :=
  layout.parts.flatMap (fun part ↦ part.1 ++ values part.2) ++ layout.last

def names (layout : Layout α) : List (List α) := layout.parts.map Prod.snd

/-- The pieces of a layout. -/
def pieces (layout : Layout α) : List (Piece α) :=
  layout.parts.flatMap (fun part ↦ part.1.map .literal ++ [.value part.2]) ++
    layout.last.map .literal

end Layout

section Uniqueness

variable {marks : Marks α}

/-- No placeholder stands in a text. -/
def Free (marks : Marks α) (text : List α) : Prop :=
  ∀ name, marks.IsName name → ¬marks.placeholder name <:+: text

/-- The literals have no placeholder, and the names are names. -/
structure Layout.Proper (marks : Marks α) (layout : Layout α) : Prop where
  literals : ∀ part ∈ layout.parts, Free marks part.1
  names : ∀ part ∈ layout.parts, marks.IsName part.2
  last : Free marks layout.last

omit [DecidableEq α] in
/-- A layout that starts with another part. -/
theorem Layout.Proper.cons {literal name : List α} {layout : Layout α}
    (hliteral : Free marks literal) (hname : marks.IsName name) (hproper : layout.Proper marks) :
    (Layout.mk ((literal, name) :: layout.parts) layout.last).Proper marks :=
  ⟨List.forall_mem_cons.mpr ⟨hliteral, hproper.literals⟩,
    List.forall_mem_cons.mpr ⟨hname, hproper.names⟩, hproper.last⟩

theorem placeholderAt_placeholder {name : List α} (hname : marks.IsName name) (rest : List α) :
    marks.placeholderAt (marks.placeholder name ++ rest) = some name := by
  obtain ⟨symbol, others, rfl, hfirst, hothers⟩ := hname
  have hends : marks.other marks.closing ≠ true := Bool.eq_false_iff.mp marks.other_closing
  have hdrop : (others ++ marks.closing :: marks.closing :: rest).dropWhile marks.other =
      marks.closing :: marks.closing :: rest := by
    rw [List.dropWhile_append_of_pos hothers, List.dropWhile_cons_of_neg hends]
  have htake :
      (others ++ marks.closing :: marks.closing :: rest).takeWhile marks.other = others := by
    rw [List.takeWhile_append_of_pos hothers, List.takeWhile_cons_of_neg hends, List.append_nil]
  have htext : marks.placeholder (symbol :: others) ++ rest = marks.opening :: marks.opening ::
      symbol :: (others ++ marks.closing :: marks.closing :: rest) := by
    simp [Marks.placeholder]
  rw [htext, Marks.placeholderAt, if_pos ⟨rfl, rfl, hfirst⟩, hdrop, htake]
  simp

theorem eq_of_placeholderAt {text name : List α} (hat : marks.placeholderAt text = some name) :
    marks.IsName name ∧ ∃ rest, text = marks.placeholder name ++ rest := by
  unfold Marks.placeholderAt at hat
  split at hat
  · rename_i before opening symbol rest
    by_cases hstart : before = marks.opening ∧ opening = marks.opening ∧ marks.first symbol = true
    · rw [if_pos hstart] at hat
      obtain ⟨rfl, rfl, hfirst⟩ := hstart
      have hsplit := List.takeWhile_append_dropWhile (p := marks.other) (l := rest)
      split at hat
      · rename_i closing behind tail hdrop
        by_cases hend : closing = marks.closing ∧ behind = marks.closing
        · rw [if_pos hend, Option.some_inj] at hat
          obtain ⟨rfl, rfl⟩ := hend
          subst hat
          refine ⟨⟨symbol, _, rfl, hfirst, fun next ↦ List.mem_takeWhile_imp⟩, tail, ?_⟩
          rw [hdrop] at hsplit
          simp only [Marks.placeholder, List.cons_append, List.append_assoc, List.nil_append]
          rw [hsplit]
        · rw [if_neg hend] at hat
          exact absurd hat (by simp)
      · exact absurd hat (by simp)
    · rw [if_neg hstart] at hat
      exact absurd hat (by simp)
  · exact absurd hat (by simp)

omit [DecidableEq α] in
/-- Placeholders do not overlap: one that starts before another one ends before it. -/
theorem ends_before {before name other tail rest : List α} (hbefore : before ≠ [])
    (hother : marks.IsName other)
    (hsame : before ++ (marks.placeholder name ++ tail) = marks.placeholder other ++ rest) :
    marks.placeholder other <+: before := by
  rcases List.append_eq_append_iff.mp hsame with ⟨middle, hmiddle, hrest⟩ | ⟨middle, hmiddle, -⟩
  · cases middle with
    | nil => exact ⟨[], by rw [hmiddle]; simp⟩
    | cons symbol middle =>
      exfalso
      obtain ⟨start, others, rfl, hfirst, hothers⟩ := hother
      simp only [Marks.placeholder, List.cons_append, List.cons.injEq] at hrest
      obtain ⟨rfl, hnext⟩ := hrest
      obtain ⟨head, before, rfl⟩ := List.exists_cons_of_ne_nil hbefore
      simp only [Marks.placeholder, List.cons_append, List.cons.injEq] at hmiddle
      obtain ⟨-, hmiddle⟩ := hmiddle
      cases before with
      | nil =>
        -- The second mark stands where the other name starts.
        simp only [List.nil_append, List.cons.injEq, true_and] at hmiddle
        rw [← hmiddle, List.cons_append, List.cons.injEq] at hnext
        rw [← hnext.1, marks.first_opening] at hfirst
        exact Bool.false_ne_true hfirst
      | cons second before =>
        -- The first mark stands behind the two marks of the other placeholder.
        simp only [List.cons_append, List.cons.injEq] at hmiddle
        have hmem : marks.opening ∈ start :: (others ++ [marks.closing, marks.closing]) := by
          rw [hmiddle.2]
          simp
        simp only [List.mem_cons, List.mem_append, List.not_mem_nil, or_false, or_self] at hmem
        rcases hmem with heq | hmem | heq
        · rw [← heq, marks.first_opening] at hfirst
          exact Bool.false_ne_true hfirst
        · exact absurd (hothers _ hmem) (Bool.eq_false_iff.mp marks.other_opening)
        · exact marks.opening_ne_closing heq
  · exact ⟨middle, hmiddle.symm⟩

omit [DecidableEq α] in
theorem Free.tail {symbol : α} {text : List α} (hfree : Free marks (symbol :: text)) :
    Free marks text :=
  fun name hname hwithin ↦ hfree name hname (hwithin.trans (List.suffix_cons _ _).isInfix)

/-! ### The scan of a layout -/

theorem scan_skip (marks : Marks α) (skipped rest : List α) :
    scan marks skipped.length (skipped ++ rest) = scan marks 0 rest := by
  induction skipped with
  | nil => rfl
  | cons symbol skipped ih => exact ih

theorem scan_free {text : List α} (hfree : Free marks text) :
    scan marks 0 text = text.map .literal := by
  induction text with
  | nil => rfl
  | cons symbol text ih =>
    have hnone : marks.placeholderAt (symbol :: text) = none := by
      cases hat : marks.placeholderAt (symbol :: text) with
      | none => rfl
      | some name =>
        obtain ⟨hname, rest, htext⟩ := eq_of_placeholderAt hat
        exact absurd ⟨[], rest, by rw [List.nil_append, htext]⟩ (hfree name hname)
    rw [scan, hnone, List.map_cons, ih hfree.tail]

theorem scan_literal {literal name : List α} (hfree : Free marks literal)
    (hname : marks.IsName name) (tail : List α) :
    scan marks 0 (literal ++ (marks.placeholder name ++ tail)) =
      literal.map .literal ++ .value name :: scan marks 0 tail := by
  induction literal with
  | nil =>
    have hat := placeholderAt_placeholder hname tail
    have hskip := scan_skip marks
      (marks.opening :: (name ++ [marks.closing, marks.closing])) tail
    simp only [List.length_cons, List.length_append, List.length_nil] at hskip
    rw [List.nil_append, List.map_nil, List.nil_append]
    change scan marks 0 (marks.opening ::
      ((marks.opening :: (name ++ [marks.closing, marks.closing])) ++ tail)) = _
    rw [scan]
    change (match marks.placeholderAt (marks.placeholder name ++ tail) with
      | some _ => _ | none => _) = _
    rw [hat, ← hskip]
  | cons symbol literal ih =>
    have hnone : marks.placeholderAt
        (symbol :: (literal ++ (marks.placeholder name ++ tail))) = none := by
      cases hat : marks.placeholderAt
          (symbol :: (literal ++ (marks.placeholder name ++ tail))) with
      | none => rfl
      | some other =>
        obtain ⟨hother, rest, htext⟩ := eq_of_placeholderAt hat
        have hahead := ends_before (List.cons_ne_nil symbol literal) hother htext
        exact absurd hahead.isInfix (hfree other hother)
    rw [List.cons_append, scan, hnone, ih hfree.tail]
    rfl

/-- The scan of a text finds its layout. -/
theorem scan_source {layout : Layout α} (hproper : layout.Proper marks) :
    scan marks 0 (layout.source marks) = layout.pieces := by
  obtain ⟨parts, last⟩ := layout
  induction parts with
  | nil => exact scan_free hproper.last
  | cons part parts ih =>
    have hrest := ih ⟨fun other hmem ↦ hproper.literals other (List.mem_cons_of_mem _ hmem),
      fun other hmem ↦ hproper.names other (List.mem_cons_of_mem _ hmem), hproper.last⟩
    unfold Layout.source Layout.pieces at hrest ⊢
    rw [List.flatMap_cons, List.append_assoc, List.append_assoc,
      scan_literal (hproper.literals part List.mem_cons_self)
        (hproper.names part List.mem_cons_self), hrest]
    simp

/-! ### The layout of a text -/

/-- Every text has a layout, by induction on its length. -/
theorem exists_layout (marks : Marks α) (text : List α) :
    ∃ layout : Layout α, layout.Proper marks ∧ layout.source marks = text := by
  induction hlength : text.length using Nat.strong_induction_on generalizing text with
  | _ length ih =>
    cases text with
    | nil =>
      refine ⟨⟨[], []⟩, ⟨by simp, by simp, ?_⟩, rfl⟩
      intro name _ hwithin
      exact absurd (List.infix_nil.mp hwithin) (List.cons_ne_nil _ _)
    | cons symbol rest =>
      cases hat : marks.placeholderAt (symbol :: rest) with
      | some name =>
        obtain ⟨hname, behind, htext⟩ := eq_of_placeholderAt hat
        have hshorter : behind.length < length := by
          rw [← hlength, htext, Marks.placeholder]
          simp only [List.length_append, List.length_cons]
          omega
        obtain ⟨layout, hproper, hsource⟩ := ih _ hshorter behind rfl
        refine ⟨⟨([], name) :: layout.parts, layout.last⟩, hproper.cons ?_ hname, ?_⟩
        · intro other _ hwithin
          exact absurd (List.infix_nil.mp hwithin) (List.cons_ne_nil _ _)
        · rw [htext, ← hsource]
          simp [Layout.source]
      | none =>
        obtain ⟨layout, hproper, hsource⟩ :=
          ih rest.length (by rw [← hlength]; exact Nat.lt_succ_self _) rest rfl
        -- A placeholder in a longer literal would start at its first symbol.
        have hfree : ∀ literal behind : List α, Free marks literal → rest = literal ++ behind →
            Free marks (symbol :: literal) := by
          rintro literal behind hliteral rfl name hname hwithin
          rcases List.infix_cons_iff.mp hwithin with ⟨after, hstart⟩ | hwithin
          · have hfound := placeholderAt_placeholder hname (after ++ behind)
            rw [← List.append_assoc, hstart, List.cons_append, hat] at hfound
            exact absurd hfound (by simp)
          · exact hliteral name hname hwithin
        obtain ⟨parts, last⟩ := layout
        cases parts with
        | nil =>
          subst hsource
          exact ⟨⟨[], symbol :: last⟩, ⟨by simp, by simp,
            hfree last [] hproper.last (by simp [Layout.source])⟩, rfl⟩
        | cons part parts =>
          subst hsource
          refine ⟨⟨(symbol :: part.1, part.2) :: parts, last⟩, ⟨?_, ?_, hproper.last⟩, ?_⟩
          · refine List.forall_mem_cons.mpr ⟨?_, fun other hmem ↦
              hproper.literals other (List.mem_cons_of_mem _ hmem)⟩
            refine hfree part.1 (marks.placeholder part.2 ++ Layout.source marks ⟨parts, last⟩)
              (hproper.literals part List.mem_cons_self) ?_
            simp only [Layout.source, List.flatMap_cons, List.append_assoc]
          · exact List.forall_mem_cons.mpr ⟨hproper.names part List.mem_cons_self,
              fun other hmem ↦ hproper.names other (List.mem_cons_of_mem _ hmem)⟩
          · simp [Layout.source]

omit [DecidableEq α] in
theorem literal_value_inj {literal other name name' : List α} {pieces pieces' : List (Piece α)}
    (hsame : literal.map Piece.literal ++ .value name :: pieces =
      other.map Piece.literal ++ .value name' :: pieces') :
    literal = other ∧ name = name' ∧ pieces = pieces' := by
  induction literal generalizing other with
  | nil =>
    cases other with
    | nil => simpa using hsame
    | cons symbol other => exact absurd hsame (by simp)
  | cons symbol literal ih =>
    cases other with
    | nil => exact absurd hsame (by simp)
    | cons symbol' other =>
      simp only [List.map_cons, List.cons_append, List.cons.injEq, Piece.literal.injEq] at hsame
      obtain ⟨rfl, hrest⟩ := hsame
      obtain ⟨rfl, hnames⟩ := ih hrest
      exact ⟨rfl, hnames⟩

omit [DecidableEq α] in
theorem not_mem_value {name literal : List α} : Piece.value name ∉ literal.map Piece.literal := by
  simp

omit [DecidableEq α] in
/-- A layout is known from its pieces. -/
theorem Layout.pieces_inj {layout other : Layout α} (hsame : layout.pieces = other.pieces) :
    layout = other := by
  obtain ⟨parts, last⟩ := layout
  obtain ⟨parts', last'⟩ := other
  unfold Layout.pieces at hsame
  induction parts generalizing parts' with
  | nil =>
    cases parts' with
    | nil =>
      have hlast : last = last' := (List.map_inj_right fun _ _ ↦ Piece.literal.inj).mp hsame
      rw [hlast]
    | cons part parts' =>
      have hmem : Piece.value part.2 ∈ last.map Piece.literal := by
        have hright : Piece.value part.2 ∈ ((part :: parts').flatMap
            (fun part ↦ part.1.map Piece.literal ++ [.value part.2]) ++
              last'.map Piece.literal) := by simp
        rw [← hsame] at hright
        exact hright
      exact absurd hmem not_mem_value
  | cons part parts ih =>
    cases parts' with
    | nil =>
      have hmem : Piece.value part.2 ∈ last'.map Piece.literal := by
        have hleft : Piece.value part.2 ∈ ((part :: parts).flatMap
            (fun part ↦ part.1.map Piece.literal ++ [.value part.2]) ++
              last.map Piece.literal) := by simp
        rw [hsame] at hleft
        exact hleft
      exact absurd hmem not_mem_value
    | cons part' parts' =>
      simp only [List.flatMap_cons, List.append_assoc, List.singleton_append] at hsame
      obtain ⟨hliteral, hname, hrest⟩ := literal_value_inj hsame
      obtain ⟨hparts, hlast⟩ := Layout.mk.inj (ih parts' hrest)
      rw [Prod.ext hliteral hname, hparts, hlast]

/-- A text has exactly one layout. -/
theorem existsUnique_layout (text : List α) :
    ∃! layout : Layout α, layout.Proper marks ∧ layout.source marks = text := by
  obtain ⟨layout, hproper, hsource⟩ := exists_layout marks text
  refine ⟨layout, ⟨hproper, hsource⟩, ?_⟩
  rintro other ⟨hother, hsame⟩
  refine Layout.pieces_inj ?_
  rw [← scan_source hother, ← scan_source hproper, hsame, hsource]

omit [DecidableEq α] in
theorem fill_pieces (values : List α → List α) (layout : Layout α) :
    fill values layout.pieces = layout.filled values := by
  have hliteral : ∀ literal : List α, fill values (literal.map .literal) = literal := by
    intro literal
    simp [fill, List.flatMap_map]
  unfold fill at hliteral ⊢
  unfold Layout.pieces Layout.filled
  rw [List.flatMap_append, hliteral, List.flatMap_assoc]
  simp only [List.flatMap_append, hliteral, List.flatMap_singleton]

omit [DecidableEq α] in
theorem names_pieces (layout : Layout α) : Templates.names layout.pieces = layout.names := by
  have hliteral : ∀ literal : List α, Templates.names (literal.map .literal) = [] := by
    intro literal
    simp [Templates.names]
  unfold Templates.names at hliteral ⊢
  unfold Layout.pieces Layout.names
  rw [List.filterMap_append, hliteral, List.append_nil, List.filterMap_flatMap]
  simp only [List.filterMap_append, hliteral, List.nil_append]
  exact List.map_eq_flatMap.symm

end Uniqueness

end Oamb.Foundation.Templates
