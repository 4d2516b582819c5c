import Oamb.Foundation.TextPatterns
import Oamb.Foundation.Whitespace

/-!
# Fractions in a text

A fraction is two runs of digits with a slash between them, each as long as it can be. The pattern
of a fraction with short parts finds a fraction exactly when both parts are short, it stands at no
character of a word, and its first part is not the last one of a fraction that is found
(`found_iff`).
-/

set_option autoImplicit false

namespace Oamb.Foundation.TextFractions

open TextPatterns Whitespace

/-- Digits, and the characters of words. -/
structure CharacterClasses where
  isDigit : Char → Bool
  isWord : Char → Bool
  isWord_of_isDigit : ∀ char, isDigit char = true → isWord char = true
  slash : isWord '/' = false

/-- The pattern of a fraction whose parts have at most some digits. -/
def fractionPattern (classes : CharacterClasses) (most : ℕ) : Pattern :=
  .all [.boundary classes.isWord, .run classes.isDigit 1 (some most), .one (· = '/'),
    .run classes.isDigit 1 (some most), .boundary classes.isWord]

/-- A fraction of a text, with the text before it and behind it. -/
structure IsFraction (classes : CharacterClasses)
    (text before numerator denominator after : List Char) : Prop where
  text_eq : text = before ++ (numerator ++ '/' :: (denominator ++ after))
  numerator_ne_nil : numerator ≠ []
  denominator_ne_nil : denominator ≠ []
  numerator : ∀ char ∈ numerator, classes.isDigit char = true
  denominator : ∀ char ∈ denominator, classes.isDigit char = true
  starts : ∀ char ∈ before.getLast?, classes.isDigit char = false
  ends : ∀ char ∈ after.head?, classes.isDigit char = false

def fractionSize (numerator denominator : List Char) : ℕ :=
  numerator.length + 1 + denominator.length

def fractionText (numerator denominator : List Char) : List Char :=
  numerator ++ '/' :: denominator

/-- The pattern finds a fraction of a text. -/
def Found (classes : CharacterClasses) (most : ℕ) (text before numerator denominator : List Char) :
    Prop :=
  (before.length, fractionSize numerator denominator) ∈
    findSpans (fractionPattern classes most) text

variable {classes : CharacterClasses} {most : ℕ}
  {text before numerator denominator after : List Char}

theorem isDigit_slash (classes : CharacterClasses) : classes.isDigit '/' = false := by
  rw [← Bool.not_eq_true]
  intro hdigit
  exact absurd (classes.isWord_of_isDigit _ hdigit) (Bool.eq_false_iff.mp classes.slash)

/-! ### One match -/

/-- A run of digits is read to its end, when what follows cannot be read in front of a digit. -/
theorem mem_ends_digits {rest : Pattern} {previous : Option Char} {run tail : List Char}
    {behind : Place} (hrun : ∀ char ∈ run, classes.isDigit char = true)
    (htail : ∀ char ∈ tail.head?, classes.isDigit char = false)
    (hrest : ∀ (digit next : Char) (later : List Char), classes.isDigit digit = true →
      classes.isDigit next = true → ends rest ⟨some digit, next :: later⟩ = []) :
    behind ∈ ends (.seq (.run classes.isDigit 1 (some most)) rest) ⟨previous, run ++ tail⟩ ↔
      run ≠ [] ∧ run.length ≤ most ∧ behind ∈ ends rest ⟨run.getLast?, tail⟩ := by
  have hskip (size : ℕ) (hsize : size < run.length) :
      Place.skip ⟨previous, run ++ tail⟩ (size + 1) =
        ⟨some run[size], (run ++ tail).drop (size + 1)⟩ := by
    rw [Place.skip, List.getElem?_append_left hsize, List.getElem?_eq_getElem hsize]
  rw [mem_ends_seq]
  constructor
  · rintro ⟨middle, hmiddle, hbehind⟩
    obtain ⟨size, hleast, hlength, hmost, rfl⟩ := mem_ends_run.mp hmiddle
    rw [takeWhile_run hrun htail] at hlength
    obtain ⟨count, rfl⟩ := Nat.exists_eq_add_one_of_ne_zero (Nat.ne_of_gt hleast)
    rw [hskip count hlength] at hbehind
    have hdigit := hrun _ (List.getElem_mem hlength)
    rcases Nat.lt_or_ge (count + 1) run.length with hmore | hend
    · rw [List.drop_append_of_le_length hlength, List.drop_eq_getElem_cons hmore,
        List.cons_append, hrest _ _ _ hdigit (hrun _ (List.getElem_mem hmore))] at hbehind
      exact absurd hbehind List.not_mem_nil
    · have hall : run.length = count + 1 := by omega
      refine ⟨List.ne_nil_of_length_pos (by omega), hall ▸ hmost most rfl, ?_⟩
      rw [List.drop_left' hall] at hbehind
      rwa [List.getLast?_eq_getElem?, hall, Nat.add_sub_cancel, List.getElem?_eq_getElem hlength]
  · rintro ⟨hne, hmost, hbehind⟩
    have hpos := List.length_pos_iff.mpr hne
    refine ⟨_, mem_ends_run.mpr ⟨run.length, hpos, ?_, ?_, rfl⟩, ?_⟩
    · exact le_of_eq (by rw [takeWhile_run hrun htail])
    · rintro bound hbound
      cases hbound
      exact hmost
    · obtain ⟨count, hcount⟩ := Nat.exists_eq_add_one_of_ne_zero hpos.ne'
      rw [List.getLast?_eq_getElem?, hcount, Nat.add_sub_cancel,
        List.getElem?_eq_getElem (by omega)] at hbehind
      rw [hcount, hskip count (by omega), List.drop_left' hcount]
      exact hbehind

/-- A fraction is matched when it is short and stands at no character of a word. -/
theorem mem_ends_fraction {previous : Option Char} {behind : Place}
    (hfraction : IsFraction classes text before numerator denominator after) :
    behind ∈ ends (fractionPattern classes most)
        ⟨previous, numerator ++ '/' :: (denominator ++ after)⟩ ↔
      (previous.any classes.isWord = false ∧ numerator.length ≤ most ∧
        denominator.length ≤ most ∧ after.head?.any classes.isWord = false) ∧
          behind = ⟨denominator.getLast?, after⟩ := by
  have hword : (numerator ++ '/' :: (denominator ++ after)).head?.any classes.isWord = true := by
    cases hnumerator : numerator with
    | nil => exact absurd hnumerator hfraction.numerator_ne_nil
    | cons digit digits =>
      have hmem : digit ∈ numerator := hnumerator ▸ List.mem_cons_self
      exact classes.isWord_of_isDigit _ (hfraction.numerator digit hmem)
  have hslash (digit next : Char) (later : List Char) (hdigit : classes.isDigit digit = true)
      (hnext : classes.isDigit next = true) :
      ends (.all [.one (· = '/'), .run classes.isDigit 1 (some most), .boundary classes.isWord])
        ⟨some digit, next :: later⟩ = [] := by
    rw [List.eq_nil_iff_forall_not_mem]
    intro place hplace
    obtain ⟨middle, hmiddle, -⟩ := mem_ends_seq.mp hplace
    obtain ⟨char, rest, hrest, hchar, -⟩ := mem_ends_one.mp hmiddle
    cases hrest
    rw [of_decide_eq_true hchar, isDigit_slash] at hnext
    cases hnext
  have hbound (digit next : Char) (later : List Char) (hdigit : classes.isDigit digit = true)
      (hnext : classes.isDigit next = true) :
      ends (.all [.boundary classes.isWord]) ⟨some digit, next :: later⟩ = [] := by
    rw [List.eq_nil_iff_forall_not_mem]
    intro place hplace
    obtain ⟨middle, hmiddle, -⟩ := mem_ends_seq.mp hplace
    obtain ⟨hdiffer, -⟩ := mem_ends_boundary.mp hmiddle
    refine hdiffer ?_
    change classes.isWord digit = classes.isWord next
    rw [classes.isWord_of_isDigit _ hdigit, classes.isWord_of_isDigit _ hnext]
  have hlast : denominator.getLast?.any classes.isWord = true := by
    rw [List.getLast?_eq_some_getLast hfraction.denominator_ne_nil]
    exact classes.isWord_of_isDigit _ (hfraction.denominator _ (List.getLast_mem _))
  have hbehind (place : Place) (hrest : place.rest = after)
      (hplace : place.before = denominator.getLast?) :
      behind ∈ ends (.all [.boundary classes.isWord]) place ↔
        after.head?.any classes.isWord = false ∧ behind = ⟨denominator.getLast?, after⟩ := by
    have hsame : place = ⟨denominator.getLast?, after⟩ := by rw [← hrest, ← hplace]
    subst hsame
    constructor
    · intro hmem
      obtain ⟨middle, hmiddle, hempty⟩ := mem_ends_seq.mp hmem
      obtain ⟨hdiffer, rfl⟩ := mem_ends_boundary.mp hmiddle
      rw [hlast] at hdiffer
      exact ⟨Bool.eq_false_iff.mpr hdiffer.symm, List.mem_singleton.mp hempty⟩
    · rintro ⟨hfalse, rfl⟩
      refine mem_ends_seq.mpr ⟨_, mem_ends_boundary.mpr ⟨?_, rfl⟩, List.mem_singleton_self _⟩
      rw [hlast, hfalse]
      exact Bool.noConfusion
  have hslashed : behind ∈ ends (.all [.one (· = '/'), .run classes.isDigit 1 (some most),
      .boundary classes.isWord]) ⟨numerator.getLast?, '/' :: (denominator ++ after)⟩ ↔
        denominator.length ≤ most ∧ after.head?.any classes.isWord = false ∧
          behind = ⟨denominator.getLast?, after⟩ := by
    have hone : behind ∈ ends (.all [.one (· = '/'), .run classes.isDigit 1 (some most),
        .boundary classes.isWord]) ⟨numerator.getLast?, '/' :: (denominator ++ after)⟩ ↔
          behind ∈ ends (.seq (.run classes.isDigit 1 (some most))
            (.all [.boundary classes.isWord])) ⟨some '/', denominator ++ after⟩ := by
      rw [Pattern.all, mem_ends_seq]
      constructor
      · rintro ⟨middle, hmiddle, hmem⟩
        obtain ⟨char, rest, hrest, hchar, rfl⟩ := mem_ends_one.mp hmiddle
        cases hrest
        exact hmem
      · exact fun hmem ↦ ⟨_, mem_ends_one.mpr ⟨'/', _, rfl, decide_eq_true rfl, rfl⟩, hmem⟩
    rw [hone, mem_ends_digits hfraction.denominator hfraction.ends hbound,
      hbehind _ rfl rfl]
    exact and_iff_right hfraction.denominator_ne_nil
  have hstart : behind ∈ ends (fractionPattern classes most)
      ⟨previous, numerator ++ '/' :: (denominator ++ after)⟩ ↔
        previous.any classes.isWord = false ∧
          behind ∈ ends (.seq (.run classes.isDigit 1 (some most)) (.all [.one (· = '/'),
            .run classes.isDigit 1 (some most), .boundary classes.isWord]))
              ⟨previous, numerator ++ '/' :: (denominator ++ after)⟩ := by
    rw [fractionPattern, Pattern.all, mem_ends_seq]
    constructor
    · rintro ⟨middle, hmiddle, hmem⟩
      obtain ⟨hdiffer, rfl⟩ := mem_ends_boundary.mp hmiddle
      rw [hword] at hdiffer
      exact ⟨Bool.eq_false_iff.mpr hdiffer, hmem⟩
    · rintro ⟨hfalse, hmem⟩
      refine ⟨_, mem_ends_boundary.mpr ⟨?_, rfl⟩, hmem⟩
      rw [hword, hfalse]
      exact Bool.noConfusion
  have hhead : ∀ char ∈ ('/' :: (denominator ++ after)).head?, classes.isDigit char = false := by
    simp [isDigit_slash]
  rw [hstart, mem_ends_digits hfraction.numerator hhead hslash, hslashed,
    and_iff_right hfraction.numerator_ne_nil]
  simp only [and_assoc]

theorem sizeAt_fraction {previous : Option Char} {size : ℕ}
    (hfraction : IsFraction classes text before numerator denominator after) :
    sizeAt (fractionPattern classes most)
        ⟨previous, numerator ++ '/' :: (denominator ++ after)⟩ = some size ↔
      (previous.any classes.isWord = false ∧ numerator.length ≤ most ∧
        denominator.length ≤ most ∧ after.head?.any classes.isWord = false) ∧
          size = fractionSize numerator denominator := by
  have hsize : (numerator ++ '/' :: (denominator ++ after)).length - after.length =
      fractionSize numerator denominator := by
    rw [fractionSize, List.length_append, List.length_cons, List.length_append]
    omega
  rw [sizeAt, Option.map_eq_some_iff]
  constructor
  · rintro ⟨behind, hbehind, rfl⟩
    obtain ⟨hgood, rfl⟩ := (mem_ends_fraction hfraction).mp (List.mem_of_head? hbehind)
    exact ⟨hgood, hsize⟩
  · rintro ⟨hgood, rfl⟩
    have hmem := (mem_ends_fraction hfraction).mpr ⟨hgood, rfl⟩
    obtain ⟨behind, hbehind⟩ := Option.isSome_iff_exists.mp
      (List.isSome_head?.mpr (List.ne_nil_of_mem hmem))
    have hsame := ((mem_ends_fraction hfraction).mp (List.mem_of_head? hbehind)).2
    exact ⟨behind, hbehind, by rw [hsame]; exact hsize⟩

/-! ### All matches -/

theorem placeIn_append (before rest : List Char) :
    placeIn none (before ++ rest) before.length = ⟨before.getLast?, rest⟩ := by
  cases hlength : before.length with
  | zero =>
    rw [List.length_eq_zero_iff] at hlength
    subst hlength
    rfl
  | succ count =>
    rw [placeIn, Place.skip, List.drop_left' hlength, List.getElem?_append_left (by omega),
      List.getLast?_eq_getElem?, hlength, Nat.add_sub_cancel]

/-- What is read as a run. -/
theorem exists_run {test : Char → Bool} {bound : Option ℕ} {place behind : Place}
    (hbehind : behind ∈ ends (.run test 1 bound) place) :
    ∃ run, run ≠ [] ∧ (∀ char ∈ run, test char = true) ∧ place.rest = run ++ behind.rest ∧
      behind.before = run.getLast? := by
  obtain ⟨size, hleast, hlength, -, rfl⟩ := mem_ends_run.mp hbehind
  obtain ⟨count, rfl⟩ := Nat.exists_eq_add_one_of_ne_zero (Nat.ne_of_gt hleast)
  have htake : place.rest.take (count + 1) = (place.rest.takeWhile test).take (count + 1) := by
    have hparts : place.rest.takeWhile test ++ place.rest.dropWhile test = place.rest :=
      List.takeWhile_append_dropWhile
    calc place.rest.take (count + 1)
      _ = (place.rest.takeWhile test ++ place.rest.dropWhile test).take (count + 1) := by
        rw [hparts]
      _ = (place.rest.takeWhile test).take (count + 1) := List.take_append_of_le_length hlength
  have hsize : (place.rest.take (count + 1)).length = count + 1 := by
    rw [htake, List.length_take_of_le hlength]
  refine ⟨place.rest.take (count + 1), List.ne_nil_of_length_pos (by omega), fun char hchar ↦ ?_,
    (List.take_append_drop ..).symm, ?_⟩
  · rw [htake] at hchar
    exact List.mem_takeWhile_imp (List.mem_of_mem_take hchar)
  · rw [List.getLast?_eq_getElem?, hsize, Nat.add_sub_cancel, List.getElem?_take,
      if_pos (Nat.lt_succ_self _)]
    rfl

/-- What is read as a fraction. -/
theorem exists_parts {place behind : Place}
    (hbehind : behind ∈ ends (fractionPattern classes most) place) :
    ∃ numerator denominator, place.rest = numerator ++ '/' :: (denominator ++ behind.rest) ∧
      (numerator ≠ [] ∧ ∀ char ∈ numerator, classes.isDigit char = true) ∧
        (denominator ≠ [] ∧ ∀ char ∈ denominator, classes.isDigit char = true) ∧
          place.before.any classes.isWord = false ∧
            behind.rest.head?.any classes.isWord = false := by
  obtain ⟨first, hstart, hfirst⟩ := mem_ends_seq.mp hbehind
  obtain ⟨hdiffer, hplace⟩ := mem_ends_boundary.mp hstart
  rw [hplace] at hfirst
  obtain ⟨second, hrun, hsecond⟩ := mem_ends_seq.mp hfirst
  obtain ⟨numerator, hne, hdigits, hrest, -⟩ := exists_run hrun
  obtain ⟨third, hone, hthird⟩ := mem_ends_seq.mp hsecond
  obtain ⟨char, rest, hslash, hchar, rfl⟩ := mem_ends_one.mp hone
  rw [decide_eq_true_eq] at hchar
  subst hchar
  obtain ⟨fourth, hrun', hfourth⟩ := mem_ends_seq.mp hthird
  obtain ⟨denominator, hne', hdigits', hrest', hlast⟩ := exists_run hrun'
  obtain ⟨last, hend, hempty⟩ := mem_ends_seq.mp hfourth
  obtain ⟨hdiffer', hsame⟩ := mem_ends_boundary.mp hend
  obtain rfl : behind = fourth := (List.mem_singleton.mp hempty).trans hsame
  refine ⟨numerator, denominator, ?_, ⟨hne, hdigits⟩, ⟨hne', hdigits'⟩, ?_, ?_⟩
  · rw [hrest, hslash, ← hrest']
  · rw [hrest, List.head?_append_of_ne_nil _ hne, List.head?_eq_some_head hne] at hdiffer
    have hword := classes.isWord_of_isDigit _ (hdigits _ (List.head_mem hne))
    rw [Option.any_some, hword] at hdiffer
    exact Bool.eq_false_iff.mpr hdiffer
  · rw [hlast, List.getLast?_eq_some_getLast hne'] at hdiffer'
    have hword := classes.isWord_of_isDigit _ (hdigits' _ (List.getLast_mem hne'))
    rw [Option.any_some, hword] at hdiffer'
    exact Bool.eq_false_iff.mpr hdiffer'.symm

theorem isDigit_of_any {char : Option Char} (hchar : char.any classes.isWord = false) :
    ∀ digit ∈ char, classes.isDigit digit = false := by
  rintro digit hdigit
  rw [Option.mem_def.mp hdigit, Option.any_some] at hchar
  exact Bool.eq_false_iff.mpr fun htrue ↦
    Bool.eq_false_iff.mp hchar (classes.isWord_of_isDigit _ htrue)

/-- What is found is a fraction. -/
theorem exists_isFraction {position size : ℕ}
    (hfound : (position, size) ∈ findSpans (fractionPattern classes most) text) :
    ∃ before numerator denominator after,
      IsFraction classes text before numerator denominator after ∧ before.length = position ∧
        fractionSize numerator denominator = size := by
  obtain ⟨hposition, -, hsize, -⟩ := mem_findSpans_iff.mp hfound
  have hplace := placeIn_append (text.take position) (text.drop position)
  rw [List.take_append_drop, List.length_take_of_le hposition.le] at hplace
  rw [hplace, sizeAt, Option.map_eq_some_iff] at hsize
  obtain ⟨behind, hbehind, hsize⟩ := hsize
  obtain ⟨numerator, denominator, hrest, hnumerator, hdenominator, hstart, hend⟩ :=
    exists_parts (List.mem_of_head? hbehind)
  change text.drop position = _ at hrest
  change (text.drop position).length - _ = _ at hsize
  refine ⟨text.take position, numerator, denominator, behind.rest, ⟨?_, hnumerator.1,
    hdenominator.1, hnumerator.2, hdenominator.2, isDigit_of_any hstart, isDigit_of_any hend⟩,
    List.length_take_of_le hposition.le, ?_⟩
  · rw [← hrest, List.take_append_drop]
  · rw [← hsize, hrest, fractionSize, List.length_append, List.length_cons, List.length_append]
    omega

/-- Fractions overlap only in a part that both have. -/
theorem shared_of_overlap {before' numerator' denominator' after' : List Char}
    (hfraction : IsFraction classes text before numerator denominator after)
    (hearlier : IsFraction classes text before' numerator' denominator' after')
    (hbefore : before'.length < before.length)
    (hcover : before.length < before'.length + fractionSize numerator' denominator') :
    before = before' ++ (numerator' ++ ['/']) ∧ denominator' = numerator := by
  have hdigit (run rest : List Char) (hrun : run ≠ [])
      (hdigits : ∀ char ∈ run, classes.isDigit char = true) : before ≠ rest ++ run := by
    rintro rfl
    have hlast := hfraction.starts (run.getLast hrun) (by
      rw [List.getLast?_append_of_ne_nil _ hrun, List.getLast?_eq_some_getLast hrun]
      rfl)
    rw [hdigits _ (List.getLast_mem hrun)] at hlast
    cases hlast
  have htexts := hfraction.text_eq.symm.trans hearlier.text_eq
  rcases List.append_eq_append_iff.mp htexts with ⟨more, hmore, -⟩ | ⟨part, rfl, hpart⟩
  · rw [hmore, List.length_append] at hbefore
    omega
  rcases List.append_eq_append_iff.mp hpart with ⟨later, rfl, hlater⟩ | ⟨start, hstart, -⟩
  · rcases List.cons_eq_append_iff.mp hlater with ⟨rfl, -⟩ | ⟨tail, rfl, htail⟩
    · exact absurd (by rw [List.append_nil])
        (hdigit numerator' before' hearlier.numerator_ne_nil hearlier.numerator)
    · have hshort : tail.length < denominator'.length := by
        simp only [fractionSize, List.length_append, List.length_cons] at hcover
        omega
      have htail' : tail = [] := by
        by_contra hne
        rcases List.append_eq_append_iff.mp htail with ⟨more, rfl, -⟩ | ⟨more, rfl, -⟩
        · rw [List.length_append] at hshort
          omega
        · refine absurd ?_ (hdigit tail (before' ++ (numerator' ++ ['/'])) hne fun char hchar ↦
            hearlier.denominator char (List.mem_append_left _ hchar))
          simp
      subst htail'
      refine ⟨rfl, ?_⟩
      have hsame : denominator' ++ after' = numerator ++ '/' :: (denominator ++ after) := htail
      rw [← takeWhile_run hearlier.denominator hearlier.ends, hsame,
        takeWhile_run hfraction.numerator (by simp [isDigit_slash])]
  · have hne : part ≠ [] := by
      rintro rfl
      simp at hbefore
    exact absurd rfl (hdigit part before' hne fun char hchar ↦
      hearlier.numerator char (hstart ▸ List.mem_append_left _ hchar))

/-- A fraction is found when both of its parts are short, it stands at no character of a word, and
its first part is not the last one of a fraction that is found. -/
theorem found_iff (hfraction : IsFraction classes text before numerator denominator after) :
    Found classes most text before numerator denominator ↔
      (before.getLast?.any classes.isWord = false ∧ numerator.length ≤ most ∧
        denominator.length ≤ most ∧ after.head?.any classes.isWord = false) ∧
          ¬∃ earlier first, before = earlier ++ (first ++ ['/']) ∧
            Found classes most text earlier first numerator := by
  have hposition : before.length < text.length := by
    rw [hfraction.text_eq, List.length_append, List.length_append, List.length_cons]
    omega
  have hsize : 0 < fractionSize numerator denominator := by
    unfold fractionSize
    omega
  have hplace : placeIn none text before.length =
      ⟨before.getLast?, numerator ++ '/' :: (denominator ++ after)⟩ := by
    rw [hfraction.text_eq, placeIn_append]
  unfold Found
  rw [mem_findSpans_iff, hplace, sizeAt_fraction hfraction, and_iff_right hposition,
    and_iff_right hsize, and_iff_left rfl]
  refine and_congr_right fun _ ↦ ⟨?_, fun hnone span hspan hbefore ↦ ?_⟩
  · rintro hcovers ⟨earlier, first, hbefore, hfound⟩
    have hcover := hcovers _ hfound
    rw [hbefore, fractionSize, List.length_append, List.length_append, List.length_singleton]
      at hcover
    have hpos := List.length_pos_iff.mpr hfraction.numerator_ne_nil
    omega
  · by_contra hcover
    obtain ⟨position, size⟩ := span
    obtain ⟨before', numerator', denominator', after', hearlier, rfl, rfl⟩ :=
      exists_isFraction hspan
    obtain ⟨hshared, rfl⟩ := shared_of_overlap hfraction hearlier hbefore (not_le.mp hcover)
    exact hnone ⟨before', numerator', hshared, hspan⟩

end Oamb.Foundation.TextFractions
