import Oamb.Contracts.IngestionFailures

/-!
# Which failures settle an ingestion

An aggregate counts the chunks that failed, and lists at most five of them. Every such aggregate is
classified with its counts and indices, and what is classified is an aggregate, unless it says that
the embeddings failed (`hindsightExtractionFailure_exact`).
-/

set_option autoImplicit false

namespace Oamb.Contracts.FailureGuarantees

open Foundation Foundation.PointNumerals Foundation.SeparatedEntries IngestionFailures

/-! ### What a supplier writes -/

/-- A failure is a chunk with a text. -/
abbrev Failure := ℕ × List Char

def failureText (failure : Failure) : List Char :=
  "chunk ".toList ++ Nat.toDigits 10 failure.1 ++ ": ".toList ++ failure.2

/-- The text of an aggregate. -/
def aggregateText (failed total listed : List Char) : List Char :=
  "Fact extraction failed: ".toList ++ failed ++ "/".toList ++ total ++
    " chunks failed. First failures: ".toList ++ listed

/-- The detail of some failures. The first five of them are listed. -/
def aggregateDetail (total : ℕ) (failures : List Failure) : String :=
  String.ofList (aggregateText (Nat.toDigits 10 failures.length) (Nat.toDigits 10 total)
    (", ".toList.intercalate ((failures.take hindsightFailureSummaryLimit).map failureText)))

/-- The text of a failure is a line in which no other failure starts. -/
structure Allowed (text : List Char) : Prop where
  nonempty : text ≠ []
  line : '\n' ∉ text
  free : ∀ before rest index, before ≠ [] →
    text ≠ before ++ (", chunk ".toList ++ Nat.toDigits 10 index ++ ": ".toList ++ rest)

/-- Some of the chunks failed, each with an allowed text. -/
structure IsExtraction (total : ℕ) (failures : List Failure) : Prop where
  nonempty : failures ≠ []
  total_lt : total < 10 ^ intMaxStrDigits
  below : ∀ failure ∈ failures, failure.1 < total
  distinct : (failures.map Prod.fst).Nodup
  allowed : ∀ failure ∈ failures, Allowed failure.2

/-- The kind that all have, or else the general one. -/
def commonKind : List SettledFailureKind → SettledFailureKind
  | [] => .providerIngestionError
  | kind :: kinds => if ∀ other ∈ kinds, other = kind then kind else .providerIngestionError

/-- The kind of an aggregate is the one of the failures that it lists. -/
def aggregateKind (failures : List Failure) : SettledFailureKind :=
  commonKind ((failures.take hindsightFailureSummaryLimit).map fun failure ↦ memberKind failure.2)

/-! ### Numbers -/

theorem toDigits_number {digits : List Char} (hwhole : Whole digits) :
    Nat.toDigits 10 (number digits) = digits :=
  (whole_toDigits _).unique hwhole (number_toDigits _)

theorem int_eq_some {digits : List Char} {value : ℕ} (hwhole : Whole digits) :
    int digits = some value ↔ digits = Nat.toDigits 10 value ∧ value < 10 ^ intMaxStrDigits := by
  have hpos : 0 < intMaxStrDigits := by decide
  unfold int
  rw [Option.ite_none_right_eq_some, Option.some_inj]
  constructor
  · rintro ⟨hlength, rfl⟩
    rw [← toDigits_number hwhole, Nat.length_toDigits_le_iff (by decide) hpos] at hlength
    exact ⟨(toDigits_number hwhole).symm, hlength⟩
  · rintro ⟨rfl, hvalue⟩
    exact ⟨(Nat.length_toDigits_le_iff (by decide) hpos).mpr hvalue, number_toDigits value⟩

theorem readPositive_toDigits {value : ℕ} {rest : List Char} (hvalue : 0 < value)
    (hrest : Numerals.Ends rest) :
    readPositive (Nat.toDigits 10 value ++ rest) = some (Nat.toDigits 10 value, rest) := by
  rw [readPositive, Numerals.takeWhile_toDigits hrest, Numerals.dropWhile_toDigits hrest,
    if_pos ⟨Nat.toDigits_ne_nil, Numerals.head_toDigits_ne_zero hvalue⟩]

theorem eq_of_readPositive {text digits rest : List Char}
    (hread : readPositive text = some (digits, rest)) :
    text = digits ++ rest ∧ Whole digits ∧ 0 < number digits := by
  unfold readPositive at hread
  dsimp only at hread
  split at hread
  · next hdigits =>
    cases hread
    have hall : Digits (text.takeWhile Char.isDigit) := fun char ↦ List.mem_takeWhile_imp
    have hwhole : Whole (text.takeWhile Char.isDigit) := Or.inr ⟨hdigits.1, hdigits.2, hall⟩
    refine ⟨List.takeWhile_append_dropWhile.symm, hwhole, Nat.pos_of_ne_zero fun hzero ↦ ?_⟩
    rw [← toDigits_number hwhole, hzero] at hdigits
    exact hdigits.2 rfl
  · cases hread

/-! ### Entries and texts -/

/-- A failure as an entry of the list. -/
def entryOf (failure : Failure) : {digits : List Char // Whole digits} × List Char :=
  (⟨Nat.toDigits 10 failure.1, whole_toDigits failure.1⟩, failure.2)

theorem writeEntry_entryOf (failure : Failure) :
    hindsightFailureEntry.writeEntry (entryOf failure) = failureText failure := rfl

theorem writeEntries_entryOf (failures : List Failure) :
    hindsightFailureEntry.writeEntries (failures.map entryOf) =
      ", ".toList.intercalate (failures.map failureText) := by
  rw [Grammar.writeEntries, List.map_map]
  rfl

theorem separator_append (key : {digits : List Char // Whole digits}) (rest : List Char) :
    hindsightFailureEntry.separator ++ (hindsightFailureEntry.writeKey key ++ rest) =
      ", chunk ".toList ++ key.1 ++ ": ".toList ++ rest := by
  have hliteral : ", chunk ".toList = hindsightFailureEntry.separator ++ "chunk ".toList := by
    decide
  change _ ++ (writeChunk key ++ rest) = _
  unfold writeChunk
  generalize ", chunk ".toList = before at hliteral ⊢
  generalize "chunk ".toList = chunk at hliteral ⊢
  generalize hindsightFailureEntry.separator = separator at hliteral ⊢
  generalize ": ".toList = colon
  rw [hliteral]
  simp only [List.append_assoc]

theorem free_iff_allowed {text : List Char} (hline : '\n' ∉ text) :
    hindsightFailureEntry.Free text ↔ Allowed text := by
  constructor
  · rintro ⟨hne, hfree⟩
    refine ⟨hne, hline, ?_⟩
    rintro before rest index hbefore rfl
    refine absurd (hfree before _ hbefore rfl) (Bool.eq_false_iff.not.mpr (not_not_intro ?_))
    exact atSeparator_iff.mpr ⟨_, rest, (separator_append ⟨_, whole_toDigits index⟩ rest).symm⟩
  · rintro ⟨hne, -, hallowed⟩
    refine ⟨hne, fun before rest hbefore hsame ↦ Bool.eq_false_iff.mpr fun hat ↦ ?_⟩
    obtain ⟨key, behind, rfl⟩ := atSeparator_iff.mp hat
    refine hallowed before behind (number key.1) hbefore ?_
    rw [toDigits_number key.2, ← hsame, separator_append]

/-! ### Kinds -/

/-- The kind in common, with one more kind. -/
def combine (common : Option SettledFailureKind) (kind : SettledFailureKind) :
    Option SettledFailureKind :=
  some (if common = none ∨ common = some kind then kind else .providerIngestionError)

theorem commonKind_cons (kind : SettledFailureKind) (kinds : List SettledFailureKind) :
    commonKind (kind :: kinds) =
      if ∀ other ∈ kinds, other = kind then kind else .providerIngestionError := rfl

theorem foldl_combine (kind : SettledFailureKind) (kinds : List SettledFailureKind) :
    kinds.foldl combine (some kind) = some (commonKind (kind :: kinds)) := by
  induction kinds generalizing kind with
  | nil => rw [commonKind_cons, if_pos (List.forall_mem_nil _)]; rfl
  | cons other kinds ih =>
    rw [List.foldl_cons]
    by_cases hsame : other = kind
    · subst hsame
      rw [combine, if_pos (Or.inr rfl), ih, commonKind_cons, commonKind_cons]
      simp only [List.forall_mem_cons, true_and]
    · have hdiffer : ¬(some kind = none ∨ some kind = some other) := by
        rintro (hnone | hother)
        · cases hnone
        · exact hsame (Option.some_inj.mp hother).symm
      rw [combine, if_neg hdiffer, ih, commonKind_cons, commonKind_cons, ite_self,
        if_neg fun hall ↦ hsame (hall other List.mem_cons_self)]

/-- The fold over listed failures goes through when their indices are new, distinct and below the
total. -/
theorem foldlM_addFailure {total : ℕ}
    {failures : List (Found {digits : List Char // Whole digits} Char)}
    {before after : List ℕ × Option SettledFailureKind} :
    failures.foldlM (addFailure total) before = some after ↔
      ∃ indices : List ℕ,
        List.Forall₂ (fun entry index ↦ int entry.key.1 = some index) failures indices ∧
          (∀ index ∈ indices, index < total ∧ index ∉ before.1) ∧ indices.Nodup ∧
            after = (before.1 ++ indices,
              (failures.map fun entry ↦ memberKind entry.text).foldl combine before.2) := by
  induction failures generalizing before with
  | nil =>
    simp only [List.foldlM_nil, Option.pure_def, Option.some_inj, List.forall₂_nil_left_iff,
      exists_eq_left, List.append_nil, List.map_nil, List.foldl_nil, List.nodup_nil,
      List.not_mem_nil, false_imp_iff, forall_const, true_and]
    exact eq_comm
  | cons entry failures ih =>
    rw [List.foldlM_cons, Option.bind_eq_bind, Option.bind_eq_some_iff]
    simp only [ih]
    unfold addFailure
    simp only [Option.bind_eq_bind, Option.bind_eq_some_iff, Option.ite_none_left_eq_some,
      Option.pure_def, Option.some_inj, not_or, Nat.not_le]
    constructor
    · rintro ⟨-, ⟨index, hindex, ⟨hbelow, hnew⟩, rfl⟩, indices, hrelated, hnews, hnodup, rfl⟩
      refine ⟨index :: indices, .cons hindex hrelated, ?_, ?_, ?_⟩
      · refine List.forall_mem_cons.mpr ⟨⟨hbelow, hnew⟩, fun other hother ↦ ?_⟩
        exact ⟨(hnews other hother).1, fun hmem ↦
          (hnews other hother).2 (List.mem_append_left _ hmem)⟩
      · refine List.nodup_cons.mpr ⟨fun hmem ↦ ?_, hnodup⟩
        exact (hnews index hmem).2 (List.mem_append_right _ List.mem_cons_self)
      · rw [List.map_cons, List.foldl_cons, combine, List.append_assoc, List.singleton_append]
    · rintro ⟨indices, hrelated, hnews, hnodup, rfl⟩
      cases hrelated with
      | @cons _ index _ indices hindex hrelated =>
        obtain ⟨hfirst, hnews⟩ := List.forall_mem_cons.mp hnews
        obtain ⟨hother, hnodup⟩ := List.nodup_cons.mp hnodup
        refine ⟨_, ⟨index, hindex, hfirst, rfl⟩, indices, hrelated, fun other hmem ↦ ?_, hnodup, ?_⟩
        · rw [List.mem_append, List.mem_singleton, not_or]
          refine ⟨(hnews other hmem).1, (hnews other hmem).2, ?_⟩
          rintro rfl
          exact hother hmem
        · rw [List.map_cons, List.foldl_cons, combine, List.append_assoc, List.singleton_append]

theorem listedFailure_eq_some {total : ℕ}
    {failures : List (Found {digits : List Char // Whole digits} Char)} {kind : SettledFailureKind}
    (hne : failures ≠ []) :
    listedFailure total failures = some kind ↔
      ∃ indices : List ℕ,
        List.Forall₂ (fun entry index ↦ int entry.key.1 = some index) failures indices ∧
          (∀ index ∈ indices, index < total) ∧ indices.Nodup ∧
            kind = commonKind (failures.map fun entry ↦ memberKind entry.text) := by
  obtain ⟨first, others, rfl⟩ := List.exists_cons_of_ne_nil hne
  have hfold : (((first :: others).map fun entry ↦ memberKind entry.text).foldl combine none) =
      some (commonKind ((first :: others).map fun entry ↦ memberKind entry.text)) := by
    rw [List.map_cons, List.foldl_cons, combine, if_pos (Or.inl rfl), foldl_combine]
  unfold listedFailure
  rw [Option.bind_eq_some_iff]
  simp only [foldlM_addFailure, List.not_mem_nil, not_false_eq_true, and_true, hfold]
  constructor
  · rintro ⟨-, ⟨indices, hrelated, hbelow, hnodup, rfl⟩, hkind⟩
    exact ⟨indices, hrelated, hbelow, hnodup, (Option.some_inj.mp hkind).symm⟩
  · rintro ⟨indices, hrelated, hbelow, hnodup, rfl⟩
    exact ⟨_, ⟨indices, hrelated, hbelow, hnodup, rfl⟩, rfl⟩

/-! ### Aggregates -/

theorem ends_literal {char : Char} {rest : List Char} (hchar : char.isDigit = false) :
    Numerals.Ends (char :: rest) := by
  rintro first ⟨⟩
  exact hchar

theorem hindsightAggregate_write {failed total : ℕ} {listed : List Char} (hfailed : 0 < failed)
    (htotal : 0 < total) (hline : isLine listed = true) :
    hindsightAggregate (aggregateText (Nat.toDigits 10 failed) (Nat.toDigits 10 total) listed) =
      some (Nat.toDigits 10 failed, Nat.toDigits 10 total, listed) := by
  unfold hindsightAggregate aggregateText
  simp only [Option.bind_eq_bind, Option.bind_eq_some_iff, dropPrefix_eq_some, List.append_assoc,
    List.append_cancel_left_eq]
  refine ⟨_, rfl, _, readPositive_toDigits hfailed (ends_literal rfl), _, rfl, _,
    readPositive_toDigits htotal (ends_literal rfl), _, rfl, ?_⟩
  rw [if_pos hline]
  rfl

theorem eq_of_hindsightAggregate {detail failed total listed : List Char}
    (hread : hindsightAggregate detail = some (failed, total, listed)) :
    detail = aggregateText failed total listed ∧ (Whole failed ∧ 0 < number failed) ∧
      (Whole total ∧ 0 < number total) ∧ isLine listed = true := by
  unfold hindsightAggregate at hread
  simp only [Option.bind_eq_bind, Option.bind_eq_some_iff, dropPrefix_eq_some] at hread
  obtain ⟨_, hstart, ⟨first, _⟩, hfirst, _, hslash, ⟨second, _⟩, hsecond, rest, hlisted, hread⟩ :=
    hread
  rw [Option.ite_none_right_eq_some, Option.pure_def, Option.some_inj, Prod.mk.injEq,
    Prod.mk.injEq] at hread
  obtain ⟨hline, rfl, rfl, rfl⟩ := hread
  obtain ⟨hfailedText, hfailed⟩ := eq_of_readPositive hfirst
  obtain ⟨htotalText, htotal⟩ := eq_of_readPositive hsecond
  refine ⟨?_, hfailed, htotal, hline⟩
  unfold aggregateText
  dsimp only at hslash hlisted ⊢
  generalize "Fact extraction failed: ".toList = before at hstart ⊢
  generalize " chunks failed. First failures: ".toList = behind at hlisted ⊢
  rw [hstart, hfailedText, hslash, htotalText, hlisted]
  simp only [List.append_assoc]

theorem failureText_line {failure : Failure} (hline : '\n' ∉ failure.2) :
    '\n' ∉ failureText failure := by
  unfold failureText
  rw [List.mem_append, List.mem_append, List.mem_append, not_or, not_or, not_or]
  refine ⟨⟨⟨by decide, fun hmem ↦ ?_⟩, by decide⟩, hline⟩
  exact absurd (digits_toDigits failure.1 _ hmem) (by decide)

/-- The list of some failures is a line. -/
theorem isLine_intercalate {failures : List Failure} (hne : failures ≠ [])
    (hlines : ∀ failure ∈ failures, '\n' ∉ failure.2) :
    isLine (", ".toList.intercalate (failures.map failureText)) = true := by
  obtain ⟨first, others, rfl⟩ := List.exists_cons_of_ne_nil hne
  obtain ⟨hfirst, hothers⟩ := List.forall_mem_cons.mp hlines
  rw [← writeEntries_entryOf, List.map_cons, writeEntries_cons, List.flatMap_map]
  simp only [writeEntry_entryOf]
  refine decide_eq_true ⟨fun hnil ↦ ?_, fun hmem ↦ ?_⟩
  · exact writeEntry_ne_nil hindsightFailureEntry (entryOf first) (List.append_eq_nil_iff.mp hnil).1
  · rcases List.mem_append.mp hmem with hmem | hmem
    · exact failureText_line hfirst hmem
    · obtain ⟨failure, hfailure, hmem⟩ := List.mem_flatMap.mp hmem
      rcases List.mem_append.mp hmem with hmem | hmem
      · exact absurd hmem (by decide)
      · exact failureText_line (hothers failure hfailure) hmem

theorem aggregateDetail_eq (total : ℕ) (failures : List Failure) :
    (aggregateDetail total failures).toList =
      aggregateText (Nat.toDigits 10 failures.length) (Nat.toDigits 10 total)
        (hindsightFailureEntry.writeEntries
          ((failures.take hindsightFailureSummaryLimit).map entryOf)) :=
  String.toList_ofList.trans (congrArg _ (writeEntries_entryOf _).symm)

namespace IsExtraction

variable {total : ℕ} {failures : List Failure}

theorem take_ne_nil (hextraction : IsExtraction total failures) :
    failures.take hindsightFailureSummaryLimit ≠ [] := by
  intro hnil
  rcases List.take_eq_nil_iff.mp hnil with hzero | hnil
  · cases hzero
  · exact hextraction.nonempty hnil

theorem total_pos (hextraction : IsExtraction total failures) : 0 < total := by
  obtain ⟨first, others, rfl⟩ := List.exists_cons_of_ne_nil hextraction.nonempty
  exact (Nat.zero_le _).trans_lt (hextraction.below first List.mem_cons_self)

/-- No more chunks fail than there are. -/
theorem length_le (hextraction : IsExtraction total failures) : failures.length ≤ total := by
  have hsubset : failures.map Prod.fst ⊆ List.range total := by
    intro index hindex
    obtain ⟨failure, hfailure, rfl⟩ := List.mem_map.mp hindex
    exact List.mem_range.mpr (hextraction.below failure hfailure)
  have hle := (List.subperm_of_subset hextraction.distinct hsubset).length_le
  rwa [List.length_map, List.length_range] at hle

/-- An aggregate is read with its counts and the failures that it lists. -/
theorem hindsightAggregate_detail (hextraction : IsExtraction total failures) :
    hindsightAggregate (aggregateDetail total failures).toList =
      some (Nat.toDigits 10 failures.length, Nat.toDigits 10 total,
        hindsightFailureEntry.writeEntries
          ((failures.take hindsightFailureSummaryLimit).map entryOf)) := by
  rw [aggregateDetail_eq]
  refine hindsightAggregate_write (List.length_pos_of_ne_nil hextraction.nonempty)
    hextraction.total_pos ?_
  rw [writeEntries_entryOf]
  exact isLine_intercalate hextraction.take_ne_nil fun failure hfailure ↦
    (hextraction.allowed failure (List.mem_of_mem_take hfailure)).line

theorem findEntries_listed (hextraction : IsExtraction total failures) {fuel : ℕ}
    (hfuel : (hindsightFailureEntry.writeEntries
      ((failures.take hindsightFailureSummaryLimit).map entryOf)).length ≤ fuel) :
    hindsightFailureEntry.findEntries fuel [] (hindsightFailureEntry.writeEntries
        ((failures.take hindsightFailureSummaryLimit).map entryOf)) =
      (found hindsightFailureEntry.separator []
        ((failures.take hindsightFailureSummaryLimit).map entryOf), []) := by
  refine findEntries_write (fun hnil ↦ ?_) (fun entry hentry ↦ ?_) hfuel
  · exact hextraction.take_ne_nil (List.map_eq_nil_iff.mp hnil)
  · obtain ⟨failure, hfailure, rfl⟩ := List.mem_map.mp hentry
    have hallowed := hextraction.allowed failure (List.mem_of_mem_take hfailure)
    exact (free_iff_allowed hallowed.line).mpr hallowed

theorem listedFailure_found (hextraction : IsExtraction total failures) :
    listedFailure total (found hindsightFailureEntry.separator []
        ((failures.take hindsightFailureSummaryLimit).map entryOf)) =
      some (aggregateKind failures) := by
  have hentries := map_entry_found hindsightFailureEntry.separator []
    ((failures.take hindsightFailureSummaryLimit).map entryOf)
  generalize found hindsightFailureEntry.separator []
    ((failures.take hindsightFailureSummaryLimit).map entryOf) = entries at hentries ⊢
  have hne : entries ≠ [] := by
    rintro rfl
    exact hextraction.take_ne_nil (List.map_eq_nil_iff.mp hentries.symm)
  refine (listedFailure_eq_some hne).mpr
    ⟨(failures.take hindsightFailureSummaryLimit).map Prod.fst, ?_, ?_, ?_, ?_⟩
  · have hrelated : List.Forall₂ (fun entry index ↦ int entry.1.1 = some index)
        (entries.map Found.entry) ((failures.take hindsightFailureSummaryLimit).map Prod.fst) := by
      rw [hentries, List.forall₂_map_left_iff, List.forall₂_map_right_iff, List.forall₂_same]
      intro failure hfailure
      have hbelow := hextraction.below failure (List.mem_of_mem_take hfailure)
      exact (int_eq_some (whole_toDigits _)).mpr ⟨rfl, hbelow.trans hextraction.total_lt⟩
    exact List.forall₂_map_left_iff.mp hrelated
  · intro index hindex
    obtain ⟨failure, hfailure, rfl⟩ := List.mem_map.mp hindex
    exact hextraction.below failure (List.mem_of_mem_take hfailure)
  · rw [List.map_take]
    exact hextraction.distinct.sublist (List.take_sublist _ _)
  · have htexts : (entries.map fun entry ↦ memberKind entry.text) =
        (entries.map Found.entry).map fun entry ↦ memberKind entry.2 := by
      rw [List.map_map]
      rfl
    rw [htexts, hentries, List.map_map]
    rfl

/-- Every aggregate is classified with the kind of the failures that it lists. -/
theorem aggregateFailure_detail (hextraction : IsExtraction total failures) :
    aggregateFailure (aggregateDetail total failures).toList = some (aggregateKind failures) := by
  unfold aggregateFailure
  rw [hextraction.hindsightAggregate_detail]
  have hfailed : int (Nat.toDigits 10 failures.length) = some failures.length :=
    (int_eq_some (whole_toDigits _)).mpr ⟨rfl, hextraction.length_le.trans_lt hextraction.total_lt⟩
  have htotal : int (Nat.toDigits 10 total) = some total :=
    (int_eq_some (whole_toDigits _)).mpr ⟨rfl, hextraction.total_lt⟩
  simp only [Option.bind_eq_bind, Option.bind_some, hfailed, htotal,
    hextraction.findEntries_listed le_rfl]
  rw [if_pos, hextraction.listedFailure_found]
  have hentries := map_entry_found hindsightFailureEntry.separator []
    ((failures.take hindsightFailureSummaryLimit).map entryOf)
  refine ⟨hextraction.length_le, fun entry hentry ↦ gap_of_mem_found hentry, ?_, trivial, ?_⟩
  · intro hnil
    rw [hnil] at hentries
    exact hextraction.take_ne_nil (List.map_eq_nil_iff.mp hentries.symm)
  · have hlength := congrArg List.length hentries
    rw [List.length_map, List.length_map, List.length_take] at hlength
    rw [hlength, Nat.min_comm]

end IsExtraction

/-! ### What is classified is an aggregate -/

/-- Distinct indices below a total go on up to any count that the total has room for. -/
theorem exists_more_indices {total count : ℕ} (indices : List ℕ) (hle : count ≤ total) :
    ∃ others : List ℕ, others.length = count - indices.length ∧ others.Nodup ∧
      ∀ index ∈ others, index < total ∧ index ∉ indices := by
  have hsubset : List.range total ⊆
      indices ++ (List.range total).filter fun index ↦ index ∉ indices := by
    intro index hindex
    rw [List.mem_append, List.mem_filter, decide_eq_true_eq]
    by_cases hmem : index ∈ indices
    · exact Or.inl hmem
    · exact Or.inr ⟨hindex, hmem⟩
  have hlength := (List.subperm_of_subset List.nodup_range hsubset).length_le
  rw [List.length_range, List.length_append] at hlength
  refine ⟨((List.range total).filter fun index ↦ index ∉ indices).take (count - indices.length),
    ?_, ?_, fun index hindex ↦ ?_⟩
  · rw [List.length_take]
    omega
  · exact (List.nodup_range.filter _).sublist (List.take_sublist _ _)
  · have hindex := List.mem_filter.mp (List.mem_of_mem_take hindex)
    exact ⟨List.mem_range.mp hindex.1, of_decide_eq_true hindex.2⟩

theorem allowed_singleton : Allowed ['x'] where
  nonempty := List.cons_ne_nil _ _
  line := by decide
  free before rest index hbefore hsame := by
    have hlength := congrArg List.length hsame
    have hpos := List.length_pos_of_ne_nil hbefore
    rw [List.length_append, List.length_append, List.length_append, List.length_append] at hlength
    have hliteral : (", chunk ".toList).length = 8 := by decide
    rw [hliteral, List.length_singleton] at hlength
    omega

/-- The failure of an entry. -/
def failureOf (entry : Found {digits : List Char // Whole digits} Char) : Failure :=
  (number entry.key.1, entry.text)

theorem entryOf_failureOf (entry : Found {digits : List Char // Whole digits} Char) :
    entryOf (failureOf entry) = entry.entry :=
  Prod.ext (Subtype.ext (toDigits_number entry.key.2)) rfl

theorem eq_number_of_int {digits : List Char} {value : ℕ} (hint : int digits = some value) :
    number digits = value := by
  unfold int at hint
  rw [Option.ite_none_right_eq_some, Option.some_inj] at hint
  exact hint.2

/-- What is classified as an aggregate lists the first failures of one. -/
theorem exists_extraction {total failed : ℕ} {listed : List Char}
    {entries : List (Found {digits : List Char // Whole digits} Char)} {kind : SettledFailureKind}
    (hline : isLine listed = true) (htotal : total < 10 ^ intMaxStrDigits) (hle : failed ≤ total)
    (hentries : listed = hindsightFailureEntry.writeEntries (entries.map Found.entry))
    (hfree : ∀ entry ∈ entries, hindsightFailureEntry.Free entry.text) (hne : entries ≠ [])
    (hlength : entries.length = min failed hindsightFailureSummaryLimit)
    (hkind : listedFailure total entries = some kind) :
    ∃ failures, IsExtraction total failures ∧ failures.length = failed ∧
      listed = hindsightFailureEntry.writeEntries
        ((failures.take hindsightFailureSummaryLimit).map entryOf) ∧
      kind = aggregateKind failures := by
  obtain ⟨indices, hrelated, hbelow, hnodup, hkind⟩ := (listedFailure_eq_some hne).mp hkind
  have hindices : (entries.map failureOf).map Prod.fst = indices := by
    rw [List.map_map, ← List.forall₂_eq_eq_eq, List.forall₂_map_left_iff]
    exact hrelated.imp fun entry index hint ↦ eq_number_of_int hint
  obtain ⟨others, hothers, hdistinct, hnew⟩ := exists_more_indices indices hle
  have hcount : indices.length = entries.length := hrelated.length_eq.symm
  have htake : (entries.map failureOf ++ others.map fun index ↦ (index, ['x'])).take
      hindsightFailureSummaryLimit = entries.map failureOf := by
    by_cases hmore : hindsightFailureSummaryLimit ≤ failed
    · rw [Nat.min_eq_right hmore] at hlength
      exact List.take_left' (by rw [List.length_map, hlength])
    · have hnil : others = [] := by
        refine List.eq_nil_of_length_eq_zero ?_
        omega
      rw [hnil, List.map_nil, List.append_nil]
      refine List.take_of_length_le ?_
      rw [List.length_map, hlength]
      exact Nat.min_le_right _ _
  have htext : ∀ entry ∈ entries, '\n' ∉ entry.text := by
    intro entry hentry hmem
    refine (of_decide_eq_true hline).2 ?_
    rw [hentries]
    exact mem_writeEntries (List.mem_map_of_mem hentry) (List.mem_append_right _ hmem)
  refine ⟨entries.map failureOf ++ others.map fun index ↦ (index, ['x']), ?_, ?_, ?_, ?_⟩
  · refine ⟨fun hnil ↦ ?_, htotal, ?_, ?_, ?_⟩
    · exact hne (List.map_eq_nil_iff.mp (List.append_eq_nil_iff.mp hnil).1)
    · intro failure hfailure
      rcases List.mem_append.mp hfailure with hfailure | hfailure
      · exact hbelow _ (hindices ▸ List.mem_map_of_mem hfailure)
      · obtain ⟨index, hindex, rfl⟩ := List.mem_map.mp hfailure
        exact (hnew index hindex).1
    · rw [List.map_append, hindices, List.map_map, Function.comp_def, List.map_id']
      exact hnodup.append hdistinct fun index hindex hother ↦ (hnew index hother).2 hindex
    · intro failure hfailure
      rcases List.mem_append.mp hfailure with hfailure | hfailure
      · obtain ⟨entry, hentry, rfl⟩ := List.mem_map.mp hfailure
        exact (free_iff_allowed (htext entry hentry)).mp (hfree entry hentry)
      · obtain ⟨index, -, rfl⟩ := List.mem_map.mp hfailure
        exact allowed_singleton
  · rw [List.length_append, List.length_map, List.length_map, hothers, hcount]
    omega
  · rw [htake, List.map_map, hentries]
    exact congrArg _ (List.map_congr_left fun entry _ ↦ (entryOf_failureOf entry).symm)
  · rw [aggregateKind, htake, List.map_map, hkind]
    rfl

theorem exists_of_aggregateFailure {detail : List Char} {kind : SettledFailureKind}
    (hkind : aggregateFailure detail = some kind)
    (hstart : ∀ failed total listed, hindsightAggregate detail = some (failed, total, listed) →
      ¬hindsightFailureEntry.separator <+: listed) :
    ∃ total failures, IsExtraction total failures ∧
      detail = (aggregateDetail total failures).toList ∧ kind = aggregateKind failures := by
  unfold aggregateFailure at hkind
  simp only [Option.bind_eq_bind, Option.bind_eq_some_iff, Option.ite_none_right_eq_some] at hkind
  obtain ⟨⟨failedDigits, totalDigits, listed⟩, hread, failed, hfailed, total, htotal, hchecks,
    hkind⟩ := hkind
  obtain ⟨hle, hgaps, hne, hlast, hlength⟩ := hchecks
  obtain ⟨hdetail, ⟨hfailedWhole, -⟩, ⟨htotalWhole, -⟩, hline⟩ := eq_of_hindsightAggregate hread
  obtain ⟨rfl, -⟩ := (int_eq_some hfailedWhole).mp hfailed
  obtain ⟨rfl, hbound⟩ := (int_eq_some htotalWhole).mp htotal
  obtain ⟨hentries, hfree⟩ := eq_of_findEntries (Prod.ext rfl hlast) hne hgaps
    (hstart _ _ _ hread)
  obtain ⟨failures, hextraction, rfl, hlisted, hkind⟩ :=
    exists_extraction hline hbound hle hentries hfree hne hlength hkind
  refine ⟨total, failures, hextraction, ?_, hkind⟩
  rw [aggregateDetail_eq, ← hlisted]
  exact hdetail

/-! ### Which details are classified -/

/-- A detail says that the embeddings failed. -/
inductive EmbeddingFailure : String → SettledFailureKind → Prop
  | connection : EmbeddingFailure hindsightEmbeddingConnectionDetail .supplierConnection
  | timeout : EmbeddingFailure hindsightEmbeddingTimeoutDetail .supplierConnection
  | http {detail : String} {status text : List Char} (hstatus : isFailureStatus status = true)
    (hline : isLine text = true)
    (hdetail : detail.toList = "Failed to generate batch embeddings: Error code: ".toList ++
      (status ++ (" - ".toList ++ text))) :
    EmbeddingFailure detail
      (if status = ['4', '2', '9'] then .supplierRateLimit else .supplierConnection)

theorem eq_of_hindsightEmbeddingHttpFailure {detail status : List Char}
    (hread : hindsightEmbeddingHttpFailure detail = some status) :
    isFailureStatus status = true ∧ ∃ text, isLine text = true ∧
      detail = "Failed to generate batch embeddings: Error code: ".toList ++
        (status ++ (" - ".toList ++ text)) := by
  unfold hindsightEmbeddingHttpFailure at hread
  simp only [Option.bind_eq_bind, Option.bind_eq_some_iff, dropPrefix_eq_some,
    Option.ite_none_right_eq_some, Option.pure_def, Option.some_inj] at hread
  obtain ⟨rest, hdetail, text, hrest, ⟨hstatus, hline⟩, rfl⟩ := hread
  refine ⟨hstatus, text, hline, ?_⟩
  generalize "Failed to generate batch embeddings: Error code: ".toList = before at hdetail ⊢
  rw [hdetail, ← hrest, List.take_append_drop]

/-- An aggregate does not say that the embeddings failed. -/
theorem take_aggregateDetail (total : ℕ) (failures : List Failure) :
    (aggregateDetail total failures).toList.take 3 = "Fac".toList := by
  rw [aggregateDetail_eq]
  rfl

theorem hindsightDetailFailure_detail (total : ℕ) (failures : List Failure) :
    hindsightDetailFailure (aggregateDetail total failures) =
      aggregateFailure (aggregateDetail total failures).toList := by
  have htake := take_aggregateDetail total failures
  have htexts : ¬(aggregateDetail total failures = hindsightEmbeddingConnectionDetail ∨
      aggregateDetail total failures = hindsightEmbeddingTimeoutDetail) := by
    rintro (hsame | hsame)
    · rw [hsame] at htake
      exact absurd htake (by decide)
    · rw [hsame] at htake
      exact absurd htake (by decide)
  have hhttp : hindsightEmbeddingHttpFailure (aggregateDetail total failures).toList = none := by
    refine Option.eq_none_iff_forall_not_mem.mpr fun status hstatus ↦ ?_
    obtain ⟨-, text, -, hsame⟩ := eq_of_hindsightEmbeddingHttpFailure hstatus
    rw [hsame] at htake
    have hother : "Fai".toList = "Fac".toList := htake
    exact absurd hother (by decide)
  rw [hindsightDetailFailure, if_neg htexts, hhttp]

theorem hindsightExtractionFailure_singleton (detail : String) :
    hindsightExtractionFailure [("detail", .string detail)] = hindsightDetailFailure detail := by
  have hlookup : Json.lookup [("detail", .string detail)] "detail" = some (.string detail) := by
    rfl
  rw [hindsightExtractionFailure, if_pos (by simp), hlookup]

/-- The list of an aggregate starts with a separator. -/
def ListsSeparatorFirst (detail : String) : Prop :=
  ∃ failed total listed, hindsightAggregate detail.toList = some (failed, total, listed) ∧
    [',', ' '] <+: listed

theorem hindsightDetailFailure_cases {detail : String} {kind : SettledFailureKind}
    (hkind : hindsightDetailFailure detail = some kind) (hstart : ¬ListsSeparatorFirst detail) :
    EmbeddingFailure detail kind ∨ ∃ total failures, IsExtraction total failures ∧
      detail = aggregateDetail total failures ∧ kind = aggregateKind failures := by
  unfold hindsightDetailFailure at hkind
  split at hkind
  · next htexts =>
    cases hkind
    rcases htexts with rfl | rfl
    · exact Or.inl .connection
    · exact Or.inl .timeout
  · split at hkind
    · next status hstatus =>
      obtain ⟨hfailure, text, hline, hdetail⟩ := eq_of_hindsightEmbeddingHttpFailure hstatus
      rw [← Option.some_inj.mp hkind]
      exact Or.inl (.http hfailure hline hdetail)
    · obtain ⟨total, failures, hextraction, hdetail, hkind⟩ := exists_of_aggregateFailure hkind
        fun failed total listed hread hseparator ↦
          hstart ⟨failed, total, listed, hread, hseparator⟩
      exact Or.inr ⟨total, failures, hextraction, String.toList_inj.mp hdetail, hkind⟩

/-- Every aggregate settles an ingestion, and is read with its counts and the failures that it
lists. A document that settles one has a detail alone, which says that the embeddings failed or is
an aggregate. -/
theorem hindsightExtractionFailure_exact :
    (∀ total failures, IsExtraction total failures →
      hindsightExtractionFailure [("detail", .string (aggregateDetail total failures))] =
          some (aggregateKind failures) ∧
        ∃ listed, hindsightAggregate (aggregateDetail total failures).toList =
            some (Nat.toDigits 10 failures.length, Nat.toDigits 10 total, listed) ∧
          (hindsightFailureEntry.findEntries listed.length [] listed).1.map failureOf =
            failures.take hindsightFailureSummaryLimit) ∧
      ∀ value kind, hindsightExtractionFailure value = some kind →
        (∀ member ∈ value, member.1 = "detail") ∧
          ∃ detail, Json.lookup value "detail" = some (.string detail) ∧
            (¬ListsSeparatorFirst detail → EmbeddingFailure detail kind ∨
              ∃ total failures, IsExtraction total failures ∧
                detail = aggregateDetail total failures ∧ kind = aggregateKind failures) := by
  constructor
  · intro total failures hextraction
    refine ⟨?_, _, hextraction.hindsightAggregate_detail, ?_⟩
    · rw [hindsightExtractionFailure_singleton, hindsightDetailFailure_detail,
        hextraction.aggregateFailure_detail]
    · have hentries := map_entry_found hindsightFailureEntry.separator []
        ((failures.take hindsightFailureSummaryLimit).map entryOf)
      rw [hextraction.findEntries_listed le_rfl]
      have hmap : (found hindsightFailureEntry.separator []
          ((failures.take hindsightFailureSummaryLimit).map entryOf)).map failureOf =
          ((found hindsightFailureEntry.separator []
            ((failures.take hindsightFailureSummaryLimit).map entryOf)).map Found.entry).map
              fun entry ↦ (number entry.1.1, entry.2) := by
        rw [List.map_map]
        rfl
      rw [hmap, hentries, List.map_map]
      refine (List.map_congr_left fun failure _ ↦ ?_).trans (List.map_id _)
      exact Prod.ext (number_toDigits failure.1) rfl
  · intro value kind hkind
    unfold hindsightExtractionFailure at hkind
    split at hkind
    · next hnames =>
      split at hkind
      · next detail hdetail =>
        exact ⟨hnames, detail, hdetail, hindsightDetailFailure_cases hkind⟩
      · cases hkind
    · cases hkind

/-- That the embeddings failed settles an ingestion, and is no aggregate. -/
theorem classifies_embedding_failure :
    ¬ ∀ value kind, hindsightExtractionFailure value = some kind →
      ∃ total failures, IsExtraction total failures ∧
        Json.lookup value "detail" = some (.string (aggregateDetail total failures)) := by
  intro hall
  obtain ⟨total, failures, -, hdetail⟩ := hall
    [("detail", .string hindsightEmbeddingConnectionDetail)] .supplierConnection (by
      rw [hindsightExtractionFailure_singleton, hindsightDetailFailure, if_pos (Or.inl rfl)])
  have hsame : Json.lookup [("detail", .string hindsightEmbeddingConnectionDetail)] "detail" =
      some (.string hindsightEmbeddingConnectionDetail) := rfl
  rw [hsame, Option.some_inj, Json.string.injEq] at hdetail
  have htake := take_aggregateDetail total failures
  rw [← hdetail] at htake
  exact absurd htake (by decide)

end Oamb.Contracts.FailureGuarantees
