import Mathlib.Data.Sym.Sym2
import Oamb.Reporting.AccuracyPairs

/-!
# Guarantees of the reported accuracy

The rendered McNemar value is the two-sided exact binomial probability of a fair coin
(`mcnemarProbability_eq`). The document of a pair is the mirror image of that of the reversed pair
(`pairBody_swap`), and its decision names a cell when the pair is comparable and the thresholds are
met in favour of the cell (`pairDecision_eq_observed`). From both, the report names a cell exactly
when the cell leads (`exists_leader_iff`), in whichever order the cells and the pairs stand.
-/

set_option autoImplicit false

namespace Oamb.Reporting.AccuracyGuarantees

open Foundation AccuracyPairs

/-! ### The exact McNemar test -/

theorem mcnemarProbability_swap (leftOnly rightOnly : ℕ) :
    mcnemarProbability rightOnly leftOnly = mcnemarProbability leftOnly rightOnly := by
  rw [mcnemarProbability, mcnemarProbability, Nat.add_comm, Nat.min_comm]

/-- The probability is that of a fair coin which is tossed once for every discordant case. -/
theorem mcnemarProbability_eq (leftOnly rightOnly : ℕ) :
    mcnemarProbability leftOnly rightOnly =
      FairCoin.twoSidedProbability (leftOnly + rightOnly) leftOnly := by
  wlog hle : leftOnly ≤ rightOnly generalizing leftOnly rightOnly with hswap
  · have hright := hswap rightOnly leftOnly (Nat.le_of_not_le hle)
    have htosses : leftOnly + rightOnly - rightOnly = leftOnly := by omega
    rw [mcnemarProbability_swap, hright, Nat.add_comm rightOnly,
      ← FairCoin.twoSidedProbability_swap (Nat.le_add_left rightOnly leftOnly), htosses]
  rw [mcnemarProbability, FairCoin.twoSidedProbability_eq_min (by omega), Nat.min_eq_left hle]
  split_ifs with hnone
  · obtain ⟨rfl, rfl⟩ : leftOnly = 0 ∧ rightOnly = 0 := by omega
    rw [min_eq_left]
    norm_num [FairCoin.lowerTail]
  · rfl

theorem fractionValue_ofRat (value : ℚ) : fractionValue (some (.ofRat value)) = some value := by
  have hpositive : ¬ (value.den : ℤ) ≤ 0 := by
    have hden := value.den_pos
    omega
  rw [fractionValue, FractionDocument.ofRat, if_neg hpositive, Int.cast_natCast, Rat.num_div_den]

theorem exactMcnemarDocument_swap (leftOnly rightOnly : ℕ) :
    exactMcnemarDocument rightOnly leftOnly = exactMcnemarDocument leftOnly rightOnly := by
  rw [exactMcnemarDocument, exactMcnemarDocument, mcnemarProbability_swap]

/-! ### Cells -/

/-- The cell is reduced from case records or from saved question results. -/
def Built (cell : CellDocument) : Prop :=
  (∃ snapshot, cellDocument snapshot = .ok cell) ∨
    ∃ spec results, questionResultCellDocument spec results = .ok cell

/-- A reduced cell counts its cases. -/
theorem Built.caseCount_eq {cell : CellDocument} (hbuilt : Built cell) :
    cell.caseCount = cell.results.length := by
  rcases hbuilt with ⟨snapshot, hcell⟩ | ⟨spec, results, hcell⟩
  · rw [cellDocument] at hcell
    cases hids : (judgedCases snapshot.cases).mapM fun item ↦ requiredText "metric_id" item.metricId
    · rw [hids] at hcell
      cases hcell
    · rw [hids] at hcell
      simp only [bind, Except.bind] at hcell
      split at hcell
      · cases hcell
      · cases hcell
        rfl
  · rw [questionResultCellDocument] at hcell
    split at hcell
    · cases hcell
    · cases hcell
      rfl

/-- The cases of the cell are right or wrong. -/
def Binary (cell : CellDocument) : Prop :=
  ∀ result ∈ cell.results, (binaryAccuracyOutcome result).isSome

/-- The number of cases of the cell that are right. -/
def correctCount (cell : CellDocument) : ℕ :=
  cell.results.countP fun result ↦ binaryAccuracyOutcome result = some true

/-- What makes a case right or wrong. -/
theorem binaryAccuracyOutcome_eq_some {case : CaseRecord} {correct : Bool}
    (houtcome : binaryAccuracyOutcome case = some correct) :
    case.evaluationDisposition = "judged" ∧ case.metricNumerator = .integer correct.toNat ∧
      case.metricDenominator.isOne = true := by
  rw [binaryAccuracyOutcome] at houtcome
  split_ifs at houtcome with hstate
  rw [not_or, not_not, not_not] at hstate
  cases hnumerator : case.metricNumerator with
  | integer value =>
    simp only [hnumerator, Figure.asProperInteger] at houtcome
    split_ifs at houtcome with hbinary
    rw [not_or, Bool.not_eq_false] at hbinary
    cases houtcome
    refine ⟨hstate.2, ?_, hbinary.2⟩
    by_cases hone : value = 1
    · simp [hone]
    · have hzero : value = 0 := by
        by_contra hne
        exact hbinary.1 ⟨hne, hone⟩
      simp [hzero]
  | boolean value => simp [hnumerator, Figure.asProperInteger] at houtcome
  | real value => simp [hnumerator, Figure.asProperInteger] at houtcome
  | other => simp [hnumerator, Figure.asProperInteger] at houtcome

/-- A reduced cell whose cases are all judged sums the members of all its cases. -/
theorem Built.sums {cell : CellDocument} (hbuilt : Built cell)
    (hjudged : cell.judgedCaseCount = cell.caseCount) :
    cell.judgedNumerator = sumFigures CaseRecord.metricNumerator cell.results ∧
      cell.judgedDenominator = sumFigures CaseRecord.metricDenominator cell.results ∧
        ∀ result ∈ cell.results, result.metricDenominator.asInteger.isSome := by
  rcases hbuilt with ⟨snapshot, hcell⟩ | ⟨spec, results, hcell⟩
  · rw [cellDocument] at hcell
    cases hids : (judgedCases snapshot.cases).mapM fun item ↦ requiredText "metric_id" item.metricId
    · rw [hids] at hcell
      cases hcell
    · rw [hids] at hcell
      simp only [bind, Except.bind] at hcell
      split at hcell
      · cases hcell
      · cases hcell
        have hall : judgedCases snapshot.cases = snapshot.cases :=
          List.filter_sublist.eq_of_length hjudged
        refine ⟨congrArg (sumFigures CaseRecord.metricNumerator) hall,
          congrArg (sumFigures CaseRecord.metricDenominator) hall, fun result hresult ↦ ?_⟩
        rw [← hall] at hresult
        simp only [judgedCases, List.mem_filter, decide_eq_true_eq] at hresult
        exact hresult.2.2.2
  · rw [questionResultCellDocument] at hcell
    split at hcell
    · cases hcell
    · cases hcell
      have hall : List.filter (fun item : CaseRecord ↦ item.evaluationDisposition = "judged")
          (results.map fun item ↦ questionResultCaseDocument item.1 item.2) =
          results.map fun item ↦ questionResultCaseDocument item.1 item.2 :=
        List.filter_sublist.eq_of_length hjudged
      refine ⟨congrArg (sumFigures CaseRecord.metricNumerator) hall,
        congrArg (sumFigures CaseRecord.metricDenominator) hall, fun result hresult ↦ ?_⟩
      rw [← hall, List.mem_filter, List.mem_map] at hresult
      obtain ⟨⟨⟨caseId, evaluation⟩, -, rfl⟩, hdisposition⟩ := hresult
      cases evaluation with
      | judged correct => rfl
      | unjudged => simp [questionResultCaseDocument] at hdisposition
      | notRun => simp [questionResultCaseDocument] at hdisposition

theorem sumFigures_cons (figure : CaseRecord → Figure) (case : CaseRecord)
    (cases : List CaseRecord) :
    sumFigures figure (case :: cases) =
      (figure case).asInteger.getD 0 + sumFigures figure cases := by
  rw [sumFigures, List.map_cons, List.sum_cons, sumFigures]

/-- The sums over cases that are right or wrong. -/
theorem sumFigures_of_binary {cases : List CaseRecord}
    (hbinary : ∀ case ∈ cases, (binaryAccuracyOutcome case).isSome)
    (hintegers : ∀ case ∈ cases, case.metricDenominator.asInteger.isSome) :
    sumFigures CaseRecord.metricNumerator cases =
        cases.countP (fun case ↦ binaryAccuracyOutcome case = some true) ∧
      sumFigures CaseRecord.metricDenominator cases = cases.length := by
  induction cases with
  | nil => exact ⟨rfl, rfl⟩
  | cons case cases ih =>
    rw [List.forall_mem_cons] at hbinary hintegers
    obtain ⟨hnumerators, hdenominators⟩ := ih hbinary.2 hintegers.2
    obtain ⟨correct, hcorrect⟩ := Option.isSome_iff_exists.mp hbinary.1
    obtain ⟨-, hnumerator, hone⟩ := binaryAccuracyOutcome_eq_some hcorrect
    have hdenominator : case.metricDenominator = .integer 1 := by
      cases hfigure : case.metricDenominator with
      | integer value => simpa [hfigure, Figure.isOne] using hone
      | boolean value => simp [hfigure, Figure.isOne] at hone
      | real value => simp [hfigure, Figure.asInteger] at hintegers
      | other => simp [hfigure, Figure.asInteger] at hintegers
    rw [sumFigures_cons, sumFigures_cons, hnumerators, hdenominators, hnumerator, hdenominator,
      List.countP_cons, List.length_cons, hcorrect]
    cases correct <;> simp [Figure.asInteger, add_comm]

/-- The accuracy of a reduced cell whose cases are right or wrong. -/
theorem Built.accuracy_eq {cell : CellDocument} (hbuilt : Built cell) (hbinary : Binary cell)
    (hjudged : cell.judgedCaseCount = cell.caseCount) :
    accuracy cell = correctCount cell / cell.results.length := by
  obtain ⟨hnumerator, hdenominator, hintegers⟩ := hbuilt.sums hjudged
  obtain ⟨hright, hall⟩ := sumFigures_of_binary hbinary hintegers
  rw [accuracy, hnumerator, hdenominator, hright, hall, correctCount, Int.cast_natCast,
    Int.cast_natCast]

/-! ### Mirror images -/

/-- Exchange the sides of the discordant cases. -/
def mirrorPaired (paired : PairedAccuracy) : PairedAccuracy :=
  ⟨paired.leftWrongRightCorrect, paired.leftCorrectRightWrong, paired.exactMcnemarTwoSided⟩

/-- Exchange the sides of a pair. The number of cases and the metric are those of the cell that comes
to the left. -/
def mirror (left : CellDocument) (body : PairBody) : PairBody :=
  { body with
    leftCellId := body.rightCellId
    rightCellId := body.leftCellId
    leftProviderId := body.rightProviderId
    rightProviderId := body.leftProviderId
    caseCount := left.caseCount
    metricId := left.metricId
    leftJudged := body.rightJudged
    rightJudged := body.leftJudged
    signedDelta := body.signedDelta.map fun delta ↦ ⟨-delta.numerator, delta.denominator⟩
    pairedAccuracy := body.pairedAccuracy.map mirrorPaired }

/-- A list is mapped by a partial function when every item is. -/
theorem mapM_eq_ite {α β : Type} (read : α → Option β) (items : List α) :
    items.mapM read = if items.all (fun item ↦ (read item).isSome) then some (items.filterMap read)
      else none := by
  induction items with
  | nil => rfl
  | cons item items ih =>
    rw [List.mapM_cons, ih, List.filterMap_cons, List.all_cons]
    cases hread : read item with
    | none => simp
    | some value =>
      cases hall : items.all fun item ↦ (read item).isSome <;> simp

/-- The outcome of a case of an identity. -/
def outcomeOf (results : List CaseRecord) (caseId : String) : Option Bool :=
  (caseOf results caseId).bind binaryAccuracyOutcome

/-- The outcomes of a case of an identity in two cells. -/
def outcomesOf (left right : List CaseRecord) (caseId : String) : Option (Bool × Bool) :=
  (outcomeOf left caseId).bind fun first ↦
    (outcomeOf right caseId).bind fun second ↦ some (first, second)

theorem outcomesOf_swap (left right : List CaseRecord) (caseId : String) :
    outcomesOf right left caseId = (outcomesOf left right caseId).map Prod.swap := by
  rw [outcomesOf, outcomesOf]
  cases outcomeOf left caseId <;> cases outcomeOf right caseId <;> rfl

/-- A case that is keyed is the case of its identity. -/
theorem caseOf_of_mem {results : List CaseRecord}
    (hnodup : (results.map CaseRecord.caseManifestEntryId).Nodup) {result : CaseRecord}
    (hmem : result ∈ results) : caseOf results result.caseManifestEntryId = some result := by
  induction results with
  | nil => cases hmem
  | cons first rest ih =>
    rw [List.map_cons, List.nodup_cons] at hnodup
    rw [caseOf, List.find?_cons]
    rcases List.mem_cons.mp hmem with rfl | hrest
    · simp
    · have hne : first.caseManifestEntryId ≠ result.caseManifestEntryId := fun hsame ↦
        hnodup.1 (hsame ▸ List.mem_map_of_mem hrest)
      simp only [decide_eq_false hne]
      exact ih hnodup.2 hrest

/-- The paired outcomes, read from the identities of the left cases. -/
theorem pairedOutcomes_eq {left right : List CaseRecord}
    (hnodup : (left.map CaseRecord.caseManifestEntryId).Nodup) :
    pairedOutcomes left right =
      (left.map CaseRecord.caseManifestEntryId).mapM (outcomesOf left right) := by
  have hread : ∀ result ∈ left, (do
      let leftOutcome ← binaryAccuracyOutcome result
      let rightOutcome ← (caseOf right result.caseManifestEntryId).bind binaryAccuracyOutcome
      return (leftOutcome, rightOutcome)) = outcomesOf left right result.caseManifestEntryId := by
    intro result hresult
    rw [outcomesOf, outcomeOf, caseOf_of_mem hnodup hresult]
    rfl
  rw [pairedOutcomes, List.mapM_map, mapM_eq_ite, mapM_eq_ite, List.filterMap_congr hread]
  congr 2
  rw [Bool.eq_iff_iff, List.all_eq_true, List.all_eq_true]
  exact forall₂_congr fun result hresult ↦ by rw [hread result hresult, Function.comp_apply]

theorem nodup_of_keyed {results : List CaseRecord} (hkeyed : keyed results = true) :
    (results.map CaseRecord.caseManifestEntryId).Nodup := by
  rw [keyed, Bool.and_eq_true] at hkeyed
  exact of_decide_eq_true hkeyed.2

/-- Outcomes in another order, with exchanged sides. -/
theorem discordantDocument_swap {outcomes swapped : List (Bool × Bool)}
    (hperm : swapped.Perm (outcomes.map Prod.swap)) :
    discordantDocument swapped = mirrorPaired (discordantDocument outcomes) := by
  have hleft : swapped.countP (fun outcome ↦ outcome.1 && !outcome.2) =
      outcomes.countP fun outcome ↦ outcome.2 && !outcome.1 := by
    rw [hperm.countP_eq, List.countP_map]
    rfl
  have hright : swapped.countP (fun outcome ↦ outcome.2 && !outcome.1) =
      outcomes.countP fun outcome ↦ outcome.1 && !outcome.2 := by
    rw [hperm.countP_eq, List.countP_map]
    rfl
  rw [discordantDocument, hleft, hright, exactMcnemarDocument_swap]
  rfl

/-- Outcomes over the same identities, in another order and with exchanged sides. -/
theorem pairedOutcomes_swap {left right : List CaseRecord}
    (hleft : (left.map CaseRecord.caseManifestEntryId).Nodup)
    (hright : (right.map CaseRecord.caseManifestEntryId).Nodup)
    (hperm : (right.map CaseRecord.caseManifestEntryId).Perm
      (left.map CaseRecord.caseManifestEntryId)) :
    (pairedOutcomes right left).map discordantDocument =
      (pairedOutcomes left right).map fun outcomes ↦ mirrorPaired (discordantDocument outcomes) := by
  have hall : (right.map CaseRecord.caseManifestEntryId).all
        (fun caseId ↦ (outcomesOf right left caseId).isSome) =
      (left.map CaseRecord.caseManifestEntryId).all
        fun caseId ↦ (outcomesOf left right caseId).isSome := by
    rw [hperm.all_eq]
    simp only [outcomesOf_swap left right, Option.isSome_map]
  rw [pairedOutcomes_eq hleft, pairedOutcomes_eq hright, mapM_eq_ite, mapM_eq_ite, hall]
  split_ifs with hsome
  · have hvalues : ((right.map CaseRecord.caseManifestEntryId).filterMap
        (outcomesOf right left)).Perm
        (((left.map CaseRecord.caseManifestEntryId).filterMap (outcomesOf left right)).map
          Prod.swap) := by
      rw [List.map_filterMap]
      simp only [← outcomesOf_swap left right]
      exact hperm.filterMap _
    rw [Option.map_some, Option.map_some, Option.some.injEq]
    exact discordantDocument_swap hvalues
  · rfl

/-- The discordant cases of a reversed pair. -/
theorem pairedAccuracyDocument_swap {left right : CellDocument} (hleft : Built left)
    (hright : Built right) : pairedAccuracyDocument right left =
      (pairedAccuracyDocument left right).map mirrorPaired := by
  rw [pairedAccuracyDocument, pairedAccuracyDocument, hleft.caseCount_eq, hright.caseCount_eq]
  simp only [List.length_map, and_true]
  by_cases hkeys : keyed left.results = true ∧ keyed right.results = true ∧
      left.results.map CaseRecord.caseManifestEntryId ⊆
        right.results.map CaseRecord.caseManifestEntryId ∧
      right.results.map CaseRecord.caseManifestEntryId ⊆
        left.results.map CaseRecord.caseManifestEntryId
  · obtain ⟨hleftKeys, hrightKeys, hforth, hback⟩ := hkeys
    have hleftNodup := nodup_of_keyed hleftKeys
    have hrightNodup := nodup_of_keyed hrightKeys
    have hperm := (List.perm_ext_iff_of_nodup hrightNodup hleftNodup).mpr fun caseId ↦
      ⟨fun hcase ↦ hback hcase, fun hcase ↦ hforth hcase⟩
    rw [if_pos ⟨hrightKeys, hleftKeys, hback, hforth⟩,
      if_pos ⟨hleftKeys, hrightKeys, hforth, hback⟩,
      pairedOutcomes_swap hleftNodup hrightNodup hperm, Option.map_map]
    rfl
  · rw [if_neg hkeys, if_neg fun hreversed ↦ hkeys
      ⟨hreversed.2.1, hreversed.1, hreversed.2.2.2, hreversed.2.2.1⟩]
    rfl

/-- A pair and the reversed one have the same limitations. -/
theorem pairLimitations_swap (left right : CellDocument) :
    pairLimitations right left = pairLimitations left right := by
  have hrevisions : ((right.questionResults && left.questionResults) = false ∧
      (right.codeRevisions.length ≠ 1 ∨ left.codeRevisions.length ≠ 1 ∨
        right.codeRevisions ≠ left.codeRevisions)) ↔
      (left.questionResults && right.questionResults) = false ∧
        (left.codeRevisions.length ≠ 1 ∨ right.codeRevisions.length ≠ 1 ∨
          left.codeRevisions ≠ right.codeRevisions) := by
    rw [Bool.and_comm, or_left_comm, ne_comm (a := right.codeRevisions)]
  have hmetric : (right.metricId = "unavailable" ∨ right.metricId ≠ left.metricId) ↔
      (left.metricId = "unavailable" ∨ left.metricId ≠ right.metricId) := by
    by_cases hsame : left.metricId = right.metricId
    · rw [hsame]
    · simp [hsame, Ne.symm hsame]
  rw [pairLimitations, pairLimitations]
  simp only [hrevisions, hmetric, or_comm (a := right.judgedCaseCount ≠ right.caseCount),
    or_comm (a := right.completedCaseCount ≠ right.caseCount),
    or_comm (a := right.judgedDenominator = 0)]

/-! ### The decision of a pair -/

variable {decimal : String → Option ℚ}

theorem FractionDocument.value_neg (delta : FractionDocument) :
    fractionValue (some ⟨-delta.numerator, delta.denominator⟩) =
      (fractionValue (some delta)).map Neg.neg := by
  rw [fractionValue, fractionValue]
  split_ifs
  · rfl
  · rw [Option.map_some, Int.cast_neg, neg_div]

theorem failedPredicates_neg (thresholds : Thresholds) (comparable completeCoverage : Bool)
    (delta probability : Option ℚ) :
    failedPredicates thresholds comparable completeCoverage (delta.map Neg.neg) probability =
      failedPredicates thresholds comparable completeCoverage delta probability := by
  rw [failedPredicates, failedPredicates]
  cases delta with
  | none => rfl
  | some value => simp only [Option.map_some, Option.all_some, abs_neg]

/-- The decision of the reversed pair names the same cell. -/
theorem pairAccuracyDecision_swap (decision : Option DecisionConfiguration)
    (left right : CellDocument) (comparable completeCoverage : Bool)
    (delta : Option FractionDocument) (paired : Option PairedAccuracy) :
    pairAccuracyDecision decimal decision right left comparable completeCoverage
        (delta.map fun value ↦ ⟨-value.numerator, value.denominator⟩) (paired.map mirrorPaired) =
      pairAccuracyDecision decimal decision left right comparable completeCoverage delta paired := by
  have hdelta : fractionValue (delta.map fun value ↦ ⟨-value.numerator, value.denominator⟩) =
      (fractionValue delta).map Neg.neg := by
    cases delta with
    | none => rfl
    | some value => exact FractionDocument.value_neg value
  have hprobability : (paired.map mirrorPaired).map
        (fun value ↦ value.exactMcnemarTwoSided.toFractionDocument) =
      paired.map fun value ↦ value.exactMcnemarTwoSided.toFractionDocument := by
    rw [Option.map_map]
    rfl
  rw [pairAccuracyDecision, pairAccuracyDecision]
  cases decisionThresholds decimal decision with
  | none => rfl
  | some thresholds =>
    simp only [hdelta, hprobability, failedPredicates_neg]
    cases fractionValue delta with
    | none => rfl
    | some value =>
      simp only [Option.map_some, neg_eq_zero]
      split_ifs with hfailed hneg hpos hpos
      · rfl
      · exact absurd (neg_pos.mp hneg) hpos.not_gt
      · rfl
      · rfl
      · rw [neg_pos, not_lt] at hneg
        exact absurd (le_antisymm (not_lt.mp hpos) hneg) fun hzero ↦ hfailed (Or.inr hzero)

/-- The document of a pair is the mirror image of that of the reversed pair. -/
theorem pairBody_swap (plan : ResolvedPlan) {left right : CellDocument} (hleft : Built left)
    (hright : Built right) (completeCoverage : Bool) (limitations : List String) :
    pairBody decimal plan right left completeCoverage limitations =
      mirror right (pairBody decimal plan left right completeCoverage limitations) := by
  have hdelta : ∀ comparable : Bool,
      (if comparable = true then some (FractionDocument.ofRat (accuracy right - accuracy left))
        else none) =
      (if comparable = true then some (FractionDocument.ofRat (accuracy left - accuracy right))
        else none).map fun value ↦ ⟨-value.numerator, value.denominator⟩ := by
    intro comparable
    split_ifs
    · rw [Option.map_some, ← neg_sub (accuracy left), FractionDocument.ofRat,
        FractionDocument.ofRat, Rat.neg_num, Rat.neg_den]
    · rfl
  rw [pairBody, pairBody, mirror]
  simp only [pairLimitations_swap left right, pairedAccuracyDocument_swap hleft hright,
    Option.isSome_map, hdelta, pairAccuracyDecision_swap]

/-- A pair is comparable when it has no limitation and its evidence is matched. -/
theorem comparable_pairBody {plan : ResolvedPlan} {left right : CellDocument}
    {completeCoverage : Bool} {limitations : List String} :
    (pairBody decimal plan left right completeCoverage limitations).comparable = true ↔
      limitations = [] ∧ pairLimitations left right = [] ∧
        (pairedAccuracyDocument left right).isSome := by
  rw [pairBody, Bool.and_eq_true, List.isEmpty_iff, List.append_eq_nil_iff, and_assoc]

/-- The cell beats another one: their pair is comparable, and both thresholds are met in favour of
the cell. -/
structure Clears (thresholds : Thresholds) (cell other : CellDocument)
    (limitations : List String) : Prop where
  unlimited : limitations = [] ∧ pairLimitations cell other = []
  better : accuracy other < accuracy cell
  difference : thresholds.minimumDelta ≤ accuracy cell - accuracy other
  significant : ∃ paired, pairedAccuracyDocument cell other = some paired ∧
    FairCoin.twoSidedProbability
      (paired.leftCorrectRightWrong + paired.leftWrongRightCorrect) paired.leftCorrectRightWrong ≤
        thresholds.maximumPValue

theorem exactMcnemarTwoSided_of_paired {left right : CellDocument} {paired : PairedAccuracy}
    (hpaired : pairedAccuracyDocument left right = some paired) :
    paired.exactMcnemarTwoSided =
      exactMcnemarDocument paired.leftCorrectRightWrong paired.leftWrongRightCorrect := by
  rw [pairedAccuracyDocument] at hpaired
  split_ifs at hpaired
  obtain ⟨outcomes, -, rfl⟩ := Option.map_eq_some_iff.mp hpaired
  rfl

/-- No predicate of a pair fails. -/
theorem failedPredicates_eq_nil {thresholds : Thresholds} {comparable completeCoverage : Bool}
    {delta probability : Option ℚ} :
    failedPredicates thresholds comparable completeCoverage delta probability = [] ↔
      comparable = true ∧ completeCoverage = true ∧
        (∃ value, delta = some value ∧ thresholds.minimumDelta ≤ |value|) ∧
          ∃ value, probability = some value ∧ value ≤ thresholds.maximumPValue := by
  rw [failedPredicates]
  cases delta <;> cases probability <;> cases comparable <;> cases completeCoverage <;> simp

/-- The decision of a pair names its left cell when the cell beats the other one. -/
theorem names_left_iff {hash : PairBody → String} {plan : ResolvedPlan} {thresholds : Thresholds}
    (hthresholds : decisionThresholds decimal plan.decision = some thresholds)
    {left right : CellDocument} (hne : right.cellId ≠ left.cellId) {completeCoverage : Bool}
    {limitations : List String} :
    names left (pairDocument decimal hash plan left right completeCoverage limitations) = true ↔
      completeCoverage = true ∧ Clears thresholds left right limitations := by
  have hstatus : "no_clear_accuracy_leader" ≠ "observed_accuracy_leader" := by decide
  have hnone (failed : List String) : ¬ ((noLeader (some thresholds) failed).status =
      "observed_accuracy_leader" ∧
        (noLeader (some thresholds) failed).leaderCellId = some left.cellId) :=
    fun hnames ↦ hstatus hnames.1
  rw [names, Bool.and_eq_true, decide_eq_true_eq, decide_eq_true_eq]
  show (pairBody decimal plan left right completeCoverage limitations).accuracyDecision.status = _ ∧
    (pairBody decimal plan left right completeCoverage limitations).accuracyDecision.leaderCellId =
      _ ↔ _
  have hcomparable := @comparable_pairBody decimal plan left right completeCoverage limitations
  rw [pairBody] at hcomparable ⊢
  simp only [pairAccuracyDecision, hthresholds] at hcomparable ⊢
  cases hcompared : (limitations ++ pairLimitations left right).isEmpty &&
      (pairedAccuracyDocument left right).isSome with
  | false =>
    rw [hcompared] at hcomparable
    simp only [fractionValue, Bool.false_eq_true, if_false] at hcomparable ⊢
    refine iff_of_false (hnone _) fun hclears ↦ hcomparable.mpr ?_
    obtain ⟨paired, hpaired, -⟩ := hclears.2.significant
    exact ⟨hclears.2.unlimited.1, hclears.2.unlimited.2, by rw [hpaired]; rfl⟩
  | true =>
    obtain ⟨hlimitations, hpairLimitations, hsome⟩ := hcomparable.mp hcompared
    obtain ⟨paired, hpaired⟩ := Option.isSome_iff_exists.mp hsome
    simp only [if_true, fractionValue_ofRat, hpaired, Option.map_some,
      exactMcnemarTwoSided_of_paired hpaired, exactMcnemarDocument]
    split_ifs with hfailed hpositive
    · refine iff_of_false (hnone _) fun hclears ↦ ?_
      obtain ⟨other, hother, hsignificant⟩ := hclears.2.significant
      cases hpaired.symm.trans hother
      rcases hfailed with hfailed | hzero
      · refine hfailed (failedPredicates_eq_nil.mpr ⟨rfl, hclears.1, ⟨_, rfl, ?_⟩, _, rfl, ?_⟩)
        · exact hclears.2.difference.trans (le_abs_self _)
        · rwa [mcnemarProbability_eq]
      · have hbetter := hclears.2.better
        rw [← sub_pos, hzero] at hbetter
        exact lt_irrefl 0 hbetter
    · rw [not_or, not_not, failedPredicates_eq_nil] at hfailed
      obtain ⟨⟨-, hcoverage, ⟨value, hvalue, hdifference⟩, probability, hprobability, hsmall⟩, -⟩ :=
        hfailed
      cases hvalue
      cases hprobability
      refine iff_of_true ⟨rfl, rfl⟩ ⟨hcoverage, ⟨hlimitations, hpairLimitations⟩,
        sub_pos.mp hpositive, ?_, paired, hpaired, ?_⟩
      · rwa [abs_of_pos hpositive] at hdifference
      · rwa [← mcnemarProbability_eq]
    · refine iff_of_false ?_ fun hclears ↦ hpositive (sub_pos.mpr hclears.2.better)
      rintro ⟨-, hleader⟩
      exact hne (Option.some.inj hleader)

/-! ### The pairs of a report -/

section Combinations

variable {α : Type}

/-- Pairs without their orientation. -/
def unordered (pairs : List (α × α)) : List (Sym2 α) := pairs.map fun pair ↦ s(pair.1, pair.2)

theorem unordered_combinations_cons (first : α) (rest : List α) :
    unordered (combinations (first :: rest)) =
      rest.map (fun other ↦ s(first, other)) ++ unordered (combinations rest) := by
  rw [combinations, unordered, List.map_append, List.map_map, unordered]
  rfl

/-- The combinations of a list are the pairs of different members. -/
theorem mem_combinations {items : List α} (hnodup : items.Nodup) {first second : α} :
    s(first, second) ∈ unordered (combinations items) ↔
      first ∈ items ∧ second ∈ items ∧ first ≠ second := by
  induction items with
  | nil => simp [combinations, unordered]
  | cons item items ih =>
    obtain ⟨hitem, hitems⟩ := List.nodup_cons.mp hnodup
    rw [unordered_combinations_cons, List.mem_append, List.mem_map, ih hitems]
    constructor
    · rintro (⟨other, hother, hsame⟩ | ⟨hfirst, hsecond, hne⟩)
      · have hdiffers : item ≠ other := fun heq ↦ hitem (heq ▸ hother)
        rcases Sym2.eq_iff.mp hsame with ⟨rfl, rfl⟩ | ⟨rfl, rfl⟩
        · exact ⟨List.mem_cons_self, List.mem_cons_of_mem _ hother, hdiffers⟩
        · exact ⟨List.mem_cons_of_mem _ hother, List.mem_cons_self, hdiffers.symm⟩
      · exact ⟨List.mem_cons_of_mem _ hfirst, List.mem_cons_of_mem _ hsecond, hne⟩
    · rintro ⟨hfirst, hsecond, hne⟩
      rcases List.mem_cons.mp hfirst with rfl | hfirstLater
      · exact Or.inl ⟨second, List.mem_of_ne_of_mem hne.symm hsecond, rfl⟩
      · rcases List.mem_cons.mp hsecond with rfl | hsecondLater
        · exact Or.inl ⟨first, hfirstLater, Sym2.eq_swap⟩
        · exact Or.inr ⟨hfirstLater, hsecondLater, hne⟩

variable [DecidableEq α]

/-- No combination holds what is no member. -/
theorem countP_combinations_of_notMem {items : List α} (hnodup : items.Nodup) {item : α}
    (hitem : item ∉ items) : (unordered (combinations items)).countP (fun pair ↦ item ∈ pair) = 0 := by
  rw [List.countP_eq_zero]
  intro pair hpair
  induction pair with
  | h first second =>
    obtain ⟨hfirst, hsecond, -⟩ := (mem_combinations hnodup).mp hpair
    rw [decide_eq_true_eq, Sym2.mem_iff]
    rintro (rfl | rfl)
    · exact hitem hfirst
    · exact hitem hsecond

/-- A member is in one combination with every other member. -/
theorem countP_combinations {items : List α} (hnodup : items.Nodup) {item : α}
    (hitem : item ∈ items) :
    (unordered (combinations items)).countP (fun pair ↦ item ∈ pair) = items.length - 1 := by
  induction items with
  | nil => cases hitem
  | cons head items ih =>
    obtain ⟨hhead, hitems⟩ := List.nodup_cons.mp hnodup
    rw [unordered_combinations_cons, List.countP_append, List.countP_map, List.length_cons,
      Nat.add_sub_cancel]
    by_cases hsame : item = head
    · subst hsame
      rw [countP_combinations_of_notMem hitems hhead, Nat.add_zero, List.countP_eq_length]
      intro other _
      rw [Function.comp_apply, decide_eq_true_eq]
      exact Sym2.mem_mk_left _ _
    · have hmem := List.mem_of_ne_of_mem hsame hitem
      have honce : items.countP ((fun pair ↦ decide (item ∈ pair)) ∘ fun other ↦ s(head, other)) =
          items.count item := by
        rw [List.count]
        refine List.countP_congr fun other _ ↦ ?_
        rw [Function.comp_apply, decide_eq_true_eq, Sym2.mem_iff, beq_iff_eq]
        exact ⟨fun heq ↦ (heq.resolve_left hsame).symm, fun heq ↦ Or.inr heq.symm⟩
      have hpos := List.length_pos_of_mem hmem
      rw [honce, List.count_eq_one_of_mem hitems hmem, ih hitems hmem]
      omega

end Combinations

/-- The pairs of the cells, in some order and orientation. -/
def PairsOf (cells : List CellDocument) (pairs : List (CellDocument × CellDocument)) : Prop :=
  (unordered pairs).Perm (unordered (combinations cells))

section Report

variable {hash : PairBody → String} {plan : ResolvedPlan} {completeCoverage : Bool}
  {limitationsOf : Finset String → List String} {cells : List CellDocument}
  {pairs : List (CellDocument × CellDocument)}

/-- Cells with the same identity are one cell. -/
theorem eq_of_cellId (hdistinct : (cells.map CellDocument.cellId).Nodup)
    {first second : CellDocument} (hfirst : first ∈ cells) (hsecond : second ∈ cells)
    (hsame : first.cellId = second.cellId) : first = second :=
  List.inj_on_of_nodup_map hdistinct hfirst hsecond hsame

theorem PairsOf.mem (hpairs : PairsOf cells pairs) (hdistinct : (cells.map CellDocument.cellId).Nodup)
    {pair : CellDocument × CellDocument} (hpair : pair ∈ pairs) :
    pair.1 ∈ cells ∧ pair.2 ∈ cells ∧ pair.1 ≠ pair.2 := by
  rw [← mem_combinations (List.Nodup.of_map _ hdistinct), ← hpairs.mem_iff]
  exact List.mem_map_of_mem hpair

theorem names_congr {first second : PairDocument} (cell : CellDocument)
    (hsame : first.accuracyDecision = second.accuracyDecision) :
    names cell first = names cell second := by
  rw [names, names, hsame]

/-- The decisions of a pair and of the reversed one name the same cell. -/
theorem names_swap {left right : CellDocument} (hleft : Built left) (hright : Built right)
    (cell : CellDocument) (limitations : List String) :
    names cell (pairDocument decimal hash plan right left completeCoverage limitations) =
      names cell (pairDocument decimal hash plan left right completeCoverage limitations) := by
  have hdecision := congrArg PairBody.accuracyDecision
    (@pairBody_swap decimal plan left right hleft hright completeCoverage limitations)
  exact names_congr cell hdecision

theorem involves_iff (hdistinct : (cells.map CellDocument.cellId).Nodup) {cell : CellDocument}
    (hcell : cell ∈ cells) {left right : CellDocument} (hleft : left ∈ cells)
    (hright : right ∈ cells) {limitations : List String} :
    involves cell (pairDocument decimal hash plan left right completeCoverage limitations) = true ↔
      cell ∈ s(left, right) := by
  rw [involves, Bool.or_eq_true, decide_eq_true_eq, decide_eq_true_eq, Sym2.mem_iff]
  constructor
  · rintro (hsame | hsame)
    · exact Or.inl (eq_of_cellId hdistinct hcell hleft hsame)
    · exact Or.inr (eq_of_cellId hdistinct hcell hright hsame)
  · rintro (rfl | rfl)
    · exact Or.inl rfl
    · exact Or.inr rfl

/-- Every other cell has one pair with a cell. -/
theorem length_candidatePairs (hdistinct : (cells.map CellDocument.cellId).Nodup)
    (hpairs : PairsOf cells pairs) {cell : CellDocument} (hcell : cell ∈ cells) :
    ((comparisonDocuments decimal hash plan completeCoverage limitationsOf pairs).filter
      (involves cell)).length = cells.length - 1 := by
  have hcount := hpairs.countP_eq fun pair ↦ cell ∈ pair
  rw [countP_combinations (List.Nodup.of_map _ hdistinct) hcell, unordered, List.countP_map]
    at hcount
  rw [← List.countP_eq_length_filter, comparisonDocuments, List.countP_map, ← hcount]
  refine List.countP_congr fun pair hpair ↦ ?_
  obtain ⟨hleft, hright, -⟩ := hpairs.mem hdistinct hpair
  rw [Function.comp_apply, Function.comp_apply, decide_eq_true_eq]
  exact involves_iff hdistinct hcell hleft hright

/-- All pairs with a cell name it when it beats every other cell. -/
theorem all_names_iff (hbuilt : ∀ cell ∈ cells, Built cell)
    (hdistinct : (cells.map CellDocument.cellId).Nodup) (hpairs : PairsOf cells pairs)
    {thresholds : Thresholds}
    (hthresholds : decisionThresholds decimal plan.decision = some thresholds)
    {cell : CellDocument} (hcell : cell ∈ cells) :
    ((comparisonDocuments decimal hash plan completeCoverage limitationsOf pairs).filter
        (involves cell)).all (names cell) = true ↔
      ∀ other ∈ cells, other ≠ cell → completeCoverage = true ∧
        Clears thresholds cell other (limitationsOf {cell.providerId, other.providerId}) := by
  rw [List.all_eq_true, comparisonDocuments]
  constructor
  · intro hall other hother hne
    have hids : other.cellId ≠ cell.cellId := fun hsame ↦
      hne (eq_of_cellId hdistinct hother hcell hsame)
    have hpair : s(cell, other) ∈ unordered pairs := hpairs.mem_iff.mpr
      ((mem_combinations (List.Nodup.of_map _ hdistinct)).mpr ⟨hcell, hother, hne.symm⟩)
    obtain ⟨⟨left, right⟩, hmem, hsame⟩ := List.mem_map.mp hpair
    have hnamed := hall _ (List.mem_filter.mpr ⟨List.mem_map_of_mem hmem,
      (involves_iff hdistinct hcell (hpairs.mem hdistinct hmem).1
        (hpairs.mem hdistinct hmem).2.1).mpr (hsame ▸ Sym2.mem_mk_left cell other)⟩)
    rcases Sym2.eq_iff.mp hsame with ⟨rfl, rfl⟩ | ⟨rfl, rfl⟩
    · exact (names_left_iff hthresholds hids).mp hnamed
    · rw [names_swap (hbuilt _ hcell) (hbuilt _ hother), Finset.pair_comm] at hnamed
      exact (names_left_iff hthresholds hids).mp hnamed
  · intro hclears document hdocument
    obtain ⟨hmapped, hinvolves⟩ := List.mem_filter.mp hdocument
    obtain ⟨⟨left, right⟩, hmem, rfl⟩ := List.mem_map.mp hmapped
    obtain ⟨hleft, hright, hdiffers⟩ := hpairs.mem hdistinct hmem
    have hids : right.cellId ≠ left.cellId := fun hsame ↦
      hdiffers (eq_of_cellId hdistinct hleft hright hsame.symm)
    rcases Sym2.mem_iff.mp ((involves_iff hdistinct hcell hleft hright).mp hinvolves) with rfl | rfl
    · exact (names_left_iff hthresholds hids).mpr (hclears right hright hdiffers.symm)
    · show names cell (pairDocument decimal hash plan left cell completeCoverage
        (limitationsOf {left.providerId, cell.providerId})) = true
      rw [names_swap (hbuilt _ hright) (hbuilt _ hleft), Finset.pair_comm]
      exact (names_left_iff hthresholds hids.symm).mpr (hclears left hleft hdiffers)

/-! ### The leader -/

/-- A cell leads: the coverage is complete, its accuracy is the highest, and it beats every other
cell. -/
structure Leads (decimal : String → Option ℚ) (plan : ResolvedPlan) (completeCoverage : Bool)
    (limitationsOf : Finset String → List String) (cells : List CellDocument)
    (leader : CellDocument) (thresholds : Thresholds) : Prop where
  mem : leader ∈ cells
  policy : decisionThresholds decimal plan.decision = some thresholds
  covered : ∃ expected, expectedCaseCount plan.selection = some expected ∧
    ∀ cell ∈ cells, closesCoverage expected cell = true
  highest : ∀ other ∈ cells, other ≠ leader → accuracy other < accuracy leader
  clears : ∀ other ∈ cells, other ≠ leader → completeCoverage = true ∧
    Clears thresholds leader other (limitationsOf {leader.providerId, other.providerId})

/-- The cell of the highest accuracy, where there is one. -/
theorem filter_highest {leader : CellDocument} (hnodup : cells.Nodup) (hmem : leader ∈ cells)
    (hhighest : ∀ other ∈ cells, other ≠ leader → accuracy other < accuracy leader) :
    (cells.map accuracy).max? = some (accuracy leader) ∧
      cells.filter (fun cell ↦ accuracy cell = accuracy leader) = [leader] := by
  constructor
  · rw [List.max?_eq_some_iff]
    refine ⟨List.mem_map_of_mem hmem, fun score hscore ↦ ?_⟩
    obtain ⟨other, hother, rfl⟩ := List.mem_map.mp hscore
    by_cases hsame : other = leader
    · rw [hsame]
    · exact (hhighest other hother hsame).le
  · refine List.perm_singleton.mp ((List.perm_ext_iff_of_nodup (hnodup.filter _)
      (List.nodup_singleton leader)).mpr fun cell ↦ ?_)
    rw [List.mem_filter, decide_eq_true_eq, List.mem_singleton]
    constructor
    · rintro ⟨hcell, hequal⟩
      by_contra hne
      exact (hhighest cell hcell hne).ne hequal
    · rintro rfl
      exact ⟨hmem, rfl⟩

/-- The one cell that a maximum selects has the highest accuracy. -/
theorem highest_of_filter {leader : CellDocument} {highest : ℚ}
    (hmax : (cells.map accuracy).max? = some highest)
    (hfilter : cells.filter (fun cell ↦ accuracy cell = highest) = [leader]) :
    leader ∈ cells ∧ ∀ other ∈ cells, other ≠ leader → accuracy other < accuracy leader := by
  have hleader : leader ∈ cells.filter fun cell ↦ accuracy cell = highest := by
    rw [hfilter]
    exact List.mem_singleton_self leader
  rw [List.mem_filter, decide_eq_true_eq] at hleader
  refine ⟨hleader.1, fun other hother hne ↦ ?_⟩
  rw [List.max?_eq_some_iff] at hmax
  have hle := hmax.2 _ (List.mem_map_of_mem hother)
  rw [hleader.2]
  refine lt_of_le_of_ne hle fun hequal ↦ hne ?_
  have hselected : other ∈ cells.filter fun cell ↦ accuracy cell = highest :=
    List.mem_filter.mpr ⟨hother, decide_eq_true hequal⟩
  rw [hfilter] at hselected
  exact List.mem_singleton.mp hselected

/-- The report of a leading cell names it. -/
theorem report_of_leads (hbuilt : ∀ cell ∈ cells, Built cell)
    (hdistinct : (cells.map CellDocument.cellId).Nodup) (hpairs : PairsOf cells pairs)
    {leader : CellDocument} {thresholds : Thresholds}
    (hleads : Leads decimal plan completeCoverage limitationsOf cells leader thresholds) :
    reportAccuracyDecision decimal plan.decision plan.selection cells
        (comparisonDocuments decimal hash plan completeCoverage limitationsOf pairs) =
      .ok (observedLeader thresholds leader) := by
  obtain ⟨expected, hexpected, hcovered⟩ := hleads.covered
  obtain ⟨hmax, hfilter⟩ :=
    filter_highest (List.Nodup.of_map _ hdistinct) hleads.mem hleads.highest
  have hcoverage : (expectedCaseCount plan.selection).any
      (fun expected ↦ cells.all (closesCoverage expected)) = true := by
    rw [hexpected, Option.any_some, List.all_eq_true]
    exact hcovered
  have hall : ((comparisonDocuments decimal hash plan completeCoverage limitationsOf pairs).filter
      (involves leader)).all (names leader) = true :=
    (all_names_iff hbuilt hdistinct hpairs hleads.policy hleads.mem).mpr hleads.clears
  simp only [reportAccuracyDecision, hleads.policy, hcoverage, if_true, hmax, hfilter]
  rw [if_pos ⟨length_candidatePairs hdistinct hpairs hleads.mem, hall⟩]

/-- A cell that a report names leads. -/
theorem leads_of_report (hbuilt : ∀ cell ∈ cells, Built cell)
    (hdistinct : (cells.map CellDocument.cellId).Nodup) (hpairs : PairsOf cells pairs)
    {decision : AccuracyDecision} {cellId : String}
    (hreport : reportAccuracyDecision decimal plan.decision plan.selection cells
      (comparisonDocuments decimal hash plan completeCoverage limitationsOf pairs) = .ok decision)
    (hleader : decision.leaderCellId = some cellId) :
    ∃ leader thresholds, leader.cellId = cellId ∧
      Leads decimal plan completeCoverage limitationsOf cells leader thresholds := by
  have hnone (thresholds : Option Thresholds) (failed : List String) :
      (noLeader thresholds failed).leaderCellId ≠ some cellId := nofun
  rw [reportAccuracyDecision] at hreport
  cases hpolicy : decisionThresholds decimal plan.decision with
  | none =>
    rw [hpolicy] at hreport
    cases hreport
    exact absurd hleader (hnone _ _)
  | some thresholds =>
    simp only [hpolicy] at hreport
    split at hreport
    · rename_i hcoverage
      obtain ⟨expected, hexpected, hcovered⟩ : ∃ expected,
          expectedCaseCount plan.selection = some expected ∧
            cells.all (closesCoverage expected) = true := by
        cases hexpected : expectedCaseCount plan.selection with
        | none => simp [hexpected] at hcoverage
        | some expected => exact ⟨expected, rfl, by simpa [hexpected] using hcoverage⟩
      split at hreport
      · cases hreport
      · rename_i highest hmax
        split at hreport
        · rename_i candidate hfilter
          obtain ⟨hmem, hhighest⟩ := highest_of_filter hmax hfilter
          split at hreport
          · rename_i hclears
            cases hreport
            exact ⟨candidate, thresholds, Option.some.inj hleader, hmem, hpolicy,
              ⟨expected, hexpected, List.all_eq_true.mp hcovered⟩, hhighest,
              (all_names_iff hbuilt hdistinct hpairs hpolicy hmem).mp hclears.2⟩
          · cases hreport
            exact absurd hleader (hnone _ _)
        · cases hreport
          exact absurd hleader (hnone _ _)
    · cases hreport
      exact absurd hleader (hnone _ _)

theorem max?_perm {first second : List ℚ} (hperm : first.Perm second) :
    first.max? = second.max? := by
  cases hmax : first.max? with
  | none =>
    rw [List.max?_eq_none_iff] at hmax
    subst hmax
    rw [List.nil_perm.mp hperm, List.max?_nil]
  | some highest =>
    rw [List.max?_eq_some_iff] at hmax
    refine (List.max?_eq_some_iff.mpr ⟨hperm.mem_iff.mp hmax.1, fun score hscore ↦ ?_⟩).symm
    exact hmax.2 score (hperm.mem_iff.mpr hscore)

/-- The decision of a report does not depend on the order of its cells, nor on the order and the
orientation of its pairs. -/
theorem report_perm {cells' : List CellDocument} {pairs' : List (CellDocument × CellDocument)}
    (hbuilt : ∀ cell ∈ cells, Built cell) (hdistinct : (cells.map CellDocument.cellId).Nodup)
    (hcells : cells'.Perm cells) (hpairs : PairsOf cells pairs) (hpairs' : PairsOf cells pairs') :
    reportAccuracyDecision decimal plan.decision plan.selection cells'
        (comparisonDocuments decimal hash plan completeCoverage limitationsOf pairs') =
      reportAccuracyDecision decimal plan.decision plan.selection cells
        (comparisonDocuments decimal hash plan completeCoverage limitationsOf pairs) := by
  rw [reportAccuracyDecision, reportAccuracyDecision]
  cases hpolicy : decisionThresholds decimal plan.decision with
  | none => rfl
  | some thresholds =>
    have hall (expected : ℕ) : cells'.all (closesCoverage expected) =
        cells.all (closesCoverage expected) := hcells.all_eq
    simp only [hall, max?_perm (hcells.map accuracy)]
    split_ifs with hcoverage
    · cases hmax : (cells.map accuracy).max? with
      | none => rfl
      | some highest =>
        have hfilter := hcells.filter fun cell ↦ accuracy cell = highest
        by_cases hone : ∃ candidate, cells.filter (fun cell ↦ accuracy cell = highest) = [candidate]
        · obtain ⟨candidate, hcandidate⟩ := hone
          rw [hcandidate] at hfilter
          have hmem := (highest_of_filter hmax hcandidate).1
          simp only [hcandidate, List.perm_singleton.mp hfilter, hcells.length_eq]
          rw [length_candidatePairs hdistinct hpairs hmem,
            length_candidatePairs hdistinct hpairs' hmem]
          have hnames : ((comparisonDocuments decimal hash plan completeCoverage limitationsOf
                pairs').filter (involves candidate)).all (names candidate) =
              ((comparisonDocuments decimal hash plan completeCoverage limitationsOf pairs).filter
                (involves candidate)).all (names candidate) := by
            rw [Bool.eq_iff_iff, all_names_iff hbuilt hdistinct hpairs hpolicy hmem,
              all_names_iff hbuilt hdistinct hpairs' hpolicy hmem]
          rw [hnames]
        · simp only
          split
          · rename_i candidate hcandidate
            rw [hcandidate] at hfilter
            exact absurd ⟨candidate, (List.singleton_perm.mp hfilter).symm⟩ hone
          · split
            · rename_i candidate hcandidate
              exact absurd ⟨candidate, hcandidate⟩ hone
            · rfl
    · rfl

/-- A report names the cells that lead, and no other one. -/
theorem exists_leader_iff (hbuilt : ∀ cell ∈ cells, Built cell)
    (hdistinct : (cells.map CellDocument.cellId).Nodup) (hpairs : PairsOf cells pairs)
    (cellId : String) :
    (∃ decision, reportAccuracyDecision decimal plan.decision plan.selection cells
        (comparisonDocuments decimal hash plan completeCoverage limitationsOf pairs) =
          .ok decision ∧ decision.leaderCellId = some cellId) ↔
      ∃ leader thresholds, leader.cellId = cellId ∧
        Leads decimal plan completeCoverage limitationsOf cells leader thresholds := by
  constructor
  · rintro ⟨decision, hreport, hleader⟩
    exact leads_of_report hbuilt hdistinct hpairs hreport hleader
  · rintro ⟨leader, thresholds, rfl, hleads⟩
    exact ⟨_, report_of_leads hbuilt hdistinct hpairs hleads, rfl⟩

/-- The rendered value of a pair is the exact probability of its discordant cases. -/
theorem renderedValue_eq {left right : CellDocument} {paired : PairedAccuracy}
    (hpaired : pairedAccuracyDocument left right = some paired) :
    fractionValue (some paired.exactMcnemarTwoSided.toFractionDocument) =
      some (FairCoin.twoSidedProbability
        (paired.leftCorrectRightWrong + paired.leftWrongRightCorrect)
          paired.leftCorrectRightWrong) := by
  rw [exactMcnemarTwoSided_of_paired hpaired, ← mcnemarProbability_eq]
  exact fractionValue_ofRat _

variable (decimal hash plan completeCoverage limitationsOf)

/-- The reported accuracy leader is sound. -/
theorem accuracyLeader_sound (hbuilt : ∀ cell ∈ cells, Built cell)
    (hdistinct : (cells.map CellDocument.cellId).Nodup) :
    (∀ left right paired, pairedAccuracyDocument left right = some paired →
      ∃ probability, fractionValue (some paired.exactMcnemarTwoSided.toFractionDocument) =
          some probability ∧
        probability = FairCoin.twoSidedProbability
          (paired.leftCorrectRightWrong + paired.leftWrongRightCorrect)
            paired.leftCorrectRightWrong ∧
        0 < probability ∧ probability ≤ 1) ∧
    (∀ leftOnly rightOnly,
      exactMcnemarDocument rightOnly leftOnly = exactMcnemarDocument leftOnly rightOnly) ∧
    (∀ left ∈ cells, ∀ right ∈ cells, ∀ limitations,
      pairBody decimal plan right left completeCoverage limitations =
        mirror right (pairBody decimal plan left right completeCoverage limitations)) ∧
    (∀ cell ∈ cells, Binary cell → cell.judgedCaseCount = cell.caseCount →
      accuracy cell = correctCount cell / cell.results.length) ∧
    (∀ cells' pairs, cells'.Perm cells → PairsOf cells pairs →
      reportAccuracyDecision decimal plan.decision plan.selection cells'
          (comparisonDocuments decimal hash plan completeCoverage limitationsOf pairs) =
        reportAccuracyDecision decimal plan.decision plan.selection cells
          (comparisonDocuments decimal hash plan completeCoverage limitationsOf
            (combinations cells))) ∧
    ∀ cellId, (∃ decision, reportAccuracyDecision decimal plan.decision plan.selection cells
        (comparisonDocuments decimal hash plan completeCoverage limitationsOf
          (combinations cells)) = .ok decision ∧ decision.leaderCellId = some cellId) ↔
      ∃ leader thresholds, leader.cellId = cellId ∧
        Leads decimal plan completeCoverage limitationsOf cells leader thresholds := by
  refine ⟨fun left right paired hpaired ↦ ?_, exactMcnemarDocument_swap, ?_, ?_, ?_, ?_⟩
  · exact ⟨_, renderedValue_eq hpaired, rfl,
      FairCoin.twoSidedProbability_pos (Nat.le_add_right _ _), FairCoin.twoSidedProbability_le_one⟩
  · intro left hleft right hright limitations
    exact pairBody_swap plan (hbuilt left hleft) (hbuilt right hright) completeCoverage limitations
  · intro cell hcell hbinary hjudged
    exact (hbuilt cell hcell).accuracy_eq hbinary hjudged
  · intro cells' pairs hcells hpairs
    exact report_perm hbuilt hdistinct hcells (List.Perm.refl _) hpairs
  · exact exists_leader_iff hbuilt hdistinct (List.Perm.refl _)

end Report

/-! ### Sample cells -/

/-- Sixty cases with one outcome. -/
def sampleCases (metricId : String) (correct : ℤ) : List CaseRecord :=
  (List.range 60).map fun number ↦
    ⟨s!"case-{number}", "completed", "judged", some metricId, .integer correct, .integer 1⟩

/-- The snapshot of a cell whose cases have one outcome. -/
def sampleSnapshot (providerId revision metricId : String) (correct : ℤ) : CellSnapshot :=
  ⟨⟨providerId ++ "-lme60", providerId⟩, sampleCases metricId correct, [revision]⟩

/-- The document of a cell whose cases have one outcome. -/
def sampleCell (providerId revision metricId : String) (correct : ℤ) : CellDocument :=
  ⟨false, providerId ++ "-lme60", providerId, 60, metricId, 60, 60, 60 * correct, 60, [revision],
    sampleCases metricId correct⟩

def samplePlan : ResolvedPlan :=
  ⟨"comparison", "plan", "longmemeval-s-cleaned", "manifest", "lme60", some ⟨"0.05", "0.05"⟩⟩

def sampleDecimal (text : String) : Option ℚ := if text = "0.05" then some (1 / 20) else none

/-- Two cells of the same revision and metric. -/
def sampleCells : List CellDocument :=
  [sampleCell "mem0" "first" "accuracy" 1, sampleCell "openviking" "first" "accuracy" 0]

/-- Two cells whose capsules were written by different revisions. -/
def revisedCells : List CellDocument :=
  [sampleCell "mem0" "first" "accuracy" 1, sampleCell "openviking" "second" "accuracy" 0]

/-- Two cells that were judged by different metrics. -/
def mixedCells : List CellDocument :=
  [sampleCell "mem0" "first" "accuracy" 1, sampleCell "openviking" "first" "recall" 0]

theorem built_first : Built (sampleCell "mem0" "first" "accuracy" 1) :=
  Or.inl ⟨sampleSnapshot "mem0" "first" "accuracy" 1, by decide +kernel⟩

theorem built_sampleCells : ∀ cell ∈ sampleCells, Built cell := by
  rw [sampleCells, List.forall_mem_cons, List.forall_mem_singleton]
  exact ⟨built_first,
    Or.inl ⟨sampleSnapshot "openviking" "first" "accuracy" 0, by decide +kernel⟩⟩

theorem built_revisedCells : ∀ cell ∈ revisedCells, Built cell := by
  rw [revisedCells, List.forall_mem_cons, List.forall_mem_singleton]
  exact ⟨built_first,
    Or.inl ⟨sampleSnapshot "openviking" "second" "accuracy" 0, by decide +kernel⟩⟩

theorem built_mixedCells : ∀ cell ∈ mixedCells, Built cell := by
  rw [mixedCells, List.forall_mem_cons, List.forall_mem_singleton]
  exact ⟨built_first,
    Or.inl ⟨sampleSnapshot "openviking" "first" "recall" 0, by decide +kernel⟩⟩

/-- The leader of two cells. -/
theorem accuracyLeader_sound_sampleCells :
    (∃ decision, reportAccuracyDecision sampleDecimal samplePlan.decision samplePlan.selection
        sampleCells (comparisonDocuments sampleDecimal (fun _ ↦ "pair") samplePlan true (fun _ ↦ [])
          (combinations sampleCells)) = .ok decision ∧
        decision.leaderCellId = some "mem0-lme60") ↔
      ∃ leader thresholds, leader.cellId = "mem0-lme60" ∧
        Leads sampleDecimal samplePlan true (fun _ ↦ []) sampleCells leader thresholds :=
  (accuracyLeader_sound sampleDecimal (fun _ ↦ "pair") samplePlan true (fun _ ↦ [])
    built_sampleCells (by decide)).2.2.2.2.2 _

/-- A cell with complete coverage and the highest accuracy that meets both thresholds is not named
when its capsules were written by another revision, and a pair of cells with different metrics is
not the mirror image of the reversed one. -/
theorem leader_not_named :
    (∃ leader other, revisedCells = [leader, other] ∧
      (∀ cell ∈ revisedCells, Built cell ∧ closesCoverage 60 cell = true) ∧
      1 / 20 ≤ accuracy leader - accuracy other ∧
      (pairedAccuracyDocument leader other).any (fun paired ↦
        paired.leftCorrectRightWrong = 60 ∧ paired.leftWrongRightCorrect = 0) = true ∧
      FairCoin.twoSidedProbability (60 + 0) 60 ≤ 1 / 20 ∧
      (reportAccuracyDecision sampleDecimal samplePlan.decision samplePlan.selection revisedCells
        (comparisonDocuments sampleDecimal (fun _ ↦ "pair") samplePlan true (fun _ ↦ [])
          (combinations revisedCells))).toOption.map AccuracyDecision.leaderCellId = some none) ∧
    ∃ left ∈ mixedCells, ∃ right ∈ mixedCells, Built left ∧ Built right ∧
      (pairBody sampleDecimal samplePlan right left true []).metricId ≠
        (pairBody sampleDecimal samplePlan left right true []).metricId := by
  constructor
  · refine ⟨_, _, rfl, fun cell hcell ↦ ⟨built_revisedCells cell hcell, ?_⟩, ?_, ?_, ?_, ?_⟩
    · revert cell
      decide +kernel
    · norm_num [accuracy, sampleCell]
    · decide +kernel
    · rw [← mcnemarProbability_eq]
      decide +kernel
    · decide +kernel
  · have hleft : sampleCell "mem0" "first" "accuracy" 1 ∈ mixedCells := by simp [mixedCells]
    have hright : sampleCell "openviking" "first" "recall" 0 ∈ mixedCells := by simp [mixedCells]
    refine ⟨_, hleft, _, hright, built_mixedCells _ hleft, built_mixedCells _ hright, ?_⟩
    rw [pairBody, pairBody]
    decide

end Oamb.Reporting.AccuracyGuarantees
