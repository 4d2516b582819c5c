import Oamb.Foundation.FairCoin
import Oamb.Runtime.ResourceAmounts

/-!
# Accuracy of the cells of a report

A report reduces the cases of every provider cell to counts, compares every pair of cells, and names
a leader. A pair is compared by the difference of its accuracies and by the exact McNemar test of its
discordant cases; its decision names the better cell when the pair is comparable and both thresholds
are met. The report names the cell of the highest accuracy when all pairs with it name it.

The value of a decimal text is that of the decimal library, and the identity of a pair is a hash of
its members.
-/

set_option autoImplicit false

namespace Oamb.Reporting.AccuracyPairs

open Foundation
open Runtime.ResourceAmounts (pythonContext)

/-! ### Cases -/

/-- A member of a case record, as far as its readers tell values apart. -/
inductive Figure
  | integer (value : ℤ)
  | boolean (value : Bool)
  | real (value : Option ℚ)
  | other
  deriving DecidableEq

namespace Figure

/-- The value of an integer. Truth values are integers too. -/
def asInteger : Figure → Option ℤ
  | integer value => some value
  | boolean value => some value.toNat
  | real _ | other => none

/-- The value is an integer that is no truth value. -/
def asProperInteger : Figure → Option ℤ
  | integer value => some value
  | boolean _ | real _ | other => none

/-- The value is a number that is one, and no truth value. -/
def isOne : Figure → Bool
  | integer value => value = 1
  | real value => value = some 1
  | boolean _ | other => false

end Figure

/-- The part of a case record that is reported. -/
structure CaseRecord where
  caseManifestEntryId : String
  state : String
  evaluationDisposition : String
  metricId : Option String
  metricNumerator : Figure
  metricDenominator : Figure
  deriving DecidableEq

/-- Whether the answer of a judged case was right. -/
def binaryAccuracyOutcome (case : CaseRecord) : Option Bool :=
  if case.state ≠ "completed" ∨ case.evaluationDisposition ≠ "judged" then none
  else
    match case.metricNumerator.asProperInteger with
    | none => none
    | some numerator =>
      if (numerator ≠ 0 ∧ numerator ≠ 1) ∨ case.metricDenominator.isOne = false then none
      else some (numerator = 1)

/-! ### Cells -/

structure CellSpec where
  cellId : String
  providerId : String
  deriving DecidableEq

/-- The document of a cell, with what the accuracy of the report reads. -/
structure CellDocument where
  questionResults : Bool
  cellId : String
  providerId : String
  caseCount : ℕ
  metricId : String
  completedCaseCount : ℕ
  judgedCaseCount : ℕ
  judgedNumerator : ℤ
  judgedDenominator : ℤ
  codeRevisions : List String
  results : List CaseRecord
  deriving DecidableEq

/-- The snapshot of the capsules of a cell. -/
structure CellSnapshot where
  cell : CellSpec
  cases : List CaseRecord
  codeRevisions : List String

/-- The cases in the denominator of the accuracy. -/
def judgedCases (cases : List CaseRecord) : List CaseRecord :=
  cases.filter fun item ↦
    item.evaluationDisposition = "judged" ∧ item.metricNumerator.asInteger.isSome ∧
      item.metricDenominator.asInteger.isSome

/-- A member that is a text which is not empty. -/
def requiredText (field : String) : Option String → Except String String
  | none | some "" => .error s!"derived comparison requires text {field}"
  | some text => .ok text

/-- The sum of a member over the judged cases. -/
def sumFigures (figure : CaseRecord → Figure) (judged : List CaseRecord) : ℤ :=
  (judged.map fun item ↦ (figure item).asInteger.getD 0).sum

/-- The document of a cell from its case records. -/
def cellDocument (snapshot : CellSnapshot) : Except String CellDocument := do
  let judged := judgedCases snapshot.cases
  let metricIds ← judged.mapM fun item ↦ requiredText "metric_id" item.metricId
  let metricIds := metricIds.dedup
  if 1 < metricIds.length then
    throw s!"cell {snapshot.cell.cellId} mixes metric policies"
  return {
    questionResults := false
    cellId := snapshot.cell.cellId
    providerId := snapshot.cell.providerId
    caseCount := snapshot.cases.length
    metricId := metricIds.head?.getD "unavailable"
    completedCaseCount := (snapshot.cases.filter fun item ↦ item.state = "completed").length
    judgedCaseCount := judged.length
    judgedNumerator := sumFigures CaseRecord.metricNumerator judged
    judgedDenominator := sumFigures CaseRecord.metricDenominator judged
    codeRevisions := snapshot.codeRevisions
    results := snapshot.cases }

/-- The evaluation of a saved question result: it was judged, or it was not, for a reason. -/
inductive ResultEvaluation
  | judged (correct : Bool)
  | unjudged
  | notRun
  deriving DecidableEq

/-- The case document of a saved question result. -/
def questionResultCaseDocument (caseManifestEntryId : String) :
    ResultEvaluation → CaseRecord
  | .judged correct =>
    ⟨caseManifestEntryId, "completed", "judged", some "lme-judged-accuracy-v1",
      .integer correct.toNat, .integer 1⟩
  | .unjudged => ⟨caseManifestEntryId, "error", "unjudged", none, .other, .other⟩
  | .notRun => ⟨caseManifestEntryId, "error", "not_run", none, .other, .other⟩

/-- The document of a cell from saved question results, in the order of the manifest. -/
def questionResultCellDocument (cell : CellSpec) (results : List (String × ResultEvaluation)) :
    Except String CellDocument :=
  let cases := results.map fun item ↦ questionResultCaseDocument item.1 item.2
  let judged := cases.filter fun item ↦ item.evaluationDisposition = "judged"
  let metricIds := (judged.map fun item ↦ item.metricId.getD "None").dedup
  if 1 < metricIds.length then
    .error s!"cell {cell.cellId} mixes question-result metric policies"
  else
    .ok {
      questionResults := true
      cellId := cell.cellId
      providerId := cell.providerId
      caseCount := cases.length
      metricId := metricIds.head?.getD "unavailable"
      completedCaseCount := cases.length
      judgedCaseCount := judged.length
      judgedNumerator := sumFigures CaseRecord.metricNumerator judged
      judgedDenominator := sumFigures CaseRecord.metricDenominator judged
      codeRevisions := []
      results := cases }

/-! ### The exact McNemar test -/

/-- A fraction of a document. -/
structure FractionDocument where
  numerator : ℤ
  denominator : ℤ
  deriving DecidableEq

/-- The document of a rational number. -/
def FractionDocument.ofRat (value : ℚ) : FractionDocument := ⟨value.num, value.den⟩

/-- The value of a fraction whose denominator is positive. -/
def fractionValue : Option FractionDocument → Option ℚ
  | none => none
  | some fraction =>
    if fraction.denominator ≤ 0 then none else some (fraction.numerator / fraction.denominator)

structure McnemarDocument extends FractionDocument where
  display : String
  deriving DecidableEq

/-- A number of millionths with six decimal places. -/
def sixDecimalPlaces (millionths : ℕ) : String :=
  let digits := Nat.toDigits 10 (millionths % 10 ^ 6)
  s!"{millionths / 10 ^ 6}." ++ String.ofList (List.replicate (6 - digits.length) '0' ++ digits)

/-- A quotient of the decimal library, which is no more than one, with six decimal places. Half of a
millionth is rounded up. -/
def displayQuotient (value : ℚ) : String :=
  sixDecimalPlaces ⌊pythonContext.round value * 10 ^ 6 + 1 / 2⌋.toNat

/-- The probability of the exact McNemar test. -/
def mcnemarProbability (leftOnly rightOnly : ℕ) : ℚ :=
  let discordant := leftOnly + rightOnly
  if discordant = 0 then 1
  else min 1 (2 * FairCoin.lowerTail discordant (min leftOnly rightOnly) / 2 ^ discordant)

/-- The document of the exact McNemar test. -/
def exactMcnemarDocument (leftOnly rightOnly : ℕ) : McnemarDocument :=
  let probability := mcnemarProbability leftOnly rightOnly
  { FractionDocument.ofRat probability with display := displayQuotient probability }

/-! ### Pairs -/

structure PairedAccuracy where
  leftCorrectRightWrong : ℕ
  leftWrongRightCorrect : ℕ
  exactMcnemarTwoSided : McnemarDocument
  deriving DecidableEq

/-- The cases are keyed by their identities, which are texts that are not empty and distinct. -/
def keyed (results : List CaseRecord) : Bool :=
  results.all (fun result ↦ result.caseManifestEntryId ≠ "") &&
    decide (results.map CaseRecord.caseManifestEntryId).Nodup

/-- The case of an identity. -/
def caseOf (results : List CaseRecord) (caseId : String) : Option CaseRecord :=
  results.find? fun result ↦ result.caseManifestEntryId = caseId

/-- The outcomes of the cases of a cell with those of another, in the order of the first. -/
def pairedOutcomes (left right : List CaseRecord) : Option (List (Bool × Bool)) :=
  left.mapM fun result ↦ do
    let leftOutcome ← binaryAccuracyOutcome result
    let rightOutcome ← (caseOf right result.caseManifestEntryId).bind binaryAccuracyOutcome
    return (leftOutcome, rightOutcome)

/-- The document of discordant cases. -/
def discordantDocument (outcomes : List (Bool × Bool)) : PairedAccuracy :=
  let leftOnly := outcomes.countP fun outcome ↦ outcome.1 && !outcome.2
  let rightOnly := outcomes.countP fun outcome ↦ outcome.2 && !outcome.1
  ⟨leftOnly, rightOnly, exactMcnemarDocument leftOnly rightOnly⟩

/-- The discordant cases of a pair whose evidence is matched and binary. -/
def pairedAccuracyDocument (left right : CellDocument) : Option PairedAccuracy :=
  let leftIds := left.results.map CaseRecord.caseManifestEntryId
  let rightIds := right.results.map CaseRecord.caseManifestEntryId
  if keyed left.results ∧ keyed right.results ∧ leftIds ⊆ rightIds ∧ rightIds ⊆ leftIds ∧
      leftIds.length = left.caseCount then
    (pairedOutcomes left.results right.results).map discordantDocument
  else none

/-! ### Decisions -/

/-- The decision policy of a plan, as its texts. -/
structure DecisionConfiguration where
  minimumAccuracyDelta : String
  maximumExactMcnemarPValue : String
  deriving DecidableEq

structure Thresholds where
  minimumDelta : ℚ
  maximumPValue : ℚ
  text : String × String
  deriving DecidableEq

structure AccuracyDecision where
  status : String
  leaderCellId : Option String
  leaderProviderId : Option String
  minimumAccuracyDelta : String
  maximumExactMcnemarPValue : String
  failedPredicates : List String
  deriving DecidableEq

/-- The thresholds of a policy whose texts are finite numbers between zero and one. -/
def decisionThresholds (decimal : String → Option ℚ) :
    Option DecisionConfiguration → Option Thresholds
  | none => none
  | some decision => do
    let minimum ← decimal decision.minimumAccuracyDelta
    let maximum ← decimal decision.maximumExactMcnemarPValue
    if 0 ≤ minimum ∧ minimum ≤ 1 ∧ 0 ≤ maximum ∧ maximum ≤ 1 then
      return ⟨minimum, maximum,
        (decision.minimumAccuracyDelta, decision.maximumExactMcnemarPValue)⟩
    else none

def accuracyDecisionDocument (status : String) (leader : Option CellDocument)
    (thresholds : Option (String × String)) (failedPredicates : List String) : AccuracyDecision where
  status := status
  leaderCellId := leader.map CellDocument.cellId
  leaderProviderId := leader.map CellDocument.providerId
  minimumAccuracyDelta := (thresholds.map Prod.fst).getD "unavailable"
  maximumExactMcnemarPValue := (thresholds.map Prod.snd).getD "unavailable"
  failedPredicates := failedPredicates

/-- A decision that names no leader. -/
def noLeader (thresholds : Option Thresholds) (failedPredicates : List String) : AccuracyDecision :=
  accuracyDecisionDocument "no_clear_accuracy_leader" none (thresholds.map Thresholds.text)
    failedPredicates

/-- A decision that names a leader. -/
def observedLeader (thresholds : Thresholds) (leader : CellDocument) : AccuracyDecision :=
  accuracyDecisionDocument "observed_accuracy_leader" (some leader) (some thresholds.text) []

/-- The predicates of a pair that fail. -/
def failedPredicates (thresholds : Thresholds) (comparable completeCoverage : Bool)
    (delta probability : Option ℚ) : List String :=
  (if comparable = false ∨ completeCoverage = false then ["complete_equal_coverage"] else []) ++
    (if delta.all fun value ↦ |value| < thresholds.minimumDelta then ["minimum_accuracy_delta"]
      else []) ++
    (if probability.all fun value ↦ thresholds.maximumPValue < value then
      ["maximum_exact_mcnemar_p_value"] else [])

/-- The decision of a pair. -/
def pairAccuracyDecision (decimal : String → Option ℚ) (decision : Option DecisionConfiguration)
    (left right : CellDocument) (comparable completeCoverage : Bool)
    (signedDelta : Option FractionDocument) (pairedAccuracy : Option PairedAccuracy) :
    AccuracyDecision :=
  match decisionThresholds decimal decision with
  | none => noLeader none ["decision_policy_complete"]
  | some thresholds =>
    let delta := fractionValue signedDelta
    let probability :=
      fractionValue (pairedAccuracy.map fun paired ↦ paired.exactMcnemarTwoSided.toFractionDocument)
    let failed := failedPredicates thresholds comparable completeCoverage delta probability
    match delta with
    | none => noLeader (some thresholds) failed
    | some value =>
      if failed ≠ [] ∨ value = 0 then noLeader (some thresholds) failed
      else observedLeader thresholds (if 0 < value then left else right)

/-- The part of a plan that a pair reads. -/
structure ResolvedPlan where
  comparisonId : String
  resolvedPlanHash : String
  datasetId : String
  caseManifestHash : String
  selection : String
  decision : Option DecisionConfiguration

structure JudgedCounts where
  caseCount : ℕ
  numerator : ℤ
  denominator : ℤ
  deriving DecidableEq

/-- The members of a pair. A difference or an evidence that is absent is unavailable. -/
structure PairBody where
  comparisonProjectId : String
  resolvedPlanHash : String
  datasetId : String
  caseManifestHash : String
  leftCellId : String
  rightCellId : String
  leftProviderId : String
  rightProviderId : String
  caseCount : ℕ
  metricId : String
  leftJudged : JudgedCounts
  rightJudged : JudgedCounts
  signedDelta : Option FractionDocument
  pairedAccuracy : Option PairedAccuracy
  accuracyDecision : AccuracyDecision
  comparable : Bool
  limitations : List String
  deriving DecidableEq

/-- A pair with its identity. -/
structure PairDocument extends PairBody where
  comparisonId : String
  deriving DecidableEq

/-- The limitations of a pair before its evidence is matched. -/
def pairLimitations (left right : CellDocument) : List String :=
  (if (left.questionResults && right.questionResults) = false ∧
      (left.codeRevisions.length ≠ 1 ∨ right.codeRevisions.length ≠ 1 ∨
        left.codeRevisions ≠ right.codeRevisions) then
    ["pair does not share one identical singleton code revision"] else []) ++
  (if left.metricId = "unavailable" ∨ left.metricId ≠ right.metricId then
    ["metric policy or judged evidence is unavailable"] else []) ++
  (if left.judgedCaseCount ≠ left.caseCount ∨ right.judgedCaseCount ≠ right.caseCount then
    ["pair lacks complete judged case coverage"] else []) ++
  (if left.completedCaseCount ≠ left.caseCount ∨ right.completedCaseCount ≠ right.caseCount then
    ["pair lacks complete terminal case coverage"] else []) ++
  (if left.judgedDenominator = 0 ∨ right.judgedDenominator = 0 then
    ["pair has an empty judged denominator"] else [])

/-- The accuracy of a cell. -/
def accuracy (cell : CellDocument) : ℚ := cell.judgedNumerator / cell.judgedDenominator

/-- The members of a pair of cells. A pair is comparable when it has no limitation. -/
def pairBody (decimal : String → Option ℚ) (plan : ResolvedPlan) (left right : CellDocument)
    (completeCoverage : Bool) (additionalLimitations : List String) : PairBody :=
  let limitations := additionalLimitations ++ pairLimitations left right
  let paired := pairedAccuracyDocument left right
  let comparable := limitations.isEmpty && paired.isSome
  let signedDelta :=
    if comparable then some (.ofRat (accuracy left - accuracy right)) else none
  { comparisonProjectId := plan.comparisonId
    resolvedPlanHash := plan.resolvedPlanHash
    datasetId := plan.datasetId
    caseManifestHash := plan.caseManifestHash
    leftCellId := left.cellId
    rightCellId := right.cellId
    leftProviderId := left.providerId
    rightProviderId := right.providerId
    caseCount := left.caseCount
    metricId := left.metricId
    leftJudged := ⟨left.judgedCaseCount, left.judgedNumerator, left.judgedDenominator⟩
    rightJudged := ⟨right.judgedCaseCount, right.judgedNumerator, right.judgedDenominator⟩
    signedDelta := signedDelta
    pairedAccuracy := paired
    accuracyDecision := pairAccuracyDecision decimal plan.decision left right comparable
      completeCoverage signedDelta paired
    comparable := comparable
    limitations := if paired.isSome then limitations
      else limitations ++ ["pair lacks complete matched binary accuracy evidence"] }

/-- The document of a pair of cells. -/
def pairDocument (decimal : String → Option ℚ) (hash : PairBody → String) (plan : ResolvedPlan)
    (left right : CellDocument) (completeCoverage : Bool) (additionalLimitations : List String) :
    PairDocument :=
  let body := pairBody decimal plan left right completeCoverage additionalLimitations
  { body with comparisonId := hash body }

/-! ### The leader of a report -/

/-- The number of cases of a selection. -/
def expectedCaseCount (selection : String) : Option ℕ :=
  if selection = "lme6" then some 6
  else if selection = "lme30" then some 30
  else if selection = "lme60" then some 60
  else none

/-- Every case of the cell is completed and judged. -/
def closesCoverage (expected : ℕ) (cell : CellDocument) : Bool :=
  cell.caseCount = expected && cell.completedCaseCount = expected &&
    cell.judgedCaseCount = expected && cell.judgedDenominator = expected

/-- The pair involves the cell. -/
def involves (cell : CellDocument) (comparison : PairDocument) : Bool :=
  cell.cellId = comparison.leftCellId || cell.cellId = comparison.rightCellId

/-- The decision of the pair names the cell. -/
def names (cell : CellDocument) (comparison : PairDocument) : Bool :=
  comparison.accuracyDecision.status = "observed_accuracy_leader" &&
    comparison.accuracyDecision.leaderCellId = some cell.cellId

/-- The decision of a report. -/
def reportAccuracyDecision (decimal : String → Option ℚ) (decision : Option DecisionConfiguration)
    (selection : String) (cells : List CellDocument) (comparisons : List PairDocument) :
    Except String AccuracyDecision :=
  match decisionThresholds decimal decision with
  | none => .ok (noLeader none ["decision_policy_complete"])
  | some thresholds =>
    if (expectedCaseCount selection).any fun expected ↦ cells.all (closesCoverage expected) then
      match (cells.map accuracy).max? with
      | none => .error "max() iterable argument is empty"
      | some highest =>
        match cells.filter fun cell ↦ accuracy cell = highest with
        | [candidate] =>
          let candidatePairs := comparisons.filter (involves candidate)
          if candidatePairs.length = cells.length - 1 ∧ candidatePairs.all (names candidate) then
            .ok (observedLeader thresholds candidate)
          else .ok (noLeader (some thresholds) ["all_pairwise_thresholds"])
        | _ => .ok (noLeader (some thresholds) ["unique_highest_accuracy"])
    else .ok (noLeader (some thresholds) ["complete_equal_coverage"])

/-- The pairs of a list, each in the order of the list. -/
def combinations {α : Type} : List α → List (α × α)
  | [] => []
  | first :: rest => rest.map (first, ·) ++ combinations rest

/-- The documents of pairs of cells. The further limitations of a pair are those of its providers. -/
def comparisonDocuments (decimal : String → Option ℚ) (hash : PairBody → String)
    (plan : ResolvedPlan) (completeCoverage : Bool)
    (pairLimitations : Finset String → List String) (pairs : List (CellDocument × CellDocument)) :
    List PairDocument :=
  pairs.map fun pair ↦ pairDocument decimal hash plan pair.1 pair.2 completeCoverage
    (pairLimitations {pair.1.providerId, pair.2.providerId})

end Oamb.Reporting.AccuracyPairs
