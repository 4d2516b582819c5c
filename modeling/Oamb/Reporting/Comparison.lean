import Mathlib.Algebra.Order.Ring.Unbundled.Rat
import Oamb.Foundation.Dictionary

/-!
# Comparison of two runs

A comparison reads two snapshots of the controls of a run, the metric deltas of paired cases, and
the cost and winner evidence that its specification selects. Every control has a predicate, which
passes when both sides hold the same value, and evidence that is selected but absent has a predicate
that fails. The report states deltas, cost and a winner when every predicate passes. Otherwise it is
a report of another kind, which has no member for them.

Exact rationals are numerators and positive denominators in lowest terms: the rational numbers. The
hash of a canonical encoding is a function of the value that is encoded.
-/

set_option autoImplicit false

namespace Oamb.Reporting.Comparison

open Foundation

/-- A hash of a canonical encoding. -/
abbrev Sha256 := String

/-- The controls that both sides of a comparison hold, in this order. -/
def requiredComparisonControlIds : List String :=
  ["comparison.protocol-version.v1", "comparison.workload-version.v1",
    "comparison.dataset-revision.v1", "comparison.ordered-case-manifest.v1",
    "comparison.prompt-packs.v1", "comparison.output-contracts.v1",
    "comparison.metric-evaluation-policy.v1", "comparison.answer-role-binding.v1",
    "comparison.judge-role-binding.v1", "comparison.controlled-embedding.v1",
    "comparison.native-reranking-disabled.v1", "comparison.visible-context-policy.v1",
    "comparison.token-measurement-contract.v1", "comparison.resource-measurement-contract.v1",
    "comparison.cost-measurement-contract.v1", "comparison.query-effect-policy.v1",
    "comparison.retry-policy.v1", "comparison.failure-denominator-policy.v1"]

def costEvidencePredicateId : String := "comparison.selected-cost-evidence.v1"

def winnerEvidencePredicateId : String := "comparison.selected-winner-evidence.v1"

/-! ### Specifications -/

inductive ComparisonCostView
  | none
  | rawResource
  | actualCharge
  | declaredRateEstimate
  deriving DecidableEq

inductive CostBasis
  | rawResource
  | actualSupplierCharge
  | estimateFromMeasuredUsage
  deriving DecidableEq

/-- A pair of cases that are compared. Its identity is the hash of its members. -/
structure ComparisonPairBinding where
  caseManifestEntryId : String
  leftCaseOccurrenceId : String
  rightCaseOccurrenceId : String
  metricId : String
  deriving DecidableEq

/-- The basis and the monetary policy of a selected cost view agree. -/
def CostPolicyCloses (view : ComparisonCostView) (basis : CostBasis)
    (currency pricePolicyHash fxPolicyHash : Option String) : Prop :=
  match view with
  | .none => False
  | .rawResource =>
    basis = .rawResource ∧ currency = none ∧ pricePolicyHash = none ∧ fxPolicyHash = none
  | .actualCharge =>
    basis = .actualSupplierCharge ∧ currency.any (·.length = 3) ∧ pricePolicyHash ≠ none
  | .declaredRateEstimate =>
    basis = .estimateFromMeasuredUsage ∧ currency.any (·.length = 3) ∧ pricePolicyHash ≠ none

structure ComparisonCostControl where
  view : ComparisonCostView
  dimensionId : String
  unit : String
  basis : CostBasis
  currency : Option String
  environmentHash : Sha256
  measurementSpecHash : Sha256
  pricePolicyHash : Option Sha256
  fxPolicyHash : Option Sha256
  closes : CostPolicyCloses view basis currency pricePolicyHash fxPolicyHash

structure ComparisonWinnerReducer where
  reducerId : String
  reducerVersion : ℕ
  metricId : String
  denominator : ℕ
  aggregateContractHash : Sha256
  deriving DecidableEq

/-! ### Deltas -/

/-- A value on each side, with their exact difference. -/
structure ExactDelta where
  left : ℚ
  right : ℚ
  signedDelta : ℚ
  absoluteDelta : ℚ
  signed_closes : signedDelta = left - right
  absolute_closes : absoluteDelta = |left - right|
  deriving DecidableEq

structure PairedMetricDelta extends ExactDelta where
  caseManifestEntryId : String
  leftCaseOccurrenceId : String
  rightCaseOccurrenceId : String
  metricId : String
  deriving DecidableEq

structure AggregateMetricDelta extends ExactDelta where
  reducerId : String
  reducerVersion : ℕ
  metricId : String
  denominator : ℕ
  aggregateContractHash : Sha256
  deriving DecidableEq

/-- The monetary members of a cost delta agree with its view. -/
def CostDeltaCloses (view : ComparisonCostView) (basis : CostBasis) (currency : Option String) :
    Prop :=
  if view = .rawResource then basis = .rawResource ∧ currency = none
  else currency.any (·.length = 3)

structure ComparisonCostDelta extends ExactDelta where
  costControlHash : Sha256
  view : ComparisonCostView
  dimensionId : String
  unit : String
  basis : CostBasis
  currency : Option String
  closes : CostDeltaCloses view basis currency

/-! ### Reports -/

structure ComparisonPredicateResult where
  ruleId : String
  expectedHash : Sha256
  leftHash : Sha256
  rightHash : Sha256
  passed : Bool
  deriving DecidableEq

inductive Winner
  | left
  | right
  | tie
  deriving DecidableEq

/-- The members that the identity of a report is computed from. -/
structure ComparisonFields where
  comparisonSpecHash : Sha256
  orderedSourceRootHashes : Sha256 × Sha256
  predicates : List ComparisonPredicateResult
  pairedMetricDeltas : List PairedMetricDelta
  aggregateMetricDelta : Option AggregateMetricDelta
  costDelta : Option ComparisonCostDelta
  winner : Option Winner
  limitations : List String

/-- The values that are hashed. -/
inductive Payload
  | comparisonPair (binding : ComparisonPairBinding)
  | comparisonSpec (leftRunId rightRunId : String) (costView : ComparisonCostView)
      (orderedPairBindings : List ComparisonPairBinding) (requiredControlIds : List String)
      (comparisonPolicyHash : Sha256) (winnerReducer : Option ComparisonWinnerReducer)
      (costControl : Option ComparisonCostControl)
  | costControl (control : ComparisonCostControl)
  | missingEvidence (ruleId side : String)
  | comparisonReport (fields : ComparisonFields)

/-- The common members of both kinds of reports. -/
structure ReportBasis where
  comparisonId : Sha256
  comparisonSpecHash : Sha256
  orderedSourceRootHashes : Sha256 × Sha256
  predicates : List ComparisonPredicateResult
  limitations : List String

structure ComparableComparisonReport extends ReportBasis where
  pairedMetricDeltas : List PairedMetricDelta
  aggregateMetricDelta : Option AggregateMetricDelta
  costDelta : Option ComparisonCostDelta
  winner : Option Winner

inductive ComparisonReport
  | comparable (report : ComparableComparisonReport)
  | incomparable (report : ReportBasis)

/-- The validation of a report whose predicates pass. -/
def ComparableComparisonReport.refusal (report : ComparableComparisonReport) : Option String :=
  if report.predicates = [] then some "comparison requires a closed predicate inventory"
  else if ¬ (report.predicates.map ComparisonPredicateResult.ruleId).Nodup then
    some "comparison predicate inventory contains duplicates"
  else if ¬ report.predicates.all ComparisonPredicateResult.passed then
    some "comparable comparison requires every predicate to pass"
  else if report.aggregateMetricDelta.isNone ≠ report.winner.isNone then
    some "winner requires exactly one validated aggregate metric delta"
  else
    match report.aggregateMetricDelta with
    | none => none
    | some delta =>
      let expected :=
        if 0 < delta.signedDelta then Winner.left
        else if delta.signedDelta < 0 then Winner.right
        else Winner.tie
      if report.winner ≠ some expected then
        some "winner does not match the validated aggregate metric delta"
      else none

/-- The validation of a report with a predicate that fails. -/
def ReportBasis.refusal (report : ReportBasis) : Option String :=
  if report.predicates = [] then some "comparison requires a closed predicate inventory"
  else if ¬ (report.predicates.map ComparisonPredicateResult.ruleId).Nodup then
    some "comparison predicate inventory contains duplicates"
  else if report.predicates.all ComparisonPredicateResult.passed then
    some "incomparable comparison requires a failed predicate"
  else if report.limitations = [] then
    some "incomparable comparison requires explicit limitations"
  else none

/-! ### The evaluation -/

structure ComparisonControlBinding where
  controlId : String
  valueHash : Sha256
  deriving DecidableEq

/-- The controls of one run. -/
structure ComparisonControlSnapshot where
  runId : String
  sourceRootHash : Sha256
  controls : List ComparisonControlBinding
  nonempty : controls ≠ []
  unique : (controls.map ComparisonControlBinding.controlId).Nodup

variable {canonicalSha256 : Payload → Sha256}

/-- What a comparison selects. -/
structure ComparisonSpec (canonicalSha256 : Payload → Sha256) where
  leftRunId : String
  rightRunId : String
  costView : ComparisonCostView
  orderedPairBindings : List ComparisonPairBinding
  requiredControlIds : List String
  comparisonPolicyHash : Sha256
  winnerReducer : Option ComparisonWinnerReducer
  costControl : Option ComparisonCostControl
  distinct_runs : leftRunId ≠ rightRunId
  pairs_nonempty : orderedPairBindings ≠ []
  pairs_distinct : (orderedPairBindings.map (canonicalSha256 ∘ Payload.comparisonPair)).Nodup
  controls_nonempty : requiredControlIds ≠ []
  controls_distinct : requiredControlIds.Nodup
  costControl_eq_none : costView = .none ↔ costControl = none
  costControl_view : ∀ control, costControl = some control → control.view = costView

/-- The identity of a specification. -/
def ComparisonSpec.comparisonSpecId (spec : ComparisonSpec canonicalSha256) : Sha256 :=
  canonicalSha256 (.comparisonSpec spec.leftRunId spec.rightRunId spec.costView
    spec.orderedPairBindings spec.requiredControlIds spec.comparisonPolicyHash spec.winnerReducer
    spec.costControl)

/-- The values of the controls of a snapshot that holds exactly the required ones. -/
def closedControlMap (snapshot : ComparisonControlSnapshot) :
    Except String (Dictionary String Sha256) :=
  if snapshot.controls.map ComparisonControlBinding.controlId ≠ requiredComparisonControlIds then
    .error "snapshot does not contain the closed comparison control inventory"
  else .ok (Dictionary.ofList (snapshot.controls.map fun item ↦ (item.controlId, item.valueHash)))

/-- The value of a control in a closed map, which holds all of them. -/
def controlValue (controls : Dictionary String Sha256) (controlId : String) : Sha256 :=
  (controls.lookup controlId).getD ""

/-- The predicate of a control: both sides hold the same value. -/
def controlPredicate (leftControls rightControls : Dictionary String Sha256) (controlId : String) :
    ComparisonPredicateResult where
  ruleId := controlId
  expectedHash := controlValue leftControls controlId
  leftHash := controlValue leftControls controlId
  rightHash := controlValue rightControls controlId
  passed := controlValue leftControls controlId = controlValue rightControls controlId

def requirePairInventory (spec : ComparisonSpec canonicalSha256)
    (deltas : List PairedMetricDelta) : Except String Unit :=
  if (deltas.map fun item ↦ (item.caseManifestEntryId, item.leftCaseOccurrenceId,
      item.rightCaseOccurrenceId, item.metricId)) ≠
    spec.orderedPairBindings.map fun item ↦ (item.caseManifestEntryId, item.leftCaseOccurrenceId,
      item.rightCaseOccurrenceId, item.metricId)
  then .error "paired metric delta inventory is missing, duplicated, or reordered"
  else .ok ()

def admitCostDelta (spec : ComparisonSpec canonicalSha256) (costDelta : Option ComparisonCostDelta) :
    Except String (Option ComparisonCostDelta) :=
  if spec.costView = .none then
    match costDelta with
    | some _ => .error "cost delta is forbidden when the selected cost view is none"
    | none => .ok none
  else
    match costDelta, spec.costControl with
    | none, _ => .ok none
    | some _, none => .error "assertion failed: the specification has no cost control"
    | some delta, some control =>
      if delta.costControlHash ≠ canonicalSha256 (.costControl control) ∨
          delta.view ≠ control.view ∨ delta.dimensionId ≠ control.dimensionId ∨
          delta.unit ≠ control.unit ∨ delta.basis ≠ control.basis ∨
          delta.currency ≠ control.currency then
        .error "cost delta does not bind the selected cost comparison contract"
      else .ok (some delta)

def admitAggregateDelta (spec : ComparisonSpec canonicalSha256)
    (aggregateMetricDelta : Option AggregateMetricDelta) :
    Except String (Option AggregateMetricDelta) :=
  match spec.winnerReducer, aggregateMetricDelta with
  | none, some _ => .error "aggregate winner evidence requires a winner reducer"
  | _, none => .ok none
  | some reducer, some delta =>
    if delta.reducerId ≠ reducer.reducerId ∨ delta.reducerVersion ≠ reducer.reducerVersion ∨
        delta.metricId ≠ reducer.metricId ∨ delta.denominator ≠ reducer.denominator ∨
        delta.aggregateContractHash ≠ reducer.aggregateContractHash then
      .error "aggregate metric delta does not bind the selected winner reducer"
    else .ok (some delta)

def winnerFromAggregate (aggregateMetricDelta : Option AggregateMetricDelta) : Option Winner :=
  aggregateMetricDelta.map fun delta ↦
    if 0 < delta.signedDelta.num then .left
    else if delta.signedDelta.num < 0 then .right
    else .tie

def missingEvidencePredicate (canonicalSha256 : Payload → Sha256) (ruleId : String)
    (expectedHash : Sha256) : ComparisonPredicateResult where
  ruleId := ruleId
  expectedHash := expectedHash
  leftHash := canonicalSha256 (.missingEvidence ruleId "left")
  rightHash := canonicalSha256 (.missingEvidence ruleId "right")
  passed := false

/-- The cost evidence is selected but absent. -/
def MissesCostEvidence (spec : ComparisonSpec canonicalSha256)
    (admittedCostDelta : Option ComparisonCostDelta) : Prop :=
  spec.costView ≠ .none ∧ admittedCostDelta.isNone

instance decidableMissesCostEvidence (spec : ComparisonSpec canonicalSha256)
    (admittedCostDelta : Option ComparisonCostDelta) :
    Decidable (MissesCostEvidence spec admittedCostDelta) :=
  inferInstanceAs (Decidable (_ ∧ _))

/-- The winner evidence is selected but absent. -/
def MissesWinnerEvidence (spec : ComparisonSpec canonicalSha256)
    (admittedAggregate : Option AggregateMetricDelta) : Prop :=
  spec.winnerReducer.isSome ∧ admittedAggregate.isNone

instance decidableMissesWinnerEvidence (spec : ComparisonSpec canonicalSha256)
    (admittedAggregate : Option AggregateMetricDelta) :
    Decidable (MissesWinnerEvidence spec admittedAggregate) :=
  inferInstanceAs (Decidable (_ ∧ _))

/-- All predicates of a comparison. -/
def comparisonPredicates (spec : ComparisonSpec canonicalSha256)
    (leftControls rightControls : Dictionary String Sha256)
    (admittedCostDelta : Option ComparisonCostDelta)
    (admittedAggregate : Option AggregateMetricDelta) : List ComparisonPredicateResult :=
  requiredComparisonControlIds.map (controlPredicate leftControls rightControls) ++
    (if MissesCostEvidence spec admittedCostDelta then
      [missingEvidencePredicate canonicalSha256 costEvidencePredicateId spec.comparisonSpecId]
    else []) ++
    (if MissesWinnerEvidence spec admittedAggregate then
      [missingEvidencePredicate canonicalSha256 winnerEvidencePredicateId spec.comparisonSpecId]
    else [])

/-- The limitations of a comparison, one for each predicate that fails. -/
def comparisonLimitations (spec : ComparisonSpec canonicalSha256)
    (leftControls rightControls : Dictionary String Sha256)
    (admittedCostDelta : Option ComparisonCostDelta)
    (admittedAggregate : Option AggregateMetricDelta) : List String :=
  (((requiredComparisonControlIds.map (controlPredicate leftControls rightControls)).filter
      fun item ↦ ¬ item.passed).map fun item ↦ "comparison control mismatch: " ++ item.ruleId) ++
    (if MissesCostEvidence spec admittedCostDelta then
      ["selected cost comparison evidence is unavailable"] else []) ++
    (if MissesWinnerEvidence spec admittedAggregate then
      ["selected winner aggregate evidence is unavailable"] else [])

/-- The report over given predicates. Claims are kept when every predicate passes. -/
def buildReport (canonicalSha256 : Payload → Sha256) (comparisonSpecId : Sha256)
    (orderedSourceRootHashes : Sha256 × Sha256) (predicates : List ComparisonPredicateResult)
    (limitations : List String) (pairedMetricDeltas : List PairedMetricDelta)
    (aggregateMetricDelta : Option AggregateMetricDelta)
    (costDelta : Option ComparisonCostDelta) : Except String ComparisonReport :=
  let comparable := predicates.all ComparisonPredicateResult.passed
  let admittedDeltas := if comparable then pairedMetricDeltas else []
  let admittedAggregate := if comparable then aggregateMetricDelta else none
  let admittedCostDelta := if comparable then costDelta else none
  let winner := winnerFromAggregate admittedAggregate
  let common : ReportBasis :=
    { comparisonId := canonicalSha256 (.comparisonReport ⟨comparisonSpecId,
        orderedSourceRootHashes, predicates, admittedDeltas, admittedAggregate, admittedCostDelta,
        winner, limitations⟩)
      comparisonSpecHash := comparisonSpecId
      orderedSourceRootHashes := orderedSourceRootHashes
      predicates := predicates
      limitations := limitations }
  if comparable then
    let report : ComparableComparisonReport :=
      ⟨common, admittedDeltas, admittedAggregate, admittedCostDelta, winner⟩
    match report.refusal with
    | some error => .error error
    | none => .ok (.comparable report)
  else
    match common.refusal with
    | some error => .error error
    | none => .ok (.incomparable common)

/-- The arguments of a comparison. -/
structure ComparisonRequest (canonicalSha256 : Payload → Sha256) where
  spec : ComparisonSpec canonicalSha256
  left : ComparisonControlSnapshot
  right : ComparisonControlSnapshot
  pairedMetricDeltas : List PairedMetricDelta
  aggregateMetricDelta : Option AggregateMetricDelta
  costDelta : Option ComparisonCostDelta

/-- Evaluate every predicate before any paired claim is admitted. -/
def evaluateComparison (request : ComparisonRequest canonicalSha256) :
    Except String ComparisonReport :=
  if request.spec.requiredControlIds ≠ requiredComparisonControlIds then
    .error "comparison spec does not contain the closed comparison control inventory"
  else if request.left.runId ≠ request.spec.leftRunId ∨
      request.right.runId ≠ request.spec.rightRunId then
    .error "comparison snapshots do not bind the selected run order"
  else do
    requirePairInventory request.spec request.pairedMetricDeltas
    let leftControls ← closedControlMap request.left
    let rightControls ← closedControlMap request.right
    let costDelta ← admitCostDelta request.spec request.costDelta
    let aggregate ← admitAggregateDelta request.spec request.aggregateMetricDelta
    buildReport canonicalSha256 request.spec.comparisonSpecId
      (request.left.sourceRootHash, request.right.sourceRootHash)
      (comparisonPredicates request.spec leftControls rightControls costDelta aggregate)
      (comparisonLimitations request.spec leftControls rightControls costDelta aggregate)
      request.pairedMetricDeltas aggregate costDelta

end Oamb.Reporting.Comparison
