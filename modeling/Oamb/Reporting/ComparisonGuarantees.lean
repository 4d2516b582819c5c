import Mathlib.Tactic.NormNum
import Oamb.Reporting.Comparison

/-!
# What a comparison claims

`FailClosed` says that a report claims nothing unless all its predicates pass, and that a control
with different values and absent evidence are named in a report without claims. `MirroredResult`
relates the results of a comparison and of the comparison with its sides exchanged: deltas are
negated, the winner is the other side, and the verdict is the same.
`failClosed_and_mirrored_of_request` proves both for every comparison, together with the condition
for which a report exists at all.
-/

set_option autoImplicit false

namespace Oamb.Reporting.ComparisonGuarantees

open Foundation
open Comparison

variable {canonicalSha256 : Payload → Sha256}

/-! ### The members of a report -/

section Report

variable (report : ComparisonReport)

def basis : ReportBasis :=
  match report with
  | .comparable claims => claims.toReportBasis
  | .incomparable basis => basis

def isComparable : Bool :=
  match report with
  | .comparable _ => true
  | .incomparable _ => false

def claimedDeltas : List PairedMetricDelta :=
  match report with
  | .comparable claims => claims.pairedMetricDeltas
  | .incomparable _ => []

def claimedAggregate : Option AggregateMetricDelta :=
  match report with
  | .comparable claims => claims.aggregateMetricDelta
  | .incomparable _ => none

def claimedCost : Option ComparisonCostDelta :=
  match report with
  | .comparable claims => claims.costDelta
  | .incomparable _ => none

def claimedWinner : Option Winner :=
  match report with
  | .comparable claims => claims.winner
  | .incomparable _ => none

/-- The report has no claims and names a predicate that fails, with a limitation. -/
structure NamesFailure (ruleId limitation : String) : Prop where
  incomparable : isComparable report = false
  predicate : ∃ predicate ∈ (basis report).predicates,
    predicate.ruleId = ruleId ∧ predicate.passed = false
  limitation : limitation ∈ (basis report).limitations

end Report

/-! ### Requests that bind -/

/-- The controls of a snapshot are the required ones. -/
def HoldsControls (snapshot : ComparisonControlSnapshot) : Prop :=
  snapshot.controls.map ComparisonControlBinding.controlId = requiredComparisonControlIds

/-- The sides and the evidence of a request bind its specification. -/
structure Binds (request : ComparisonRequest canonicalSha256) : Prop where
  inventory : request.spec.requiredControlIds = requiredComparisonControlIds
  left_run : request.left.runId = request.spec.leftRunId
  right_run : request.right.runId = request.spec.rightRunId
  pairs : requirePairInventory request.spec request.pairedMetricDeltas = .ok ()
  left_controls : HoldsControls request.left
  right_controls : HoldsControls request.right
  cost : admitCostDelta request.spec request.costDelta = .ok request.costDelta
  aggregate : admitAggregateDelta request.spec request.aggregateMetricDelta =
    .ok request.aggregateMetricDelta

/-- The report of a request claims nothing that a predicate forbids, and names what is wrong. -/
structure FailClosed (request : ComparisonRequest canonicalSha256) (report : ComparisonReport) :
    Prop where
  verdict : isComparable report = true ↔
    ∀ predicate ∈ (basis report).predicates, predicate.passed = true
  claims : claimedDeltas report ≠ [] ∨ claimedAggregate report ≠ none ∨
    claimedCost report ≠ none ∨ claimedWinner report ≠ none →
      ∀ predicate ∈ (basis report).predicates, predicate.passed = true
  admitted : isComparable report = true →
    claimedDeltas report = request.pairedMetricDeltas ∧
      claimedAggregate report = request.aggregateMetricDelta ∧
      claimedCost report = request.costDelta ∧
      claimedWinner report = winnerFromAggregate request.aggregateMetricDelta
  control : ∀ left ∈ request.left.controls, ∀ right ∈ request.right.controls,
    left.controlId = right.controlId → left.valueHash ≠ right.valueHash →
      NamesFailure report left.controlId ("comparison control mismatch: " ++ left.controlId)
  controls : HoldsControls request.left ∧ HoldsControls request.right
  cost : request.spec.costView ≠ .none → request.costDelta = none →
    NamesFailure report costEvidencePredicateId "selected cost comparison evidence is unavailable"
  winner : request.spec.winnerReducer ≠ none → request.aggregateMetricDelta = none →
    NamesFailure report winnerEvidencePredicateId
      "selected winner aggregate evidence is unavailable"

/-! ### Exchanged sides -/

def mirrorWinner : Winner → Winner
  | .left => .right
  | .right => .left
  | .tie => .tie

/-- The difference with its sides exchanged. -/
def mirrorExact (delta : ExactDelta) : ExactDelta where
  left := delta.right
  right := delta.left
  signedDelta := -delta.signedDelta
  absoluteDelta := delta.absoluteDelta
  signed_closes := by rw [delta.signed_closes, neg_sub]
  absolute_closes := by rw [delta.absolute_closes, abs_sub_comm]

def mirrorPaired (delta : PairedMetricDelta) : PairedMetricDelta :=
  { delta with
    toExactDelta := mirrorExact delta.toExactDelta
    leftCaseOccurrenceId := delta.rightCaseOccurrenceId
    rightCaseOccurrenceId := delta.leftCaseOccurrenceId }

def mirrorAggregate (delta : AggregateMetricDelta) : AggregateMetricDelta :=
  { delta with toExactDelta := mirrorExact delta.toExactDelta }

def mirrorCost (delta : ComparisonCostDelta) : ComparisonCostDelta :=
  { delta with toExactDelta := mirrorExact delta.toExactDelta }

def mirrorBinding (binding : ComparisonPairBinding) : ComparisonPairBinding :=
  { binding with
    leftCaseOccurrenceId := binding.rightCaseOccurrenceId
    rightCaseOccurrenceId := binding.leftCaseOccurrenceId }

/-- A specification of the same comparison with the sides exchanged. -/
structure MirrorsSpec (spec mirrored : ComparisonSpec canonicalSha256) : Prop where
  left_run : mirrored.leftRunId = spec.rightRunId
  right_run : mirrored.rightRunId = spec.leftRunId
  costView : mirrored.costView = spec.costView
  pairs : mirrored.orderedPairBindings = spec.orderedPairBindings.map mirrorBinding
  required : mirrored.requiredControlIds = spec.requiredControlIds
  winnerReducer : mirrored.winnerReducer = spec.winnerReducer
  costControl : mirrored.costControl = spec.costControl

/-- The request with its sides exchanged. -/
def mirrorRequest (request : ComparisonRequest canonicalSha256)
    (spec : ComparisonSpec canonicalSha256) : ComparisonRequest canonicalSha256 where
  spec := spec
  left := request.right
  right := request.left
  pairedMetricDeltas := request.pairedMetricDeltas.map mirrorPaired
  aggregateMetricDelta := request.aggregateMetricDelta.map mirrorAggregate
  costDelta := request.costDelta.map mirrorCost

/-- The report of the comparison with its sides exchanged. -/
structure MirrorsReport (report mirrored : ComparisonReport) : Prop where
  verdict : isComparable mirrored = isComparable report
  deltas : claimedDeltas mirrored = (claimedDeltas report).map mirrorPaired
  aggregate : claimedAggregate mirrored = (claimedAggregate report).map mirrorAggregate
  cost : claimedCost mirrored = (claimedCost report).map mirrorCost
  winner : claimedWinner mirrored = (claimedWinner report).map mirrorWinner
  roots : (basis mirrored).orderedSourceRootHashes = (basis report).orderedSourceRootHashes.swap
  predicates : ((basis mirrored).predicates.map fun predicate ↦
      (predicate.ruleId, predicate.passed)) =
    (basis report).predicates.map fun predicate ↦ (predicate.ruleId, predicate.passed)
  limitations : (basis mirrored).limitations = (basis report).limitations

/-- Both comparisons are refused for the same reason, or both have reports. -/
inductive MirroredResult : Except String ComparisonReport → Except String ComparisonReport → Prop
  | refused (error : String) : MirroredResult (.error error) (.error error)
  | reported {report mirrored : ComparisonReport} (hreports : MirrorsReport report mirrored) :
      MirroredResult (.ok report) (.ok mirrored)

/-! ### The report over predicates -/

/-- The members of a report over given predicates. -/
structure ReportsOver (roots : Sha256 × Sha256) (predicates : List ComparisonPredicateResult)
    (limitations : List String) (deltas : List PairedMetricDelta)
    (aggregate : Option AggregateMetricDelta) (cost : Option ComparisonCostDelta)
    (report : ComparisonReport) : Prop where
  roots_eq : (basis report).orderedSourceRootHashes = roots
  predicates_eq : (basis report).predicates = predicates
  limitations_eq : (basis report).limitations = limitations
  verdict_eq : isComparable report = predicates.all ComparisonPredicateResult.passed
  deltas_eq : claimedDeltas report = if isComparable report then deltas else []
  aggregate_eq : claimedAggregate report = if isComparable report then aggregate else none
  cost_eq : claimedCost report = if isComparable report then cost else none
  winner_eq : claimedWinner report =
    if isComparable report then winnerFromAggregate aggregate else none

/-- The winner of a delta is the one that the validation of a report expects. -/
theorem refusal_comparable {report : ComparableComparisonReport}
    (hsome : report.predicates ≠ [])
    (hdistinct : (report.predicates.map ComparisonPredicateResult.ruleId).Nodup)
    (hpasses : report.predicates.all ComparisonPredicateResult.passed = true)
    (hwinner : report.winner = winnerFromAggregate report.aggregateMetricDelta) :
    report.refusal = none := by
  rw [ComparableComparisonReport.refusal, if_neg hsome, if_neg (not_not.mpr hdistinct),
    if_neg (not_not.mpr hpasses), hwinner]
  cases report.aggregateMetricDelta with
  | none => simp [winnerFromAggregate]
  | some delta => simp [winnerFromAggregate]

theorem refusal_incomparable {report : ReportBasis} (hsome : report.predicates ≠ [])
    (hdistinct : (report.predicates.map ComparisonPredicateResult.ruleId).Nodup)
    (hfails : ¬ report.predicates.all ComparisonPredicateResult.passed = true)
    (hlimitations : report.limitations ≠ []) : report.refusal = none := by
  rw [ReportBasis.refusal, if_neg hsome, if_neg (not_not.mpr hdistinct), if_neg hfails,
    if_neg hlimitations]

variable (canonicalSha256) in
/-- A report exists over different predicates when a limitation stands with each that fails. -/
theorem exists_buildReport {specId : Sha256} {roots : Sha256 × Sha256}
    {predicates : List ComparisonPredicateResult} {limitations : List String}
    (deltas : List PairedMetricDelta) (aggregate : Option AggregateMetricDelta)
    (cost : Option ComparisonCostDelta) (hsome : predicates ≠ [])
    (hdistinct : (predicates.map ComparisonPredicateResult.ruleId).Nodup)
    (hlimitations : ¬ predicates.all ComparisonPredicateResult.passed = true →
      limitations ≠ []) :
    ∃ report, buildReport canonicalSha256 specId roots predicates limitations deltas aggregate
        cost = .ok report ∧
      ReportsOver roots predicates limitations deltas aggregate cost report := by
  by_cases hpasses : predicates.all ComparisonPredicateResult.passed = true
  · simp only [buildReport, hpasses, if_true]
    rw [refusal_comparable hsome hdistinct hpasses rfl]
    exact ⟨_, rfl, rfl, rfl, rfl, hpasses.symm, rfl, rfl, rfl, rfl⟩
  · simp only [buildReport, hpasses]
    rw [refusal_incomparable hsome hdistinct hpasses (hlimitations hpasses)]
    exact ⟨_, rfl, rfl, rfl, rfl, (Bool.eq_false_iff.mpr hpasses).symm, rfl, rfl, rfl, rfl⟩

/-! ### The predicates of a comparison -/

section Predicates

variable (spec : ComparisonSpec canonicalSha256) (leftControls rightControls : Dictionary String Sha256)
  (cost : Option ComparisonCostDelta) (aggregate : Option AggregateMetricDelta)

theorem comparisonPredicates_ne_nil :
    comparisonPredicates spec leftControls rightControls cost aggregate ≠ [] := by
  simp [comparisonPredicates, requiredComparisonControlIds]

/-- The rules of a comparison: the controls, and the evidence that is absent. -/
theorem nodup_ruleIds : ((comparisonPredicates spec leftControls rightControls cost aggregate).map
    ComparisonPredicateResult.ruleId).Nodup := by
  have hall : (requiredComparisonControlIds ++ [costEvidencePredicateId] ++
      [winnerEvidencePredicateId]).Nodup := by
    decide
  refine hall.sublist ?_
  have hcontrols : (requiredComparisonControlIds.map
      (controlPredicate leftControls rightControls)).map ComparisonPredicateResult.ruleId =
      requiredComparisonControlIds := by
    rw [List.map_map]
    exact List.map_id _
  rw [comparisonPredicates, List.map_append, List.map_append, hcontrols]
  refine ((List.Sublist.refl _).append ?_).append ?_
  · split
    · exact List.Sublist.refl _
    · exact List.nil_sublist _
  · split
    · exact List.Sublist.refl _
    · exact List.nil_sublist _

/-- A comparison without limitations has no predicate that fails. -/
theorem comparisonLimitations_ne_nil
    (hfails : ¬ (comparisonPredicates spec leftControls rightControls cost aggregate).all
      ComparisonPredicateResult.passed = true) :
    comparisonLimitations spec leftControls rightControls cost aggregate ≠ [] := by
  intro hnone
  apply hfails
  simp only [comparisonLimitations, List.append_eq_nil_iff, List.map_eq_nil_iff,
    List.filter_eq_nil_iff] at hnone
  obtain ⟨⟨hcontrols, hcost⟩, hwinner⟩ := hnone
  rw [comparisonPredicates, List.all_append, List.all_append]
  have hcostAbsent : ¬ MissesCostEvidence spec cost := by
    intro hmisses
    rw [if_pos hmisses] at hcost
    cases hcost
  have hwinnerAbsent : ¬ MissesWinnerEvidence spec aggregate := by
    intro hmisses
    rw [if_pos hmisses] at hwinner
    cases hwinner
  rw [if_neg hcostAbsent, if_neg hwinnerAbsent]
  simpa using hcontrols

variable {spec leftControls rightControls cost aggregate}

theorem controlPredicate_mem {controlId : String}
    (hrequired : controlId ∈ requiredComparisonControlIds) :
    controlPredicate leftControls rightControls controlId ∈
      comparisonPredicates spec leftControls rightControls cost aggregate := by
  rw [comparisonPredicates, List.append_assoc]
  exact List.mem_append_left _ (List.mem_map_of_mem hrequired)

theorem controlLimitation_mem {controlId : String}
    (hrequired : controlId ∈ requiredComparisonControlIds)
    (hdiffers : controlValue leftControls controlId ≠ controlValue rightControls controlId) :
    "comparison control mismatch: " ++ controlId ∈
      comparisonLimitations spec leftControls rightControls cost aggregate := by
  rw [comparisonLimitations, List.append_assoc]
  refine List.mem_append_left _ (List.mem_map.mpr
    ⟨controlPredicate leftControls rightControls controlId, List.mem_filter.mpr ⟨?_, ?_⟩, rfl⟩)
  · exact List.mem_map_of_mem hrequired
  · simp [controlPredicate, hdiffers]

end Predicates

/-! ### The checks of a request -/

/-- The values of the controls of a snapshot. -/
def controlsOf (snapshot : ComparisonControlSnapshot) : Dictionary String Sha256 :=
  Dictionary.ofList (snapshot.controls.map fun item ↦ (item.controlId, item.valueHash))

theorem closedControlMap_eq {snapshot : ComparisonControlSnapshot}
    (hholds : HoldsControls snapshot) : closedControlMap snapshot = .ok (controlsOf snapshot) := by
  unfold HoldsControls at hholds
  rw [closedControlMap, if_neg (not_not.mpr hholds)]
  rfl

theorem closedControlMap_eq_error {snapshot : ComparisonControlSnapshot}
    (hlacks : ¬ HoldsControls snapshot) : closedControlMap snapshot =
      .error "snapshot does not contain the closed comparison control inventory" := by
  unfold HoldsControls at hlacks
  rw [closedControlMap, if_pos hlacks]

theorem controlValue_controlsOf {snapshot : ComparisonControlSnapshot}
    {item : ComparisonControlBinding} (hitem : item ∈ snapshot.controls) :
    controlValue (controlsOf snapshot) item.controlId = item.valueHash := by
  have hkeys : ((snapshot.controls.map fun item ↦ (item.controlId, item.valueHash)).map
      Prod.fst).Nodup := by
    rw [List.map_map]
    exact snapshot.unique
  have hvalue : (controlsOf snapshot).lookup item.controlId = some item.valueHash :=
    (Dictionary.lookup_ofList hkeys).mpr (List.mem_map_of_mem hitem)
  rw [controlValue, hvalue]
  rfl

/-- Cost evidence is admitted as it is given. -/
theorem eq_of_admitCostDelta {spec : ComparisonSpec canonicalSha256}
    {cost admitted : Option ComparisonCostDelta}
    (hadmitted : admitCostDelta spec cost = .ok admitted) : admitted = cost := by
  unfold admitCostDelta at hadmitted
  split at hadmitted
  · split at hadmitted <;> cases hadmitted
    rfl
  · split at hadmitted
    · cases hadmitted
      rfl
    · cases hadmitted
    · split at hadmitted <;> cases hadmitted
      rfl

/-- Winner evidence is admitted as it is given. -/
theorem eq_of_admitAggregateDelta {spec : ComparisonSpec canonicalSha256}
    {aggregate admitted : Option AggregateMetricDelta}
    (hadmitted : admitAggregateDelta spec aggregate = .ok admitted) : admitted = aggregate := by
  unfold admitAggregateDelta at hadmitted
  split at hadmitted
  · cases hadmitted
  · cases hadmitted
    rfl
  · split at hadmitted <;> cases hadmitted
    rfl

/-- The report of a request that binds, over its predicates. -/
theorem evaluateComparison_of_binds {request : ComparisonRequest canonicalSha256}
    (hbinds : Binds request) :
    ∃ report, evaluateComparison request = .ok report ∧
      ReportsOver (request.left.sourceRootHash, request.right.sourceRootHash)
        (comparisonPredicates request.spec (controlsOf request.left) (controlsOf request.right)
          request.costDelta request.aggregateMetricDelta)
        (comparisonLimitations request.spec (controlsOf request.left) (controlsOf request.right)
          request.costDelta request.aggregateMetricDelta)
        request.pairedMetricDeltas request.aggregateMetricDelta request.costDelta report := by
  have hruns : ¬ (request.left.runId ≠ request.spec.leftRunId ∨
      request.right.runId ≠ request.spec.rightRunId) := by
    simp [hbinds.left_run, hbinds.right_run]
  obtain ⟨report, hbuild, hover⟩ := exists_buildReport canonicalSha256
    request.pairedMetricDeltas request.aggregateMetricDelta request.costDelta
    (comparisonPredicates_ne_nil request.spec _ _ _ _) (nodup_ruleIds _ _ _ _ _)
    (comparisonLimitations_ne_nil _ _ _ _ _)
  refine ⟨report, ?_, hover⟩
  rw [evaluateComparison, if_neg (not_not.mpr hbinds.inventory), if_neg hruns, hbinds.pairs,
    closedControlMap_eq hbinds.left_controls, closedControlMap_eq hbinds.right_controls,
    hbinds.cost, hbinds.aggregate]
  exact hbuild

/-- Only a request that binds has a report. -/
theorem binds_of_evaluateComparison {request : ComparisonRequest canonicalSha256}
    {report : ComparisonReport} (hreport : evaluateComparison request = .ok report) :
    Binds request := by
  rw [evaluateComparison] at hreport
  split at hreport
  · cases hreport
  · rename_i hinventory
    split at hreport
    · cases hreport
    · rename_i hruns
      push Not at hinventory hruns
      cases hpairs : requirePairInventory request.spec request.pairedMetricDeltas with
      | error message =>
        rw [hpairs] at hreport
        cases hreport
      | ok admitted =>
        have hleft : HoldsControls request.left := by
          by_contra hlacks
          rw [hpairs, closedControlMap_eq_error hlacks] at hreport
          cases hreport
        have hright : HoldsControls request.right := by
          by_contra hlacks
          rw [hpairs, closedControlMap_eq hleft, closedControlMap_eq_error hlacks] at hreport
          cases hreport
        rw [hpairs, closedControlMap_eq hleft, closedControlMap_eq hright] at hreport
        cases hcost : admitCostDelta request.spec request.costDelta with
        | error message =>
          rw [hcost] at hreport
          cases hreport
        | ok cost =>
          cases haggregate : admitAggregateDelta request.spec request.aggregateMetricDelta with
          | error message =>
            rw [hcost, haggregate] at hreport
            cases hreport
          | ok aggregate =>
            exact ⟨hinventory, hruns.1, hruns.2, hpairs, hleft, hright,
              eq_of_admitCostDelta hcost ▸ hcost, eq_of_admitAggregateDelta haggregate ▸ haggregate⟩

/-! ### No claim escapes -/

theorem ReportsOver.failClosed {request : ComparisonRequest canonicalSha256}
    {report : ComparisonReport} (hbinds : Binds request)
    (hover : ReportsOver (request.left.sourceRootHash, request.right.sourceRootHash)
      (comparisonPredicates request.spec (controlsOf request.left) (controlsOf request.right)
        request.costDelta request.aggregateMetricDelta)
      (comparisonLimitations request.spec (controlsOf request.left) (controlsOf request.right)
        request.costDelta request.aggregateMetricDelta)
      request.pairedMetricDeltas request.aggregateMetricDelta request.costDelta report) :
    FailClosed request report := by
  have hverdict : isComparable report = true ↔
      ∀ predicate ∈ (basis report).predicates, predicate.passed = true := by
    rw [hover.verdict_eq, hover.predicates_eq, List.all_eq_true]
  have hnames : ∀ (predicate : ComparisonPredicateResult) {limitation : String},
      predicate ∈ comparisonPredicates request.spec (controlsOf request.left)
        (controlsOf request.right) request.costDelta request.aggregateMetricDelta →
      predicate.passed = false →
      limitation ∈ comparisonLimitations request.spec (controlsOf request.left)
        (controlsOf request.right) request.costDelta request.aggregateMetricDelta →
      NamesFailure report predicate.ruleId limitation := by
    intro predicate limitation hpredicate hfails hlimitation
    refine ⟨?_, ⟨predicate, hover.predicates_eq ▸ hpredicate, rfl, hfails⟩,
      hover.limitations_eq ▸ hlimitation⟩
    refine Bool.eq_false_iff.mpr fun hcomparable ↦ ?_
    have hpasses := hverdict.mp hcomparable predicate (hover.predicates_eq ▸ hpredicate)
    rw [hfails] at hpasses
    cases hpasses
  refine ⟨hverdict, ?_, ?_, ?_, ⟨hbinds.left_controls, hbinds.right_controls⟩, ?_, ?_⟩
  · intro hclaims
    by_contra hfails
    have hincomparable : ¬ isComparable report = true := fun hcomparable ↦
      hfails (hverdict.mp hcomparable)
    simp [hover.deltas_eq, hover.aggregate_eq, hover.cost_eq, hover.winner_eq, hincomparable]
      at hclaims
  · intro hcomparable
    simp [hover.deltas_eq, hover.aggregate_eq, hover.cost_eq, hover.winner_eq, hcomparable]
  · intro left hleft right hright hcontrol hdiffers
    have hrequired : left.controlId ∈ requiredComparisonControlIds := by
      have hcontrols := hbinds.left_controls
      unfold HoldsControls at hcontrols
      exact hcontrols ▸ List.mem_map_of_mem hleft
    have hvalues : controlValue (controlsOf request.left) left.controlId ≠
        controlValue (controlsOf request.right) left.controlId := by
      rw [controlValue_controlsOf hleft, hcontrol, controlValue_controlsOf hright]
      exact hdiffers
    exact hnames _ (controlPredicate_mem hrequired) (by simp [controlPredicate, hvalues])
      (controlLimitation_mem hrequired hvalues)
  · intro hview hnone
    have hmisses : MissesCostEvidence request.spec request.costDelta :=
      ⟨hview, by rw [hnone]; rfl⟩
    refine hnames (missingEvidencePredicate canonicalSha256 costEvidencePredicateId
      request.spec.comparisonSpecId) ?_ rfl ?_
    · simp [comparisonPredicates, hmisses]
    · simp [comparisonLimitations, hmisses]
  · intro hreducer hnone
    have hmisses : MissesWinnerEvidence request.spec request.aggregateMetricDelta :=
      ⟨Option.isSome_iff_ne_none.mpr hreducer, by rw [hnone]; rfl⟩
    refine hnames (missingEvidencePredicate canonicalSha256 winnerEvidencePredicateId
      request.spec.comparisonSpecId) ?_ rfl ?_
    · simp [comparisonPredicates, hmisses]
    · simp [comparisonLimitations, hmisses]

/-! ### The exchanged request -/

section Mirror

variable {spec mirrored : ComparisonSpec canonicalSha256}

theorem requirePairInventory_mirror (hspec : MirrorsSpec spec mirrored)
    (deltas : List PairedMetricDelta) :
    requirePairInventory mirrored (deltas.map mirrorPaired) = requirePairInventory spec deltas := by
  let exchange : String × String × String × String → String × String × String × String :=
    fun key ↦ (key.1, key.2.2.1, key.2.1, key.2.2.2)
  have hinjective : Function.Injective (List.map exchange) :=
    List.map_injective_iff.mpr
      (show Function.LeftInverse exchange exchange from fun _ ↦ rfl).injective
  have hdeltas : ((deltas.map mirrorPaired).map fun item ↦ (item.caseManifestEntryId,
      item.leftCaseOccurrenceId, item.rightCaseOccurrenceId, item.metricId)) =
      (deltas.map fun item ↦ (item.caseManifestEntryId, item.leftCaseOccurrenceId,
        item.rightCaseOccurrenceId, item.metricId)).map exchange := by
    rw [List.map_map, List.map_map]
    rfl
  have hpairs : ((spec.orderedPairBindings.map mirrorBinding).map fun item ↦
      (item.caseManifestEntryId, item.leftCaseOccurrenceId, item.rightCaseOccurrenceId,
        item.metricId)) =
      (spec.orderedPairBindings.map fun item ↦ (item.caseManifestEntryId,
        item.leftCaseOccurrenceId, item.rightCaseOccurrenceId, item.metricId)).map exchange := by
    rw [List.map_map, List.map_map]
    rfl
  unfold requirePairInventory
  rw [hspec.pairs, hdeltas, hpairs]
  exact if_congr (not_congr hinjective.eq_iff) rfl rfl

theorem admitCostDelta_mirror (hspec : MirrorsSpec spec mirrored)
    (cost : Option ComparisonCostDelta) :
    admitCostDelta mirrored (cost.map mirrorCost) =
      (admitCostDelta spec cost).map (Option.map mirrorCost) := by
  unfold admitCostDelta
  rw [hspec.costView, hspec.costControl]
  split
  · cases cost <;> rfl
  · cases cost with
    | none => rfl
    | some delta =>
      cases spec.costControl with
      | none => rfl
      | some control =>
        simp only [Option.map_some, mirrorCost]
        split <;> rfl

theorem admitAggregateDelta_mirror (hspec : MirrorsSpec spec mirrored)
    (aggregate : Option AggregateMetricDelta) :
    admitAggregateDelta mirrored (aggregate.map mirrorAggregate) =
      (admitAggregateDelta spec aggregate).map (Option.map mirrorAggregate) := by
  unfold admitAggregateDelta
  rw [hspec.winnerReducer]
  cases aggregate with
  | none => cases spec.winnerReducer <;> rfl
  | some delta =>
    cases spec.winnerReducer with
    | none => rfl
    | some reducer =>
      simp only [Option.map_some, mirrorAggregate]
      split <;> rfl

theorem Binds.mirror {request : ComparisonRequest canonicalSha256}
    (hspec : MirrorsSpec request.spec mirrored) (hbinds : Binds request) :
    Binds (mirrorRequest request mirrored) := by
  constructor
  · exact hspec.required.trans hbinds.inventory
  · exact hbinds.right_run.trans hspec.left_run.symm
  · exact hbinds.left_run.trans hspec.right_run.symm
  · exact (requirePairInventory_mirror hspec _).trans hbinds.pairs
  · exact hbinds.right_controls
  · exact hbinds.left_controls
  · refine (admitCostDelta_mirror hspec _).trans ?_
    rw [hbinds.cost]
    rfl
  · refine (admitAggregateDelta_mirror hspec _).trans ?_
    rw [hbinds.aggregate]
    rfl

/-- The exchanged request is refused for the same reason. -/
theorem evaluateComparison_mirror_of_error {request : ComparisonRequest canonicalSha256}
    {error : String} (hspec : MirrorsSpec request.spec mirrored)
    (herror : evaluateComparison request = .error error) :
    evaluateComparison (mirrorRequest request mirrored) = .error error := by
  have hunbound : ¬ Binds request := by
    intro hbinds
    obtain ⟨report, hreport, _⟩ := evaluateComparison_of_binds hbinds
    rw [herror] at hreport
    cases hreport
  have hruns : ((mirrorRequest request mirrored).left.runId ≠
        (mirrorRequest request mirrored).spec.leftRunId ∨
      (mirrorRequest request mirrored).right.runId ≠
        (mirrorRequest request mirrored).spec.rightRunId) ↔
      (request.left.runId ≠ request.spec.leftRunId ∨
        request.right.runId ≠ request.spec.rightRunId) := by
    simp only [mirrorRequest, hspec.left_run, hspec.right_run]
    exact or_comm
  have hpairs : requirePairInventory (mirrorRequest request mirrored).spec
      (mirrorRequest request mirrored).pairedMetricDeltas =
      requirePairInventory request.spec request.pairedMetricDeltas :=
    requirePairInventory_mirror hspec _
  have hcost : admitCostDelta (mirrorRequest request mirrored).spec
      (mirrorRequest request mirrored).costDelta =
      (admitCostDelta request.spec request.costDelta).map (Option.map mirrorCost) :=
    admitCostDelta_mirror hspec _
  have haggregate : admitAggregateDelta (mirrorRequest request mirrored).spec
      (mirrorRequest request mirrored).aggregateMetricDelta =
      (admitAggregateDelta request.spec request.aggregateMetricDelta).map
        (Option.map mirrorAggregate) :=
    admitAggregateDelta_mirror hspec _
  unfold evaluateComparison at herror ⊢
  rw [show (mirrorRequest request mirrored).spec.requiredControlIds =
    request.spec.requiredControlIds from hspec.required, hpairs, hcost, haggregate]
  split at herror
  · rename_i hinventory
    rw [if_pos hinventory]
    exact herror
  rename_i hinventory
  rw [if_neg hinventory]
  split at herror
  · rename_i hrefused
    rw [if_pos (hruns.mpr hrefused)]
    exact herror
  rename_i hruns'
  rw [if_neg (mt hruns.mp hruns')]
  cases hpaired : requirePairInventory request.spec request.pairedMetricDeltas with
  | error message =>
    rw [hpaired] at herror
    exact herror
  | ok _ =>
    rw [hpaired] at herror
    by_cases hleft : HoldsControls request.left
    · by_cases hright : HoldsControls request.right
      · rw [closedControlMap_eq hleft, closedControlMap_eq hright] at herror
        rw [show closedControlMap (mirrorRequest request mirrored).left = _ from
          closedControlMap_eq hright, show closedControlMap (mirrorRequest request mirrored).right =
          _ from closedControlMap_eq hleft]
        cases hadmitted : admitCostDelta request.spec request.costDelta with
        | error message =>
          rw [hadmitted] at herror
          exact herror
        | ok cost =>
          rw [hadmitted] at herror
          cases hselected : admitAggregateDelta request.spec request.aggregateMetricDelta with
          | error message =>
            rw [hselected] at herror
            exact herror
          | ok aggregate =>
            push Not at hinventory hruns'
            exact absurd ⟨hinventory, hruns'.1, hruns'.2, hpaired, hleft, hright,
              eq_of_admitCostDelta hadmitted ▸ hadmitted,
              eq_of_admitAggregateDelta hselected ▸ hselected⟩ hunbound
      · rw [closedControlMap_eq hleft, closedControlMap_eq_error hright] at herror
        rw [show closedControlMap (mirrorRequest request mirrored).left = _ from
          closedControlMap_eq_error hright]
        exact herror
    · rw [closedControlMap_eq_error hleft] at herror
      rw [show closedControlMap (mirrorRequest request mirrored).right = _ from
        closedControlMap_eq_error hleft]
      by_cases hright : HoldsControls request.right
      · rw [show closedControlMap (mirrorRequest request mirrored).left = _ from
          closedControlMap_eq hright]
        exact herror
      · rw [show closedControlMap (mirrorRequest request mirrored).left = _ from
          closedControlMap_eq_error hright]
        exact herror

theorem winnerFromAggregate_mirror (aggregate : Option AggregateMetricDelta) :
    winnerFromAggregate (aggregate.map mirrorAggregate) =
      (winnerFromAggregate aggregate).map mirrorWinner := by
  cases aggregate with
  | none => rfl
  | some delta =>
    have hnum : (mirrorAggregate delta).signedDelta.num = -delta.signedDelta.num :=
      rfl
    simp only [winnerFromAggregate, Option.map_some, hnum, Int.neg_pos, Int.neg_neg_iff_pos]
    rcases lt_trichotomy delta.signedDelta.num 0 with hneg | hzero | hpos
    · rw [if_pos hneg, if_neg hneg.asymm, if_pos hneg]
      rfl
    · simp [hzero, mirrorWinner]
    · rw [if_neg hpos.asymm, if_pos hpos, if_pos hpos]
      rfl

/-- The predicates of the exchanged request are those of the request, with the same outcomes. -/
theorem comparisonPredicates_mirror (hspec : MirrorsSpec spec mirrored)
    (leftControls rightControls : Dictionary String Sha256) (cost : Option ComparisonCostDelta)
    (aggregate : Option AggregateMetricDelta) :
    ((comparisonPredicates mirrored rightControls leftControls (cost.map mirrorCost)
        (aggregate.map mirrorAggregate)).map fun predicate ↦
          (predicate.ruleId, predicate.passed)) =
      (comparisonPredicates spec leftControls rightControls cost aggregate).map fun predicate ↦
        (predicate.ruleId, predicate.passed) := by
  have hcost : MissesCostEvidence mirrored (cost.map mirrorCost) ↔ MissesCostEvidence spec cost := by
    simp [MissesCostEvidence, hspec.costView]
  have hwinner : MissesWinnerEvidence mirrored (aggregate.map mirrorAggregate) ↔
      MissesWinnerEvidence spec aggregate := by
    simp [MissesWinnerEvidence, hspec.winnerReducer]
  simp only [comparisonPredicates, hcost, hwinner, List.map_append, List.map_map]
  congr 1
  · congr 1
    · refine List.map_congr_left fun controlId _ ↦ ?_
      simp [controlPredicate, eq_comm]
    · split <;> rfl
  · split <;> rfl

theorem comparisonLimitations_mirror (hspec : MirrorsSpec spec mirrored)
    (leftControls rightControls : Dictionary String Sha256) (cost : Option ComparisonCostDelta)
    (aggregate : Option AggregateMetricDelta) :
    comparisonLimitations mirrored rightControls leftControls (cost.map mirrorCost)
        (aggregate.map mirrorAggregate) =
      comparisonLimitations spec leftControls rightControls cost aggregate := by
  have hcost : MissesCostEvidence mirrored (cost.map mirrorCost) ↔ MissesCostEvidence spec cost := by
    simp [MissesCostEvidence, hspec.costView]
  have hwinner : MissesWinnerEvidence mirrored (aggregate.map mirrorAggregate) ↔
      MissesWinnerEvidence spec aggregate := by
    simp [MissesWinnerEvidence, hspec.winnerReducer]
  simp only [comparisonLimitations, hcost, hwinner, List.filter_map, List.map_map]
  congr 2
  have hsame : ∀ controlId, ((fun item : ComparisonPredicateResult ↦ decide (¬ item.passed = true)) ∘
      controlPredicate rightControls leftControls) controlId =
      ((fun item : ComparisonPredicateResult ↦ decide (¬ item.passed = true)) ∘
        controlPredicate leftControls rightControls) controlId := by
    intro controlId
    refine decide_eq_decide.mpr (not_congr ?_)
    simp only [controlPredicate, decide_eq_true_eq]
    exact eq_comm
  rw [List.filter_congr fun controlId _ ↦ hsame controlId]
  rfl

/-- The reports over the predicates of a request and of the exchanged request. -/
theorem mirrorsReport_of_binds {request : ComparisonRequest canonicalSha256}
    (hspec : MirrorsSpec request.spec mirrored) (hbinds : Binds request) :
    ∃ report reflected, evaluateComparison request = .ok report ∧
      evaluateComparison (mirrorRequest request mirrored) = .ok reflected ∧
      MirrorsReport report reflected := by
  obtain ⟨report, hreport, hover⟩ := evaluateComparison_of_binds hbinds
  obtain ⟨reflected, hreflected, hover'⟩ := evaluateComparison_of_binds (hbinds.mirror hspec)
  have hpredicates : ((basis reflected).predicates.map fun predicate ↦
      (predicate.ruleId, predicate.passed)) =
      (basis report).predicates.map fun predicate ↦ (predicate.ruleId, predicate.passed) := by
    rw [hover.predicates_eq, hover'.predicates_eq]
    exact comparisonPredicates_mirror hspec _ _ _ _
  have hverdict : isComparable reflected = isComparable report := by
    rw [hover.verdict_eq, hover'.verdict_eq, ← hover.predicates_eq, ← hover'.predicates_eq]
    have houtcomes := congrArg (fun outcomes : List (String × Bool) ↦ outcomes.all Prod.snd)
      hpredicates
    simpa only [List.all_map, Function.comp_def] using houtcomes
  refine ⟨report, reflected, hreport, hreflected, hverdict, ?_, ?_, ?_, ?_, ?_, hpredicates, ?_⟩
  · rw [hover.deltas_eq, hover'.deltas_eq, hverdict]
    split <;> rfl
  · rw [hover.aggregate_eq, hover'.aggregate_eq, hverdict]
    split <;> rfl
  · rw [hover.cost_eq, hover'.cost_eq, hverdict]
    split <;> rfl
  · rw [hover.winner_eq, hover'.winner_eq, hverdict]
    split
    · exact winnerFromAggregate_mirror _
    · rfl
  · rw [hover.roots_eq, hover'.roots_eq]
    rfl
  · rw [hover.limitations_eq, hover'.limitations_eq]
    exact comparisonLimitations_mirror hspec _ _ _ _

end Mirror

/-! ### The results of a comparison -/

/-- A request has a report when it binds its specification. The report claims nothing unless every
predicate passes, and it names the controls that differ and the evidence that is absent. With the
sides exchanged, the request is refused for the same reason or has the mirrored report. -/
theorem failClosed_and_mirrored_of_request (request : ComparisonRequest canonicalSha256) :
    ((∃ report, evaluateComparison request = .ok report) ↔ Binds request) ∧
      (∀ report, evaluateComparison request = .ok report → FailClosed request report) ∧
      ∀ mirrored, MirrorsSpec request.spec mirrored →
        MirroredResult (evaluateComparison request)
          (evaluateComparison (mirrorRequest request mirrored)) := by
  refine ⟨⟨?_, ?_⟩, ?_, ?_⟩
  · rintro ⟨report, hreport⟩
    exact binds_of_evaluateComparison hreport
  · intro hbinds
    obtain ⟨report, hreport, _⟩ := evaluateComparison_of_binds hbinds
    exact ⟨report, hreport⟩
  · intro report hreport
    have hbinds := binds_of_evaluateComparison hreport
    obtain ⟨evaluated, hevaluated, hover⟩ := evaluateComparison_of_binds hbinds
    have hsame : evaluated = report := Except.ok.inj (hevaluated.symm.trans hreport)
    exact hsame ▸ hover.failClosed hbinds
  · intro mirrored hspec
    cases hresult : evaluateComparison request with
    | error error =>
      rw [evaluateComparison_mirror_of_error hspec hresult]
      exact MirroredResult.refused error
    | ok report =>
      obtain ⟨evaluated, reflected, hevaluated, hreflected, hmirrors⟩ :=
        mirrorsReport_of_binds hspec (binds_of_evaluateComparison hresult)
      rw [hreflected, Except.ok.inj (hresult.symm.trans hevaluated)]
      exact MirroredResult.reported hmirrors

/-! ### Two runs with a winner -/

/-- A hash that keeps what it is computed from. -/
def sampleSha256 : Payload → Sha256
  | .comparisonPair binding => "pair " ++ binding.leftCaseOccurrenceId ++ " " ++
      binding.rightCaseOccurrenceId
  | .comparisonSpec leftRunId rightRunId _ _ _ _ _ _ => "spec " ++ leftRunId ++ " " ++ rightRunId
  | .costControl control => "cost " ++ control.dimensionId
  | .missingEvidence ruleId side => "missing " ++ ruleId ++ " " ++ side
  | .comparisonReport fields => "report " ++ fields.comparisonSpecHash

/-- A comparison of two runs in one case, with a reducer that selects a winner. -/
def sampleSpec (leftRunId rightRunId leftCase rightCase : String) (hruns : leftRunId ≠ rightRunId) :
    ComparisonSpec sampleSha256 where
  leftRunId := leftRunId
  rightRunId := rightRunId
  costView := .none
  orderedPairBindings := [⟨"entry", leftCase, rightCase, "accuracy"⟩]
  requiredControlIds := requiredComparisonControlIds
  comparisonPolicyHash := "policy"
  winnerReducer := some ⟨"mean", 1, "accuracy", 1, "contract"⟩
  costControl := none
  distinct_runs := hruns
  pairs_nonempty := List.cons_ne_nil _ _
  pairs_distinct := List.nodup_singleton _
  controls_nonempty := List.cons_ne_nil _ _
  controls_distinct := by decide
  costControl_eq_none := by simp
  costControl_view := by simp

/-- A run that holds every control, all with the same value. -/
def sampleSnapshot (runId : String) : ComparisonControlSnapshot where
  runId := runId
  sourceRootHash := "root " ++ runId
  controls := requiredComparisonControlIds.map fun controlId ↦ ⟨controlId, "value"⟩
  nonempty := List.cons_ne_nil _ _
  unique := by decide

/-- Three against one. -/
def sampleDelta : ExactDelta := ⟨3, 1, 2, 2, by norm_num, by norm_num⟩

def sampleRequest : ComparisonRequest sampleSha256 where
  spec := sampleSpec "left" "right" "first" "second" (by decide)
  left := sampleSnapshot "left"
  right := sampleSnapshot "right"
  pairedMetricDeltas := [⟨sampleDelta, "entry", "first", "second", "accuracy"⟩]
  aggregateMetricDelta := some ⟨sampleDelta, "mean", 1, "accuracy", 1, "contract"⟩
  costDelta := none

theorem binds_sampleRequest : Binds sampleRequest := by
  constructor <;> rfl

theorem failClosed_and_mirrored_of_sampleRequest :
    (∃ report, evaluateComparison sampleRequest = .ok report ∧ FailClosed sampleRequest report) ∧
      MirroredResult (evaluateComparison sampleRequest)
        (evaluateComparison (mirrorRequest sampleRequest
          (sampleSpec "right" "left" "second" "first" (by decide)))) := by
  obtain ⟨hbinds, hclosed, hmirrors⟩ := failClosed_and_mirrored_of_request sampleRequest
  obtain ⟨report, hreport⟩ := hbinds.mpr binds_sampleRequest
  refine ⟨⟨report, hreport, hclosed report hreport⟩, hmirrors _ ?_⟩
  constructor <;> rfl

end Oamb.Reporting.ComparisonGuarantees
