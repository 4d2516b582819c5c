import Mathlib.Data.Finset.Basic
import Oamb.Runtime.ResourceAmounts

/-!
# Accounting totals of a cell

A report reduces the accounting records of a cell to figures: the tokens of every dimension in a
stage, the resources of every dimension, and the supplier charges of every currency. A figure has a
status, which says whether its records were measured completely, and a value.

The records are those of the contracts. A usage record of the versions three and later sorts the
dimensions into those that it covers, that are unavailable and that do not apply; the records of the
first two versions have no such lists.
-/

set_option autoImplicit false

namespace Oamb.Reporting.AccountingTotals

open Foundation Foundation.DecimalContext
open Runtime.ResourceAmounts (pythonContext)

/-! ### Records -/

inductive ProofStatus
  | measuredComplete
  | measuredPartial
  | unavailable
  | notApplicable
  deriving DecidableEq

namespace ProofStatus

/-- The record was measured, completely or in part. -/
def measured : ProofStatus → Bool
  | measuredComplete | measuredPartial => true
  | unavailable | notApplicable => false

end ProofStatus

/-- The dimensions that a report totals. -/
inductive TokenDimension
  | inputTokens
  | visibleOutputTokens
  | supplierReportedTotalTokens
  | cachedInputTokens
  | reasoningTokens
  deriving DecidableEq

/-- The dimensions of a usage record, sorted by their coverage. -/
structure Coverage where
  covered : Finset TokenDimension
  unavailable : Finset TokenDimension
  notApplicable : Finset TokenDimension

/-- The values of a usage record agree with its coverage and its status. A record of a local context
has no value for a dimension of the supplier. -/
def CoverageCloses (localContext : Bool) (proofStatus : ProofStatus)
    (value : TokenDimension → Option ℕ) : Option Coverage → Prop
  | none =>
    (localContext = true ∨ proofStatus.measured = false → ∀ dimension, value dimension = none) ∧
      value .cachedInputTokens = none ∧ value .reasoningTokens = none
  | some coverage =>
    (∀ dimension, (value dimension).isSome ↔ dimension ∈ coverage.covered) ∧
      Disjoint coverage.covered coverage.unavailable ∧
      Disjoint coverage.covered coverage.notApplicable ∧
      Disjoint coverage.unavailable coverage.notApplicable ∧
      (∀ dimension, dimension ∈ coverage.covered ∪ coverage.unavailable ∪ coverage.notApplicable ↔
        localContext = false) ∧
      (proofStatus = .measuredComplete → coverage.unavailable = ∅) ∧
      (proofStatus = .measuredPartial → localContext = false → coverage.unavailable ≠ ∅) ∧
      (proofStatus = .unavailable → coverage.covered = ∅ ∧ coverage.notApplicable = ∅) ∧
      (proofStatus = .notApplicable → coverage.covered = ∅ ∧ coverage.unavailable = ∅)

/-- A usage record, with what a report reads. -/
structure TokenUsageRecord where
  stage : String
  localContext : Bool
  proofStatus : ProofStatus
  value : TokenDimension → Option ℕ
  coverage : Option Coverage
  billingComplete : Bool
  budgetOwnerKind : String
  budgetOwnerId : String
  closes : CoverageCloses localContext proofStatus value coverage

structure ResourceUsageRecord where
  dimensionId : String
  proofStatus : ProofStatus
  value : Option ℚ
  closes : value.isSome = proofStatus.measured

inductive CostBasis
  | actualSupplierCharge
  | estimateFromMeasuredUsage
  deriving DecidableEq

/-- The status of a figure: that of its records taken together. -/
inductive FigureStatus
  | measuredComplete
  | measuredPartial
  | unavailable
  deriving DecidableEq

inductive Aggregation
  | sum
  | maximum
  | terminalSnapshot
  deriving DecidableEq

/-- The figure of a resource. -/
structure ResourceFigure where
  status : FigureStatus
  value : Option Decimal
  unit : String
  aggregation : Aggregation
  measuredRecordCount : ℕ
  unavailableRecordCount : ℕ
  deriving DecidableEq

/-- The sum of values, one added after the other. -/
def decimalSum (values : List ℚ) : Except Signal Decimal :=
  values.foldlM (fun total value ↦ pythonContext.add total (.finite value)) (.finite 0)

/-- The value of measured records. -/
def aggregate (aggregation : Aggregation) (values : List ℚ) : Except Signal Decimal :=
  match aggregation with
  | .sum => decimalSum values
  | .maximum => .ok (.finite (values.max?.getD 0))
  | .terminalSnapshot => .ok (.finite (values.getLast?.getD 0))

/-- The records of a dimension. -/
def recordsOfDimension (records : List ResourceUsageRecord) (dimension : String) :
    List ResourceUsageRecord :=
  records.filter fun item ↦ item.dimensionId = dimension

/-- The values of the measured records. -/
def measuredValues (selected : List ResourceUsageRecord) : List ℚ :=
  selected.filterMap fun item ↦ if item.proofStatus.measured then item.value else none

/-- The figure of a resource dimension. -/
def resourceDimension (records : List ResourceUsageRecord) (dimension unit : String)
    (aggregation : Aggregation) : Except Signal ResourceFigure :=
  let selected := recordsOfDimension records dimension
  let values := measuredValues selected
  let unavailableCount := selected.countP fun item ↦ item.proofStatus = .unavailable
  if values.isEmpty then
    .ok ⟨.unavailable, none, unit, aggregation, values.length, unavailableCount⟩
  else do
    let status :=
      if unavailableCount ≠ 0 then FigureStatus.measuredPartial else .measuredComplete
    let value ← aggregate aggregation values
    return ⟨status, some value, unit, aggregation, values.length, unavailableCount⟩

/-- The dimensions of a report, with their labels, units and aggregations. -/
def resourceReportDimensions : List (String × String × String × Aggregation) :=
  [("provider_request_wall_seconds", "provider_request_wall_seconds_v1", "seconds", .sum),
    ("peak_memory_bytes", "peak_memory_bytes", "bytes", .maximum),
    ("storage_bytes", "storage_bytes", "bytes", .terminalSnapshot)]

/-- The resources of a cell, by their labels. -/
def resourceDocument (records : List ResourceUsageRecord) :
    Except Signal (List (String × ResourceFigure)) :=
  resourceReportDimensions.mapM fun (label, dimension, unit, aggregation) ↦ do
    return (label, ← resourceDimension records dimension unit aggregation)

/-- The coverage of the resources of a cell. -/
def resourceCoverage (document : List (String × ResourceFigure)) : FigureStatus :=
  if document.all fun item ↦ item.2.status = .unavailable then .unavailable
  else if document.any fun item ↦ item.2.status ≠ .measuredComplete then .measuredPartial
  else .measuredComplete

/-! ### Costs -/

end Oamb.Reporting.AccountingTotals
