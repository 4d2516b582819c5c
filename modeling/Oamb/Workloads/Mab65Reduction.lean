import Mathlib.Data.List.Dedup
import Mathlib.Data.List.Infix
import Oamb.Foundation.JsonValues
import Oamb.Foundation.Means

/-!
# The index of a benchmark

The sixty-five cases of a benchmark belong to plans, the plans to components, and the components to
capabilities. `reduceMab65` takes the mean of the cases of each plan, of the plans of each
component, and the weighted mean of the capabilities, when the benchmark, the run and the case
metrics are the complete ones, and says what is wrong otherwise.
-/

set_option autoImplicit false

namespace Oamb.Workloads.Mab65Reduction

open Foundation

/-! ### The benchmark -/

def mab65IndexId : String := "mab65-capability-balanced-index-v1"

def componentOrder : List String := ["ar", "icl", "recsys", "lru", "cr_sf"]

def expectedCaseCounts : List (String × ℕ) :=
  [("ar", 15), ("icl", 10), ("recsys", 10), ("lru", 15), ("cr_sf", 15)]

def expectedPlanCounts : List (String × ℕ) :=
  [("ar", 5), ("icl", 5), ("recsys", 1), ("lru", 10), ("cr_sf", 4)]

def expectedPlanCaseCounts : List (String × List ℕ) :=
  [("ar", [3, 3, 3, 3, 3]), ("icl", [2, 2, 2, 2, 2]), ("recsys", [10]),
    ("lru", [1, 1, 1, 1, 1, 2, 2, 2, 2, 2]), ("cr_sf", [3, 4, 4, 4])]

def expectedMetricByComponent : List (String × String) :=
  [("ar", "mab-substring-em-v1"), ("icl", "mab-exact-v1"),
    ("recsys", "mab-redial-recall-at-5-v1"), ("lru", "mab-exact-v1"),
    ("cr_sf", "mab-substring-em-v1")]

def mab65CaseManifestHash : String :=
  "d0dbbdf149e3a58d34265dbb6097a28b8990b585eaa9c8812893497a32c962f2"

def mab65Cr32kPlanId : String :=
  "0ebed1d647aa227f5026e71ca93a88fb5be2d0ef0e73140ce0caa8914c03e46f"

def mab65SelectedCaseDigest : String :=
  "e8526e11afbb2af5ffe5ccf35ccad20cd2c41f14fdc3e18aab62fb79417b97d0"

def mab65SelectedPlanDigest : String :=
  "85efa5ac9698bf512708cf93bcd011218578183e5f2fc86bbe8ed3f2eda00ef4"

structure LogicalContext where
  contextManifestEntryId : String
  contextBytesSha256 : String
  otherFields : Bytes
  deriving DecidableEq

structure CaseManifestEntry where
  caseManifestEntryId : String
  contextManifestEntryId : String
  otherFields : Bytes
  deriving DecidableEq

structure IngestionPlanManifest where
  planManifestEntryId : String
  ingestionPlanId : String
  orderedMemberContextManifestEntryIds : List String
  orderedCaseManifestEntryIds : List String
  orderedSourceUnitBytesSha256 : List String
  ingestionPayloadHash : String
  otherFields : Bytes
  deriving DecidableEq

structure CaseManifest where
  manifestId : String
  logicalContexts : List LogicalContext
  ingestionPlans : List IngestionPlanManifest
  cases : List CaseManifestEntry
  otherFields : Bytes

structure SourceUnit where
  ordinal1Indexed : ℤ
  contextManifestEntryId : String
  payloadSha256 : String
  sourceUnitId : String
  payloadBytes : Bytes

/-- A plan as it is run. -/
structure IngestionPlan where
  ingestionPlanId : String
  orderedMemberContextManifestEntryIds : List String
  orderedCaseManifestEntryIds : List String
  intendedSourceCount : ℤ
  orderedSourceUnits : List SourceUnit
  sharedContextSha256 : String

structure MabCase where
  entry : CaseManifestEntry
  metricId : String
  component : String

structure MabPlan where
  manifest : IngestionPlanManifest
  runtimePlan : IngestionPlan
  memberLabels : List String
  component : String

structure MabManifestBundle where
  caseManifest : CaseManifest
  cases : List MabCase
  plans : List MabPlan
  entityCatalogSha256 : String
  unicodeFingerprint : String
  selectedCaseDigest : String
  selectedPlanDigest : String

/-- The digest of some bytes, the digest of the canonical bytes of a value, and the hash of a case
manifest that is valid. -/
structure Library where
  sha256 : Bytes → String
  canonicalSha256 : Json → String
  validatedHash : CaseManifest → Option String

variable (library : Library)

/-! ### The checks of the benchmark -/

def texts (items : List String) : Json := .array (items.map .string)

def ingestionPayloadHash (payloadHashes : List String) : String :=
  library.canonicalSha256 (.array [.string "oamb-ingestion-payload-v1", texts payloadHashes])

def ingestionPlanId (planManifestId payloadHash : String) : String :=
  library.canonicalSha256
    (.array [.string "oamb-ingestion-plan-v1", .string planManifestId, .string payloadHash])

def caseManifestIsExact (bundle : MabManifestBundle) : Bool :=
  library.validatedHash bundle.caseManifest = some mab65CaseManifestHash

def sourceUnitsAreExact (plan : MabPlan) : Bool :=
  match plan.manifest.orderedMemberContextManifestEntryIds with
  | [] => false
  | member :: _ =>
    let runtimePlan := plan.runtimePlan
    let payloadHashes :=
      runtimePlan.orderedSourceUnits.map fun source ↦ library.sha256 source.payloadBytes
    let payloadHash := ingestionPayloadHash library payloadHashes
    let planId := ingestionPlanId library plan.manifest.planManifestEntryId payloadHash
    (runtimePlan.orderedSourceUnits.zipIdx 1).all (fun (source, ordinal) ↦
      source.ordinal1Indexed = ordinal && source.contextManifestEntryId = member &&
        source.payloadSha256 = library.sha256 source.payloadBytes &&
        source.sourceUnitId = library.canonicalSha256 (.array
          [.string runtimePlan.ingestionPlanId, .integer ordinal,
            .string (library.sha256 source.payloadBytes)])) &&
      payloadHashes = plan.manifest.orderedSourceUnitBytesSha256 &&
      payloadHash = plan.manifest.ingestionPayloadHash &&
      plan.manifest.ingestionPlanId = planId && runtimePlan.ingestionPlanId = planId &&
      library.sha256 (runtimePlan.orderedSourceUnits.flatMap SourceUnit.payloadBytes) =
        runtimePlan.sharedContextSha256

def caseIds (bundle : MabManifestBundle) : List String :=
  bundle.cases.map fun mabCase ↦ mabCase.entry.caseManifestEntryId

def planIds (bundle : MabManifestBundle) : List String :=
  bundle.plans.map fun plan ↦ plan.manifest.planManifestEntryId

/-- The last case with an identity. -/
def caseOf (bundle : MabManifestBundle) (caseId : String) : Option MabCase :=
  bundle.cases.reverse.find? fun mabCase ↦ mabCase.entry.caseManifestEntryId = caseId

/-- The last context with an identity. -/
def contextOf (bundle : MabManifestBundle) (contextId : String) : Option LogicalContext :=
  bundle.caseManifest.logicalContexts.reverse.find? fun context ↦
    context.contextManifestEntryId = contextId

def planCaseIds (plan : MabPlan) : List String := plan.manifest.orderedCaseManifestEntryIds

def memberIds (plan : MabPlan) : List String := plan.manifest.orderedMemberContextManifestEntryIds

/-- The numbers of contexts, plans and cases, and the order of the plans and cases. -/
def inventoryIsExact (bundle : MabManifestBundle) : Bool :=
  let manifest := bundle.caseManifest
  manifest.logicalContexts.length = 29 && manifest.ingestionPlans.length = 25 &&
    manifest.cases.length = 65 && bundle.cases.length = 65 && bundle.plans.length = 25 &&
    (manifest.logicalContexts.map LogicalContext.contextManifestEntryId).dedup.length = 29 &&
    manifest.cases = bundle.cases.map MabCase.entry &&
    manifest.ingestionPlans = bundle.plans.map MabPlan.manifest

/-- The cases of a plan are of its component and of its contexts. -/
def planCasesAreExact (bundle : MabManifestBundle) (plan : MabPlan) : Bool :=
  planCaseIds plan ≠ [] && (planCaseIds plan).all fun caseId ↦
    (caseOf bundle caseId).any fun mabCase ↦
      mabCase.component = plan.component &&
        mabCase.entry.contextManifestEntryId ∈ memberIds plan

/-- A plan is run as its manifest says. -/
def runtimePlanIsExact (bundle : MabManifestBundle) (plan : MabPlan) : Bool :=
  let runtimePlan := plan.runtimePlan
  (memberIds plan).all (fun member ↦ (contextOf bundle member).isSome) &&
    runtimePlan.ingestionPlanId = plan.manifest.ingestionPlanId &&
    runtimePlan.orderedMemberContextManifestEntryIds = memberIds plan &&
    runtimePlan.orderedCaseManifestEntryIds = planCaseIds plan &&
    runtimePlan.intendedSourceCount = runtimePlan.orderedSourceUnits.length &&
    1 ≤ runtimePlan.intendedSourceCount && sourceUnitsAreExact library plan &&
    ((memberIds plan).head?.bind (contextOf bundle)).any fun context ↦
      runtimePlan.sharedContextSha256 = context.contextBytesSha256

def contains (part label : String) : Bool := part.toList <:+: label.toList

/-- The members of a plan: two of one context for the last component, and one otherwise. -/
def membersAreExact (bundle : MabManifestBundle) (plan : MabPlan) : Bool :=
  if plan.component = "cr_sf" then
    match memberIds plan, plan.memberLabels with
    | [first, second], [firstLabel, secondLabel] =>
      let contextBytes (member : String) :=
        (contextOf bundle member).map LogicalContext.contextBytesSha256
      let count (member : String) :=
        (planCaseIds plan).countP fun caseId ↦
          (caseOf bundle caseId).any fun mabCase ↦
            mabCase.entry.contextManifestEntryId = member
      contextBytes first = contextBytes second &&
        contains "factconsolidation_sh_" firstLabel &&
        contains "factconsolidation_mh_" secondLabel && count first = 2 &&
        count second = if plan.manifest.planManifestEntryId = mab65Cr32kPlanId then 1 else 2
    | _, _ => false
  else (memberIds plan).length = 1

/-- The plans of a component. -/
def plansOf (bundle : MabManifestBundle) (component : String) : List MabPlan :=
  bundle.plans.filter fun plan ↦ plan.component = component

/-- Every case belongs to one plan, and the components have their numbers of cases and plans. -/
def countsAreExact (bundle : MabManifestBundle) : Bool :=
  let flattened := bundle.plans.flatMap planCaseIds
  flattened.length = bundle.cases.length && flattened.dedup.length = flattened.length &&
    flattened.all (· ∈ caseIds bundle) && (caseIds bundle).all (· ∈ flattened) &&
    expectedCaseCounts.all (fun (component, count) ↦
      (bundle.cases.countP fun mabCase ↦ mabCase.component = component) = count) &&
    expectedPlanCounts.all (fun (component, count) ↦
      (plansOf bundle component).length = count) &&
    expectedPlanCaseCounts.all fun (component, counts) ↦
      ((plansOf bundle component).map fun plan ↦ (planCaseIds plan).length).insertionSort (· ≤ ·) =
        counts

def topologyIsExact (bundle : MabManifestBundle) : Bool :=
  inventoryIsExact bundle &&
    bundle.cases.all (fun mabCase ↦ mabCase.component ∈ componentOrder) &&
    bundle.plans.all (fun plan ↦
      plan.component ∈ componentOrder && planCasesAreExact bundle plan &&
        runtimePlanIsExact library bundle plan && membersAreExact bundle plan) &&
    countsAreExact bundle

def metricMappingIsExact (bundle : MabManifestBundle) : Bool :=
  bundle.cases.all fun mabCase ↦
    expectedMetricByComponent.lookup mabCase.component = some mabCase.metricId

def manifestIdentityIsExact (bundle : MabManifestBundle) : Bool :=
  let caseDigest := library.canonicalSha256
    (.array [.string "oamb-mab65-selected-case-ids-v1", texts (caseIds bundle)])
  let planDigest := library.canonicalSha256
    (.array [.string "oamb-mab65-selected-plan-manifest-ids-v1", texts (planIds bundle)])
  caseDigest = bundle.selectedCaseDigest &&
    bundle.selectedCaseDigest = mab65SelectedCaseDigest &&
    planDigest = bundle.selectedPlanDigest &&
    bundle.selectedPlanDigest = mab65SelectedPlanDigest

/-! ### The reduction -/

structure MabPlanScore where
  planManifestEntryId : String
  component : String
  caseCount : ℕ
  score : ℚ
  deriving DecidableEq

structure MabComponentScore where
  component : String
  planCount : ℕ
  caseCount : ℕ
  score : ℚ
  deriving DecidableEq

structure MabCapabilityContribution where
  capability : String
  score : ℚ
  weight : ℚ
  weightedContribution : ℚ
  deriving DecidableEq

structure Reduction where
  reducerId : String
  available : Bool
  unavailableReason : Option String
  plans : List MabPlanScore
  components : List MabComponentScore
  ttlScore : Option ℚ
  capabilities : List MabCapabilityContribution
  indexValue : Option ℚ
  deriving DecidableEq

def unavailable (reason : String) : Reduction where
  reducerId := mab65IndexId
  available := false
  unavailableReason := some reason
  plans := []
  components := []
  ttlScore := none
  capabilities := []
  indexValue := none

/-- What a run says about itself. -/
structure RunFacts where
  readyPlanManifestIds : List String
  capsuleValid : Bool
  queryStateUnchanged : Bool
  expectedCatalogSha256 : String
  expectedUnicodeFingerprint : String
  expectedInteractionFingerprint : String
  observedInteractionFingerprint : String
  comparisonControlsClosed : Bool

/-- Two lists have the same members. -/
def sameMembers (first second : List String) : Bool :=
  first.all (· ∈ second) && second.all (· ∈ first)

/-- Why there is no index, if there is a reason. -/
def refusal (bundle : MabManifestBundle) (metrics : Dictionary String ℚ) (run : RunFacts) :
    Option String :=
  if bundle.caseManifest.manifestId ≠ "mab65-v1" then some "manifest_not_mab65"
  else if !manifestIdentityIsExact library bundle then some "manifest_identity"
  else if !caseManifestIsExact library bundle then some "manifest_topology"
  else if bundle.entityCatalogSha256 ≠ run.expectedCatalogSha256 then some "catalog_fingerprint"
  else if bundle.unicodeFingerprint ≠ run.expectedUnicodeFingerprint then
    some "unicode_fingerprint"
  else if !run.comparisonControlsClosed then some "comparison_controls"
  else if run.observedInteractionFingerprint ≠ run.expectedInteractionFingerprint then
    some "interaction_fingerprint"
  else if !run.capsuleValid then some "capsule_invalid"
  else if !run.queryStateUnchanged then some "query_state_changed"
  else if !topologyIsExact library bundle then some "manifest_topology"
  else if !metricMappingIsExact bundle then some "metric_component_mapping"
  else if !sameMembers metrics.keys (caseIds bundle) ||
      metrics.entries.any fun entry ↦ entry.2 < 0 || 1 < entry.2 then
    some "case_metric_inventory"
  else if !sameMembers run.readyPlanManifestIds (planIds bundle) then some "ready_plan_inventory"
  else none

/-- A sum over a number of summands. -/
def divided (total : ℚ) (count : ℕ) : Except String ℚ :=
  if count = 0 then .error "Fraction division by zero" else .ok (total / count)

/-- The value of a key. -/
def item (found : Option ℚ) (key : String) : Except String ℚ :=
  match found with
  | some value => .ok value
  | none => .error s!"no item {key}"

def planScore (metrics : Dictionary String ℚ) (plan : MabPlan) : Except String MabPlanScore := do
  let values ← (planCaseIds plan).mapM fun caseId ↦ item (metrics.lookup caseId) caseId
  let score ← divided values.sum (planCaseIds plan).length
  pure
    { planManifestEntryId := plan.manifest.planManifestEntryId
      component := plan.component
      caseCount := (planCaseIds plan).length
      score }

def componentScore (planScores : List MabPlanScore) (component : String) :
    Except String MabComponentScore := do
  let componentPlans := planScores.filter fun plan ↦ plan.component = component
  let score ← divided (componentPlans.map MabPlanScore.score).sum componentPlans.length
  pure
    { component
      planCount := componentPlans.length
      caseCount := (componentPlans.map MabPlanScore.caseCount).sum
      score }

def scoreOf (components : List MabComponentScore) (name : String) : Except String ℚ :=
  item ((components.find? fun component ↦ component.component = name).map
    MabComponentScore.score) name

def capability (name : String) (score : ℚ) : MabCapabilityContribution :=
  ⟨name, score, 1 / 4, score / 4⟩

def reduction (bundle : MabManifestBundle) (metrics : Dictionary String ℚ) :
    Except String Reduction := do
  let plans ← bundle.plans.mapM (planScore metrics)
  let components ← componentOrder.mapM (componentScore plans)
  let ar ← scoreOf components "ar"
  let icl ← scoreOf components "icl"
  let recsys ← scoreOf components "recsys"
  let lru ← scoreOf components "lru"
  let crSf ← scoreOf components "cr_sf"
  let ttl := (icl + recsys) / 2
  let capabilities :=
    [capability "ar" ar, capability "ttl" ttl, capability "lru" lru, capability "cr_sf" crSf]
  pure
    { reducerId := mab65IndexId
      available := true
      unavailableReason := none
      plans
      components
      ttlScore := some ttl
      capabilities
      indexValue :=
        some (100 * (capabilities.map MabCapabilityContribution.weightedContribution).sum) }

def reduceMab65 (bundle : MabManifestBundle) (metrics : Dictionary String ℚ) (run : RunFacts) :
    Except String Reduction :=
  match refusal library bundle metrics run with
  | some reason => .ok (unavailable reason)
  | none => reduction bundle metrics

end Oamb.Workloads.Mab65Reduction
