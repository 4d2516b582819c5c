import Oamb.Contracts.AttemptRecords
import Oamb.MemorySystems.Mem0Readiness

/-!
# The evidence of Mem0

A plan that was ingested with Mem0 is read back from its sealed payloads: the capture of the empty scope,
the receipts of the dispatches, the two captures that made the scope ready, and the projection.
-/

set_option autoImplicit false

namespace Oamb.Artifacts.Mem0Evidence

open Foundation Foundation.JsonText
open Contracts.AttemptRecords
open MemorySystems MemorySystems.ExactJson MemorySystems.Mem0Projection MemorySystems.Mem0Capture
open MemorySystems.Mem0Wire MemorySystems.Mem0Readiness

/-! ### Records -/

/-- What is read of the record of an ingestion plan. -/
structure IngestionPlanRecord where
  adapterProfileId : String
  memorySystemId : String
  scopeId : String
  ingestionOccurrenceId : String
  ingestionPlanId : String
  scopeRawRefs : List String
  orderedSourceUnitIds : List String
  orderedDispatchAttemptIds : List String
  orderedDispatchSourceUnitIds : List (List String)
  acceptedSourceUnitIds : List String
  rejectedSourceUnitIds : List String
  skippedSourceUnitIds : List String
  readinessEvidenceRefs : List String
  inventoryRawRef : String
  projectedSourceUnitIds : List String
  projectionRawRefs : List String
  protectedStateSha256 : String

/-- The sealed payloads by their references. -/
abbrev RawPayloads : Type := String → Option Bytes

/-- What the evidence of a projection shows. -/
structure Mem0ProjectionEvidence where
  projection : Projection
  orderedSourceUnitIds : List String
  stateSha256 : String
  captureSequence : ℤ
  summaryRawRef : String
  pageRawRefs : List String

def mem0ProfileId : String := "mem0-rest-v1"

def projectionReceiptFields : List String :=
  ["schema", "collection", "run_id", "ordered_source_unit_ids", "state_sha256", "capture_sequence",
    "page_raw_refs"]

/-! ### Documents -/

mutual

/-- The name that an object has twice, the innermost first. -/
def duplicateField : Json → Option String
  | .array items => duplicateFieldItems items
  | .object members => (duplicateFieldMembers members).or (repeatedName (members.map Prod.fst))
  | .null | .bool _ | .integer _ | .real _ _ | .string _ => none

def duplicateFieldItems : List Json → Option String
  | [] => none
  | item :: items => (duplicateField item).or (duplicateFieldItems items)

def duplicateFieldMembers : List (String × Json) → Option String
  | [] => none
  | (_, value) :: members => (duplicateField value).or (duplicateFieldMembers members)

end

/-- The value of a payload, in which no object has a name twice. -/
def parseUniqueJson (payload : Bytes) : Except String Json :=
  match (readUtf8 payload).bind loads with
  | none => .error "Mem0 projection evidence is not JSON"
  | some document =>
    match duplicateField document with
    | some name => .error s!"duplicate JSON field: {name}"
    | none => .ok document

/-- The payload of a reference. -/
def payloadOf (rawPayloads : RawPayloads) (reference message : String) : Except String Bytes :=
  match rawPayloads reference with
  | none => .error message
  | some payload => .ok payload

/-! ### A projection -/

/-- What was found among references: the summary of a capture, and its pages. -/
structure Found where
  summary : Option (String × Json)
  pages : List (String × Bytes)

/-- Look at a reference. -/
def readReference (rawPayloads : RawPayloads) (found : Found) (reference : String) :
    Except String Found := do
  let payload ← payloadOf rawPayloads reference "Mem0 projection raw reference is missing"
  let document ← parseUniqueJson payload
  if document.hasNames projectionReceiptFields then
    require (found.summary = none) "Mem0 projection has multiple summary receipts"
    pure { found with summary := some (reference, document) }
  else if document.hasNames pageFields then
    pure { found with pages := found.pages ++ [(reference, payload)] }
  else pure found

/-- The summary says what its pages say. -/
def bindsPages (summary : Json) (expectedRunId : String) (sourceIds : List String)
    (stateSha256 : String) (pageRefs : List String) : Prop :=
  (summary.get "schema").isText "oamb-mem0-projection-receipt-v1" = true ∧
    (summary.get "collection").isText mem0Collection = true ∧
    (summary.get "run_id").isText expectedRunId = true ∧
    asTexts (summary.get "ordered_source_unit_ids") = some sourceIds ∧
    (summary.get "state_sha256").isText stateSha256 = true ∧
    (∃ captureSequence ∈ (summary.get "capture_sequence").asInteger, 1 ≤ captureSequence) ∧
    asTexts (summary.get "page_raw_refs") = some pageRefs

instance instDecidableBindsPages (summary : Json) (expectedRunId : String) (sourceIds : List String) (stateSha256 : String)
    (pageRefs : List String) :
    Decidable (bindsPages summary expectedRunId sourceIds stateSha256 pageRefs) :=
  inferInstanceAs (Decidable (_ ∧ _))

/-- The projection that some references show. -/
def reconstructMem0Projection (sha256 : Bytes → String) (rawPayloads : RawPayloads)
    (references : List String) (expectedRunId : String) : Except String Mem0ProjectionEvidence := do
  let found ← (Dictionary.fromKeys references).foldlM (readReference rawPayloads) ⟨none, []⟩
  match found.summary with
  | none => .error "Mem0 projection evidence is incomplete"
  | some (summaryRef, summary) => do
    require (found.pages ≠ []) "Mem0 projection evidence is incomplete"
    let projection ← parseProjectionPages (found.pages.map Prod.snd) mem0Collection expectedRunId
      mem0ProjectionMaxPages mem0ProjectionMaxPoints
    let sourceIds := projectionSourceUnitIds projection
    let stateSha256 := projectionStateSha256 sha256 projection
    let pageRefs := found.pages.map Prod.fst
    require (bindsPages summary expectedRunId sourceIds stateSha256 pageRefs)
      "Mem0 projection summary does not bind its raw pages"
    pure ⟨projection, sourceIds, stateSha256, ((summary.get "capture_sequence").asInteger).getD 0,
      summaryRef, pageRefs⟩

/-! ### Projections of readiness -/

/-- Look at a reference, and keep it when it is of a summary whose pages are among the references. -/
def readSummaryReference (rawPayloads : RawPayloads) (references summaryRefs : List String)
    (reference : String) : Except String (List String) :=
  if reference ∈ summaryRefs then .ok summaryRefs
  else do
    let payload ← payloadOf rawPayloads reference "Mem0 readiness raw reference is missing"
    let document ← parseUniqueJson payload
    if document.hasNames projectionReceiptFields then
      match asTexts (document.get "page_raw_refs") with
      | none => .error "Mem0 readiness summary pages are not evidence-bound"
      | some pageRefs => do
        require (∀ pageRef ∈ pageRefs, pageRef ∈ references)
          "Mem0 readiness summary pages are not evidence-bound"
        pure (summaryRefs ++ [reference])
    else pure summaryRefs

/-- The pages of a summary. -/
def summaryPageRefs (rawPayloads : RawPayloads) (summaryRef : String) :
    Except String (List String) := do
  let payload ← payloadOf rawPayloads summaryRef "Mem0 projection summary is missing"
  let document ← parseExactJsonObject payload projectionReceiptFields
  match asTexts (document.get "page_raw_refs") with
  | none => .error "Mem0 projection summary page references are invalid"
  | some pageRefs => pure pageRefs

/-- The projections whose summaries are among some references. -/
def reconstructMem0ProjectionSnapshots (sha256 : Bytes → String) (rawPayloads : RawPayloads)
    (references : List String) (expectedRunId : String) :
    Except String (List Mem0ProjectionEvidence) := do
  let summaryRefs ← references.foldlM (readSummaryReference rawPayloads references) []
  summaryRefs.mapM fun summaryRef ↦ do
    let pageRefs ← summaryPageRefs rawPayloads summaryRef
    reconstructMem0Projection sha256 rawPayloads (summaryRef :: pageRefs) expectedRunId

/-! ### Dispatches -/

/-- The check of the responses that a pair receipt names. -/
def validatePairResponse (sha256 : Bytes → String) (rawPayloads : RawPayloads) (reference : String) :
    Except String Unit := do
  let response ← payloadOf rawPayloads reference "Mem0 pair-add response is missing or corrupt"
  require (sha256 response = reference) "Mem0 pair-add response is missing or corrupt"
  let _ ← parseAddResponse response
  pure ()

/-- The check of the receipt of a dispatch. -/
def validateAddReceipt (sha256 : Bytes → String) (rawPayloads : RawPayloads) (payload : Bytes)
    (expectedSourceUnitId : String) : Except String Unit := do
  let document ← parseUniqueJson payload
  if document.isObject = false ∨
      (document.get "schema_name").isText "oamb_mem0_pair_add_receipt" = false then
    let _ ← parseAddResponse payload
    pure ()
  else
    require (document.hasNames pairReceiptFields = true) "Mem0 pair-add receipt fields are invalid"
    match asTexts (document.get "ordered_response_sha256") with
    | none => .error "Mem0 pair-add receipt identity is invalid"
    | some references => do
      require ((document.get "schema_version").asInteger = some 1 ∧
          (document.get "source_unit_id").isText expectedSourceUnitId = true ∧
          2 ≤ references.length)
        "Mem0 pair-add receipt identity is invalid"
      references.forM (validatePairResponse sha256 rawPayloads)

/-- The check of the attempt of a dispatch. What is kept is the reference of its receipt, unless it was
skipped. -/
def validateDispatch (sha256 : Bytes → String) (rawPayloads : RawPayloads)
    (plan : IngestionPlanRecord) (attempts : String → Option AttemptRecord) (attemptId : String)
    (sourceIds : List String) : Except String (Option String) :=
  match attempts attemptId with
  | none => .error "Mem0 add attempt does not close its source dispatch"
  | some attempt => do
    require (attempt.parentKind = .ingestionPlan ∧ attempt.parentId = plan.ingestionOccurrenceId ∧
        attempt.stage = "memory_ingest" ∧ sourceIds.length = 1)
      "Mem0 add attempt does not close its source dispatch"
    if ∀ sourceId ∈ sourceIds, sourceId ∈ plan.skippedSourceUnitIds then
      require (attempt.outcome = .failed ∧
          ∃ reference ∈ attempt.rawErrorRef, (rawPayloads reference).isSome = true)
        "Mem0 skipped add lacks its terminal failure evidence"
      pure none
    else
      require (attempt.outcome = .succeeded) "Mem0 add attempt does not close its source dispatch"
      match attempt.rawResponseRef with
      | none => .error "Mem0 add attempt does not close its source dispatch"
      | some reference => do
        let payload ← payloadOf rawPayloads reference "Mem0 add raw receipt is missing"
        validateAddReceipt sha256 rawPayloads payload (sourceIds.head?.getD "")
        pure (some reference)

/-! ### A plan -/

/-- The check of the source of a point. -/
def validatePointSource (plan : IngestionPlanRecord) (point : ProjectionPoint) :
    Except String Unit :=
  match point.metadata with
  | none => .ok ()
  | some metadata =>
    require (metadata.ingestionOccurrenceId = plan.ingestionOccurrenceId ∧
        metadata.ingestionPlanId = plan.ingestionPlanId ∧
        metadata.sourceUnitId ∈ plan.acceptedSourceUnitIds ++ plan.skippedSourceUnitIds ∧
        ((plan.orderedSourceUnitIds.zipIdx.reverse.find? fun entry ↦
          entry.1 = metadata.sourceUnitId).any fun entry ↦
            metadata.sourceOrdinal = (entry.2 : ℤ) + 1) = true)
      "Mem0 visible projection contains foreign source metadata"

/-- The evidence of a plan. -/
structure Mem0PlanEvidence where
  plan : IngestionPlanRecord
  projection : Mem0ProjectionEvidence

/-- The last two of some captures. -/
def lastTwo (snapshots : List Mem0ProjectionEvidence) :
    Except String (Mem0ProjectionEvidence × Mem0ProjectionEvidence) :=
  match snapshots.reverse with
  | after :: before :: _ => .ok (before, after)
  | _ => .error "Mem0 readiness lacks two projection observations"

/-- The evidence of a plan, when it is complete. -/
def reconstructMem0Plan (sha256 : Bytes → String) (rawPayloads : RawPayloads)
    (plan : IngestionPlanRecord) (attempts : String → Option AttemptRecord) :
    Except String Mem0PlanEvidence := do
  require (plan.adapterProfileId = mem0ProfileId ∧ plan.memorySystemId = "mem0" ∧
      plan.scopeId = plan.ingestionOccurrenceId)
    "Mem0 plan identity does not match the black-box profile"
  let absence ← reconstructMem0Projection sha256 rawPayloads plan.scopeRawRefs
    plan.ingestionOccurrenceId
  require (absence.projection.points = [] ∧ absence.orderedSourceUnitIds = [])
    "Mem0 scope was not empty before add dispatch"
  require (plan.orderedDispatchAttemptIds.length = plan.orderedDispatchSourceUnitIds.length)
    "zip() arguments have different lengths"
  let addRawRefs ← (plan.orderedDispatchAttemptIds.zip plan.orderedDispatchSourceUnitIds).mapM
    fun dispatch ↦ validateDispatch sha256 rawPayloads plan attempts dispatch.1 dispatch.2
  require (plan.orderedDispatchSourceUnitIds.flatten = plan.orderedSourceUnitIds ∧
      (∀ sourceId ∈ plan.acceptedSourceUnitIds ++ plan.rejectedSourceUnitIds ++
        plan.skippedSourceUnitIds, sourceId ∈ plan.orderedSourceUnitIds) ∧
      (∀ sourceId ∈ plan.orderedSourceUnitIds, sourceId ∈ plan.acceptedSourceUnitIds ++
        plan.rejectedSourceUnitIds ++ plan.skippedSourceUnitIds) ∧
      ∀ reference ∈ addRawRefs.reduceOption, reference ∈ plan.readinessEvidenceRefs)
    "Mem0 completed source ledger does not close"
  let snapshots ← reconstructMem0ProjectionSnapshots sha256 rawPayloads plan.readinessEvidenceRefs
    plan.ingestionOccurrenceId
  let (readinessBefore, readinessAfter) ← lastTwo snapshots
  require (readinessAfter.captureSequence = readinessBefore.captureSequence + 1 ∧
      readinessBefore.orderedSourceUnitIds = readinessAfter.orderedSourceUnitIds ∧
      readinessBefore.stateSha256 = readinessAfter.stateSha256)
    "Mem0 readiness projections are not consecutive and stable"
  let projection ← reconstructMem0Projection sha256 rawPayloads plan.projectionRawRefs
    plan.ingestionOccurrenceId
  projection.projection.points.forM (validatePointSource plan)
  require (projection.orderedSourceUnitIds = plan.projectedSourceUnitIds ∧
      projection.stateSha256 = plan.protectedStateSha256 ∧
      projection.captureSequence = readinessAfter.captureSequence + 1 ∧
      plan.inventoryRawRef = projection.summaryRawRef ∧
      readinessAfter.orderedSourceUnitIds = projection.orderedSourceUnitIds ∧
      readinessAfter.stateSha256 = projection.stateSha256)
    "Mem0 visible projection does not bind the plan"
  pure ⟨plan, projection⟩

end Oamb.Artifacts.Mem0Evidence
