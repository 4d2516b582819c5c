import Oamb.Artifacts.Mem0Evidence
import Oamb.Runtime.NativeSettlement

/-!
# The ingestion of a plan with Mem0

A native run allocates the scope of a plan, sends its dispatches one after the other, waits until the
scope is ready, and projects it. A dispatch is tried again while its failure is settled; after the last
attempt its source is skipped. What came of it is recorded: the attempts, and the plan.
-/

set_option autoImplicit false

namespace Oamb.Runtime.IngestionRuns

open Foundation Foundation.Dialogue
open Contracts.AttemptRecords Contracts.Identities
open MemorySystems MemorySystems.Mem0Ingest MemorySystems.Mem0Capture
open MemorySystems.Mem0Wire MemorySystems.Mem0Readiness
open Artifacts.Mem0Evidence
open NativeSettlement

/-! ### Settings -/

/-- What an ingestion is set to. The encoder makes the body of an add request and the fingerprint is the
one of a dispatch; an attempt may be a live one, and its record names the hash of its receipt. -/
structure RunSettings where
  sha256 : Bytes → String
  encodeAddRequest : Mem0Source → List Message → Except String Json
  fingerprint : ℕ → List SourceUnit → String
  fingerprint_ordinal : ∀ ordinal other units units',
    fingerprint ordinal units = fingerprint other units' → ordinal = other
  internalRetryCount : Option ℕ
  /-- The retries of the control, or three attempts where there is no control. -/
  maxRetriesPerOperation : Option ℕ
  live : String → Option LiveAttempt
  receiptHash : String → String

/-- The most attempts on a dispatch. -/
def RunSettings.maximumAttempts (settings : RunSettings) : ℕ :=
  match settings.maxRetriesPerOperation with
  | none => 3
  | some retries => retries + 1

/-- A plan to ingest, in the scope of its occurrence. -/
structure IngestionPlan where
  ingestionOccurrenceId : String
  ingestionPlanId : String
  orderedSourceUnits : List Mem0Source

/-- The settings of the adapter for the dispatches of a plan. -/
def adapterSettings (settings : RunSettings) (plan : IngestionPlan) (frozen : FrozenPlan)
    (planned : List PlannedAdd) : Settings where
  scopes scopeId :=
    if scopeId = plan.ingestionOccurrenceId then some ⟨plan.ingestionOccurrenceId, some frozen⟩
    else none
  wireRequests _ dispatch := requestsOf planned dispatch
  acceptable rawBytes := (parseAddResponse rawBytes).toOption.isSome
  classifySettledIngestionFailure := classifySettledIngestionFailure
  internalRetryCount := settings.internalRetryCount

/-! ### Attempts -/

/-- The identity of an attempt on a dispatch. -/
def physicalAttemptId (settings : RunSettings) (plan : IngestionPlan) (dispatch : IngestionDispatch)
    (batchOrdinal : ℕ) : String :=
  let baseAttempt := attemptId settings.sha256 plan.ingestionOccurrenceId "memory_ingest"
    dispatch.dispatchOrdinal dispatch.requestFingerprint
  if batchOrdinal = 1 then baseAttempt
  else batchAttemptId settings.sha256 baseAttempt batchOrdinal dispatch.requestFingerprint

/-- An attempt that is prepared. -/
def preparedAttempt (settings : RunSettings) (plan : IngestionPlan) (dispatch : IngestionDispatch)
    (current : String) : PreparedNativeAttempt where
  attemptId := current
  parentKind := .ingestionPlan
  parentId := plan.ingestionOccurrenceId
  stage := .memoryIngest
  requestFingerprint := dispatch.requestFingerprint
  otherFields := ""
  live := settings.live current

/-- The record of an attempt that succeeded or failed. -/
def attemptRecord (settings : RunSettings) (plan : IngestionPlan) (dispatch : IngestionDispatch)
    (current : String) (outcome : AttemptOutcome) (rawResponseRef rawErrorRef : Option String) :
    AttemptRecord :=
  terminalRecord (preparedAttempt settings plan dispatch current) (settings.receiptHash current)
    outcome rawResponseRef rawErrorRef

/-- How far the dispatches of a plan have come: the adapter, the records of the attempts, and the
receipts of the dispatches. -/
structure Progress where
  adapter : Mem0Adapter
  attempts : Dictionary String AttemptRecord
  receipts : List IngestionDispatchReceipt

/-- Record an attempt. -/
def Progress.record (progress : Progress) (adapter : Mem0Adapter) (attempt : AttemptRecord) :
    Progress :=
  { progress with
    adapter := adapter
    attempts := progress.attempts.insert attempt.attemptId attempt }

/-- The receipt of a dispatch that is skipped after a failure that is settled. -/
def skippedReceipt (current : String) (dispatch : IngestionDispatch) (failure : SettledFailure) :
    IngestionDispatchReceipt :=
  ⟨current, dispatch, [], [], dispatch.orderedSourceUnits.map SourceUnit.sourceUnitId,
    failure.rawReference, failure.rawResponseBytes⟩

/-- Try a dispatch some more times, from an ordinal on. -/
def executeIngestionBatch (settings : RunSettings) (plan : IngestionPlan) (adapted : Settings)
    (dispatch : IngestionDispatch) : ℕ → ℕ → Progress → Ingest Progress
  | 0, _, _ => fail (.valueError "ingestion batch exceeded its attempt bound")
  | remaining + 1, batchOrdinal, progress =>
    if hordinal : 1 ≤ batchOrdinal ∧ batchOrdinal ≤ 3 then do
      let current := physicalAttemptId settings plan dispatch batchOrdinal
      let request : IngestionDispatchRequest :=
        ⟨plan.ingestionOccurrenceId, plan.ingestionOccurrenceId, current, dispatch, batchOrdinal,
          hordinal⟩
      let (adapter, outcome) ← ingest settings.sha256 adapted progress.adapter request
      match outcome with
      | .ok receipt =>
        let attempt := attemptRecord settings plan dispatch current .succeeded
          (some receipt.rawReference) none
        let progress := progress.record adapter attempt
        pure { progress with receipts := progress.receipts ++ [receipt] }
      | .error (.settled failure) =>
        let attempt := attemptRecord settings plan dispatch current .failed none
          (some failure.rawReference)
        let progress := progress.record adapter attempt
        if remaining = 0 then
          let receipt := skippedReceipt current dispatch failure
          pure { progress with receipts := progress.receipts ++ [receipt] }
        else
          match ← sleepFor 10 with
          | .cancelled => fail .cancelled
          | .slept =>
            executeIngestionBatch settings plan adapted dispatch remaining (batchOrdinal + 1) progress
      | .error error => fail error
    else fail (.valueError "ingestion batch attempt ordinal must be between one and three")

/-- Send the dispatches of a plan. -/
def executeDispatches (settings : RunSettings) (plan : IngestionPlan) (adapted : Settings) :
    List IngestionDispatch → Progress → Ingest Progress
  | [], progress => pure progress
  | dispatch :: rest, progress => do
    let progress ← executeIngestionBatch settings plan adapted dispatch settings.maximumAttempts 1
      progress
    executeDispatches settings plan adapted rest progress

/-! ### Plans -/

/-- The receipt of a plan. -/
def ingestionReceipt (plan : IngestionPlan) (receipts : List IngestionDispatchReceipt) :
    IngestionReceipt where
  ingestionOccurrenceId := plan.ingestionOccurrenceId
  acceptedSourceUnitIds := receipts.flatMap IngestionDispatchReceipt.acceptedSourceUnitIds
  rejectedSourceUnitIds := receipts.flatMap IngestionDispatchReceipt.rejectedSourceUnitIds
  skippedSourceUnitIds := receipts.flatMap IngestionDispatchReceipt.skippedSourceUnitIds
  rawReferences := receipts.map IngestionDispatchReceipt.rawReference
  dispatchReceipts := receipts

/-- The references of a projection: its summary stands for the inventory and for the state. -/
def projectionRawRefs (captured : CapturedProjection) : List String :=
  captured.summaryReference :: captured.summaryReference :: captured.pageReferences

/-- The record of a plan. -/
def planRecord (plan : IngestionPlan) (absence : CapturedProjection)
    (receipts : List IngestionDispatchReceipt) (evidenceReferences : List String)
    (projection : CapturedProjection) : IngestionPlanRecord :=
  let receipt := ingestionReceipt plan receipts
  { adapterProfileId := mem0ProfileId
    memorySystemId := "mem0"
    scopeId := plan.ingestionOccurrenceId
    ingestionOccurrenceId := plan.ingestionOccurrenceId
    ingestionPlanId := plan.ingestionPlanId
    scopeRawRefs := CapturedProjection.references absence
    orderedSourceUnitIds := plan.orderedSourceUnits.map fun source ↦ source.sourceUnitId
    orderedDispatchAttemptIds := receipts.map IngestionDispatchReceipt.attemptId
    orderedDispatchSourceUnitIds := receipts.map fun receipt ↦
      receipt.dispatch.orderedSourceUnits.map SourceUnit.sourceUnitId
    acceptedSourceUnitIds := receipt.acceptedSourceUnitIds
    rejectedSourceUnitIds := receipt.rejectedSourceUnitIds
    skippedSourceUnitIds := receipt.skippedSourceUnitIds
    readinessEvidenceRefs := Dictionary.fromKeys evidenceReferences
    inventoryRawRef := projection.summaryReference
    projectedSourceUnitIds := projection.orderedSourceUnitIds
    projectionRawRefs := projectionRawRefs projection
    protectedStateSha256 := projection.stateSha256 }

/-- What an ingestion comes to. -/
structure PlanOutcome where
  adapter : Mem0Adapter
  attempts : Dictionary String AttemptRecord
  projection : CapturedProjection
  record : IngestionPlanRecord

/-- Ingest a plan. -/
def executeIngestionPlan (settings : RunSettings) (plan : IngestionPlan) (adapter : Mem0Adapter)
    (attempts : Dictionary String AttemptRecord) : Ingest PlanOutcome := do
  let (adapter, absence) ← allocateIngestionScope settings.sha256 adapter plan.ingestionOccurrenceId
  let (frozen, planned) ← ofExcept (planAdds settings.sha256 settings.encodeAddRequest
    settings.fingerprint settings.fingerprint_ordinal plan.orderedSourceUnits)
  let progress ← executeDispatches settings plan (adapterSettings settings plan frozen planned)
    frozen.dispatches ⟨adapter, attempts, []⟩
  let receipt := ingestionReceipt plan progress.receipts
  let binding : ScopeBinding := ⟨plan.ingestionOccurrenceId, plan.ingestionPlanId⟩
  let (adapter, evidenceReferences) ← waitReady settings.sha256 binding planned progress.adapter
    receipt.acceptedSourceUnitIds receipt
  let (adapter, projection) ← project settings.sha256 adapter plan.ingestionOccurrenceId
  pure ⟨adapter, progress.attempts, projection,
    planRecord plan absence progress.receipts evidenceReferences projection⟩

end Oamb.Runtime.IngestionRuns
