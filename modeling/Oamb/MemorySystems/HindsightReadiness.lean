import Oamb.MemorySystems.HindsightProjection

/-!
# Readiness of Hindsight

The runtime ingests the dispatches of a plan one after the other, each in up to three attempts; a
dispatch whose last attempt settled as a failure is skipped. What came of the dispatches is the receipt
of the ingestion. An adapter that is asked whether it is ready checks the receipt against its frozen
plan and reads the bank, whose documents have to be those of all sources that are not rejected.
-/

set_option autoImplicit false

namespace Oamb.MemorySystems.HindsightReadiness

open Foundation Foundation.Dialogue
open RestClient HindsightProjection

/-! ### Receipts -/

variable {υ : Type}

/-- What came of a dispatch, with its records of usage. -/
structure IngestionDispatchReceipt (υ : Type) where
  attemptId : String
  dispatch : IngestionDispatch
  acceptedSourceUnitIds : List String
  rejectedSourceUnitIds : List String
  skippedSourceUnitIds : List String
  rawReference : String
  rawResponseBytes : Bytes
  usageRecords : List υ

/-- What came of the dispatches of a plan. -/
structure IngestionReceipt (υ : Type) where
  ingestionOccurrenceId : String
  acceptedSourceUnitIds : List String
  rejectedSourceUnitIds : List String
  rawReferences : List String
  dispatchReceipts : List (IngestionDispatchReceipt υ)
  skippedSourceUnitIds : List String

/-- The question whether a scope is ready. -/
structure ReadinessRequest (υ : Type) where
  scopeId : String
  ingestionOccurrenceId : String
  expectedSourceUnitIds : List String
  ingestionReceipt : IngestionReceipt υ

structure ReadinessReceipt where
  ingestionOccurrenceId : String
  ready : Bool
  evidenceReferences : List String

/-- The sources of a bank, and its state. -/
structure ProjectionReceipt where
  ingestionOccurrenceId : String
  orderedSourceUnitIds : List String
  stateSha256 : String
  rawReference : String
  supportingRawReferences : List String

/-- The identities of the sources of a dispatch. -/
def sourceIdsOf (dispatch : IngestionDispatch) : List String :=
  dispatch.orderedSourceUnits.map SourceUnit.sourceUnitId

/-! ### The runtime -/

/-- The receipt of a dispatch whose last attempt settled as a failure. -/
def skippedReceipt (attemptId : String) (dispatch : IngestionDispatch) (failure : SettledFailure) :
    IngestionDispatchReceipt υ where
  attemptId := attemptId
  dispatch := dispatch
  acceptedSourceUnitIds := []
  rejectedSourceUnitIds := []
  skippedSourceUnitIds := sourceIdsOf dispatch
  rawReference := failure.rawReference
  rawResponseBytes := failure.rawResponseBytes
  usageRecords := []

/-- The attempts on a dispatch, from an ordinal on, with what each of them comes to. An attempt after
the last one is not made. -/
def executeIngestionBatch (dispatch : IngestionDispatch) (attemptIds : ℕ → String)
    (outcomes : ℕ → Except IngestError (IngestionDispatchReceipt υ)) :
    ℕ → ℕ → Except IngestError (IngestionDispatchReceipt υ)
  | 0, _ => .error (.valueError "ingestion batch exceeded its attempt bound")
  | remaining + 1, ordinal =>
    match outcomes ordinal with
    | .ok receipt =>
      if receipt.attemptId ≠ attemptIds ordinal ∨ receipt.dispatch ≠ dispatch then
        .error (.valueError "native ingestion receipt does not bind its dispatch")
      else .ok receipt
    | .error (.settled failure) =>
      if remaining = 0 then .ok (skippedReceipt (attemptIds ordinal) dispatch failure)
      else executeIngestionBatch dispatch attemptIds outcomes remaining (ordinal + 1)
    | .error error => .error error

/-- The receipt of the ingestion of a plan. -/
def ingestionReceipt (ingestionOccurrenceId : String)
    (dispatchReceipts : List (IngestionDispatchReceipt υ)) : IngestionReceipt υ where
  ingestionOccurrenceId := ingestionOccurrenceId
  acceptedSourceUnitIds :=
    dispatchReceipts.flatMap IngestionDispatchReceipt.acceptedSourceUnitIds
  rejectedSourceUnitIds :=
    dispatchReceipts.flatMap IngestionDispatchReceipt.rejectedSourceUnitIds
  rawReferences := dispatchReceipts.map IngestionDispatchReceipt.rawReference
  dispatchReceipts := dispatchReceipts
  skippedSourceUnitIds :=
    dispatchReceipts.flatMap IngestionDispatchReceipt.skippedSourceUnitIds

/-- The question that the runtime asks after the last dispatch. -/
def readinessRequest (scopeId ingestionOccurrenceId : String)
    (dispatchReceipts : List (IngestionDispatchReceipt υ)) : ReadinessRequest υ where
  scopeId := scopeId
  ingestionOccurrenceId := ingestionOccurrenceId
  expectedSourceUnitIds :=
    (ingestionReceipt ingestionOccurrenceId dispatchReceipts).acceptedSourceUnitIds
  ingestionReceipt := ingestionReceipt ingestionOccurrenceId dispatchReceipts

/-! ### The adapter -/

/-- What an adapter is set to. The usage of a retain is read from its response, for an attempt, an
occurrence and the reference of the response. -/
structure AdapterSettings (υ : Type) where
  ingestion : HindsightIngest.Settings
  profile : Profile
  retainUsageRecord : Bytes → String → String → String → υ

/-- The receipt of an attempt. -/
def dispatchReceipt (settings : AdapterSettings υ) (request : IngestionDispatchRequest)
    (response : SealedRestResponse) : IngestionDispatchReceipt υ where
  attemptId := request.attemptId
  dispatch := request.dispatch
  acceptedSourceUnitIds := sourceIdsOf request.dispatch
  rejectedSourceUnitIds := []
  skippedSourceUnitIds := []
  rawReference := response.rawReference
  rawResponseBytes := response.rawBytes
  usageRecords :=
    [settings.retainUsageRecord response.rawBytes request.attemptId request.ingestionOccurrenceId
      response.rawReference]

/-- An attempt that entered, up to its receipt. -/
def ingest (settings : AdapterSettings υ) (request : IngestionDispatchRequest) :
    Ingest (IngestionDispatchReceipt υ) := do
  let response ← HindsightIngest.body settings.ingestion request
  pure (dispatchReceipt settings request response)

variable [DecidableEq υ]

/-- The sources of a dispatch that the bank may show, after the checks of its receipt. -/
def receiptSources (settings : AdapterSettings υ) (scopeId ingestionOccurrenceId : String)
    (ordinal : ℕ) (receipt : IngestionDispatchReceipt υ) : Except String (List SourceUnit) := do
  let dispatch := receipt.dispatch
  require (dispatch.dispatchOrdinal = ordinal) "Hindsight readiness dispatch order is not contiguous"
  let accepted := receipt.acceptedSourceUnitIds
  let rejected := receipt.rejectedSourceUnitIds
  let skipped := receipt.skippedSourceUnitIds
  let all := accepted ++ rejected ++ skipped
  require (accepted.all (· ∉ rejected) && accepted.all (· ∉ skipped) && rejected.all (· ∉ skipped) &&
      all.all (· ∈ sourceIdsOf dispatch) && (sourceIdsOf dispatch).all (· ∈ all))
    "Hindsight readiness dispatch receipt is not source-bound"
  require (settings.profile.sha256 receipt.rawResponseBytes = receipt.rawReference)
    "Hindsight readiness raw receipt hash does not match"
  if skipped ≠ [] then
    pure (dispatch.orderedSourceUnits.filter fun source ↦ source.sourceUnitId ∉ rejected)
  else
    require (settings.ingestion.acceptable scopeId dispatch.orderedSourceUnits.length
        receipt.rawResponseBytes)
      "Hindsight retain response failed exact-profile validation"
    let usage := settings.retainUsageRecord receipt.rawResponseBytes receipt.attemptId
      ingestionOccurrenceId receipt.rawReference
    require (receipt.usageRecords = [usage])
      "Hindsight readiness usage is not bound to the raw receipt"
    pure dispatch.orderedSourceUnits

/-- The sources of all dispatches, from an ordinal on. -/
def allReceiptSources (settings : AdapterSettings υ) (scopeId ingestionOccurrenceId : String) :
    ℕ → List (IngestionDispatchReceipt υ) → Except String (List SourceUnit)
  | _, [] => .ok []
  | ordinal, receipt :: rest => do
    let sources ← receiptSources settings scopeId ingestionOccurrenceId ordinal receipt
    let others ← allReceiptSources settings scopeId ingestionOccurrenceId (ordinal + 1) rest
    pure (sources ++ others)

/-- The sources that the bank may show. -/
def validateReadinessRequest (settings : AdapterSettings υ) (request : ReadinessRequest υ) :
    Except String (List SourceUnit) := do
  let receipt := request.ingestionReceipt
  match settings.ingestion.scopes request.scopeId with
  | none => .error "Hindsight scope was not allocated by this adapter"
  | some scope =>
    require (scope.ingestionOccurrenceId = request.ingestionOccurrenceId)
      "Hindsight scope was not allocated by this adapter"
    match scope.plan with
    | none => .error "Hindsight readiness has no frozen ingestion plan"
    | some plan =>
      let plannedSourceIds := plan.dispatches.flatMap sourceIdsOf
      require (receipt.ingestionOccurrenceId = request.ingestionOccurrenceId)
        "Hindsight readiness receipt names another ingestion occurrence"
      require (plannedSourceIds ≠ []) "Hindsight readiness requires expected source IDs"
      require (request.expectedSourceUnitIds = receipt.acceptedSourceUnitIds)
        "Hindsight readiness expected inventory differs from accepted sources"
      require (receipt.dispatchReceipts.map IngestionDispatchReceipt.dispatch = plan.dispatches)
        "Hindsight readiness receipts do not match the frozen dispatch set"
      require (receipt.acceptedSourceUnitIds =
          receipt.dispatchReceipts.flatMap IngestionDispatchReceipt.acceptedSourceUnitIds &&
        receipt.rejectedSourceUnitIds =
          receipt.dispatchReceipts.flatMap IngestionDispatchReceipt.rejectedSourceUnitIds &&
        receipt.skippedSourceUnitIds =
          receipt.dispatchReceipts.flatMap IngestionDispatchReceipt.skippedSourceUnitIds)
        "Hindsight readiness aggregate source partition is invalid"
      require (receipt.rawReferences =
          receipt.dispatchReceipts.map IngestionDispatchReceipt.rawReference)
        "Hindsight readiness receipt raw references are not dispatch-bound"
      let sources ← allReceiptSources settings request.scopeId request.ingestionOccurrenceId 1
        receipt.dispatchReceipts
      let sourceIds := sources.map SourceUnit.sourceUnitId
      require (sourceIds = plannedSourceIds.filter (· ∉ receipt.rejectedSourceUnitIds))
        "Hindsight readiness dispatch sources do not match observable order"
      require sourceIds.Nodup "Hindsight readiness source IDs are not unique"
      pure sources

/-- A scope that is ready: its occurrence, its sources, and the source of each document. -/
structure ReadyScope where
  ingestionOccurrenceId : String
  sources : List SourceUnit
  documentSources : List (String × String)

/-- The scopes that are ready. -/
abbrev ReadyScopes : Type := String → Option ReadyScope

/-- Check that a scope is ready. -/
def waitReady (settings : AdapterSettings υ) (ready : ReadyScopes) (request : ReadinessRequest υ) :
    Ingest (ReadinessReceipt × ReadyScopes) := do
  let sources ← ofExcept ((validateReadinessRequest settings request).mapError .valueError)
  let snapshot ← buildProjection settings.profile request.scopeId sources
  pure
    (⟨request.ingestionOccurrenceId, true,
        request.ingestionReceipt.rawReferences ++ snapshot.rawReferences⟩,
      Function.update ready request.scopeId
        (some ⟨request.ingestionOccurrenceId, sources, snapshot.documentToSourceUnit⟩))

/-- The state of a scope that is ready. -/
def project (settings : AdapterSettings υ) (ready : ReadyScopes)
    (scopeId ingestionOccurrenceId : String) : Ingest ProjectionReceipt :=
  match ready scopeId with
  | none => fail (.valueError "Hindsight scope is not ready for projection")
  | some scope =>
    if scope.ingestionOccurrenceId ≠ ingestionOccurrenceId then
      fail (.valueError "Hindsight projection scope binding changed")
    else do
      let snapshot ← buildProjection settings.profile scopeId scope.sources
      pure ⟨ingestionOccurrenceId, snapshot.orderedSourceUnitIds, snapshot.stateSha256,
        snapshot.stateSha256, snapshot.rawReferences⟩

end Oamb.MemorySystems.HindsightReadiness
