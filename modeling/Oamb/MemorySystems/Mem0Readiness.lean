import Oamb.MemorySystems.Mem0Capture
import Oamb.MemorySystems.Mem0Wire

/-!
# The readiness of Mem0

A scope of Mem0 is allocated when its projection is empty. The dispatches of a plan are added one after
the other; the scope is ready when two captures of its projection agree and show no source but those of
the plan. A projection of a ready scope is a capture that agrees with the one that made it ready.
-/

set_option autoImplicit false

namespace Oamb.MemorySystems.Mem0Readiness

open Foundation Foundation.Dialogue
open Contracts.Identities RestClient ExactJson Mem0Ingest Mem0Projection Mem0Capture Mem0Wire

/-! ### Receipts -/

/-- What a dispatch came to. -/
structure IngestionDispatchReceipt where
  attemptId : String
  dispatch : IngestionDispatch
  acceptedSourceUnitIds : List String
  rejectedSourceUnitIds : List String
  skippedSourceUnitIds : List String
  rawReference : String
  rawResponseBytes : Bytes

/-- What the dispatches of a plan came to. -/
structure IngestionReceipt where
  ingestionOccurrenceId : String
  acceptedSourceUnitIds : List String
  rejectedSourceUnitIds : List String
  skippedSourceUnitIds : List String
  rawReferences : List String
  dispatchReceipts : List IngestionDispatchReceipt

/-- What a scope is bound to. -/
structure ScopeBinding where
  ingestionOccurrenceId : String
  ingestionPlanId : String

/-- A dispatch of a plan with its requests. -/
structure PlannedAdd where
  dispatch : IngestionDispatch
  requests : List WireRequest

/-- What an adapter keeps, and the payloads that it sealed itself. -/
structure Mem0Adapter where
  dispatches : Mem0Ingest.Adapter
  completedAddResponseRefs : String × String → Option (List String)
  projectionCaptureSequences : CaptureSequences
  readyProjections : String → Option CapturedProjection
  sealedPayloads : List Bytes

/-! ### Captures -/

/-- Capture the projection of a run and number it. -/
def captureProjection (sha256 : Bytes → String) (adapter : Mem0Adapter) (runId : String) :
    Ingest (Mem0Adapter × CapturedProjection) := do
  let (native, responses) ← captureNativeProjection runId
  let (sequences, captured) :=
    sealCapture sha256 adapter.projectionCaptureSequences runId native responses
  pure
    ({ adapter with
        projectionCaptureSequences := sequences
        sealedPayloads := adapter.sealedPayloads ++ [captured.summary] },
      captured)

/-- Allocate the scope of an occurrence, which shows no memory yet. -/
def allocateIngestionScope (sha256 : Bytes → String) (adapter : Mem0Adapter)
    (ingestionOccurrenceId : String) : Ingest (Mem0Adapter × CapturedProjection) :=
  if isRunId ingestionOccurrenceId = false then
    fail (.valueError "Mem0 run_id must be a full lowercase SHA-256 identifier")
  else do
    let (adapter, captured) ← captureProjection sha256 adapter ingestionOccurrenceId
    if captured.native.declaredCount ≠ 0 ∨ captured.native.points ≠ [] then
      fail (.valueError "Mem0 run scope already contains retrieval-visible memory")
    else pure (adapter, captured)

/-! ### Plans -/

/-- The plan of the sources of a scope, with the requests of every dispatch. -/
def planAdds (sha256 : Bytes → String)
    (encodeAddRequest : Mem0Source → List Message → Except String Json)
    (fingerprint : ℕ → List SourceUnit → String)
    (hfingerprint : ∀ ordinal other units units',
      fingerprint ordinal units = fingerprint other units' → ordinal = other)
    (sources : List Mem0Source) : Except IngestError (FrozenPlan × List PlannedAdd) := do
  let plan ← planIngestion fingerprint hfingerprint (sources.map Mem0Source.toSourceUnit)
  let requests ← (sources.mapM (addRequests sha256 encodeAddRequest)).mapError .valueError
  pure (plan, List.zipWith PlannedAdd.mk plan.dispatches requests)

/-- The requests of a dispatch. -/
def requestsOf (planned : List PlannedAdd) (dispatch : IngestionDispatch) : List WireRequest :=
  ((planned.find? fun add ↦ add.dispatch = dispatch).map PlannedAdd.requests).getD []

/-! ### Dispatches -/

/-- The source of a dispatch. -/
def sourceOf (dispatch : IngestionDispatch) : String :=
  (dispatch.orderedSourceUnits.head?.map SourceUnit.sourceUnitId).getD ""

def pairReceiptFields : List String :=
  ["schema_name", "schema_version", "source_unit_id", "ordered_response_sha256"]

/-- What is sealed for a source that was added with several requests. -/
def pairReceiptDocument (sourceUnitId : String) (references : List String) : Json :=
  .object
    [("schema_name", .string "oamb_mem0_pair_add_receipt"),
      ("schema_version", .integer 1),
      ("source_unit_id", .string sourceUnitId),
      ("ordered_response_sha256", .array (references.map .string))]

/-- The bytes of the receipt of a source: its one response, or the document of its responses. -/
def receiptBytes (sourceUnitId : String) : List SealedRestResponse → Bytes
  | [response] => response.rawBytes
  | responses => canonicalJsonBytes
      (pairReceiptDocument sourceUnitId (responses.map SealedRestResponse.rawReference))

/-- The reference of the receipt of a source. The sealed bytes are stored under their digest. -/
def receiptReference (sha256 : Bytes → String) (sourceUnitId : String) :
    List SealedRestResponse → String
  | [response] => response.rawReference
  | responses => sha256 (receiptBytes sourceUnitId responses)

/-- The receipt of a dispatch that was added. -/
def addReceipt (sha256 : Bytes → String) (request : IngestionDispatchRequest)
    (responses : List SealedRestResponse) : IngestionDispatchReceipt :=
  let sourceId := sourceOf request.dispatch
  ⟨request.attemptId, request.dispatch, [sourceId], [], [],
    receiptReference sha256 sourceId responses, receiptBytes sourceId responses⟩

/-- What is sealed for the responses of a source. -/
def sealedReceipts (sourceUnitId : String) (responses : List SealedRestResponse) : List Bytes :=
  if responses.length = 1 then [] else [receiptBytes sourceUnitId responses]

/-- Keep the references of the responses of a dispatch, and seal its receipt. -/
def Mem0Adapter.complete (adapter : Mem0Adapter) (request : IngestionDispatchRequest)
    (responses : List SealedRestResponse) : Mem0Adapter :=
  { adapter with
    completedAddResponseRefs := Function.update adapter.completedAddResponseRefs (bookKey request)
      (some (responses.map SealedRestResponse.rawReference))
    sealedPayloads :=
      adapter.sealedPayloads ++ sealedReceipts (sourceOf request.dispatch) responses }

/-- Ingest a dispatch. The dispatches of a plan are sent one after the other, so that the lock of the
scope is free. -/
def ingest (sha256 : Bytes → String) (settings : Settings) (adapter : Mem0Adapter)
    (request : IngestionDispatchRequest) :
    Ingest (Mem0Adapter × Except IngestError IngestionDispatchReceipt) :=
  match enter settings adapter.dispatches request with
  | none => fail .cancelled
  | some (.error error) => pure (adapter, .error error)
  | some (.ok entered) => do
    let outcome ← settle (body settings request)
    let left := { adapter with dispatches := leave entered request outcome }
    match outcome with
    | .error error => pure (left, .error error)
    | .ok responses => pure (left.complete request responses, .ok (addReceipt sha256 request responses))

/-! ### Readiness -/

/-- The texts of a list of texts. -/
def asTexts : Json → Option (List String)
  | .array items => items.mapM Json.asText
  | _ => none

/-- The three lists of a receipt have nothing in common, and together only the source of its dispatch. -/
def partitions (receipt : IngestionDispatchReceipt) : Prop :=
  (∀ sourceId ∈ receipt.acceptedSourceUnitIds,
      sourceId ∉ receipt.rejectedSourceUnitIds ++ receipt.skippedSourceUnitIds) ∧
    (∀ sourceId ∈ receipt.rejectedSourceUnitIds, sourceId ∉ receipt.skippedSourceUnitIds) ∧
    (∀ sourceId ∈ receipt.acceptedSourceUnitIds ++ receipt.rejectedSourceUnitIds ++
      receipt.skippedSourceUnitIds, sourceId = sourceOf receipt.dispatch) ∧
    sourceOf receipt.dispatch ∈ receipt.acceptedSourceUnitIds ++ receipt.rejectedSourceUnitIds ++
      receipt.skippedSourceUnitIds

instance instDecidablePartitions (receipt : IngestionDispatchReceipt) :
    Decidable (partitions receipt) :=
  inferInstanceAs (Decidable (_ ∧ _))

/-- The planned dispatch of a receipt. -/
def plannedOf (planned : List PlannedAdd) (dispatch : IngestionDispatch) : Except String PlannedAdd :=
  match dispatch.dispatchOrdinal with
  | 0 => .error "Mem0 add dispatch does not match the frozen plan"
  | index + 1 =>
    match planned[index]? with
    | none => .error "Mem0 add dispatch does not match the frozen plan"
    | some add =>
      if dispatch = add.dispatch ∧ dispatch.operationKind = addOperation ∧
          dispatch.orderedSourceUnits.length = 1 then .ok add
      else .error "Mem0 add dispatch does not match the frozen plan"

/-- The check of the receipt of a source that was added with several requests. -/
def checkPairReceipt (receipt : IngestionDispatchReceipt) (expected : Option (List String)) :
    Except String Unit := do
  let document ← parseExactJsonObject receipt.rawResponseBytes pairReceiptFields
  require ((document.get "schema_name").isText "oamb_mem0_pair_add_receipt" = true ∧
      (document.get "schema_version").asInteger = some 1 ∧
      (document.get "source_unit_id").isText (sourceOf receipt.dispatch) = true ∧
      (asTexts (document.get "ordered_response_sha256")).isSome = true ∧
      asTexts (document.get "ordered_response_sha256") = expected)
    "Mem0 pair-add receipt does not match its frozen plan"

/-- The check of a receipt. -/
def checkDispatchReceipt (sha256 : Bytes → String) (planned : List PlannedAdd)
    (adapter : Mem0Adapter) (scopeId : String) (receipt : IngestionDispatchReceipt) :
    Except String Unit := do
  require (sha256 receipt.rawResponseBytes = receipt.rawReference)
    "Mem0 readiness raw add receipt hash does not match"
  require (partitions receipt) "Mem0 readiness dispatch source partition is invalid"
  if receipt.skippedSourceUnitIds = [] then
    let add ← plannedOf planned receipt.dispatch
    if add.requests.length = 1 then
      let _ ← parseAddResponse receipt.rawResponseBytes
      pure ()
    else
      checkPairReceipt receipt
        (adapter.completedAddResponseRefs (scopeId, receipt.dispatch.requestFingerprint))
  else pure ()

/-- The check of what readiness is asked for. -/
def checkReadiness (sha256 : Bytes → String) (binding : ScopeBinding) (planned : List PlannedAdd)
    (adapter : Mem0Adapter) (expectedSourceUnitIds : List String) (receipt : IngestionReceipt) :
    Except String Unit := do
  require (expectedSourceUnitIds = receipt.acceptedSourceUnitIds ∧
      receipt.ingestionOccurrenceId = binding.ingestionOccurrenceId ∧
      receipt.dispatchReceipts.map IngestionDispatchReceipt.dispatch =
        planned.map PlannedAdd.dispatch ∧
      receipt.rawReferences = receipt.dispatchReceipts.map IngestionDispatchReceipt.rawReference)
    "Mem0 readiness receipt does not bind the completed source ledger"
  require (receipt.acceptedSourceUnitIds =
        receipt.dispatchReceipts.flatMap IngestionDispatchReceipt.acceptedSourceUnitIds ∧
      receipt.rejectedSourceUnitIds =
        receipt.dispatchReceipts.flatMap IngestionDispatchReceipt.rejectedSourceUnitIds ∧
      receipt.skippedSourceUnitIds =
        receipt.dispatchReceipts.flatMap IngestionDispatchReceipt.skippedSourceUnitIds)
    "Mem0 readiness aggregate source partition is invalid"
  receipt.dispatchReceipts.forM
    (checkDispatchReceipt sha256 planned adapter binding.ingestionOccurrenceId)

/-- The check of the source of a point. -/
def checkPointSource (binding : ScopeBinding) (completed : List SourceUnit)
    (point : ProjectionPoint) : Except String Unit :=
  match point.metadata with
  | none => .ok ()
  | some metadata => do
    require (metadata.ingestionOccurrenceId = binding.ingestionOccurrenceId ∧
        metadata.ingestionPlanId = binding.ingestionPlanId)
      "Mem0 projection contains foreign scope metadata"
    match completed.reverse.find? fun source ↦ source.sourceUnitId = metadata.sourceUnitId with
    | none => .error "Mem0 projection contains an unplanned source identity"
    | some source => do
      require (metadata.sourceOrdinal = (source.ordinal : ℤ))
        "Mem0 projection source ordinal differs from the frozen plan"
      require (∀ occurredAt ∈ source.occurredAt, point.createdAt = occurredAt)
        "Mem0 projection created_at differs from the source observation time"

/-- The sources of a plan that were not rejected. -/
def completedSources (planned : List PlannedAdd) (rejected : List String) : List SourceUnit :=
  (planned.flatMap fun add ↦ add.dispatch.orderedSourceUnits.take 1).filter fun source ↦
    source.sourceUnitId ∉ rejected

/-- The references of a capture: its summary and its pages. -/
def CapturedProjection.references (captured : CapturedProjection) : List String :=
  captured.summaryReference :: captured.pageReferences

/-- Two captures agree on the sources and on the state. -/
def agree (first second : CapturedProjection) : Prop :=
  first.orderedSourceUnitIds = second.orderedSourceUnitIds ∧ first.stateSha256 = second.stateSha256

instance instDecidableAgree (first second : CapturedProjection) : Decidable (agree first second) :=
  inferInstanceAs (Decidable (_ ∧ _))

/-- Wait until a scope is ready: two captures of it agree. The references are the evidence. -/
def waitReady (sha256 : Bytes → String) (binding : ScopeBinding) (planned : List PlannedAdd)
    (adapter : Mem0Adapter) (expectedSourceUnitIds : List String) (receipt : IngestionReceipt) :
    Ingest (Mem0Adapter × List String) := do
  let runId := binding.ingestionOccurrenceId
  ofExcept ((checkReadiness sha256 binding planned adapter expectedSourceUnitIds receipt).mapError
    .valueError)
  let (adapter, first) ← captureProjection sha256 adapter runId
  let (adapter, second) ← captureProjection sha256 adapter runId
  if ¬ agree first second then
    fail (.valueError "Mem0 retrieval-visible projection did not reach a stable boundary")
  else do
    ofExcept ((second.native.points.forM (checkPointSource binding
      (completedSources planned receipt.rejectedSourceUnitIds))).mapError .valueError)
    pure
      ({ adapter with
          readyProjections := Function.update adapter.readyProjections runId (some second) },
        receipt.rawReferences ++ CapturedProjection.references first ++
          CapturedProjection.references second)

/-- Project a ready scope. -/
def project (sha256 : Bytes → String) (adapter : Mem0Adapter) (scopeId : String) :
    Ingest (Mem0Adapter × CapturedProjection) :=
  match adapter.readyProjections scopeId with
  | none => fail (.valueError "Mem0 scope has not passed readiness")
  | some ready => do
    let (adapter, captured) ← captureProjection sha256 adapter scopeId
    if agree captured ready then pure (adapter, captured)
    else fail (.valueError "Mem0 projection differs from the readiness-sealed state")

end Oamb.MemorySystems.Mem0Readiness
