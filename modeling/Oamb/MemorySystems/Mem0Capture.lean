import Oamb.MemorySystems.Ingestion
import Oamb.MemorySystems.Mem0Projection

/-!
# Captures of the projection of Mem0

The adapter asks the inspector for the pages of a run, each after the cursor of the page before it,
until a page has no cursor; more pages than the limit are a failure. The pages are then parsed as one
projection. A capture that is complete takes the next number of its run, and seals a summary of what it
saw.
-/

set_option autoImplicit false

namespace Oamb.MemorySystems.Mem0Capture

open Foundation Foundation.Dialogue
open Contracts.Identities RestClient ExactJson Mem0Projection

def mem0Collection : String := "oamb_memories"

/-- The request for a page: the first one, or the one after a cursor. -/
def projectionCall (runId : String) (cursor : Option String) : RestCall where
  method := "GET"
  path := "/v1/projection"
  params := ("run_id", .string runId) :: (cursor.map fun text ↦ ("cursor", Json.string text)).toList

/-- The cursor of a page. -/
def nextCursor (rawBytes : Bytes) : Except String (Option String) := do
  let page ← parseExactJsonObject rawBytes pageFields
  match page.get "next_cursor" with
  | .null => pure none
  | .string cursor => pure (some cursor)
  | _ => .error "Mem0 inspector cursor must be a string or null"

/-- Read the pages from a cursor on, no more than a limit. -/
def capturePages (runId : String) :
    ℕ → List SealedRestResponse → Option String → Ingest (List SealedRestResponse)
  | 0, responses, _ =>
    match responses.getLast? with
    | none => fail (.valueError "list index out of range")
    | some terminal =>
      fail (validationFailure "Mem0 inspector projection page limit exceeded" terminal)
  | pages + 1, responses, cursor => do
    let response ← send (projectionCall runId cursor)
    match nextCursor response.rawBytes with
    | .error _ =>
      fail (validationFailure "Mem0 inspector page failed exact-profile validation" response)
    | .ok none => pure (responses ++ [response])
    | .ok (some next) => capturePages runId pages (responses ++ [response]) (some next)

/-- The projection of the pages that were read. -/
def parseResponses (runId : String) (responses : List SealedRestResponse) :
    Except IngestError Projection :=
  (parseProjectionPages (responses.map SealedRestResponse.rawBytes) mem0Collection runId
    mem0ProjectionMaxPages mem0ProjectionMaxPoints).mapError fun message ↦
      match responses.getLast? with
      | none => .valueError message
      | some terminal =>
        validationFailure "Mem0 projection failed exact-profile validation" terminal

/-- The pages of a run with their projection. -/
def captureNativeProjection (runId : String) : Ingest (Projection × List SealedRestResponse) := do
  let responses ← capturePages runId mem0ProjectionMaxPages [] none
  let native ← ofExcept (parseResponses runId responses)
  pure (native, responses)

/-! ### Receipts -/

/-- What a capture came to: the projection, and the receipt that is sealed for it. -/
structure CapturedProjection where
  native : Projection
  orderedSourceUnitIds : List String
  stateSha256 : String
  captureSequence : ℕ
  /-- The bytes of the summary, and the reference they are sealed under. -/
  summary : Bytes
  summaryReference : String
  pageReferences : List String

/-- The summary of a capture. -/
def summaryDocument (native : Projection) (sourceIds : List String) (stateSha256 : String)
    (captureSequence : ℕ) (pageReferences : List String) : Json :=
  .object
    [("schema", .string "oamb-mem0-projection-receipt-v1"),
      ("collection", .string native.collection),
      ("run_id", .string native.runId),
      ("ordered_source_unit_ids", .array (sourceIds.map .string)),
      ("state_sha256", .string stateSha256),
      ("capture_sequence", .integer captureSequence),
      ("page_raw_refs", .array (pageReferences.map .string))]

/-- The number of the last capture of each run. -/
abbrev CaptureSequences : Type := String → ℕ

/-- Number a capture that is complete, and make its receipt. The sealed bytes are stored under their
digest. -/
def sealCapture (sha256 : Bytes → String) (sequences : CaptureSequences) (runId : String)
    (native : Projection) (responses : List SealedRestResponse) :
    CaptureSequences × CapturedProjection :=
  let sourceIds := projectionSourceUnitIds native
  let stateSha256 := projectionStateSha256 sha256 native
  let captureSequence := sequences runId + 1
  let pageReferences := responses.map SealedRestResponse.rawReference
  let summary := canonicalJsonBytes
    (summaryDocument native sourceIds stateSha256 captureSequence pageReferences)
  (Function.update sequences runId captureSequence,
    ⟨native, sourceIds, stateSha256, captureSequence, summary, sha256 summary, pageReferences⟩)

end Oamb.MemorySystems.Mem0Capture
