import Oamb.MemorySystems.HindsightProjection
import Oamb.MemorySystems.Mem0Ingest
import Oamb.MemorySystems.Mem0Projection

/-!
# The wire of Mem0

A source is added as pairs of its messages, with one request for each pair. A response to such a request
is an exact object with the events of the memories; a failure that is settled is an exact object with a
code that is known.
-/

set_option autoImplicit false

namespace Oamb.MemorySystems.Mem0Wire

open Foundation Foundation.JsonText
open ExactJson Mem0Ingest Mem0Projection

/-! ### Messages -/

/-- A source with what is checked before it is sent. -/
structure Mem0Source extends SourceUnit where
  payloadSha256 : String
  sourceReference : Option String

/-- A role and a content. -/
abbrev Message : Type := String × String

/-- The value of some bytes. -/
def parseJson (rawBytes : Bytes) : Except String Json :=
  match (readUtf8 rawBytes).bind loads with
  | none => .error "response is not valid JSON"
  | some document =>
    match fault document with
    | some message => .error message
    | none => .ok document

def readMessage (item : Json) : Except String Message := do
  require (item.hasNames ["role", "content"] = true)
    "Mem0 LongMemEval message must contain role and content"
  match (item.get "role").asNonEmptyText, (item.get "content").asText with
  | some role, some content => .ok (role, content)
  | _, _ => .error "Mem0 LongMemEval requires a non-empty role and string content"

/-- The messages of a source of LongMemEval. -/
def longMemEvalMessages (payloadBytes : Bytes) : Except String (List Message) := do
  match ← parseJson payloadBytes with
  | .array (item :: items) => (item :: items).mapM readMessage
  | _ => .error "Mem0 LongMemEval source payload must be a non-empty message list"

/-- The one message of another source. -/
def plainMessages (payloadBytes : Bytes) : Except String (List Message) :=
  match readUtf8 payloadBytes with
  | none => .error "Mem0 source payload must be UTF-8"
  | some [] => .error "Mem0 source payload must not be empty"
  | some (char :: chars) => .ok [("user", String.ofList (char :: chars))]

def sourceMessages (sha256 : Bytes → String) (source : Mem0Source) : Except String (List Message) :=
  let fields := [source.sourceReference, source.occurredAt, source.contextText]
  if sha256 source.payloadBytes ≠ source.payloadSha256 then
    .error "Mem0 source payload hash does not match its bytes"
  else if fields.any Option.isSome then
    if fields.all Option.isSome then longMemEvalMessages source.payloadBytes
    else .error "Mem0 LongMemEval source metadata must be all present or absent"
  else plainMessages source.payloadBytes

/-- The messages two by two. -/
def messagePairs : List Message → List (List Message)
  | [] => []
  | [message] => [[message]]
  | first :: second :: rest => [first, second] :: messagePairs rest

/-- The requests that add a source. The encoder makes the body of a request. -/
def addRequests (sha256 : Bytes → String)
    (encodeAddRequest : Mem0Source → List Message → Except String Json) (source : Mem0Source) :
    Except String (List WireRequest) := do
  let messages ← sourceMessages sha256 source
  (messagePairs messages).mapM fun pair ↦ do
    let body ← encodeAddRequest source pair
    pure ⟨"POST", "/memories", body⟩

/-! ### Responses -/

/-- What was done to a memory. -/
structure AddEvent where
  nativeId : String
  memory : String
  event : String

def addResponseFields : List String := ["results"]

def addEventFields : List String := ["id", "memory", "event"]

def addEventValues : List String := ["ADD", "UPDATE", "DELETE"]

/-- The events of a response, after those of some memories. -/
def readAddEvents : List String → List Json → Except String (List AddEvent)
  | _, [] => .ok []
  | seenIds, rawEvent :: rest => do
    requireExactObject rawEvent addEventFields "add event"
    let nativeId ← requireNonEmptyString (rawEvent.get "id") "add event id"
    require (nativeId ∉ seenIds) s!"duplicate add event id: {nativeId}"
    let memory ← requireNonEmptyString (rawEvent.get "memory") "add event memory"
    let event ← requireNonEmptyString (rawEvent.get "event") "add event event"
    require (event ∈ addEventValues) s!"unsupported exact-profile add event: {event}"
    let events ← readAddEvents (seenIds ++ [nativeId]) rest
    pure (⟨nativeId, memory, event⟩ :: events)

/-- The events of a response; there may be none. -/
def parseAddResponse (rawBytes : Bytes) : Except String (List AddEvent) := do
  let document ← parseExactJsonObject rawBytes addResponseFields
  match document.get "results" with
  | .array results => readAddEvents [] results
  | _ => .error "add response results must be a list"

/-! ### Settled failures -/

def failureFields : List String := ["detail", "code", "request_id"]

/-- The identity of a request at the provider. -/
def isRequestId (text : String) : Bool :=
  text.toList.length = 8 && text.toList.all (· ∈ "0123456789abcdef".toList)

/-- The kinds of the failures with a code. -/
def failureKind : String → Option String
  | "provider_unavailable" => some "supplier_connection"
  | "provider_rate_limited" => some "supplier_rate_limit"
  | "provider_extraction_failed" => some "provider_ingestion_error"
  | _ => none

/-- The kind of a failure that is settled. -/
def classifySettledIngestionFailure (statusCode : ℕ) (rawResponseBytes : Bytes)
    (internalRetryCount : Option ℕ) : Option String :=
  if internalRetryCount ≠ some 10 ∨ rawResponseBytes = [] ∨ statusCode ≠ 502 then none
  else
    match parseExactJsonObject rawResponseBytes failureFields with
    | .error _ => none
    | .ok value =>
      if (value.get "detail").asText.any HindsightProjection.hasText &&
          (value.get "request_id").asText.any isRequestId then
        (value.get "code").asText.bind failureKind
      else none

/-! ### Facts -/

theorem messagePairs_ne_nil {messages : List Message} (hmessages : messages ≠ []) :
    messagePairs messages ≠ [] := by
  cases messages with
  | nil => exact absurd rfl hmessages
  | cons first rest =>
    cases rest with
    | nil => exact List.cons_ne_nil _ _
    | cons second rest => exact List.cons_ne_nil _ _

end Oamb.MemorySystems.Mem0Wire
