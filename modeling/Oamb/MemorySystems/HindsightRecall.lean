import Oamb.Contracts.NativeEvidence
import Oamb.MemorySystems.ExactJson
import Oamb.MemorySystems.HindsightProjection

/-!
# Recall of Hindsight

A recall response has facts and chunks. `normalizeRecall` checks them and lists the facts in the
order of the response, each chunk behind the first fact that names it, and the chunks that no fact
names at the end.
-/

set_option autoImplicit false

namespace Oamb.MemorySystems.HindsightRecall

open Foundation Foundation.Json Foundation.JsonText Contracts.NativeEvidence ExactJson
open HindsightProjection (require isTexts isNullOrObject hasText)

/-! ### Fields -/

def recallFields : List String :=
  ["results", "trace", "entities", "chunks", "source_facts", "source_facts_truncated"]

def requiredRecallFields : List String := ["results", "trace"]

def resultFields : List String :=
  ["id", "text", "type", "entities", "context", "occurred_start", "occurred_end", "mentioned_at",
    "document_id", "metadata", "chunk_id", "tags", "source_fact_ids", "scores"]

def requiredResultFields : List String := ["id", "text", "type"]

def chunkFields : List String := ["id", "text", "chunk_index", "truncated"]

def scoreFields : List String := ["final", "reranker", "semantic", "keyword"]

def requiredScoreFields : List String := ["final"]

/-- The names are allowed, and the required ones are there. -/
def isClosed (value : Json) (allowedFields requiredFields : List String) : Bool :=
  requiredFields.all (· ∈ value.names) && value.names.all (· ∈ allowedFields)

def closedObject (value : Json) (allowedFields requiredFields : List String) (label : String) :
    Except String Unit := do
  require value.isObject s!"Hindsight recall {label} must be an object"
  require (isClosed value allowedFields requiredFields)
    s!"Hindsight recall {label} fields do not match the exact profile"

def exactObject (value : Json) (fields : List String) (label : String) : Except String Unit :=
  require (value.hasNames fields)
    s!"Hindsight recall {label} fields do not match the exact profile"

def nullableString (value : Json) (label : String) : Except String (Option String) :=
  match value with
  | .null => .ok none
  | .string text => .ok (some text)
  | _ => .error s!"Hindsight recall {label} must be a string or null"

def stringListOrNone (value : Json) (label : String) : Except String Unit :=
  require (value.isNull || isTexts value)
    s!"Hindsight recall {label} must be an array of strings or null"

def isNumber : Json → Bool
  | .integer _ | .real _ _ => true
  | _ => false

/-! ### Scores -/

/-- The shortest text of the double that a text writes. -/
abbrev DoubleText := String → String

variable (doubleText : DoubleText)

def dumpsNumber : Json → Except String String
  | .integer value => .ok (String.ofList (writeInteger value))
  | .real true text => .ok (doubleText text)
  | _ => .error "Out of range float values are not JSON compliant"

def nativeScore (value : Json) : Except String (Option String) :=
  if value.isNull then .ok none
  else do
    closedObject value scoreFields requiredScoreFields "scores"
    require (isNumber (value.get "final")) "Hindsight recall final score must be numeric"
    for name in ["reranker", "semantic", "keyword"] do
      require ((value.get name).isNull || isNumber (value.get name))
        s!"Hindsight recall {name} score must be numeric or null"
    require (value.get "reranker").isNull
      "Hindsight recall returned a reranker score after reranking was disabled"
    (dumpsNumber doubleText (value.get "final")).map some

/-! ### Chunks -/

structure Chunk where
  id : String
  text : String
  truncated : Bool
  deriving DecidableEq

def readChunk (member : String × Json) : Except String Chunk := do
  require (member.1 ≠ "") "Hindsight recall chunk key must be non-empty"
  exactObject member.2 chunkFields "chunk"
  require ((member.2.get "id").isText member.1)
    "Hindsight recall chunk ID disagrees with its map key"
  match member.2.get "text", member.2.get "chunk_index", member.2.get "truncated" with
  | .string text, .integer index, .bool truncated =>
    require (0 ≤ index) "Hindsight recall chunk index must be non-negative"
    pure ⟨member.1, text, truncated⟩
  | .string _, .integer index, _ =>
    require (0 ≤ index) "Hindsight recall chunk index must be non-negative"
    .error "Hindsight recall chunk truncated must be boolean"
  | .string _, _, _ => .error "Hindsight recall chunk index must be non-negative"
  | _, _, _ => .error "Hindsight recall chunk text must be a string"

/-- The chunks of a response, which may have none. -/
def chunks (value : Json) : Except String (List Chunk) :=
  match value with
  | .object members => members.mapM readChunk
  | _ => .error "Hindsight recall chunks must be an object"

/-! ### Facts -/

/-- What is known after some facts: the facts, the sources of the chunks that they name, and their
identities. -/
structure Reading where
  facts : List NativeEvidenceCandidate
  chunkSources : Dictionary String String
  seenIds : List String

def memoryIdOf (seenIds : List String) (result : Json) : Except String String :=
  match result.get "id" with
  | .string memoryId =>
    if memoryId = "" then .error "Hindsight recall memory ID must be non-empty"
    else if memoryId ∈ seenIds then .error "Hindsight recall returned a duplicate memory ID"
    else .ok memoryId
  | _ => .error "Hindsight recall memory ID must be non-empty"

def textOf (result : Json) : Except String String :=
  match result.get "text" with
  | .string text =>
    if hasText text then .ok text else .error "Hindsight recall result text must be non-empty"
  | _ => .error "Hindsight recall result text must be non-empty"

def factTypeOf (result : Json) : Except String String :=
  match result.get "type" with
  | .string factType =>
    if factType ∈ ["world", "experience"] then .ok factType
    else .error "Hindsight recall returned an unrequested fact type"
  | _ => .error "Hindsight recall returned an unrequested fact type"

def checkLists (result : Json) : Except String Unit := do
  stringListOrNone (result.get "entities") "entities"
  stringListOrNone (result.get "tags") "tags"
  require (isNullOrObject (result.get "metadata"))
    "Hindsight recall metadata must be an object or null"
  require (result.get "source_fact_ids").isNull
    "Hindsight raw fact unexpectedly returned source_fact_ids"

/-- The source unit of a document, if a document is named. -/
def sourceUnitOf (documentToSourceUnit : Dictionary String String) (documentId : Option String) :
    Except String (Option String) :=
  match documentId with
  | none => .ok none
  | some documentId =>
    match documentToSourceUnit.lookup documentId with
    | some sourceUnitId => .ok (some sourceUnitId)
    | none => .error "Hindsight recall result names an unknown source document"

/-- The source of a chunk is the one of the first fact that names it and has one. -/
def recordSource (chunkIds : List String) (chunkSources : Dictionary String String)
    (chunkId sourceUnitId : Option String) : Except String (Dictionary String String) :=
  match chunkId, sourceUnitId with
  | some chunkId, some sourceUnitId =>
    if chunkId ∈ chunkIds then
      match chunkSources.lookup chunkId with
      | none => .ok (chunkSources.insert chunkId sourceUnitId)
      | some previousSource =>
        if previousSource = sourceUnitId then .ok chunkSources
        else .error "Hindsight recall chunk has conflicting source identity"
    else .ok chunkSources
  | _, _ => .ok chunkSources

def readResult (documentToSourceUnit : Dictionary String String) (chunkIds : List String)
    (reading : Reading) (result : Json) : Except String Reading := do
  closedObject result resultFields requiredResultFields "result"
  let memoryId ← memoryIdOf reading.seenIds result
  let text ← textOf result
  let factType ← factTypeOf result
  checkLists result
  let documentId ← nullableString (result.get "document_id") "document_id"
  let sourceUnitId ← sourceUnitOf documentToSourceUnit documentId
  let chunkId ← nullableString (result.get "chunk_id") "chunk_id"
  let chunkSources ← recordSource chunkIds reading.chunkSources chunkId sourceUnitId
  let occurredStart ← nullableString (result.get "occurred_start") "occurred_start"
  let occurredEnd ← nullableString (result.get "occurred_end") "occurred_end"
  let mentionedAt ← nullableString (result.get "mentioned_at") "mentioned_at"
  let _ ← nullableString (result.get "context") "context"
  let score ← nativeScore doubleText (result.get "scores")
  pure
    { facts := reading.facts ++
        [{ nativeId := memoryId
           nativeRank1Indexed := reading.facts.length + 1
           content := text
           nativeScore := score
           providerEvidenceIdentity := some memoryId
           sourceUnitId
           evidenceKind := factType
           occurredStart
           occurredEnd
           mentionedAt
           nativeReference := chunkId
           nativeTruncated := false }]
      chunkSources
      seenIds := reading.seenIds ++ [memoryId] }

/-! ### Merging -/

def chunkIdentity (chunkId : String) : String := "chunk:" ++ chunkId

structure Emission where
  candidates : List NativeEvidenceCandidate
  emittedChunks : List String

def appendChunk (chunks : List Chunk) (chunkSources : Dictionary String String)
    (emission : Emission) (chunkId : String) : Emission :=
  if chunkId ∈ emission.emittedChunks then emission
  else
    match chunks.find? fun chunk ↦ chunk.id = chunkId with
    | none => emission
    | some chunk =>
      { candidates := emission.candidates ++
          [{ nativeId := chunkIdentity chunkId
             nativeRank1Indexed := emission.candidates.length + 1
             content := chunk.text
             nativeScore := none
             providerEvidenceIdentity := some (chunkIdentity chunkId)
             sourceUnitId := chunkSources.lookup chunkId
             evidenceKind := "source_chunk"
             nativeReference := some chunkId
             nativeTruncated := chunk.truncated }]
        emittedChunks := emission.emittedChunks ++ [chunkId] }

def appendFact (chunks : List Chunk) (chunkSources : Dictionary String String)
    (emission : Emission) (fact : NativeEvidenceCandidate) : Emission :=
  let listed : Emission :=
    { emission with
      candidates := emission.candidates ++
        [{ fact with nativeRank1Indexed := emission.candidates.length + 1 }] }
  match fact.nativeReference with
  | some chunkId => appendChunk chunks chunkSources listed chunkId
  | none => listed

def merge (chunks : List Chunk) (reading : Reading) : List NativeEvidenceCandidate :=
  let listed := reading.facts.foldl (appendFact chunks reading.chunkSources) ⟨[], []⟩
  (chunks.foldl (fun emission chunk ↦ appendChunk chunks reading.chunkSources emission chunk.id)
    listed).candidates

/-! ### The response -/

/-- The response as an object with the fields of a recall. -/
def readResponse (rawBytes : Bytes) : Except String Json :=
  match (readUtf8 rawBytes).bind loads with
  | none => .error "response is not valid JSON"
  | some decoded => do
    require decoded.isObject "Hindsight recall response root must be an object"
    require (isClosed decoded recallFields requiredRecallFields)
      "Hindsight recall response fields do not match the exact profile"
    parseExactJsonObject rawBytes decoded.names

def checkResponse (document : Json) : Except String Unit := do
  require (document.get "entities").isNull
    "Hindsight recall returned entities after they were disabled"
  require ((document.get "source_facts").isNull && (document.get "source_facts_truncated").isNull)
    "Hindsight recall returned unrequested source facts"
  require (isNullOrObject (document.get "trace"))
    "Hindsight recall trace must be an object or null"

/-- The chunks of a response are empty when it has no such field. -/
def chunksField (document : Json) : Json :=
  if "chunks" ∈ document.names then document.get "chunks" else .object []

def resultsOf (document : Json) : Except String (List Json) :=
  match document.get "results" with
  | .array results => .ok results
  | _ => .error "Hindsight recall results must be an array"

def normalizeRecall (rawBytes : Bytes) (documentToSourceUnit : Dictionary String String) :
    Except String (List NativeEvidenceCandidate) := do
  let document ← readResponse rawBytes
  checkResponse document
  let chunks ← chunks (chunksField document)
  let results ← resultsOf document
  let reading ← results.foldlM
    (readResult doubleText documentToSourceUnit (chunks.map Chunk.id)) ⟨[], ∅, []⟩
  require (!chunks.any fun chunk ↦ chunkIdentity chunk.id ∈ reading.seenIds)
    "Hindsight recall fact and chunk identity collision"
  pure (merge chunks reading)

end Oamb.MemorySystems.HindsightRecall
