import Oamb.Contracts.Identities
import Oamb.Foundation.Base64
import Oamb.Foundation.StatefulExecution
import Oamb.MemorySystems.ExactJson

/-!
# The projection of Mem0

The inspector of Mem0 gives the points of a run in pages. The pages are read as one projection: each
has the exact fields of its profile and declares the same count, each but the last has a cursor that no
other has, and no point stands twice. The state of a projection is a digest of its points in the order
of their sources.
-/

set_option autoImplicit false

namespace Oamb.MemorySystems.Mem0Projection

open Foundation Foundation.JsonText
open Contracts.Identities ExactJson

/-! ### Profile -/

def mem0ProjectionMaxPages : ℕ := 4096

def mem0ProjectionMaxPoints : ℕ := 1000000

def pageFields : List String := ["collection", "run_id", "count", "points", "next_cursor"]

def pointFields : List String := ["id", "payload"]

def requiredPayloadFields : List String :=
  ["data", "text_lemmatized", "hash", "created_at", "updated_at", "run_id"]

def sourceMetadataFields : List String :=
  ["oamb_ingestion_occurrence_id", "oamb_ingestion_plan_id", "oamb_source_unit_id",
    "oamb_source_ordinal"]

def optionalPayloadFields : List String := "attributed_to" :: sourceMetadataFields

def allowedPayloadFields : List String := requiredPayloadFields ++ optionalPayloadFields

/-! ### Points and projections -/

/-- The source of a memory. -/
structure SourceMetadata where
  ingestionOccurrenceId : String
  ingestionPlanId : String
  sourceUnitId : String
  sourceOrdinal : ℤ
  deriving DecidableEq

structure ProjectionPoint where
  nativeId : String
  memory : String
  textLemmatized : String
  memoryHash : String
  createdAt : String
  updatedAt : String
  runId : String
  metadata : Option SourceMetadata
  attributedTo : Option String
  deriving DecidableEq

structure Projection where
  collection : String
  runId : String
  declaredCount : ℕ
  points : List ProjectionPoint
  pageCount : ℕ

/-- The ordinal of the source of a point, when it has one. -/
def sourceOrdinal (point : ProjectionPoint) : Option ℤ :=
  point.metadata.map SourceMetadata.sourceOrdinal

/-- An ordinal is below another one; no ordinal is above all. -/
def ordinalBelow : Option ℤ → Option ℤ → Bool
  | some first, some second => decide (first < second)
  | some _, none => true
  | none, _ => false

/-- A point does not come after another one. -/
def notAfter (first second : ProjectionPoint) : Bool :=
  ordinalBelow (sourceOrdinal first) (sourceOrdinal second) ||
    decide (sourceOrdinal first = sourceOrdinal second ∧ first.nativeId ≤ second.nativeId)

def orderedProjectionPoints (projection : Projection) : List ProjectionPoint :=
  projection.points.mergeSort notAfter

/-- Add the source of a point, unless it is there. -/
def addSourceUnitId (sourceIds : List String) (point : ProjectionPoint) : List String :=
  match point.metadata with
  | none => sourceIds
  | some metadata =>
    if metadata.sourceUnitId ∈ sourceIds then sourceIds else sourceIds ++ [metadata.sourceUnitId]

def projectionSourceUnitIds (projection : Projection) : List String :=
  (orderedProjectionPoints projection).foldl addSourceUnitId []

def metadataTuple (metadata : SourceMetadata) : Json :=
  .array [.string metadata.ingestionOccurrenceId, .string metadata.ingestionPlanId,
    .string metadata.sourceUnitId, .integer metadata.sourceOrdinal]

/-- A value that may be absent. -/
def orNull {α : Type} (document : α → Json) : Option α → Json
  | none => .null
  | some value => document value

def projectionPointTuple (point : ProjectionPoint) : Json :=
  .array [.string point.nativeId, .string point.memory, .string point.textLemmatized,
    .string point.memoryHash, .string point.createdAt, .string point.updatedAt,
    .string point.runId, orNull metadataTuple point.metadata,
    orNull Json.string point.attributedTo]

def projectionState (projection : Projection) : Json :=
  .array [.string "oamb-mem0-main-projection-v1", .string projection.collection,
    .string projection.runId,
    .array ((orderedProjectionPoints projection).map projectionPointTuple)]

def projectionStateSha256 (sha256 : Bytes → String) (projection : Projection) : String :=
  sha256 (canonicalJsonBytes (projectionState projection))

/-! ### Checks -/

/-- Refuse what does not hold. -/
def require (holds : Prop) [Decidable holds] (message : String) : Except String Unit :=
  if holds then .ok () else .error message

def requireNonEmptyString (value : Json) (fieldName : String) : Except String String :=
  match value.asNonEmptyText with
  | some text => .ok text
  | none => .error s!"{fieldName} must be a non-empty string"

/-- The characters of a full lowercase digest. -/
def isRunId (text : String) : Bool :=
  text.toList.length = 64 && text.toList.all (· ∈ "0123456789abcdef".toList)

def requireRunId (runId : String) : Except String Unit := do
  require (runId ≠ "") "run_id must be a non-empty string"
  require (isRunId runId = true) "run_id must be a full lowercase SHA-256 identifier"

theorem require_of {holds : Prop} [Decidable holds] (hholds : holds) (message : String) :
    require holds message = .ok () :=
  if_pos hholds

theorem require_eq_ok {holds : Prop} [Decidable holds] {message : String} {value : Unit} :
    require holds message = .ok value ↔ holds := by
  by_cases hholds : holds
  · exact ⟨fun _ ↦ hholds, fun _ ↦ if_pos hholds⟩
  · rw [require, if_neg hholds]
    exact ⟨(nomatch ·), fun hsome ↦ absurd hsome hholds⟩

theorem requireNonEmptyString_eq_ok {value : Json} {fieldName text : String} :
    requireNonEmptyString value fieldName = .ok text ↔ value.asNonEmptyText = some text := by
  rw [requireNonEmptyString]
  cases value.asNonEmptyText with
  | none => exact ⟨(nomatch ·), (nomatch ·)⟩
  | some found => rw [Except.ok.injEq, Option.some.injEq]

/-! ### Points -/

def requireExactObject (value : Json) (expectedFields : List String) (description : String) :
    Except String Unit := do
  require (value.isObject = true) s!"{description} must be an object"
  require (value.hasNames expectedFields = true)
    s!"{description} fields do not match the exact profile"

def requirePayload (value : Json) : Except String Unit := do
  require (value.isObject = true) "projection point payload must be an object"
  require ((∀ field ∈ requiredPayloadFields, field ∈ value.names) ∧
      ∀ name ∈ value.names, name ∈ allowedPayloadFields)
    "projection payload fields do not match the exact profile"

def parseSourceMetadata (payload : Json) : Except String SourceMetadata :=
  match (payload.get "oamb_source_ordinal").asInteger with
  | none => .error "projection point source ordinal must be an integer"
  | some sourceOrdinal => do
    let ingestionOccurrenceId ← requireNonEmptyString (payload.get "oamb_ingestion_occurrence_id")
      "projection point ingestion occurrence id"
    let ingestionPlanId ← requireNonEmptyString (payload.get "oamb_ingestion_plan_id")
      "projection point ingestion plan id"
    let sourceUnitId ← requireNonEmptyString (payload.get "oamb_source_unit_id")
      "projection point source unit id"
    require (1 ≤ sourceOrdinal) "source_ordinal must be a positive integer"
    pure ⟨ingestionOccurrenceId, ingestionPlanId, sourceUnitId, sourceOrdinal⟩

def parseOptionalSourceMetadata (payload : Json) : Except String (Option SourceMetadata) :=
  if ∀ field ∈ sourceMetadataFields, field ∉ payload.names then .ok none
  else do
    require (∀ field ∈ sourceMetadataFields, field ∈ payload.names)
      "projection point source metadata must be complete when present"
    let metadata ← parseSourceMetadata payload
    pure (some metadata)

def parseAttributedTo (value : Json) : Except String (Option String) :=
  if value.isNull then .ok none
  else do
    let text ← requireNonEmptyString value "projection point attributed_to"
    pure (some text)

def parsePayload (nativeId : String) (payload : Json) (expectedRunId : String) :
    Except String ProjectionPoint := do
  requirePayload payload
  let runId ← requireNonEmptyString (payload.get "run_id") "projection point run_id"
  require (runId = expectedRunId) "projection point run_id does not match the requested scope"
  let metadata ← parseOptionalSourceMetadata payload
  require (∀ source ∈ metadata, source.ingestionOccurrenceId = expectedRunId)
    "projection point ingestion occurrence does not match the requested scope"
  let memory ← requireNonEmptyString (payload.get "data") "projection point data"
  let textLemmatized ← requireNonEmptyString (payload.get "text_lemmatized")
    "projection point text_lemmatized"
  let memoryHash ← requireNonEmptyString (payload.get "hash") "projection point hash"
  let createdAt ← requireNonEmptyString (payload.get "created_at") "projection point created_at"
  let updatedAt ← requireNonEmptyString (payload.get "updated_at") "projection point updated_at"
  let attributedTo ← parseAttributedTo (payload.get "attributed_to")
  pure ⟨nativeId, memory, textLemmatized, memoryHash, createdAt, updatedAt, runId, metadata,
    attributedTo⟩

def parseProjectionPoint (expectedRunId : String) (value : Json) : Except String ProjectionPoint := do
  requireExactObject value pointFields "projection point"
  let nativeId ← requireNonEmptyString (value.get "id") "projection point id"
  parsePayload nativeId (value.get "payload") expectedRunId

/-! ### Pages -/

/-- The value in a cursor is a text or a finite number. -/
def checkCursorPayload : Json → Except String Unit
  | .string _ | .integer _ => .ok ()
  | .real finite _ => require (finite = true) "projection next_cursor payload must be finite"
  | .null | .bool _ | .array _ | .object _ =>
    .error "projection next_cursor payload must be a string or number"

def parseCursor (value : Json) : Except String (Option String) :=
  if value.isNull then .ok none
  else do
    let cursor ← requireNonEmptyString value "projection next_cursor"
    require (cursor.toList.all (· ∈ Base64.alphabet) = true)
      "projection next_cursor is not an exact inspector cursor"
    match (Base64.decode (Base64.pad cursor.toList)).bind fun decoded ↦
        (readUtf8 decoded).bind loads with
    | none => .error "projection next_cursor is not an exact inspector cursor"
    | some payload => do
      checkCursorPayload payload
      pure (some cursor)

/-- The count of a page. -/
def parseCount (value : Json) : Except String ℕ :=
  match value.asInteger with
  | some count =>
    if 0 ≤ count then .ok count.toNat
    else .error "projection count must be a non-negative integer"
  | none => .error "projection count must be a non-negative integer"

/-- What is read of the pages so far. -/
structure Reading where
  declaredCount : Option ℕ
  points : List ProjectionPoint
  seenCursors : List String
  finalCursor : Option String

def Reading.initial : Reading := ⟨none, [], [], none⟩

/-- Add the points of a page. -/
def addPoints (expectedRunId : String) (maxPoints : ℕ) :
    List ProjectionPoint → List Json → Except String (List ProjectionPoint)
  | points, [] => .ok points
  | points, value :: rest => do
    let point ← parseProjectionPoint expectedRunId value
    require (point.nativeId ∉ points.map ProjectionPoint.nativeId)
      s!"duplicate projection point id: {point.nativeId}"
    require (points.length + 1 ≤ maxPoints) "projection point limit exceeded"
    addPoints expectedRunId maxPoints (points ++ [point]) rest

/-- The bounds of a reading. -/
structure Expectation where
  collection : String
  runId : String
  maxPoints : ℕ

/-- Check the cursor of a page against those before it and against its place. -/
def checkCursor (seenCursors : List String) (rawPoints : List Json) (isLast : Bool) :
    Option String → Except String Unit
  | some cursor => do
    require (cursor ∉ seenCursors) "projection cursor repeated before terminal page"
    require (rawPoints ≠ []) "non-terminal projection page is empty"
  | none => require (isLast = true) "terminal projection page must be last"

/-- The points of a page that are still to be read. -/
def requirePoints : Json → Except String (List Json)
  | .array values => .ok values
  | _ => .error "projection points must be a list"

/-- Read a page, which is the last one or not. -/
def readPage (expected : Expectation) (isLast : Bool) (reading : Reading) (rawPage : Bytes) :
    Except String Reading := do
  let page ← parseExactJsonObject rawPage pageFields
  let collection ← requireNonEmptyString (page.get "collection") "projection collection"
  require (collection = expected.collection)
    "projection collection does not match the exact profile"
  let runId ← requireNonEmptyString (page.get "run_id") "projection run_id"
  require (runId = expected.runId) "projection run_id does not match the requested scope"
  let pageCount ← parseCount (page.get "count")
  require (pageCount ≤ expected.maxPoints) "projection point limit exceeded"
  require (∀ declared ∈ reading.declaredCount, pageCount = declared)
    "projection count changed between pages"
  let rawPoints ← requirePoints (page.get "points")
  let finalCursor ← parseCursor (page.get "next_cursor")
  checkCursor reading.seenCursors rawPoints isLast finalCursor
  let points ← addPoints expected.runId expected.maxPoints reading.points rawPoints
  pure ⟨some pageCount, points, reading.seenCursors ++ finalCursor.toList, finalCursor⟩

/-- Read the pages. -/
def readPages (expected : Expectation) : Reading → List Bytes → Except String Reading
  | reading, [] => .ok reading
  | reading, rawPage :: rest => do
    let reading ← readPage expected (decide (rest = [])) reading rawPage
    readPages expected reading rest

/-- The projection of some pages. -/
def parseProjectionPages (rawPages : List Bytes) (expectedCollection expectedRunId : String)
    (maxPages maxPoints : ℕ) : Except String Projection := do
  require (expectedCollection ≠ "") "expected collection must be a non-empty string"
  requireRunId expectedRunId
  require (1 ≤ maxPages) "projection page limit must be a positive integer"
  require (1 ≤ maxPoints) "projection point limit must be a positive integer"
  require (rawPages ≠ []) "projection requires at least one terminal projection page"
  require (rawPages.length ≤ maxPages) "projection page limit exceeded"
  let reading ← readPages ⟨expectedCollection, expectedRunId, maxPoints⟩ .initial rawPages
  require (reading.finalCursor = none) "projection requires a terminal projection page"
  match reading.declaredCount with
  | none => .error "projection requires a declared count"
  | some declaredCount => do
    require (reading.points.length = declaredCount)
      (s!"projection point cardinality does not match the inspector count: "
        ++ s!"expected {declaredCount}, got {reading.points.length}")
    pure ⟨expectedCollection, expectedRunId, declaredCount, reading.points, rawPages.length⟩

end Oamb.MemorySystems.Mem0Projection
