import Oamb.MemorySystems.HindsightIngest

/-!
# The projection of Hindsight

The state of a bank is read as a whole: all pages of its documents, the detail of each document, all
pages of its memories, the detail of each memory, and two pages that have to be empty. The documents
of the bank have to be those of the sources that are expected. A response that the profile does not
allow is a failure that names the response.
-/

set_option autoImplicit false

namespace Oamb.MemorySystems.HindsightProjection

open Foundation Foundation.Dialogue
open RestClient

/-! ### Profile -/

/-- The functions that a projection is read with: the value of some bytes, or what is wrong with them;
the text of some bytes; their digest; the equality of values; the test of an identity; a text in a
path; and the canonical bytes of a value. -/
structure Profile where
  parse : Bytes → Except String Json
  decode : Bytes → Option String
  sha256 : Bytes → String
  same : Json → Json → Bool
  isUuid : String → Bool
  quote : String → String
  canonicalJsonBytes : Json → Bytes

def pageLimit : ℕ := 1000

def entityJoinMatchStateLimit : ℕ := 4096

def pageFields : List String := ["items", "total", "limit", "offset"]

def documentItemFields : List String :=
  ["id", "bank_id", "content_hash", "created_at", "updated_at", "text_length", "memory_unit_count",
    "retain_params", "document_metadata", "tags"]

def documentDetailFields : List String :=
  ["id", "bank_id", "original_text", "content_hash", "memory_unit_count", "nodes_by_fact_type",
    "created_at", "updated_at", "tags", "document_metadata", "retain_params", "observation_scopes"]

def memoryItemFields : List String :=
  ["id", "text", "context", "date", "fact_type", "document_id", "mentioned_at", "occurred_start",
    "occurred_end", "entities", "chunk_id", "proof_count", "tags", "metadata", "consolidated_at",
    "consolidation_failed_at", "state", "invalidation_reason", "invalidated_at", "edited_at",
    "updated_at", "source_memory_ids"]

def memoryDetailFields : List String :=
  ["id", "text", "context", "date", "type", "mentioned_at", "occurred_start", "occurred_end",
    "entities", "document_id", "chunk_id", "tags", "metadata", "observation_scopes", "state",
    "invalidation_reason", "invalidated_at", "edited_at"]

/-! ### Requests -/

/-- The parameters of a page. -/
def pageParams (offset : ℕ) : List (String × Json) :=
  [("limit", .integer pageLimit), ("offset", .integer offset)]

def listDocuments (bankId : String) (offset : ℕ) : RestCall where
  method := "GET"
  path := s!"/v1/default/banks/{bankId}/documents"
  params := pageParams offset

def getDocument (profile : Profile) (bankId documentId : String) : RestCall where
  method := "GET"
  path := s!"/v1/default/banks/{bankId}/documents/{profile.quote documentId}"

def listMemories (bankId : String) (offset : ℕ) (factType : Option String) : RestCall where
  method := "GET"
  path := s!"/v1/default/banks/{bankId}/memories/list"
  params := pageParams offset ++ (factType.map fun text ↦ ("type", Json.string text)).toList

def getMemory (profile : Profile) (bankId memoryId : String) : RestCall where
  method := "GET"
  path := s!"/v1/default/banks/{bankId}/memories/{profile.quote memoryId}"

def listMentalModels (bankId : String) (offset : ℕ) : RestCall where
  method := "GET"
  path := s!"/v1/default/banks/{bankId}/mental-models"
  params := ("detail", .string "full") :: pageParams offset

/-! ### Pages -/

/-- The object of some bytes, which has the fields of its profile. -/
def parseExactJsonObject (profile : Profile) (content : Bytes) (expectedFields : List String) :
    Except String Json := do
  let document ← profile.parse content
  if document.isObject = false then .error "response root must be an object"
  else if document.hasNames expectedFields then pure document
  else .error "response fields do not match the exact profile"

def strictNonNegativeInteger (value : Json) (label : String) : Except String ℕ :=
  match value.asInteger with
  | some number =>
    if number < 0 then .error s!"Hindsight {label} must be a non-negative integer"
    else .ok number.toNat
  | none => .error s!"Hindsight {label} must be a non-negative integer"

def exactObject (value : Json) (fields : List String) (label : String) : Except String Json :=
  if value.hasNames fields then .ok value
  else .error s!"Hindsight {label} fields do not match the exact profile"

/-- A page: its items, and how many there are in all. -/
structure Page where
  items : List Json
  total : ℕ

def parsePage (profile : Profile) (content : Bytes) (itemFields : List String)
    (expectedOffset : ℕ) (label : String) : Except String Page := do
  let document ← parseExactJsonObject profile content pageFields
  match document.get "items" with
  | .array values =>
    let items ← values.mapM fun value ↦ exactObject value itemFields s!"{label} item"
    let total ← strictNonNegativeInteger (document.get "total") s!"{label} total"
    let limit ← strictNonNegativeInteger (document.get "limit") s!"{label} limit"
    let offset ← strictNonNegativeInteger (document.get "offset") s!"{label} offset"
    if limit ≠ pageLimit ∨ offset ≠ expectedOffset then
      .error s!"Hindsight {label} page did not echo the requested boundary"
    else pure ⟨items, total⟩
  | _ => .error s!"Hindsight {label} items must be an array"

/-- What is read in pages: the documents or the memories of a bank. -/
structure Listing where
  label : String
  call : ℕ → RestCall
  itemFields : List String
  /-- The identity of an item. -/
  identify : Json → Except String String

def identifyDocument (item : Json) : Except String String :=
  match (item.get "id").asNonEmptyText with
  | some documentId => .ok documentId
  | none => .error "Hindsight document ID must be non-empty"

def identifyMemory (profile : Profile) (item : Json) : Except String String :=
  match (item.get "id").asNonEmptyText with
  | some memoryId =>
    if profile.isUuid memoryId then .ok memoryId
    else .error "Hindsight memory ID must be a UUID"
  | none => .error "Hindsight memory ID must be non-empty"

def documentListing (bankId : String) : Listing :=
  ⟨"document", listDocuments bankId, documentItemFields, identifyDocument⟩

def memoryListing (profile : Profile) (bankId : String) : Listing :=
  ⟨"memory", fun offset ↦ listMemories bankId offset none, memoryItemFields,
    identifyMemory profile⟩

/-- The items of a page under their identities, of which none was seen before. -/
def identifyItems (listing : Listing) : List String → List Json →
    Except String (List (String × Json))
  | _, [] => .ok []
  | seen, item :: rest => do
    let identity ← listing.identify item
    if identity ∈ seen then
      .error s!"Hindsight {listing.label} pagination returned a duplicate ID"
    else
      let others ← identifyItems listing (seen ++ [identity]) rest
      pure ((identity, item) :: others)

/-! ### Reading -/

/-- A step of a projection. An error comes with the responses that came before it. -/
abbrev Projecting (α : Type) : Type :=
  Dialogue Query Answer (List SealedRestResponse × IngestError) α

/-- Check something about the last of the responses. -/
def check {α : Type} (responses : List SealedRestResponse) (result : Except String α) :
    Projecting α :=
  ofExcept (result.mapError fun message ↦ (responses, .valueError message))

/-- Send a request, after some responses. -/
def fetch (responses : List SealedRestResponse) (call : RestCall) :
    Projecting SealedRestResponse :=
  ask (.request call) fun exit ↦
    ofExcept ((exitOutcome exit).mapError fun error ↦ (responses, error))

/-- The items that a page adds, and the total that it declares. -/
def addedItems (profile : Profile) (listing : Listing) (total : Option ℕ)
    (items : List (String × Json)) (content : Bytes) :
    Except String (List (String × Json) × ℕ) := do
  let page ← parsePage profile content listing.itemFields items.length listing.label
  if total.any (· ≠ page.total) then
    .error s!"Hindsight {listing.label} total changed during pagination"
  else
    let added ← identifyItems listing (items.map Prod.fst) page.items
    pure (added, page.total)

/-- The items that a page adds, with the total that it declares and the responses until then. -/
def readPage (profile : Profile) (listing : Listing) (total : Option ℕ)
    (items : List (String × Json)) (responses : List SealedRestResponse) (exit : Exit) :
    Except (List SealedRestResponse × IngestError)
      (List (String × Json) × ℕ × List SealedRestResponse) :=
  match exitOutcome exit with
  | .error error => .error (responses, error)
  | .ok response =>
    match addedItems profile listing total items response.rawBytes with
    | .error message => .error (responses ++ [response], .valueError message)
    | .ok (added, declared) => .ok (added, declared, responses ++ [response])

/-- Read all pages. The first page says how many items there are. -/
def listItems (profile : Profile) (listing : Listing) (total : Option ℕ)
    (items : List (String × Json)) (responses : List SealedRestResponse) :
    Projecting (List (String × Json) × List SealedRestResponse) :=
  ask (.request (listing.call items.length)) fun exit ↦
    match readPage profile listing total items responses exit with
    | .error failure => fail failure
    | .ok (added, declared, responses') =>
      if total.getD declared < items.length + added.length then
        fail (responses',
          .valueError s!"Hindsight {listing.label} pagination exceeds its total")
      else if added = [] then
        if items.length ≠ total.getD declared then
          fail (responses',
            .valueError s!"Hindsight {listing.label} pagination ended before its total")
        else pure (items, responses')
      else listItems profile listing (some (total.getD declared)) (items ++ added) responses'
termination_by (if total.isNone then 1 else 0, total.getD 0 - items.length)
decreasing_by
  next hexceeds hempty =>
    have hadded : 0 < added.length := List.length_pos_of_ne_nil hempty
    cases total with
    | none => exact Prod.Lex.left _ _ Nat.zero_lt_one
    | some total =>
      refine Prod.Lex.right _ ?_
      simp only [Option.getD_some, List.length_append] at hexceeds ⊢
      omega

/-! ### Documents -/

/-- The check of a field that has to hold. -/
def require (holds : Bool) (message : String) : Except String Unit :=
  if holds then .ok () else .error message

def isNullOrObject (value : Json) : Bool := value.isNull || value.isObject

def isTexts : Json → Bool
  | .array values => values.all fun value ↦ value.asText.isSome
  | _ => false

def validateDocumentItem (item : Json) (bankId : String) : Except String Unit := do
  require ((item.get "bank_id").isText bankId) "Hindsight document names a different bank"
  for field in ["content_hash", "created_at", "updated_at"] do
    require (item.get field).asNonEmptyText.isSome s!"Hindsight document {field} must be non-empty"
  let _ ← strictNonNegativeInteger (item.get "text_length") "document text length"
  let _ ← strictNonNegativeInteger (item.get "memory_unit_count") "document memory count"
  require (isNullOrObject (item.get "retain_params"))
    "Hindsight document retain_params must be an object or null"
  require (isNullOrObject (item.get "document_metadata"))
    "Hindsight document metadata must be an object or null"
  require (isTexts (item.get "tags")) "Hindsight document tags must be strings"

/-- The counts of nodes are absent, or they are those of some types. -/
def isNodeCounts : Json → Bool
  | .null => true
  | .object members => members.all fun member ↦ member.2.asInteger.any fun count ↦ 0 ≤ count
  | _ => false

/-- The detail of a document, which has to agree with its page and to be that of its source. -/
def documentDetail (profile : Profile) (content : Bytes) (listItem : Json) (source : SourceUnit)
    (bankId : String) : Except String Json := do
  let detail ← parseExactJsonObject profile content documentDetailFields
  for field in ["id", "bank_id", "content_hash", "memory_unit_count", "created_at", "updated_at",
      "tags", "document_metadata", "retain_params"] do
    require (profile.same (detail.get field) (listItem.get field))
      s!"Hindsight document detail {field} disagrees with its page"
  require ((detail.get "bank_id").isText bankId && (detail.get "id").isText source.sourceUnitId)
    "Hindsight document detail identity does not match its source"
  match (detail.get "original_text").asText with
  | none => .error "Hindsight document detail did not preserve original_text"
  | some originalText =>
    require (profile.decode source.payloadBytes = some originalText)
      "Hindsight document detail text does not match the frozen source"
    require ((listItem.get "text_length").asInteger = some (originalText.length : ℤ))
      "Hindsight document detail text length disagrees with its page"
    require ((detail.get "content_hash").isText (profile.sha256 source.payloadBytes))
      "Hindsight document content_hash does not match the frozen source"
    require (isNodeCounts (detail.get "nodes_by_fact_type"))
      "Hindsight document nodes_by_fact_type is invalid"
    require (detail.get "observation_scopes").isNull
      "Hindsight observations-disabled document has observation scopes"
    pure detail

/-! ### Memories -/

/-- The character is a space. -/
def isSpace (character : Char) : Bool :=
  let code := character.toNat
  (9 ≤ code && code ≤ 13) || (28 ≤ code && code ≤ 32) || (0x2000 ≤ code && code ≤ 0x200a) ||
    code ∈ [0x85, 0xa0, 0x1680, 0x2028, 0x2029, 0x202f, 0x205f, 0x3000]

/-- The text has a character that is no space. -/
def hasText (text : String) : Bool := text.toList.any fun character ↦ !isSpace character

def validateMemoryItem (item : Json) (documentIds : List String) : Except String Unit := do
  for field in ["text", "context", "date", "fact_type"] do
    require (item.get field).asText.isSome s!"Hindsight memory {field} must be a string"
  require ((item.get "text").asText.any hasText) "Hindsight memory text must be non-empty"
  require ((item.get "fact_type").asText.any (· ∈ ["world", "experience"]))
    "Hindsight observations-disabled projection returned another fact type"
  require ((item.get "document_id").asText.any (· ∈ documentIds))
    "Hindsight memory names an unknown source document"
  require (item.get "entities").asText.isSome "Hindsight memory page entities must be a string"
  let _ ← strictNonNegativeInteger (item.get "proof_count") "memory proof count"
  require ((item.get "tags").isArray && (item.get "metadata").isObject)
    "Hindsight memory tags or metadata have an invalid type"
  require ((item.get "state").isText "valid")
    "Hindsight protected projection contains an invalidated memory"
  require (["invalidation_reason", "invalidated_at"].all fun name ↦ (item.get name).isNull)
    "Hindsight valid memory carries invalidation state"
  require (match item.get "source_memory_ids" with | .array values => values.isEmpty | _ => false)
    "Hindsight source fact unexpectedly carries observation lineage"

/-- What the match of a join has done: how many states it visited, and what it found of them. -/
structure JoinMatch where
  visitedStates : ℕ
  found : List ((List Char × List ℕ) × Bool)

/-- The rest of a text behind a text that it begins with. -/
def afterText (start text : List Char) : Option (List Char) :=
  if start <+: text then some (text.drop start.length) else none

/-- Match the rest of a join with the names that are left, each as often as it is counted. The counts
have the given sum. -/
def matchJoin (names : List (List Char)) :
    ℕ → List Char → List ℕ → StateM JoinMatch Bool
  | total, remaining, counts => do
    match (← get).found.find? fun entry ↦ entry.1 = (remaining, counts) with
    | some (_, result) => pure result
    | none =>
      modify fun state ↦ { state with visitedStates := state.visitedStates + 1 }
      let result ←
        if entityJoinMatchStateLimit < (← get).visitedStates then pure false
        else
          match total with
          | 0 => pure remaining.isEmpty
          | rest + 1 =>
            (List.range names.length).foldlM (fun matched index ↦ do
              let name := names.getD index []
              if matched || counts.getD index 0 = 0 then pure matched
              else
                let suffix :=
                  if rest = 0 then (if remaining = name then some [] else none)
                  else afterText (name ++ [',', ' ']) remaining
                match suffix with
                | none => pure false
                | some suffix =>
                  matchJoin names rest suffix (counts.set index (counts.getD index 0 - 1))) false
      modify fun state ↦ { state with found := ((remaining, counts), result) :: state.found }
      pure result

/-- The names that stand in a list, the longest first. -/
def distinctNames (entities : List (List Char)) : List (List Char) :=
  entities.dedup.mergeSort fun name other ↦
    decide (other.length < name.length) ||
      (decide (name.length = other.length) && decide (String.ofList name ≤ String.ofList other))

/-- The join of a page is one of the entities of a detail, in some order. -/
def unorderedEntityJoinMatches (entities : List String) (serialized : String) : Bool :=
  if entities = [] then serialized = ""
  else
    let texts := entities.map String.toList
    let names := distinctNames texts
    (matchJoin names texts.length serialized.toList (names.map fun name ↦ texts.count name)
      ⟨0, []⟩).1

/-- The texts of an array of texts that are not empty. -/
def nonEmptyTexts : Json → Option (List String)
  | .array values => values.mapM Json.asNonEmptyText
  | _ => none

/-- The detail of a memory, which has to agree with its page. -/
def memoryDetail (profile : Profile) (content : Bytes) (listItem : Json) :
    Except String (Json × List String) := do
  let detail ← parseExactJsonObject profile content memoryDetailFields
  for pair in [("id", "id"), ("text", "text"), ("context", "context"), ("date", "date"),
      ("type", "fact_type"), ("mentioned_at", "mentioned_at"),
      ("occurred_start", "occurred_start"), ("occurred_end", "occurred_end"),
      ("document_id", "document_id"), ("chunk_id", "chunk_id"), ("tags", "tags"),
      ("metadata", "metadata"), ("state", "state"), ("invalidation_reason", "invalidation_reason"),
      ("invalidated_at", "invalidated_at"), ("edited_at", "edited_at")] do
    require (profile.same (detail.get pair.1) (listItem.get pair.2))
      s!"Hindsight memory detail {pair.1} disagrees with its page"
  match nonEmptyTexts (detail.get "entities") with
  | none => .error "Hindsight memory detail entities must be strings"
  | some entities =>
    require ((listItem.get "entities").asText.any (unorderedEntityJoinMatches entities))
      "Hindsight memory detail entities disagree with its page"
    require (detail.get "observation_scopes").isNull
      "Hindsight observations-disabled memory has observation scopes"
    pure (detail, entities)

/-- An object with another value of a member. -/
def withMember (document : Json) (name : String) (value : Json) : Json :=
  match document with
  | .object members => .object (members.map fun member ↦
      if member.1 = name then (name, value) else member)
  | other => other

/-- The record of a memory, with its entities in order. -/
def canonicalMemoryRecord (page : Json) (detail : Json × List String) : Json :=
  let entities := detail.2.mergeSort
  .object
    [("page", withMember page "entities" (.string (", ".intercalate entities))),
      ("detail", withMember detail.1 "entities" (.array (entities.map .string)))]

/-! ### The projection -/

/-- The projection of a bank. -/
structure ProjectionSnapshot where
  orderedSourceUnitIds : List String
  stateSha256 : String
  canonicalBytes : Bytes
  rawReferences : List String
  documentToSourceUnit : List (String × String)

/-- The items in the order of their identities. -/
def sortedById (items : List (String × Json)) : List (String × Json) :=
  items.mergeSort fun item other ↦ item.1 ≤ other.1

/-- The records of the documents, each with its detail. -/
def documentRecords (profile : Profile) (bankId : String) (sources : List SourceUnit) :
    List (String × Json) → List SealedRestResponse → Projecting (List Json × List SealedRestResponse)
  | [], responses => pure ([], responses)
  | (documentId, item) :: rest, responses => do
    check responses (validateDocumentItem item bankId)
    let response ← fetch responses (getDocument profile bankId documentId)
    let responses := responses ++ [response]
    match sources.find? fun source ↦ source.sourceUnitId = documentId with
    | none => fail (responses, .valueError "Hindsight document has no source")
    | some source =>
      let detail ← check responses
        (documentDetail profile response.rawBytes item source bankId)
      let (records, responses) ← documentRecords profile bankId sources rest responses
      pure (.object [("page", item), ("detail", detail)] :: records, responses)

/-- The records of the memories, each with its detail. -/
def memoryRecords (profile : Profile) (bankId : String) (documentIds : List String) :
    List (String × Json) → List SealedRestResponse → Projecting (List Json × List SealedRestResponse)
  | [], responses => pure ([], responses)
  | (memoryId, item) :: rest, responses => do
    check responses (validateMemoryItem item documentIds)
    let response ← fetch responses (getMemory profile bankId memoryId)
    let responses := responses ++ [response]
    let detail ← check responses (memoryDetail profile response.rawBytes item)
    let (records, responses) ← memoryRecords profile bankId documentIds rest responses
    pure (canonicalMemoryRecord item detail :: records, responses)

/-- Read a page that has to be empty. -/
def emptyPage (profile : Profile) (responses : List SealedRestResponse) (call : RestCall)
    (itemFields : List String) (label message : String) : Projecting (List SealedRestResponse) := do
  let response ← fetch responses call
  let responses := responses ++ [response]
  let page ← check responses (parsePage profile response.rawBytes itemFields 0 label)
  check responses (require (page.items.isEmpty && page.total = 0) message)
  pure responses

mutual

/-- No number of the value is one that is not an integer. -/
def isCanonical : Json → Bool
  | .object members => areCanonicalMembers members
  | .array items => areCanonical items
  | .real _ _ => false
  | .null | .bool _ | .integer _ | .string _ => true

def areCanonicalMembers : List (String × Json) → Bool
  | [] => true
  | (_, value) :: rest => isCanonical value && areCanonicalMembers rest

def areCanonical : List Json → Bool
  | [] => true
  | value :: rest => isCanonical value && areCanonical rest

end

/-- The whole state of a bank. -/
def projectionDocument (bankId : String) (documents memories : List Json) : Json :=
  .object
    [("profile", .string "hindsight-rest-v1"), ("bank_id", .string bankId),
      ("documents", .array documents), ("memories", .array memories), ("mental_models", .array []),
      ("observations", .array [])]

/-- The state of a bank, whose documents have to be those of the sources. -/
def buildProjectionSteps (profile : Profile) (bankId : String) (orderedSources : List SourceUnit) :
    Projecting ProjectionSnapshot := do
  let sourceIds := orderedSources.map SourceUnit.sourceUnitId
  check [] (require (orderedSources ≠ [])
    "Hindsight projection requires at least one frozen source")
  check [] (require sourceIds.Nodup "Hindsight frozen source IDs must be unique")
  let (documentItems, responses) ← listItems profile (documentListing bankId) none [] []
  let documentIds := documentItems.map Prod.fst
  check responses (require (documentIds.all (· ∈ sourceIds) && sourceIds.all (· ∈ documentIds))
    "Hindsight document inventory does not equal the expected source inventory")
  let (documents, responses) ←
    documentRecords profile bankId orderedSources (sortedById documentItems) responses
  let (memoryItems, responses) ← listItems profile (memoryListing profile bankId) none [] responses
  let (memories, responses) ←
    memoryRecords profile bankId sourceIds (sortedById memoryItems) responses
  let responses ← emptyPage profile responses (listMentalModels bankId 0) [] "mental model"
    "Hindsight observations-disabled profile has mental models"
  let responses ← emptyPage profile responses (listMemories bankId 0 (some "observation"))
    memoryItemFields "observation" "Hindsight observations-disabled profile returned observations"
  let document := projectionDocument bankId documents memories
  if isCanonical document then
    let canonicalBytes := profile.canonicalJsonBytes document
    pure ⟨sourceIds, profile.sha256 canonicalBytes, canonicalBytes,
      responses.map SealedRestResponse.rawReference, sourceIds.map fun sourceId ↦
        (sourceId, sourceId)⟩
  else
    fail (responses,
      .call (.raised (.runtimeError "floating-point values are not canonical OAMB values")))

/-- What an error of a projection is raised as: an error of the profile names the last response. -/
def projectionFailure : List SealedRestResponse × IngestError → Ingest ProjectionSnapshot
  | (responses, .valueError message) =>
    match responses.getLast? with
    | some response =>
      fail (validationFailure "Hindsight projection response failed exact-profile validation"
        response)
    | none => fail (.valueError message)
  | (_, error) => fail error

/-- The projection of a bank. -/
def buildProjection (profile : Profile) (bankId : String) (orderedSources : List SourceUnit) :
    Ingest ProjectionSnapshot :=
  (buildProjectionSteps profile bankId orderedSources).handle projectionFailure

end Oamb.MemorySystems.HindsightProjection
