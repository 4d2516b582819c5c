import Oamb.MemorySystems.Mem0ProjectionLaws
import Oamb.MemorySystems.Mem0Wire
import Oamb.MemorySystems.OpenVikingSessions
import Oamb.Workloads.SessionDocuments

/-!
# The delivery of messages

The adapters of Mem0 and OpenViking read the document of a session with decoders of their own and
send its messages in groups: Mem0 in pairs, OpenViking in batches of a hundred. Both decoders give
back the messages of the document (`sourceMessages_document`, `parseMessages_document`), and the
messages in the requests of each adapter are those messages in their order
(`same_conversation`).
-/

set_option autoImplicit false

namespace Oamb.MemorySystems.MessageDelivery

open Foundation Foundation.ConcurrentCalls Foundation.JsonText Foundation.StatefulExecution
open Workloads.SessionDocuments
open ExactJson Mem0Ingest Mem0Projection Mem0ProjectionLaws Mem0Wire OpenVikingIngest

/-! ### The reader of OpenViking -/

mutual

/-- The field that an object has twice, of the innermost such object. -/
def repeatedField : Json → Option String
  | .array items => repeatedFieldOfItems items
  | .object members =>
    (repeatedFieldOfMembers members).or
      ((repeatedName (members.map Prod.fst)).map fun name ↦ s!"duplicate JSON field: {name}")
  | .null | .bool _ | .integer _ | .real _ _ | .string _ => none

def repeatedFieldOfItems : List Json → Option String
  | [] => none
  | item :: items => (repeatedField item).or (repeatedFieldOfItems items)

def repeatedFieldOfMembers : List (String × Json) → Option String
  | [] => none
  | (_, value) :: members => (repeatedField value).or (repeatedFieldOfMembers members)

end

def messageFields : List String := ["role", "content"]

def parseMessage (value : Json) : Except String Message := do
  require (value.hasNames messageFields = true)
    "OpenViking source session message has an invalid shape"
  match value.get "role", value.get "content" with
  | .string role, .string content =>
    if role ∈ ["user", "assistant"] then .ok (role, content)
    else .error "OpenViking source session message requires role and text"
  | _, _ => .error "OpenViking source session message requires role and text"

def parseMessages (payload : Bytes) : Except String (List Message) :=
  match (readUtf8 payload).bind loads with
  | none => .error "OpenViking source session payload is not valid JSON"
  | some document =>
    match repeatedField document with
    | some message => .error message
    | none =>
      match document with
      | .array (value :: values) => (value :: values).mapM parseMessage
      | _ => .error "OpenViking source session requires a non-empty message array"

/-! ### The request of Mem0 -/

/-- What an encoder of requests is given: the identities of its scope, and the prompt for the time
of a source, which reads and checks the time. -/
structure AddEncoder where
  runId : String
  ingestionPlanId : String
  observationTimePrompt : Option String → Option String → Except String (Option String)

/-- The metadata of a source on the wire. -/
def metadataToWire (encoder : AddEncoder) (source : Mem0Source) :
    Except String (List (String × Json)) := do
  let occurrence ← requireNonEmptyString (.string encoder.runId) "ingestion_occurrence_id"
  let plan ← requireNonEmptyString (.string encoder.ingestionPlanId) "ingestion_plan_id"
  let unit ← requireNonEmptyString (.string source.sourceUnitId) "source_unit_id"
  require (1 ≤ source.ordinal) "source_ordinal must be a positive integer"
  pure [("oamb_ingestion_occurrence_id", .string occurrence),
    ("oamb_ingestion_plan_id", .string plan), ("oamb_source_unit_id", .string unit),
    ("oamb_source_ordinal", .integer source.ordinal)]

/-- A message of a request. -/
def encodeMessage (message : Message) : Except String Json := do
  let role ← requireNonEmptyString (.string message.1) "message role"
  pure (messageObject (role, message.2))

/-- The body of a request that adds messages. -/
def encodeAddRequest (encoder : AddEncoder) (source : Mem0Source) (messages : List Message) :
    Except String Bytes := do
  let wireMetadata ← metadataToWire encoder source
  requireRunId encoder.runId
  require (messages ≠ []) "messages must not be empty"
  let encodedMessages ← messages.mapM encodeMessage
  let observationPrompt ← encoder.observationTimePrompt source.occurredAt source.contextText
  let leading := [("messages", Json.array encodedMessages), ("run_id", .string encoder.runId)]
  let document : Json := match observationPrompt with
    | none => .object (leading ++ [("metadata", .object wireMetadata), ("infer", .bool true)])
    | some prompt => .object (leading ++
        [("metadata", .object (wireMetadata ++
          [("created_at", .string (source.occurredAt.getD ""))])),
        ("prompt", .string prompt), ("infer", .bool true)])
  pure (utf8 (write false document))

/-- The payload of a request, as it is read from its body. -/
def addPayload (encoder : AddEncoder) (source : Mem0Source) (messages : List Message) :
    Except String Json := do
  let body ← encodeAddRequest encoder source messages
  match (readUtf8 body).bind loads with
  | none => .error "request body is not valid JSON"
  | some payload => .ok payload

/-! ### Messages of requests -/

/-- The role and the content of an item. -/
def messageOf (item : Json) : Message :=
  ((item.get "role").asText.getD "", (item.get "content").asText.getD "")

/-- The messages in the payload of a request. -/
def payloadMessages (payload : Json) : List Message :=
  match payload.get "messages" with
  | .array items => items.map messageOf
  | _ => []

/-- The messages that are sent with a query. -/
def sentMessages : Query → List Message
  | .request call => payloadMessages call.payload
  | .clock | .sleep _ => []

/-! ### Groups -/

theorem flatten_messagePairs (messages : List Message) :
    (messagePairs messages).flatten = messages := by
  induction messages using messagePairs.induct with
  | case1 => rfl
  | case2 message => rfl
  | case3 first second rest ih =>
    rw [messagePairs, List.flatten_cons, ih]
    rfl

theorem flatten_toChunks_go {α : Type} (size : ℕ) (values : List α) (chunk : Array α)
    (chunks : Array (List α)) :
    (List.toChunks.go size values chunk chunks).flatten =
      chunks.toList.flatten ++ chunk.toList ++ values := by
  induction values generalizing chunk chunks with
  | nil => simp [List.toChunks.go]
  | cons value values ih =>
    rw [List.toChunks.go]
    split <;> simp [ih]

/-- The chunks of a list are the list. -/
theorem flatten_toChunks {α : Type} (size : ℕ) (values : List α) :
    (values.toChunks size).flatten = values := by
  cases values with
  | nil => cases size <;> rfl
  | cons value values =>
    cases size with
    | zero => simp [List.toChunks]
    | succ size => simp [List.toChunks, flatten_toChunks_go]

/-! ### Reading a document -/

section Document

variable {messages : List Message}

/-- The document of some messages. -/
def messageDocument (messages : List Message) : Json := .array (messages.map messageObject)

theorem isWhole_messageDocument (messages : List Message) :
    isWhole (messageDocument messages) = true := by
  rw [messageDocument, isWhole, areWhole_eq_all, List.all_map, List.all_eq_true]
  exact fun message _ ↦ rfl

theorem exact_messageDocument (messages : List Message) :
    (messageDocument messages).exact = true := by
  rw [messageDocument, Json.exact, exactItems_eq_all, List.all_map, List.all_eq_true]
  exact fun message _ ↦ rfl

theorem loads_messageDocument (messages : List Message) :
    (readUtf8 (utf8 (write false (messageDocument messages)))).bind loads =
      some (messageDocument messages) := by
  rw [readUtf8_utf8, Option.bind_some, loads_write false (isWhole_messageDocument messages)]

theorem readMessage_messageObject {message : Message} (hrole : message.1 ≠ "") :
    readMessage (messageObject message) = .ok message := by
  have hname : ((messageObject message).get "role").asNonEmptyText = some message.1 := by
    change (Json.string message.1).asNonEmptyText = _
    rw [Json.asNonEmptyText]
    simp [Json.asText, hrole]
  have hcontent : ((messageObject message).get "content").asText = some message.2 := rfl
  unfold readMessage
  refine bind_eq_ok.mpr ⟨(), require_of rfl _, ?_⟩
  rw [hname, hcontent]

/-- Mem0 reads the messages of a document. -/
theorem longMemEvalMessages_document (hmessages : messages ≠ [])
    (hroles : ∀ message ∈ messages, message.1 ≠ "") :
    longMemEvalMessages (utf8 (write false (messageDocument messages))) = .ok messages := by
  have hparse : parseJson (utf8 (write false (messageDocument messages))) =
      .ok (messageDocument messages) := by
    unfold parseJson
    rw [loads_messageDocument]
    simp only [fault_eq_none _ (exact_messageDocument messages) (isWhole_messageDocument messages)]
  have hread : (messages.map messageObject).mapM readMessage = .ok messages := by
    rw [mapM_eq_ok, List.map_map]
    exact List.map_congr_left fun message hmessage ↦
      readMessage_messageObject (hroles message hmessage)
  unfold longMemEvalMessages
  rw [hparse]
  cases messages with
  | nil => exact absurd rfl hmessages
  | cons message messages => exact hread

theorem repeatedField_messageDocument (messages : List Message) :
    repeatedField (messageDocument messages) = none := by
  rw [messageDocument, repeatedField]
  induction messages with
  | nil => rfl
  | cons message messages ih =>
    rw [List.map_cons, repeatedFieldOfItems, ih]
    rfl

theorem parseMessage_messageObject {message : Message} (hrole : message.1 ∈ messageRoles) :
    parseMessage (messageObject message) = .ok message := by
  unfold parseMessage
  refine bind_eq_ok.mpr ⟨(), require_of rfl _, ?_⟩
  change (if message.1 ∈ messageRoles then _ else _) = _
  rw [if_pos hrole]

/-- OpenViking reads the messages of a document. -/
theorem parseMessages_document (hmessages : messages ≠ [])
    (hroles : ∀ message ∈ messages, message.1 ∈ messageRoles) :
    parseMessages (utf8 (write false (messageDocument messages))) = .ok messages := by
  have hread : (messages.map messageObject).mapM parseMessage = .ok messages := by
    rw [mapM_eq_ok, List.map_map]
    exact List.map_congr_left fun message hmessage ↦
      parseMessage_messageObject (hroles message hmessage)
  unfold parseMessages
  rw [loads_messageDocument]
  simp only [repeatedField_messageDocument]
  cases messages with
  | nil => exact absurd rfl hmessages
  | cons message messages => exact hread

end Document

/-! ### The messages of requests -/

theorem haveWhole_metadataToWire {encoder : AddEncoder} {source : Mem0Source}
    {wireMetadata : List (String × Json)}
    (hmetadata : metadataToWire encoder source = .ok wireMetadata) :
    haveWhole wireMetadata = true := by
  obtain ⟨occurrence, -, hmetadata⟩ := bind_eq_ok.mp hmetadata
  obtain ⟨plan, -, hmetadata⟩ := bind_eq_ok.mp hmetadata
  obtain ⟨unit, -, hmetadata⟩ := bind_eq_ok.mp hmetadata
  obtain ⟨_, -, hmetadata⟩ := bind_eq_ok.mp hmetadata
  cases hmetadata
  rfl

theorem encodedMessages_eq {messages : List Message} {encodedMessages : List Json}
    (hencoded : messages.mapM encodeMessage = .ok encodedMessages) :
    encodedMessages = messages.map messageObject := by
  have hread := forall₂_of_mapM hencoded
  induction hread with
  | nil => rfl
  | @cons message item messages items hmessage hrest ih =>
    obtain ⟨role, hrole, hitem⟩ := bind_eq_ok.mp hmessage
    have hsame := requireNonEmptyString_eq_ok.mp hrole
    rw [Json.asNonEmptyText, Option.filter_eq_some_iff] at hsame
    rw [List.map_cons, ih (mapM_eq_ok.mpr ?_), ← Except.ok.inj hitem, ← Option.some.inj hsame.1]
    rw [mapM_eq_ok] at hencoded
    exact (List.cons.inj hencoded).2

theorem messageOf_messageObject (message : Message) : messageOf (messageObject message) = message :=
  rfl

theorem payloadMessages_of_get {payload : Json} {messages : List Message}
    (hget : payload.get "messages" = .array (messages.map messageObject)) :
    payloadMessages payload = messages := by
  rw [payloadMessages, hget]
  simp [Function.comp_def, messageOf_messageObject]

/-- The payload of a request has the messages it was encoded from. -/
theorem payloadMessages_addPayload {encoder : AddEncoder} {source : Mem0Source}
    {messages : List Message} {payload : Json}
    (hpayload : addPayload encoder source messages = .ok payload) :
    payloadMessages payload = messages := by
  obtain ⟨body, hbody, hread⟩ := bind_eq_ok.mp hpayload
  obtain ⟨wireMetadata, hmetadata, hbody⟩ := bind_eq_ok.mp hbody
  obtain ⟨_, -, hbody⟩ := bind_eq_ok.mp hbody
  obtain ⟨_, -, hbody⟩ := bind_eq_ok.mp hbody
  obtain ⟨encodedMessages, hencoded, hbody⟩ := bind_eq_ok.mp hbody
  obtain ⟨prompt, -, hbody⟩ := bind_eq_ok.mp hbody
  have hwire := haveWhole_metadataToWire hmetadata
  have hitems := encodedMessages_eq hencoded
  have hwhole : areWhole encodedMessages = true := by
    have hdocument := isWhole_messageDocument messages
    rwa [messageDocument, ← hitems, isWhole] at hdocument
  have hloads : ∀ document : Json, isWhole document = true →
      utf8 (write false document) = body → payload = document := by
    intro document hdocument hsame
    rw [← hsame, readUtf8_utf8, Option.bind_some, loads_write false hdocument] at hread
    exact (Except.ok.inj hread).symm
  cases prompt with
  | none =>
    rw [hloads _ (by simp [isWhole, haveWhole, hwhole, hwire]) (Except.ok.inj hbody)]
    exact payloadMessages_of_get (by rw [hitems]; rfl)
  | some prompt =>
    have hcreated : haveWhole (wireMetadata ++
        [("created_at", .string (source.occurredAt.getD ""))]) = true := by
      rw [haveWhole_eq_all] at hwire ⊢
      rw [List.all_append, hwire]
      rfl
    rw [hloads _ (by simp [isWhole, haveWhole, hwhole, hcreated]) (Except.ok.inj hbody)]
    exact payloadMessages_of_get (by rw [hitems]; rfl)

/-- The requests of Mem0 have the messages of their source. -/
theorem flatMap_addRequests {sha256 : Bytes → String} {encoder : AddEncoder} {source : Mem0Source}
    {messages : List Message} {requests : List WireRequest}
    (hmessages : sourceMessages sha256 source = .ok messages)
    (hrequests : addRequests sha256 (addPayload encoder) source = .ok requests) :
    (requests.flatMap fun request ↦ payloadMessages request.body) = messages := by
  obtain ⟨read, hread, hpairs⟩ := bind_eq_ok.mp hrequests
  rw [hmessages, Except.ok.injEq] at hread
  subst hread
  have hgroups : ∀ (pairs : List (List Message)) (requests : List WireRequest),
      List.Forall₂ (fun pair request ↦ payloadMessages request.body = pair) pairs requests →
        (requests.flatMap fun request ↦ payloadMessages request.body) = pairs.flatten := by
    intro pairs requests hpairs
    induction hpairs with
    | nil => rfl
    | cons hpair _ ih => rw [List.flatMap_cons, List.flatten_cons, hpair, ih]
  rw [hgroups _ _ ((forall₂_of_mapM hpairs).imp fun pair request hrequest ↦ ?_),
    flatten_messagePairs]
  obtain ⟨body, hbody, hrequest⟩ := bind_eq_ok.mp hrequest
  rw [← Except.ok.inj hrequest]
  exact payloadMessages_addPayload hbody

theorem payloadMessages_messagesCall (sessionId timestamp : String) (batch : List Message) :
    payloadMessages (messagesCall sessionId timestamp batch).payload = batch := by
  unfold payloadMessages
  change (match Json.array (batch.map (messagePayload timestamp)) with
    | .array items => items.map messageOf
    | _ => []) = batch
  change (batch.map (messagePayload timestamp)).map messageOf = batch
  rw [List.map_map]
  exact List.map_id batch

/-! ### The same conversation -/

/-- A source of Mem0 carries a document of a session. -/
structure CarriesSession (sha256 : Bytes → String) (document : Bytes) (source : Mem0Source) :
    Prop where
  payloadBytes : source.payloadBytes = document
  payloadSha256 : source.payloadSha256 = sha256 document
  sourceReference : source.sourceReference.isSome = true
  occurredAt : source.occurredAt.isSome = true
  contextText : source.contextText.isSome = true

theorem sourceMessages_document {sha256 : Bytes → String} {messages : List Message}
    {source : Mem0Source} (hmessages : messages ≠ [])
    (hroles : ∀ message ∈ messages, message.1 ≠ "")
    (hsource : CarriesSession sha256 (utf8 (write false (messageDocument messages))) source) :
    sourceMessages sha256 source = .ok messages := by
  unfold sourceMessages
  have hhash : ¬sha256 source.payloadBytes ≠ source.payloadSha256 := by
    rw [not_not, hsource.payloadBytes, hsource.payloadSha256]
  rw [if_neg hhash]
  simp only [List.any_cons, List.all_cons, hsource.sourceReference, hsource.occurredAt,
    hsource.contextText, List.all_nil, Bool.true_or, Bool.and_true, if_true, hsource.payloadBytes]
  exact longMemEvalMessages_document hmessages hroles

/-- A scope of OpenViking has a plan that was made from its sources. -/
def IsPlanned (settings : OpenVikingSessions.AdapterSettings)
    (scope : OpenVikingSessions.SessionScope settings.digest) : Prop :=
  ∃ fingerprint sources plan,
    OpenVikingSessions.planIngestion settings.digest fingerprint settings.canonicalTimestamp
      parseMessages scope.ingestionOccurrenceId sources = .ok plan ∧ scope.plan = some plan

/-- A planned session has a time and the messages of its source. -/
theorem read_of_isPlanned {settings : OpenVikingSessions.AdapterSettings}
    {scope : OpenVikingSessions.SessionScope settings.digest}
    {session : OpenVikingSessions.PlannedSession} (hplanned : IsPlanned settings scope)
    (hsession : session ∈ scope.sessions) :
    (∃ timestamp, settings.canonicalTimestamp session.source.occurredAt = .ok timestamp) ∧
      parseMessages session.source.payloadBytes = .ok session.messages := by
  obtain ⟨fingerprint, sources, plan, hplan, hscope⟩ := hplanned
  rw [OpenVikingSessions.SessionScope.sessions, hscope] at hsession
  change session ∈ plan.sessions at hsession
  rw [OpenVikingSessions.planIngestion] at hplan
  split_ifs at hplan with hempty hordinals hunique
  split at hplan
  · cases hplan
  · next read hread =>
    rw [Except.ok.injEq] at hplan
    subst hplan
    obtain ⟨index, hindex, rfl⟩ := List.mem_mapIdx.mp hsession
    obtain ⟨messages, -, hmessages⟩ := exists_of_mapM hread (List.getElem_mem hindex)
    obtain ⟨timestamp, htimestamp, hmessages⟩ := bind_eq_ok.mp hmessages
    refine ⟨⟨timestamp, htimestamp⟩, ?_⟩
    change parseMessages sources[index].payloadBytes =
      .ok (((parseMessages sources[index].payloadBytes).toOption).getD [])
    rw [hmessages]
    rfl

/-- The requests of OpenViking have the messages of their session. -/
theorem flatMap_sessionWrites {session : SessionIngestion} {timestamp : String}
    (htimestamp : session.timestamp = .ok timestamp) :
    (OpenVikingSessions.sessionWrites session).flatMap sentMessages = session.messages := by
  have hbatches : ((session.messages.toChunks maximumMessagesPerBatch).map fun batch ↦
      Query.request (messagesCall session.sessionId timestamp batch)).flatMap sentMessages =
        session.messages := by
    rw [List.flatMap_map]
    calc ((session.messages.toChunks maximumMessagesPerBatch).flatMap fun batch ↦
          payloadMessages (messagesCall session.sessionId timestamp batch).payload)
        = (session.messages.toChunks maximumMessagesPerBatch).flatMap id := by
          simp only [payloadMessages_messagesCall]
          rfl
      _ = session.messages := by rw [List.flatMap_id, flatten_toChunks]
  rw [OpenVikingSessions.sessionWrites, htimestamp]
  change (([Query.request (createCall session.sessionId)] ++
    ((session.messages.toChunks maximumMessagesPerBatch).map fun batch ↦
      Query.request (messagesCall session.sessionId timestamp batch))) ++
    [Query.request (commitCall session.sessionId)]).flatMap sentMessages = _
  rw [List.flatMap_append, List.flatMap_append, hbatches]
  exact List.append_nil _

/-- Mem0 and OpenViking read the same messages from a document, and an attempt of either writes
requests whose messages are these, in their order; an attempt that ends writes all of them. -/
theorem same_conversation {messages : List LongMemEvalMessage} (hmessages : messages ≠ [])
    (hroles : ∀ message ∈ messages, message.role ∈ messageRoles) :
    ∃ document, renderLmeSessionDocument (messages.map .parsed) = .ok document ∧
      (∀ (sha256 : Bytes → String) (source : Mem0Source), CarriesSession sha256 document source →
        sourceMessages sha256 source = .ok (messages.map LongMemEvalMessage.spoken) ∧
        (messagePairs (messages.map LongMemEvalMessage.spoken)).flatten =
          messages.map LongMemEvalMessage.spoken ∧
        ∀ encoder (settings : Mem0Ingest.Settings) (request : IngestionDispatchRequest),
          addRequests sha256 (addPayload encoder) source =
            .ok (settings.wireRequests request.scopeId request.dispatch) →
          WritesExactly IsWrite (Mem0Ingest.plannedWrites settings request)
            (Mem0Ingest.body settings request) ∧
          (Mem0Ingest.plannedWrites settings request).flatMap sentMessages =
            messages.map LongMemEvalMessage.spoken) ∧
      parseMessages document = .ok (messages.map LongMemEvalMessage.spoken) ∧
      ((messages.map LongMemEvalMessage.spoken).toChunks maximumMessagesPerBatch).flatten =
        messages.map LongMemEvalMessage.spoken ∧
      ∀ (settings : OpenVikingSessions.AdapterSettings) (request : IngestionDispatchRequest)
        (scope : OpenVikingSessions.SessionScope settings.digest)
        (session : OpenVikingSessions.PlannedSession),
        OpenVikingSessions.plannedForDispatch settings request = .ok (scope, session) →
        IsPlanned settings scope → session.source.payloadBytes = document →
        WritesExactly IsWrite (OpenVikingSessions.plannedWrites settings request)
          (OpenVikingSessions.body settings request) ∧
        (OpenVikingSessions.plannedWrites settings request).flatMap sentMessages =
          messages.map LongMemEvalMessage.spoken := by
  have hspoken : messages.map LongMemEvalMessage.spoken ≠ [] := by simpa using hmessages
  have hvalid : ∀ message ∈ messages.map LongMemEvalMessage.spoken, message.1 ∈ messageRoles := by
    intro message hmessage
    obtain ⟨spoken, hspoken, rfl⟩ := List.mem_map.mp hmessage
    exact hroles spoken hspoken
  have hnonempty : ∀ message ∈ messages.map LongMemEvalMessage.spoken, message.1 ≠ "" := by
    intro message hmessage hempty
    have hrole := hvalid message hmessage
    rw [hempty] at hrole
    exact absurd hrole (by decide)
  have hparse := parseMessages_document hspoken hvalid
  refine ⟨_, renderLmeSessionDocument_parsed hroles, fun sha256 source hsource ↦ ?_, hparse,
    flatten_toChunks _ _, fun settings request scope session hsession hplanned hbytes ↦ ?_⟩
  · have hread := sourceMessages_document hspoken hnonempty hsource
    refine ⟨hread, flatten_messagePairs _, fun encoder settings request hrequests ↦
      ⟨Mem0Ingest.writesExactly_body, ?_⟩⟩
    rw [Mem0Ingest.plannedWrites, List.flatMap_map]
    exact flatMap_addRequests hread hrequests
  · refine ⟨OpenVikingSessions.writesExactly_body, ?_⟩
    have hmember : session ∈ scope.sessions := by
      unfold OpenVikingSessions.plannedForDispatch at hsession
      split at hsession
      · cases hsession
      · split at hsession
        · next found hfound =>
          cases hsession
          exact List.mem_of_find?_eq_some hfound
        · cases hsession
    obtain ⟨⟨timestamp, htimestamp⟩, hmessagesOf⟩ := read_of_isPlanned hplanned hmember
    rw [hbytes] at hmessagesOf
    have hsame : session.messages = messages.map LongMemEvalMessage.spoken :=
      Except.ok.inj (hmessagesOf.symm.trans hparse)
    rw [OpenVikingSessions.plannedWrites, hsession, ← hsame]
    exact flatMap_sessionWrites htimestamp

/-- A conversation with an empty content and with characters that are escaped. -/
theorem same_conversation_of_three :
    ∃ document, renderLmeSessionDocument
        ([⟨"user", "Is it \"5 °C\"?\n", none⟩, ⟨"assistant", "", some false⟩,
          ⟨"user", "Thanks", none⟩].map .parsed) = .ok document ∧
      parseMessages document =
        .ok [("user", "Is it \"5 °C\"?\n"), ("assistant", ""), ("user", "Thanks")] := by
  obtain ⟨document, hdocument, -, hparse, -⟩ :=
    @same_conversation [⟨"user", "Is it \"5 °C\"?\n", none⟩, ⟨"assistant", "", some false⟩,
      ⟨"user", "Thanks", none⟩] (by simp) (by decide)
  exact ⟨document, hdocument, hparse⟩

end Oamb.MemorySystems.MessageDelivery
