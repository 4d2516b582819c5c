import Oamb.MemorySystems.Ingestion

/-!
# The ingestion of one source session

A source is ingested as a native session that is created, filled with batches of messages, and
committed. The commit starts a task, which is polled until it is terminal; then the archive and the
memory projection are read. The ingestion is a dialogue: it asks the REST client for requests, the
loop for its clock, and for a sleep between two polls. `commitSession` comes to the identity of the
task that the commit started, and `settleSession` goes on from there.
-/

set_option autoImplicit false

namespace Oamb.MemorySystems.OpenVikingIngest

open Foundation Foundation.Dialogue
open RestClient

/-! ### Responses -/

/-- The names of a response in its two forms. -/
def cleanNames : List (List String) :=
  [["status", "result"], ["status", "result", "error", "telemetry", "profile"]]

/-- The document of some bytes, when it is exact and has the names of one of some forms. -/
def exactOneOf (parse : Bytes → Option Json) (content : Bytes) (forms : List (List String)) :
    Option Json :=
  (parse content).filter fun document ↦ document.exact && forms.any document.hasNames

/-- The result of a document that is a clean success. -/
def cleanDocument (document : Json) : Option Json :=
  if (document.get "status").isText "ok" ∧
      ∀ name ∈ ["error", "telemetry", "profile"], (document.get name).isNull = true then
    some (document.get "result")
  else none

/-- The result of a response that is a clean success. -/
def cleanResult (parse : Bytes → Option Json) (response : SealedRestResponse) (label : String) :
    Except IngestError Json :=
  match (exactOneOf parse response.rawBytes cleanNames).bind cleanDocument with
  | some result => .ok result
  | none =>
    .error (.call (.callFailure
      ⟨s!"OpenViking {label} response failed exact-profile validation", "response_validation",
        some response.rawReference, some response.rawBytes, some response.statusCode⟩))

/-- The details of an error that says that something is not there. -/
def absentDetails (expectedResource expectedType : String) (details : Json) : Bool :=
  if expectedType = "session" then details.isNull
  else details.hasNames ["resource", "type"] && (details.get "resource").isText expectedResource &&
    (details.get "type").isText expectedType

/-- The message of such an error. -/
def absentMessage (expectedResource expectedType : String) : String :=
  if expectedType = "session" then s!"Session {expectedResource} not found"
  else s!"{expectedType.capitalize} not found: {expectedResource}"

/-- The check of a response that says that something is not there. -/
def parseNotFound (parse : Bytes → Option Json) (content : Bytes)
    (expectedResource expectedType : String) : Except IngestError Unit :=
  match exactOneOf parse content
    [["status", "error"], ["status", "result", "error", "telemetry", "profile"]] with
  | none => .error (.valueError "invalid OpenViking session not-found response")
  | some document =>
    let error := document.get "error"
    if (document.get "status").isText "error" ∧
        (∀ name ∈ ["result", "telemetry", "profile"], (document.get name).isNull = true) ∧
        (error.get "code").isText "NOT_FOUND" ∧
        (error.get "message").isText (absentMessage expectedResource expectedType) ∧
        absentDetails expectedResource expectedType (error.get "details") = true then .ok ()
    else .error (.valueError "OpenViking create-only absence response is invalid")

/-- A response with the status 404 that was sealed. -/
def notFound : Exit → Option SealedRestResponse
  | .callFailure failure =>
    if failure.failureKind = "http_status" ∧ failure.statusCode = some 404 then
      match failure.rawReference, failure.rawResponseBytes with
      | some reference, some content => some ⟨404, content, reference, none⟩
      | _, _ => none
    else none
  | _ => none

/-- Read something that must not be there. -/
def requireAbsent (parse : Bytes → Option Json) (call : RestCall)
    (expectedResource expectedType : String) : Ingest String :=
  ask (.request call) fun exit ↦
    match notFound exit with
    | some response =>
      match parseNotFound parse response.rawBytes expectedResource expectedType with
      | .error error => fail error
      | .ok () => pure response.rawReference
    | none =>
      match exitOutcome exit with
      | .error error => fail error
      | .ok _ => fail (.valueError
        s!"OpenViking create-only {expectedType} already exists: {expectedResource}")

/-- The value is a positive integer. -/
def positiveInteger (value : Json) : Bool := value.asInteger.any fun number ↦ 0 < number

/-- The value is an object with a member, each of which is zero. -/
def zeroIntegerMapping : Json → Bool
  | .object members => !members.isEmpty && members.all fun member ↦ member.2.asInteger = some 0
  | _ => false

/-- The check that a session that failed has no memory and no usage. -/
def requireZeroFailedSession (result : Json) (sessionId : String) : Except IngestError Unit :=
  if ¬ (result.get "session_id").isText sessionId then
    .error (.valueError "OpenViking failed continuation proof has the wrong session")
  else if (result.get "message_count").asInteger = some 0 ∧
      positiveInteger (result.get "total_message_count") = true ∧
      positiveInteger (result.get "commit_count") = true ∧
      (result.get "pending_tokens").asInteger = some 0 ∧
      ∀ name ∈ ["memories_extracted", "llm_token_usage", "embedding_token_usage"],
        zeroIntegerMapping (result.get name) = true then .ok ()
  else .error (.valueError
    "OpenViking failed continuation session does not prove zero memory and usage")

/-- The identities of the task and the archive of a commit that was accepted. -/
def commitIdentity (result : Json) (sessionId : String) : Except IngestError (String × String) :=
  match (result.get "task_id").asNonEmptyText, (result.get "archive_uri").asNonEmptyText with
  | some taskId, some archiveUri =>
    if (result.get "session_id").isText sessionId ∧ (result.get "status").isText "accepted" ∧
        (result.get "archived").isTrue = true then .ok (taskId, archiveUri)
    else .error (.valueError
      "OpenViking session commit did not close archive and task identity")
  | _, _ => .error (.valueError
    "OpenViking session commit did not close archive and task identity")

/-- The check that a task that completed has a usage snapshot. -/
def requireUsageSnapshot (result : Json) : Except IngestError Unit :=
  let usage := result.get "token_usage"
  if usage.isObject ∧ ∀ name ∈ ["llm", "embedding", "total"], (usage.get name).isObject = true then
    .ok ()
  else .error (.valueError "OpenViking completed task has no usage snapshot")

/-! ### The commit -/

/-- What an adapter is set to. -/
structure Settings where
  maximumTaskPolls : ℕ
  taskPollIntervalSeconds : ℚ
  taskPollTimeoutSeconds : ℚ
  internalRetryCount : Option ℕ

/-- A source session that is ingested. A continuation that replays a session that failed has the
evidence of the failure. -/
structure SessionIngestion where
  sessionId : String
  memoryRoot : String
  /-- The canonical time of the source, or the message of what is wrong with it. -/
  timestamp : Except String String
  messages : List (String × String)
  failedEvidenceReferences : Option (List String)

/-- The most messages of a batch. -/
def maximumMessagesPerBatch : ℕ := 100

/-- The payload of a message. -/
def messagePayload (timestamp : String) (message : String × String) : Json :=
  .object [("role", .string message.1), ("content", .string message.2),
    ("created_at", .string timestamp)]

/-- The request that reads a session. -/
def sessionCall (sessionId : String) : RestCall where
  method := "GET"
  path := s!"/api/v1/sessions/{sessionId}"
  params := [("auto_create", .bool false)]

/-- The request that creates a session. -/
def createCall (sessionId : String) : RestCall where
  method := "POST"
  path := "/api/v1/sessions"
  payload := .object [("session_id", .string sessionId), ("auto_commit_policy", .null)]
  writeIntent := true

/-- The request that adds a batch of messages. -/
def messagesCall (sessionId timestamp : String) (batch : List (String × String)) : RestCall where
  method := "POST"
  path := s!"/api/v1/sessions/{sessionId}/messages/batch"
  payload := .object [("messages", .array (batch.map (messagePayload timestamp)))]
  writeIntent := true
  requestEvidence := true

/-- The request that commits a session. -/
def commitCall (sessionId : String) : RestCall where
  method := "POST"
  path := s!"/api/v1/sessions/{sessionId}/commit"
  payload := .object [("keep_recent_count", .integer 0)]
  writeIntent := true

/-- Open the native session: show that it is not there and create it, or show that a session that
failed is empty. -/
def openSession (parse : Bytes → Option Json) (session : SessionIngestion) : Ingest (List String) :=
  match session.failedEvidenceReferences with
  | some references => do
    let response ← send (sessionCall session.sessionId)
    let result ← ofExcept (cleanResult parse response "failed continuation session")
    ofExcept (requireZeroFailedSession result session.sessionId)
    pure (references ++ [response.rawReference])
  | none => do
    let absence ← requireAbsent parse (sessionCall session.sessionId) session.sessionId "session"
    let create ← send (createCall session.sessionId)
    let result ← ofExcept (cleanResult parse create "session create")
    if (result.get "session_id").isText session.sessionId ∧ "auto_commit_policy" ∈ result.names ∧
        (result.get "auto_commit_policy").isNull = true then pure [absence, create.rawReference]
    else fail (.valueError "OpenViking session create did not prove auto-commit disabled")

/-- Add the messages of a session, in batches. -/
def addMessages (parse : Bytes → Option Json) (sessionId timestamp : String) :
    List (List (String × String)) → Ingest (List String)
  | [] => pure []
  | batch :: rest => do
    let response ← send (messagesCall sessionId timestamp batch)
    match response.requestReference with
    | none => fail (.valueError "OpenViking session message request evidence is absent")
    | some requestReference =>
      let result ← ofExcept (cleanResult parse response "session messages")
      if (result.get "session_id").isText sessionId then do
        let references ← addMessages parse sessionId timestamp rest
        pure (requestReference :: response.rawReference :: references)
      else fail (.valueError "OpenViking session message response has the wrong session")

/-- A commit that was accepted: its task, its archive, and the evidence until then. -/
structure Commit where
  taskId : String
  archiveUri : String
  evidenceReferences : List String

/-- Open a session, add its messages, and commit it. -/
def commitSession (parse : Bytes → Option Json) (session : SessionIngestion) : Ingest Commit := do
  let opened ← openSession parse session
  let timestamp ← ofExcept (session.timestamp.mapError .valueError)
  let added ← addMessages parse session.sessionId timestamp
    (session.messages.toChunks maximumMessagesPerBatch)
  let commit ← send (commitCall session.sessionId)
  let result ← ofExcept (cleanResult parse commit "session commit")
  let (taskId, archiveUri) ← ofExcept (commitIdentity result session.sessionId)
  pure ⟨taskId, archiveUri, opened ++ added ++ [commit.rawReference]⟩

/-! ### The task of the commit -/

/-- The states of a task that runs. -/
def activeTaskStatuses : List String := ["pending", "running", "cancelling"]

/-- The states of a task that ended without success. -/
def terminalFailureTaskStatuses : List String := ["failed", "cancelled"]

/-- The request that reads a task. -/
def taskCall (taskId : String) (remainingSeconds : ℚ) : RestCall where
  method := "GET"
  path := s!"/api/v1/tasks/{taskId}"
  totalTimeoutSeconds := some remainingSeconds

/-- What is raised for a task that did not become terminal in time. -/
def taskTimeout : IngestError :=
  .call (.unknownOutcome "OpenViking session commit task did not become terminal before timeout"
    "timeout")

/-- The result of a response that is about the task. -/
def taskResult (parse : Bytes → Option Json) (taskId sessionId : String)
    (response : SealedRestResponse) : Except IngestError Json :=
  match cleanResult parse response "session commit task" with
  | .error error => .error error
  | .ok result =>
    if result.isObject = false then
      .error (.valueError "OpenViking session commit task result is not an object")
    else if (result.get "task_id").isText taskId ∧
        (result.get "task_type").isText "session_commit" ∧
        (result.get "resource_id").isText sessionId then .ok result
    else .error (.valueError "OpenViking session commit task identity is invalid")

/-- The characters that stripping a text removes. -/
def whitespace : List Char :=
  ['\t', '\n', '\x0b', '\x0c', '\r', '\x1c', '\x1d', '\x1e', '\x1f', ' ', '\x85', '\u00a0',
    '\u1680', '\u2000', '\u2001', '\u2002', '\u2003', '\u2004', '\u2005', '\u2006', '\u2007',
    '\u2008', '\u2009', '\u200a', '\u2028', '\u2029', '\u202f', '\u205f', '\u3000']

/-- The kind of a failure whose response shows that the task is settled. -/
def classifySettledIngestionFailure (parse : Bytes → Option Json) (response : SealedRestResponse)
    (internalRetryCount : Option ℕ) (taskId sessionId : String) : Option String :=
  if internalRetryCount ≠ some 10 ∨ response.rawBytes = [] ∨ response.statusCode ≠ 200 then none
  else
    match (parse response.rawBytes).filter fun document ↦ document.exact with
    | none => none
    | some document =>
      let task := document.get "result"
      if document.isObject ∧ taskId ≠ "" ∧ sessionId ≠ "" ∧
          (∀ name ∈ document.names,
            name ∈ ["status", "result", "error", "profile", "telemetry"]) ∧
          (document.get "status").isText "ok" ∧ (document.get "error").isNull = true ∧
          task.isObject ∧ (task.get "task_id").isText taskId ∧
          (task.get "resource_id").isText sessionId ∧
          (task.get "task_type").isText "session_commit" ∧ (task.get "status").isText "failed" ∧
          (task.get "stage").isText "failed" then
        match (task.get "error").asText with
        | none => none
        | some message =>
          if message.toList.all (· ∈ whitespace) then none
          else if message = "Connection error." then some "supplier_connection"
          else some "provider_ingestion_error"
      else none

/-- Why a failure of a task is settled. -/
def openVikingSettlementBasis : String := "openviking_task_work_drained_v1"

/-- What is raised for a task that ended without success. -/
def taskFailure (parse : Bytes → Option Json) (settings : Settings)
    (taskId sessionId status : String) (preceding : List String) (response : SealedRestResponse) :
    IngestError :=
  match classifySettledIngestionFailure parse response settings.internalRetryCount taskId sessionId,
    settings.internalRetryCount with
  | some failureKind, some internalRetryCount =>
    .settled ⟨failureKind, response.rawReference, response.rawBytes, preceding, response.statusCode,
      openVikingSettlementBasis, internalRetryCount, some taskId, some sessionId⟩
  | _, _ => .valueError s!"OpenViking session commit task ended as {status}"

/-- What a poll comes to: the result of a task that completed, or another poll. -/
def pollStatus (parse : Bytes → Option Json) (settings : Settings) (sessionId : String)
    (commit : Commit) (references : List String) (response : SealedRestResponse) (result : Json) :
    Except IngestError (Option Json) :=
  match (result.get "status").asText with
  | none => .error (.valueError "OpenViking session commit task status is invalid")
  | some status =>
    if status = "completed" then
      let terminal := result.get "result"
      if terminal.isObject ∧ (terminal.get "session_id").isText sessionId ∧
          (terminal.get "archive_uri").isText commit.archiveUri then .ok (some terminal)
      else .error (.valueError "OpenViking completed task result is not bound to its archive")
    else if status ∈ terminalFailureTaskStatuses then
      .error (taskFailure parse settings commit.taskId sessionId status
        (commit.evidenceReferences ++ references) response)
    else if status ∈ activeTaskStatuses then .ok none
    else .error (.valueError "OpenViking session commit task status is invalid")

/-- What a poll makes of the end of its request: the result of a task that completed or `none` for
another poll, with the reference of the response. -/
def readTask (parse : Bytes → Option Json) (settings : Settings) (sessionId : String)
    (commit : Commit) (references : List String) :
    Exit → Except IngestError (Option Json × String)
  | .callFailure failure =>
    if failure.failureKind ≠ "timeout" then .error (.call (.callFailure failure))
    else .error taskTimeout
  | .returned response =>
    match taskResult parse commit.taskId sessionId response with
    | .error error => .error error
    | .ok result =>
      match pollStatus parse settings sessionId commit references response result with
      | .error error => .error error
      | .ok terminal => .ok (terminal, response.rawReference)
  | exit => .error (.call exit)

/-- Read the task until it is terminal, at most some times and until a deadline. The references of
the responses until then are kept. -/
def pollTerminalTask (parse : Bytes → Option Json) (settings : Settings) (sessionId : String)
    (commit : Commit) (deadline : ℚ) : ℕ → List String → Ingest (Json × List String)
  | 0, _ => fail taskTimeout
  | polls + 1, references => do
    let before ← readClock
    if deadline - before ≤ 0 then fail taskTimeout
    else
      ask (.request (taskCall commit.taskId (deadline - before))) fun exit ↦
        match readTask parse settings sessionId commit references exit with
        | .error error => fail error
        | .ok (some terminal, reference) => pure (terminal, references ++ [reference])
        | .ok (none, reference) => do
          let after ← readClock
          if deadline - after ≤ 0 then fail taskTimeout
          else
            match ← sleepFor (min settings.taskPollIntervalSeconds (deadline - after)) with
            | .cancelled => fail .cancelled
            | .slept =>
              pollTerminalTask parse settings sessionId commit deadline polls
                (references ++ [reference])

/-! ### After the task -/

/-- The last part of the path of an archive. -/
def archiveId (archiveUri : String) : String :=
  let path := archiveUri.toList.reverse.dropWhile (· = '/')
  String.ofList (path.takeWhile (· ≠ '/')).reverse

/-- Read the memory of the question's user. -/
def captureMemoryProjection (parse : Bytes → Option Json) (memoryRoot : String) :
    Ingest SealedRestResponse :=
  let call : RestCall :=
    { method := "GET"
      path := "/api/v1/fs/ls"
      params := [("uri", .string memoryRoot), ("simple", .bool true), ("recursive", .bool true),
        ("output", .string "original"), ("show_all_hidden", .bool true)] }
  ask (.request call) fun exit ↦
    match notFound exit with
    | some response =>
      match parseNotFound parse response.rawBytes memoryRoot "directory" with
      | .error error => fail error
      | .ok () => pure response
    | none => do
      let response ← ofExcept (exitOutcome exit)
      match ← ofExcept (cleanResult parse response "user-memory projection") with
      | .array items =>
        let uris := items.filterMap Json.asText
        if uris.length = items.length ∧ uris.Nodup ∧
            ∀ uri ∈ uris, s!"{memoryRoot}/".toList <+: uri.toList then pure response
        else fail (.valueError
          "OpenViking user-memory projection is incomplete or outside the root")
      | _ => fail (.valueError
        "OpenViking user-memory projection is incomplete or outside the root")

/-- A session that was ingested. -/
structure CompletedSession where
  sessionId : String
  archiveUri : String
  taskId : String
  evidenceReferences : List String

/-- Read the archive and the memory after a task completed. -/
def closeSession (parse : Bytes → Option Json) (session : SessionIngestion) (commit : Commit)
    (terminal : Json) (polled : List String) : Ingest CompletedSession := do
  ofExcept (requireUsageSnapshot terminal)
  let archive ← send
    { method := "GET"
      path := s!"/api/v1/sessions/{session.sessionId}/archives/{archiveId commit.archiveUri}" }
  let result ← ofExcept (cleanResult parse archive "session archive")
  if result.isObject ∧ ((result.get "session_id").isNull = true ∨
      (result.get "session_id").isText session.sessionId) then do
    let projection ← captureMemoryProjection parse session.memoryRoot
    pure ⟨session.sessionId, commit.archiveUri, commit.taskId,
      commit.evidenceReferences ++ polled ++ [archive.rawReference, projection.rawReference]⟩
  else fail (.valueError "OpenViking session archive has the wrong session")

/-- Follow the task of a commit to its end, and close the session. -/
def settleSession (parse : Bytes → Option Json) (settings : Settings) (session : SessionIngestion)
    (commit : Commit) : Ingest CompletedSession := do
  let start ← readClock
  let (terminal, polled) ← pollTerminalTask parse settings session.sessionId commit
    (start + settings.taskPollTimeoutSeconds) settings.maximumTaskPolls []
  closeSession parse session commit terminal polled

/-- Ingest one source session. -/
def ingestSession (parse : Bytes → Option Json) (settings : Settings) (session : SessionIngestion) :
    Ingest CompletedSession := do
  let commit ← commitSession parse session
  settleSession parse settings session commit

end Oamb.MemorySystems.OpenVikingIngest
