import Oamb.MemorySystems.OpenVikingSessions

/-!
# The indexing usage of OpenViking sessions

The usage of an ingestion is recovered from its sealed evidence: among the payloads that a plan record
names, a commit that was accepted binds a session to its task and archive, and a task that completed
reports the usage of its session. The sessions that are expected are those of the sources, under the
identities of their first attempts.
-/

set_option autoImplicit false

namespace Oamb.Artifacts.OpenVikingEvidence

open Foundation MemorySystems MemorySystems.OpenVikingSessions

/-! ### Records -/

/-- What is read of the record of an ingestion plan. -/
structure IndexingPlan where
  adapterProfileId : String
  ingestionOccurrenceId : String
  orderedDispatchAttemptIds : List String
  orderedSourceUnitIds : List String
  readinessEvidenceRefs : List String

/-- The usage that the task of a session reports. -/
structure IndexingUsage where
  attemptId : String
  rawResponseRef : String
  promptTokens : ℤ
  completionTokens : ℤ
  totalTokens : ℤ
  cachedTokens : ℤ
  reasoningTokens : ℤ
  deriving DecidableEq

/-- The profile of OpenViking sessions. -/
def sessionProfileId : String := "openviking-session-rest-v1"

/-- The texts of a field, none of which is empty. -/
def orderedText (values : List String) (field : String) : Except String (List String) :=
  if values.all (· ≠ "") then .ok values
  else .error s!"OpenViking indexing usage {field} is invalid"

/-! ### Usage -/

/-- A member that is an integer and not negative. -/
def nonNegativeInteger (value : Json) (field : String) : Except String ℤ :=
  match (value.get field).asInteger with
  | some number =>
    if number < 0 then .error s!"OpenViking indexing usage {field} is invalid" else .ok number
  | none => .error s!"OpenViking indexing usage {field} is invalid"

/-- The usage of a task, whose counts have to agree. -/
def taskIndexingUsage (value : Json) (attemptId rawResponseRef : String) :
    Except String IndexingUsage := do
  let llm := value.get "llm"
  let embedding := value.get "embedding"
  let total := value.get "total"
  if value.isObject = false then .error "OpenViking indexing usage snapshot is absent"
  else if llm.isObject = false ∨ embedding.isObject = false ∨ total.isObject = false then
    .error "OpenViking indexing usage snapshot is malformed"
  else
    let promptTokens ← nonNegativeInteger llm "prompt_tokens"
    let completionTokens ← nonNegativeInteger llm "completion_tokens"
    let llmTotalTokens ← nonNegativeInteger llm "total_tokens"
    let cachedTokens ← nonNegativeInteger llm "cached_tokens"
    let reasoningTokens ← nonNegativeInteger llm "reasoning_tokens"
    let embeddingTokens ← nonNegativeInteger embedding "total_tokens"
    let combinedTokens ← nonNegativeInteger total "total_tokens"
    let combinedCachedTokens ← nonNegativeInteger total "cached_tokens"
    let combinedReasoningTokens ← nonNegativeInteger total "reasoning_tokens"
    if promptTokens + completionTokens ≠ llmTotalTokens ∨
        llmTotalTokens + embeddingTokens ≠ combinedTokens ∨
        cachedTokens ≠ combinedCachedTokens ∨ reasoningTokens ≠ combinedReasoningTokens ∨
        promptTokens < cachedTokens ∨ completionTokens < reasoningTokens then
      .error "OpenViking indexing usage token equations do not close"
    else
      .ok ⟨attemptId, rawResponseRef, promptTokens, completionTokens, llmTotalTokens, cachedTokens,
        reasoningTokens⟩

/-! ### Evidence -/

/-- The sessions that are expected, each with the attempt on its source. -/
abbrev Expected : Type := List (String × String)

/-- The attempt on the source of a session. -/
def Expected.attempt (expected : Expected) (sessionId : String) : Option String :=
  (expected.reverse.find? fun entry ↦ entry.1 = sessionId).map Prod.snd

/-- The task and the archive of a session. -/
abbrev TaskIdentity : Type := String × String

/-- What the evidence has shown: the commits that were accepted, the sessions that completed with
their usage and their identities, and the tasks that were seen. -/
structure UsageState where
  accepted : List (String × TaskIdentity)
  completed : List (String × IndexingUsage × TaskIdentity)
  taskIds : List String
  deriving Inhabited

/-- Nothing was shown yet. -/
def UsageState.initial : UsageState := ⟨[], [], []⟩

/-- The usage of a session that completed. -/
def UsageState.usage (state : UsageState) (sessionId : String) : Option IndexingUsage :=
  (state.completed.find? fun entry ↦ entry.1 = sessionId).map fun entry ↦ entry.2.1

/-- The value can be looked up. -/
def isHashable : Json → Bool
  | .array _ | .object _ => false
  | _ => true

/-- The document is a success that nothing was added to. -/
def isCleanSuccess (document : Json) : Bool :=
  (document.get "status").isText "ok" &&
    ["error", "telemetry", "profile"].all fun field ↦ (document.get field).isNull

/-- Read a commit that was accepted. -/
def readCommit (expected : Expected) (state : UsageState) (document : Json) :
    Except String UsageState :=
  let result := document.get "result"
  if isHashable (result.get "session_id") = false then .error "unhashable type"
  else
    match (result.get "session_id").asText.bind fun sessionId ↦
        (expected.attempt sessionId).map fun _ ↦ sessionId with
    | none => .ok state
    | some sessionId =>
      match (result.get "task_id").asNonEmptyText, (result.get "archive_uri").asNonEmptyText with
      | some taskId, some archiveUri =>
        if isCleanSuccess document ∧ (result.get "archived").isTrue = true then
          .ok { state with accepted := (sessionId, taskId, archiveUri) :: state.accepted }
        else .error "OpenViking indexing usage commit identity does not close"
      | _, _ => .error "OpenViking indexing usage commit identity does not close"

/-- Read a task that completed. -/
def readTask (expected : Expected) (state : UsageState) (reference : String) (document : Json) :
    Except String UsageState :=
  let result := document.get "result"
  let taskResult := result.get "result"
  match (result.get "resource_id").asText with
  | none => .error "OpenViking indexing usage task identity does not close"
  | some sessionId =>
    match expected.attempt sessionId with
    | none => .ok state
    | some attemptId =>
      match (result.get "task_id").asNonEmptyText,
        (taskResult.get "archive_uri").asNonEmptyText with
      | some taskId, some archiveUri =>
        if isCleanSuccess document ∧ taskResult.isObject = true ∧
            (taskResult.get "session_id").isText sessionId = true then
          if taskId ∈ state.taskIds ∨ sessionId ∈ state.completed.map Prod.fst then
            .error "OpenViking indexing usage has conflicting completed snapshots"
          else do
            let usage ← taskIndexingUsage (taskResult.get "token_usage") attemptId reference
            pure
              { state with
                completed := state.completed ++ [(sessionId, usage, taskId, archiveUri)]
                taskIds := taskId :: state.taskIds }
        else .error "OpenViking indexing usage task identity does not close"
      | _, _ => .error "OpenViking indexing usage task identity does not close"

/-- The result of a commit that was accepted. -/
def isAccepted (result : Json) : Bool := result.isObject && (result.get "status").isText "accepted"

/-- The result of a task of a commit that completed. -/
def isCompletedTask (result : Json) : Bool :=
  result.isObject && (result.get "task_type").isText "session_commit" &&
    (result.get "status").isText "completed"

/-- Read a document of the evidence. -/
def readDocument (expected : Expected) (state : UsageState) (reference : String) (document : Json) :
    Except String UsageState :=
  if isAccepted (document.get "result") then readCommit expected state document
  else if isCompletedTask (document.get "result") then readTask expected state reference document
  else .ok state

/-- Read the payload of a reference. One that is no object says nothing. -/
def readReference (parse : Bytes → Option Json) (sha256 : Bytes → String)
    (rawPayloads : String → Option Bytes) (expected : Expected) (state : UsageState)
    (reference : String) : Except String UsageState :=
  match rawPayloads reference with
  | none => .error "OpenViking session raw evidence is absent"
  | some payload =>
    if sha256 payload ≠ reference then
      .error "OpenViking indexing usage raw identity does not close"
    else
      match parse payload with
      | none => .ok state
      | some document =>
        if document.isObject then readDocument expected state reference document else .ok state

/-! ### Reconstruction -/

/-- The texts without repetitions, each at its first place. -/
def fromKeys (texts : List String) : List String := texts.reverse.dedup.reverse

/-- The usage of the sources of a plan, in their order. There is none when a session that is expected
did not complete. -/
def reconstructIndexingUsage (digest : List String → String) (parse : Bytes → Option Json)
    (sha256 : Bytes → String) (rawPayloads : String → Option Bytes) (plan : IndexingPlan) :
    Except String (List IndexingUsage) :=
  if plan.adapterProfileId ≠ sessionProfileId then
    .error "OpenViking indexing usage has the wrong adapter profile"
  else do
    let attemptIds ← orderedText plan.orderedDispatchAttemptIds "ordered_dispatch_attempt_ids"
    let sourceIds ← orderedText plan.orderedSourceUnitIds "ordered_source_unit_ids"
    let readinessRefs ← orderedText plan.readinessEvidenceRefs "readiness_evidence_refs"
    if attemptIds = [] ∨ plan.ingestionOccurrenceId = "" ∨
        attemptIds.length ≠ sourceIds.length ∨ ¬ attemptIds.Nodup ∨ ¬ sourceIds.Nodup then
      .error "OpenViking indexing usage dispatch ledger is invalid"
    else
      let sessions := sourceIds.map (openvikingSessionId digest plan.ingestionOccurrenceId)
      let state ← (fromKeys readinessRefs).foldlM
        (readReference parse sha256 rawPayloads (sessions.zip attemptIds)) .initial
      if state.completed.any fun entry ↦ (entry.1, entry.2.2) ∉ state.accepted then
        .error "OpenViking indexing usage task is not bound to its accepted commit"
      else if sessions.all fun sessionId ↦ (state.usage sessionId).isSome then
        pure (sessions.filterMap state.usage)
      else pure []

/-! ### The record of a plan -/

/-- The evidence that a scope is ready: that of the sources that are completed, in their order, and a
projection of its memory. -/
def readinessReferences (adapter : Adapter) (sessions : List PlannedSession)
    (projection : RestClient.SealedRestResponse) : List String :=
  ((sessions.filterMap fun session ↦ adapter.completed session.sessionId).flatMap fun completed ↦
    completed.evidenceReferences) ++ [projection.rawReference]

/-- The record of a plan that is sealed. -/
def sealedPlan (ingestionOccurrenceId : String) (adapter : Adapter) (sessions : List PlannedSession)
    (projection : RestClient.SealedRestResponse) (attemptIds : List String) : IndexingPlan :=
  ⟨sessionProfileId, ingestionOccurrenceId, attemptIds,
    sessions.map fun session ↦ session.source.sourceUnitId,
    fromKeys (readinessReferences adapter sessions projection)⟩

end Oamb.Artifacts.OpenVikingEvidence
