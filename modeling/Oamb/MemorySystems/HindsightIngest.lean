import Oamb.MemorySystems.DispatchBooks

/-!
# The ingestion of Hindsight

A dispatch of Hindsight retains its sources with one request. There is no lock and no turn: the
attempts on the dispatches of a scope may overlap. An attempt of Hindsight keeps the laws of retries
(`retries_lawful`).
-/

set_option autoImplicit false

namespace Oamb.MemorySystems.HindsightIngest

open Foundation Foundation.Dialogue Foundation.ConcurrentCalls
open RestClient

/-! ### The plan -/

/-- The operation of a dispatch. -/
def retainOperation : String := "retain_extraction"

/-- The most sources of a dispatch. -/
def retainBatchLimit : ℕ := 1

/-- An item of a request. -/
def retainItem (decode : Bytes → Option String) (source : SourceUnit) : Except IngestError Json :=
  match source.occurredAt, source.contextText with
  | some occurredAt, some contextText =>
    match decode source.payloadBytes with
    | some content =>
      .ok (.object [("content", .string content), ("timestamp", .string occurredAt),
        ("context", .string contextText),
        ("metadata", .object (source.sourceMetadata.map fun entry ↦ (entry.1, .string entry.2))),
        ("document_id", .string source.sourceUnitId)])
    | none => .error (.valueError "Hindsight source payload is not text")
  | _, _ => .error (.valueError "Hindsight retain source requires timestamp and context")

/-- The plan of the sources of a scope, in batches. -/
def planIngestion (decode : Bytes → Option String) (fingerprint : ℕ → List SourceUnit → String)
    (hfingerprint : ∀ ordinal other units units',
      fingerprint ordinal units = fingerprint other units' → ordinal = other)
    (sources : List SourceUnit) : Except IngestError FrozenPlan :=
  match sources.mapM (retainItem decode) with
  | .error error => .error error
  | .ok _ =>
    .ok (planDispatches retainOperation fingerprint hfingerprint
      (sources.toChunks retainBatchLimit))

/-- What an adapter is set to: its scopes with their plans, the fingerprint of a dispatch, the text of
some bytes, the check of a response, and the kind of a failure that is settled. -/
structure Settings where
  scopes : String → Option Scope
  fingerprint : String → ℕ → List SourceUnit → String
  decode : Bytes → Option String
  acceptable : String → ℕ → Bytes → Bool
  classifySettledIngestionFailure : ℕ → Bytes → Option ℕ → Option String
  internalRetryCount : Option ℕ

/-- The check that the scope of a request was allocated. -/
def requireAllocatedScope (settings : Settings) (request : IngestionDispatchRequest) :
    Except IngestError Scope :=
  match settings.scopes request.scopeId with
  | none => .error (.valueError "Hindsight scope was not allocated by this adapter")
  | some scope =>
    if scope.ingestionOccurrenceId = request.ingestionOccurrenceId then .ok scope
    else .error (.valueError "Hindsight scope was not allocated by this adapter")

/-- The checks of the dispatch of a request. -/
def checkDispatch (settings : Settings) (scopeId : String) (scope : Scope)
    (dispatch : IngestionDispatch) : Except IngestError Unit :=
  if (scope.plan.bind fun plan ↦ plan.find dispatch.dispatchOrdinal) ≠ some dispatch then
    .error (.valueError "Hindsight dispatch does not match the frozen plan")
  else if dispatch.operationKind ≠ retainOperation ∨ dispatch.dispatchOrdinal < 1 ∨
      dispatch.orderedSourceUnits = [] ∨ retainBatchLimit < dispatch.orderedSourceUnits.length then
    .error (.valueError "Hindsight retain dispatch does not match the exact profile")
  else if dispatch.requestFingerprint ≠
      settings.fingerprint scopeId dispatch.dispatchOrdinal dispatch.orderedSourceUnits then
    .error (.valueError "Hindsight retain dispatch fingerprint does not match its request")
  else .ok ()

/-! ### An attempt -/

/-- The code of an attempt until its request. -/
def enter (settings : Settings) (book : AttemptBook) (request : IngestionDispatchRequest) :
    Option (Except IngestError AttemptBook) :=
  match requireAllocatedScope settings request with
  | .error error => some (.error error)
  | .ok scope =>
    match checkDispatch settings request.scopeId scope request.dispatch with
    | .error error => some (.error error)
    | .ok () =>
      if request.batchAttemptOrdinal ≠ book.nextBatchAttemptOrdinals (bookKey request) then
        some (.error
          (.valueError "Hindsight retain batch attempt is not the next allowed retry"))
      else if book.attemptedDispatches (bookKey request, request.batchAttemptOrdinal) then
        some (.error
          (.valueError "Hindsight retain dispatch was already attempted and cannot replay"))
      else some (.ok (book.claim (bookKey request) request.batchAttemptOrdinal))

/-- Why a failure is settled. -/
def settlementBasis : String := "hindsight_sync_extraction_drained_v1"

/-- The request that retains some items. -/
def retainCall (bankId : String) (items : List Json) : RestCall where
  method := "POST"
  path := s!"/v1/default/banks/{bankId}/memories"
  payload := .object [("items", .array items), ("async", .bool false)]
  writeIntent := true

/-- The items of a dispatch. -/
def retainItems (settings : Settings) (request : IngestionDispatchRequest) :
    Except IngestError (List Json) :=
  request.dispatch.orderedSourceUnits.mapM (retainItem settings.decode)

/-- The request of an attempt, with what it makes of its end. -/
def body (settings : Settings) (request : IngestionDispatchRequest) : Ingest SealedRestResponse :=
  match retainItems settings request with
  | .error error => fail error
  | .ok items =>
    ask (.request (retainCall request.scopeId items)) fun exit ↦
      match exit with
      | .callFailure failure =>
        fail (settledOr settings.classifySettledIngestionFailure settlementBasis
          settings.internalRetryCount failure)
      | .returned response =>
        if settings.acceptable request.scopeId items.length response.rawBytes then pure response
        else
          fail (validationFailure "Hindsight retain response failed exact-profile validation"
            response)
      | other => fail (.call other)

/-- The ingestion of Hindsight. -/
def procedure (settings : Settings) : Procedure AttemptBook IngestionDispatchRequest Query Answer
    IngestError SealedRestResponse where
  enter := enter settings
  body := body settings
  leave book request outcome := book.finish (bookKey request) request.batchAttemptOrdinal outcome

/-- The writes that a request plans. -/
def plannedWrites (settings : Settings) (request : IngestionDispatchRequest) : List Query :=
  match retainItems settings request with
  | .error _ => []
  | .ok items => [.request (retainCall request.scopeId items)]

/-! ### The laws -/

section Laws

variable {settings : Settings} {book next : AttemptBook} {request : IngestionDispatchRequest}

/-- An attempt enters when its dispatch is planned, and it is the next one and new. -/
theorem enter_eq_ok (henter : enter settings book request = some (.ok next)) :
    Planned settings.scopes request ∧
      book.nextBatchAttemptOrdinals (bookKey request) = request.batchAttemptOrdinal ∧
      book.attemptedDispatches (bookKey request, request.batchAttemptOrdinal) = false ∧
      next = book.claim (bookKey request) request.batchAttemptOrdinal := by
  unfold enter at henter
  split at henter
  · cases henter
  · next scope hscope =>
    split at henter
    · cases henter
    · next hplanned =>
      split_ifs at henter with hattempt hattempted
      · cases henter
      · cases henter
      · cases henter
        refine ⟨?_, (not_not.mp hattempt).symm, (Bool.not_eq_true _).mp hattempted, rfl⟩
        unfold requireAllocatedScope at hscope
        split at hscope
        · cases hscope
        · next found hfound =>
          split_ifs at hscope
          cases hscope
          unfold checkDispatch at hplanned
          split_ifs at hplanned with hfind
          rw [Planned, fingerprintAt, hfound, Option.bind_some, not_not.mp hfind, Option.map_some]

/-- An attempt that is withdrawn wrote nothing. -/
theorem not_issues_of_body {trace : List (Exchange Query Answer)} {message : String}
    (hbody : Execution (body settings request) trace
      (.error (.call (.cancelledBeforeDispatch message)))) :
    ∀ exchange ∈ trace, ¬ Issues exchange := by
  unfold body at hbody
  split at hbody
  · obtain ⟨rfl, -⟩ := execution_fail.mp hbody
    exact fun exchange hmem ↦ nomatch hmem
  · next items hitems =>
    obtain ⟨exit, later, rfl, hlater⟩ := execution_ask.mp hbody
    split at hlater
    · next failure =>
      have hsettled := (execution_fail.mp hlater).2
      unfold settledOr at hsettled
      split at hsettled
      · split at hsettled
        · cases hsettled
        · cases hsettled
      · cases hsettled
    · next response =>
      split_ifs at hlater
      · cases (execution_pure.mp hlater).2
      · cases (execution_fail.mp hlater).2
    · obtain ⟨rfl, hsame⟩ := execution_fail.mp hlater
      cases hsame
      intro exchange hmem
      rw [List.mem_singleton] at hmem
      subst hmem
      exact fun hissues ↦ Bool.noConfusion hissues.2

/-- The attempts of Hindsight keep the laws of retries. -/
theorem retries_lawful : (bookRetries settings.scopes id).Lawful (procedure settings)
    AttemptBook.initial (Planned settings.scopes) Issues := by
  refine bookRetries_lawful rfl ?_ rfl not_issues_of_body
  intro state request state' henter
  exact enter_eq_ok henter

/-- The write of an attempt is the request of its dispatch. -/
theorem writesExactly_body :
    WritesExactly IsWrite (plannedWrites settings request) (body settings request) := by
  rw [plannedWrites, body]
  cases retainItems settings request with
  | error error => exact writesExactly_fail
  | ok items =>
    refine writesExactly_write rfl fun exit ↦ ?_
    split
    · exact writesExactly_fail
    · split_ifs
      · exact writesExactly_pure
      · exact writesExactly_fail
    · exact writesExactly_fail

end Laws

end Oamb.MemorySystems.HindsightIngest
