import Oamb.MemorySystems.DispatchBooks

/-!
# The ingestion of Mem0

A dispatch of Mem0 adds the messages of one source in pairs, one request for each. The dispatches of a
scope are ingested one after the other under a lock, in the order of their plan. An attempt of Mem0
keeps the laws of retries and of turns (`retries_lawful`, `turns_lawful`).
-/

set_option autoImplicit false

namespace Oamb.MemorySystems.Mem0Ingest

open Foundation Foundation.Dialogue Foundation.ConcurrentCalls Foundation.RetryDiscipline
open RestClient

/-! ### The plan -/

/-- The operation of a dispatch. -/
def addOperation : String := "mem0_add"

/-- The plan of the sources of a scope: one dispatch for each. -/
def planIngestion (fingerprint : ℕ → List SourceUnit → String)
    (hfingerprint : ∀ ordinal other units units',
      fingerprint ordinal units = fingerprint other units' → ordinal = other)
    (sources : List SourceUnit) : Except IngestError FrozenPlan :=
  if sources = [] then .error (.valueError "Mem0 ingestion requires at least one source unit")
  else if sources.map SourceUnit.ordinal ≠ (List.range sources.length).map Nat.succ then
    .error (.valueError "Mem0 source ordinals must be contiguous and ordered")
  else if ¬ (sources.map SourceUnit.sourceUnitId).Nodup then
    .error (.valueError "Mem0 source-unit IDs must be unique")
  else
    .ok (planDispatches addOperation fingerprint hfingerprint (sources.map fun source ↦ [source]))

/-- A request that adds a pair of messages. -/
structure WireRequest where
  method : String
  path : String
  body : Json

/-- What an adapter is set to: its scopes with their plans, the requests of a dispatch, the check of a
response, and the kind of a failure that is settled. -/
structure Settings where
  scopes : String → Option Scope
  wireRequests : String → IngestionDispatch → List WireRequest
  acceptable : Bytes → Bool
  classifySettledIngestionFailure : ℕ → Bytes → Option ℕ → Option String
  internalRetryCount : Option ℕ

/-- The check that the scope of a request is known. -/
def requireScope (settings : Settings) (request : IngestionDispatchRequest) :
    Except IngestError Scope :=
  match settings.scopes request.scopeId with
  | none => .error (.valueError "Mem0 scope receipt is unknown or inconsistent")
  | some scope =>
    if request.scopeId = request.ingestionOccurrenceId ∧
        scope.ingestionOccurrenceId = request.ingestionOccurrenceId then .ok scope
    else .error (.valueError "Mem0 scope receipt is unknown or inconsistent")

/-- The check that the dispatch of a request is planned. -/
def plannedAdd (scope : Scope) (dispatch : IngestionDispatch) : Except IngestError Unit :=
  if (scope.plan.bind fun plan ↦ plan.find dispatch.dispatchOrdinal) = some dispatch ∧
      dispatch.operationKind = addOperation ∧ dispatch.orderedSourceUnits.length = 1 then .ok ()
  else .error (.valueError "Mem0 add dispatch does not match the frozen plan")

/-! ### An attempt -/

/-- What an adapter keeps about its dispatches. -/
structure Adapter where
  book : AttemptBook
  nextIngestionDispatchOrdinal : String → ℕ
  ingestionPlanLocks : String → Bool

/-- A new adapter. A plan starts with its first dispatch. -/
def Adapter.initial : Adapter := ⟨.initial, fun _ ↦ 1, fun _ ↦ false⟩

/-- The code of an attempt until its first request. An attempt waits as long as the lock of its scope
is held. -/
def enter (settings : Settings) (adapter : Adapter) (request : IngestionDispatchRequest) :
    Option (Except IngestError Adapter) :=
  match requireScope settings request with
  | .error error => some (.error error)
  | .ok scope =>
    match plannedAdd scope request.dispatch with
    | .error error => some (.error error)
    | .ok () =>
      if adapter.ingestionPlanLocks request.scopeId then none
      else if request.dispatch.dispatchOrdinal ≠
          adapter.nextIngestionDispatchOrdinal request.scopeId then
        some (.error (.valueError "Mem0 add dispatch is not the next ordered source"))
      else if request.batchAttemptOrdinal ≠
          adapter.book.nextBatchAttemptOrdinals (bookKey request) then
        some (.error (.valueError "Mem0 add batch attempt is not the next allowed retry"))
      else if adapter.book.attemptedDispatches (bookKey request, request.batchAttemptOrdinal) then
        some (.error (.valueError "Mem0 add dispatch was already attempted and cannot replay"))
      else
        some (.ok
          { adapter with
            book := adapter.book.claim (bookKey request) request.batchAttemptOrdinal
            ingestionPlanLocks := Function.update adapter.ingestionPlanLocks request.scopeId true })

/-- The request that adds a pair. -/
def addCall (wireRequest : WireRequest) : RestCall where
  method := wireRequest.method
  path := wireRequest.path
  payload := wireRequest.body
  writeIntent := true

/-- Why a failure is settled. -/
def settlementBasis : String := "mem0_sync_add_returned_v1"

/-- What is raised for a pair that was cancelled after an earlier one was added. -/
def partialFailure (last : SealedRestResponse) : IngestError :=
  .call (.callFailure ⟨"Mem0 pair add was cancelled after an earlier pair completed",
    "partial_write_cancelled", some last.rawReference, some last.rawBytes, some last.statusCode⟩)

/-- Add the pairs of a dispatch, after some of them are added. -/
def addPairs (settings : Settings) (responses : List SealedRestResponse) :
    List WireRequest → Ingest (List SealedRestResponse)
  | [] => pure responses
  | wireRequest :: rest =>
    ask (.request (addCall wireRequest)) fun exit ↦
      match exit with
      | .cancelledBeforeDispatch message =>
        match responses.getLast? with
        | none => fail (.call (.cancelledBeforeDispatch message))
        | some last => fail (partialFailure last)
      | .callFailure failure =>
        if responses ≠ [] then fail (.call (.callFailure failure))
        else fail (settledOr settings.classifySettledIngestionFailure settlementBasis
          settings.internalRetryCount failure)
      | .returned response =>
        if settings.acceptable response.rawBytes then
          addPairs settings (responses ++ [response]) rest
        else fail (validationFailure "Mem0 add response failed exact-profile validation" response)
      | other => fail (.call other)

/-- The requests of an attempt. -/
def body (settings : Settings) (request : IngestionDispatchRequest) :
    Ingest (List SealedRestResponse) :=
  addPairs settings [] (settings.wireRequests request.scopeId request.dispatch)

/-- An attempt that is accepted, or settled as the last one, moves its scope to the next dispatch. -/
def movesOn (request : IngestionDispatchRequest) : Except IngestError (List SealedRestResponse) → Bool
  | .ok _ => true
  | .error (.settled _) => request.batchAttemptOrdinal = 3
  | .error _ => false

/-- The code of an attempt after its last request. -/
def leave (adapter : Adapter) (request : IngestionDispatchRequest)
    (outcome : Except IngestError (List SealedRestResponse)) : Adapter where
  book := adapter.book.finish (bookKey request) request.batchAttemptOrdinal outcome
  nextIngestionDispatchOrdinal :=
    if movesOn request outcome then
      Function.update adapter.nextIngestionDispatchOrdinal request.scopeId
        (request.dispatch.dispatchOrdinal + 1)
    else adapter.nextIngestionDispatchOrdinal
  ingestionPlanLocks := Function.update adapter.ingestionPlanLocks request.scopeId false

/-- The ingestion of Mem0. -/
def procedure (settings : Settings) : Procedure Adapter IngestionDispatchRequest Query Answer
    IngestError (List SealedRestResponse) where
  enter := enter settings
  body := body settings
  leave := leave

/-- The writes that a request plans. -/
def plannedWrites (settings : Settings) (request : IngestionDispatchRequest) : List Query :=
  (settings.wireRequests request.scopeId request.dispatch).map fun wireRequest ↦
    .request (addCall wireRequest)

/-! ### The laws -/

section Laws

variable {settings : Settings} {adapter next : Adapter} {request : IngestionDispatchRequest}

/-- An attempt enters when its dispatch is planned, its scope is free and comes to it, and the attempt
is the next one and new. -/
theorem enter_eq_ok (henter : enter settings adapter request = some (.ok next)) :
    Planned settings.scopes request ∧
      request.dispatch.dispatchOrdinal = adapter.nextIngestionDispatchOrdinal request.scopeId ∧
      adapter.book.nextBatchAttemptOrdinals (bookKey request) = request.batchAttemptOrdinal ∧
      adapter.book.attemptedDispatches (bookKey request, request.batchAttemptOrdinal) = false ∧
      next =
        { adapter with
          book := adapter.book.claim (bookKey request) request.batchAttemptOrdinal
          ingestionPlanLocks :=
            Function.update adapter.ingestionPlanLocks request.scopeId true } := by
  unfold enter at henter
  split at henter
  · cases henter
  · next scope hscope =>
    split at henter
    · cases henter
    · next hplanned =>
      split_ifs at henter with hlock hordinal hattempt hattempted
      · cases henter
      · cases henter
      · cases henter
      · cases henter
        refine ⟨?_, not_not.mp hordinal, (not_not.mp hattempt).symm,
          (Bool.not_eq_true _).mp hattempted, rfl⟩
        unfold requireScope at hscope
        split at hscope
        · cases hscope
        · next found hfound =>
          split_ifs at hscope
          cases hscope
          unfold plannedAdd at hplanned
          split_ifs at hplanned with hfind
          rw [Planned, fingerprintAt, hfound, Option.bind_some, hfind.1, Option.map_some]

/-- An attempt that is withdrawn wrote nothing. -/
theorem not_issues_of_addPairs {requests : List WireRequest} {responses : List SealedRestResponse}
    {trace : List (Exchange Query Answer)} {message : String}
    (hpairs : Execution (addPairs settings responses requests) trace
      (.error (.call (.cancelledBeforeDispatch message)))) :
    responses = [] ∧ ∀ exchange ∈ trace, ¬ Issues exchange := by
  induction requests generalizing responses trace with
  | nil => cases (execution_pure.mp hpairs).2
  | cons wireRequest rest ih =>
    obtain ⟨exit, later, rfl, hlater⟩ := execution_ask.mp hpairs
    split at hlater
    · next text =>
      split at hlater
      · next hnone =>
        obtain ⟨rfl, -⟩ := execution_fail.mp hlater
        refine ⟨List.getLast?_eq_none_iff.mp hnone, fun exchange hmem ↦ ?_⟩
        rw [List.mem_singleton] at hmem
        subst hmem
        exact fun hissues ↦ Bool.noConfusion hissues.2
      · cases (execution_fail.mp hlater).2
    · next failure =>
      split_ifs at hlater
      · cases (execution_fail.mp hlater).2
      · have hsettled := (execution_fail.mp hlater).2
        unfold settledOr at hsettled
        split at hsettled
        · split at hsettled
          · cases hsettled
          · cases hsettled
        · cases hsettled
    · next response =>
      split_ifs at hlater
      · exact absurd (ih hlater).1 (List.append_ne_nil_of_right_ne_nil _ (List.cons_ne_nil _ _))
      · cases (execution_fail.mp hlater).2
    · next hnot _ _ =>
      have hsame := (execution_fail.mp hlater).2
      cases hsame
      exact absurd rfl (hnot message)

/-- The attempts of Mem0 keep the laws of retries. -/
theorem retries_lawful : (bookRetries settings.scopes Adapter.book).Lawful (procedure settings)
    Adapter.initial (Planned settings.scopes) Issues := by
  refine bookRetries_lawful rfl ?_ rfl fun hbody ↦ (not_issues_of_addPairs hbody).2
  intro state request state' henter
  obtain ⟨hplanned, -, hordinal, hfresh, rfl⟩ := enter_eq_ok henter
  exact ⟨hplanned, hordinal, hfresh, rfl⟩

/-- The writes of an attempt are the requests of its dispatch. -/
theorem writesExactly_body :
    WritesExactly IsWrite (plannedWrites settings request) (body settings request) := by
  rw [plannedWrites, body]
  have hpairs : ∀ (requests : List WireRequest) (responses : List SealedRestResponse),
      WritesExactly IsWrite (requests.map fun wireRequest ↦ .request (addCall wireRequest))
        (addPairs settings responses requests) := by
    intro requests
    induction requests with
    | nil => exact fun responses ↦ rfl
    | cons wireRequest rest ih =>
      intro responses
      refine writesExactly_write rfl fun exit ↦ ?_
      split
      · split
        · exact writesExactly_fail
        · exact writesExactly_fail
      · split_ifs
        · exact writesExactly_fail
        · exact writesExactly_fail
      · split_ifs
        · exact ih _
        · exact writesExactly_fail
      · exact writesExactly_fail
  exact hpairs _ _

/-- The turn of a scope is its next dispatch. -/
def turns : Turns Adapter String where
  turn := Adapter.nextIngestionDispatchOrdinal
  last := 3
  Valid _ := True

theorem finishes_iff {outcome : Except IngestError (List SealedRestResponse)} :
    Finishes (bookRetries settings.scopes Adapter.book) turns request outcome ↔
      movesOn request outcome = true := by
  rw [Finishes]
  cases outcome with
  | ok responses => exact iff_of_true (Or.inl ⟨responses, rfl⟩) rfl
  | error error =>
    rw [or_iff_right fun ⟨_, hsame⟩ ↦ nomatch hsame]
    cases error with
    | settled failure =>
      rw [movesOn, decide_eq_true_eq]
      exact ⟨And.right, fun hlast ↦ ⟨⟨_, rfl, failure, rfl⟩, hlast⟩⟩
    | call exit | valueError message | cancelled =>
      refine iff_of_false ?_ Bool.noConfusion
      rintro ⟨⟨_, hsame, failure, rfl⟩, -⟩
      cases hsame

/-- The dispatches of a scope are ingested in turn. -/
theorem turns_lawful : turns.Lawful (bookRetries settings.scopes Adapter.book) (procedure settings)
    Adapter.initial (Planned settings.scopes) where
  valid_start := trivial
  turn_start := fun _ ↦ le_refl 1
  valid_enter := fun _ _ ↦ trivial
  turn_of_enter := fun henter ↦ (enter_eq_ok henter).2.1.symm
  turn_enter := by
    intro state request state' henter
    obtain ⟨-, -, -, -, rfl⟩ := enter_eq_ok henter
    rfl
  valid_leave := fun _ _ _ ↦ trivial
  turn_leave_of_ne := by
    intro state request outcome scope _ _ hscope
    change (leave state request outcome).nextIngestionDispatchOrdinal scope = _
    rw [leave]
    dsimp only
    split_ifs
    · exact Function.update_of_ne hscope _ _
    · rfl
  turn_finished := by
    intro state request outcome _ _ _ hfinishes
    change (leave state request outcome).nextIngestionDispatchOrdinal request.scopeId = _
    rw [leave]
    dsimp only
    rw [if_pos (finishes_iff.mp hfinishes), Function.update_self]
    rfl
  turn_unfinished := by
    intro state request outcome _ _ hturn hunfinished
    change (leave state request outcome).nextIngestionDispatchOrdinal request.scopeId = _
    rw [leave]
    dsimp only
    rw [if_neg (mt finishes_iff.mpr hunfinished)]
    exact hturn

end Laws

end Oamb.MemorySystems.Mem0Ingest
