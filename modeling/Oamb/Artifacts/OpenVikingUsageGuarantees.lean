import Oamb.Artifacts.OpenVikingReadings
import Oamb.MemorySystems.DispatchGuarantees

/-!
# The usage of a cell is recovered from its first attempts

A plan whose sources are all ingested is sealed with the evidence of its sessions. `Recovers` says that
the reconstruction finds the usage that the run was told for every source. The sessions are looked for
under the identities of the first attempts only, so this holds exactly when every source was
ingested by the first attempt on it (`recovers_iff`).
-/

set_option autoImplicit false

namespace Oamb.Artifacts.OpenVikingUsageGuarantees

open Foundation Foundation.Dialogue Foundation.ConcurrentCalls Foundation.RetryDiscipline
open Foundation.LabelledRuns MemorySystems
open RestClient OpenVikingIngest OpenVikingSessions OpenVikingGuarantees OpenVikingEvidence
open OpenVikingTraces OpenVikingReadings

/-- The calls of an adapter. -/
abbrev Calls (ι : Type) : Type :=
  ConcurrentCalls.State Adapter ι IngestionDispatchRequest Query MemorySystems.Answer IngestError
    CompletedSession

section Recovery

variable {ι : Type} (settings : AdapterSettings) (sha256 : Bytes → String)
  (rawPayloads : String → Option Bytes) (state : Calls ι) (scopeId : String)
  (scope : SessionScope settings.digest)
  (plan : SessionPlan settings.digest scope.ingestionOccurrenceId) (attemptIds : List String)
  (projection : SealedRestResponse)

/-- A plan whose sources are ingested and whose record is sealed, with a client that seals and a
provider that is candid. -/
structure Recorded : Prop where
  allocated : settings.scopes scopeId = some scope
  planned : scope.plan = some plan
  occurrence : scope.ingestionOccurrenceId ≠ ""
  nonempty : plan.sessions ≠ []
  sourceIds : ∀ session ∈ plan.sessions, session.source.sourceUnitId.length = 64
  ingested : ∀ session ∈ plan.sessions, (state.shared.completed session.sessionId).isSome
  attempts : attemptIds.Nodup ∧ "" ∉ attemptIds ∧ attemptIds.length = plan.sessions.length
  digests : ∀ content, sha256 content ≠ ""
  trusted : ∀ index request trace outcome, Ended state index request trace outcome →
    Trusted settings.parse sha256 rawPayloads trace
  projected : ∃ trace,
    Execution (captureMemoryProjection settings.parse scopeId) trace (.ok projection) ∧
      Trusted settings.parse sha256 rawPayloads trace
  /-- The provider has a task for each commit. -/
  tasks : ∀ session ∈ plan.sessions, ∀ other ∈ plan.sessions, ∀ completed completed',
    state.shared.completed session.sessionId = some completed →
      state.shared.completed other.sessionId = some completed' →
        completed.taskId = completed'.taskId → session = other
  /-- The responses of tasks that completed carry usage. -/
  usage : ∀ index request trace completed, Ended state index request trace (.ok completed) →
    ∀ remaining response document,
      ⟨.request (taskCall completed.taskId remaining), Exit.returned response⟩ ∈ trace →
        settings.parse response.rawBytes = some document →
          isCompletedTask (document.get "result") = true → CarriesUsage document

/-- The usage that the run was told for a source, under the attempt on it. -/
def Reports (session : PlannedSession) (attemptId : String) (usage : IndexingUsage) : Prop :=
  ∃ index request trace completed remaining response document,
    Ended state index request trace (.ok completed) ∧
      plannedForDispatch settings request = .ok (scope, session) ∧
      ⟨.request (taskCall completed.taskId remaining), Exit.returned response⟩ ∈ trace ∧
      settings.parse response.rawBytes = some document ∧
      isCompletedTask (document.get "result") = true ∧
      taskIndexingUsage (tokenUsage document) attemptId response.rawReference = .ok usage

/-- The reconstruction comes to the usage of every source, in the order of the plan. -/
def Recovers : Prop :=
  ∃ usages, reconstructIndexingUsage settings.digest settings.parse sha256 rawPayloads
      (sealedPlan scope.ingestionOccurrenceId state.shared plan.sessions projection attemptIds) =
        .ok usages ∧
    List.Forall₂ (fun entry usage ↦ Reports settings state scope entry.1 entry.2 usage)
      (plan.sessions.zip attemptIds) usages

/-- Every source of the scope that was ingested was so by the first attempt on it. -/
def IngestedFirst : Prop :=
  ∀ index request trace completed, Ended state index request trace (.ok completed) →
    request.scopeId = scopeId → request.batchAttemptOrdinal = 1

/-! ### The sources -/

/-- The call that ingested a source of a plan, and what its evidence tells. -/
structure Ingested (session : PlannedSession) (completed : CompletedSession)
    (request : IngestionDispatchRequest) (trace : Trace) (terminal : SealedRestResponse) :
    Prop where
  ended : ∃ index, Ended state index request trace (.ok completed)
  planned : plannedForDispatch settings request = .ok (scope, session)
  kept : state.shared.completed session.sessionId = some completed
  told : Told settings.parse sha256 rawPayloads (requestSessionId settings request session) trace
    completed terminal

variable {settings sha256 rawPayloads state scopeId scope plan attemptIds projection}
  {events : List (Event ι)}

theorem sessionId_nodup (hdigest : Function.Injective settings.digest) :
    (plan.sessions.map PlannedSession.sessionId).Nodup := by
  have hsame : plan.sessions.map PlannedSession.sessionId =
      (plan.sessions.map fun session ↦ session.source.sourceUnitId).map
        (openvikingSessionId settings.digest scope.ingestionOccurrenceId) := by
    rw [List.map_map]
    exact List.map_congr_left fun session hsession ↦ plan.identities session hsession
  rw [hsame]
  exact plan.unique.map fun _ _ hsources ↦ (openvikingSessionId_injective hdigest hsources).2

/-- A dispatch whose session is one of the plan is that of this session. -/
theorem planned_of_sessionId (hdigest : Function.Injective settings.digest)
    (hscope : settings.scopes scopeId = some scope) (hplan : scope.plan = some plan)
    {request : IngestionDispatchRequest} {other : SessionScope settings.digest}
    {session found : PlannedSession} (hsession : session ∈ plan.sessions)
    (hplanned : plannedForDispatch settings request = .ok (other, found))
    (hsame : found.sessionId = session.sessionId) :
    request.scopeId = scopeId ∧ plannedForDispatch settings request = .ok (scope, session) := by
  have hsessions : scope.sessions = plan.sessions := by
    rw [SessionScope.sessions, hplan]
    rfl
  rw [← hsessions] at hsession
  obtain ⟨index, hindex, rfl⟩ := List.mem_iff_getElem.mp hsession
  obtain ⟨hother, hfound⟩ := sessionAt_of_planned hplanned
  have hposition := sessionAt_of_getElem hscope hindex
  have hbatch := sessionAt_injective hdigest hfound hposition hsame
  rw [hbatch, hposition, Option.some.injEq, Prod.mk.injEq] at hfound
  obtain ⟨hscopeId, -⟩ := Prod.mk.inj hbatch
  rw [hscopeId, hscope, Option.some.injEq] at hother
  subst hother
  rw [hfound.2]
  exact ⟨hscopeId, hplanned⟩

/-- Every source of a plan was ingested by a call. -/
theorem ingested_of_run [DecidableEq ι] (hdigest : Function.Injective settings.digest)
    (hrun : Run (Step (procedure settings)) (State.initial Adapter.initial) events state)
    (hrecorded : Recorded settings sha256 rawPayloads state scopeId scope plan attemptIds projection)
    (session : PlannedSession) (hsession : session ∈ plan.sessions) :
    ∃ completed request trace terminal, Ingested settings sha256 rawPayloads state scope session
      completed request trace terminal := by
  obtain ⟨completed, hcompleted⟩ := Option.isSome_iff_exists.mp (hrecorded.ingested session hsession)
  obtain ⟨index, request, trace, other, found, hended, hplanned, hsame⟩ :=
    completedByCall_of_run hrun _ _ hcompleted
  obtain ⟨-, hplanned⟩ := planned_of_sessionId hdigest hrecorded.allocated hrecorded.planned hsession
    hplanned hsame
  have hexecution := traced_of_run hrun index
  rw [hended] at hexecution
  have hbody : Execution (ingestSession settings.parse settings.polling
      (sessionIngestion settings request session)) trace (.ok completed) := by
    have hsome : Execution (body settings request) trace (.ok completed) := hexecution
    rw [body, hplanned] at hsome
    exact hsome
  obtain ⟨terminal, htold⟩ := told_of_ingestSession rfl hbody
    (hrecorded.trusted index request trace _ hended)
  exact ⟨completed, request, trace, terminal, ⟨index, hended⟩, hplanned, hcompleted, htold⟩

theorem forall₂_filterMap {α β : Type} {relation : α → β → Prop} {value : α → Option β}
    {entries : List α} (hvalues : ∀ entry ∈ entries, ∃ found, relation entry found ∧
      value entry = some found) : List.Forall₂ relation entries (entries.filterMap value) := by
  induction entries with
  | nil => exact .nil
  | cons entry rest ih =>
    obtain ⟨found, hrelation, hfound⟩ := hvalues entry List.mem_cons_self
    rw [List.filterMap_cons_some hfound]
    exact .cons hrelation (ih fun other hother ↦ hvalues other (List.mem_cons_of_mem _ hother))

theorem orderedText_eq_ok {values : List String} {field : String} (hvalues : "" ∉ values) :
    orderedText values field = .ok values := by
  refine if_pos (List.all_eq_true.mpr fun value hvalue ↦ decide_eq_true ?_)
  rintro rfl
  exact hvalues hvalue

/-! ### The identities of sessions -/

theorem occurrence_of_planned {request : IngestionDispatchRequest} {session : PlannedSession}
    (hplanned : plannedForDispatch settings request = .ok (scope, session)) :
    scope.ingestionOccurrenceId = request.ingestionOccurrenceId := by
  unfold plannedForDispatch at hplanned
  split at hplanned
  · cases hplanned
  · next found hscope =>
    split at hplanned
    · cases hplanned
      unfold requireScope at hscope
      split at hscope
      · cases hscope
      · split_ifs at hscope with hoccurrence
        cases hscope
        exact hoccurrence
    · cases hplanned

/-- The session of a first attempt is the one that is planned. -/
theorem requestSessionId_of_first {request : IngestionDispatchRequest} {session : PlannedSession}
    (hsession : session ∈ plan.sessions)
    (hplanned : plannedForDispatch settings request = .ok (scope, session))
    (hfirst : request.batchAttemptOrdinal = 1) :
    requestSessionId settings request session = session.sessionId := by
  rw [requestSessionId, sessionIdForAttempt, if_pos hfirst, plan.identities session hsession,
    occurrence_of_planned hplanned]

/-- The session of a later attempt is none that is planned: its identity is that of a longer text. -/
theorem not_mem_of_retry (hdigest : Function.Injective settings.digest)
    (hlength : ∀ session ∈ plan.sessions, session.source.sourceUnitId.length = 64)
    {request : IngestionDispatchRequest} {session : PlannedSession}
    (hsession : session ∈ plan.sessions) (hretry : request.batchAttemptOrdinal ≠ 1) :
    requestSessionId settings request session ∉ plan.sessions.map PlannedSession.sessionId := by
  intro hmem
  obtain ⟨other, hother, hsame⟩ := List.mem_map.mp hmem
  rw [plan.identities other hother, requestSessionId, sessionIdForAttempt, if_neg hretry] at hsame
  have hlengths := congrArg String.length (openvikingSessionId_injective hdigest hsame).2
  have htext : s!"{session.source.sourceUnitId}:batch-attempt:{request.batchAttemptOrdinal}" =
      session.source.sourceUnitId ++ ":batch-attempt:" ++ toString request.batchAttemptOrdinal :=
    rfl
  rw [htext, String.length_append, String.length_append, hlength session hsession,
    hlength other hother] at hlengths
  have hsuffix : 0 < ":batch-attempt:".length := by decide
  omega

/-- The sessions that the reconstruction expects. -/
def expectedOf {digest : List String → String} {occurrence : String}
    (plan : SessionPlan digest occurrence) (attemptIds : List String) : Expected :=
  (plan.sessions.map PlannedSession.sessionId).zip attemptIds

theorem names_expectedOf (hlength : attemptIds.length = plan.sessions.length) :
    (expectedOf plan attemptIds).map Prod.fst = plan.sessions.map PlannedSession.sessionId := by
  refine List.map_fst_zip ?_
  rw [List.length_map, hlength]

theorem mem_expectedOf {session : PlannedSession} {attemptId : String}
    (hentry : (session, attemptId) ∈ plan.sessions.zip attemptIds) :
    (session.sessionId, attemptId) ∈ expectedOf plan attemptIds := by
  rw [expectedOf, List.zip_map_left]
  exact List.mem_map_of_mem hentry

/-- Every source has its attempt. -/
theorem exists_mem_zip (hlength : attemptIds.length = plan.sessions.length)
    {session : PlannedSession} (hsession : session ∈ plan.sessions) :
    ∃ attemptId, (session, attemptId) ∈ plan.sessions.zip attemptIds := by
  have hnames : (plan.sessions.zip attemptIds).map Prod.fst = plan.sessions :=
    List.map_fst_zip (Nat.le_of_eq hlength.symm)
  rw [← hnames] at hsession
  obtain ⟨⟨found, attemptId⟩, hentry, rfl⟩ := List.mem_map.mp hsession
  exact ⟨attemptId, hentry⟩

/-! ### What the references show -/

section Sources

variable {completedOf : PlannedSession → CompletedSession}
  {requestOf : PlannedSession → IngestionDispatchRequest} {traceOf : PlannedSession → Trace}
  {terminalOf : PlannedSession → SealedRestResponse}

/-- What the references show when every source was ingested by its call. -/
structure Sourced (settings : AdapterSettings) (sha256 : Bytes → String)
    (rawPayloads : String → Option Bytes) (state : Calls ι) (scopeId : String)
    (scope : SessionScope settings.digest)
    (plan : SessionPlan settings.digest scope.ingestionOccurrenceId) (attemptIds : List String)
    (projection : SealedRestResponse) (completedOf : PlannedSession → CompletedSession)
    (requestOf : PlannedSession → IngestionDispatchRequest) (traceOf : PlannedSession → Trace)
    (terminalOf : PlannedSession → SealedRestResponse) : Prop where
  digest : Function.Injective settings.digest
  recorded : Recorded settings sha256 rawPayloads state scopeId scope plan attemptIds projection
  ingested : ∀ session ∈ plan.sessions, Ingested settings sha256 rawPayloads state scope session
    (completedOf session) (requestOf session) (traceOf session) (terminalOf session)

/-- A source was ingested by its first attempt. -/
abbrev First (requestOf : PlannedSession → IngestionDispatchRequest) (session : PlannedSession) :
    Prop :=
  (requestOf session).batchAttemptOrdinal = 1

/-- The task of a source and its usage. -/
abbrev taskOf (completedOf : PlannedSession → CompletedSession) (session : PlannedSession)
    (usage : IndexingUsage) : UsageState :=
  completedTask session.sessionId (completedOf session).taskId (completedOf session).archiveUri usage

variable (hsourced : Sourced settings sha256 rawPayloads state scopeId scope plan attemptIds
  projection completedOf requestOf traceOf terminalOf)
include hsourced

theorem mem_readinessReferences {reference : String} :
    reference ∈ readinessReferences state.shared plan.sessions projection ↔
      (∃ session ∈ plan.sessions, reference ∈ (completedOf session).evidenceReferences) ∨
        reference = projection.rawReference := by
  rw [readinessReferences, List.mem_append, List.mem_singleton, List.mem_flatMap]
  refine or_congr_left ⟨?_, ?_⟩
  · rintro ⟨completed, hcompleted, hreference⟩
    obtain ⟨session, hsession, hkept⟩ := List.mem_filterMap.mp hcompleted
    rw [(hsourced.ingested session hsession).kept, Option.some.injEq] at hkept
    exact ⟨session, hsession, hkept ▸ hreference⟩
  · rintro ⟨session, hsession, hreference⟩
    exact ⟨completedOf session, List.mem_filterMap.mpr
      ⟨session, hsession, (hsourced.ingested session hsession).kept⟩, hreference⟩

/-- The attempt that is expected for a source that was ingested by its first attempt. -/
theorem attempt_of_first {session : PlannedSession} {attemptId : String}
    (hentry : (session, attemptId) ∈ plan.sessions.zip attemptIds) :
    (expectedOf plan attemptIds).attempt session.sessionId = some attemptId := by
  refine attempt_eq_some ?_ (mem_expectedOf hentry)
  rw [names_expectedOf hsourced.recorded.attempts.2.2]
  exact sessionId_nodup hsourced.digest

theorem attempt_of_retry {session : PlannedSession} (hsession : session ∈ plan.sessions)
    (hretry : ¬ First requestOf session) : (expectedOf plan attemptIds).attempt
      (requestSessionId settings (requestOf session) session) = none := by
  refine attempt_eq_none ?_
  rw [names_expectedOf hsourced.recorded.attempts.2.2]
  exact not_mem_of_retry hsourced.digest hsourced.recorded.sourceIds hsession hretry

/-- The task of a first attempt shows its usage. -/
theorem readable_terminal {session : PlannedSession} {attemptId : String}
    (hentry : (session, attemptId) ∈ plan.sessions.zip attemptIds)
    (hfirst : First requestOf session) :
    ∃ usage, Reports settings state scope session attemptId usage ∧
      Readable settings.parse sha256 rawPayloads (expectedOf plan attemptIds)
        (terminalOf session).rawReference (taskOf completedOf session usage) := by
  have hsession := (List.of_mem_zip hentry).1
  obtain ⟨⟨index, hended⟩, hplanned, hkept, htold⟩ := hsourced.ingested session hsession
  obtain ⟨remaining, hanswered⟩ := htold.answered
  obtain ⟨reference, -, content, -, document, -, -, -, hidentity⟩ := htold.commit
  obtain ⟨htaskId, harchiveUri, -⟩ := commitIdentity_eq_ok hidentity
  have htask := htold.task
  rw [requestSessionId_of_first hsession hplanned hfirst] at htask
  obtain ⟨document', hparse, -, -, hcompleted, -⟩ := htold.task
  obtain ⟨usage, husage⟩ := taskIndexingUsage_of_carriesUsage
    (hsourced.recorded.usage index _ _ _ hended remaining _ _ hanswered hparse hcompleted) attemptId
    (terminalOf session).rawReference
  refine ⟨usage, ⟨index, _, _, _, remaining, _, document', hended, hplanned, hanswered, hparse,
    hcompleted, husage⟩, ?_⟩
  refine readable_of_task htold.stored htask (asText_of_asNonEmptyText htaskId).2
    (asText_of_asNonEmptyText harchiveUri).2 (attempt_of_first hsourced hentry) ?_
  intro other hother
  rw [hparse, Option.some.injEq] at hother
  exact hother ▸ husage

/-- What a reference of the evidence shows: no task, or the task of a source that was ingested by its
first attempt. -/
theorem readable_of_reference {reference : String}
    (hreference : reference ∈ readinessReferences state.shared plan.sessions projection) :
    (∃ accepted, Readable settings.parse sha256 rawPayloads (expectedOf plan attemptIds) reference
        ⟨accepted, [], []⟩) ∨
      ∃ session ∈ plan.sessions, First requestOf session ∧
        reference = (terminalOf session).rawReference ∧ ∃ usage,
          Readable settings.parse sha256 rawPayloads (expectedOf plan attemptIds) reference
            (taskOf completedOf session usage) := by
  rcases (mem_readinessReferences hsourced).mp hreference with ⟨session, hsession, hmem⟩ | rfl
  · have htold := (hsourced.ingested session hsession).told
    by_cases hterminal : reference = (terminalOf session).rawReference
    · subst hterminal
      by_cases hfirst : First requestOf session
      · obtain ⟨attemptId, hentry⟩ :=
          exists_mem_zip hsourced.recorded.attempts.2.2 hsession
        obtain ⟨usage, -, hreadable⟩ := readable_terminal hsourced hentry hfirst
        exact Or.inr ⟨session, hsession, hfirst, rfl, usage, hreadable⟩
      · exact Or.inl ⟨[], readable_of_unexpectedTask htold.stored htold.task
          (attempt_of_retry hsourced hsession hfirst)⟩
    · rcases htold.others reference hmem hterminal with hsilent | ⟨content, hstored, hcommit⟩
      · exact Or.inl ⟨[], readable_of_silent hsilent⟩
      · have hreadable : Readable settings.parse sha256 rawPayloads (expectedOf plan attemptIds)
            reference _ := readable_of_commit hstored hcommit
        rw [acceptedCommit] at hreadable
        split at hreadable
        · exact Or.inl ⟨[], hreadable⟩
        · exact Or.inl ⟨_, hreadable⟩
  · obtain ⟨trace, hcapture, htrusted⟩ := hsourced.recorded.projected
    exact Or.inl ⟨[], readable_of_silent (silent_of_captureMemoryProjection hcapture htrusted)⟩

/-- The task that a reference shows is that of one source. -/
theorem shown_of_reference {reference : String}
    (hreference : reference ∈ readinessReferences state.shared plan.sessions projection) :
    Readable settings.parse sha256 rawPayloads (expectedOf plan attemptIds) reference
        (shown settings.parse sha256 rawPayloads (expectedOf plan attemptIds) reference) ∧
      ((shown settings.parse sha256 rawPayloads (expectedOf plan attemptIds) reference).completed =
          [] ∧
        (shown settings.parse sha256 rawPayloads (expectedOf plan attemptIds) reference).taskIds =
          [] ∨
        ∃ session ∈ plan.sessions, First requestOf session ∧
          reference = (terminalOf session).rawReference ∧ ∃ usage,
            shown settings.parse sha256 rawPayloads (expectedOf plan attemptIds) reference =
              taskOf completedOf session usage) := by
  rcases readable_of_reference hsourced hreference with ⟨accepted, hreadable⟩ |
    ⟨session, hsession, hfirst, hsame, usage, hreadable⟩
  · rw [shown_eq hreadable]
    exact ⟨hreadable, Or.inl ⟨rfl, rfl⟩⟩
  · rw [shown_eq hreadable]
    exact ⟨hreadable, Or.inr ⟨session, hsession, hfirst, hsame, usage, rfl⟩⟩

/-- No two references show the same session or the same task. -/
theorem fresh_of_references {first second : String}
    (hfirst : first ∈ readinessReferences state.shared plan.sessions projection)
    (hsecond : second ∈ readinessReferences state.shared plan.sessions projection)
    (hne : first ≠ second) :
    Fresh (shown settings.parse sha256 rawPayloads (expectedOf plan attemptIds) first)
      (shown settings.parse sha256 rawPayloads (expectedOf plan attemptIds) second) := by
  rcases (shown_of_reference hsourced hfirst).2 with ⟨hsessions, htasks⟩ |
    ⟨session, hsession, -, rfl, usage, hshown⟩
  · rw [Fresh, hsessions, htasks]
    exact ⟨fun _ _ ↦ List.not_mem_nil, fun _ _ ↦ List.not_mem_nil⟩
  · rcases (shown_of_reference hsourced hsecond).2 with ⟨hsessions, htasks⟩ |
      ⟨other, hother, -, rfl, usage', hshown'⟩
    · rw [Fresh, hsessions, htasks]
      exact ⟨fun _ hnone ↦ absurd hnone List.not_mem_nil,
        fun _ hnone ↦ absurd hnone List.not_mem_nil⟩
    · rw [hshown, hshown', Fresh]
      simp only [completedTask, List.mem_singleton, List.map_cons, List.map_nil, forall_eq]
      refine ⟨fun hsame ↦ hne ?_, fun hsame ↦ hne ?_⟩
      · rw [hsourced.recorded.tasks other hother session hsession _ _
          (hsourced.ingested other hother).kept (hsourced.ingested session hsession).kept hsame]
      · rw [List.inj_on_of_nodup_map (sessionId_nodup hsourced.digest) hother hsession hsame]

/-- What the evidence of a plan shows. -/
def evidenceState (settings : AdapterSettings) (sha256 : Bytes → String)
    (rawPayloads : String → Option Bytes) (adapter : Adapter) {occurrence : String}
    (plan : SessionPlan settings.digest occurrence) (attemptIds : List String)
    (projection : SealedRestResponse) : UsageState :=
  total (shown settings.parse sha256 rawPayloads (expectedOf plan attemptIds))
    (fromKeys (fromKeys (readinessReferences adapter plan.sessions projection)))

/-- The references of the evidence are read one after another. -/
theorem foldlM_references :
    (fromKeys (fromKeys (readinessReferences state.shared plan.sessions projection))).foldlM
      (readReference settings.parse sha256 rawPayloads (expectedOf plan attemptIds)) .initial =
    .ok (evidenceState settings sha256 rawPayloads state.shared plan attemptIds projection) := by
  refine foldlM_readReference (fun reference hreference ↦ ?_)
    (fresh_of_distinct (nodup_fromKeys _) fun first hfirst second hsecond hne ↦ ?_)
  · rw [mem_fromKeys, mem_fromKeys] at hreference
    exact (shown_of_reference hsourced hreference).1
  · rw [mem_fromKeys, mem_fromKeys] at hfirst hsecond
    exact fresh_of_references hsourced hfirst hsecond hne

/-- The tasks that the evidence shows are those of the sources that were ingested by their first
attempts. -/
theorem mem_completed {entry : String × IndexingUsage × TaskIdentity}
    (hentry : entry ∈
      (evidenceState settings sha256 rawPayloads state.shared plan attemptIds projection).completed) :
    ∃ session ∈ plan.sessions, First requestOf session ∧ ∃ usage,
      shown settings.parse sha256 rawPayloads (expectedOf plan attemptIds)
        (terminalOf session).rawReference = taskOf completedOf session usage ∧
      entry = (session.sessionId, usage, (completedOf session).taskId,
        (completedOf session).archiveUri) := by
  obtain ⟨reference, hreference, hshows⟩ := List.mem_flatMap.mp hentry
  rw [mem_fromKeys, mem_fromKeys] at hreference
  rcases (shown_of_reference hsourced hreference).2 with ⟨hsessions, -⟩ |
    ⟨session, hsession, hfirst, rfl, usage, hshown⟩
  · rw [hsessions] at hshows
    exact absurd hshows List.not_mem_nil
  · rw [hshown] at hshows
    exact ⟨session, hsession, hfirst, usage, hshown, List.mem_singleton.mp hshows⟩

/-- A first attempt shows its task, with the usage that the run was told. -/
theorem completed_of_first {session : PlannedSession} {attemptId : String}
    (hentry : (session, attemptId) ∈ plan.sessions.zip attemptIds)
    (hfirst : First requestOf session) :
    ∃ usage, Reports settings state scope session attemptId usage ∧
      shown settings.parse sha256 rawPayloads (expectedOf plan attemptIds)
        (terminalOf session).rawReference = taskOf completedOf session usage ∧
      (session.sessionId, usage, (completedOf session).taskId, (completedOf session).archiveUri) ∈
        (evidenceState settings sha256 rawPayloads state.shared plan attemptIds
          projection).completed := by
  have hsession := (List.of_mem_zip hentry).1
  obtain ⟨usage, hreports, hreadable⟩ := readable_terminal hsourced hentry hfirst
  refine ⟨usage, hreports, shown_eq hreadable, List.mem_flatMap.mpr
    ⟨(terminalOf session).rawReference, ?_, ?_⟩⟩
  · rw [mem_fromKeys, mem_fromKeys, mem_readinessReferences hsourced]
    exact Or.inl ⟨session, hsession, (hsourced.ingested session hsession).told.kept⟩
  · rw [shown_eq hreadable]
    exact List.mem_cons_self

/-- A first attempt shows its commit. -/
theorem accepted_of_first {session : PlannedSession} (hsession : session ∈ plan.sessions)
    (hfirst : First requestOf session) :
    (session.sessionId, (completedOf session).taskId, (completedOf session).archiveUri) ∈
      (evidenceState settings sha256 rawPayloads state.shared plan attemptIds
        projection).accepted := by
  obtain ⟨-, hplanned, -, htold⟩ := hsourced.ingested session hsession
  obtain ⟨reference, hreference, content, hstored, hcommit⟩ := htold.commit
  rw [requestSessionId_of_first hsession hplanned hfirst] at hcommit
  obtain ⟨attemptId, hentry⟩ := exists_mem_zip hsourced.recorded.attempts.2.2 hsession
  have hreadable : Readable settings.parse sha256 rawPayloads (expectedOf plan attemptIds)
      reference _ := readable_of_commit hstored hcommit
  rw [acceptedCommit, attempt_of_first hsourced hentry] at hreadable
  refine List.mem_flatMap.mpr ⟨reference, ?_, ?_⟩
  · rw [List.mem_reverse, mem_fromKeys, mem_fromKeys, mem_readinessReferences hsourced]
    exact Or.inl ⟨session, hsession, hreference⟩
  · rw [shown_eq hreadable]
    exact List.mem_cons_self

/-- The usage that the evidence shows of a source that was ingested by its first attempt. -/
theorem usage_of_first {session : PlannedSession} {attemptId : String}
    (hentry : (session, attemptId) ∈ plan.sessions.zip attemptIds)
    (hfirst : First requestOf session) :
    ∃ usage, Reports settings state scope session attemptId usage ∧
      (evidenceState settings sha256 rawPayloads state.shared plan attemptIds projection).usage
        session.sessionId = some usage := by
  have hsession := (List.of_mem_zip hentry).1
  obtain ⟨usage, hreports, hshown, hmem⟩ := completed_of_first hsourced hentry hfirst
  refine ⟨usage, hreports, ?_⟩
  unfold UsageState.usage
  cases hfind : (evidenceState settings sha256 rawPayloads state.shared plan attemptIds
      projection).completed.find? fun entry ↦ entry.1 = session.sessionId with
  | none =>
    have hnone := List.find?_eq_none.mp hfind _ hmem
    simp only [decide_true, not_true_eq_false] at hnone
  | some entry =>
    have hname : entry.1 = session.sessionId := by
      simpa only [decide_eq_true_eq] using List.find?_some hfind
    obtain ⟨other, hother, -, usage', hshown', rfl⟩ :=
      mem_completed hsourced (List.mem_of_find?_eq_some hfind)
    obtain rfl := List.inj_on_of_nodup_map (sessionId_nodup hsourced.digest) hother hsession hname
    rw [hshown'] at hshown
    simp only [completedTask, UsageState.mk.injEq, List.cons.injEq, Prod.mk.injEq, true_and,
      and_true] at hshown
    rw [Option.map_some, hshown]

/-- The evidence shows no usage of a source that was ingested by a later attempt. -/
theorem usage_of_retry {session : PlannedSession} (hsession : session ∈ plan.sessions)
    (hretry : ¬ First requestOf session) :
    (evidenceState settings sha256 rawPayloads state.shared plan attemptIds projection).usage
      session.sessionId = none := by
  unfold UsageState.usage
  rw [Option.map_eq_none_iff, List.find?_eq_none]
  intro entry hentry hname
  obtain ⟨other, hother, hfirst, usage, -, rfl⟩ := mem_completed hsourced hentry
  rw [decide_eq_true_eq] at hname
  rw [List.inj_on_of_nodup_map (sessionId_nodup hsourced.digest) hother hsession hname] at hfirst
  exact hretry hfirst

/-- Every reference of the evidence names a payload, so that none is empty. -/
theorem readinessReferences_ne_empty : ∀ reference ∈
    readinessReferences state.shared plan.sessions projection, reference ≠ "" := by
  have hstored : ∀ {reference content}, Stored sha256 rawPayloads reference content →
      reference ≠ "" :=
    fun hstored hempty ↦ hsourced.recorded.digests _ (hstored.2.trans hempty)
  intro reference hreference
  rcases (mem_readinessReferences hsourced).mp hreference with ⟨session, hsession, hmem⟩ | rfl
  · have htold := (hsourced.ingested session hsession).told
    by_cases hterminal : reference = (terminalOf session).rawReference
    · exact hterminal ▸ hstored htold.stored
    · rcases htold.others reference hmem hterminal with ⟨content, hpayload, -⟩ |
        ⟨content, hpayload, -⟩
      · exact hstored hpayload
      · exact hstored hpayload
  · obtain ⟨trace, hcapture, htrusted⟩ := hsourced.recorded.projected
    obtain ⟨content, hpayload, -⟩ := silent_of_captureMemoryProjection hcapture htrusted
    exact hstored hpayload

/-- The ledger of a plan is valid. -/
theorem ledger_valid : ¬ (attemptIds = [] ∨ scope.ingestionOccurrenceId = "" ∨ attemptIds.length ≠
    (plan.sessions.map fun session ↦ session.source.sourceUnitId).length ∨ ¬ attemptIds.Nodup ∨
      ¬ (plan.sessions.map fun session ↦ session.source.sourceUnitId).Nodup) := by
  obtain ⟨hnodup, -, hlength⟩ := hsourced.recorded.attempts
  rw [List.length_map]
  rintro (hempty | hempty | hother | htwice | htwice)
  · rw [hempty] at hlength
    exact hsourced.recorded.nonempty (List.length_eq_zero_iff.mp hlength.symm)
  · exact hsourced.recorded.occurrence hempty
  · exact hother hlength
  · exact htwice hnodup
  · exact htwice plan.unique

/-- Every task that the evidence shows is bound to its commit. -/
theorem tasks_bound : ¬ ((evidenceState settings sha256 rawPayloads state.shared plan attemptIds
    projection).completed.any fun entry ↦ (entry.1, entry.2.2) ∉ (evidenceState settings sha256
      rawPayloads state.shared plan attemptIds projection).accepted) = true := by
  rw [List.any_eq_true]
  rintro ⟨entry, hentry, hunbound⟩
  obtain ⟨session, hsession, hfirst, usage, -, rfl⟩ := mem_completed hsourced hentry
  rw [decide_eq_true_eq] at hunbound
  exact hunbound (accepted_of_first hsourced hsession hfirst)

/-- All sessions have completed when all sources were ingested by their first attempts. -/
theorem all_completed_iff : ((plan.sessions.map PlannedSession.sessionId).all fun sessionId ↦
    ((evidenceState settings sha256 rawPayloads state.shared plan attemptIds projection).usage
      sessionId).isSome) = true ↔ ∀ session ∈ plan.sessions, First requestOf session := by
  rw [List.all_eq_true, List.forall_mem_map]
  refine forall₂_congr fun session hsession ↦ ⟨fun hsome ↦ ?_, fun hfirst ↦ ?_⟩
  · by_contra hretry
    rw [usage_of_retry hsourced hsession hretry] at hsome
    cases hsome
  · obtain ⟨attemptId, hentry⟩ := exists_mem_zip hsourced.recorded.attempts.2.2 hsession
    obtain ⟨usage, -, husage⟩ := usage_of_first hsourced hentry hfirst
    rw [husage]
    rfl

/-- What the reconstruction comes to: the usage of every source, or none. -/
theorem reconstructIndexingUsage_eq :
    reconstructIndexingUsage settings.digest settings.parse sha256 rawPayloads
      (sealedPlan scope.ingestionOccurrenceId state.shared plan.sessions projection attemptIds) =
    .ok (if ∀ session ∈ plan.sessions, First requestOf session then
      (plan.sessions.map PlannedSession.sessionId).filterMap (evidenceState settings sha256
        rawPayloads state.shared plan attemptIds projection).usage else []) := by
  have hsessions : (plan.sessions.map fun session ↦ session.source.sourceUnitId).map
      (openvikingSessionId settings.digest scope.ingestionOccurrenceId) =
        plan.sessions.map PlannedSession.sessionId := by
    rw [List.map_map]
    exact List.map_congr_left fun session hsession ↦ (plan.identities session hsession).symm
  have hsources : "" ∉ plan.sessions.map fun session ↦ session.source.sourceUnitId := by
    intro hempty
    obtain ⟨session, hsession, hsame⟩ := List.mem_map.mp hempty
    have hlong := hsourced.recorded.sourceIds session hsession
    rw [hsame] at hlong
    cases hlong
  have hreferences : "" ∉ fromKeys (readinessReferences state.shared plan.sessions projection) :=
    fun hempty ↦ readinessReferences_ne_empty hsourced _ (mem_fromKeys.mp hempty) rfl
  have hfold := foldlM_references hsourced
  rw [expectedOf] at hfold
  unfold reconstructIndexingUsage sealedPlan
  dsimp only
  rw [if_neg (not_not.mpr rfl), orderedText_eq_ok hsourced.recorded.attempts.2.1,
    orderedText_eq_ok hsources, orderedText_eq_ok hreferences]
  dsimp only [bind, Except.bind]
  rw [if_neg (ledger_valid hsourced), hsessions, hfold]
  dsimp only
  rw [if_neg (tasks_bound hsourced)]
  simp only [all_completed_iff hsourced]
  split_ifs
  · rfl
  · rfl

/-- The usage of every source is recovered when all were ingested by their first attempts. -/
theorem recovers_of_first (hfirst : ∀ session ∈ plan.sessions, First requestOf session) :
    Recovers settings sha256 rawPayloads state scope plan attemptIds projection := by
  refine ⟨_, reconstructIndexingUsage_eq hsourced, ?_⟩
  have hnames : (plan.sessions.zip attemptIds).map Prod.fst = plan.sessions :=
    List.map_fst_zip (Nat.le_of_eq hsourced.recorded.attempts.2.2.symm)
  have husages : List.Forall₂
      (fun entry usage ↦ Reports settings state scope entry.1 entry.2 usage)
      (plan.sessions.zip attemptIds) ((plan.sessions.zip attemptIds).filterMap fun entry ↦
        (evidenceState settings sha256 rawPayloads state.shared plan attemptIds projection).usage
          entry.1.sessionId) := by
    refine forall₂_filterMap ?_
    rintro ⟨session, attemptId⟩ hentry
    exact usage_of_first hsourced hentry (hfirst session (List.of_mem_zip hentry).1)
  rw [if_pos hfirst]
  convert husages using 1
  conv_lhs => rw [← hnames]
  rw [List.map_map, List.filterMap_map]
  rfl

/-- No usage is recovered when a source was ingested by a later attempt. -/
theorem not_recovers_of_retry (hretry : ¬ ∀ session ∈ plan.sessions, First requestOf session) :
    ¬ Recovers settings sha256 rawPayloads state scope plan attemptIds projection := by
  rintro ⟨usages, husages, hreports⟩
  rw [reconstructIndexingUsage_eq hsourced, if_neg hretry, Except.ok.injEq] at husages
  subst husages
  have hlength := hreports.length_eq
  rw [List.length_zip, hsourced.recorded.attempts.2.2, min_self, List.length_nil,
    List.length_eq_zero_iff] at hlength
  exact hsourced.recorded.nonempty hlength

end Sources

/-! ### The guarantee -/

section Guarantee

variable [DecidableEq ι]

/-- The sources of a plan that is recorded are ingested by calls. -/
theorem sourced_of_run (hdigest : Function.Injective settings.digest)
    (hrun : Run (Step (procedure settings)) (State.initial Adapter.initial) events state)
    (hrecorded : Recorded settings sha256 rawPayloads state scopeId scope plan attemptIds projection) :
    ∃ completedOf requestOf traceOf terminalOf, Sourced settings sha256 rawPayloads state scopeId
      scope plan attemptIds projection completedOf requestOf traceOf terminalOf := by
  obtain ⟨source, hsource⟩ := List.exists_mem_of_ne_nil _ hrecorded.nonempty
  obtain ⟨completed, request, trace, terminal, -⟩ :=
    ingested_of_run hdigest hrun hrecorded source hsource
  have hcompleted : Nonempty CompletedSession := ⟨completed⟩
  have hrequest : Nonempty IngestionDispatchRequest := ⟨request⟩
  have hterminal : Nonempty SealedRestResponse := ⟨terminal⟩
  choose! completedOf requestOf traceOf terminalOf hsources using
    ingested_of_run hdigest hrun hrecorded
  exact ⟨completedOf, requestOf, traceOf, terminalOf, hdigest, hrecorded, hsources⟩

omit [DecidableEq ι] in
/-- A call that ingests a source has planned it. -/
theorem planned_of_body {request : IngestionDispatchRequest} {trace : Trace}
    {completed : CompletedSession}
    (hbody : Execution (body settings request) trace (.ok completed)) :
    ∃ scope session, plannedForDispatch settings request = .ok (scope, session) := by
  unfold body at hbody
  split at hbody
  · cases (execution_fail.mp hbody).2
  · next scope session hplanned => exact ⟨scope, session, hplanned⟩

theorem mem_of_planned (hplan : scope.plan = some plan) {request : IngestionDispatchRequest}
    {session : PlannedSession}
    (hplanned : plannedForDispatch settings request = .ok (scope, session)) :
    session ∈ plan.sessions := by
  have hsessions : scope.sessions = plan.sessions := by
    rw [SessionScope.sessions, hplan]
    rfl
  rw [← hsessions]
  unfold plannedForDispatch at hplanned
  split at hplanned
  · cases hplanned
  · split at hplanned
    · next hfound =>
      cases hplanned
      exact List.mem_of_find?_eq_some hfound
    · cases hplanned

theorem closes_ok {completed : CompletedSession} :
    Closes (retries settings) (.ok completed : Except IngestError CompletedSession) := by
  constructor
  · rintro ⟨error, hsame, -⟩
    cases hsame
  · rintro ⟨error, hsame, -⟩
    cases hsame

/-- The call that ingested a source is the only one. -/
theorem ingestedFirst_iff (hdigest : Function.Injective settings.digest)
    (hrun : Run (Step (procedure settings)) (State.initial Adapter.initial) events state)
    {completedOf : PlannedSession → CompletedSession}
    {requestOf : PlannedSession → IngestionDispatchRequest} {traceOf : PlannedSession → Trace}
    {terminalOf : PlannedSession → SealedRestResponse}
    (hsourced : Sourced settings sha256 rawPayloads state scopeId scope plan attemptIds projection
      completedOf requestOf traceOf terminalOf) :
    IngestedFirst state scopeId ↔ ∀ session ∈ plan.sessions, First requestOf session := by
  constructor
  · intro hfirst session hsession
    obtain ⟨⟨index, hended⟩, hplanned, -, -⟩ := hsourced.ingested session hsession
    exact hfirst index _ _ _ hended (planned_of_sessionId hdigest hsourced.recorded.allocated
      hsourced.recorded.planned hsession hplanned rfl).1
  · intro hfirst index request trace completed hended hscopeId
    have hexecution := traced_of_run hrun index
    rw [hended] at hexecution
    obtain ⟨other, session, hplanned⟩ := planned_of_body hexecution
    obtain ⟨hother, hbatch⟩ := sessionAt_of_planned hplanned
    rw [hscopeId, hsourced.recorded.allocated, Option.some.injEq] at hother
    subst hother
    have hsession := mem_of_planned hsourced.recorded.planned hplanned
    obtain ⟨⟨index', hended'⟩, hplanned', -, -⟩ := hsourced.ingested session hsession
    have hbatches := sessionAt_injective hdigest hbatch (sessionAt_of_planned hplanned').2 rfl
    have hindex := closedOnce_of_run (retries_lawful hdigest) hrun hended closes_ok hended'
      closes_ok hbatches
    subst hindex
    rw [Ended, hended, Phase.ended.injEq] at hended'
    rw [hended'.1]
    exact hfirst session hsession

/-- The usage of a plan is recovered exactly when every source was ingested by the first attempt on
it. -/
theorem recovers_iff (hdigest : Function.Injective settings.digest)
    (hrun : Run (Step (procedure settings)) (State.initial Adapter.initial) events state)
    (hrecorded : Recorded settings sha256 rawPayloads state scopeId scope plan attemptIds projection) :
    Recovers settings sha256 rawPayloads state scope plan attemptIds projection ↔
      IngestedFirst state scopeId := by
  obtain ⟨completedOf, requestOf, traceOf, terminalOf, hsourced⟩ :=
    sourced_of_run hdigest hrun hrecorded
  rw [ingestedFirst_iff hdigest hrun hsourced]
  constructor
  · intro hrecovers
    by_contra hretry
    exact not_recovers_of_retry hsourced hretry hrecovers
  · exact recovers_of_first hsourced

end Guarantee

end Recovery

/-! ### A sample -/

section Sample

/-- A digest that is the text of the parts. No proof depends on what it comes to. -/
@[irreducible]
def sampleDigest (parts : List String) : String :=
  String.ofList (parts.flatMap fun part ↦ DispatchGuarantees.delimited part.toList)

theorem sampleDigest_injective : Function.Injective sampleDigest := by
  intro parts other hsame
  unfold sampleDigest at hsame
  exact DispatchGuarantees.flatMap_delimited_injective (String.ofList_injective hsame)

/-- The memory of the sample's occurrence. -/
def sampleScopeId : String := DispatchGuarantees.sampleRoot "occurrence"

/-- The identity of the sample's source. -/
def sampleSourceId : String := "aaaaaaaaaaaaaaaaaaaaaaaaaaaaaaaaaaaaaaaaaaaaaaaaaaaaaaaaaaaaaaaa"

/-- The session of an attempt on the sample's source. -/
def sampleSessionId (ordinal : ℕ) : String :=
  sessionIdForAttempt sampleDigest "occurrence" sampleSourceId ordinal

/-- A usage whose counts agree. -/
def sampleUsage : Json := .object
  [("llm", .object
      [("prompt_tokens", .integer 7), ("completion_tokens", .integer 3),
        ("total_tokens", .integer 10), ("cached_tokens", .integer 0),
        ("reasoning_tokens", .integer 0)]),
    ("embedding", .object [("total_tokens", .integer 2)]),
    ("total", .object
      [("total_tokens", .integer 12), ("cached_tokens", .integer 0),
        ("reasoning_tokens", .integer 0)])]

/-- The document of a response in an attempt on the sample's source: there is no session, it is
created, its commit is accepted, its task failed or completed, its archive, and the memory. -/
def sampleDocument (sessionId : String) : UInt8 → Option Json
  | 0 => some (.object
      [("status", .string "error"),
        ("error", .object
          [("code", .string "NOT_FOUND"), ("message", .string s!"Session {sessionId} not found"),
            ("details", .null)])])
  | 1 => some (sampleSuccess (.object
      [("session_id", .string sessionId), ("auto_commit_policy", .null)]))
  | 2 => some (sampleSuccess (.object
      [("task_id", .string "task"), ("archive_uri", .string "archive"),
        ("session_id", .string sessionId), ("status", .string "accepted"),
        ("archived", .bool true)]))
  | 3 => some (sampleSuccess (.object
      [("task_id", .string "task"), ("task_type", .string "session_commit"),
        ("resource_id", .string sessionId), ("status", .string "failed"),
        ("stage", .string "failed"), ("error", .string "Connection error.")]))
  | 4 => some (sampleSuccess (.object
      [("task_id", .string "task"), ("task_type", .string "session_commit"),
        ("resource_id", .string sessionId), ("status", .string "completed"),
        ("result", .object
          [("session_id", .string sessionId), ("archive_uri", .string "archive"),
            ("token_usage", sampleUsage)])]))
  | 5 => some (sampleSuccess (.object []))
  | 6 => some (sampleSuccess (.array []))
  | _ => none

def sampleParse : Bytes → Option Json
  | [ordinal, kind] => sampleDocument (sampleSessionId ordinal.toNat) kind
  | _ => none

/-- A digest that is the text of the bytes. -/
def sampleSha256 (content : Bytes) : String :=
  String.ofList ('#' :: content.map fun byte ↦ Char.ofNat (byte.toNat + 48))

/-- The bytes of a digest. -/
def samplePayloads (reference : String) : Option Bytes :=
  some (reference.toList.tail.map fun character ↦ UInt8.ofNat (character.toNat - 48))

/-- A response in an attempt on the sample's source. -/
def sampleResponse (ordinal kind : UInt8) : SealedRestResponse :=
  ⟨200, [ordinal, kind], sampleSha256 [ordinal, kind], none⟩

/-- The sample's session in an attempt. -/
def sampleSession (ordinal : UInt8) : SessionIngestion :=
  ⟨sampleSessionId ordinal.toNat, sampleScopeId, .ok "2026-01-01T00:00:00Z", [], none⟩

/-- The commit of an attempt. -/
def sampleCommit (ordinal : UInt8) : Commit :=
  ⟨"task", "archive", [sampleSha256 [ordinal, 0], sampleSha256 [ordinal, 1],
    sampleSha256 [ordinal, 2]]⟩

/-- The request for the archive of a session of the sample. -/
def archiveCall (sessionId : String) : RestCall where
  method := "GET"
  path := s!"/api/v1/sessions/{sessionId}/archives/{archiveId (sampleCommit 0).archiveUri}"

/-- The request for the memory of the sample. -/
def memoryCall : RestCall where
  method := "GET"
  path := "/api/v1/fs/ls"
  params := [("uri", .string sampleScopeId), ("simple", .bool true), ("recursive", .bool true),
    ("output", .string "original"), ("show_all_hidden", .bool true)]

/-- The answer that there is no session. -/
def sampleAbsence (ordinal : UInt8) : CallFailure :=
  ⟨"memory-system returned HTTP 404", "http_status", some (sampleSha256 [ordinal, 0]),
    some [ordinal, 0], some 404⟩

/-- There is no session, and it is created. -/
def openTrace (ordinal : UInt8) : Trace :=
  [⟨.request (sessionCall (sampleSessionId ordinal.toNat)),
      Exit.callFailure (sampleAbsence ordinal)⟩,
    ⟨.request (createCall (sampleSessionId ordinal.toNat)),
      Exit.returned (sampleResponse ordinal 1)⟩]

/-- The commit is accepted. -/
def commitTrace (ordinal : UInt8) : Trace :=
  [⟨.request (commitCall (sampleSessionId ordinal.toNat)),
      Exit.returned (sampleResponse ordinal 2)⟩]

/-- The task is read once. -/
def taskTrace (ordinal kind : UInt8) : Trace :=
  [⟨.clock, (0 : ℚ)⟩, ⟨.clock, (0 : ℚ)⟩,
    ⟨.request (taskCall "task" 60), Exit.returned (sampleResponse ordinal kind)⟩]

/-- The archive and the memory are read. -/
def closeTrace (ordinal : UInt8) : Trace :=
  [⟨.request (archiveCall (sampleSessionId ordinal.toNat)),
      Exit.returned (sampleResponse ordinal 5)⟩,
    ⟨.request memoryCall, Exit.returned (sampleResponse ordinal 6)⟩]

theorem execution_send_bind {α : Type} {call : RestCall} {response : SealedRestResponse}
    {next : SealedRestResponse → Ingest α} {trace : Trace} {outcome : Except IngestError α}
    (hnext : Execution (next response) trace outcome) : Execution (send call >>= next)
      (⟨.request call, Exit.returned response⟩ :: trace) outcome :=
  execution_ask.mpr ⟨_, _, rfl, hnext⟩

theorem execution_ofExcept_bind {α β : Type} {check : Except IngestError α} {value : α}
    {next : α → Ingest β} {trace : Trace} {outcome : Except IngestError β}
    (hcheck : check = .ok value) (hnext : Execution (next value) trace outcome) :
    Execution (Dialogue.ofExcept check >>= next) trace outcome := by
  rw [hcheck]
  exact hnext

theorem execution_requireAbsent {parse : Bytes → Option Json} {call : RestCall}
    {expectedResource expectedType : String} {exit : Exit} {response : SealedRestResponse}
    (hresponse : notFound exit = some response)
    (habsent : parseNotFound parse response.rawBytes expectedResource expectedType = .ok ()) :
    Execution (requireAbsent parse call expectedResource expectedType) [⟨.request call, exit⟩]
      (.ok response.rawReference) := by
  refine execution_ask.mpr ⟨_, [], rfl, ?_⟩
  rw [hresponse]
  dsimp only
  rw [habsent]
  exact .done

/-- The result of a document of the sample. -/
def sampleResult (ordinal kind : UInt8) : Json :=
  ((sampleDocument (sampleSessionId ordinal.toNat) kind).getD .null).get "result"

theorem execution_sampleOpen (ordinal : UInt8) :
    Execution (openSession sampleParse (sampleSession ordinal)) (openTrace ordinal)
      (.ok [sampleSha256 [ordinal, 0], sampleSha256 [ordinal, 1]]) := by
  have hnull : ∀ name ∈ ["result", "telemetry", "profile"],
      (((sampleDocument (sampleSessionId ordinal.toNat) 0).getD .null).get name).isNull = true :=
    List.forall_mem_cons.mpr ⟨rfl, List.forall_mem_cons.mpr ⟨rfl, List.forall_mem_singleton.mpr rfl⟩⟩
  have habsent : parseNotFound sampleParse [ordinal, 0] (sampleSessionId ordinal.toNat) "session" =
      .ok () :=
    if_pos ⟨rfl, hnull, rfl, decide_eq_true rfl, rfl⟩
  have hfound : notFound (.callFailure (sampleAbsence ordinal)) =
      some ⟨404, [ordinal, 0], sampleSha256 [ordinal, 0], none⟩ :=
    rfl
  have hcreate : cleanResult sampleParse (sampleResponse ordinal 1) "session create" =
      .ok (sampleResult ordinal 1) :=
    rfl
  refine execution_bind.mpr (Or.inr ⟨_, _, _, rfl, execution_requireAbsent hfound habsent, ?_⟩)
  refine execution_send_bind (execution_ofExcept_bind hcreate ?_)
  rw [if_pos ⟨decide_eq_true rfl, List.mem_cons_of_mem _ List.mem_cons_self, rfl⟩]
  exact .done

theorem execution_sampleCommit (ordinal : UInt8) :
    Execution (commitSession sampleParse (sampleSession ordinal))
      (openTrace ordinal ++ commitTrace ordinal) (.ok (sampleCommit ordinal)) := by
  have hcommit : cleanResult sampleParse (sampleResponse ordinal 2) "session commit" =
      .ok (sampleResult ordinal 2) :=
    rfl
  have hidentity : commitIdentity (sampleResult ordinal 2) (sampleSessionId ordinal.toNat) =
      .ok ("task", "archive") :=
    if_pos ⟨decide_eq_true rfl, rfl, rfl⟩
  refine execution_bind.mpr (Or.inr ⟨_, _, _, rfl, execution_sampleOpen ordinal, ?_⟩)
  refine execution_ofExcept_bind rfl ?_
  refine execution_bind.mpr (Or.inr ⟨[], [], _, rfl, .done, ?_⟩)
  refine execution_send_bind (execution_ofExcept_bind hcommit ?_)
  exact execution_ofExcept_bind hidentity .done

/-- The settings of the sample's polls. -/
def samplePolling : Settings := ⟨3, 1, 60, some 10⟩

/-- The failure of the task of an attempt. -/
def sampleFailure (ordinal : UInt8) : SettledFailure :=
  ⟨"supplier_connection", sampleSha256 [ordinal, 3], [ordinal, 3],
    [sampleSha256 [ordinal, 0], sampleSha256 [ordinal, 1], sampleSha256 [ordinal, 2]], 200,
    "openviking_task_work_drained_v1", 10, some "task", some (sampleSessionId ordinal.toNat)⟩

/-- The session of an attempt that completed. -/
def sampleCompleted (ordinal : UInt8) : CompletedSession :=
  ⟨sampleSessionId ordinal.toNat, "archive", "task", [sampleSha256 [ordinal, 0],
    sampleSha256 [ordinal, 1], sampleSha256 [ordinal, 2], sampleSha256 [ordinal, 4],
    sampleSha256 [ordinal, 5], sampleSha256 [ordinal, 6]]⟩

theorem taskResult_sample (ordinal kind : UInt8)
    (hclean : cleanResult sampleParse (sampleResponse ordinal kind) "session commit task" =
      .ok (sampleResult ordinal kind)) (hobject : (sampleResult ordinal kind).isObject = true)
    (htask : ((sampleResult ordinal kind).get "task_id").isText "task" = true)
    (htype : ((sampleResult ordinal kind).get "task_type").isText "session_commit" = true)
    (hresource : ((sampleResult ordinal kind).get "resource_id").isText
      (sampleSessionId ordinal.toNat) = true) :
    taskResult sampleParse "task" (sampleSessionId ordinal.toNat) (sampleResponse ordinal kind) =
      .ok (sampleResult ordinal kind) := by
  rw [taskResult, hclean]
  dsimp only
  rw [if_neg (fun hnot ↦ Bool.noConfusion (hobject.symm.trans hnot)), if_pos ⟨htask, htype, hresource⟩]

theorem sampleSessionId_ne_empty (ordinal : ℕ) : sampleSessionId ordinal ≠ "" := by
  intro hempty
  have hlength := congrArg String.length hempty
  rw [sampleSessionId, sessionIdForAttempt, openvikingSessionId, String.length_append] at hlength
  have hname : 0 < "oamb-".length := by decide
  have hnone : "".length = 0 := rfl
  omega

/-- The task of the sample failed for good. -/
theorem classify_sample (ordinal : UInt8) :
    classifySettledIngestionFailure sampleParse (sampleResponse ordinal 3) (some 10) "task"
      (sampleSessionId ordinal.toNat) = some "supplier_connection" := by
  have hparse : (sampleParse (sampleResponse ordinal 3).rawBytes).filter
      (fun document ↦ document.exact) = some (sampleSuccess (sampleResult ordinal 3)) :=
    rfl
  have hnames : ∀ name ∈ (sampleSuccess (sampleResult ordinal 3)).names,
      name ∈ ["status", "result", "error", "profile", "telemetry"] :=
    List.forall_mem_cons.mpr ⟨List.mem_cons_self,
      List.forall_mem_singleton.mpr (List.mem_cons_of_mem _ List.mem_cons_self)⟩
  have hfit : ¬ (some 10 ≠ some 10 ∨ (sampleResponse ordinal 3).rawBytes = [] ∨
      (sampleResponse ordinal 3).statusCode ≠ 200) := by
    rintro (hretries | hempty | hstatus)
    · exact hretries rfl
    · cases hempty
    · exact hstatus rfl
  rw [classifySettledIngestionFailure, if_neg hfit, hparse]
  dsimp only
  rw [if_pos ⟨rfl, by decide, sampleSessionId_ne_empty _, hnames, rfl, rfl, rfl, rfl,
    decide_eq_true rfl, rfl, rfl, rfl⟩]
  rfl

theorem readTask_failed (ordinal : UInt8) :
    OpenVikingIngest.readTask sampleParse samplePolling (sampleSessionId ordinal.toNat)
      (sampleCommit ordinal) [] (.returned (sampleResponse ordinal 3)) =
        .error (.settled (sampleFailure ordinal)) := by
  have hresult := taskResult_sample ordinal 3 rfl rfl rfl rfl (decide_eq_true rfl)
  have hpoll : pollStatus sampleParse samplePolling (sampleSessionId ordinal.toNat)
      (sampleCommit ordinal) [] (sampleResponse ordinal 3) (sampleResult ordinal 3) =
        .error (taskFailure sampleParse samplePolling "task" (sampleSessionId ordinal.toNat)
          "failed" ((sampleCommit ordinal).evidenceReferences ++ []) (sampleResponse ordinal 3)) :=
    rfl
  rw [OpenVikingIngest.readTask]
  dsimp only [sampleCommit] at hpoll ⊢
  rw [hresult]
  dsimp only
  rw [hpoll, taskFailure, samplePolling]
  dsimp only
  rw [classify_sample]
  rfl

theorem readTask_completed (ordinal : UInt8) :
    OpenVikingIngest.readTask sampleParse samplePolling (sampleSessionId ordinal.toNat)
      (sampleCommit ordinal) [] (.returned (sampleResponse ordinal 4)) =
        .ok (some ((sampleResult ordinal 4).get "result"), sampleSha256 [ordinal, 4]) := by
  have hresult := taskResult_sample ordinal 4 rfl rfl rfl rfl (decide_eq_true rfl)
  have hpoll : pollStatus sampleParse samplePolling (sampleSessionId ordinal.toNat)
      (sampleCommit ordinal) [] (sampleResponse ordinal 4) (sampleResult ordinal 4) =
        .ok (some ((sampleResult ordinal 4).get "result")) :=
    if_pos ⟨rfl, decide_eq_true rfl, rfl⟩
  rw [OpenVikingIngest.readTask]
  dsimp only [sampleCommit] at hpoll ⊢
  rw [hresult]
  dsimp only
  rw [hpoll]
  rfl

/-- The attempt on the sample fails for good. -/
theorem execution_sampleFailed (ordinal : UInt8) :
    Execution (ingestSession sampleParse samplePolling (sampleSession ordinal))
      ((openTrace ordinal ++ commitTrace ordinal) ++ taskTrace ordinal 3)
      (.error (.settled (sampleFailure ordinal))) :=
  execution_ingestSession_of_error (execution_sampleCommit ordinal) (by decide)
    (by decide +kernel) (readTask_failed ordinal)

/-- A first poll of a task that completed. -/
theorem execution_pollTerminalTask {parse : Bytes → Option Json} {settings : Settings}
    {sessionId : String} {commit : Commit} {deadline : ℚ} (hdeadline : 0 < deadline) {polls : ℕ}
    {response : SealedRestResponse} {terminal : Json} {reference : String}
    (hread : OpenVikingIngest.readTask parse settings sessionId commit [] (.returned response) =
      .ok (some terminal, reference)) :
    Execution (pollTerminalTask parse settings sessionId commit deadline (polls + 1) [])
      [⟨.clock, (0 : ℚ)⟩,
        ⟨.request (taskCall commit.taskId deadline), Exit.returned response⟩]
      (.ok (terminal, [reference])) := by
  refine execution_readClock_bind.mpr ⟨(0 : ℚ), _, rfl, ?_⟩
  rw [sub_zero, if_neg (not_le.mpr hdeadline)]
  refine execution_ask.mpr ⟨Exit.returned response, [], rfl, ?_⟩
  rw [hread]
  exact .done

theorem execution_sampleProjection (ordinal : UInt8) :
    Execution (captureMemoryProjection sampleParse sampleScopeId)
      [⟨.request memoryCall, Exit.returned (sampleResponse ordinal 6)⟩]
      (.ok (sampleResponse ordinal 6)) := by
  have hclean : cleanResult sampleParse (sampleResponse ordinal 6) "user-memory projection" =
      .ok (.array []) :=
    rfl
  refine execution_ask.mpr ⟨_, [], rfl, ?_⟩
  refine execution_ofExcept_bind rfl (execution_ofExcept_bind hclean ?_)
  dsimp only
  rw [if_pos ⟨rfl, List.nodup_nil, List.forall_mem_nil _⟩]
  exact .done

theorem execution_sampleClose (ordinal : UInt8) :
    Execution (closeSession sampleParse (sampleSession ordinal) (sampleCommit ordinal)
      ((sampleResult ordinal 4).get "result") [sampleSha256 [ordinal, 4]]) (closeTrace ordinal)
      (.ok (sampleCompleted ordinal)) := by
  have husage : requireUsageSnapshot ((sampleResult ordinal 4).get "result") = .ok () := rfl
  have harchive : cleanResult sampleParse (sampleResponse ordinal 5) "session archive" =
      .ok (.object []) :=
    rfl
  unfold closeSession
  refine execution_ofExcept_bind husage ?_
  refine execution_send_bind ?_
  refine execution_ofExcept_bind harchive ?_
  rw [if_pos ⟨rfl, Or.inl rfl⟩]
  exact execution_bind.mpr (Or.inr ⟨_, _, [], rfl, execution_sampleProjection ordinal, .done⟩)

/-- The attempt on the sample completes. -/
theorem execution_sampleCompleted (ordinal : UInt8) :
    Execution (ingestSession sampleParse samplePolling (sampleSession ordinal))
      ((openTrace ordinal ++ commitTrace ordinal) ++ (taskTrace ordinal 4 ++ closeTrace ordinal))
      (.ok (sampleCompleted ordinal)) := by
  have hdeadline : (0 : ℚ) < 60 := by decide +kernel
  have hpoll : Execution (pollTerminalTask sampleParse samplePolling
      (sampleSession ordinal).sessionId (sampleCommit ordinal)
      (0 + samplePolling.taskPollTimeoutSeconds) samplePolling.maximumTaskPolls [])
      (taskTrace ordinal 4).tail
      (.ok ((sampleResult ordinal 4).get "result", [sampleSha256 [ordinal, 4]])) := by
    rw [zero_add]
    exact execution_pollTerminalTask hdeadline (readTask_completed ordinal)
  refine execution_bind.mpr (Or.inr ⟨_, _, _, rfl, execution_sampleCommit ordinal, ?_⟩)
  refine execution_readClock_bind.mpr ⟨(0 : ℚ), _, rfl, ?_⟩
  exact execution_bind.mpr (Or.inr ⟨_, _, _, rfl, hpoll, execution_sampleClose ordinal⟩)

/-! ### The runs of the sample -/

def sampleSource : SourceUnit := ⟨sampleSourceId, 1, [], none, none, []⟩

def samplePlan : SessionPlan sampleDigest "occurrence" :=
  planSources sampleDigest (fun _ _ ↦ "fingerprint") (fun _ ↦ []) "occurrence" [sampleSource]
    (List.nodup_singleton _)

def sampleScope : SessionScope sampleDigest := ⟨"occurrence", some samplePlan⟩

def sampleScopes (scopeId : String) : Option (SessionScope sampleDigest) :=
  if scopeId = sampleScopeId then some sampleScope else none

theorem sampleScopes_eq_some (scopeId : String) (scope : SessionScope sampleDigest)
    (hscope : sampleScopes scopeId = some scope) :
    scopeId = DispatchGuarantees.sampleRoot scope.ingestionOccurrenceId := by
  unfold sampleScopes at hscope
  split_ifs at hscope with hsame
  cases hscope
  exact hsame

/-- An adapter with one scope. -/
def sampleAdapter : AdapterSettings where
  digest := sampleDigest
  memoryRoot := DispatchGuarantees.sampleRoot
  scopes := sampleScopes
  roots := sampleScopes_eq_some
  parse := sampleParse
  canonicalTimestamp := fun _ ↦ .ok "2026-01-01T00:00:00Z"
  polling := samplePolling

/-- The session that is planned for the sample's source. -/
def samplePlanned : PlannedSession :=
  plannedSession sampleDigest (fun _ _ ↦ "fingerprint") (fun _ ↦ []) "occurrence" 0 sampleSource

/-- An attempt on the sample's source. -/
def sampleRequest (ordinal : UInt8) (hordinal : 1 ≤ ordinal.toNat ∧ ordinal.toNat ≤ 3) :
    IngestionDispatchRequest :=
  ⟨sampleScopeId, "occurrence", "attempt", samplePlanned.dispatch, ordinal.toNat, hordinal⟩

variable {ordinal : UInt8} {hordinal : 1 ≤ ordinal.toNat ∧ ordinal.toNat ≤ 3}

theorem plannedForDispatch_eq_ok {settings : AdapterSettings} {request : IngestionDispatchRequest}
    {scope : SessionScope settings.digest} {session : PlannedSession}
    (hscope : requireScope settings request = .ok scope)
    (hsession : scope.sessions.find? (fun session ↦ session.dispatch = request.dispatch) =
      some session) : plannedForDispatch settings request = .ok (scope, session) := by
  rw [plannedForDispatch, hscope]
  dsimp only
  rw [hsession]

theorem planned_sample : plannedForDispatch sampleAdapter (sampleRequest ordinal hordinal) =
    .ok (sampleScope, samplePlanned) :=
  plannedForDispatch_eq_ok rfl (List.find?_cons_of_pos (decide_eq_true rfl))

theorem body_sample : body sampleAdapter (sampleRequest ordinal hordinal) =
    ingestSession sampleParse samplePolling (sampleSession ordinal) := by
  rw [body, planned_sample]
  rfl

/-- The adapter when an attempt on the sample runs. -/
def enteredSample (adapter : Adapter) (ordinal : UInt8) : Adapter :=
  { adapter with
    attemptedSessions :=
      Function.update adapter.attemptedSessions (sampleSessionId ordinal.toNat) true }

/-- An attempt may enter when it is the next and new. -/
theorem enter_sample {adapter : Adapter}
    (hnext : adapter.nextBatchAttemptOrdinals samplePlanned.sessionId = ordinal.toNat)
    (hnew : adapter.attemptedSessions (sampleSessionId ordinal.toNat) = false)
    (hopen : adapter.isDone samplePlanned.sessionId = false) :
    enter sampleAdapter adapter (sampleRequest ordinal hordinal) =
      some (.ok (enteredSample adapter ordinal)) := by
  have hid : requestSessionId sampleAdapter (sampleRequest ordinal hordinal) samplePlanned =
      sampleSessionId ordinal.toNat :=
    rfl
  have hsessions : sampleScope.sessions = [samplePlanned] := rfl
  have hcount : adapter.completedCount sampleScope.sessions = 0 := by
    rw [hsessions]
    exact List.countP_eq_zero.mpr (List.forall_mem_singleton.mpr (Bool.eq_false_iff.mp hopen))
  have henter := enter_of_planned planned_sample hnext (hid ▸ hnew) (congrArg Nat.succ hcount.symm)
  rwa [hid] at henter

theorem toNat_ofNat {number : ℕ} (hnumber : number < 55296) :
    (Char.ofNat number).toNat = number := by
  have hvalid : number.isValidChar := Or.inl hnumber
  rw [Char.ofNat, dif_pos hvalid]
  rfl

theorem samplePayloads_sha256 (content : Bytes) :
    samplePayloads (sampleSha256 content) = some content := by
  rw [samplePayloads, sampleSha256, String.toList_ofList, List.tail_cons, List.map_map]
  refine congrArg some (List.map_id'' (fun byte ↦ ?_) content)
  have hbyte := byte.toNat_lt
  rw [Function.comp_apply, toNat_ofNat (by omega), Nat.add_sub_cancel, UInt8.ofNat_toNat]

theorem stored_sample (content : Bytes) :
    Stored sampleSha256 samplePayloads (sampleSha256 content) content :=
  ⟨samplePayloads_sha256 content, rfl⟩

/-- A response of the sample is sealed, and it is silent or to a commit or to a read of a task. -/
theorem trusted_returned {call : RestCall} {kind : UInt8}
    (hcandid : CandidExit sampleParse call (.returned (sampleResponse ordinal kind))) :
    Sealed sampleParse sampleSha256 samplePayloads
        ⟨.request call, Exit.returned (sampleResponse ordinal kind)⟩ ∧
      Candid sampleParse ⟨.request call, Exit.returned (sampleResponse ordinal kind)⟩ :=
  ⟨⟨stored_sample _, fun _ hnone ↦ nomatch hnone⟩, hcandid⟩

/-- A response whose document is no accepted commit and no completed task. -/
theorem silent_sample {kind : UInt8} {document : Json}
    (hdocument : sampleParse [ordinal, kind] = some document)
    (haccepted : isAccepted (document.get "result") = false)
    (hcompleted : isCompletedTask (document.get "result") = false) :
    Silent sampleParse [ordinal, kind] := by
  intro other hother
  rw [hdocument, Option.some.injEq] at hother
  exact hother ▸ ⟨haccepted, hcompleted⟩

theorem trusted_commitTraces :
    Trusted sampleParse sampleSha256 samplePayloads (openTrace ordinal ++ commitTrace ordinal) := by
  have habsence : ∀ reference content, (sampleAbsence ordinal).rawReference = some reference →
      (sampleAbsence ordinal).rawResponseBytes = some content →
        Stored sampleSha256 samplePayloads reference content := by
    rintro reference content ⟨rfl⟩ ⟨rfl⟩
    exact stored_sample _
  refine trusted_append.mpr ⟨trusted_cons.mpr ⟨⟨habsence, trivial⟩, trusted_cons.mpr
    ⟨trusted_returned (Or.inr (Or.inr (silent_sample rfl rfl rfl))), List.forall_mem_nil _⟩⟩,
    trusted_cons.mpr ⟨trusted_returned (Or.inl ⟨_, rfl⟩), List.forall_mem_nil _⟩⟩

theorem trusted_taskTrace (kind : UInt8) :
    Trusted sampleParse sampleSha256 samplePayloads (taskTrace ordinal kind) :=
  trusted_cons.mpr ⟨⟨trivial, trivial⟩, trusted_cons.mpr ⟨⟨trivial, trivial⟩, trusted_cons.mpr
    ⟨trusted_returned (Or.inr (Or.inl ⟨_, _, rfl⟩)), List.forall_mem_nil _⟩⟩⟩

theorem trusted_memory :
    Trusted sampleParse sampleSha256 samplePayloads
      [⟨.request memoryCall, Exit.returned (sampleResponse ordinal 6)⟩] :=
  trusted_cons.mpr ⟨trusted_returned (Or.inr (Or.inr (silent_sample rfl rfl rfl))),
    List.forall_mem_nil _⟩

theorem trusted_closeTrace :
    Trusted sampleParse sampleSha256 samplePayloads (closeTrace ordinal) :=
  trusted_cons.mpr ⟨trusted_returned (Or.inr (Or.inr (silent_sample rfl rfl rfl))), trusted_memory⟩

/-- What an attempt that failed was told. -/
def failedTrace (ordinal : UInt8) : Trace :=
  (openTrace ordinal ++ commitTrace ordinal) ++ taskTrace ordinal 3

/-- What an attempt that completed was told. -/
def completedTrace (ordinal : UInt8) : Trace :=
  (openTrace ordinal ++ commitTrace ordinal) ++ (taskTrace ordinal 4 ++ closeTrace ordinal)

/-- The response of an exchange. -/
def returnedOf : Exchange Query MemorySystems.Answer → Option SealedRestResponse
  | ⟨.request _, .returned response⟩ => some response
  | _ => none

/-- The only task of the sample that completed carries usage. -/
theorem carriesUsage_sample {call : RestCall} {response : SealedRestResponse} {document : Json}
    (hmem : ⟨.request call, Exit.returned response⟩ ∈ completedTrace ordinal)
    (hparse : sampleParse response.rawBytes = some document)
    (hcompleted : isCompletedTask (document.get "result") = true) : CarriesUsage document := by
  have hkind : ∃ kind ∈ [(1 : UInt8), 2, 4, 5, 6], sampleResponse ordinal kind = response :=
    List.mem_map.mp (List.mem_filterMap.mpr ⟨_, hmem, (rfl : returnedOf _ = some response)⟩)
  obtain ⟨kind, hkind, rfl⟩ := hkind
  simp only [List.mem_cons, List.not_mem_nil, or_false] at hkind
  rcases hkind with rfl | rfl | rfl | rfl | rfl
  · cases hparse
    cases hcompleted
  · cases hparse
    cases hcompleted
  · cases hparse
    exact ⟨_, rfl⟩
  · cases hparse
    cases hcompleted
  · cases hparse
    cases hcompleted

/-- The calls of the sample: attempts that failed, and one that completed. -/
def SampleCalls {ι : Type} (state : Calls ι) : Prop :=
  ∀ index request trace outcome, Ended state index request trace outcome →
    (∃ ordinal error, trace = failedTrace ordinal ∧ outcome = .error error) ∨
      ∃ ordinal, trace = completedTrace ordinal ∧ outcome = .ok (sampleCompleted ordinal)

/-- The record of the sample. -/
theorem recorded_sample {ι : Type} {state : Calls ι} (hcalls : SampleCalls state)
    (hcompleted : state.shared.completed samplePlanned.sessionId = some (sampleCompleted ordinal)) :
    Recorded sampleAdapter sampleSha256 samplePayloads state sampleScopeId sampleScope samplePlan
      ["attempt"] (sampleResponse ordinal 6) := by
  have hsessions : samplePlan.sessions = [samplePlanned] := rfl
  have hsession : ∀ session ∈ samplePlan.sessions, session = samplePlanned :=
    fun session hmem ↦ List.mem_singleton.mp (hsessions ▸ hmem)
  refine ⟨rfl, rfl, by decide, List.cons_ne_nil _ _, ?_, ?_, ?_, ?_, ?_, ?_, ?_, ?_⟩
  · intro session hmem
    rw [hsession session hmem]
    rfl
  · intro session hmem
    rw [hsession session hmem, hcompleted]
    rfl
  · exact ⟨List.nodup_singleton _, by decide, rfl⟩
  · intro content hempty
    have hlist := congrArg String.toList hempty
    rw [sampleSha256, String.toList_ofList] at hlist
    cases hlist
  · intro index request trace outcome hended
    rcases hcalls index request trace outcome hended with ⟨other, error, rfl, -⟩ | ⟨other, rfl, -⟩
    · exact trusted_append.mpr ⟨trusted_commitTraces, trusted_taskTrace 3⟩
    · exact trusted_append.mpr ⟨trusted_commitTraces,
        trusted_append.mpr ⟨trusted_taskTrace 4, trusted_closeTrace⟩⟩
  · exact ⟨_, execution_sampleProjection ordinal, trusted_memory⟩
  · intro session hmem other hother _ _ _ _ _
    rw [hsession session hmem, hsession other hother]
  · intro index request trace completed hended remaining response document hmem hparse hcompleted
    rcases hcalls index request trace _ hended with ⟨other, error, -, hsame⟩ | ⟨other, rfl, -⟩
    · cases hsame
    · exact carriesUsage_sample hmem hparse hcompleted

/-- The attempts on the sample's source. -/
abbrev firstRequest : IngestionDispatchRequest := sampleRequest 1 (by decide)

abbrev secondRequest : IngestionDispatchRequest := sampleRequest 2 (by decide)

/-- The sample's source was ingested by the first attempt. -/
def ingestedByFirst : Calls ℕ :=
  (⟨leave sampleAdapter (enteredSample .initial 1) firstRequest (.ok (sampleCompleted 1)),
    fun _ ↦ .idle⟩ : Calls ℕ).moved 0 (.ended firstRequest (completedTrace 1)
      (.ok (sampleCompleted 1)))

theorem execution_first : Execution ((procedure sampleAdapter).body firstRequest)
    (completedTrace 1) (.ok (sampleCompleted 1)) := by
  have hbody : (procedure sampleAdapter).body firstRequest = _ := body_sample
  rw [hbody]
  exact execution_sampleCompleted 1

theorem run_first : ∃ events, Run (Step (procedure sampleAdapter))
    (State.initial Adapter.initial : Calls ℕ) events ingestedByFirst := by
  have henter : enter sampleAdapter Adapter.initial firstRequest =
      some (.ok (enteredSample .initial 1)) :=
    enter_sample rfl rfl rfl
  exact run_of_execution Run.nil rfl henter execution_first

/-- A source that is ingested by the first attempt on it has its usage recovered. -/
theorem recovers_of_firstAttempt :
    (∃ events, Run (Step (procedure sampleAdapter)) (State.initial Adapter.initial) events
      ingestedByFirst) ∧ IngestedFirst ingestedByFirst sampleScopeId ∧
    Recovers sampleAdapter sampleSha256 samplePayloads ingestedByFirst sampleScope samplePlan
      ["attempt"] (sampleResponse 1 6) := by
  have hended : ∀ index request trace outcome,
      Ended ingestedByFirst index request trace outcome →
        request = firstRequest ∧ trace = completedTrace 1 ∧ outcome = .ok (sampleCompleted 1) := by
    intro index request trace outcome hended
    rw [Ended, ingestedByFirst] at hended
    by_cases hindex : index = 0
    · rw [hindex, State.moved_self, Phase.ended.injEq] at hended
      exact ⟨hended.1.symm, hended.2.1.symm, hended.2.2.symm⟩
    · rw [State.moved_of_ne hindex] at hended
      cases hended
  have hcalls : SampleCalls ingestedByFirst := by
    intro index request trace outcome hcall
    obtain ⟨-, htrace, houtcome⟩ := hended index request trace outcome hcall
    exact Or.inr ⟨1, htrace, houtcome⟩
  have hfirst : IngestedFirst ingestedByFirst sampleScopeId := by
    intro index request trace completed hcall _
    rw [(hended index request trace _ hcall).1]
    rfl
  have hcompleted : (leave sampleAdapter (enteredSample .initial 1) firstRequest
      (.ok (sampleCompleted 1))).completed samplePlanned.sessionId = some (sampleCompleted 1) :=
    completed_leave_self planned_sample
  obtain ⟨events, hrun⟩ := run_first
  exact ⟨⟨events, hrun⟩, hfirst, (recovers_iff sampleDigest_injective hrun
    (recorded_sample hcalls hcompleted)).mpr hfirst⟩

/-- The first attempt on the sample's source failed. -/
def failedByFirst : Calls ℕ :=
  (⟨leave sampleAdapter (enteredSample .initial 1) firstRequest
      (.error (.settled (sampleFailure 1))), fun _ ↦ .idle⟩ : Calls ℕ).moved 0
    (.ended firstRequest (failedTrace 1) (.error (.settled (sampleFailure 1))))

/-- The sample's source was ingested by the second attempt. -/
def ingestedBySecond : Calls ℕ :=
  (⟨leave sampleAdapter (enteredSample failedByFirst.shared 2) secondRequest
      (.ok (sampleCompleted 2)), failedByFirst.calls⟩ : Calls ℕ).moved 1
    (.ended secondRequest (completedTrace 2) (.ok (sampleCompleted 2)))

theorem run_failed : ∃ events, Run (Step (procedure sampleAdapter))
    (State.initial Adapter.initial : Calls ℕ) events failedByFirst := by
  have henter : enter sampleAdapter Adapter.initial firstRequest =
      some (.ok (enteredSample .initial 1)) :=
    enter_sample rfl rfl rfl
  have hexecution : Execution ((procedure sampleAdapter).body firstRequest) (failedTrace 1)
      (.error (.settled (sampleFailure 1))) := by
    have hbody : (procedure sampleAdapter).body firstRequest = _ := body_sample
    rw [hbody]
    exact execution_sampleFailed 1
  exact run_of_execution Run.nil rfl henter hexecution

theorem sourceIds_sample : ∀ session ∈ samplePlan.sessions,
    session.source.sourceUnitId.length = 64 :=
  List.forall_mem_singleton.mpr rfl

theorem secondSession_not_mem : requestSessionId sampleAdapter secondRequest samplePlanned ∉
    samplePlan.sessions.map PlannedSession.sessionId := by
  have hretry : secondRequest.batchAttemptOrdinal ≠ 1 := by decide
  exact @not_mem_of_retry sampleAdapter sampleScope samplePlan sampleDigest_injective
    sourceIds_sample secondRequest samplePlanned (List.mem_singleton.mpr rfl) hretry

theorem firstSession_mem : requestSessionId sampleAdapter firstRequest samplePlanned ∈
    samplePlan.sessions.map PlannedSession.sessionId := by
  have hsession : samplePlanned ∈ samplePlan.sessions := List.mem_singleton.mpr rfl
  rw [@requestSessionId_of_first sampleAdapter sampleScope samplePlan firstRequest samplePlanned
    hsession planned_sample rfl]
  exact List.mem_map_of_mem hsession

/-- A second attempt on the sample's source may enter after the first one failed. -/
theorem enter_second : enter sampleAdapter failedByFirst.shared secondRequest =
    some (.ok (enteredSample failedByFirst.shared 2)) := by
  have hne : requestSessionId sampleAdapter secondRequest samplePlanned ≠
      requestSessionId sampleAdapter firstRequest samplePlanned := by
    intro hsame
    have hmem := secondSession_not_mem
    rw [hsame] at hmem
    exact hmem firstSession_mem
  have hshared : failedByFirst.shared = leave sampleAdapter (enteredSample .initial 1) firstRequest
      (.error (.settled (sampleFailure 1))) :=
    rfl
  have hnext := @next_leave sampleAdapter (enteredSample .initial 1) firstRequest
    (.error (.settled (sampleFailure 1))) sampleScope samplePlanned planned_sample
    samplePlanned.sessionId
  have hattempted := @attempted_leave sampleAdapter (enteredSample .initial 1) firstRequest
    (.error (.settled (sampleFailure 1)))
  have hdone := @isDone_leave sampleAdapter (enteredSample .initial 1) firstRequest
    (.error (.settled (sampleFailure 1))) sampleScope samplePlanned planned_sample
    samplePlanned.sessionId
  rw [if_pos rfl] at hnext
  rw [hshared]
  refine enter_sample hnext ?_ (Bool.eq_false_iff.mpr fun hfinished ↦ ?_)
  · rw [hattempted]
    exact Function.update_of_ne hne _ _
  · rcases hdone.mp hfinished with hbefore | ⟨hlast, -⟩
    · cases hbefore
    · cases hlast

theorem execution_second : Execution ((procedure sampleAdapter).body secondRequest)
    (completedTrace 2) (.ok (sampleCompleted 2)) := by
  have hbody : (procedure sampleAdapter).body secondRequest = _ := body_sample
  rw [hbody]
  exact execution_sampleCompleted 2

theorem run_second : ∃ events, Run (Step (procedure sampleAdapter))
    (State.initial Adapter.initial : Calls ℕ) events ingestedBySecond := by
  obtain ⟨events, hrun⟩ := run_failed
  have hidle : failedByFirst.calls 1 = .idle := by
    rw [failedByFirst, State.moved_of_ne Nat.one_ne_zero]
  have henter : (procedure sampleAdapter).enter failedByFirst.shared secondRequest =
      some (.ok (enteredSample failedByFirst.shared 2)) :=
    enter_second
  exact run_of_execution hrun hidle henter execution_second

/-- A source that is ingested by the second attempt on it has its usage lost. -/
theorem not_recovers_of_secondAttempt :
    (∃ events, Run (Step (procedure sampleAdapter)) (State.initial Adapter.initial) events
      ingestedBySecond) ∧
    Recorded sampleAdapter sampleSha256 samplePayloads ingestedBySecond sampleScopeId sampleScope
      samplePlan ["attempt"] (sampleResponse 2 6) ∧
    ¬ Recovers sampleAdapter sampleSha256 samplePayloads ingestedBySecond sampleScope samplePlan
      ["attempt"] (sampleResponse 2 6) := by
  have hended : ∀ index request trace outcome,
      Ended ingestedBySecond index request trace outcome →
        (trace = failedTrace 1 ∧ outcome = .error (.settled (sampleFailure 1))) ∨
          (request = secondRequest ∧ trace = completedTrace 2 ∧
            outcome = .ok (sampleCompleted 2)) := by
    intro index request trace outcome hended
    rw [Ended, ingestedBySecond] at hended
    by_cases hsecond : index = 1
    · rw [hsecond, State.moved_self, Phase.ended.injEq] at hended
      exact Or.inr ⟨hended.1.symm, hended.2.1.symm, hended.2.2.symm⟩
    · rw [State.moved_of_ne hsecond, failedByFirst] at hended
      by_cases hfirst : index = 0
      · rw [hfirst, State.moved_self, Phase.ended.injEq] at hended
        exact Or.inl ⟨hended.2.1.symm, hended.2.2.symm⟩
      · rw [State.moved_of_ne hfirst] at hended
        cases hended
  have hcalls : SampleCalls ingestedBySecond := by
    intro index request trace outcome hcall
    rcases hended index request trace outcome hcall with ⟨htrace, houtcome⟩ | ⟨-, htrace, houtcome⟩
    · exact Or.inl ⟨1, _, htrace, houtcome⟩
    · exact Or.inr ⟨2, htrace, houtcome⟩
  have hcompleted : (leave sampleAdapter (enteredSample failedByFirst.shared 2) secondRequest
      (.ok (sampleCompleted 2))).completed samplePlanned.sessionId = some (sampleCompleted 2) :=
    completed_leave_self planned_sample
  have hrecorded := recorded_sample hcalls hcompleted
  obtain ⟨events, hrun⟩ := run_second
  obtain ⟨completedOf, requestOf, traceOf, terminalOf, hsourced⟩ :=
    sourced_of_run sampleDigest_injective hrun hrecorded
  refine ⟨⟨events, hrun⟩, hrecorded, not_recovers_of_retry hsourced fun hfirst ↦ ?_⟩
  have hsession : samplePlanned ∈ samplePlan.sessions := List.mem_singleton.mpr rfl
  obtain ⟨⟨index, hcall⟩, -⟩ := hsourced.ingested samplePlanned hsession
  rcases hended _ _ _ _ hcall with ⟨-, hfailed⟩ | ⟨hrequest, -⟩
  · cases hfailed
  · have hordinal := hfirst samplePlanned hsession
    rw [First, hrequest] at hordinal
    exact absurd hordinal (by decide)

end Sample

end Oamb.Artifacts.OpenVikingUsageGuarantees
