import Oamb.Foundation.RetryDiscipline
import Oamb.MemorySystems.OpenVikingIngest

/-!
# The sessions of OpenViking

An attempt on a source is a native session of its own: the identity of a session is a digest of the
occurrence, of the source, and of the attempt when it is not the first. The sources of a scope are
ingested in the order of their plan: an attempt enters when all earlier sources are completed or
skipped. The attempts keep the laws of retries and of turns (`retries_lawful`, `turns_lawful`).
-/

set_option autoImplicit false

namespace Oamb.MemorySystems.OpenVikingSessions

open Foundation Foundation.Dialogue Foundation.ConcurrentCalls Foundation.RetryDiscipline
open Foundation.LabelledRuns RestClient OpenVikingIngest

/-! ### Identities -/

/-- The identity of a native session. -/
def openvikingSessionId (digest : List String → String)
    (ingestionOccurrenceId sourceUnitId : String) : String :=
  "oamb-" ++ digest ["oamb-openviking-native-session-v2", ingestionOccurrenceId, sourceUnitId]

/-- The identity of the native session of an attempt. -/
def sessionIdForAttempt (digest : List String → String)
    (ingestionOccurrenceId sourceUnitId : String) (ordinal : ℕ) : String :=
  openvikingSessionId digest ingestionOccurrenceId
    (if ordinal = 1 then sourceUnitId else s!"{sourceUnitId}:batch-attempt:{ordinal}")

theorem openvikingSessionId_injective {digest : List String → String}
    (hdigest : Function.Injective digest) {occurrence other source source' : String}
    (hsame : openvikingSessionId digest occurrence source =
      openvikingSessionId digest other source') : occurrence = other ∧ source = source' := by
  have htexts := congrArg String.toList hsame
  rw [openvikingSessionId, openvikingSessionId, String.toList_append, String.toList_append] at htexts
  have hdigests := hdigest (String.toList_inj.mp (List.append_cancel_left htexts))
  simp only [List.cons.injEq, true_and, and_true] at hdigests
  exact hdigests

/-! ### The plan -/

/-- A source that is planned. -/
structure PlannedSession where
  dispatch : IngestionDispatch
  source : SourceUnit
  sessionId : String
  messages : List (String × String)

/-- The plan of the sources of an occurrence: their ordinals are contiguous, no source stands twice,
and each has its session. -/
structure SessionPlan (digest : List String → String) (ingestionOccurrenceId : String) where
  sessions : List PlannedSession
  ordinals : ∀ (index : ℕ) (hindex : index < sessions.length),
    sessions[index].dispatch.dispatchOrdinal = index + 1
  identities : ∀ session ∈ sessions, session.sessionId =
    openvikingSessionId digest ingestionOccurrenceId session.source.sourceUnitId
  unique : (sessions.map fun session ↦ session.source.sourceUnitId).Nodup

/-- A scope that was allocated for an occurrence, and its plan when it is planned. -/
structure SessionScope (digest : List String → String) where
  ingestionOccurrenceId : String
  plan : Option (SessionPlan digest ingestionOccurrenceId)

/-- What an adapter is set to. A scope is the memory root of its occurrence. -/
structure AdapterSettings where
  digest : List String → String
  memoryRoot : String → String
  scopes : String → Option (SessionScope digest)
  roots : ∀ scopeId scope, scopes scopeId = some scope →
    scopeId = memoryRoot scope.ingestionOccurrenceId
  parse : Bytes → Option Json
  canonicalTimestamp : Option String → Except String String
  polling : Settings

/-- The session of a source in a plan. -/
def plannedSession (digest : List String → String) (fingerprint : SourceUnit → String → String)
    (messagesOf : SourceUnit → List (String × String)) (ingestionOccurrenceId : String)
    (index : ℕ) (source : SourceUnit) : PlannedSession :=
  let sessionId := openvikingSessionId digest ingestionOccurrenceId source.sourceUnitId
  ⟨⟨index + 1, "openviking_session_commit", fingerprint source sessionId, [source]⟩, source,
    sessionId, messagesOf source⟩

/-- The plan of some sources. -/
def planSources (digest : List String → String) (fingerprint : SourceUnit → String → String)
    (messagesOf : SourceUnit → List (String × String)) (ingestionOccurrenceId : String)
    (sources : List SourceUnit) (hunique : (sources.map SourceUnit.sourceUnitId).Nodup) :
    SessionPlan digest ingestionOccurrenceId where
  sessions := sources.mapIdx (plannedSession digest fingerprint messagesOf ingestionOccurrenceId)
  ordinals := by
    intro index hindex
    rw [List.getElem_mapIdx, plannedSession]
  identities := by
    intro session hsession
    obtain ⟨index, hindex, rfl⟩ := List.mem_mapIdx.mp hsession
    rfl
  unique := by
    refine (congrArg List.Nodup (List.ext_getElem ?_ fun index _ _ ↦ ?_)).mpr hunique
    · rw [List.length_map, List.length_mapIdx, List.length_map]
    · rw [List.getElem_map, List.getElem_mapIdx, List.getElem_map, plannedSession]

/-- The plan of the sources of a scope, after the checks that their ordinals, identities, times and
messages are right. -/
def planIngestion (digest : List String → String) (fingerprint : SourceUnit → String → String)
    (canonicalTimestamp : Option String → Except String String)
    (parseMessages : Bytes → Except String (List (String × String)))
    (ingestionOccurrenceId : String) (sources : List SourceUnit) :
    Except IngestError (SessionPlan digest ingestionOccurrenceId) :=
  if sources = [] then
    .error (.valueError "OpenViking session plan requires source sessions")
  else if sources.map SourceUnit.ordinal ≠ (List.range sources.length).map Nat.succ then
    .error (.valueError "OpenViking source-session ordinals must be contiguous and ordered")
  else if hunique : (sources.map SourceUnit.sourceUnitId).Nodup then
    match sources.mapM fun source ↦ do
      let _ ← canonicalTimestamp source.occurredAt
      parseMessages source.payloadBytes with
    | .error message => .error (.valueError message)
    | .ok _ =>
      .ok (planSources digest fingerprint
        (fun source ↦ ((parseMessages source.payloadBytes).toOption).getD []) ingestionOccurrenceId
        sources hunique)
  else .error (.valueError "OpenViking source-session IDs must be unique")

/-! ### An attempt -/

/-- What an adapter keeps about its sessions. -/
structure Adapter where
  nextBatchAttemptOrdinals : String → ℕ
  attemptedSessions : String → Bool
  completed : String → Option CompletedSession
  skippedSessions : String → Bool

/-- A new adapter. -/
def Adapter.initial : Adapter := ⟨fun _ ↦ 1, fun _ ↦ false, fun _ ↦ none, fun _ ↦ false⟩

/-- A source is completed or skipped. -/
def Adapter.isDone (adapter : Adapter) (sessionId : String) : Bool :=
  (adapter.completed sessionId).isSome || adapter.skippedSessions sessionId

/-- How many sources of a plan are completed or skipped. -/
def Adapter.completedCount (adapter : Adapter) (sessions : List PlannedSession) : ℕ :=
  sessions.countP fun session ↦ adapter.isDone session.sessionId

/-- The check that the scope of a request is allocated. -/
def requireScope (settings : AdapterSettings) (request : IngestionDispatchRequest) :
    Except IngestError (SessionScope settings.digest) :=
  match settings.scopes request.scopeId with
  | none => .error (.valueError "OpenViking session scope is not allocated by this adapter")
  | some scope =>
    if scope.ingestionOccurrenceId = request.ingestionOccurrenceId then .ok scope
    else .error (.valueError "OpenViking session scope is not allocated by this adapter")

/-- The sessions of a scope. -/
def SessionScope.sessions {digest : List String → String} (scope : SessionScope digest) :
    List PlannedSession :=
  (scope.plan.map SessionPlan.sessions).getD []

/-- The session that is planned for the dispatch of a request. -/
def plannedForDispatch (settings : AdapterSettings) (request : IngestionDispatchRequest) :
    Except IngestError (SessionScope settings.digest × PlannedSession) :=
  match requireScope settings request with
  | .error error => .error error
  | .ok scope =>
    match scope.sessions.find? fun session ↦ session.dispatch = request.dispatch with
    | some session => .ok (scope, session)
    | none =>
      .error (.valueError "OpenViking session dispatch does not match the frozen plan")

/-- The identity of the session of a request. -/
def requestSessionId (settings : AdapterSettings) (request : IngestionDispatchRequest)
    (session : PlannedSession) : String :=
  sessionIdForAttempt settings.digest request.ingestionOccurrenceId session.source.sourceUnitId
    request.batchAttemptOrdinal

/-- The code of an attempt until its first request. -/
def enter (settings : AdapterSettings) (adapter : Adapter) (request : IngestionDispatchRequest) :
    Option (Except IngestError Adapter) :=
  match plannedForDispatch settings request with
  | .error error => some (.error error)
  | .ok (scope, session) =>
    if request.batchAttemptOrdinal ≠ adapter.nextBatchAttemptOrdinals session.sessionId then
      some (.error (.valueError "OpenViking session batch attempt is not the next allowed retry"))
    else if adapter.attemptedSessions (requestSessionId settings request session) then
      some (.error (.valueError
        "OpenViking create-only native session was already attempted and cannot be reused"))
    else if request.dispatch.dispatchOrdinal ≠ adapter.completedCount scope.sessions + 1 then
      some (.error (.valueError
        "OpenViking source sessions must be ingested in frozen chronological order"))
    else
      some (.ok
        { adapter with
          attemptedSessions := Function.update adapter.attemptedSessions
            (requestSessionId settings request session) true })

/-- The session that an attempt ingests. -/
def sessionIngestion (settings : AdapterSettings) (request : IngestionDispatchRequest)
    (session : PlannedSession) : SessionIngestion where
  sessionId := requestSessionId settings request session
  memoryRoot := request.scopeId
  timestamp := settings.canonicalTimestamp session.source.occurredAt
  messages := session.messages
  -- No scope with a session that failed is adopted.
  failedEvidenceReferences := none

/-- The requests of an attempt. -/
def body (settings : AdapterSettings) (request : IngestionDispatchRequest) :
    Ingest CompletedSession :=
  match plannedForDispatch settings request with
  | .error error => fail error
  | .ok (_, session) =>
    ingestSession settings.parse settings.polling (sessionIngestion settings request session)

/-- The code of an attempt after its last request. -/
def leave (settings : AdapterSettings) (adapter : Adapter) (request : IngestionDispatchRequest)
    (outcome : Except IngestError CompletedSession) : Adapter :=
  match plannedForDispatch settings request with
  | .error _ => adapter
  | .ok (_, session) =>
    match outcome with
    | .ok completed =>
      { adapter with
        completed := Function.update adapter.completed session.sessionId (some completed)
        nextBatchAttemptOrdinals :=
          Function.update adapter.nextBatchAttemptOrdinals session.sessionId 0 }
    | .error (.settled _) =>
      { adapter with
        nextBatchAttemptOrdinals := Function.update adapter.nextBatchAttemptOrdinals
          session.sessionId (request.batchAttemptOrdinal + 1)
        skippedSessions :=
          if request.batchAttemptOrdinal = 3 then
            Function.update adapter.skippedSessions session.sessionId true
          else adapter.skippedSessions }
    | .error _ => adapter

/-- The ingestion of OpenViking. -/
def procedure (settings : AdapterSettings) : Procedure Adapter IngestionDispatchRequest Query Answer
    IngestError CompletedSession where
  enter := enter settings
  body := body settings
  leave := leave settings

/-! ### The sessions of the batches -/

section Sessions

variable {settings : AdapterSettings} {adapter next : Adapter} {request : IngestionDispatchRequest}

/-- The occurrence and the session of a position of a scope. -/
def sessionAt (settings : AdapterSettings) (batch : String × ℕ) : Option (String × PlannedSession) :=
  match settings.scopes batch.1, batch.2 with
  | some scope, index + 1 =>
    (scope.sessions[index]?).map fun session ↦ (scope.ingestionOccurrenceId, session)
  | _, _ => none

theorem sessionAt_eq_some {batch : String × ℕ} {occurrence : String} {session : PlannedSession}
    (hsession : sessionAt settings batch = some (occurrence, session)) :
    ∃ scope plan index, settings.scopes batch.1 = some scope ∧ scope.plan = some plan ∧
      batch.2 = index + 1 ∧ scope.ingestionOccurrenceId = occurrence ∧
      plan.sessions[index]? = some session := by
  unfold sessionAt at hsession
  split at hsession
  · next scope index hscope hindex =>
    obtain ⟨found, hfound, hsame⟩ := Option.map_eq_some_iff.mp hsession
    obtain ⟨rfl, rfl⟩ := Prod.mk.inj hsame
    cases hplan : scope.plan with
    | none =>
      rw [SessionScope.sessions, hplan] at hfound
      cases hfound
    | some plan =>
      rw [SessionScope.sessions, hplan] at hfound
      exact ⟨scope, plan, index, hscope, hplan, hindex, rfl, hfound⟩
  · cases hsession

/-- A session has one position of one scope. -/
theorem sessionAt_injective (hdigest : Function.Injective settings.digest)
    {batch other : String × ℕ} {first second : String × PlannedSession}
    (hbatch : sessionAt settings batch = some first)
    (hother : sessionAt settings other = some second)
    (hsame : first.2.sessionId = second.2.sessionId) : batch = other := by
  obtain ⟨scope, plan, index, hscope, hplan, hindex, hoccurrence, hget⟩ := sessionAt_eq_some hbatch
  obtain ⟨scope', plan', index', hscope', hplan', hindex', hoccurrence', hget'⟩ :=
    sessionAt_eq_some hother
  rw [plan.identities _ (List.mem_of_getElem? hget),
    plan'.identities _ (List.mem_of_getElem? hget')] at hsame
  obtain ⟨hoccurrences, hsources⟩ := openvikingSessionId_injective hdigest hsame
  have hscopes : batch.1 = other.1 := by
    rw [settings.roots _ _ hscope, settings.roots _ _ hscope', hoccurrences]
  rw [← hscopes, hscope, Option.some.injEq] at hscope'
  subst hscope'
  rw [hplan, Option.some.injEq] at hplan'
  subst hplan'
  obtain ⟨hbound, -⟩ := List.getElem?_eq_some_iff.mp hget
  have hindices : index = index' := by
    refine (List.getElem?_inj (by rwa [List.length_map]) plan.unique).mp ?_
    rw [List.getElem?_map, List.getElem?_map, hget, hget', Option.map_some, Option.map_some,
      hsources]
  exact Prod.ext hscopes (by rw [hindex, hindex', hindices])

/-- The session that is planned for a request is the one at its position. -/
theorem sessionAt_of_planned {scope : SessionScope settings.digest} {session : PlannedSession}
    (hplanned : plannedForDispatch settings request = .ok (scope, session)) :
    settings.scopes request.scopeId = some scope ∧
      sessionAt settings (request.scopeId, request.dispatch.dispatchOrdinal) =
        some (request.ingestionOccurrenceId, session) := by
  unfold plannedForDispatch at hplanned
  split at hplanned
  · cases hplanned
  · next found hscope =>
    split at hplanned
    · next item hitem =>
      cases hplanned
      unfold requireScope at hscope
      split at hscope
      · cases hscope
      · next known hknown =>
        split_ifs at hscope with hoccurrence
        cases hscope
        refine ⟨hknown, ?_⟩
        have hdispatch : session.dispatch = request.dispatch := by
          simpa only [decide_eq_true_eq] using List.find?_some hitem
        have hmem := List.mem_of_find?_eq_some hitem
        obtain ⟨index, hindex, hget⟩ := List.mem_iff_getElem.mp hmem
        have hordinal : request.dispatch.dispatchOrdinal = index + 1 := by
          rw [← hdispatch, ← hget]
          cases hplan : scope.plan with
          | none =>
            have hnone : scope.sessions = [] := by rw [SessionScope.sessions, hplan]; rfl
            rw [hnone] at hmem
            cases hmem
          | some plan =>
            have hsome : scope.sessions = plan.sessions := by
              rw [SessionScope.sessions, hplan]
              rfl
            simp only [hsome] at hindex ⊢
            exact plan.ordinals index hindex
        rw [sessionAt, hordinal]
        dsimp only
        rw [hknown]
        dsimp only
        rw [List.getElem?_eq_some_iff.mpr ⟨hindex, hget⟩, Option.map_some, hoccurrence]
    · cases hplanned

end Sessions

/-! ### The laws of retries -/

section Laws

variable {settings : AdapterSettings} {adapter next : Adapter} {request : IngestionDispatchRequest}
  {outcome : Except IngestError CompletedSession}

/-- The book of the sessions, read as one of retries. -/
def retries (settings : AdapterSettings) :
    Retries Adapter IngestionDispatchRequest IngestError String where
  batch request := (request.scopeId, request.dispatch.dispatchOrdinal)
  ordinal request := request.batchAttemptOrdinal
  expected adapter batch := ((sessionAt settings batch).map fun found ↦
    adapter.nextBatchAttemptOrdinals found.2.sessionId).getD 1
  Attempted adapter batch ordinal := ∃ found, sessionAt settings batch = some found ∧
    adapter.attemptedSessions (sessionIdForAttempt settings.digest found.1
      found.2.source.sourceUnitId ordinal) = true
  Settled error := ∃ failure, error = .settled failure
  Withdrawn _ := False

/-- The dispatch of the request is one of the plan of its scope. -/
def Planned (settings : AdapterSettings) (request : IngestionDispatchRequest) : Prop :=
  ∃ scope session, plannedForDispatch settings request = .ok (scope, session)

/-- An attempt enters when its dispatch is planned, the attempt is the next one and new, and all earlier
sources are completed or skipped. -/
theorem enter_eq_ok (henter : enter settings adapter request = some (.ok next)) :
    ∃ scope session, plannedForDispatch settings request = .ok (scope, session) ∧
      adapter.nextBatchAttemptOrdinals session.sessionId = request.batchAttemptOrdinal ∧
      adapter.attemptedSessions (requestSessionId settings request session) = false ∧
      request.dispatch.dispatchOrdinal = adapter.completedCount scope.sessions + 1 ∧
      next =
        { adapter with
          attemptedSessions := Function.update adapter.attemptedSessions
            (requestSessionId settings request session) true } := by
  unfold enter at henter
  split at henter
  · cases henter
  · next scope session hplanned =>
    split_ifs at henter with hattempt hattempted hordinal
    · cases henter
    · cases henter
    · cases henter
    · cases henter
      exact ⟨scope, session, hplanned, (not_not.mp hattempt).symm,
        (Bool.not_eq_true _).mp hattempted, not_not.mp hordinal, rfl⟩

/-- An attempt that is planned, is the next one and new, and whose turn it is, enters. -/
theorem enter_of_planned {scope : SessionScope settings.digest} {session : PlannedSession}
    (hplanned : plannedForDispatch settings request = .ok (scope, session))
    (hnext : adapter.nextBatchAttemptOrdinals session.sessionId = request.batchAttemptOrdinal)
    (hnew : adapter.attemptedSessions (requestSessionId settings request session) = false)
    (hturn : request.dispatch.dispatchOrdinal = adapter.completedCount scope.sessions + 1) :
    enter settings adapter request = some (.ok
      { adapter with
        attemptedSessions := Function.update adapter.attemptedSessions
          (requestSessionId settings request session) true }) := by
  rw [enter, hplanned]
  dsimp only
  rw [if_neg (not_not.mpr hnext.symm), if_neg (Bool.eq_false_iff.mp hnew),
    if_neg (not_not.mpr hturn)]

/-- What an attempt leaves of the sessions that may come next. -/
theorem next_leave {scope : SessionScope settings.digest} {session : PlannedSession}
    (hplanned : plannedForDispatch settings request = .ok (scope, session)) (sessionId : String) :
    (leave settings adapter request outcome).nextBatchAttemptOrdinals sessionId =
      if sessionId = session.sessionId then
        match outcome with
        | .ok _ => 0
        | .error (.settled _) => request.batchAttemptOrdinal + 1
        | .error _ => adapter.nextBatchAttemptOrdinals sessionId
      else adapter.nextBatchAttemptOrdinals sessionId := by
  unfold leave
  rw [hplanned]
  cases outcome with
  | ok completed => exact Function.update_apply _ _ _ _
  | error error =>
    cases error with
    | settled failure => exact Function.update_apply _ _ _ _
    | call exit | valueError message | cancelled => exact (ite_self _).symm

theorem attempted_leave :
    (leave settings adapter request outcome).attemptedSessions = adapter.attemptedSessions := by
  unfold leave
  split
  · rfl
  · split
    · rfl
    · rfl
    · rfl

/-- What the book expects of the batch of a request. -/
theorem expected_eq {scope : SessionScope settings.digest} {session : PlannedSession}
    (hplanned : plannedForDispatch settings request = .ok (scope, session)) :
    (retries settings).expected adapter ((retries settings).batch request) =
      adapter.nextBatchAttemptOrdinals session.sessionId := by
  simp only [retries, (sessionAt_of_planned hplanned).2, Option.map_some, Option.getD_some]

/-- The attempts of OpenViking keep the laws of retries. -/
theorem retries_lawful (hdigest : Function.Injective settings.digest) :
    (retries settings).Lawful (procedure settings) Adapter.initial (Planned settings) Issues where
  ordinal_pos := fun {request} _ ↦ request.ordinal_bounded.1
  expected_initial := by
    intro batch
    simp only [retries, Adapter.initial]
    cases sessionAt settings batch with
    | none => exact le_refl 1
    | some found => exact le_refl 1
  admissible := by
    intro state request state' henter
    obtain ⟨scope, session, hplanned, -⟩ := enter_eq_ok henter
    exact ⟨scope, session, hplanned⟩
  expected_of_enter := by
    intro state request state' henter
    obtain ⟨scope, session, hplanned, hordinal, -⟩ := enter_eq_ok henter
    rw [expected_eq hplanned]
    exact hordinal
  not_attempted := by
    rintro state request state' henter ⟨found, hfound, hattempted⟩
    obtain ⟨scope, session, hplanned, -, hfresh, -⟩ := enter_eq_ok henter
    have hsame := hfound.symm.trans (sessionAt_of_planned hplanned).2
    rw [Option.some.injEq] at hsame
    subst hsame
    exact Bool.noConfusion (hfresh.symm.trans hattempted)
  attempted_of_enter := by
    intro state request state' henter
    obtain ⟨scope, session, hplanned, -, -, -, rfl⟩ := enter_eq_ok henter
    exact ⟨_, (sessionAt_of_planned hplanned).2, Function.update_self _ _ _⟩
  expected_enter := by
    intro state request state' henter
    obtain ⟨scope, session, -, -, -, -, rfl⟩ := enter_eq_ok henter
    rfl
  attempted_enter := by
    rintro state request state' batch ordinal henter ⟨found, hfound, hattempted⟩
    obtain ⟨scope, session, -, -, -, -, rfl⟩ := enter_eq_ok henter
    refine ⟨found, hfound, ?_⟩
    refine (Function.update_apply _ _ _ _).trans ?_
    split_ifs
    · rfl
    · exact hattempted
  expected_leave_of_ne := by
    rintro state request outcome batch ⟨scope, session, hplanned⟩ hbatch
    change ((sessionAt settings batch).map fun found ↦ (leave settings state request
      outcome).nextBatchAttemptOrdinals found.2.sessionId).getD 1 = ((sessionAt settings batch).map
        fun found ↦ state.nextBatchAttemptOrdinals found.2.sessionId).getD 1
    cases hfound : sessionAt settings batch with
    | none => rfl
    | some found =>
      have hsession : found.2.sessionId ≠ session.sessionId := fun hsame ↦
        hbatch (sessionAt_injective hdigest hfound (sessionAt_of_planned hplanned).2 hsame)
      rw [Option.map_some, Option.map_some, Option.getD_some, Option.getD_some,
        next_leave hplanned, if_neg hsession]
  expected_settled := by
    rintro state request outcome ⟨scope, session, hplanned⟩ ⟨error, rfl, failure, rfl⟩
    rw [expected_eq hplanned]
    exact (next_leave hplanned _).trans (if_pos rfl)
  expected_leave := by
    rintro state request outcome ⟨scope, session, hplanned⟩ hunsettled
    rw [expected_eq hplanned, expected_eq hplanned]
    have hleave : (leave settings state request outcome).nextBatchAttemptOrdinals
        session.sessionId = _ := next_leave hplanned session.sessionId
    rw [if_pos rfl] at hleave
    cases outcome with
    | ok completed => exact Or.inr hleave
    | error error =>
      cases error with
      | settled failure => exact absurd ⟨_, rfl, failure, rfl⟩ hunsettled
      | call exit | valueError message | cancelled => exact Or.inl hleave
  attempted_leave := by
    rintro state request outcome batch ordinal - ⟨found, hfound, hattempted⟩ -
    exact ⟨found, hfound, (congrFun attempted_leave _).trans hattempted⟩
  not_issues := fun _ hwithdrawn ↦ hwithdrawn.elim

end Laws

/-! ### The turns -/

/-- A predicate that holds of the first members of a list counts them. -/
theorem countP_of_iff_lt {α : Type} {predicate : α → Bool} {list : List α} {count : ℕ}
    (hcount : count ≤ list.length) (hfirst : ∀ (index : ℕ) (hindex : index < list.length),
      predicate list[index] = true ↔ index < count) : list.countP predicate = count := by
  induction list generalizing count with
  | nil => exact (Nat.le_zero.mp hcount).symm
  | cons head tail ih =>
    have hhead : predicate head = true ↔ 0 < count := hfirst 0 (Nat.succ_pos _)
    cases count with
    | zero =>
      rw [List.countP_cons_of_neg (fun htrue ↦ Nat.lt_irrefl 0 (hhead.mp htrue))]
      refine ih (Nat.zero_le _) fun index hindex ↦ ?_
      exact (hfirst (index + 1) (Nat.succ_lt_succ hindex)).trans
        (iff_of_false (Nat.not_lt_zero _) (Nat.not_lt_zero _))
    | succ count =>
      rw [List.countP_cons_of_pos (hhead.mpr (Nat.succ_pos _))]
      refine congrArg Nat.succ (ih (Nat.le_of_succ_le_succ hcount) fun index hindex ↦ ?_)
      exact (hfirst (index + 1) (Nat.succ_lt_succ hindex)).trans Nat.succ_lt_succ_iff

section Turns

variable {settings : AdapterSettings} {adapter next : Adapter} {request : IngestionDispatchRequest}
  {outcome : Except IngestError CompletedSession}

/-- The first sources of a list are done, and no others. -/
def DoneInOrder (adapter : Adapter) (sessions : List PlannedSession) (count : ℕ) : Prop :=
  count ≤ sessions.length ∧ ∀ (index : ℕ) (hindex : index < sessions.length),
    adapter.isDone sessions[index].sessionId = true ↔ index < count

theorem DoneInOrder.completedCount {sessions : List PlannedSession} {count : ℕ}
    (hdone : DoneInOrder adapter sessions count) : adapter.completedCount sessions = count :=
  countP_of_iff_lt hdone.1 hdone.2

/-- The turn of a scope is the position after its sources that are done. -/
def turns (settings : AdapterSettings) : Turns Adapter String where
  turn adapter scopeId := ((settings.scopes scopeId).map fun scope ↦
    adapter.completedCount scope.sessions).getD 0 + 1
  last := 3
  Valid adapter := ∀ scopeId scope, settings.scopes scopeId = some scope →
    ∃ count, DoneInOrder adapter scope.sessions count

/-- An attempt that is accepted, or settled as the last one, has done its source. -/
def finishesSession (request : IngestionDispatchRequest) : Except IngestError CompletedSession → Bool
  | .ok _ => true
  | .error (.settled _) => request.batchAttemptOrdinal = 3
  | .error _ => false

theorem finishes_iff : Finishes (retries settings) (turns settings) request outcome ↔
    finishesSession request outcome = true := by
  rw [Finishes]
  cases outcome with
  | ok completed => exact iff_of_true (Or.inl ⟨completed, rfl⟩) rfl
  | error error =>
    rw [or_iff_right fun ⟨_, hsame⟩ ↦ nomatch hsame]
    cases error with
    | settled failure =>
      rw [finishesSession, decide_eq_true_eq]
      exact ⟨And.right, fun hlast ↦ ⟨⟨_, rfl, failure, rfl⟩, hlast⟩⟩
    | call exit | valueError message | cancelled =>
      refine iff_of_false ?_ Bool.noConfusion
      rintro ⟨⟨_, hsame, failure, rfl⟩, -⟩
      cases hsame

/-- What an attempt leaves of the sources that are done. -/
theorem isDone_leave {scope : SessionScope settings.digest} {session : PlannedSession}
    (hplanned : plannedForDispatch settings request = .ok (scope, session)) (sessionId : String) :
    (leave settings adapter request outcome).isDone sessionId = true ↔
      adapter.isDone sessionId = true ∨
        (finishesSession request outcome = true ∧ sessionId = session.sessionId) := by
  unfold leave Adapter.isDone
  rw [hplanned]
  cases outcome with
  | ok completed =>
    dsimp only
    rw [Function.update_apply]
    split_ifs with hsession
    · exact iff_of_true rfl (Or.inr ⟨rfl, hsession⟩)
    · exact (or_iff_left fun hboth ↦ hsession hboth.2).symm
  | error error =>
    cases error with
    | settled failure =>
      dsimp only
      rw [finishesSession, decide_eq_true_eq]
      split_ifs with hlast
      · rw [Function.update_apply]
        split_ifs with hsession
        · exact iff_of_true (Bool.or_true _) (Or.inr ⟨hlast, hsession⟩)
        · exact (or_iff_left fun hboth ↦ hsession hboth.2).symm
      · exact (or_iff_left fun hboth ↦ hlast hboth.1).symm
    | call exit | valueError message | cancelled =>
      exact (or_iff_left fun hboth ↦ Bool.noConfusion hboth.1).symm

/-- The session at a position of a scope. -/
theorem sessionAt_of_getElem {scopeId : String} {scope : SessionScope settings.digest}
    (hscope : settings.scopes scopeId = some scope) {index : ℕ}
    (hindex : index < scope.sessions.length) : sessionAt settings (scopeId, index + 1) =
      some (scope.ingestionOccurrenceId, scope.sessions[index]) := by
  unfold sessionAt
  dsimp only
  rw [hscope]
  dsimp only
  rw [List.getElem?_eq_getElem hindex, Option.map_some]

/-- The session of a request stands at its position of its scope only. -/
theorem sessionId_eq_iff (hdigest : Function.Injective settings.digest)
    {scope : SessionScope settings.digest} {session : PlannedSession}
    (hplanned : plannedForDispatch settings request = .ok (scope, session)) {scopeId : String}
    {other : SessionScope settings.digest} (hscope : settings.scopes scopeId = some other) {index : ℕ}
    (hindex : index < other.sessions.length) :
    other.sessions[index].sessionId = session.sessionId ↔
      scopeId = request.scopeId ∧ index + 1 = request.dispatch.dispatchOrdinal := by
  have hrequest := (sessionAt_of_planned hplanned).2
  have hother := sessionAt_of_getElem hscope hindex
  constructor
  · intro hsame
    exact Prod.mk.inj (sessionAt_injective hdigest hother hrequest hsame)
  · rintro ⟨rfl, hordinal⟩
    rw [hordinal, hrequest] at hother
    rw [← (Prod.mk.inj (Option.some.inj hother)).2]

/-- An attempt on the source whose turn it is leaves the sources in order. -/
theorem doneInOrder_leave (hdigest : Function.Injective settings.digest)
    {scope : SessionScope settings.digest} {session : PlannedSession}
    (hplanned : plannedForDispatch settings request = .ok (scope, session))
    (hturn : (turns settings).turn adapter request.scopeId = request.dispatch.dispatchOrdinal)
    {scopeId : String} {other : SessionScope settings.digest}
    (hscope : settings.scopes scopeId = some other) {count : ℕ}
    (hdone : DoneInOrder adapter other.sessions count) :
    DoneInOrder (leave settings adapter request outcome) other.sessions
      (if scopeId = request.scopeId ∧ finishesSession request outcome = true then count + 1
        else count) := by
  have hrequest := sessionAt_of_planned hplanned
  have hposition : scopeId = request.scopeId → request.dispatch.dispatchOrdinal = count + 1 := by
    rintro rfl
    rw [← hturn, turns]
    dsimp only
    rw [hscope, Option.map_some, Option.getD_some, hdone.completedCount]
  have hbound : scopeId = request.scopeId → count < other.sessions.length := by
    intro hsame
    obtain ⟨found, plan, index, hfound, hplan, hindex, -, hget⟩ := sessionAt_eq_some hrequest.2
    dsimp only at hfound hindex
    rw [← hsame, hscope, Option.some.injEq] at hfound
    subst hfound
    have hsessions : other.sessions = plan.sessions := by
      rw [SessionScope.sessions, hplan]
      rfl
    obtain ⟨hlt, -⟩ := List.getElem?_eq_some_iff.mp hget
    have hcount := hposition hsame
    rw [hsessions]
    omega
  refine ⟨?_, fun index hindex ↦ ?_⟩
  · split_ifs with hboth
    · exact hbound hboth.1
    · exact hdone.1
  · rw [isDone_leave hplanned, hdone.2 index hindex, sessionId_eq_iff hdigest hplanned hscope hindex]
    split_ifs with hboth
    · rw [hposition hboth.1]
      constructor
      · rintro (hbefore | ⟨-, -, hindex⟩)
        · omega
        · omega
      · intro hlt
        by_cases hbefore : index < count
        · exact Or.inl hbefore
        · exact Or.inr ⟨hboth.2, hboth.1, by omega⟩
    · exact or_iff_left fun hfinishes ↦ hboth ⟨hfinishes.2.1, hfinishes.1⟩

/-- The turn of a scope that has a plan. -/
theorem turn_eq {scopeId : String} {scope : SessionScope settings.digest}
    (hscope : settings.scopes scopeId = some scope) {count : ℕ}
    (hdone : DoneInOrder adapter scope.sessions count) :
    (turns settings).turn adapter scopeId = count + 1 := by
  simp only [turns, hscope, Option.map_some, Option.getD_some, hdone.completedCount]

/-- The turn of a scope after an attempt. -/
theorem turn_leave (hdigest : Function.Injective settings.digest)
    (hplanned : Planned settings request) (hvalid : (turns settings).Valid adapter)
    (hturn : (turns settings).turn adapter request.scopeId = request.dispatch.dispatchOrdinal) :
    (turns settings).turn (leave settings adapter request outcome) request.scopeId =
      if finishesSession request outcome = true then request.dispatch.dispatchOrdinal + 1
      else request.dispatch.dispatchOrdinal := by
  obtain ⟨scope, session, hplanned⟩ := hplanned
  have hscope := (sessionAt_of_planned hplanned).1
  obtain ⟨count, hdone⟩ := hvalid _ _ hscope
  rw [turn_eq hscope (doneInOrder_leave hdigest hplanned hturn hscope hdone), ← hturn,
    turn_eq hscope hdone]
  split_ifs with hboth hfinishes hfinishes
  · rfl
  · exact absurd hboth.2 hfinishes
  · exact absurd ⟨rfl, hfinishes⟩ hboth
  · rfl

/-- The sources of a scope are ingested in turn. -/
theorem turns_lawful (hdigest : Function.Injective settings.digest) :
    (turns settings).Lawful (retries settings) (procedure settings) Adapter.initial
      (Planned settings) where
  valid_start := by
    intro scopeId scope _
    exact ⟨0, Nat.zero_le _, fun index _ ↦ iff_of_false Bool.noConfusion (Nat.not_lt_zero _)⟩
  turn_start := by
    intro scopeId
    simp only [turns]
    cases settings.scopes scopeId with
    | none => exact le_refl 1
    | some scope =>
      have hnone : DoneInOrder Adapter.initial scope.sessions 0 :=
        ⟨Nat.zero_le _, fun index _ ↦ iff_of_false Bool.noConfusion (Nat.not_lt_zero _)⟩
      rw [Option.map_some, Option.getD_some, hnone.completedCount]
  valid_enter := by
    intro state request state' henter hvalid
    obtain ⟨scope, session, -, -, -, -, rfl⟩ := enter_eq_ok henter
    exact hvalid
  turn_of_enter := by
    intro state request state' henter
    obtain ⟨scope, session, hplanned, -, -, hordinal, -⟩ := enter_eq_ok henter
    simp only [turns, retries, (sessionAt_of_planned hplanned).1, Option.map_some, Option.getD_some]
    exact hordinal.symm
  turn_enter := by
    intro state request state' henter
    obtain ⟨scope, session, -, -, -, -, rfl⟩ := enter_eq_ok henter
    rfl
  valid_leave := by
    rintro state request outcome ⟨scope, session, hplanned⟩ hvalid hturn scopeId other hscope
    obtain ⟨count, hdone⟩ := hvalid _ _ hscope
    exact ⟨_, doneInOrder_leave hdigest hplanned hturn hscope hdone⟩
  turn_leave_of_ne := by
    rintro state request outcome scopeId ⟨scope, session, hplanned⟩ - hne
    simp only [turns]
    cases hscope : settings.scopes scopeId with
    | none => rfl
    | some other =>
      refine congrArg Nat.succ (List.countP_congr fun item hitem ↦ ?_)
      obtain ⟨index, hindex, rfl⟩ := List.mem_iff_getElem.mp hitem
      refine (isDone_leave hplanned _).trans (or_iff_left fun hboth ↦ ?_)
      exact hne ((sessionId_eq_iff hdigest hplanned hscope hindex).mp hboth.2).1
  turn_finished := by
    intro state request outcome hplanned hvalid hturn hfinishes
    exact (turn_leave hdigest hplanned hvalid hturn).trans (if_pos (finishes_iff.mp hfinishes))
  turn_unfinished := by
    intro state request outcome hplanned hvalid hturn hunfinished
    exact (turn_leave hdigest hplanned hvalid hturn).trans
      (if_neg (mt finishes_iff.mpr hunfinished))

end Turns

/-! ### The sources that are completed -/

section Completed

variable {settings : AdapterSettings} {ι : Type} [DecidableEq ι]
  {state : State Adapter ι IngestionDispatchRequest Query Answer IngestError CompletedSession}

/-- A session that is kept as completed is the outcome of an attempt on its source. -/
def CompletedByCall (settings : AdapterSettings)
    (state : State Adapter ι IngestionDispatchRequest Query Answer IngestError CompletedSession) :
    Prop :=
  ∀ sessionId completed, state.shared.completed sessionId = some completed →
    ∃ index request trace scope session, Ended state index request trace (.ok completed) ∧
      plannedForDispatch settings request = .ok (scope, session) ∧ session.sessionId = sessionId

theorem completed_leave {adapter : Adapter} {request : IngestionDispatchRequest}
    {outcome : Except IngestError CompletedSession} {sessionId : String}
    {completed : CompletedSession}
    (hcompleted : (leave settings adapter request outcome).completed sessionId = some completed) :
    adapter.completed sessionId = some completed ∨
      ∃ scope session, plannedForDispatch settings request = .ok (scope, session) ∧
        session.sessionId = sessionId ∧ outcome = .ok completed := by
  unfold leave at hcompleted
  split at hcompleted
  · exact Or.inl hcompleted
  · next scope session hplanned =>
    split at hcompleted
    · next found =>
      dsimp only at hcompleted
      by_cases hsession : sessionId = session.sessionId
      · subst hsession
        rw [Function.update_self, Option.some.injEq] at hcompleted
        exact Or.inr ⟨scope, session, hplanned, rfl, congrArg Except.ok hcompleted⟩
      · rw [Function.update_of_ne hsession] at hcompleted
        exact Or.inl hcompleted
    · exact Or.inl hcompleted
    · exact Or.inl hcompleted

theorem completed_leave_self {adapter : Adapter} {request : IngestionDispatchRequest}
    {scope : SessionScope settings.digest} {session : PlannedSession}
    {completed : CompletedSession}
    (hplanned : plannedForDispatch settings request = .ok (scope, session)) :
    (leave settings adapter request (.ok completed)).completed session.sessionId =
      some completed := by
  rw [leave, hplanned]
  exact Function.update_self _ _ _

/-- In every state of a run, the sessions that are completed are the outcomes of attempts. -/
theorem completedByCall_of_run {events : List (Event ι)}
    (hrun : Run (Step (procedure settings)) (State.initial Adapter.initial) events state) :
    CompletedByCall settings state := by
  have hinitial : CompletedByCall settings (State.initial Adapter.initial : State Adapter ι
      IngestionDispatchRequest Query Answer IngestError CompletedSession) := by
    intro sessionId completed hcompleted
    cases hcompleted
  refine hrun.invariant hinitial fun state event next hbefore hstep ↦ ?_
  rcases hstep.effect with hquiet | ⟨index, request, hentered⟩ |
    ⟨index, request, trace, outcome, hleft⟩
  · intro sessionId completed hcompleted
    rw [hquiet.shared] at hcompleted
    obtain ⟨index, request, trace, scope, session, hended, hrest⟩ := hbefore _ _ hcompleted
    exact ⟨index, request, trace, scope, session, (hquiet.ended _ _ _ _).mpr hended, hrest⟩
  · intro sessionId completed hcompleted
    obtain ⟨entered, planned, -, -, -, -, hshared⟩ := enter_eq_ok hentered.enter
    rw [hshared] at hcompleted
    obtain ⟨other, request', trace, scope, session, hended, hrest⟩ := hbefore _ _ hcompleted
    exact ⟨other, request', trace, scope, session, (hentered.ended _ _ _ _).mpr hended, hrest⟩
  · intro sessionId completed hcompleted
    rw [hleft.shared] at hcompleted
    rcases completed_leave hcompleted with hold | ⟨scope, session, hplanned, hsession, rfl⟩
    · obtain ⟨other, request', trace', scope, session, hended, hrest⟩ := hbefore _ _ hold
      exact ⟨other, request', trace', scope, session, (hleft.ended _ _ _ _).mpr (Or.inr hended),
        hrest⟩
    · exact ⟨index, request, trace, scope, session,
        (hleft.ended _ _ _ _).mpr (Or.inl ⟨rfl, rfl, rfl, rfl⟩), hplanned, hsession⟩

end Completed

/-! ### The writes -/

section Writes

variable {settings : AdapterSettings} {request : IngestionDispatchRequest}

/-- The writes that a session plans: its creation, its batches and its commit. -/
def sessionWrites (session : SessionIngestion) : List Query :=
  match session.timestamp with
  | .error _ => [.request (createCall session.sessionId)]
  | .ok timestamp =>
    [.request (createCall session.sessionId)] ++
      ((session.messages.toChunks maximumMessagesPerBatch).map fun batch ↦
        .request (messagesCall session.sessionId timestamp batch)) ++
      [.request (commitCall session.sessionId)]

/-- The writes that a request plans. -/
def plannedWrites (settings : AdapterSettings) (request : IngestionDispatchRequest) : List Query :=
  match plannedForDispatch settings request with
  | .error _ => []
  | .ok (_, session) => sessionWrites (sessionIngestion settings request session)

theorem writesExactly_sendRead {call : RestCall} (hread : call.writeIntent = false) :
    WritesExactly IsWrite [] (send call) := by
  have hnot : ¬ IsWrite (.request call) := fun hwrite ↦ Bool.noConfusion (hread.symm.trans hwrite)
  refine writesExactly_read hnot fun exit ↦ ?_
  cases hexit : exitOutcome exit with
  | ok response => rfl
  | error error => trivial

theorem writesExactly_sendWrite {call : RestCall} (hwrite : call.writeIntent = true) :
    WritesExactly IsWrite [.request call] (send call) := by
  refine writesExactly_write hwrite fun exit ↦ ?_
  cases hexit : exitOutcome exit with
  | ok response => rfl
  | error error => trivial

variable {parse : Bytes → Option Json} {session : SessionIngestion}

theorem writesExactly_requireAbsent {call : RestCall} {expectedResource expectedType : String}
    (hread : call.writeIntent = false) :
    WritesExactly IsWrite [] (requireAbsent parse call expectedResource expectedType) := by
  have hnot : ¬ IsWrite (.request call) := fun hwrite ↦ Bool.noConfusion (hread.symm.trans hwrite)
  refine writesExactly_read hnot fun exit ↦ ?_
  split
  · split
    · exact writesExactly_fail
    · exact writesExactly_pure
  · split
    · exact writesExactly_fail
    · exact writesExactly_fail

theorem writesExactly_openSession (hfresh : session.failedEvidenceReferences = none) :
    WritesExactly IsWrite [.request (createCall session.sessionId)] (openSession parse session) := by
  unfold openSession
  rw [hfresh]
  dsimp only
  refine writesExactly_bind_read (writesExactly_requireAbsent rfl) fun absence ↦ ?_
  refine writesExactly_bind_last (writesExactly_sendWrite rfl) fun create ↦ ?_
  refine writesExactly_bind_read writesExactly_ofExcept fun result ↦ ?_
  split_ifs
  · exact writesExactly_pure
  · exact writesExactly_fail

theorem writesExactly_addMessages {sessionId timestamp : String}
    {batches : List (List (String × String))} : WritesExactly IsWrite
      (batches.map fun batch ↦ .request (messagesCall sessionId timestamp batch))
      (addMessages parse sessionId timestamp batches) := by
  induction batches with
  | nil => exact writesExactly_pure
  | cons batch rest ih =>
    have hsend : WritesExactly IsWrite [.request (messagesCall sessionId timestamp batch)]
        (send (messagesCall sessionId timestamp batch)) :=
      writesExactly_sendWrite rfl
    refine writesExactly_bind hsend fun response ↦ ?_
    split
    · exact writesExactly_fail
    · refine writesExactly_bind_read writesExactly_ofExcept fun result ↦ ?_
      split_ifs
      · exact writesExactly_bind_last ih fun references ↦ writesExactly_pure
      · exact writesExactly_fail

theorem writesExactly_commitSession (hfresh : session.failedEvidenceReferences = none) :
    WritesExactly IsWrite (sessionWrites session) (commitSession parse session) := by
  unfold sessionWrites commitSession
  cases htimestamp : session.timestamp with
  | error message =>
    exact writesExactly_bind_last (writesExactly_openSession hfresh) fun opened ↦ trivial
  | ok timestamp =>
    dsimp only
    rw [List.append_assoc]
    refine writesExactly_bind (writesExactly_openSession hfresh) fun opened ↦ ?_
    simp only [Except.mapError, ofExcept_ok_bind]
    refine writesExactly_bind writesExactly_addMessages fun added ↦ ?_
    refine writesExactly_bind_last (writesExactly_sendWrite rfl) fun commit ↦ ?_
    refine writesExactly_bind_read writesExactly_ofExcept fun result ↦ ?_
    exact writesExactly_bind_last writesExactly_ofExcept fun identity ↦ writesExactly_pure

theorem writesExactly_readClock : WritesExactly IsWrite [] readClock :=
  writesExactly_read id fun _ ↦ rfl

theorem writesExactly_sleepFor {seconds : ℚ} : WritesExactly IsWrite [] (sleepFor seconds) :=
  writesExactly_read id fun _ ↦ rfl

theorem writesExactly_pollTerminalTask {polling : Settings} {sessionId : String} {commit : Commit}
    {deadline : ℚ} {polls : ℕ} {references : List String} : WritesExactly IsWrite []
      (pollTerminalTask parse polling sessionId commit deadline polls references) := by
  induction polls generalizing references with
  | zero => exact writesExactly_fail
  | succ polls ih =>
    refine writesExactly_bind_read writesExactly_readClock fun before ↦ ?_
    split_ifs
    · exact writesExactly_fail
    · refine writesExactly_read Bool.noConfusion fun exit ↦ ?_
      split
      · exact writesExactly_fail
      · exact writesExactly_pure
      · refine writesExactly_bind_read writesExactly_readClock fun after ↦ ?_
        split_ifs
        · exact writesExactly_fail
        · refine writesExactly_bind_read writesExactly_sleepFor fun outcome ↦ ?_
          cases outcome with
          | cancelled => exact writesExactly_fail
          | slept => exact ih

theorem writesExactly_captureMemoryProjection {memoryRoot : String} :
    WritesExactly IsWrite [] (captureMemoryProjection parse memoryRoot) := by
  refine writesExactly_read Bool.noConfusion fun exit ↦ ?_
  split
  · split
    · exact writesExactly_fail
    · exact writesExactly_pure
  · refine writesExactly_bind_read writesExactly_ofExcept fun response ↦ ?_
    refine writesExactly_bind_read writesExactly_ofExcept fun result ↦ ?_
    split
    · dsimp only
      split_ifs
      · exact writesExactly_pure
      · exact writesExactly_fail
    · exact writesExactly_fail

theorem writesExactly_closeSession {commit : Commit} {terminal : Json} {polled : List String} :
    WritesExactly IsWrite [] (closeSession parse session commit terminal polled) := by
  refine writesExactly_bind_read writesExactly_ofExcept fun _ ↦ ?_
  refine writesExactly_bind_read (writesExactly_sendRead rfl) fun archive ↦ ?_
  refine writesExactly_bind_read writesExactly_ofExcept fun result ↦ ?_
  split_ifs
  · exact writesExactly_bind_last writesExactly_captureMemoryProjection fun _ ↦ writesExactly_pure
  · exact writesExactly_fail

/-- The writes of an attempt are those of its session. -/
theorem writesExactly_body :
    WritesExactly IsWrite (plannedWrites settings request) (body settings request) := by
  unfold plannedWrites body
  split
  · exact writesExactly_fail
  · refine writesExactly_bind_last (writesExactly_commitSession rfl) fun commit ↦ ?_
    refine writesExactly_bind_read writesExactly_readClock fun start ↦ ?_
    exact writesExactly_bind_read writesExactly_pollTerminalTask fun _ ↦ writesExactly_closeSession

end Writes

end Oamb.MemorySystems.OpenVikingSessions
