import Oamb.Artifacts.OpenVikingEvidence
import Oamb.MemorySystems.OpenVikingGuarantees

/-!
# The evidence of an ingested session

The references that an ingested session leaves are those of sealed payloads. `Sealed` says of the
client that a reference names the bytes of its payload, and `Candid` of the provider that only the
answers to commits and to reads of tasks show accepted commits or completed tasks. Then the evidence
of a session shows one accepted commit and one completed task, which are its own, and nothing else
(`told_of_ingestSession`).
-/

set_option autoImplicit false

namespace Oamb.Artifacts.OpenVikingTraces

open Foundation Foundation.Dialogue MemorySystems
open RestClient OpenVikingIngest OpenVikingGuarantees OpenVikingEvidence

/-! ### Payloads -/

section Payloads

variable (parse : Bytes → Option Json) (sha256 : Bytes → String)
  (rawPayloads : String → Option Bytes)

/-- The payload shows neither an accepted commit nor a completed task. -/
def Silent (content : Bytes) : Prop :=
  ∀ document, parse content = some document →
    isAccepted (document.get "result") = false ∧ isCompletedTask (document.get "result") = false

/-- The reference names the payload, which is stored. -/
def Stored (reference : String) (content : Bytes) : Prop :=
  rawPayloads reference = some content ∧ sha256 content = reference

/-- The proof of a request that was sent. -/
def requestProof (call : RestCall) : Json := .object
  [("json_payload", call.payload), ("method", .string call.method), ("params", .object call.params),
    ("path", .string call.path), ("request_header_names", .array []),
    ("schema_name", .string "oamb_rest_request_proof"), ("schema_version", .integer 1),
    ("write_intent", .bool call.writeIntent)]

/-- What the client sealed of a request that ended. -/
def SealedExit (call : RestCall) : Exit → Prop
  | .returned response => Stored sha256 rawPayloads response.rawReference response.rawBytes ∧
    ∀ reference, response.requestReference = some reference →
      ∃ content, Stored sha256 rawPayloads reference content ∧
        parse content = some (requestProof call)
  | .callFailure failure => ∀ reference content, failure.rawReference = some reference →
    failure.rawResponseBytes = some content → Stored sha256 rawPayloads reference content
  | _ => True

/-- The client seals what is returned. -/
def Sealed : Exchange Query Answer → Prop
  | ⟨.request call, exit⟩ => SealedExit parse sha256 rawPayloads call exit
  | _ => True

/-- What the provider shows in a response. -/
def CandidExit (call : RestCall) : Exit → Prop
  | .returned response => (∃ sessionId, call = commitCall sessionId) ∨
    (∃ taskId remaining, call = taskCall taskId remaining) ∨ Silent parse response.rawBytes
  | _ => True

/-- The provider shows commits and tasks only where they are asked for. -/
def Candid : Exchange Query Answer → Prop
  | ⟨.request call, exit⟩ => CandidExit parse call exit
  | _ => True

/-- A trace of a client that seals and a provider that is candid. -/
def Trusted (trace : Trace) : Prop :=
  ∀ exchange ∈ trace, Sealed parse sha256 rawPayloads exchange ∧ Candid parse exchange

/-- The reference is that of a payload that is silent. -/
def SilentReference (reference : String) : Prop :=
  ∃ content, Stored sha256 rawPayloads reference content ∧ Silent parse content

variable {parse sha256 rawPayloads} {content : Bytes} {document : Json}

theorem silent_of_document (hparse : parse content = some document)
    (hresult : (document.get "result").isObject = false) : Silent parse content := by
  intro other hother
  rw [hparse, Option.some.injEq] at hother
  subst hother
  rw [isAccepted, isCompletedTask, hresult]
  exact ⟨rfl, rfl⟩

/-- A task whose state is neither is silent. -/
theorem silent_of_status (hparse : parse content = some document) {status : String}
    (hstatus : ((document.get "result").get "status").asText = some status)
    (haccepted : status ≠ "accepted") (hcompleted : status ≠ "completed") :
    Silent parse content := by
  intro other hother
  rw [hparse, Option.some.injEq] at hother
  subst hother
  have hnot : ∀ text, status ≠ text → ((document.get "result").get "status").isText text = false :=
    fun text htext ↦ decide_eq_false fun hsame ↦ htext (Option.some.inj (hstatus.symm.trans hsame))
  rw [isAccepted, isCompletedTask, hnot _ haccepted, hnot _ hcompleted, Bool.and_false,
    Bool.and_false]
  exact ⟨rfl, rfl⟩

theorem trusted_append {first second : Trace} :
    Trusted parse sha256 rawPayloads (first ++ second) ↔
      Trusted parse sha256 rawPayloads first ∧ Trusted parse sha256 rawPayloads second :=
  List.forall_mem_append

theorem trusted_cons {exchange : Exchange Query Answer} {trace : Trace} :
    Trusted parse sha256 rawPayloads (exchange :: trace) ↔
      (Sealed parse sha256 rawPayloads exchange ∧ Candid parse exchange) ∧
        Trusted parse sha256 rawPayloads trace :=
  List.forall_mem_cons

end Payloads

/-! ### Documents -/

section Documents

variable {parse : Bytes → Option Json}

/-- A clean result is that of a document. -/
theorem document_of_cleanResult {response : SealedRestResponse} {label : String} {result : Json}
    (hresult : cleanResult parse response label = .ok result) :
    ∃ document, parse response.rawBytes = some document ∧ document.isObject = true ∧
      isCleanSuccess document = true ∧ document.get "result" = result := by
  unfold cleanResult at hresult
  split at hresult
  · next found hfound =>
    cases hresult
    obtain ⟨document, hexact, hdocument⟩ := Option.bind_eq_some_iff.mp hfound
    obtain ⟨hparse, hforms⟩ := Option.filter_eq_some_iff.mp hexact
    rw [Bool.and_eq_true, List.any_eq_true] at hforms
    obtain ⟨-, form, -, hnames⟩ := hforms
    rw [Json.hasNames, Bool.and_eq_true, Bool.and_eq_true] at hnames
    unfold cleanDocument at hdocument
    split_ifs at hdocument with hclean
    refine ⟨document, hparse, hnames.1.1, ?_, Option.some.inj hdocument⟩
    rw [isCleanSuccess, Bool.and_eq_true, List.all_eq_true]
    exact hclean
  · cases hresult

/-- Something that is not there has no result. -/
theorem silent_of_parseNotFound {content : Bytes} {expectedResource expectedType : String}
    (habsent : parseNotFound parse content expectedResource expectedType = .ok ()) :
    Silent parse content := by
  unfold parseNotFound at habsent
  split at habsent
  · cases habsent
  · next document hdocument =>
    obtain ⟨hparse, -⟩ := Option.filter_eq_some_iff.mp hdocument
    dsimp only at habsent
    split_ifs at habsent with hclean
    refine silent_of_document hparse ?_
    have hnull := hclean.2.1 "result" List.mem_cons_self
    cases hresult : document.get "result" with
    | null => rfl
    | _ =>
      rw [hresult] at hnull
      cases hnull

end Documents

/-! ### References of the parts of an ingestion -/

section Parts

variable {parse : Bytes → Option Json} {sha256 : Bytes → String}
  {rawPayloads : String → Option Bytes} {trace : Trace}

/-- The sealed response of a request that is not found. -/
theorem stored_of_notFound {call : RestCall} {exit : Exit} {response : SealedRestResponse}
    (hsealed : Sealed parse sha256 rawPayloads ⟨.request call, exit⟩)
    (hresponse : notFound exit = some response) :
    Stored sha256 rawPayloads response.rawReference response.rawBytes := by
  unfold notFound at hresponse
  split at hresponse
  · split_ifs at hresponse
    split at hresponse
    · next reference content hreference hcontent =>
      cases hresponse
      exact hsealed reference content hreference hcontent
    · cases hresponse
  · cases hresponse

/-- A response that is neither to a commit nor to a read of a task, and the proof of its request. -/
theorem silent_of_send {call : RestCall} {response : SealedRestResponse}
    (hsend : Execution (send call) trace (.ok response))
    (htrusted : Trusted parse sha256 rawPayloads trace)
    (hcommit : ∀ sessionId, call ≠ commitCall sessionId)
    (htask : ∀ taskId remaining, call ≠ taskCall taskId remaining) :
    SilentReference parse sha256 rawPayloads response.rawReference ∧
      ∀ reference, response.requestReference = some reference →
        SilentReference parse sha256 rawPayloads reference := by
  rw [execution_send_ok hsend] at htrusted
  obtain ⟨⟨hsealed, hproof⟩, hcandid⟩ := htrusted _ List.mem_cons_self
  refine ⟨⟨response.rawBytes, hsealed, ?_⟩, fun reference hreference ↦ ?_⟩
  · rcases hcandid with ⟨sessionId, hsame⟩ | ⟨taskId, remaining, hsame⟩ | hsilent
    · exact absurd hsame (hcommit sessionId)
    · exact absurd hsame (htask taskId remaining)
    · exact hsilent
  · obtain ⟨content, hstored, hparse⟩ := hproof reference hreference
    exact ⟨content, hstored, silent_of_document hparse rfl⟩

theorem ne_taskCall {call : RestCall} (htimeout : call.totalTimeoutSeconds = none)
    (taskId : String) (remaining : ℚ) : call ≠ taskCall taskId remaining := by
  rintro rfl
  cases htimeout

theorem createCall_ne_commitCall (sessionId other : String) :
    createCall sessionId ≠ commitCall other := by
  intro hsame
  have hnames := congrArg (Json.names ∘ RestCall.payload) hsame
  have hname : "session_id" = "keep_recent_count" := (List.cons.inj hnames).1
  exact absurd hname (by decide)

theorem silent_of_requireAbsent {call : RestCall} {expectedResource expectedType reference : String}
    (habsent : Execution (requireAbsent parse call expectedResource expectedType) trace
      (.ok reference)) (htrusted : Trusted parse sha256 rawPayloads trace) :
    SilentReference parse sha256 rawPayloads reference := by
  obtain ⟨exit, rest, rfl, hrest⟩ := execution_ask.mp habsent
  obtain ⟨⟨hsealed, -⟩, -⟩ := trusted_cons.mp htrusted
  split at hrest
  · next response hresponse =>
    split at hrest
    · cases (execution_fail.mp hrest).2
    · next hparse =>
      cases (execution_pure.mp hrest).2
      exact ⟨_, stored_of_notFound hsealed hresponse, silent_of_parseNotFound hparse⟩
  · split at hrest
    · cases (execution_fail.mp hrest).2
    · cases (execution_fail.mp hrest).2

/-- The evidence that a session was opened is silent. -/
theorem silent_of_openSession {session : SessionIngestion} {references : List String}
    (hfresh : session.failedEvidenceReferences = none)
    (hopen : Execution (openSession parse session) trace (.ok references))
    (htrusted : Trusted parse sha256 rawPayloads trace) :
    ∀ reference ∈ references, SilentReference parse sha256 rawPayloads reference := by
  unfold openSession at hopen
  rw [hfresh] at hopen
  obtain ⟨absence, first, rest, rfl, hfirst, hrest⟩ := execution_bind_ok hopen
  obtain ⟨create, second, last, rfl, hsecond, hlast⟩ := execution_bind_ok hrest
  obtain ⟨hfirsts, hrests⟩ := trusted_append.mp htrusted
  obtain ⟨result, -, hresult⟩ := execution_ofExcept_bind_ok hlast
  split_ifs at hresult
  · cases (execution_pure.mp hresult).2
    have hcreate := silent_of_send hsecond (trusted_append.mp hrests).1
      (createCall_ne_commitCall session.sessionId) (ne_taskCall rfl)
    intro reference hreference
    rcases List.mem_pair.mp hreference with rfl | rfl
    · exact silent_of_requireAbsent hfirst hfirsts
    · exact hcreate.1
  · cases (execution_fail.mp hresult).2

/-- The evidence of the messages of a session is silent. -/
theorem silent_of_addMessages {sessionId timestamp : String}
    {batches : List (List (String × String))} {references : List String}
    (hadd : Execution (addMessages parse sessionId timestamp batches) trace (.ok references))
    (htrusted : Trusted parse sha256 rawPayloads trace) :
    ∀ reference ∈ references, SilentReference parse sha256 rawPayloads reference := by
  induction batches generalizing trace references with
  | nil =>
    cases (execution_pure.mp hadd).2
    exact List.forall_mem_nil _
  | cons batch rest ih =>
    obtain ⟨response, first, later, rfl, hfirst, hlater⟩ := execution_bind_ok hadd
    obtain ⟨hfirsts, hlaters⟩ := trusted_append.mp htrusted
    have hresponse := silent_of_send hfirst hfirsts
      (fun _ hsame ↦ Bool.noConfusion (congrArg RestCall.requestEvidence hsame)) (ne_taskCall rfl)
    split at hlater
    · cases (execution_fail.mp hlater).2
    · next requestReference hrequest =>
      obtain ⟨result, -, hresult⟩ := execution_ofExcept_bind_ok hlater
      split_ifs at hresult
      · obtain ⟨added, second, last, rfl, hsecond, hlast⟩ := execution_bind_ok hresult
        cases (execution_pure.mp hlast).2
        intro reference hreference
        rcases List.mem_cons.mp hreference with rfl | hreference
        · exact hresponse.2 _ hrequest
        · rcases List.mem_cons.mp hreference with rfl | hreference
          · exact hresponse.1
          · exact ih hsecond (trusted_append.mp hlaters).1 reference hreference
      · cases (execution_fail.mp hresult).2

/-- The payload is that of a commit that was accepted. -/
def ShowsCommit (parse : Bytes → Option Json) (sessionId taskId archiveUri : String)
    (content : Bytes) : Prop :=
  ∃ document, parse content = some document ∧ document.isObject = true ∧
    isCleanSuccess document = true ∧ commitIdentity (document.get "result") sessionId =
      .ok (taskId, archiveUri)

/-- The payload is that of a task that completed. -/
def ShowsTask (parse : Bytes → Option Json) (sessionId taskId archiveUri : String)
    (content : Bytes) : Prop :=
  ∃ document, parse content = some document ∧ document.isObject = true ∧
    isCleanSuccess document = true ∧ isCompletedTask (document.get "result") = true ∧
    ((document.get "result").get "task_id").asText = some taskId ∧
    ((document.get "result").get "resource_id").asText = some sessionId ∧
    ((document.get "result").get "result").isObject = true ∧
    (((document.get "result").get "result").get "session_id").asText = some sessionId ∧
    (((document.get "result").get "result").get "archive_uri").asText = some archiveUri

/-- The evidence of a session until its commit: it ends with the commit. -/
theorem shown_of_commitSession {session : SessionIngestion} {commit : Commit}
    (hfresh : session.failedEvidenceReferences = none)
    (hcommit : Execution (commitSession parse session) trace (.ok commit))
    (htrusted : Trusted parse sha256 rawPayloads trace) :
    ∃ opened last content, commit.evidenceReferences = opened ++ [last] ∧
      (∀ reference ∈ opened, SilentReference parse sha256 rawPayloads reference) ∧
      Stored sha256 rawPayloads last content ∧
      ShowsCommit parse session.sessionId commit.taskId commit.archiveUri content := by
  obtain ⟨opened, first, rest, rfl, hfirst, hrest⟩ := execution_bind_ok hcommit
  obtain ⟨hfirsts, hrests⟩ := trusted_append.mp htrusted
  obtain ⟨timestamp, -, hafter⟩ := execution_ofExcept_bind_ok hrest
  obtain ⟨added, second, later, rfl, hsecond, hlater⟩ := execution_bind_ok hafter
  obtain ⟨hseconds, hlaters⟩ := trusted_append.mp hrests
  obtain ⟨response, third, last, rfl, hthird, hlast⟩ := execution_bind_ok hlater
  have hresponse := (trusted_append.mp hlaters).1
  rw [execution_send_ok hthird] at hresponse
  obtain ⟨⟨hsealed, -⟩, -⟩ := hresponse _ List.mem_cons_self
  obtain ⟨result, hresult, hidentity⟩ := execution_ofExcept_bind_ok hlast
  obtain ⟨⟨taskId, archiveUri⟩, hsame, hpure⟩ := execution_ofExcept_bind_ok hidentity
  cases (execution_pure.mp hpure).2
  obtain ⟨document, hparse, hobject, hclean, rfl⟩ := document_of_cleanResult hresult
  refine ⟨opened ++ added, response.rawReference, response.rawBytes, rfl, ?_, hsealed, document,
    hparse, hobject, hclean, hsame⟩
  intro reference hreference
  rcases List.mem_append.mp hreference with hreference | hreference
  · exact silent_of_openSession hfresh hfirst hfirsts reference hreference
  · exact silent_of_addMessages hsecond hseconds reference hreference

/-- A task that completed is bound to its session and its archive. -/
theorem bound_of_pollStatus {settings : Settings} {sessionId : String} {commit : Commit}
    {references : List String} {response : SealedRestResponse} {result terminal : Json}
    (hpoll : pollStatus parse settings sessionId commit references response result =
      .ok (some terminal)) : terminal = result.get "result" ∧ terminal.isObject = true ∧
        (terminal.get "session_id").asText = some sessionId ∧
        (terminal.get "archive_uri").asText = some commit.archiveUri := by
  unfold pollStatus at hpoll
  split at hpoll
  · cases hpoll
  · dsimp only at hpoll
    split_ifs at hpoll with hcompleted hbound hterminal hactive
    · cases hpoll
      exact ⟨rfl, hbound.1, asText_of_isText hbound.2.1, asText_of_isText hbound.2.2⟩
    · cases hpoll

/-- A poll that comes to a value read the task: it still runs, or it completed. -/
theorem shown_of_readTask {settings : Settings} {sessionId : String} {commit : Commit}
    {references : List String} {exit : Exit} {terminal : Option Json} {reference : String}
    (hread : OpenVikingIngest.readTask parse settings sessionId commit references exit = .ok (terminal, reference)) :
    ∃ response, exit = .returned response ∧ response.rawReference = reference ∧
      (terminal = none → Silent parse response.rawBytes) ∧
      (terminal.isSome → ShowsTask parse sessionId commit.taskId commit.archiveUri
        response.rawBytes) := by
  unfold OpenVikingIngest.readTask at hread
  split at hread
  · split_ifs at hread
  · next response =>
    split at hread
    · cases hread
    · next result hresult =>
      split at hread
      · cases hread
      · next found hpoll =>
        cases hread
        unfold taskResult at hresult
        split at hresult
        · cases hresult
        · next value hclean =>
          split_ifs at hresult with hobject hidentity
          cases hresult
          obtain ⟨document, hparse, hisObject, hsuccess, rfl⟩ := document_of_cleanResult hclean
          refine ⟨response, rfl, rfl, ?_, fun hsome ↦ ?_⟩
          · rintro rfl
            obtain ⟨status, hactive, hstatus⟩ := active_of_pollStatus hpoll
            have hneither : ∀ active ∈ activeTaskStatuses,
                active ≠ "accepted" ∧ active ≠ "completed" := by
              decide
            exact silent_of_status hparse hstatus (hneither status hactive).1
              (hneither status hactive).2
          · obtain ⟨value, rfl⟩ := Option.isSome_iff_exists.mp hsome
            obtain ⟨rfl, hbound⟩ := bound_of_pollStatus hpoll
            have hcompleted : ((document.get "result").get "status").isText "completed" = true :=
              decide_eq_true (completed_of_pollStatus hpoll)
            refine ⟨document, hparse, hisObject, hsuccess, ?_, asText_of_isText hidentity.1,
              asText_of_isText hidentity.2.2, hbound⟩
            rw [isCompletedTask, (Bool.not_eq_false _).mp hobject, hidentity.2.1, hcompleted]
            rfl
  · cases hread

/-- The references of the polls: those of polls of a task that runs, and the one of its end. -/
theorem shown_of_pollTerminalTask {settings : Settings} {sessionId : String} {commit : Commit}
    {deadline : ℚ} {polls : ℕ} {before references : List String} {terminal : Json}
    (hpolls : Execution (pollTerminalTask parse settings sessionId commit deadline polls before)
      trace (.ok (terminal, references)))
    (htrusted : Trusted parse sha256 rawPayloads trace) :
    ∃ active response remaining, references = before ++ active ++ [response.rawReference] ∧
      (∀ reference ∈ active, SilentReference parse sha256 rawPayloads reference) ∧
      Stored sha256 rawPayloads response.rawReference response.rawBytes ∧
      ⟨.request (taskCall commit.taskId remaining), Exit.returned response⟩ ∈ trace ∧
      ShowsTask parse sessionId commit.taskId commit.archiveUri response.rawBytes := by
  induction polls generalizing before trace with
  | zero => cases (execution_fail.mp hpolls).2
  | succ polls ih =>
    obtain ⟨now, rest, rfl, hrest⟩ := execution_readClock_bind.mp hpolls
    split_ifs at hrest with hlate
    · cases (execution_fail.mp hrest).2
    · obtain ⟨exit, later, rfl, hlater⟩ := execution_ask.mp hrest
      obtain ⟨⟨hsealed, -⟩, hafter⟩ := trusted_cons.mp (trusted_cons.mp htrusted).2
      split at hlater
      · cases (execution_fail.mp hlater).2
      · next found reference hread =>
        obtain ⟨rfl, hvalue⟩ := execution_pure.mp hlater
        cases hvalue
        obtain ⟨response, rfl, rfl, -, hshows⟩ := shown_of_readTask hread
        refine ⟨[], response, _, ?_, List.forall_mem_nil _, hsealed.1,
          List.mem_cons_of_mem _ List.mem_cons_self, hshows rfl⟩
        rw [List.append_nil]
      · next reference hread =>
        obtain ⟨response, rfl, rfl, hsilent, -⟩ := shown_of_readTask hread
        obtain ⟨after, final, rfl, hfinal⟩ := execution_readClock_bind.mp hlater
        split_ifs at hfinal with hover
        · cases (execution_fail.mp hfinal).2
        · obtain ⟨result, remainder, rfl, hremainder⟩ := execution_sleepFor_bind.mp hfinal
          cases result with
          | cancelled => cases (execution_fail.mp hremainder).2
          | slept =>
            obtain ⟨active, last, remaining, rfl, hactive, hrest⟩ := ih hremainder
              (trusted_cons.mp (trusted_cons.mp hafter).2).2
            refine ⟨response.rawReference :: active, last, remaining, ?_, ?_, hrest.1, ?_,
              hrest.2.2⟩
            · rw [List.append_assoc before, List.singleton_append]
            · exact List.forall_mem_cons.mpr
                ⟨⟨response.rawBytes, hsealed.1, hsilent rfl⟩, hactive⟩
            · exact List.mem_cons_of_mem _ (List.mem_cons_of_mem _ (List.mem_cons_of_mem _
                (List.mem_cons_of_mem _ hrest.2.1)))

/-- The memory projection is silent. -/
theorem silent_of_captureMemoryProjection {memoryRoot : String} {response : SealedRestResponse}
    (hcapture : Execution (captureMemoryProjection parse memoryRoot) trace (.ok response))
    (htrusted : Trusted parse sha256 rawPayloads trace) :
    SilentReference parse sha256 rawPayloads response.rawReference := by
  obtain ⟨exit, rest, rfl, hrest⟩ := execution_ask.mp hcapture
  obtain ⟨⟨hsealed, -⟩, -⟩ := trusted_cons.mp htrusted
  split at hrest
  · next found hfound =>
    split at hrest
    · cases (execution_fail.mp hrest).2
    · next hparse =>
      cases (execution_pure.mp hrest).2
      exact ⟨_, stored_of_notFound hsealed hfound, silent_of_parseNotFound hparse⟩
  · obtain ⟨found, hexit, hclean⟩ := execution_ofExcept_bind_ok hrest
    obtain ⟨result, hresult, hitems⟩ := execution_ofExcept_bind_ok hclean
    rw [exitOutcome_eq_ok hexit] at hsealed
    obtain ⟨document, hparse, -, -, hdocument⟩ := document_of_cleanResult hresult
    split at hitems
    · dsimp only at hitems
      split_ifs at hitems
      · cases (execution_pure.mp hitems).2
        refine ⟨_, hsealed.1, silent_of_document hparse ?_⟩
        rw [hdocument]
        rfl
      · cases (execution_fail.mp hitems).2
    · cases (execution_fail.mp hitems).2

/-- What the evidence of an ingested session tells: a commit and a task that are its own, and nothing
else. -/
structure Told (parse : Bytes → Option Json) (sha256 : Bytes → String)
    (rawPayloads : String → Option Bytes) (sessionId : String) (trace : Trace)
    (completed : CompletedSession) (terminal : SealedRestResponse) : Prop where
  commit : ∃ reference ∈ completed.evidenceReferences, ∃ content,
    Stored sha256 rawPayloads reference content ∧
      ShowsCommit parse sessionId completed.taskId completed.archiveUri content
  answered : ∃ remaining,
    ⟨.request (taskCall completed.taskId remaining), Exit.returned terminal⟩ ∈ trace
  kept : terminal.rawReference ∈ completed.evidenceReferences
  stored : Stored sha256 rawPayloads terminal.rawReference terminal.rawBytes
  task : ShowsTask parse sessionId completed.taskId completed.archiveUri terminal.rawBytes
  others : ∀ reference ∈ completed.evidenceReferences, reference ≠ terminal.rawReference →
    SilentReference parse sha256 rawPayloads reference ∨ ∃ content,
      Stored sha256 rawPayloads reference content ∧
        ShowsCommit parse sessionId completed.taskId completed.archiveUri content

theorem told_of_ingestSession {settings : Settings} {session : SessionIngestion}
    {completed : CompletedSession} (hfresh : session.failedEvidenceReferences = none)
    (hingest : Execution (ingestSession parse settings session) trace (.ok completed))
    (htrusted : Trusted parse sha256 rawPayloads trace) :
    ∃ terminal, Told parse sha256 rawPayloads session.sessionId trace completed terminal := by
  obtain ⟨commit, first, rest, rfl, hfirst, hrest⟩ := execution_bind_ok hingest
  obtain ⟨hfirsts, hrests⟩ := trusted_append.mp htrusted
  obtain ⟨opened, last, content, hopened, hsilent, hstored, hcommit⟩ :=
    shown_of_commitSession hfresh hfirst hfirsts
  obtain ⟨start, polling, rfl, hpolling⟩ := execution_readClock_bind.mp hrest
  obtain ⟨⟨final, polled⟩, second, later, rfl, hsecond, hlater⟩ := execution_bind_ok hpolling
  obtain ⟨hseconds, hlaters⟩ := trusted_append.mp (trusted_cons.mp hrests).2
  obtain ⟨active, terminal, remaining, rfl, hactive, hterminal, hmem, htask⟩ :=
    shown_of_pollTerminalTask hsecond hseconds
  obtain ⟨-, -, harchiving⟩ := execution_ofExcept_bind_ok hlater
  obtain ⟨archive, third, projecting, rfl, hthird, hprojecting⟩ := execution_bind_ok harchiving
  obtain ⟨hthirds, hprojectings⟩ := trusted_append.mp hlaters
  obtain ⟨result, -, hchecked⟩ := execution_ofExcept_bind_ok hprojecting
  split_ifs at hchecked
  · obtain ⟨projection, fourth, done, rfl, hfourth, hdone⟩ := execution_bind_ok hchecked
    cases (execution_pure.mp hdone).2
    have harchive := silent_of_send hthird hthirds
      (fun _ hsame ↦ Bool.noConfusion (congrArg RestCall.writeIntent hsame)) (ne_taskCall rfl)
    have hprojection := silent_of_captureMemoryProjection hfourth
      (trusted_append.mp hprojectings).1
    refine ⟨terminal, ⟨last, ?_, content, hstored, hcommit⟩, ⟨remaining, ?_⟩, ?_, hterminal, htask,
      fun reference hreference hother ↦ ?_⟩
    · simp only [hopened, List.mem_append, List.mem_singleton, true_or, or_true]
    · exact List.mem_append_right _ (List.mem_cons_of_mem _ (List.mem_append_left _ hmem))
    · simp only [List.mem_append, List.mem_singleton, true_or, or_true]
    · simp only [hopened, List.nil_append, List.mem_append, List.mem_singleton, List.mem_pair,
        hother, or_false] at hreference
      rcases hreference with ((hreference | rfl) | hreference) | rfl | rfl
      · exact Or.inl (hsilent reference hreference)
      · exact Or.inr ⟨content, hstored, hcommit⟩
      · exact Or.inl (hactive reference hreference)
      · exact Or.inl harchive.1
      · exact Or.inl hprojection
  · cases (execution_fail.mp hchecked).2

end Parts

end Oamb.Artifacts.OpenVikingTraces
