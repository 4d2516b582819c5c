import Oamb.MemorySystems.OpenVikingIngest

/-!
# A commit that still runs is reported as unknown, but for the reads that fail

`Settles` says of an ingestion after its commit was accepted how it may end: as long as no terminal
state of the task was observed, with an unknown outcome; with a settled failure only after the task
was observed as failed, and with success only after it was observed as completed. A read of the task
that ends with an error other than a timeout is raised as it is, so this holds of an ingestion
exactly when no such error comes before the first terminal state (`settles_iff`). A cancellation of
the ingestion itself is counted as an unknown outcome or not.
-/

set_option autoImplicit false

namespace Oamb.MemorySystems.OpenVikingGuarantees

open Foundation Foundation.Dialogue
open RestClient OpenVikingIngest

/-- What an ingestion asked and was told. -/
abbrev Trace := List (Exchange Query Answer)

/-! ### Queries of an ingestion -/

section Queries

variable {α : Type} {trace : Trace} {outcome : Except IngestError α}

theorem execution_readClock_bind {next : ℚ → Ingest α} :
    Execution (readClock >>= next) trace outcome ↔
      ∃ now rest, trace = ⟨.clock, now⟩ :: rest ∧ Execution (next now) rest outcome :=
  execution_ask

theorem execution_sleepFor_bind {seconds : ℚ} {next : SleepOutcome → Ingest α} :
    Execution (sleepFor seconds >>= next) trace outcome ↔
      ∃ result rest, trace = ⟨.sleep seconds, result⟩ :: rest ∧
        Execution (next result) rest outcome :=
  execution_ask

end Queries

/-! ### What is observed of a task -/

section Observations

variable (counted : Bool) (parse : Bytes → Option Json) (taskId sessionId : String)

/-- The state of the task that the end of a request shows. -/
def observedStatus : Exit → Option String
  | .returned response =>
    match taskResult parse taskId sessionId response with
    | .error _ => none
    | .ok result => (result.get "status").asText
  | _ => none

/-- The states of a task that ended. -/
def terminalTaskStatuses : List String := "completed" :: terminalFailureTaskStatuses

/-- The exchange is a read of the task that shows a state of it. -/
def Shows (status : String) : Exchange Query Answer → Prop
  | ⟨.request call, exit⟩ => (∃ remaining, call = taskCall taskId remaining) ∧
    observedStatus parse taskId sessionId exit = some status
  | _ => False

theorem not_terminal_of_active :
    ∀ status ∈ activeTaskStatuses, status ∉ terminalTaskStatuses := by
  decide

/-- A state of the task was observed. -/
def Observed (trace : Trace) (status : String) : Prop :=
  ∃ exchange ∈ trace, Shows parse taskId sessionId status exchange

/-- A terminal state of the task was observed. -/
def TerminalObserved (trace : Trace) : Prop :=
  ∃ status ∈ terminalTaskStatuses, Observed parse taskId sessionId trace status

/-- An outcome that is not known. That of a cancelled read is one where cancellations are counted. -/
def UnknownOutcome : Exit → Prop
  | .unknownOutcome _ _ | .cancelledUnknownOutcome _ => True
  | .readCancelled _ => counted = true
  | _ => False

/-- An error with an outcome that is not known. -/
def UnknownError : IngestError → Prop
  | .call exit => UnknownOutcome counted exit
  | .cancelled => counted = true
  | _ => False

/-- How an ingestion may end after its commit was accepted. -/
structure Settles (trace : Trace) (outcome : Except IngestError CompletedSession) : Prop where
  unknown : ¬ TerminalObserved parse taskId sessionId trace →
    ∃ error, outcome = .error error ∧ UnknownError counted error
  settled : ∀ failure, outcome = .error (.settled failure) →
    Observed parse taskId sessionId trace "failed"
  completed : ∀ session, outcome = .ok session → Observed parse taskId sessionId trace "completed"
  failed : ∀ failure, outcome = .error (.call (.callFailure failure)) →
    TerminalObserved parse taskId sessionId trace

/-- The read timed out. -/
def TimedOut : Exit → Prop
  | .callFailure failure => failure.failureKind = "timeout"
  | exit => UnknownOutcome counted exit

/-- A poll was told a state of its task, or timed out; a sleep ended, or cancellations are counted. -/
def Expected : Exchange Query Answer → Prop
  | ⟨.request _, exit⟩ => TimedOut counted exit ∨
    ∃ status ∈ terminalTaskStatuses ++ activeTaskStatuses,
      observedStatus parse taskId sessionId exit = some status
  | ⟨.clock, _⟩ => True
  | ⟨.sleep _, outcome⟩ => counted = true ∨ outcome = SleepOutcome.slept

/-- Until a terminal state was observed, everything was as expected. -/
def Undisturbed (trace : Trace) : Prop :=
  ∀ first exchange second, trace = first ++ exchange :: second →
    ¬ TerminalObserved parse taskId sessionId first →
      Expected counted parse taskId sessionId exchange

variable {counted parse taskId sessionId} {exchange : Exchange Query Answer}
  {trace first second : Trace} {status : String}

theorem observed_append : Observed parse taskId sessionId (first ++ second) status ↔
    Observed parse taskId sessionId first status ∨
      Observed parse taskId sessionId second status := by
  simp only [Observed, List.mem_append, or_and_right, exists_or]

theorem terminalObserved_append : TerminalObserved parse taskId sessionId (first ++ second) ↔
    TerminalObserved parse taskId sessionId first ∨
      TerminalObserved parse taskId sessionId second := by
  simp only [TerminalObserved, observed_append, and_or_left, exists_or]

theorem Observed.terminal (hobserved : Observed parse taskId sessionId trace status)
    (hterminal : status ∈ terminalTaskStatuses) : TerminalObserved parse taskId sessionId trace :=
  ⟨status, hterminal, hobserved⟩

theorem not_terminalObserved_nil : ¬ TerminalObserved parse taskId sessionId [] := by
  rintro ⟨status, -, exchange, hmem, -⟩
  cases hmem

theorem undisturbed_nil : Undisturbed counted parse taskId sessionId [] := by
  intro first exchange second htrace
  cases List.append_ne_nil_of_right_ne_nil first (List.cons_ne_nil exchange second) htrace.symm

/-- Nothing is expected of what comes after a terminal state. -/
theorem undisturbed_cons : Undisturbed counted parse taskId sessionId (exchange :: trace) ↔
    Expected counted parse taskId sessionId exchange ∧
      (¬ TerminalObserved parse taskId sessionId [exchange] →
        Undisturbed counted parse taskId sessionId trace) := by
  constructor
  · intro hall
    refine ⟨hall [] exchange trace rfl not_terminalObserved_nil, ?_⟩
    rintro hquiet first other second rfl hfirst
    refine hall (exchange :: first) other second rfl ?_
    rw [← List.singleton_append, terminalObserved_append]
    exact not_or.mpr ⟨hquiet, hfirst⟩
  · rintro ⟨hexpected, hrest⟩ first other second htrace hfirst
    cases first with
    | nil =>
      obtain ⟨rfl, rfl⟩ := List.cons.inj htrace
      exact hexpected
    | cons head tail =>
      obtain ⟨rfl, rfl⟩ := List.cons.inj htrace
      rw [← List.singleton_append, terminalObserved_append, not_or] at hfirst
      exact hrest hfirst.1 tail other second rfl hfirst.2

theorem Undisturbed.append (hfirst : Undisturbed counted parse taskId sessionId first)
    (hterminal : TerminalObserved parse taskId sessionId first) :
    Undisturbed counted parse taskId sessionId (first ++ second) := by
  induction first with
  | nil => exact absurd hterminal not_terminalObserved_nil
  | cons exchange rest ih =>
    rw [undisturbed_cons] at hfirst
    rw [List.cons_append, undisturbed_cons]
    refine ⟨hfirst.1, fun hquiet ↦ ih (hfirst.2 hquiet) ?_⟩
    rw [← List.singleton_append, terminalObserved_append] at hterminal
    exact hterminal.resolve_left hquiet

end Observations

/-! ### One read of the task -/

section Reads

variable {counted : Bool} {parse : Bytes → Option Json} {settings : Settings}
  {sessionId : String} {commit : Commit}
  {references : List String} {exit : Exit} {error : IngestError}

/-- A failure of a call, or an error of the profile. -/
def Plain : IngestError → Prop
  | .call (.callFailure _) | .valueError _ => True
  | _ => False

theorem Plain.not_unknown (hplain : Plain error) : ¬ UnknownError counted error := by
  cases error with
  | call exit =>
    cases exit with
    | callFailure failure => exact id
    | _ => exact hplain.elim
  | valueError message => exact id
  | settled failure => exact id
  | cancelled => exact hplain.elim

theorem Plain.ne_settled (hplain : Plain error) (failure : SettledFailure) :
    error ≠ .settled failure := by
  rintro rfl
  exact hplain

theorem plain_of_cleanResult {response : SealedRestResponse} {label : String}
    (herror : cleanResult parse response label = .error error) : Plain error := by
  unfold cleanResult at herror
  split at herror
  · cases herror
  · cases herror
    trivial

theorem plain_of_taskResult {taskId : String} {response : SealedRestResponse}
    (herror : taskResult parse taskId sessionId response = .error error) : Plain error := by
  unfold taskResult at herror
  split at herror
  · next hclean =>
    cases herror
    exact plain_of_cleanResult hclean
  · split_ifs at herror
    · cases herror
      trivial
    · cases herror
      trivial

/-- The result that a response about a task shows is that of its document. -/
theorem document_of_taskResult {taskId : String} {response : SealedRestResponse} {result : Json}
    (hresult : taskResult parse taskId sessionId response = .ok result) :
    ∃ document, (parse response.rawBytes).filter (fun document ↦ document.exact) = some document ∧
      result = document.get "result" := by
  unfold taskResult at hresult
  split at hresult
  · cases hresult
  · next value hclean =>
    have hsame : value = result := by
      split_ifs at hresult
      exact Except.ok.inj hresult
    subst hsame
    unfold cleanResult at hclean
    split at hclean
    · next found hfound =>
      cases hclean
      obtain ⟨document, hexact, hdocument⟩ := Option.bind_eq_some_iff.mp hfound
      obtain ⟨hparse, hforms⟩ := Option.filter_eq_some_iff.mp hexact
      rw [Bool.and_eq_true] at hforms
      refine ⟨document, Option.filter_eq_some_iff.mpr ⟨hparse, hforms.1⟩, ?_⟩
      unfold cleanDocument at hdocument
      split_ifs at hdocument
      exact (Option.some.inj hdocument).symm
    · cases hclean

theorem asText_of_isText {value : Json} {text : String} (htext : value.isText text = true) :
    value.asText = some text :=
  of_decide_eq_true htext

/-- A failure that is classified as settled is that of a task that failed. -/
theorem failed_of_classify {taskId kind : String} {response : SealedRestResponse}
    {retries : Option ℕ} {result : Json}
    (hresult : taskResult parse taskId sessionId response = .ok result)
    (hkind : classifySettledIngestionFailure parse response retries taskId sessionId = some kind) :
    (result.get "status").asText = some "failed" := by
  obtain ⟨document, hdocument, rfl⟩ := document_of_taskResult hresult
  unfold classifySettledIngestionFailure at hkind
  split_ifs at hkind with hunfit
  rw [hdocument] at hkind
  dsimp only at hkind
  split_ifs at hkind with hfailed
  exact asText_of_isText hfailed.2.2.2.2.2.2.2.2.2.2.1

section Statuses

variable {response : SealedRestResponse} {result : Json}

/-- A poll goes on when the task runs. -/
theorem active_of_pollStatus
    (hpoll : pollStatus parse settings sessionId commit references response result = .ok none) :
    ∃ status ∈ activeTaskStatuses, (result.get "status").asText = some status := by
  unfold pollStatus at hpoll
  split at hpoll
  · cases hpoll
  · next status hstatus =>
    dsimp only at hpoll
    split_ifs at hpoll with hcompleted hbound hterminal hactive
    · cases hpoll
    · exact ⟨status, hactive, hstatus⟩

/-- A poll comes to a value when the task completed. -/
theorem completed_of_pollStatus {terminal : Json}
    (hpoll : pollStatus parse settings sessionId commit references response result =
      .ok (some terminal)) : (result.get "status").asText = some "completed" := by
  unfold pollStatus at hpoll
  split at hpoll
  · cases hpoll
  · next status hstatus =>
    dsimp only at hpoll
    split_ifs at hpoll with hcompleted hbound hterminal hactive
    · rw [hstatus, hcompleted]
    · cases hpoll

/-- An error of a poll is plain, or the task ended. -/
theorem plain_of_pollStatus
    (hpoll : pollStatus parse settings sessionId commit references response result = .error error)
    (hopen : ∀ status ∈ terminalTaskStatuses, (result.get "status").asText ≠ some status) :
    Plain error ∧ ∀ status ∈ activeTaskStatuses, (result.get "status").asText ≠ some status := by
  unfold pollStatus at hpoll
  split at hpoll
  · next hnone =>
    cases hpoll
    refine ⟨trivial, fun status _ hstatus ↦ ?_⟩
    rw [hnone] at hstatus
    cases hstatus
  · next status hstatus =>
    dsimp only at hpoll
    split_ifs at hpoll with hcompleted hbound hterminal hactive
    · exact absurd (hcompleted ▸ hstatus) (hopen "completed" List.mem_cons_self)
    · exact absurd hstatus (hopen status (List.mem_cons_of_mem _ hterminal))
    · cases hpoll
      refine ⟨trivial, fun other hother hsame ↦ ?_⟩
      rw [hstatus] at hsame
      exact hactive (Option.some.inj hsame ▸ hother)

/-- A settled failure of a poll is that of a task that failed. -/
theorem failed_of_pollStatus {failure : SettledFailure}
    (hresult : taskResult parse commit.taskId sessionId response = .ok result)
    (hpoll : pollStatus parse settings sessionId commit references response result =
      .error (.settled failure)) : (result.get "status").asText = some "failed" := by
  unfold pollStatus at hpoll
  split at hpoll
  · cases hpoll
  · next status hstatus =>
    dsimp only at hpoll
    split_ifs at hpoll with hcompleted hbound hterminal hactive
    · cases hpoll
    · unfold taskFailure at hpoll
      split at hpoll
      · next hkind hretries => exact failed_of_classify hresult hkind
      · cases hpoll
    · cases hpoll

end Statuses

theorem observedStatus_eq {response : SealedRestResponse} {result : Json} {taskId : String}
    (hresult : taskResult parse taskId sessionId response = .ok result) :
    observedStatus parse taskId sessionId (.returned response) = (result.get "status").asText := by
  rw [observedStatus, hresult]

/-- A poll that comes to a value read a state of the task. -/
theorem observedStatus_of_readTask {terminal : Option Json} {reference : String}
    (hread : readTask parse settings sessionId commit references exit = .ok (terminal, reference)) :
    ∃ status, observedStatus parse commit.taskId sessionId exit = some status ∧
      (terminal = none → status ∈ activeTaskStatuses) ∧
      ∀ value, terminal = some value → status = "completed" := by
  unfold readTask at hread
  split at hread
  · split_ifs at hread
  · next response =>
    split at hread
    · cases hread
    · next result hresult =>
      rw [observedStatus_eq hresult]
      split at hread
      · cases hread
      · next found hpoll =>
        cases hread
        cases terminal with
        | none =>
          obtain ⟨status, hactive, hstatus⟩ := active_of_pollStatus hpoll
          exact ⟨status, hstatus, fun _ ↦ hactive, fun _ hvalue ↦ nomatch hvalue⟩
        | some value =>
          refine ⟨"completed", completed_of_pollStatus hpoll, fun hnone ↦ ?_, fun _ _ ↦ rfl⟩
          cases hnone
  · cases hread

/-- A poll that settles its task as failed read that it failed. -/
theorem observedStatus_of_settled {failure : SettledFailure}
    (hread : readTask parse settings sessionId commit references exit =
      .error (.settled failure)) :
    observedStatus parse commit.taskId sessionId exit = some "failed" := by
  unfold readTask at hread
  split at hread
  · split_ifs at hread
    · cases hread
    · cases hread
  · next response =>
    split at hread
    · next herror =>
      cases hread
      exact absurd rfl ((plain_of_taskResult herror).ne_settled failure)
    · next result hresult =>
      split at hread
      · next hpoll =>
        cases hread
        rw [observedStatus_eq hresult]
        exact failed_of_pollStatus hresult hpoll
      · cases hread
  · cases hread

/-- As long as no terminal state is observed, a poll is raised as unknown exactly when it was
expected. -/
theorem unknownError_iff (hread : readTask parse settings sessionId commit references exit =
      .error error)
    (hopen : ∀ status ∈ terminalTaskStatuses,
      observedStatus parse commit.taskId sessionId exit ≠ some status) :
    UnknownError counted error ↔ TimedOut counted exit ∨
      ∃ status ∈ terminalTaskStatuses ++ activeTaskStatuses,
        observedStatus parse commit.taskId sessionId exit = some status := by
  have hactive : (∀ status ∈ activeTaskStatuses,
      observedStatus parse commit.taskId sessionId exit ≠ some status) →
      ¬ ∃ status ∈ terminalTaskStatuses ++ activeTaskStatuses,
        observedStatus parse commit.taskId sessionId exit = some status := by
    rintro hinactive ⟨status, hstatus, hobserved⟩
    rcases List.mem_append.mp hstatus with hterminal | hrunning
    · exact hopen status hterminal hobserved
    · exact hinactive status hrunning hobserved
  unfold readTask at hread
  split at hread
  · next failure =>
    have hnone := hactive fun status _ hstatus ↦ by cases hstatus
    split_ifs at hread with hkind
    · cases hread
      exact iff_of_false id (not_or.mpr ⟨hkind, hnone⟩)
    · cases hread
      exact iff_of_true trivial (Or.inl (not_not.mp hkind))
  · next response =>
    split at hread
    · next herror =>
      cases hread
      refine iff_of_false (plain_of_taskResult herror).not_unknown (not_or.mpr ⟨id, hactive ?_⟩)
      intro status _ hstatus
      rw [observedStatus, herror] at hstatus
      cases hstatus
    · next result hresult =>
      split at hread
      · next hpoll =>
        cases hread
        rw [observedStatus_eq hresult] at hopen hactive ⊢
        obtain ⟨hplain, hinactive⟩ := plain_of_pollStatus hpoll hopen
        exact iff_of_false hplain.not_unknown (not_or.mpr ⟨id, hactive hinactive⟩)
      · cases hread
  · next hnotfailure hnotreturned =>
    cases hread
    have hnone : ∀ status, observedStatus parse commit.taskId sessionId exit ≠ some status := by
      intro status hstatus
      unfold observedStatus at hstatus
      split at hstatus
      · exact hnotreturned _ rfl
      · cases hstatus
    have htimed : TimedOut counted exit ↔ UnknownOutcome counted exit := by
      unfold TimedOut
      split
      · exact absurd rfl (hnotfailure _)
      · exact Iff.rfl
    rw [htimed]
    exact (or_iff_left (hactive fun status _ ↦ hnone status)).symm

end Reads

/-! ### The polls of a task -/

section Polls

variable {counted : Bool} {parse : Bytes → Option Json} {settings : Settings}
  {sessionId : String} {commit : Commit}
  {references : List String} {trace : Trace}

/-- What holds of the polls of a task that come to some outcome. -/
structure Polled {α : Type} (counted : Bool) (parse : Bytes → Option Json)
    (taskId sessionId : String) (trace : Trace) (outcome : Except IngestError α) : Prop where
  undisturbed : TerminalObserved parse taskId sessionId trace →
    Undisturbed counted parse taskId sessionId trace
  unknown_iff : ¬ TerminalObserved parse taskId sessionId trace →
    (Undisturbed counted parse taskId sessionId trace ↔
      ∃ error, outcome = .error error ∧ UnknownError counted error)
  settled : ∀ failure, outcome = .error (.settled failure) →
    Observed parse taskId sessionId trace "failed"
  completed : ∀ value, outcome = .ok value → Observed parse taskId sessionId trace "completed"

variable {α : Type} {outcome : Except IngestError α} {taskId : String}
  {exchange : Exchange Query Answer}

/-- Before the polls, something was as expected and no terminal state was observed. -/
theorem Polled.cons (hpolled : Polled counted parse taskId sessionId trace outcome)
    (hexpected : Expected counted parse taskId sessionId exchange)
    (hquiet : ¬ TerminalObserved parse taskId sessionId [exchange]) :
    Polled counted parse taskId sessionId (exchange :: trace) outcome := by
  have hlater : ∀ status, Observed parse taskId sessionId trace status →
      Observed parse taskId sessionId (exchange :: trace) status := by
    rintro status ⟨other, hmem, hshows⟩
    exact ⟨other, List.mem_cons_of_mem exchange hmem, hshows⟩
  have hterminal : TerminalObserved parse taskId sessionId (exchange :: trace) ↔
      TerminalObserved parse taskId sessionId trace := by
    rw [← List.singleton_append, terminalObserved_append]
    exact or_iff_right hquiet
  have hundisturbed : Undisturbed counted parse taskId sessionId (exchange :: trace) ↔
      Undisturbed counted parse taskId sessionId trace := by
    rw [undisturbed_cons]
    exact ⟨fun hall ↦ hall.2 hquiet, fun hrest ↦ ⟨hexpected, fun _ ↦ hrest⟩⟩
  refine ⟨fun hobserved ↦ hundisturbed.mpr (hpolled.undisturbed (hterminal.mp hobserved)),
    fun hopen ↦ ?_, fun failure hfailure ↦ hlater _ (hpolled.settled failure hfailure),
    fun value hvalue ↦ hlater _ (hpolled.completed value hvalue)⟩
  rw [hundisturbed]
  exact hpolled.unknown_iff (mt hterminal.mpr hopen)

/-- The polls end without another exchange. -/
theorem polled_taskTimeout : Polled counted parse taskId sessionId []
    (.error taskTimeout : Except IngestError α) :=
  ⟨fun _ ↦ undisturbed_nil, fun _ ↦ iff_of_true undisturbed_nil ⟨taskTimeout, rfl, trivial⟩,
    (fun _ hfailure ↦ nomatch hfailure), fun _ hvalue ↦ nomatch hvalue⟩

/-- The polls end with an exchange that shows nothing. -/
theorem polled_of_quiet {error : IngestError} (hunsettled : ∀ failure, error ≠ .settled failure)
    (hexpected : Expected counted parse taskId sessionId exchange ↔ UnknownError counted error)
    (hquiet : ¬ TerminalObserved parse taskId sessionId [exchange]) :
    Polled counted parse taskId sessionId [exchange] (.error error : Except IngestError α) := by
  refine ⟨fun hobserved ↦ absurd hobserved hquiet, fun _ ↦ ?_, fun failure hfailure ↦ ?_,
    fun _ hvalue ↦ nomatch hvalue⟩
  · rw [undisturbed_cons, hexpected, and_iff_left fun _ ↦ undisturbed_nil]
    simp only [Except.error.injEq, exists_eq_left']
  · exact absurd (Except.error.inj hfailure) (hunsettled failure)

theorem not_terminalObserved_singleton
    (hshows : ∀ status ∈ terminalTaskStatuses, ¬ Shows parse taskId sessionId status exchange) :
    ¬ TerminalObserved parse taskId sessionId [exchange] := by
  rintro ⟨status, hterminal, other, hmem, hother⟩
  rw [List.mem_singleton] at hmem
  subst hmem
  exact hshows status hterminal hother

variable {remaining : ℚ} {exit : Exit}

/-- A read of the task with what the poll makes of its end. -/
theorem shows_taskCall {status : String} : Shows parse taskId sessionId status
    ⟨.request (taskCall taskId remaining), exit⟩ ↔
      observedStatus parse taskId sessionId exit = some status :=
  ⟨fun hshows ↦ hshows.2, fun hstatus ↦ ⟨⟨remaining, rfl⟩, hstatus⟩⟩

theorem terminalObserved_taskCall : TerminalObserved parse taskId sessionId
    [⟨.request (taskCall taskId remaining), exit⟩] ↔
      ∃ status ∈ terminalTaskStatuses,
        observedStatus parse taskId sessionId exit = some status := by
  simp only [TerminalObserved, Observed, List.mem_singleton, exists_eq_left, shows_taskCall]

theorem observed_taskCall {status : String} : Observed parse taskId sessionId
    [⟨.request (taskCall taskId remaining), exit⟩] status ↔
      observedStatus parse taskId sessionId exit = some status := by
  simp only [Observed, List.mem_singleton, exists_eq_left, shows_taskCall]

/-- The polls end with a read of the task. -/
theorem polled_of_error {error : IngestError}
    (hread : readTask parse settings sessionId commit references exit = .error error) :
    Polled counted parse commit.taskId sessionId
      [⟨.request (taskCall commit.taskId remaining), exit⟩]
      (.error error : Except IngestError α) := by
  refine ⟨fun hobserved ↦ ?_, fun hopen ↦ ?_, fun failure hfailure ↦ ?_,
    fun _ hvalue ↦ nomatch hvalue⟩
  · obtain ⟨status, hterminal, hstatus⟩ := terminalObserved_taskCall.mp hobserved
    refine undisturbed_cons.mpr ⟨Or.inr ⟨status, List.mem_append_left _ hterminal, hstatus⟩,
      fun _ ↦ undisturbed_nil⟩
  · rw [terminalObserved_taskCall] at hopen
    have hiff : UnknownError counted error ↔ _ := unknownError_iff hread
      fun status hterminal hstatus ↦ hopen ⟨status, hterminal, hstatus⟩
    rw [undisturbed_cons]
    constructor
    · rintro ⟨hexpected, -⟩
      exact ⟨error, rfl, hiff.mpr hexpected⟩
    · rintro ⟨other, hsame, hunknown⟩
      cases hsame
      exact ⟨hiff.mp hunknown, fun _ ↦ undisturbed_nil⟩
  · rw [observed_taskCall]
    cases hfailure
    exact observedStatus_of_settled hread

/-- The polls come to the result of the task. -/
theorem polled_of_completed {terminal : Json} {reference : String} {value : α}
    (hread : readTask parse settings sessionId commit references exit =
      .ok (some terminal, reference)) :
    Polled counted parse commit.taskId sessionId
      [⟨.request (taskCall commit.taskId remaining), exit⟩]
      (.ok value : Except IngestError α) := by
  obtain ⟨status, hstatus, -, hcompleted⟩ := observedStatus_of_readTask hread
  obtain rfl : status = "completed" := hcompleted terminal rfl
  have hmem : "completed" ∈ terminalTaskStatuses := List.mem_cons_self
  refine ⟨fun _ ↦ ?_, fun hopen ↦ absurd ?_ hopen, (fun _ hfailure ↦ nomatch hfailure),
    fun _ _ ↦ observed_taskCall.mpr hstatus⟩
  · exact undisturbed_cons.mpr ⟨Or.inr ⟨"completed", List.mem_append_left _ hmem, hstatus⟩,
      fun _ ↦ undisturbed_nil⟩
  · exact terminalObserved_taskCall.mpr ⟨"completed", hmem, hstatus⟩

/-- The polls of a task hold what is said of them. -/
theorem polled_of_execution {deadline : ℚ} {polls : ℕ}
    {outcome : Except IngestError (Json × List String)}
    (hpolls : Execution (pollTerminalTask parse settings sessionId commit deadline polls references)
      trace outcome) : Polled counted parse commit.taskId sessionId trace outcome := by
  induction polls generalizing references trace with
  | zero =>
    obtain ⟨rfl, rfl⟩ := execution_fail.mp hpolls
    exact polled_taskTimeout
  | succ polls ih =>
    obtain ⟨before, rest, rfl, hrest⟩ := execution_readClock_bind.mp hpolls
    refine Polled.cons ?_ trivial (not_terminalObserved_singleton fun _ _ hshows ↦ hshows)
    split_ifs at hrest with hlate
    · obtain ⟨rfl, rfl⟩ := execution_fail.mp hrest
      exact polled_taskTimeout
    · obtain ⟨exit, later, rfl, hlater⟩ := execution_ask.mp hrest
      split at hlater
      · next error hread =>
        obtain ⟨rfl, rfl⟩ := execution_fail.mp hlater
        exact polled_of_error hread
      · next terminal reference hread =>
        obtain ⟨rfl, rfl⟩ := execution_pure.mp hlater
        exact polled_of_completed hread
      · next reference hread =>
        obtain ⟨status, hstatus, hactive, -⟩ := observedStatus_of_readTask hread
        refine Polled.cons ?_ (Or.inr ⟨status, List.mem_append_right _ (hactive rfl), hstatus⟩) ?_
        · obtain ⟨after, final, rfl, hfinal⟩ := execution_readClock_bind.mp hlater
          refine Polled.cons ?_ trivial (not_terminalObserved_singleton fun _ _ hshows ↦ hshows)
          split_ifs at hfinal with hover
          · obtain ⟨rfl, rfl⟩ := execution_fail.mp hfinal
            exact polled_taskTimeout
          · obtain ⟨result, remainder, rfl, hremainder⟩ := execution_sleepFor_bind.mp hfinal
            have hquiet : ∀ seconds : ℚ, ¬ TerminalObserved parse commit.taskId sessionId
                [⟨Query.sleep seconds, result⟩] :=
              fun seconds ↦ not_terminalObserved_singleton fun _ _ hshows ↦ hshows
            cases result with
            | cancelled =>
              obtain ⟨rfl, rfl⟩ := execution_fail.mp hremainder
              refine polled_of_quiet (fun failure hsame ↦ nomatch hsame) ?_ (hquiet _)
              exact or_iff_left fun hslept ↦ nomatch hslept
            | slept => exact Polled.cons (ih hremainder) (Or.inr rfl) (hquiet _)
        · intro hobserved
          obtain ⟨other, hterminal, hother⟩ := terminalObserved_taskCall.mp hobserved
          rw [hstatus] at hother
          exact not_terminal_of_active status (hactive rfl) (Option.some.inj hother ▸ hterminal)

end Polls

/-! ### After the task -/

section Settlement

variable {counted : Bool} {parse : Bytes → Option Json} {settings : Settings}
  {session : SessionIngestion}
  {commit : Commit} {trace : Trace} {error : IngestError}

theorem plain_of_requireUsageSnapshot {result : Json}
    (herror : requireUsageSnapshot result = .error error) : Plain error := by
  unfold requireUsageSnapshot at herror
  dsimp only at herror
  split_ifs at herror
  cases herror
  trivial

theorem plain_of_parseNotFound {content : Bytes} {expectedResource expectedType : String}
    (herror : parseNotFound parse content expectedResource expectedType = .error error) :
    Plain error := by
  unfold parseNotFound at herror
  split at herror
  · cases herror
    trivial
  · dsimp only at herror
    split_ifs at herror
    cases herror
    trivial

/-- The error is not a settled failure. -/
def Unsettled (error : IngestError) : Prop := ∀ failure, error ≠ .settled failure

theorem unsettled_of_exitOutcome {exit : Exit} (herror : exitOutcome exit = .error error) :
    Unsettled error := by
  intro failure
  unfold exitOutcome at herror
  split at herror
  · cases herror
  · cases herror
    exact fun hsame ↦ nomatch hsame

theorem raises_send (call : RestCall) : Raises Unsettled (send call) :=
  raises_ask fun _ _ _ herror ↦
    unsettled_of_exitOutcome (execution_done.mp herror).2.symm

theorem raises_captureMemoryProjection (memoryRoot : String) :
    Raises Unsettled (captureMemoryProjection parse memoryRoot) := by
  refine raises_ask fun exit ↦ ?_
  split
  · split
    · next herror => exact raises_fail (plain_of_parseNotFound herror).ne_settled
    · exact raises_pure
  · refine raises_bind (raises_ofExcept fun error ↦ unsettled_of_exitOutcome) fun response ↦ ?_
    refine raises_bind (raises_ofExcept fun error herror ↦ (plain_of_cleanResult herror).ne_settled)
      fun result ↦ ?_
    split
    · dsimp only
      split_ifs
      · exact raises_pure
      · exact raises_fail fun failure ↦ by simp
    · exact raises_fail fun failure ↦ by simp

/-- What comes after the task does not settle it as failed. -/
theorem raises_closeSession (terminal : Json) (polled : List String) :
    Raises Unsettled (closeSession parse session commit terminal polled) := by
  refine raises_bind (raises_ofExcept fun error herror ↦
    (plain_of_requireUsageSnapshot herror).ne_settled) fun _ ↦ ?_
  refine raises_bind (raises_send _) fun archive ↦ ?_
  refine raises_bind (raises_ofExcept fun error herror ↦ (plain_of_cleanResult herror).ne_settled)
    fun result ↦ ?_
  split_ifs
  · exact raises_bind (raises_captureMemoryProjection _) fun _ ↦ raises_pure
  · exact raises_fail fun failure ↦ by simp

/-- An ingestion settles as it may exactly when it was undisturbed until a terminal state of its
task was observed. -/
theorem settles_iff_of_polled {outcome : Except IngestError CompletedSession}
    {taskId sessionId : String} (hpolled : Polled counted parse taskId sessionId trace outcome) :
    Settles counted parse taskId sessionId trace outcome ↔
      Undisturbed counted parse taskId sessionId trace := by
  by_cases hterminal : TerminalObserved parse taskId sessionId trace
  · exact iff_of_true ⟨fun hopen ↦ absurd hterminal hopen, hpolled.settled, hpolled.completed,
      fun _ _ ↦ hterminal⟩ (hpolled.undisturbed hterminal)
  · rw [hpolled.unknown_iff hterminal]
    refine ⟨fun hsettles ↦ hsettles.unknown hterminal, fun hunknown ↦ ⟨fun _ ↦ hunknown,
      hpolled.settled, hpolled.completed, ?_⟩⟩
    rintro failure rfl
    obtain ⟨error, hsame, herror⟩ := hunknown
    cases hsame
    exact herror.elim

/-- What follows a value of the polls does not change what is said of them. -/
theorem Polled.append {α : Type} {value : α} {later : Trace} {taskId sessionId : String}
    {outcome : Except IngestError CompletedSession}
    (hpolled : Polled counted parse taskId sessionId trace (.ok value : Except IngestError α))
    (hunsettled : ∀ error, outcome = .error error → Unsettled error) :
    Polled counted parse taskId sessionId (trace ++ later) outcome := by
  have hcompleted := hpolled.completed value rfl
  have hterminal := hcompleted.terminal List.mem_cons_self
  have hall : TerminalObserved parse taskId sessionId (trace ++ later) :=
    terminalObserved_append.mpr (Or.inl hterminal)
  exact ⟨fun _ ↦ (hpolled.undisturbed hterminal).append hterminal, fun hopen ↦ absurd hall hopen,
    fun failure hfailure ↦ absurd rfl (hunsettled _ hfailure failure),
    fun _ _ ↦ observed_append.mpr (Or.inl hcompleted)⟩

theorem Polled.of_error {α β : Type} {taskId sessionId : String}
    (hpolled : Polled counted parse taskId sessionId trace (.error error : Except IngestError α)) :
    Polled counted parse taskId sessionId trace (.error error : Except IngestError β) := by
  refine ⟨hpolled.undisturbed, fun hopen ↦ ?_, fun failure hfailure ↦ ?_,
    fun _ hvalue ↦ nomatch hvalue⟩
  · rw [hpolled.unknown_iff hopen]
    simp only [Except.error.injEq]
  · cases hfailure
    exact hpolled.settled failure rfl

/-- What follows the acceptance of a commit. -/
theorem polled_of_settleSession {outcome : Except IngestError CompletedSession}
    (hsettle : Execution (settleSession parse settings session commit) trace outcome) :
    Polled counted parse commit.taskId session.sessionId trace outcome := by
  obtain ⟨start, rest, rfl, hrest⟩ := execution_readClock_bind.mp hsettle
  refine Polled.cons ?_ trivial (not_terminalObserved_singleton fun _ _ hshows ↦ hshows)
  rcases execution_bind.mp hrest with ⟨error, herror, rfl⟩ |
    ⟨⟨terminal, polled⟩, first, second, rfl, hfirst, hsecond⟩
  · exact (polled_of_execution herror).of_error
  · refine (polled_of_execution hfirst).append ?_
    rintro error rfl
    exact raises_closeSession terminal polled second error hsecond

/-- After its commit was accepted, an ingestion settles as it may exactly when everything was as
expected until a terminal state of its task was observed, whether or not a cancellation is counted as
an unknown outcome. -/
theorem settles_iff {before after : Trace} {outcome : Except IngestError CompletedSession}
    (hcommit : Execution (commitSession parse session) before (.ok commit))
    (hingest : Execution (ingestSession parse settings session) (before ++ after) outcome) :
    Settles counted parse commit.taskId session.sessionId after outcome ↔
      Undisturbed counted parse commit.taskId session.sessionId after :=
  settles_iff_of_polled (polled_of_settleSession (hcommit.rest hingest))

/-- A first read of the task that ends an ingestion. -/
theorem execution_ingestSession_of_error {before : Trace} {exit : Exit}
    (hcommit : Execution (commitSession parse session) before (.ok commit))
    (hpolls : settings.maximumTaskPolls ≠ 0) (htimeout : 0 < settings.taskPollTimeoutSeconds)
    (hread : readTask parse settings session.sessionId commit [] exit = .error error) :
    Execution (ingestSession parse settings session)
      (before ++ [⟨.clock, (0 : ℚ)⟩, ⟨.clock, (0 : ℚ)⟩,
        ⟨.request (taskCall commit.taskId settings.taskPollTimeoutSeconds), exit⟩])
      (.error error) := by
  obtain ⟨polls, hsucc⟩ := Nat.exists_eq_succ_of_ne_zero hpolls
  refine execution_bind.mpr (Or.inr ⟨commit, before, _, rfl, hcommit, ?_⟩)
  refine execution_readClock_bind.mpr ⟨(0 : ℚ), _, rfl, ?_⟩
  refine execution_bind.mpr (Or.inl ⟨error, ?_, rfl⟩)
  rw [hsucc]
  refine execution_readClock_bind.mpr ⟨(0 : ℚ), _, rfl, ?_⟩
  rw [zero_add, sub_zero, if_neg (not_le.mpr htimeout)]
  refine execution_ask.mpr ⟨exit, [], rfl, ?_⟩
  rw [hread]
  exact .done

end Settlement

/-! ### A sample -/

section Sample

/-- The document of a clean success. -/
def sampleSuccess (result : Json) : Json := .object [("status", .string "ok"), ("result", result)]

/-- The documents of a sample: there is no session, it is created, its commit is accepted, and the
task failed. -/
def sampleParse : Bytes → Option Json
  | [0] => some (.object
      [("status", .string "error"),
        ("error", .object
          [("code", .string "NOT_FOUND"), ("message", .string "Session session not found"),
            ("details", .null)])])
  | [1] => some (sampleSuccess (.object
      [("session_id", .string "session"), ("auto_commit_policy", .null)]))
  | [2] => some (sampleSuccess (.object
      [("task_id", .string "task"), ("archive_uri", .string "archive"),
        ("session_id", .string "session"), ("status", .string "accepted"),
        ("archived", .bool true)]))
  | [3] => some (sampleSuccess (.object
      [("task_id", .string "task"), ("task_type", .string "session_commit"),
        ("resource_id", .string "session"), ("status", .string "failed"),
        ("stage", .string "failed"), ("error", .string "Connection error.")]))
  | _ => none

def sampleSession : SessionIngestion :=
  ⟨"session", "root", .ok "2026-01-01T00:00:00Z", [], none⟩

def sampleSettings : Settings := ⟨3, 1, 60, some 10⟩

def sampleCommit : Commit := ⟨"task", "archive", ["absence", "create", "commit"]⟩

/-- The answers until the commit of the sample is accepted. -/
def sampleAnswers : ℕ → (query : Query) → MemorySystems.Answer query
  | 0, .request _ =>
    .callFailure
      ⟨"memory-system returned HTTP 404", "http_status", some "absence", some [0], some 404⟩
  | 1, .request _ => .returned ⟨200, [1], "create", none⟩
  | _, .request _ => .returned ⟨200, [2], "commit", none⟩
  | _, .clock => (0 : ℚ)
  | _, .sleep _ => .slept

def sampleTrace : Trace :=
  (converse sampleAnswers 0 (commitSession sampleParse sampleSession)).1

theorem execution_sampleCommit :
    Execution (commitSession sampleParse sampleSession) sampleTrace (.ok sampleCommit) :=
  execution_converse sampleAnswers 0

/-- A read of the sample's task that the server could not answer. -/
def sampleReadFailure : CallFailure :=
  ⟨"memory-system returned HTTP 500", "http_status", some "read", some [], some 500⟩

/-- A read that fails while the task may still run leaves the ingestion as a plain failure. -/
theorem not_settles_of_readFailure :
    ∃ after, Execution (commitSession sampleParse sampleSession) sampleTrace (.ok sampleCommit) ∧
      Execution (ingestSession sampleParse sampleSettings sampleSession) (sampleTrace ++ after)
        (.error (.call (.callFailure sampleReadFailure))) ∧
      ∀ counted, ¬ Settles counted sampleParse "task" "session" after
        (.error (.call (.callFailure sampleReadFailure))) := by
  have hread : readTask sampleParse sampleSettings "session" sampleCommit []
      (.callFailure sampleReadFailure) = .error (.call (.callFailure sampleReadFailure)) :=
    rfl
  refine ⟨_, execution_sampleCommit, execution_ingestSession_of_error execution_sampleCommit
    (by decide) (by decide +kernel) hread, fun counted hsettles ↦ ?_⟩
  obtain ⟨status, -, exchange, hmem, hshows⟩ := hsettles.failed sampleReadFailure rfl
  simp only [List.mem_cons, List.not_mem_nil, or_false] at hmem
  rcases hmem with rfl | rfl | rfl
  · exact hshows
  · exact hshows
  · cases hshows.2

/-- An ingestion whose task failed at the first read settles as it may. -/
theorem settles_of_failedTask : ∃ after failure,
    Execution (ingestSession sampleParse sampleSettings sampleSession) (sampleTrace ++ after)
        (.error (.settled failure)) ∧
      Settles false sampleParse "task" "session" after (.error (.settled failure)) := by
  have hread : readTask sampleParse sampleSettings "session" sampleCommit []
      (.returned ⟨200, [3], "task", none⟩) = .error (.settled ⟨"supplier_connection", "task", [3],
        ["absence", "create", "commit"], 200, "openviking_task_work_drained_v1", 10, some "task",
        some "session"⟩) :=
    rfl
  have hingest := execution_ingestSession_of_error execution_sampleCommit (by decide)
    (by decide +kernel) hread
  refine ⟨_, _, hingest, (settles_iff execution_sampleCommit hingest).mpr ?_⟩
  exact undisturbed_cons.mpr ⟨trivial, fun _ ↦ undisturbed_cons.mpr ⟨trivial, fun _ ↦
    undisturbed_cons.mpr ⟨Or.inr ⟨"failed", by decide, rfl⟩, fun _ ↦ undisturbed_nil⟩⟩⟩

end Sample

end Oamb.MemorySystems.OpenVikingGuarantees
