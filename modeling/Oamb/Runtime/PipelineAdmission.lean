import Mathlib.Data.List.ReduceOption
import Oamb.Foundation.Dictionary
import Oamb.Foundation.LabelledRuns

/-!
# The history and question pipeline

A native run ingests the histories of its plans and answers the questions of its cases. Each of both
is an operation of its own task. A task asks for a permit of its pool, and it starts its operation
only if the admission is still open when it has one. A history task that completed its ingestion
creates the tasks of its plan's questions and settles them. An error of an operation closes the
admission, and so does a stop request; the pipeline then cancels its tasks when the stop was
requested before any error, and otherwise drains them.

The operations and the requests from outside are the environment: `Step` is one atomic part of the
pipeline, between two suspensions of the event loop, or one event of the environment.
-/

set_option autoImplicit false

namespace Oamb.Runtime.PipelineAdmission

open Foundation

/-! ### Plans and cases -/

/-- The part of an ingestion plan that the pipeline reads. -/
structure IngestionPlan where
  ingestionPlanId : String
  orderedCaseManifestEntryIds : List String

/-- The part of a case plan that the pipeline reads. -/
structure CasePlan where
  caseManifestEntryId : String

/-- The positions of the cases by their identities. -/
def caseById (cases : List CasePlan) : Dictionary String ℕ :=
  Dictionary.ofList (cases.map CasePlan.caseManifestEntryId).zipIdx

/-- The positions of the cases of one plan. The identities that were assigned are kept. -/
def selectCases (positions : Dictionary String ℕ) :
    List String → List String → Except String (List ℕ × List String)
  | [], assigned => .ok ([], assigned)
  | caseId :: rest, assigned =>
    match positions.lookup caseId with
    | none => .error "native ingestion plan references an unknown case"
    | some position =>
      if caseId ∈ assigned then .error "native case belongs to multiple ingestion plans"
      else do
        let (selected, assigned) ← selectCases positions rest (assigned ++ [caseId])
        return (position :: selected, assigned)

/-- The positions of the cases of every plan. -/
def selectPlans (positions : Dictionary String ℕ) :
    List IngestionPlan → Dictionary String (List ℕ) → List String →
      Except String (Dictionary String (List ℕ) × List String)
  | [], casesByPlan, assigned => .ok (casesByPlan, assigned)
  | plan :: rest, casesByPlan, assigned => do
    let (selected, assigned) ← selectCases positions plan.orderedCaseManifestEntryIds assigned
    selectPlans positions rest (casesByPlan.insert plan.ingestionPlanId selected) assigned

/-- Assign every case to its plan. -/
def assignCases (plans : List IngestionPlan) (cases : List CasePlan) :
    Except String (Dictionary String (List ℕ)) :=
  if ¬ (cases.map CasePlan.caseManifestEntryId).Nodup then
    .error "native case manifest identities must be unique"
  else do
    let (casesByPlan, assigned) ← selectPlans (caseById cases) plans ∅ []
    if ∀ case ∈ cases, case.caseManifestEntryId ∈ assigned then return casesByPlan
    else .error "native case has no ingestion plan"

/-- A pipeline whose cases are assigned. The identities of the plans of a case manifest are
distinct. -/
structure Pipeline where
  plans : List IngestionPlan
  cases : List CasePlan
  historyLimit : ℕ
  questionLimit : ℕ
  hasStopEvent : Bool
  casesByPlan : Dictionary String (List ℕ)
  distinct : (plans.map IngestionPlan.ingestionPlanId).Nodup
  assigned : assignCases plans cases = .ok casesByPlan

/-- The positions of the cases of the plan at a position. -/
def Pipeline.casesOf (pipeline : Pipeline) (plan : ℕ) : List ℕ :=
  match pipeline.plans[plan]? with
  | none => []
  | some entry => (pipeline.casesByPlan.lookup entry.ingestionPlanId).getD []

/-! ### States -/

/-- The two pools of permits. -/
inductive Pool
  | history
  | question
  deriving DecidableEq

/-- The number of permits of a pool. -/
def Pipeline.limit (pipeline : Pipeline) : Pool → ℕ
  | .history => pipeline.historyLimit
  | .question => pipeline.questionLimit

/-- An operation: the ingestion of the history of a plan, or the question of a case. -/
inductive OperationId
  | history (plan : ℕ)
  | question (case : ℕ)
  deriving DecidableEq

/-- The pool of an operation. -/
def OperationId.pool : OperationId → Pool
  | history _ => .history
  | question _ => .question

/-- How a task ended. `completed` is a task whose operation returned; its questions may have
failed. -/
inductive Ending
  | notAdmitted
  | cancelled
  | raised
  | completed (questionsFailed : Bool)
  deriving DecidableEq

/-- The task ended with an error. -/
def Ending.failed : Ending → Bool
  | notAdmitted => false
  | cancelled | raised => true
  | completed questionsFailed => questionsFailed

/-- The phase of a task. -/
inductive Phase
  | absent
  | created
  | waiting
  | granted
  | running
  | settling (interrupted : Bool)
  | done (ending : Ending)
  deriving DecidableEq

namespace Phase

/-- The task ended. -/
def ended : Phase → Bool
  | done _ => true
  | _ => false

/-- The task ended with an error. -/
def failed : Phase → Bool
  | done ending => ending.failed
  | _ => false

/-- The operation of the task was started. -/
def started : Phase → Bool
  | running | settling _ | done .raised | done (.completed _) => true
  | _ => false

/-- The operation of the task returned. -/
def returned : Phase → Bool
  | settling _ | done (.completed _) => true
  | _ => false

/-- The permits that a task in the phase holds. -/
def permits : Phase → ℕ
  | granted | running => 1
  | _ => 0

end Phase

/-- The phase of the pipeline: its history tasks settle, or it raised, or it returned. -/
inductive MainPhase (ρ κ : Type)
  | settling (cancelled : Bool)
  | raised
  | returned (plans : List ρ) (cases : List κ)

/-- The state of a pipeline over plan records and case records. -/
structure PipelineState (ρ κ : Type) where
  admissionStopped : Bool
  stopRequested : Bool
  permits : Pool → ℕ
  phases : OperationId → Phase
  planRecords : List (Option ρ)
  caseRecords : List (Option κ)
  main : MainPhase ρ κ

namespace PipelineState

variable {ρ κ : Type}

/-- The admission is closed. -/
def stopping (state : PipelineState ρ κ) : Bool :=
  state.admissionStopped || state.stopRequested

/-- Put a task into a phase. -/
def move (state : PipelineState ρ κ) (id : OperationId) (phase : Phase) : PipelineState ρ κ :=
  { state with phases := Function.update state.phases id phase }

/-- Take a permit of a pool. -/
def take (state : PipelineState ρ κ) (pool : Pool) : PipelineState ρ κ :=
  { state with permits := Function.update state.permits pool (state.permits pool - 1) }

/-- Give a permit back. -/
def release (state : PipelineState ρ κ) (pool : Pool) : PipelineState ρ κ :=
  { state with permits := Function.update state.permits pool (state.permits pool + 1) }

/-- Close the admission after an error of an operation. -/
def latch (state : PipelineState ρ κ) (hasStopEvent interrupted : Bool) : PipelineState ρ κ :=
  { state with
    admissionStopped := state.admissionStopped || !interrupted
    stopRequested := state.stopRequested || hasStopEvent }

/-- Create the tasks of questions. -/
def createQuestions (state : PipelineState ρ κ) (cases : List ℕ) : PipelineState ρ κ :=
  { state with
    phases := fun id ↦ match id with
      | .history plan => state.phases (.history plan)
      | .question case => if case ∈ cases then .created else state.phases (.question case) }

/-- How the pipeline ends when its history tasks have ended. -/
def finished (state : PipelineState ρ κ) (plans : ℕ) (cancelled : Bool) : MainPhase ρ κ :=
  if cancelled = true ∨ ∃ plan < plans, (state.phases (.history plan)).failed = true then .raised
  else if state.planRecords.any Option.isNone || state.caseRecords.any Option.isNone then .raised
  else .returned state.planRecords.reduceOption state.caseRecords.reduceOption

end PipelineState

open PipelineState

variable {ρ κ : Type}

/-- The state of a pipeline before its first step. -/
def Pipeline.initial (pipeline : Pipeline) : PipelineState ρ κ where
  admissionStopped := false
  stopRequested := false
  permits := pipeline.limit
  phases := fun id ↦ match id with
    | .history plan => if plan < pipeline.plans.length then .created else .absent
    | .question _ => .absent
  planRecords := List.replicate pipeline.plans.length none
  caseRecords := List.replicate pipeline.cases.length none
  main := .settling false

/-! ### Steps -/

/-- The events of a pipeline. -/
inductive Event (ρ κ : Type)
  | stopRequest
  | cancelMain
  | cancelPlanned
  | enter (id : OperationId)
  | decline (id : OperationId)
  | grant (id : OperationId)
  | start (id : OperationId)
  | giveBack (id : OperationId)
  | ingested (plan : ℕ) (record : ρ)
  | answered (case : ℕ) (record : κ)
  | failed (id : OperationId) (interrupted : Bool)
  | cancelled (id : OperationId)
  | interrupt (plan : ℕ)
  | settle (plan : ℕ)
  | finish

namespace Event

/-- The operation that the event starts. -/
def startOf : Event ρ κ → Option OperationId
  | start id => some id
  | _ => none

/-- The operation that the event settles. -/
def settledOf : Event ρ κ → Option OperationId
  | ingested plan _ => some (.history plan)
  | answered case _ => some (.question case)
  | failed id _ => some id
  | _ => none

/-- The event closes the admission: an error of an operation, or a stop request. -/
def closes : Event ρ κ → Bool
  | stopRequest | failed _ _ => true
  | _ => false

end Event

/-- A task is being cancelled: a history task by the pipeline, a question by its history task. -/
def cancelling (pipeline : Pipeline) (state : PipelineState ρ κ) : OperationId → Prop
  | .history _ => state.main = .settling true
  | .question case => ∃ plan, case ∈ pipeline.casesOf plan ∧
      state.phases (.history plan) = .settling true

/-- One step of a pipeline. -/
inductive Step (pipeline : Pipeline) : PipelineState ρ κ → Event ρ κ → PipelineState ρ κ → Prop
  /-- The stop event is set, or an owner process is lost. -/
  | stopRequest {state : PipelineState ρ κ} :
    Step pipeline state .stopRequest { state with stopRequested := true }
  /-- The caller cancels the pipeline. -/
  | cancelMain {state : PipelineState ρ κ} {cancelled : Bool}
    (hmain : state.main = .settling cancelled) :
    Step pipeline state .cancelMain { state with main := .settling true }
  /-- The pipeline sees a stop request before any error, and cancels its history tasks. -/
  | cancelPlanned {state : PipelineState ρ κ} (hmain : state.main = .settling false)
    (hstop : state.stopRequested = true ∧ state.admissionStopped = false)
    (hpending : ∃ plan < pipeline.plans.length, (state.phases (.history plan)).ended = false) :
    Step pipeline state .cancelPlanned { state with main := .settling true }
  | enter {state : PipelineState ρ κ} {id : OperationId} (hphase : state.phases id = .created)
    (hopen : state.stopping = false) : Step pipeline state (.enter id) (state.move id .waiting)
  | decline {state : PipelineState ρ κ} {id : OperationId} (hphase : state.phases id = .created)
    (hstopping : state.stopping = true) :
    Step pipeline state (.decline id) (state.move id (.done .notAdmitted))
  | grant {state : PipelineState ρ κ} {id : OperationId} (hphase : state.phases id = .waiting)
    (hpermits : 0 < state.permits id.pool) :
    Step pipeline state (.grant id) ((state.take id.pool).move id .granted)
  /-- The admission is still open when the task has its permit. -/
  | start {state : PipelineState ρ κ} {id : OperationId} (hphase : state.phases id = .granted)
    (hopen : state.stopping = false) : Step pipeline state (.start id) (state.move id .running)
  | giveBack {state : PipelineState ρ κ} {id : OperationId} (hphase : state.phases id = .granted)
    (hstopping : state.stopping = true) :
    Step pipeline state (.giveBack id) ((state.release id.pool).move id (.done .notAdmitted))
  /-- An ingestion completes; the task stores its record and creates the questions of its plan. -/
  | ingested {state : PipelineState ρ κ} {plan : ℕ} {record : ρ}
    (hphase : state.phases (.history plan) = .running) :
    Step pipeline state (.ingested plan record)
      ((({ state with planRecords := state.planRecords.set plan (some record) }.release
        .history).createQuestions (pipeline.casesOf plan)).move (.history plan) (.settling false))
  /-- A question completes; the task stores its record. -/
  | answered {state : PipelineState ρ κ} {case : ℕ} {record : κ}
    (hphase : state.phases (.question case) = .running) :
    Step pipeline state (.answered case record)
      (({ state with caseRecords := state.caseRecords.set case (some record) }.release
        .question).move (.question case) (.done (.completed false)))
  /-- An operation raises. It raises an interruption only when it saw a stop request. -/
  | failed {state : PipelineState ρ κ} {id : OperationId} {interrupted : Bool}
    (hphase : state.phases id = .running)
    (hinterrupted : interrupted = true → state.stopRequested = true) :
    Step pipeline state (.failed id interrupted)
      (((state.latch pipeline.hasStopEvent interrupted).release id.pool).move id (.done .raised))
  /-- A task is cancelled before it has a permit. -/
  | cancelled {state : PipelineState ρ κ} {id : OperationId}
    (hphase : state.phases id = .created ∨ state.phases id = .waiting)
    (hcancelling : cancelling pipeline state id) :
    Step pipeline state (.cancelled id) (state.move id (.done .cancelled))
  /-- A task is cancelled after it was woken with a permit. -/
  | cancelledGranted {state : PipelineState ρ κ} {id : OperationId}
    (hphase : state.phases id = .granted) (hcancelling : cancelling pipeline state id) :
    Step pipeline state (.cancelled id)
      ((state.release id.pool).move id (.done .cancelled))
  /-- A history task is cancelled while it settles its questions, and cancels them. -/
  | interrupt {state : PipelineState ρ κ} {plan : ℕ}
    (hphase : state.phases (.history plan) = .settling false)
    (hcancelling : cancelling pipeline state (.history plan)) :
    Step pipeline state (.interrupt plan) (state.move (.history plan) (.settling true))
  /-- A history task whose questions have all ended ends. -/
  | settle {state : PipelineState ρ κ} {plan : ℕ} {interrupted : Bool}
    (hphase : state.phases (.history plan) = .settling interrupted)
    (hended : ∀ case ∈ pipeline.casesOf plan, (state.phases (.question case)).ended = true) :
    Step pipeline state (.settle plan) (state.move (.history plan) (.done (.completed
      (interrupted || (pipeline.casesOf plan).any fun case ↦
        (state.phases (.question case)).failed))))
  /-- The history tasks have all ended, and the pipeline returns or raises. -/
  | finish {state : PipelineState ρ κ} {cancelled : Bool} (hmain : state.main = .settling cancelled)
    (hended : ∀ plan < pipeline.plans.length, (state.phases (.history plan)).ended = true) :
    Step pipeline state .finish
      { state with main := state.finished pipeline.plans.length cancelled }

end Oamb.Runtime.PipelineAdmission
