import Oamb.Foundation.Dictionary
import Oamb.Foundation.LabelledRuns

/-!
# The supervision of parallel live cells

A live run admits its cells in their order, each into a worker process of its own, and at most as
many at a time as the plan allows. A worker sends one message over its pipe and exits. The supervisor
waits for pipes that are ready, receives from each of them, joins its worker and settles the outcome
of the cell; then it admits further cells, unless an error occurred or the stop event is set.

The workers, the signals and the operating system are the environment: `Step` is one part of the
supervisor between two answers of the environment, or a stop that is requested from outside.
-/

set_option autoImplicit false

namespace Oamb.Live.Supervision

open Foundation

/-! ### Cells and outcomes -/

/-- The part of a live cell that the supervisor reads. -/
structure LiveCell where
  cellId : String
  capsuleRoot : String

/-- The completion of a cell. -/
structure LiveCellCompletion where
  cellId : String
  capsuleRoot : String

/-- The status of a cell. -/
inductive LiveCellStatus
  | completed
  | failed
  | notStarted
  deriving DecidableEq

/-- The outcome of a cell. -/
structure LiveCellOutcome where
  cellId : String
  status : LiveCellStatus
  capsuleRoot : Option String
  detail : Option String

/-- The error of a live run: its message, its outcomes and the texts of its causes. -/
structure LiveCellExecutionError where
  message : String
  outcomes : List LiveCellOutcome
  errors : List String

/-- The cells of a live run and the number of providers that may run at once. The cells of a plan
have distinct identities. -/
structure Supervisor where
  cells : List LiveCell
  providerLimit : ℕ
  distinct : (cells.map LiveCell.cellId).Nodup

/-! ### Messages of the workers -/

/-- What the supervisor reads from a pipe. `malformed` is anything that is no result. -/
inductive WorkerMessage
  | completed (cellId capsuleRoot : String)
  | failed (cellId errorType errorMessage : String)
  | malformed
  deriving DecidableEq

namespace WorkerMessage

/-- The message that a worker sends: the execution of its cell returned a capsule root, or raised an
error with a type and a text. -/
def executeLiveCellWorker (cell : LiveCell) : Except (String × String) String → WorkerMessage
  | .ok capsuleRoot => completed cell.cellId capsuleRoot
  | .error (errorType, errorMessage) => failed cell.cellId errorType errorMessage

/-- The message for a pipe that was closed without one. -/
def workerExit (cell : LiveCell) : WorkerMessage :=
  failed cell.cellId "WorkerExit" "no result message"

/-- The message when the exit status of its worker is known. -/
def withExitcode (message : WorkerMessage) (cell : LiveCell) (exitcode : ℤ) : WorkerMessage :=
  match message with
  | completed cellId capsuleRoot =>
    if exitcode ≠ 0 then failed cell.cellId "WorkerExit" s!"worker exited with status {exitcode}"
    else completed cellId capsuleRoot
  | other => other

/-- The message reports the completion of the cell. -/
def completes (message : WorkerMessage) (cell : LiveCell) : Bool :=
  message = completed cell.cellId cell.capsuleRoot

/-- The supervisor may read the message from the pipe of the cell's worker. -/
inductive Received (cell : LiveCell) : WorkerMessage → Prop
  | sent (result : Except (String × String) String) :
    Received cell (executeLiveCellWorker cell result)
  | closed : Received cell (workerExit cell)
  | malformed : Received cell malformed

end WorkerMessage

/-! ### States -/

/-- How a live run ends. `keyError` is a cell without an outcome or a completion. -/
inductive Ending
  | returned (completions : List LiveCellCompletion)
  | raised (error : LiveCellExecutionError)
  | keyError

/-- The phase of the supervisor: it admits cells, starts the worker of one, waits for the pipes,
settles the workers whose pipes are ready, joins one of them, or ended. -/
inductive Phase
  | admitting
  | starting (position : ℕ)
  | waiting
  | settling (ready : List ℕ)
  | joining (position : ℕ) (message : WorkerMessage) (ready : List ℕ)
  | ended (ending : Ending)

/-- The state of a supervisor. The workers are the positions of their cells. -/
structure SupervisorState where
  nextCell : ℕ
  workers : List ℕ
  errors : List String
  stopped : Bool
  outcomes : Dictionary String LiveCellOutcome
  completions : Dictionary String LiveCellCompletion
  phase : Phase

namespace Phase

/-- The worker that is being started or joined. -/
def pending : Phase → List ℕ
  | starting position | joining position _ _ => [position]
  | _ => []

/-- The workers whose pipes are ready and that are not settled yet. -/
def ready : Phase → List ℕ
  | settling ready | joining _ _ ready => ready
  | _ => []

end Phase

namespace SupervisorState

/-- The worker processes that may be running. -/
def running (state : SupervisorState) : List ℕ := state.phase.pending ++ state.workers

/-- Put the supervisor into a phase. -/
def enter (state : SupervisorState) (phase : Phase) : SupervisorState :=
  { state with phase := phase }

/-- Record an error, which stops the workers. -/
def record (state : SupervisorState) (error : String) : SupervisorState :=
  { state with errors := state.errors ++ [error], stopped := true }

/-- Set the outcome of a cell. -/
def conclude (state : SupervisorState) (outcome : LiveCellOutcome) : SupervisorState :=
  { state with outcomes := state.outcomes.insert outcome.cellId outcome }

/-- The failed outcome of a cell, with its capsule root if that exists. -/
def failedOutcome (cell : LiveCell) (rootExists : Bool) (detail : String) : LiveCellOutcome :=
  ⟨cell.cellId, .failed, if rootExists then some cell.capsuleRoot else none, some detail⟩

/-- Record an error of a cell, which failed. -/
def fail (state : SupervisorState) (cell : LiveCell) (rootExists : Bool) (error : String) :
    SupervisorState :=
  (state.record error).conclude (failedOutcome cell rootExists error)

/-- Record that a worker could not be closed. The outcome of its cell keeps its status. -/
def closeFailed (state : SupervisorState) (cell : LiveCell) (error : String) : SupervisorState :=
  match state.outcomes.lookup cell.cellId with
  | none => state.record error
  | some current => (state.record error).conclude { current with
      detail := some (match current.detail with
        | none => error
        | some detail => s!"{detail}; {error}") }

/-- Record the completion of a cell. -/
def complete (state : SupervisorState) (cell : LiveCell) : SupervisorState :=
  { state with
    completions := state.completions.insert cell.cellId ⟨cell.cellId, cell.capsuleRoot⟩ }.conclude
    ⟨cell.cellId, .completed, some cell.capsuleRoot,
      (state.outcomes.lookup cell.cellId).bind LiveCellOutcome.detail⟩

/-- Settle the message of a cell. -/
def settleMessage (state : SupervisorState) (cell : LiveCell) (rootExists : Bool) :
    WorkerMessage → SupervisorState
  | .completed cellId capsuleRoot =>
    if cellId ≠ cell.cellId ∨ capsuleRoot ≠ cell.capsuleRoot then
      state.fail cell rootExists s!"cell {cell.cellId} returned a mismatched completion identity"
    else state.complete cell
  | .failed cellId errorType errorMessage =>
    let failed := state.record s!"cell {cellId} failed with {errorType}: {errorMessage}"
    if cellId ∈ state.outcomes then
      failed.conclude { failedOutcome cell rootExists s!"{errorType}: {errorMessage}" with
        cellId := cellId }
    else failed
  | .malformed =>
    state.fail cell rootExists s!"cell {cell.cellId} returned a malformed worker result"

/-- Settle a cell whose worker was joined. -/
def settle (state : SupervisorState) (cell : LiveCell) (message : WorkerMessage) (exitcode : ℤ)
    (closeError : Option String) (rootExists : Bool) : SupervisorState :=
  let closed := match closeError with
    | none => state
    | some reason => state.closeFailed cell s!"cell {cell.cellId} worker close failed with {reason}"
  closed.settleMessage cell rootExists (message.withExitcode cell exitcode)

/-- The errors of the supervisor when its workers have all ended. -/
def finalErrors (state : SupervisorState) (cells : List LiveCell) : List String :=
  if state.nextCell < cells.length ∧ state.errors = [] then
    ["live execution stopped before all cells were admitted"]
  else state.errors

/-- How the supervisor ends when its workers have all ended. -/
def finished (state : SupervisorState) (cells : List LiveCell) : Ending :=
  let errors := state.finalErrors cells
  if errors ≠ [] then
    match cells.mapM fun cell ↦ state.outcomes.lookup cell.cellId with
    | none => .keyError
    | some outcomes => .raised ⟨"; ".intercalate errors, outcomes, errors⟩
  else
    match cells.mapM fun cell ↦ state.completions.lookup cell.cellId with
    | none => .keyError
    | some completions => .returned completions

end SupervisorState

open SupervisorState WorkerMessage

/-- The state of a supervisor before its first step. -/
def Supervisor.initial (supervisor : Supervisor) : SupervisorState where
  nextCell := 0
  workers := []
  errors := []
  stopped := false
  outcomes := Dictionary.ofList (supervisor.cells.map fun cell ↦
    (cell.cellId, ⟨cell.cellId, .notStarted, none, none⟩))
  completions := ∅
  phase := .admitting

/-- The supervisor may admit a further cell. -/
def Supervisor.Admits (supervisor : Supervisor) (state : SupervisorState) : Prop :=
  state.nextCell < supervisor.cells.length ∧ state.workers.length < supervisor.providerLimit ∧
    state.errors = [] ∧ state.stopped = false

instance (supervisor : Supervisor) (state : SupervisorState) :
    Decidable (supervisor.Admits state) :=
  inferInstanceAs (Decidable (_ ∧ _))

/-! ### Steps -/

/-- The events of a supervisor. -/
inductive Event
  | stop
  | launch (position : ℕ)
  | started (position : ℕ)
  | startFailed (position : ℕ)
  | admitted
  | ready (positions : List ℕ)
  | waitFailed
  | receive (position : ℕ) (message : WorkerMessage)
  | receiveFailed (position : ℕ)
  | joinInterrupted (position : ℕ)
  | joined (position : ℕ) (message : WorkerMessage) (exitcode : ℤ) (closed : Bool)
  | settled
  | finish

/-- One step of a supervisor. -/
inductive Step (supervisor : Supervisor) : SupervisorState → Event → SupervisorState → Prop
  /-- A signal, or a worker that failed, sets the stop event. -/
  | stop {state : SupervisorState} :
    Step supervisor state .stop { state with stopped := true }
  | launch {state : SupervisorState} (hphase : state.phase = .admitting)
    (hadmits : supervisor.Admits state) :
    Step supervisor state (.launch state.nextCell)
      ({ state with nextCell := state.nextCell + 1 }.enter (.starting state.nextCell))
  | started {state : SupervisorState} {position : ℕ} (hphase : state.phase = .starting position) :
    Step supervisor state (.started position)
      ({ state with workers := state.workers ++ [position] }.enter .admitting)
  /-- The start raised. Its process may run all the same, and is then supervised. -/
  | startFailed {state : SupervisorState} {position : ℕ} {cell : LiveCell} (alive rootExists : Bool)
    (reason : String) (hphase : state.phase = .starting position)
    (hcell : supervisor.cells[position]? = some cell) :
    Step supervisor state (.startFailed position)
      (({ state with
        workers := if alive then state.workers ++ [position] else state.workers }.fail cell rootExists
          s!"cell {cell.cellId} admission failed with {reason}").enter .waiting)
  | admitted {state : SupervisorState} (hphase : state.phase = .admitting)
    (hadmits : ¬ supervisor.Admits state) :
    Step supervisor state .admitted (state.enter .waiting)
  /-- The pipes of some workers are ready. They are settled in the order of the workers. -/
  | ready {state : SupervisorState} {positions : List ℕ} (hphase : state.phase = .waiting)
    (hready : ∃ position ∈ state.workers, position ∈ positions) :
    Step supervisor state (.ready positions)
      (state.enter (.settling (state.workers.filter fun position ↦ position ∈ positions)))
  /-- The wait raised, and every worker is settled. -/
  | waitFailed {state : SupervisorState} (reason : String) (hphase : state.phase = .waiting)
    (hworkers : state.workers ≠ []) :
    Step supervisor state .waitFailed ((state.record reason).enter (.settling state.workers))
  | receive {state : SupervisorState} {position : ℕ} {cell : LiveCell} {ready : List ℕ}
    {message : WorkerMessage} (hphase : state.phase = .settling (position :: ready))
    (hcell : supervisor.cells[position]? = some cell) (hmessage : Received cell message) :
    Step supervisor state (.receive position message)
      ({ state with workers := state.workers.erase position }.enter
        (.joining position message ready))
  | receiveFailed {state : SupervisorState} {position : ℕ} {cell : LiveCell} {ready : List ℕ}
    (rootExists : Bool) (reason : String) (hphase : state.phase = .settling (position :: ready))
    (hcell : supervisor.cells[position]? = some cell) :
    Step supervisor state (.receiveFailed position)
      (({ state with workers := state.workers.erase position }.fail cell rootExists
        s!"cell {cell.cellId} supervision failed with {reason}").enter
          (.joining position .malformed ready))
  /-- The join raised, and is repeated. -/
  | joinInterrupted {state : SupervisorState} {position : ℕ} {cell : LiveCell} {ready : List ℕ}
    {message : WorkerMessage} (rootExists : Bool) (reason : String)
    (hphase : state.phase = .joining position message ready)
    (hcell : supervisor.cells[position]? = some cell) :
    Step supervisor state (.joinInterrupted position)
      (state.fail cell rootExists s!"cell {cell.cellId} join was interrupted by {reason}")
  | joined {state : SupervisorState} {position : ℕ} {cell : LiveCell} {ready : List ℕ}
    {message : WorkerMessage} (exitcode : ℤ) (closeError : Option String) (rootExists : Bool)
    (hphase : state.phase = .joining position message ready)
    (hcell : supervisor.cells[position]? = some cell) :
    Step supervisor state (.joined position message exitcode closeError.isNone)
      ((state.settle cell message exitcode closeError rootExists).enter (.settling ready))
  | settled {state : SupervisorState} (hphase : state.phase = .settling []) :
    Step supervisor state .settled (state.enter .admitting)
  | finish {state : SupervisorState} (hphase : state.phase = .waiting)
    (hworkers : state.workers = []) :
    Step supervisor state .finish
      ({ state with errors := state.finalErrors supervisor.cells }.enter
        (.ended (state.finished supervisor.cells)))

end Oamb.Live.Supervision
