import Oamb.Runtime.ShutdownSequence

/-!
# What a shutdown runs and reports

`StepsRun` is the account of a shutdown whose steps run: sealing, flushing, closing every client and
writing the manifest are called once each, in this order, whatever fails; the errors of the steps are
raised together, and a client that failed to close is recorded with its owner. `NoStepRuns` is the
account of a shutdown that ends before its steps. `ordered_of_shutdown` decides between the two: the
steps run exactly when the request to stop is answered and the active task settles.
-/

set_option autoImplicit false

namespace Oamb.Runtime.ShutdownGuarantees

open ShutdownSequence

/-! ### The accounts of a shutdown -/

/-- The calls for a client. -/
def clientCalls (client : Client) : List StepCall :=
  .close client.owner :: (client.close.map (StepCall.recordCloseError client.owner)).toList

/-- The calls of all steps, each once and in order. -/
def stepCalls (clients : List Client) (unknownOutcome : Bool) : List StepCall :=
  [.sealInterruption unknownOutcome, .flushRecords] ++ clients.flatMap clientCalls ++
    [.writeManifest]

/-- The error of recording that a client failed to close. -/
def recordErrors (hooks : ShutdownHooks) (client : Client) : List ShutdownError :=
  raisedErrors (client.close.bind (hooks.recordCloseError client.owner))

/-- The errors that the steps raise, in order. -/
def stepErrors (hooks : ShutdownHooks) (clients : List Client) (unknownOutcome : Bool) :
    List ShutdownError :=
  raisedErrors (hooks.sealInterruption unknownOutcome) ++ raisedErrors hooks.flushRecords ++
    clients.flatMap (recordErrors hooks) ++ raisedErrors hooks.writeManifest

/-- The owners of the clients that fail to close. -/
def failedOwners (clients : List Client) : List String :=
  (clients.filter fun client ↦ client.close.isSome).map Client.owner

/-- The error of a request to stop that was answered. -/
def stopErrors : Option ActiveTask → List ShutdownError
  | none => []
  | some task =>
    match task.requestStop with
    | .answered error => raisedErrors error
    | .exceeded _ => []

/-- The request to stop the active task is answered within its grace. -/
def StopAnswered (active : Option ActiveTask) : Prop :=
  ∀ task, active = some task → ∀ pending, task.requestStop ≠ .exceeded pending

/-- The active task settles: it ends by itself, or it ends after it was cancelled. -/
def Settles (active : Option ActiveTask) : Prop :=
  ∀ task, active = some task →
    match task.requestStop with
    | .exceeded activePending => activePending = false
    | .answered _ =>
      (task.firstWait = .elapsed ∨ task.firstWait = .raised .timeout) →
        task.secondWait = .elapsed → task.doneAfterElapsed = true

/-- The steps run once each and in order, and every failure is reported. -/
structure StepsRun (coordinator : ShutdownCoordinator) (hooks : ShutdownHooks)
    (clients : List Client) (calls : List StepCall)
    (result : Except ShutdownFailure ShutdownResult) (settlement : Settlement) : Prop where
  settled : settle coordinator.active = .ok settlement
  calls : calls = stepCalls clients settlement.unknownOutcome
  failed : stopErrors coordinator.active ++
      stepErrors hooks clients settlement.unknownOutcome ≠ [] →
    result = .error (.shutdownSequenceError (stopErrors coordinator.active ++
      stepErrors hooks clients settlement.unknownOutcome))
  succeeded : stopErrors coordinator.active ++
      stepErrors hooks clients settlement.unknownOutcome = [] →
    result = .ok ⟨settlement.unknownOutcome, failedOwners clients, settlement.activeErrorType⟩
  active : ∀ task error, coordinator.active = some task → task.firstWait = .raised error →
    error ≠ .timeout → settlement.activeErrorType = some error.typeName

/-- No step runs, and the error says why. -/
structure NoStepRuns (coordinator : ShutdownCoordinator) (calls : List StepCall)
    (result : Except ShutdownFailure ShutdownResult) (errors : List ShutdownError) : Prop where
  calls : calls = []
  result : result = .error (.shutdownSequenceError errors)
  stop : ¬ StopAnswered coordinator.active → .stopRequestTimeout ∈ errors
  live : ¬ Settles coordinator.active → ∃ message, .activeTaskSettlement message ∈ errors
  answered : ∀ error ∈ stopErrors coordinator.active, error ∈ errors

/-! ### The steps -/

theorem progress_close (hooks : ShutdownHooks) (progress : Progress) (client : Client) :
    progress.close hooks client = ⟨progress.calls ++ clientCalls client,
      progress.closeErrorOwners ++ failedOwners [client],
      progress.errors ++ recordErrors hooks client⟩ := by
  unfold Progress.close
  cases hclose : client.close with
  | none => simp [clientCalls, failedOwners, recordErrors, raisedErrors, hclose]
  | some error =>
    simp [Progress.call, clientCalls, failedOwners, recordErrors, hclose]

theorem failedOwners_cons (client : Client) (clients : List Client) :
    failedOwners (client :: clients) = failedOwners [client] ++ failedOwners clients := by
  unfold failedOwners
  rw [← List.map_append, ← List.filter_append, List.singleton_append]

/-- Every client is closed, whatever the others do. -/
theorem foldl_close (hooks : ShutdownHooks) (clients : List Client) : ∀ progress : Progress,
    clients.foldl (Progress.close hooks) progress =
      ⟨progress.calls ++ clients.flatMap clientCalls,
        progress.closeErrorOwners ++ failedOwners clients,
        progress.errors ++ clients.flatMap (recordErrors hooks)⟩ := by
  induction clients with
  | nil =>
    intro progress
    simp [failedOwners]
  | cons client clients hind =>
    intro progress
    rw [List.foldl_cons, hind, progress_close, failedOwners_cons client clients,
      List.flatMap_cons, List.flatMap_cons]
    simp only [List.append_assoc]

theorem runSteps_eq (hooks : ShutdownHooks) (clients : List Client) (settlement : Settlement) :
    runSteps hooks clients settlement =
      ⟨stepCalls clients settlement.unknownOutcome, failedOwners clients,
        settlement.errors ++ stepErrors hooks clients settlement.unknownOutcome⟩ := by
  simp only [runSteps, foldl_close, Progress.call, stepCalls, stepErrors]
  simp only [List.nil_append, List.append_assoc, List.cons_append]

/-! ### The settlement -/

/-- The cancelled task stays live exactly when the second wait elapses and the task is not done. -/
theorem settleCancelled_cases (task : ActiveTask) (errors : List ShutdownError) :
    ((task.secondWait = .elapsed → task.doneAfterElapsed = true) ∧
      (settleCancelled task errors).settled = true ∧
      (settleCancelled task errors).errors = errors) ∨
    (¬ (task.secondWait = .elapsed → task.doneAfterElapsed = true) ∧
      (settleCancelled task errors).settled = false ∧
      ∃ message, (settleCancelled task errors).errors =
        errors ++ [.activeTaskSettlement message]) := by
  unfold settleCancelled
  cases hwait : task.secondWait with
  | returned => simp
  | raised error => cases error <;> simp
  | elapsed => cases hdone : task.doneAfterElapsed <;> simp

/-- An answered request to stop is followed by waits for the task. -/
theorem settleActive_cases (task : ActiveTask) (errors : List ShutdownError) :
    (((task.firstWait = .elapsed ∨ task.firstWait = .raised .timeout) →
        task.secondWait = .elapsed → task.doneAfterElapsed = true) ∧
      (settleActive task errors).settled = true ∧ (settleActive task errors).errors = errors) ∨
    (¬ ((task.firstWait = .elapsed ∨ task.firstWait = .raised .timeout) →
        task.secondWait = .elapsed → task.doneAfterElapsed = true) ∧
      (settleActive task errors).settled = false ∧
      ∃ message, (settleActive task errors).errors =
        errors ++ [.activeTaskSettlement message]) := by
  have hcancelled := settleCancelled_cases task errors
  unfold settleActive
  cases hwait : task.firstWait with
  | returned => simp
  | raised error =>
    cases error with
    | timeout => simpa using hcancelled
    | cancelled => simp
    | other typeName message => simp
  | elapsed => simpa using hcancelled

/-- An error of the task that is not taken for a timeout is reported by its type. -/
theorem activeErrorType_settleActive {task : ActiveTask} {error : TaskError}
    (hraised : task.firstWait = .raised error) (htimeout : error ≠ .timeout)
    (errors : List ShutdownError) :
    (settleActive task errors).activeErrorType = some error.typeName := by
  unfold settleActive
  rw [hraised]
  cases error with
  | timeout => exact absurd rfl htimeout
  | cancelled => rfl
  | other typeName message => rfl

/-- The steps of a shutdown run when the request to stop is answered and the task settles. -/
theorem settle_of_settles {active : Option ActiveTask} (hanswered : StopAnswered active)
    (hsettles : Settles active) :
    ∃ settlement, settle active = .ok settlement ∧ settlement.errors = stopErrors active ∧
      ∀ task error, active = some task → task.firstWait = .raised error → error ≠ .timeout →
        settlement.activeErrorType = some error.typeName := by
  cases active with
  | none => exact ⟨⟨true, false, none, []⟩, rfl, rfl, fun _ _ hnone ↦ by cases hnone⟩
  | some task =>
    have hsettled := hsettles task rfl
    cases hstop : task.requestStop with
    | exceeded activePending => exact absurd hstop (hanswered task rfl activePending)
    | answered error =>
      rw [hstop] at hsettled
      rcases settleActive_cases task (raisedErrors error) with ⟨_, hflag, herrors⟩ | ⟨hlive, _⟩
      · refine ⟨settleActive task (raisedErrors error), ?_, ?_, ?_⟩
        · simp only [settle, hstop, hflag, if_true]
        · simp only [stopErrors, hstop, herrors]
        · intro other raised hother hraised htimeout
          cases hother
          exact activeErrorType_settleActive hraised htimeout _
      · exact absurd hsettled hlive

/-- Otherwise the sequence ends, with an error for each reason. -/
theorem settle_of_not_settles {active : Option ActiveTask}
    (hlive : ¬ (StopAnswered active ∧ Settles active)) :
    ∃ errors, settle active = .error errors ∧
      (¬ StopAnswered active → .stopRequestTimeout ∈ errors) ∧
      (¬ Settles active → ∃ message, .activeTaskSettlement message ∈ errors) ∧
      ∀ error ∈ stopErrors active, error ∈ errors := by
  cases active with
  | none =>
    refine absurd ⟨?_, ?_⟩ hlive
    · intro task hnone
      cases hnone
    · intro task hnone
      cases hnone
  | some task =>
    cases hstop : task.requestStop with
    | exceeded activePending =>
      refine ⟨.stopRequestTimeout :: if activePending then [.activeTaskSettlement
        "active task ignored cancellation after stop request timeout"] else [],
        by simp only [settle, hstop], fun _ ↦ List.mem_cons_self, ?_, ?_⟩
      · intro hpending
        have hstill : activePending = true := by
          by_contra hdone
          refine hpending fun other hother ↦ ?_
          cases hother
          rw [hstop]
          exact Bool.eq_false_of_not_eq_true hdone
        rw [hstill]
        exact ⟨_, List.mem_cons_of_mem _ (List.mem_singleton_self _)⟩
      · simp [stopErrors, hstop]
    | answered error =>
      have hanswered : StopAnswered (some task) := by
        intro other hother pending hexceeded
        cases hother
        rw [hstop] at hexceeded
        cases hexceeded
      rcases settleActive_cases task (raisedErrors error) with
        ⟨hsettled, _, _⟩ | ⟨_, hflag, message, herrors⟩
      · refine absurd ⟨hanswered, fun other hother ↦ ?_⟩ hlive
        cases hother
        rw [hstop]
        exact hsettled
      · refine ⟨raisedErrors error ++ [.activeTaskSettlement message], ?_, ?_, ?_, ?_⟩
        · simp [settle, hstop, hflag, herrors]
        · exact fun hrefused ↦ absurd hanswered hrefused
        · exact fun _ ↦ ⟨message, List.mem_append_right _ (List.mem_singleton_self _)⟩
        · intro raised hraised
          simp only [stopErrors, hstop] at hraised
          exact List.mem_append_left _ hraised

/-! ### The shutdown -/

/-- A shutdown runs its steps when the request to stop is answered and the active task settles, and
runs none of them otherwise. A later shutdown is refused and runs no step. -/
theorem ordered_of_shutdown {coordinator : ShutdownCoordinator} {graceSeconds : ℚ}
    (hnew : coordinator.shutdownStarted = false) (hgrace : 0 ≤ graceSeconds)
    (hooks : ShutdownHooks) (clients : List Client) (later : ShutdownCoordinator)
    (calls : List StepCall) (result : Except ShutdownFailure ShutdownResult)
    (hshutdown : shutdown coordinator hooks clients graceSeconds = (later, calls, result)) :
    (StopAnswered coordinator.active ∧ Settles coordinator.active →
      ∃ settlement, StepsRun coordinator hooks clients calls result settlement) ∧
    (¬ (StopAnswered coordinator.active ∧ Settles coordinator.active) →
      ∃ errors, NoStepRuns coordinator calls result errors) ∧
    ∀ otherHooks otherClients otherGrace,
      shutdown later otherHooks otherClients otherGrace =
        (later, [], .error (.runtimeError "shutdown already started")) := by
  have hstarted : later.shutdownStarted = true := by
    simp only [shutdown, hnew, Bool.false_eq_true, if_false, not_lt.mpr hgrace] at hshutdown
    split at hshutdown <;> exact (congrArg (fun run ↦ run.1.shutdownStarted) hshutdown).symm
  refine ⟨?_, ?_, ?_⟩
  · rintro ⟨hanswered, hsettles⟩
    obtain ⟨settlement, hsettle, herrors, hactive⟩ := settle_of_settles hanswered hsettles
    simp only [shutdown, hnew, Bool.false_eq_true, if_false, not_lt.mpr hgrace, hsettle,
      runSteps_eq, herrors] at hshutdown
    obtain ⟨_, hcalls, hresult⟩ : _ ∧ _ ∧ _ := by
      simpa only [Prod.mk.injEq] using hshutdown
    refine ⟨settlement, hsettle, hcalls.symm, ?_, ?_, hactive⟩
    · intro hfailed
      rw [← hresult, if_pos hfailed]
    · intro hsucceeded
      rw [← hresult, if_neg (not_not.mpr hsucceeded)]
  · intro hlive
    obtain ⟨errors, hsettle, hstop, hpending, hreported⟩ := settle_of_not_settles hlive
    simp only [shutdown, hnew, Bool.false_eq_true, if_false, not_lt.mpr hgrace, hsettle]
      at hshutdown
    obtain ⟨_, hcalls, hresult⟩ : _ ∧ _ ∧ _ := by
      simpa only [Prod.mk.injEq] using hshutdown
    exact ⟨errors, hcalls.symm, hresult.symm, hstop, hpending, hreported⟩
  · intro otherHooks otherClients otherGrace
    rw [shutdown, if_pos hstarted]

/-! ### Two shutdowns -/

/-- Flushing fails, and so does recording that a client failed to close. -/
def sampleHooks : ShutdownHooks where
  sealInterruption _ := none
  flushRecords := some (.other "OSError" "disk full")
  writeManifest := none
  recordCloseError _ _ := some (.other "OSError" "disk full")

def sampleClients : List Client :=
  [⟨"memory", some (.other "RuntimeError" "close failed")⟩, ⟨"model", none⟩]

/-- The request to stop is answered, and the task ends when it is cancelled. -/
def cancelledTask : ActiveTask := ⟨.answered none, .elapsed, .raised .cancelled, false⟩

/-- The request to stop exceeds its grace, and the task ends when it is cancelled. -/
def unansweredTask : ActiveTask := ⟨.exceeded false, .returned, .returned, true⟩

/-- The shutdown while the task is active that ends when it is cancelled. -/
def sampleShutdown : ShutdownCoordinator × List StepCall × Except ShutdownFailure ShutdownResult :=
  shutdown ⟨some cancelledTask, false⟩ sampleHooks sampleClients 1

theorem ordered_of_cancelledTask :
    sampleShutdown.2.1 =
      [.sealInterruption true, .flushRecords, .close "memory",
        .recordCloseError "memory" (.other "RuntimeError" "close failed"), .close "model",
        .writeManifest] := by
  have hshutdown : shutdown ⟨some cancelledTask, false⟩ sampleHooks sampleClients 1 =
      (sampleShutdown.1, sampleShutdown.2.1, sampleShutdown.2.2) := rfl
  obtain ⟨hsteps, _, _⟩ := ordered_of_shutdown rfl (by decide) sampleHooks sampleClients
    sampleShutdown.1 sampleShutdown.2.1 sampleShutdown.2.2 hshutdown
  have hanswered : StopAnswered (some cancelledTask) := by
    intro task htask pending hexceeded
    cases htask
    cases hexceeded
  have hsettles : Settles (some cancelledTask) := by
    intro task htask
    cases htask
    intro _ helapsed
    cases helapsed
  obtain ⟨settlement, hrun⟩ := hsteps ⟨hanswered, hsettles⟩
  have hsettlement : settlement = ⟨true, true, none, []⟩ := (Except.ok.inj hrun.settled).symm
  exact hrun.calls.trans (by rw [hsettlement]; rfl)

/-- The active task settles, but no step runs: the request to stop exceeded its grace. -/
theorem no_step_of_unansweredTask :
    Settles (some unansweredTask) ∧
      ∀ unknownOutcome,
        (shutdown ⟨some unansweredTask, false⟩ sampleHooks sampleClients 1).2.1 ≠
          stepCalls sampleClients unknownOutcome := by
  refine ⟨fun task htask ↦ by cases htask; rfl, fun unknownOutcome hcalls ↦ ?_⟩
  have hnone : (shutdown ⟨some unansweredTask, false⟩ sampleHooks sampleClients 1).2.1 = [] := rfl
  rw [hnone] at hcalls
  cases hcalls

end Oamb.Runtime.ShutdownGuarantees
