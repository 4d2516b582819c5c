import Oamb.Live.Supervision

/-!
# What the supervision of parallel live cells guarantees

`supervisionSafe_of_run` is about every run of a supervisor. At most as many workers run at once as
the provider limit allows. The cells are admitted in their order, each once, and none after an error
or a stop. A supervisor that ended either returned the completions of all cells in their order, and
then every worker sent its completion and exited with status zero, or raised an error with one
outcome for every cell in their order.

Three invariants carry it, and every step keeps each of them: `WorkersValid` is about the positions
of the running workers, `OutcomesValid` reads the outcomes off the events of the run, and
`ErrorsValid` says what is known while no error is recorded.
-/

set_option autoImplicit false

namespace Oamb.Live.SupervisionGuarantees

open Foundation Foundation.LabelledRuns
open Supervision Supervision.SupervisorState Supervision.WorkerMessage

/-! ### Events -/

/-- The position that the event admits. -/
def admittedBy : Event → Option ℕ
  | .launch position => some position
  | _ => none

/-- The position whose worker the event ends. A start that raised may leave the worker running. -/
def endedBy : Event → Option ℕ
  | .startFailed position | .joined position _ _ _ => some position
  | _ => none

/-- The event settles the position with the completion of its cell. -/
def Completes (cells : List LiveCell) (position : ℕ) : Event → Prop
  | .joined joined message exitcode _ => joined = position ∧ exitcode = 0 ∧
      ∃ cell, cells[position]? = some cell ∧ message.completes cell = true
  | _ => False

theorem endedBy_of_completes {cells : List LiveCell} {position : ℕ} {event : Event}
    (hcompletes : Completes cells position event) : endedBy event = some position := by
  cases event with
  | joined => exact congrArg some hcompletes.1
  | _ => cases hcompletes

/-- The event is an error of the supervision, or a stop. -/
def Closes (cells : List LiveCell) : Event → Prop
  | .stop | .startFailed _ | .waitFailed | .receiveFailed _ | .joinInterrupted _ => True
  | .receive position message => ∀ cell, cells[position]? = some cell → message.completes cell = false
  | .joined position message exitcode closed =>
    closed = false ∨ ¬ Completes cells position (.joined position message exitcode closed)
  | _ => False

/-- The cell at a position completed in a history. -/
def Completed (cells : List LiveCell) (labels : List Event) (position : ℕ) : Prop :=
  ∃ event ∈ labels, Completes cells position event

theorem completed_append {cells : List LiveCell} {labels : List Event} {event : Event}
    {position : ℕ} : Completed cells (labels ++ [event]) position ↔
      Completed cells labels position ∨ Completes cells position event := by
  simp [Completed, or_and_right, exists_or]

/-! ### What the operations of the supervisor write -/

/-- The operation writes the outcome of one cell, and leaves the other cells alone. -/
structure Touches (cell : LiveCell) (state next : SupervisorState) : Prop where
  others : ∀ cellId ≠ cell.cellId, next.outcomes.lookup cellId = state.outcomes.lookup cellId ∧
    next.completions.lookup cellId = state.completions.lookup cellId

/-- The operation gives one cell an outcome. -/
structure Concludes (cell : LiveCell) (status : LiveCellStatus) (state next : SupervisorState) :
    Prop extends Touches cell state next where
  outcome : ∃ outcome, next.outcomes.lookup cell.cellId = some outcome ∧
    outcome.cellId = cell.cellId ∧ outcome.status = status
  completion : next.completions.lookup cell.cellId =
    if status = .completed then some ⟨cell.cellId, cell.capsuleRoot⟩
    else state.completions.lookup cell.cellId

/-- The operation records an error. -/
def Records (next : SupervisorState) : Prop := next.errors ≠ [] ∧ next.stopped = true

section Operations

variable {cell : LiveCell} {state : SupervisorState}

theorem records_append {error : String} : Records (state.record error) :=
  ⟨List.append_ne_nil_of_right_ne_nil _ (List.cons_ne_nil _ _), rfl⟩

theorem fail_spec (rootExists : Bool) (error : String) :
    Concludes cell .failed state (state.fail cell rootExists error) ∧
      Records (state.fail cell rootExists error) :=
  ⟨⟨⟨fun _ hne ↦ ⟨AList.lookup_insert_ne hne, rfl⟩⟩,
    ⟨_, AList.lookup_insert _, rfl, rfl⟩, rfl⟩, records_append⟩

/-- A worker that cannot be closed leaves the completions as they are. -/
theorem closeFailed_spec {outcome : LiveCellOutcome} (error : String)
    (houtcome : state.outcomes.lookup cell.cellId = some outcome)
    (hid : outcome.cellId = cell.cellId) :
    Touches cell state (state.closeFailed cell error) ∧
      cell.cellId ∈ (state.closeFailed cell error).outcomes ∧
      (state.closeFailed cell error).completions = state.completions ∧
      Records (state.closeFailed cell error) := by
  simp only [closeFailed, houtcome, conclude, hid]
  refine ⟨⟨fun _ hne ↦ ⟨AList.lookup_insert_ne hne, rfl⟩⟩,
    (AList.mem_insert _).mpr (Or.inl rfl), rfl, records_append⟩

/-- The phase has no part in an outcome. -/
theorem Concludes.enter {status : LiveCellStatus} {workers : List ℕ} {next : SupervisorState}
    (hconcludes : Concludes cell status { state with workers := workers } next) {phase : Phase} :
    Concludes cell status state (next.enter phase) :=
  ⟨⟨hconcludes.others⟩, hconcludes.outcome, hconcludes.completion⟩

theorem complete_spec : Concludes cell .completed state (state.complete cell) where
  others := fun _ hne ↦ ⟨AList.lookup_insert_ne hne, AList.lookup_insert_ne hne⟩
  outcome := ⟨_, AList.lookup_insert _, rfl, rfl⟩
  completion := AList.lookup_insert _

theorem completes_withExitcode (cell : LiveCell) {message : WorkerMessage} {exitcode : ℤ} :
    (message.withExitcode cell exitcode).completes cell = true ↔
      exitcode = 0 ∧ message.completes cell = true := by
  cases message with
  | completed cellId capsuleRoot =>
    by_cases hexit : exitcode = 0 <;> simp [withExitcode, completes, hexit]
  | failed | malformed => simp [withExitcode, completes]

/-- A message of the cell, with the exit status of its worker. -/
def OfCell (cell : LiveCell) : WorkerMessage → Prop
  | .failed cellId _ _ => cellId = cell.cellId
  | _ => True

theorem OfCell.of_received {message : WorkerMessage} (hreceived : Received cell message) :
    OfCell cell message := by
  cases hreceived with
  | sent result =>
    cases result with
    | ok capsuleRoot => trivial
    | error error => rfl
  | closed => rfl
  | malformed => trivial

theorem OfCell.withExitcode {message : WorkerMessage} (hmessage : OfCell cell message)
    (exitcode : ℤ) : OfCell cell (message.withExitcode cell exitcode) := by
  cases message with
  | completed cellId capsuleRoot =>
    rw [WorkerMessage.withExitcode]
    split_ifs
    · rfl
    · trivial
  | failed => exact hmessage
  | malformed => trivial

theorem settleMessage_spec {message : WorkerMessage} (hmessage : OfCell cell message)
    (hcell : cell.cellId ∈ state.outcomes) (rootExists : Bool) :
    (message.completes cell = true ∧
      Concludes cell .completed state (state.settleMessage cell rootExists message) ∧
      (state.settleMessage cell rootExists message).errors = state.errors ∧
      (state.settleMessage cell rootExists message).stopped = state.stopped) ∨
    (message.completes cell = false ∧
      Concludes cell .failed state (state.settleMessage cell rootExists message) ∧
      Records (state.settleMessage cell rootExists message)) := by
  cases message with
  | completed cellId capsuleRoot =>
    by_cases hsame : cellId ≠ cell.cellId ∨ capsuleRoot ≠ cell.capsuleRoot
    · rw [settleMessage, if_pos hsame]
      refine Or.inr ⟨?_, fail_spec rootExists _⟩
      rw [completes, decide_eq_false_iff_not, WorkerMessage.completed.injEq, not_and_or]
      exact hsame
    · rw [settleMessage, if_neg hsame]
      rw [not_or, not_not, not_not] at hsame
      exact Or.inl ⟨by simp [completes, hsame], complete_spec, rfl, rfl⟩
  | failed cellId errorType errorMessage =>
    cases hmessage
    simp only [settleMessage, if_pos hcell]
    exact Or.inr ⟨by simp [completes], ⟨⟨fun _ hne ↦
      ⟨AList.lookup_insert_ne hne, rfl⟩⟩, ⟨_, AList.lookup_insert _, rfl, rfl⟩, rfl⟩,
      records_append⟩
  | malformed => exact Or.inr ⟨by simp [completes], fail_spec rootExists _⟩

theorem Concludes.of_touches {status : LiveCellStatus} {closed next : SupervisorState}
    (htouches : Touches cell state closed) (hcompletions : closed.completions = state.completions)
    (hconcludes : Concludes cell status closed next) : Concludes cell status state next where
  others := fun cellId hne ↦ ⟨(hconcludes.others cellId hne).1.trans (htouches.others cellId hne).1,
    (hconcludes.others cellId hne).2.trans (htouches.others cellId hne).2⟩
  outcome := hconcludes.outcome
  completion := hcompletions ▸ hconcludes.completion

/-- What settling a cell writes. -/
theorem settle_spec {message : WorkerMessage} {outcome : LiveCellOutcome}
    (hmessage : OfCell cell message)
    (houtcome : state.outcomes.lookup cell.cellId = some outcome)
    (hid : outcome.cellId = cell.cellId) (exitcode : ℤ) (closeError : Option String)
    (rootExists : Bool) :
    ((exitcode = 0 ∧ message.completes cell = true) ∧
      Concludes cell .completed state
        (state.settle cell message exitcode closeError rootExists) ∧
      (closeError = none →
        (state.settle cell message exitcode closeError rootExists).errors = state.errors ∧
        (state.settle cell message exitcode closeError rootExists).stopped = state.stopped) ∧
      (closeError ≠ none →
        Records (state.settle cell message exitcode closeError rootExists))) ∨
    (¬ (exitcode = 0 ∧ message.completes cell = true) ∧
      Concludes cell .failed state (state.settle cell message exitcode closeError rootExists) ∧
      Records (state.settle cell message exitcode closeError rootExists)) := by
  have hofCell := hmessage.withExitcode exitcode
  rw [← completes_withExitcode cell]
  cases closeError with
  | none =>
    have hmem : cell.cellId ∈ state.outcomes :=
      AList.lookup_isSome.mp (by rw [houtcome]; rfl)
    rcases settleMessage_spec hofCell hmem rootExists with ⟨hcompletes, hconcludes, hsame⟩ |
      ⟨hfails, hconcludes, hrecords⟩
    · exact Or.inl ⟨hcompletes, hconcludes, fun _ ↦ hsame, fun hne ↦ absurd rfl hne⟩
    · exact Or.inr ⟨by rw [hfails]; exact Bool.false_ne_true, hconcludes, hrecords⟩
  | some reason =>
    obtain ⟨htouches, hmem, hcompletions, hclosed⟩ := closeFailed_spec
      s!"cell {cell.cellId} worker close failed with {reason}" houtcome hid
    rcases settleMessage_spec hofCell hmem rootExists with
      ⟨hcompletes, hconcludes, herrors, hstopped⟩ | ⟨hfails, hconcludes, hrecords⟩
    · refine Or.inl ⟨hcompletes, hconcludes.of_touches htouches hcompletions, nofun, fun _ ↦ ?_⟩
      exact ⟨herrors.symm ▸ hclosed.1, hstopped.trans hclosed.2⟩
    · refine Or.inr ⟨?_, hconcludes.of_touches htouches hcompletions, hrecords⟩
      rw [hfails]
      exact Bool.false_ne_true

theorem closeFailed_frame (error : String) :
    (state.closeFailed cell error).nextCell = state.nextCell ∧
      (state.closeFailed cell error).workers = state.workers := by
  unfold closeFailed
  split <;> exact ⟨rfl, rfl⟩

theorem settleMessage_frame (rootExists : Bool) (message : WorkerMessage) :
    (state.settleMessage cell rootExists message).nextCell = state.nextCell ∧
      (state.settleMessage cell rootExists message).workers = state.workers := by
  unfold settleMessage
  split
  · split_ifs <;> exact ⟨rfl, rfl⟩
  · dsimp only
    split_ifs <;> exact ⟨rfl, rfl⟩
  · exact ⟨rfl, rfl⟩

/-- Settling a cell admits and starts nothing. -/
theorem settle_frame (state : SupervisorState) (cell : LiveCell) (message : WorkerMessage) (exitcode : ℤ) (closeError : Option String)
    (rootExists : Bool) :
    (state.settle cell message exitcode closeError rootExists).nextCell = state.nextCell ∧
      (state.settle cell message exitcode closeError rootExists).workers = state.workers := by
  unfold settle
  split
  · exact settleMessage_frame _ _
  · exact ⟨(settleMessage_frame _ _).1.trans (closeFailed_frame _).1,
      (settleMessage_frame _ _).2.trans (closeFailed_frame _).2⟩

end Operations

/-! ### The workers -/

section Workers

variable {supervisor : Supervisor} {state next : SupervisorState} {event : Event}
  {labels : List Event}

/-- What holds of the workers in every reachable state. -/
structure WorkersValid (supervisor : Supervisor) (labels : List Event) (state : SupervisorState) :
    Prop where
  /-- The cells are admitted in their order. -/
  admitted : labels.filterMap admittedBy = List.range state.nextCell
  bounded : state.nextCell ≤ supervisor.cells.length
  nodup : state.running.Nodup
  lt : ∀ position ∈ state.running, position < state.nextCell
  limit : state.running.length ≤ supervisor.providerLimit
  ready : state.phase.ready.Sublist state.workers
  /-- The message of a worker is about its own cell. -/
  message : ∀ position message ready cell, state.phase = .joining position message ready →
    supervisor.cells[position]? = some cell → OfCell cell message
  /-- A cell that completed has no worker. -/
  completed : ∀ position, Completed supervisor.cells labels position →
    position < state.nextCell ∧ position ∉ state.running

/-- What a step does to the running workers: it keeps them, or one of them ends, or it admits the
next cell. -/
theorem running_of_step (hvalid : WorkersValid supervisor labels state)
    (hstep : Step supervisor state event next) :
    (next.nextCell = state.nextCell ∧ next.running.Perm state.running ∧ admittedBy event = none ∧
      ∀ position, ¬ Completes supervisor.cells position event) ∨
    (∃ position, next.nextCell = state.nextCell ∧ state.running.Perm (position :: next.running) ∧
      admittedBy event = none ∧ endedBy event = some position) ∨
    (event = .launch state.nextCell ∧ supervisor.Admits state ∧
      next.nextCell = state.nextCell + 1 ∧ next.running = state.nextCell :: state.running ∧
      state.running = state.workers) := by
  cases hstep with
  | stop => exact Or.inl ⟨rfl, List.Perm.refl _, rfl, fun _ ↦ id⟩
  | launch hphase hadmits =>
    have hrunning : state.running = state.workers := by simp [running, hphase, Phase.pending]
    exact Or.inr (Or.inr ⟨rfl, hadmits, rfl, by rw [hrunning]; rfl, hrunning⟩)
  | started hphase =>
    refine Or.inl ⟨rfl, ?_, rfl, fun _ ↦ id⟩
    simp only [running, hphase, enter, Phase.pending, List.nil_append]
    exact List.perm_append_comm
  | @startFailed position cell alive rootExists reason hphase hcell =>
    cases alive with
    | true =>
      refine Or.inl ⟨rfl, ?_, rfl, fun _ ↦ id⟩
      simp only [running, hphase, enter, Phase.pending, List.nil_append]
      exact List.perm_append_comm
    | false =>
      refine Or.inr (Or.inl ⟨position, rfl, ?_, rfl, rfl⟩)
      simp only [running, hphase, enter, Phase.pending, List.nil_append]
      exact List.Perm.refl _
  | admitted hphase | ready hphase | waitFailed _ hphase | settled hphase | finish hphase =>
    refine Or.inl ⟨rfl, ?_, rfl, fun _ ↦ id⟩
    simp only [running, hphase, enter, Phase.pending, List.nil_append]
    exact List.Perm.refl _
  | receive hphase hcell hmessage =>
    refine Or.inl ⟨rfl, ?_, rfl, fun _ ↦ id⟩
    have hmem := hvalid.ready.subset (by rw [hphase]; exact List.mem_cons_self)
    simp only [running, hphase, enter, Phase.pending, List.nil_append]
    exact (List.perm_cons_erase hmem).symm
  | receiveFailed _ _ hphase hcell =>
    refine Or.inl ⟨rfl, ?_, rfl, fun _ ↦ id⟩
    have hmem := hvalid.ready.subset (by rw [hphase]; exact List.mem_cons_self)
    simp only [running, hphase, enter, Phase.pending, List.nil_append]
    exact (List.perm_cons_erase hmem).symm
  | joinInterrupted => exact Or.inl ⟨rfl, List.Perm.refl _, rfl, fun _ ↦ id⟩
  | @joined position cell ready message exitcode closeError rootExists hphase hcell =>
    obtain ⟨hnextCell, hworkers⟩ := settle_frame state cell message exitcode closeError
      rootExists
    refine Or.inr (Or.inl ⟨position, hnextCell, ?_, rfl, rfl⟩)
    simp only [running, hphase, enter, Phase.pending, List.nil_append, hworkers]
    exact List.Perm.refl _

theorem WorkersValid.initial : WorkersValid supervisor [] supervisor.initial where
  admitted := rfl
  bounded := Nat.zero_le _
  nodup := List.nodup_nil
  lt := nofun
  limit := Nat.zero_le _
  ready := List.Sublist.refl _
  message := nofun
  completed := by
    rintro position ⟨_, hmem, -⟩
    cases hmem

theorem ready_of_step (hvalid : WorkersValid supervisor labels state)
    (hstep : Step supervisor state event next) : next.phase.ready.Sublist next.workers := by
  have hready := hvalid.ready
  cases hstep with
  | stop => exact hready
  | launch | started | startFailed | admitted | settled | finish => exact List.nil_sublist _
  | ready => exact List.filter_sublist
  | waitFailed => exact List.Sublist.refl _
  | @receive position _ ready _ hphase | @receiveFailed position _ ready _ _ hphase =>
    rw [hphase] at hready
    have herase := hready.erase position
    rwa [Phase.ready, List.erase_cons_head] at herase
  | joinInterrupted => exact hready
  | joined _ _ _ hphase =>
    rw [hphase] at hready
    exact ((settle_frame _ _ _ _ _ _).2).symm ▸ hready

theorem message_of_step (hvalid : WorkersValid supervisor labels state)
    (hstep : Step supervisor state event next) {position : ℕ} {message : WorkerMessage}
    {ready : List ℕ} {cell : LiveCell} (hphase : next.phase = .joining position message ready)
    (hcell : supervisor.cells[position]? = some cell) : OfCell cell message := by
  cases hstep with
  | stop | joinInterrupted => exact hvalid.message position message ready cell hphase hcell
  | launch | started | startFailed | admitted | settled | finish | ready | waitFailed | joined =>
    cases hphase
  | receive _ hpresent hmessage =>
    cases hphase
    rw [hpresent, Option.some.injEq] at hcell
    subst hcell
    exact OfCell.of_received hmessage
  | receiveFailed =>
    cases hphase
    trivial

theorem WorkersValid.step (hvalid : WorkersValid supervisor labels state)
    (hstep : Step supervisor state event next) :
    WorkersValid supervisor (labels ++ [event]) next := by
  have hready := ready_of_step hvalid hstep
  have hmessage : ∀ position message ready cell, next.phase = .joining position message ready →
      supervisor.cells[position]? = some cell → OfCell cell message :=
    fun _ _ _ _ hphase hcell ↦ message_of_step hvalid hstep hphase hcell
  rcases running_of_step hvalid hstep with ⟨hnextCell, hperm, hadmitted, hcompletes⟩ |
    ⟨position, hnextCell, hperm, hadmitted, hended⟩ |
    ⟨rfl, hadmits, hnextCell, hrunning, hworkers⟩
  · refine ⟨?_, hnextCell ▸ hvalid.bounded, hperm.nodup_iff.mpr hvalid.nodup, ?_,
      hperm.length_eq ▸ hvalid.limit, hready, hmessage, ?_⟩
    · rw [List.filterMap_append, hvalid.admitted, hnextCell, List.filterMap_cons_none hadmitted,
        List.filterMap_nil, List.append_nil]
    · intro position hmem
      rw [hnextCell]
      exact hvalid.lt position (hperm.mem_iff.mp hmem)
    · intro position hcompleted
      rw [hnextCell, hperm.mem_iff]
      exact hvalid.completed position ((completed_append.mp hcompleted).resolve_right
        (hcompletes position))
  · have hnodup := hperm.nodup_iff.mp hvalid.nodup
    rw [List.nodup_cons] at hnodup
    have hlength := hperm.length_eq
    rw [List.length_cons] at hlength
    refine ⟨?_, hnextCell ▸ hvalid.bounded, hnodup.2, ?_, ?_, hready, hmessage, ?_⟩
    · rw [List.filterMap_append, hvalid.admitted, hnextCell, List.filterMap_cons_none hadmitted,
        List.filterMap_nil, List.append_nil]
    · intro other hmem
      rw [hnextCell]
      exact hvalid.lt other (hperm.mem_iff.mpr (List.mem_cons_of_mem _ hmem))
    · have hlimit := hvalid.limit
      omega
    · intro other hcompleted
      rw [hnextCell]
      rcases completed_append.mp hcompleted with hbefore | hevent
      · obtain ⟨hlt, hnot⟩ := hvalid.completed other hbefore
        exact ⟨hlt, fun hmem ↦ hnot (hperm.mem_iff.mpr (List.mem_cons_of_mem _ hmem))⟩
      · obtain rfl : position = other :=
          Option.some.inj (hended.symm.trans (endedBy_of_completes hevent))
        exact ⟨hvalid.lt position (hperm.mem_iff.mpr List.mem_cons_self), hnodup.1⟩
  · refine ⟨?_, hnextCell ▸ hadmits.1, ?_, ?_, ?_, hready, hmessage, ?_⟩
    · rw [List.filterMap_append, hvalid.admitted, hnextCell, List.range_succ]
      rfl
    · rw [hrunning, List.nodup_cons]
      exact ⟨fun hmem ↦ lt_irrefl _ (hvalid.lt _ hmem), hvalid.nodup⟩
    · rw [hrunning, hnextCell]
      rintro position (_ | ⟨_, hmem⟩)
      · exact Nat.lt_succ_self _
      · exact Nat.lt_succ_of_lt (hvalid.lt position hmem)
    · rw [hrunning, List.length_cons, hworkers]
      exact hadmits.2.1
    · intro position hcompleted
      rw [hnextCell, hrunning, List.mem_cons, not_or]
      obtain ⟨hlt, hnot⟩ := hvalid.completed position ((completed_append.mp hcompleted).resolve_right
        id)
      exact ⟨Nat.lt_succ_of_lt hlt, hlt.ne, hnot⟩

end Workers

/-! ### The outcomes -/

section Outcomes

variable {supervisor : Supervisor} {state next : SupervisorState} {event : Event}
  {labels : List Event}

/-- The cell at a position was not admitted yet, or its worker runs. -/
def Open (state : SupervisorState) (position : ℕ) : Prop :=
  state.nextCell ≤ position ∨ position ∈ state.running

/-- The outcome of a cell agrees with the history. -/
structure OutcomeValid (supervisor : Supervisor) (labels : List Event) (state : SupervisorState)
    (position : ℕ) (cell : LiveCell) (outcome : LiveCellOutcome) : Prop where
  cellId : outcome.cellId = cell.cellId
  completed : outcome.status = .completed ↔ Completed supervisor.cells labels position
  pending : outcome.status = .notStarted → Open state position
  notStarted : state.nextCell ≤ position → outcome.status = .notStarted
  completion : state.completions.lookup cell.cellId =
    if outcome.status = .completed then some ⟨cell.cellId, cell.capsuleRoot⟩ else none

/-- Every cell has an outcome that agrees with the history. -/
def OutcomesValid (supervisor : Supervisor) (labels : List Event) (state : SupervisorState) : Prop :=
  ∀ position cell, supervisor.cells[position]? = some cell →
    ∃ outcome, state.outcomes.lookup cell.cellId = some outcome ∧
      OutcomeValid supervisor labels state position cell outcome

/-- The step gives the cell at a position, whose worker runs, an outcome. -/
structure Settles (supervisor : Supervisor) (state : SupervisorState) (event : Event)
    (next : SupervisorState) (position : ℕ) (cell : LiveCell) (status : LiveCellStatus) : Prop where
  present : supervisor.cells[position]? = some cell
  running : position ∈ state.running
  started : status ≠ .notStarted
  concludes : Concludes cell status state next
  completes : ∀ other, Completes supervisor.cells other event ↔
    other = position ∧ status = .completed
  ended : ∀ other, endedBy event = some other → other = position

/-- What a step does to the outcomes: nothing, or it settles one of them. -/
theorem outcomes_of_step (hworkers : WorkersValid supervisor labels state)
    (houtcomes : OutcomesValid supervisor labels state)
    (hstep : Step supervisor state event next) :
    (next.outcomes = state.outcomes ∧ next.completions = state.completions ∧
      endedBy event = none) ∨
    ∃ position cell status, Settles supervisor state event next position cell status := by
  cases hstep with
  | stop | launch | started | admitted | ready | waitFailed | receive | settled | finish =>
    exact Or.inl ⟨rfl, rfl, rfl⟩
  | @startFailed position cell alive rootExists reason hphase hcell =>
    refine Or.inr ⟨position, cell, .failed, hcell, ?_, nofun, ?_, by simp [Completes],
      fun other hended ↦ (Option.some.inj hended).symm⟩
    · simp [running, hphase, Phase.pending]
    · exact (fail_spec rootExists _).1.enter
  | @receiveFailed position cell ready rootExists reason hphase hcell =>
    refine Or.inr ⟨position, cell, .failed, hcell, ?_, nofun, ?_, by simp [Completes], nofun⟩
    · have hmem := hworkers.ready.subset (by rw [hphase]; exact List.mem_cons_self)
      exact List.mem_append_right _ hmem
    · exact (fail_spec rootExists _).1.enter
  | @joinInterrupted position cell ready message rootExists reason hphase hcell =>
    refine Or.inr ⟨position, cell, .failed, hcell, ?_, nofun, ?_, by simp [Completes], nofun⟩
    · simp [running, hphase, Phase.pending]
    · exact (fail_spec rootExists _).1
  | @joined position cell ready message exitcode closeError rootExists hphase hcell =>
    obtain ⟨outcome, houtcome, hvalid⟩ := houtcomes position cell hcell
    have hmessage := hworkers.message position message ready cell hphase hcell
    have hmem : position ∈ state.running := by simp [running, hphase, Phase.pending]
    rcases settle_spec hmessage houtcome hvalid.cellId exitcode closeError rootExists with
      ⟨⟨hexit, hcompletes⟩, hconcludes, -, -⟩ | ⟨hfails, hconcludes, -⟩
    · refine Or.inr ⟨position, cell, .completed, hcell, hmem, nofun, hconcludes.enter,
        fun other ↦ ?_, fun other hended ↦ (Option.some.inj hended).symm⟩
      constructor
      · rintro ⟨rfl, -⟩
        exact ⟨rfl, rfl⟩
      · rintro ⟨rfl, -⟩
        exact ⟨rfl, hexit, cell, hcell, hcompletes⟩
    · refine Or.inr ⟨position, cell, .failed, hcell, hmem, nofun, hconcludes.enter,
        fun other ↦ ?_, fun other hended ↦ (Option.some.inj hended).symm⟩
      refine iff_of_false ?_ nofun
      rintro ⟨rfl, hexit, present, hpresent, hcompletes⟩
      rw [hcell, Option.some.injEq] at hpresent
      subst hpresent
      exact hfails ⟨hexit, hcompletes⟩

/-- A step leaves every position open whose worker it does not end. -/
theorem open_of_step (hworkers : WorkersValid supervisor labels state)
    (hstep : Step supervisor state event next) {position : ℕ} (hopen : Open state position)
    (hended : endedBy event ≠ some position) : Open next position := by
  unfold Open at *
  rcases running_of_step hworkers hstep with ⟨hnextCell, hperm, -, -⟩ |
    ⟨other, hnextCell, hperm, -, hother⟩ | ⟨-, -, hnextCell, hrunning, -⟩
  · rwa [hnextCell, hperm.mem_iff]
  · rw [hperm.mem_iff, List.mem_cons] at hopen
    rw [hnextCell]
    rcases hopen with hlater | rfl | hmem
    · exact Or.inl hlater
    · exact absurd hother hended
    · exact Or.inr hmem
  · rw [hnextCell, hrunning, List.mem_cons]
    rcases hopen with hlater | hmem
    · rcases hlater.eq_or_lt with rfl | hlt
      · exact Or.inr (Or.inl rfl)
      · exact Or.inl hlt
    · exact Or.inr (Or.inr hmem)

theorem nextCell_le_of_step (hworkers : WorkersValid supervisor labels state)
    (hstep : Step supervisor state event next) : state.nextCell ≤ next.nextCell := by
  rcases running_of_step hworkers hstep with ⟨hnextCell, -⟩ | ⟨_, hnextCell, -⟩ |
    ⟨-, -, hnextCell, -⟩ <;> omega

theorem OutcomesValid.initial : OutcomesValid supervisor [] supervisor.initial := by
  intro position cell hcell
  have hkeys : ((supervisor.cells.map fun cell ↦ (cell.cellId,
      (⟨cell.cellId, .notStarted, none, none⟩ : LiveCellOutcome))).map Prod.fst).Nodup := by
    rw [List.map_map]
    exact supervisor.distinct
  refine ⟨⟨cell.cellId, .notStarted, none, none⟩, ?_, rfl, ?_, fun _ ↦ Or.inl (Nat.zero_le _),
    fun _ ↦ rfl, rfl⟩
  · rw [Supervisor.initial, Dictionary.lookup_ofList hkeys]
    exact List.mem_map.mpr ⟨cell, List.mem_of_getElem? hcell, rfl⟩
  · exact iff_of_false nofun (by simp [Completed])

/-- Distinct positions have distinct cells. -/
theorem eq_of_cellId {first second : ℕ} {cell other : LiveCell}
    (hfirst : supervisor.cells[first]? = some cell)
    (hsecond : supervisor.cells[second]? = some other) (hid : cell.cellId = other.cellId) :
    first = second := by
  have hlt : first < (supervisor.cells.map LiveCell.cellId).length := by
    rw [List.length_map]
    exact (List.getElem?_eq_some_iff.mp hfirst).1
  apply (List.getElem?_inj hlt supervisor.distinct).mp
  rw [List.getElem?_map, List.getElem?_map, hfirst, hsecond, Option.map_some, Option.map_some, hid]

theorem OutcomesValid.step (hworkers : WorkersValid supervisor labels state)
    (houtcomes : OutcomesValid supervisor labels state)
    (hstep : Step supervisor state event next) :
    OutcomesValid supervisor (labels ++ [event]) next := by
  have hnextCell := nextCell_le_of_step hworkers hstep
  intro position cell hcell
  obtain ⟨outcome, houtcome, hvalid⟩ := houtcomes position cell hcell
  rcases outcomes_of_step hworkers houtcomes hstep with ⟨hsame, hcompletions, hended⟩ |
    ⟨settled, settledCell, status, hsettles⟩
  · refine ⟨outcome, hsame ▸ houtcome, hvalid.cellId, ?_, fun hpending ↦ ?_, fun hlater ↦ ?_,
      hcompletions ▸ hvalid.completion⟩
    · rw [completed_append, hvalid.completed, or_iff_left]
      intro hcompletes
      exact absurd (endedBy_of_completes hcompletes) (hended ▸ nofun)
    · exact open_of_step hworkers hstep (hvalid.pending hpending) (hended ▸ nofun)
    · exact hvalid.notStarted (hnextCell.trans hlater)
  · by_cases hposition : position = settled
    · subst hposition
      obtain rfl := Option.some.inj (hcell.symm.trans hsettles.present)
      obtain ⟨written, hwritten, hid, hstatus⟩ := hsettles.concludes.outcome
      have hincomplete : ¬ Completed supervisor.cells labels position := fun hcompleted ↦
        (hworkers.completed position hcompleted).2 hsettles.running
      refine ⟨written, hwritten, hid, ?_, fun hpending ↦ ?_, fun hlater ↦ ?_, ?_⟩
      · rw [completed_append, or_iff_right hincomplete, hsettles.completes, hstatus]
        exact (and_iff_right rfl).symm
      · exact absurd (hstatus.symm.trans hpending) hsettles.started
      · exact absurd (hworkers.lt position hsettles.running) (by omega)
      · rw [hsettles.concludes.completion, hvalid.completion, hstatus]
        exact if_congr Iff.rfl rfl (if_neg (hincomplete ∘ hvalid.completed.mp))
    · have hid : cell.cellId ≠ settledCell.cellId := fun hid ↦
        hposition (eq_of_cellId hcell hsettles.present hid)
      obtain ⟨hlookup, hcompletion⟩ := hsettles.concludes.others cell.cellId hid
      refine ⟨outcome, hlookup.trans houtcome, hvalid.cellId, ?_, fun hpending ↦ ?_,
        fun hlater ↦ hvalid.notStarted (hnextCell.trans hlater), hcompletion.trans hvalid.completion⟩
      · rw [completed_append, hvalid.completed, hsettles.completes]
        exact (or_iff_left fun hsettled ↦ hposition hsettled.1).symm
      · exact open_of_step hworkers hstep (hvalid.pending hpending)
          (hposition ∘ hsettles.ended position)

end Outcomes

/-! ### The errors -/

section Errors

variable {supervisor : Supervisor} {state next : SupervisorState} {event : Event}
  {labels : List Event}

/-- A worker is being joined whose message is not the completion of its cell. -/
def Failing (supervisor : Supervisor) (state : SupervisorState) : Prop :=
  ∃ position message ready cell, state.phase = .joining position message ready ∧
    supervisor.cells[position]? = some cell ∧ message.completes cell = false

/-- What holds of the errors in every reachable state. -/
structure ErrorsValid (supervisor : Supervisor) (labels : List Event) (state : SupervisorState) :
    Prop where
  /-- While there is no error, every worker that ended completed its cell. -/
  settled : state.errors = [] → ∀ position < state.nextCell,
    position ∈ state.running ∨ Completed supervisor.cells labels position
  /-- After an error or a stop, the stop event is set before the next worker is settled. -/
  closed : (∃ event ∈ labels, Closes supervisor.cells event) →
    state.stopped = true ∨ Failing supervisor state

theorem ErrorsValid.initial : ErrorsValid supervisor [] supervisor.initial where
  settled := nofun
  closed := by
    rintro ⟨_, hmem, -⟩
    cases hmem

/-- A step that leaves no error ends no worker but that of a completed cell. -/
theorem errors_of_step (hworkers : WorkersValid supervisor labels state)
    (houtcomes : OutcomesValid supervisor labels state)
    (hstep : Step supervisor state event next) (hnext : next.errors = []) :
    state.errors = [] ∧ ∀ position, endedBy event = some position →
      Completes supervisor.cells position event := by
  cases hstep with
  | stop | launch | started | admitted | ready | receive | settled => exact ⟨hnext, nofun⟩
  | startFailed | waitFailed | receiveFailed | joinInterrupted =>
    exact absurd hnext (List.append_ne_nil_of_right_ne_nil _ (List.cons_ne_nil _ _))
  | finish =>
    simp only [enter, finalErrors] at hnext
    split_ifs at hnext
    exact ⟨hnext, nofun⟩
  | @joined position cell ready message exitcode closeError rootExists hphase hcell =>
    obtain ⟨outcome, houtcome, hvalid⟩ := houtcomes position cell hcell
    have hmessage := hworkers.message position message ready cell hphase hcell
    rcases settle_spec hmessage houtcome hvalid.cellId exitcode closeError rootExists with
      ⟨⟨hexit, hcompletes⟩, -, hsame, hrecords⟩ | ⟨-, -, hrecords⟩
    · refine ⟨?_, fun other hended ↦ ?_⟩
      · by_cases hclose : closeError = none
        · exact (hsame hclose).1.symm.trans hnext
        · exact absurd hnext (hrecords hclose).1
      · cases hended
        exact ⟨rfl, hexit, cell, hcell, hcompletes⟩
    · exact absurd hnext hrecords.1

/-- Nothing clears the stop event, and settling a failure sets it. -/
theorem stopped_of_step (hworkers : WorkersValid supervisor labels state)
    (houtcomes : OutcomesValid supervisor labels state)
    (hstep : Step supervisor state event next)
    (hbefore : state.stopped = true ∨ Failing supervisor state ∨ Closes supervisor.cells event) :
    next.stopped = true ∨ Failing supervisor next := by
  cases hstep with
  | stop | startFailed | waitFailed | receiveFailed | joinInterrupted => exact Or.inl rfl
  | launch hphase | started hphase | admitted hphase | ready hphase | settled hphase | finish hphase =>
    rcases hbefore with hstopped | ⟨_, _, _, _, hjoining, -⟩ | hcloses
    · exact Or.inl hstopped
    · cases hphase.symm.trans hjoining
    · cases hcloses
  | receive hphase hcell =>
    rcases hbefore with hstopped | ⟨_, _, _, _, hjoining, -⟩ | hcloses
    · exact Or.inl hstopped
    · cases hphase.symm.trans hjoining
    · exact Or.inr ⟨_, _, _, _, rfl, hcell, hcloses _ hcell⟩
  | @joined position cell ready message exitcode closeError rootExists hphase hcell =>
    obtain ⟨outcome, houtcome, hvalid⟩ := houtcomes position cell hcell
    have hmessage := hworkers.message position message ready cell hphase hcell
    refine Or.inl ?_
    rcases settle_spec hmessage houtcome hvalid.cellId exitcode closeError rootExists with
      ⟨hcompletes, -, hsame, hrecords⟩ | ⟨-, -, hrecords⟩
    · by_cases hclose : closeError = none
      · refine (hsame hclose).2.trans (hbefore.resolve_right ?_)
        rintro (⟨_, _, _, other, hjoining, hother, hfails⟩ | hcloses)
        · cases hphase.symm.trans hjoining
          obtain rfl := Option.some.inj (hcell.symm.trans hother)
          exact Bool.false_ne_true (hfails.symm.trans hcompletes.2)
        · rcases hcloses with hopen | hincomplete
          · rw [hclose] at hopen
            cases hopen
          · exact hincomplete ⟨rfl, hcompletes.1, cell, hcell, hcompletes.2⟩
      · exact (hrecords hclose).2
    · exact hrecords.2

theorem ErrorsValid.step (hworkers : WorkersValid supervisor labels state)
    (houtcomes : OutcomesValid supervisor labels state) (herrors : ErrorsValid supervisor labels state)
    (hstep : Step supervisor state event next) :
    ErrorsValid supervisor (labels ++ [event]) next where
  settled := by
    intro hnone position hlt
    obtain ⟨hbefore, hended⟩ := errors_of_step hworkers houtcomes hstep hnone
    rw [completed_append]
    by_cases hends : endedBy event = some position
    · exact Or.inr (Or.inr (hended position hends))
    · by_cases hcompleted : Completed supervisor.cells labels position
      · exact Or.inr (Or.inl hcompleted)
      · have hopen : Open state position := by
          rcases Nat.lt_or_ge position state.nextCell with hold | hnew
          · exact Or.inr ((herrors.settled hbefore position hold).resolve_right hcompleted)
          · exact Or.inl hnew
        exact Or.inl ((open_of_step hworkers hstep hopen hends).resolve_left (not_le.mpr hlt))
  closed := by
    rintro ⟨other, hmem, hcloses⟩
    apply stopped_of_step hworkers houtcomes hstep
    rcases List.mem_append.mp hmem with hold | hnew
    · exact (herrors.closed ⟨other, hold, hcloses⟩).imp_right Or.inl
    · rw [List.mem_singleton] at hnew
      subst hnew
      exact Or.inr (Or.inr hcloses)

end Errors

/-! ### The end of a run -/

section End

variable {supervisor : Supervisor} {state next : SupervisorState} {event : Event}
  {labels : List Event}

/-- A supervisor that ended has no workers, and ended with what its state says. -/
def EndValid (supervisor : Supervisor) (state : SupervisorState) : Prop :=
  ∀ ending, state.phase = .ended ending → state.workers = [] ∧
    ending = state.finished supervisor.cells ∧
    state.finalErrors supervisor.cells = state.errors

theorem finalErrors_idem (state : SupervisorState) (cells : List LiveCell) (phase : Phase) :
    ({ state with errors := state.finalErrors cells }.enter phase).finalErrors cells =
      state.finalErrors cells := by
  by_cases hearly : state.nextCell < cells.length ∧ state.errors = []
  · simp [finalErrors, enter, hearly]
  · simp only [finalErrors, enter, if_neg hearly]

theorem finished_congr {cells : List LiveCell} {other : SupervisorState}
    (herrors : state.finalErrors cells = other.finalErrors cells)
    (houtcomes : state.outcomes = other.outcomes)
    (hcompletions : state.completions = other.completions) :
    state.finished cells = other.finished cells := by
  rw [finished, finished, herrors, houtcomes, hcompletions]

theorem EndValid.step (hvalid : EndValid supervisor state)
    (hstep : Step supervisor state event next) : EndValid supervisor next := by
  intro ending hended
  cases hstep with
  | stop => exact hvalid ending hended
  | finish hphase hworkers =>
    cases hended
    have hidem := finalErrors_idem state supervisor.cells
      (.ended (state.finished supervisor.cells))
    exact ⟨hworkers, finished_congr hidem.symm rfl rfl, hidem⟩
  | joinInterrupted _ _ hphase => cases hphase.symm.trans hended
  | _ => cases hended

theorem mapM_eq_some {α β : Type} {read : α → Option β} {list : List α} {values : List β} :
    list.mapM read = some values ↔ list.map read = values.map some := by
  induction list generalizing values with
  | nil => cases values <;> simp
  | cons head tail ih =>
    cases values with
    | nil => cases hread : read head <;> cases htail : tail.mapM read <;> simp [hread, htail]
    | cons value rest =>
      simp only [List.mapM_cons, List.map_cons, List.cons.injEq, ← ih]
      cases read head <;> cases tail.mapM read <;> simp

/-- How a run ends: with the completions of all cells, or with one outcome for each of them. -/
def EndsSafely (supervisor : Supervisor) (labels : List Event) : Ending → Prop
  | .returned completions =>
    completions = supervisor.cells.map (fun cell ↦ ⟨cell.cellId, cell.capsuleRoot⟩) ∧
      ∀ position < supervisor.cells.length, Completed supervisor.cells labels position
  | .raised error => error.errors ≠ [] ∧ error.outcomes.length = supervisor.cells.length ∧
      ∀ position cell outcome, supervisor.cells[position]? = some cell →
        error.outcomes[position]? = some outcome → outcome.cellId = cell.cellId ∧
          (outcome.status = .completed ↔ Completed supervisor.cells labels position) ∧
          (outcome.status = .notStarted ↔ position ∉ labels.filterMap admittedBy)
  | .keyError => False

theorem endsSafely_of_ended (hworkers : WorkersValid supervisor labels state)
    (houtcomes : OutcomesValid supervisor labels state) (herrors : ErrorsValid supervisor labels state)
    (hend : EndValid supervisor state) {ending : Ending} (hended : state.phase = .ended ending) :
    EndsSafely supervisor labels ending := by
  obtain ⟨hnone, rfl, hfinal⟩ := hend ending hended
  have hrunning : state.running = [] := by simp [running, hended, Phase.pending, hnone]
  unfold finished
  rw [hfinal]
  by_cases herrorsNone : state.errors = []
  · have hall : ∀ position < supervisor.cells.length,
        Completed supervisor.cells labels position := by
      intro position hlt
      have hadmitted : ¬ state.nextCell < supervisor.cells.length := by
        intro hearly
        simp [finalErrors, hearly, herrorsNone] at hfinal
      refine (herrors.settled herrorsNone position (by omega)).resolve_left ?_
      rw [hrunning]
      exact List.not_mem_nil
    have hread : supervisor.cells.mapM (fun cell ↦ state.completions.lookup cell.cellId) =
        some (supervisor.cells.map fun cell ↦ ⟨cell.cellId, cell.capsuleRoot⟩) := by
      rw [mapM_eq_some, List.map_map]
      refine List.map_congr_left fun cell hmem ↦ ?_
      obtain ⟨position, hcell⟩ := List.mem_iff_getElem?.mp hmem
      obtain ⟨outcome, -, hvalid⟩ := houtcomes position cell hcell
      have hcompleted := hvalid.completed.mpr (hall position (List.getElem?_eq_some_iff.mp hcell).1)
      rw [hvalid.completion, if_pos hcompleted]
      rfl
    simp only [herrorsNone, ne_eq, not_true_eq_false, if_false, hread]
    exact ⟨rfl, hall⟩
  · have hread : supervisor.cells.mapM (fun cell ↦ state.outcomes.lookup cell.cellId) =
        some (supervisor.cells.map fun cell ↦
          (state.outcomes.lookup cell.cellId).getD ⟨cell.cellId, .notStarted, none, none⟩) := by
      rw [mapM_eq_some, List.map_map]
      refine List.map_congr_left fun cell hmem ↦ ?_
      obtain ⟨position, hcell⟩ := List.mem_iff_getElem?.mp hmem
      obtain ⟨outcome, houtcome, -⟩ := houtcomes position cell hcell
      rw [Function.comp_apply, houtcome, Option.getD_some]
    rw [if_pos herrorsNone, hread]
    refine ⟨herrorsNone, List.length_map _, fun position cell outcome hcell hwritten ↦ ?_⟩
    obtain ⟨stored, hstored, hvalid⟩ := houtcomes position cell hcell
    rw [List.getElem?_map, hcell, Option.map_some, hstored, Option.getD_some,
      Option.some.injEq] at hwritten
    subst hwritten
    refine ⟨hvalid.cellId, hvalid.completed, ?_⟩
    rw [hworkers.admitted, List.mem_range, not_lt]
    refine ⟨fun hpending ↦ (hvalid.pending hpending).resolve_right ?_, hvalid.notStarted⟩
    rw [hrunning]
    exact List.not_mem_nil

end End

/-! ### Every run -/

section Runs

variable {supervisor : Supervisor} {state next : SupervisorState} {event : Event}
  {labels : List Event}

/-- What holds of a state of a supervisor. -/
structure Valid (supervisor : Supervisor) (labels : List Event) (state : SupervisorState) : Prop where
  workers : WorkersValid supervisor labels state
  outcomes : OutcomesValid supervisor labels state
  errors : ErrorsValid supervisor labels state
  ending : EndValid supervisor state

theorem valid_of_run (hrun : Run (Step supervisor) supervisor.initial labels state) :
    Valid supervisor labels state := by
  refine Run.history ?_ ?_ hrun
  · exact ⟨WorkersValid.initial, OutcomesValid.initial, ErrorsValid.initial, nofun⟩
  · intro labels state event next hvalid hstep
    exact ⟨hvalid.workers.step hstep, hvalid.outcomes.step hvalid.workers hstep,
      hvalid.errors.step hvalid.workers hvalid.outcomes hstep, hvalid.ending.step hstep⟩

/-- What a run of a supervisor guarantees. -/
structure SupervisionSafe (supervisor : Supervisor) (labels : List Event)
    (state : SupervisorState) : Prop where
  /-- No more workers run than the provider limit allows. -/
  limit : state.running.length ≤ supervisor.providerLimit
  /-- The cells are admitted in their order, each once. -/
  admitted : labels.filterMap admittedBy = List.range state.nextCell
  /-- No cell is admitted after an error or a stop. -/
  closed : ∀ before event after, labels = before ++ event :: after →
    Closes supervisor.cells event → after.filterMap admittedBy = []
  ended : ∀ ending, state.phase = .ended ending → EndsSafely supervisor labels ending
  /-- A supervisor that did not end waits for the environment only. -/
  progress : (∃ ending, state.phase = .ended ending) ∨
    ∃ event next, Step supervisor state event next ∧ event ≠ .stop

theorem progress_of_valid (hvalid : Valid supervisor labels state) :
    (∃ ending, state.phase = .ended ending) ∨
      ∃ event next, Step supervisor state event next ∧ event ≠ .stop := by
  have hcell (position : ℕ) (hmem : position ∈ state.running) :
      ∃ cell, supervisor.cells[position]? = some cell :=
    ⟨_, List.getElem?_eq_getElem
      ((hvalid.workers.lt position hmem).trans_le hvalid.workers.bounded)⟩
  cases hphase : state.phase with
  | admitting =>
    by_cases hadmits : supervisor.Admits state
    · exact Or.inr ⟨_, _, .launch hphase hadmits, nofun⟩
    · exact Or.inr ⟨_, _, .admitted hphase hadmits, nofun⟩
  | starting position => exact Or.inr ⟨_, _, .started hphase, nofun⟩
  | waiting =>
    by_cases hworkers : state.workers = []
    · exact Or.inr ⟨_, _, .finish hphase hworkers, nofun⟩
    · exact Or.inr ⟨_, _, .waitFailed "" hphase hworkers, nofun⟩
  | settling ready =>
    cases ready with
    | nil => exact Or.inr ⟨_, _, .settled hphase, nofun⟩
    | cons position rest =>
      have hmem := hvalid.workers.ready.subset (by rw [hphase]; exact List.mem_cons_self)
      obtain ⟨cell, hpresent⟩ := hcell position (List.mem_append_right _ hmem)
      exact Or.inr ⟨_, _, .receive hphase hpresent .closed, nofun⟩
  | joining position message ready =>
    obtain ⟨cell, hpresent⟩ := hcell position (by simp [running, hphase, Phase.pending])
    exact Or.inr ⟨_, _, .joined 0 none false hphase hpresent, nofun⟩
  | ended ending => exact Or.inl ⟨ending, rfl⟩

/-- Every run of a supervisor keeps the provider limit, admits the cells in their order and none
after an error or a stop, and ends with the completions of all cells or with one outcome for each. -/
theorem supervisionSafe_of_run (supervisor : Supervisor) (labels : List Event)
    (state : SupervisorState) (hrun : Run (Step supervisor) supervisor.initial labels state) :
    SupervisionSafe supervisor labels state where
  limit := (valid_of_run hrun).workers.limit
  admitted := (valid_of_run hrun).workers.admitted
  closed := by
    rintro before event after rfl hcloses
    by_contra hnonempty
    obtain ⟨position, hposition⟩ := List.exists_mem_of_ne_nil _ hnonempty
    obtain ⟨admission, hmem, hadmitted⟩ := List.mem_filterMap.mp hposition
    obtain ⟨earlier, later, rfl⟩ := List.append_of_mem hmem
    rw [← List.cons_append, ← List.append_assoc] at hrun
    obtain ⟨middle, next, hbefore, hstep⟩ := hrun.split
    have hclosed := (valid_of_run hbefore).errors.closed
      ⟨event, List.mem_append_right _ List.mem_cons_self, hcloses⟩
    cases hstep with
    | launch hphase hadmits =>
      rcases hclosed with hstopped | ⟨_, _, _, _, hjoining, -⟩
      · exact Bool.false_ne_true (hadmits.2.2.2.symm.trans hstopped)
      · cases hphase.symm.trans hjoining
    | _ => cases hadmitted
  ended := fun _ hended ↦ endsSafely_of_ended (valid_of_run hrun).workers
    (valid_of_run hrun).outcomes (valid_of_run hrun).errors (valid_of_run hrun).ending hended
  progress := progress_of_valid (valid_of_run hrun)

/-- A supervisor of one cell. -/
def soloSupervisor : Supervisor := ⟨[⟨"cell", "capsule"⟩], 1, List.nodup_singleton _⟩

/-- A worker that completes the only cell of a run. -/
theorem supervisionSafe_of_completed_cell :
    ∃ labels state, state.phase = .ended (.returned [⟨"cell", "capsule"⟩]) ∧
      SupervisionSafe soloSupervisor labels state := by
  have hstart : Run (Step soloSupervisor) soloSupervisor.initial [] soloSupervisor.initial := .nil
  have hadmitted := ((hstart.snoc (.launch rfl (by decide +kernel))).snoc (.started rfl)).snoc
    (.admitted rfl (by decide +kernel))
  have hready := hadmitted.snoc (.ready rfl ⟨0, List.mem_cons_self, List.mem_singleton_self 0⟩)
  have hsettled := ((hready.snoc (.receive rfl rfl (.sent (.ok "capsule")))).snoc
    (.joined 0 none true rfl rfl)).snoc (.settled rfl)
  have hrun := (hsettled.snoc (.admitted rfl (by decide +kernel))).snoc (.finish rfl rfl)
  exact ⟨_, _, rfl, supervisionSafe_of_run _ _ _ hrun⟩

end Runs

/-! ### The length of a run -/

section Length

variable {supervisor : Supervisor} {state next : SupervisorState} {event : Event}
  {labels : List Event}

/-- The event is neither a stop from outside nor a join that is repeated. -/
def advances : Event → Bool
  | .stop | .joinInterrupted _ => false
  | _ => true

/-- The most events that a phase leads to before the workers are waited for. -/
def phaseEffort : Phase → ℕ
  | .starting _ => 8
  | .joining _ _ _ => 4
  | .settling [] => 3
  | .admitting => 2
  | .waiting => 1
  | .settling (_ :: _) | .ended _ => 0

/-- The most events that are left: a cell is launched and started, and a worker is received and
joined. -/
def effort (supervisor : Supervisor) (state : SupervisorState) : ℕ :=
  7 * (supervisor.cells.length - state.nextCell) + 5 * state.workers.length +
    phaseEffort state.phase

/-- No event raises what is left, and every event that advances the run lowers it. -/
theorem effort_step (hvalid : WorkersValid supervisor labels state)
    (hstep : Step supervisor state event next) :
    effort supervisor next + (if advances event = true then 1 else 0) ≤
      effort supervisor state := by
  have herase {position : ℕ} {ready : List ℕ} (hphase : state.phase = .settling (position :: ready)) :
      (state.workers.erase position).length + 1 = state.workers.length := by
    have hmem := hvalid.ready.subset (by rw [hphase]; exact List.mem_cons_self)
    rw [List.length_erase_of_mem hmem]
    exact Nat.sub_add_cancel (List.length_pos_of_mem hmem)
  have hsettling {ready : List ℕ} (hready : ready ≠ []) : phaseEffort (.settling ready) = 0 := by
    cases ready with
    | nil => exact absurd rfl hready
    | cons => rfl
  unfold effort
  cases hstep with
  | stop | joinInterrupted => exact le_rfl
  | launch hphase hadmits =>
    have hlt := hadmits.1
    simp only [hphase, enter, phaseEffort, advances, ↓reduceIte]
    omega
  | started hphase =>
    simp only [hphase, enter, phaseEffort, advances, ↓reduceIte, List.length_append,
      List.length_singleton]
    omega
  | @startFailed _ _ alive _ _ hphase =>
    cases alive <;> simp [hphase, enter, phaseEffort, advances, fail, record, conclude] <;> omega
  | admitted hphase | settled hphase | finish hphase =>
    simp only [hphase, enter, phaseEffort, advances, ↓reduceIte]
    omega
  | @ready positions hphase hready =>
    obtain ⟨position, hworker, hposition⟩ := hready
    have hmem : position ∈ state.workers.filter fun worker ↦ worker ∈ positions :=
      List.mem_filter.mpr ⟨hworker, decide_eq_true hposition⟩
    simp only [hphase, enter, advances, ↓reduceIte, hsettling (List.ne_nil_of_mem hmem)]
    exact le_rfl
  | waitFailed _ hphase hworkers =>
    simp only [hphase, enter, record, advances, ↓reduceIte, hsettling hworkers]
    exact le_rfl
  | receive hphase | receiveFailed _ _ hphase =>
    have hlength := herase hphase
    simp only [hphase, enter, fail, record, conclude, phaseEffort, advances, ↓reduceIte]
    omega
  | @joined position cell ready message exitcode closeError rootExists hphase =>
    obtain ⟨hnextCell, hworkers⟩ := settle_frame state cell message exitcode closeError rootExists
    have hless : phaseEffort (.settling ready) + 1 ≤
        phaseEffort (.joining position message ready) := by
      cases ready <;> simp [phaseEffort]
    simp only [hphase, enter, hnextCell, hworkers, advances, ↓reduceIte]
    omega

/-- Whatever its workers do, a run of a supervisor has a bounded number of events that advance
it. -/
theorem countP_advances_le (hrun : Run (Step supervisor) supervisor.initial labels state) :
    labels.countP advances ≤ 7 * supervisor.cells.length + 2 := by
  have hbound := hrun.countP_add_le (fun state ↦ ∃ labels, WorkersValid supervisor labels state)
    (effort supervisor) advances ⟨[], .initial⟩ ?_
  · have hinitial : effort supervisor supervisor.initial = 7 * supervisor.cells.length + 2 := rfl
    omega
  · rintro state event next ⟨labels, hvalid⟩ hstep
    exact ⟨⟨_, hvalid.step hstep⟩, effort_step hvalid hstep⟩

/-- The only cell is launched. -/
theorem countP_advances_of_launch :
    [Event.launch 0].countP advances ≤ 7 * soloSupervisor.cells.length + 2 :=
  countP_advances_le (Run.nil.snoc (.launch rfl (by decide +kernel)))

end Length

end Oamb.Live.SupervisionGuarantees
