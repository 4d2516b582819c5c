import Oamb.Runtime.PipelineGuarantees

/-!
# The pipeline comes to its end

Before its end, a pipeline whose pools have permits is never stuck (`progress_of_valid`). What is
left to do is bounded by a potential that no event raises, and that only the requests from outside
leave as it is (`potential_step`).
-/

set_option autoImplicit false

namespace Oamb.Runtime.PipelineProgress

open Foundation.LabelledRuns Foundation.PermitPool
open PipelineAdmission PipelineGuarantees

variable {ρ κ : Type} {pipeline : PipelineAdmission.Pipeline} {state next : PipelineState ρ κ}
  {event : Event ρ κ} {events : List (Event ρ κ)}

/-- The event is no request from outside. -/
def inside : Event ρ κ → Bool
  | .stopRequest | .cancelMain => false
  | _ => true

/-- An event from inside can happen. -/
def Enabled (pipeline : PipelineAdmission.Pipeline) (state : PipelineState ρ κ) : Prop :=
  ∃ event next, inside event = true ∧ Step pipeline state event next

/-! ### Progress -/

theorem enabled_of_holding {id : OperationId} (hholds : 0 < (state.phases id).permits) :
    Enabled pipeline state := by
  cases hphase : state.phases id with
  | granted =>
    cases hstopping : state.stopping with
    | false => exact ⟨_, _, rfl, .start hphase hstopping⟩
    | true => exact ⟨_, _, rfl, .giveBack hphase hstopping⟩
  | running => exact ⟨.failed id false, _, rfl, .failed hphase nofun⟩
  | _ => simp [hphase, Phase.permits] at hholds

/-- All permits of a pool are free when no task holds one. -/
theorem enabled_of_waiting (hlimits : ∀ pool, 0 < pipeline.limit pool)
    (hpermits : PermitsValid pipeline state) {id : OperationId}
    (hphase : state.phases id = .waiting) : Enabled pipeline state := by
  by_cases hholds : ∃ other, 0 < (state.phases other).permits
  · exact enabled_of_holding hholds.choose_spec
  · have hfree : held Phase.permits (members pipeline id.pool) state.phases = 0 :=
      Finset.sum_eq_zero fun other _ ↦
        Nat.eq_zero_of_not_pos fun hpos ↦ hholds ⟨other, hpos⟩
    have hlimit := hpermits id.pool
    rw [hfree, Nat.add_zero] at hlimit
    exact ⟨_, _, rfl, .grant hphase (hlimit ▸ hlimits id.pool)⟩

/-- A task that has not ended and settles nothing lets an event happen. -/
theorem enabled_of_pending (hlimits : ∀ pool, 0 < pipeline.limit pool)
    (hpermits : PermitsValid pipeline state) {id : OperationId}
    (hpresent : state.phases id ≠ .absent) (hpending : ¬(state.phases id).ended = true)
    (hunsettled : ∀ interrupted, state.phases id ≠ .settling interrupted) :
    Enabled pipeline state := by
  cases hphase : state.phases id with
  | absent => exact absurd hphase hpresent
  | created =>
    cases hstopping : state.stopping with
    | false => exact ⟨_, _, rfl, .enter hphase hstopping⟩
    | true => exact ⟨_, _, rfl, .decline hphase hstopping⟩
  | waiting => exact enabled_of_waiting hlimits hpermits hphase
  | granted | running => exact enabled_of_holding (by rw [hphase]; exact Nat.one_pos)
  | settling interrupted => exact absurd hphase (hunsettled interrupted)
  | done ending => exact absurd (by rw [hphase]; rfl) hpending

/-- Before its end, an event from inside can happen. -/
theorem progress_of_valid (hlimits : ∀ pool, 0 < pipeline.limit pool)
    (hvalid : Valid pipeline events state) {cancelled : Bool}
    (hmain : state.main = .settling cancelled) : Enabled pipeline state := by
  by_cases hended : ∀ plan < pipeline.plans.length, (state.phases (.history plan)).ended = true
  · exact ⟨_, _, rfl, .finish hmain hended⟩
  · push Not at hended
    obtain ⟨plan, hplan, hpending⟩ := hended
    by_cases hsettling : ∃ interrupted, state.phases (.history plan) = .settling interrupted
    · -- The history task settles, or one of its questions is pending.
      obtain ⟨interrupted, hphase⟩ := hsettling
      by_cases hquestions : ∀ case ∈ pipeline.casesOf plan,
          (state.phases (.question case)).ended = true
      · exact ⟨_, _, rfl, .settle hphase hquestions⟩
      · push Not at hquestions
        obtain ⟨case, hcase, hpending⟩ := hquestions
        have hpresent : state.phases (.question case) ≠ .absent :=
          (hvalid.tasks.questions case).mpr ⟨plan, hcase, by rw [hphase]; rfl⟩
        exact enabled_of_pending hlimits hvalid.permits hpresent hpending
          (hvalid.tasks.unsettled case)
    · have hpresent : state.phases (.history plan) ≠ .absent := fun habsent ↦
        (hvalid.tasks.histories plan).mp habsent hplan
      exact enabled_of_pending hlimits hvalid.permits hpresent hpending
        (not_exists.mp hsettling)

/-! ### The potential -/

/-- The most events of a task that are left. -/
def effort : Phase → ℕ
  | .absent | .created => 6
  | .waiting => 5
  | .granted => 4
  | .running => 3
  | .settling false => 2
  | .settling true => 1
  | .done _ => 0

/-- The most events of the pipeline itself that are left. -/
def mainEffort : MainPhase ρ κ → ℕ
  | .settling false => 2
  | .settling true => 1
  | _ => 0

/-- The tasks of a pipeline. -/
def tasks (pipeline : PipelineAdmission.Pipeline) : Finset OperationId :=
  members pipeline .history ∪ members pipeline .question

/-- The most events that are left. -/
def potential (pipeline : PipelineAdmission.Pipeline) (state : PipelineState ρ κ) : ℕ :=
  held effort (tasks pipeline) state.phases + mainEffort state.main

theorem mem_tasks (hvalid : TasksValid pipeline state) {id : OperationId}
    (hpresent : state.phases id ≠ .absent) : id ∈ tasks pipeline := by
  rw [tasks, Finset.mem_union, hvalid.mem_members hpresent, hvalid.mem_members hpresent]
  cases id with
  | history plan => exact Or.inl rfl
  | question case => exact Or.inr rfl

/-- The move of a task to a phase with less left lowers the potential. -/
theorem potential_move (hvalid : TasksValid pipeline state) {id : OperationId} {phase : Phase}
    (hpresent : state.phases id ≠ .absent) (hless : effort phase < effort (state.phases id)) :
    held effort (tasks pipeline) (Function.update state.phases id phase) + mainEffort state.main +
      1 ≤ potential pipeline state := by
  have hupdate := held_update effort state.phases (mem_tasks hvalid hpresent) phase
  rw [potential]
  omega

/-- The questions of a plan are as much work after its ingestion as before it. -/
theorem held_ingested (hvalid : TasksValid pipeline state) {plan : ℕ}
    (hphase : state.phases (.history plan) = .running) (records : List (Option ρ)) :
    held effort (tasks pipeline) ((({ state with planRecords := records }.release
        .history).createQuestions (pipeline.casesOf plan)).move (.history plan)
          (.settling false)).phases =
      held effort (tasks pipeline)
        (Function.update state.phases (.history plan) (.settling false)) := by
  refine Finset.sum_congr rfl fun id _ ↦ ?_
  cases id with
  | history other => simp [PipelineState.move, PipelineState.createQuestions,
      PipelineState.release, Function.update_apply]
  | question case =>
    simp only [PipelineState.move, PipelineState.createQuestions, PipelineState.release,
      Function.update_apply, reduceCtorEq, ↓reduceIte]
    split_ifs with hcase
    · rw [hvalid.absent_of_running hphase hcase]
      rfl
    · rfl

/-- No event raises the potential, and every event from inside lowers it. -/
theorem potential_step (hvalid : TasksValid pipeline state)
    (hstep : Step pipeline state event next) :
    potential pipeline next + (if inside event = true then 1 else 0) ≤
      potential pipeline state := by
  cases hstep with
  | stopRequest => exact le_rfl
  | @cancelMain cancelled hmain =>
    rw [potential, potential, hmain]
    cases cancelled <;> simp [inside, mainEffort]
  | cancelPlanned hmain =>
    rw [potential, potential, hmain]
    simp [inside, mainEffort]
  | enter hphase | decline hphase | grant hphase | start hphase | giveBack hphase
  | failed hphase | answered hphase | cancelledGranted hphase | interrupt hphase =>
    exact potential_move hvalid (by rw [hphase]; nofun) (by rw [hphase]; decide)
  | cancelled hphase =>
    rcases hphase with hphase | hphase <;>
      exact potential_move hvalid (by rw [hphase]; nofun) (by rw [hphase]; decide)
  | @settle plan interrupted hphase =>
    refine potential_move hvalid (by rw [hphase]; nofun) ?_
    rw [hphase]
    cases interrupted <;> exact Nat.succ_pos _
  | @ingested plan _ hphase =>
    have hlower : held effort (tasks pipeline)
        (Function.update state.phases (.history plan) (.settling false)) + mainEffort state.main +
          1 ≤ potential pipeline state :=
      potential_move hvalid (by rw [hphase]; nofun) (by rw [hphase]; decide)
    rw [potential, held_ingested hvalid hphase]
    exact hlower
  | @finish cancelled hmain =>
    rw [potential, potential, hmain]
    have hmore : 1 ≤ mainEffort (.settling cancelled : MainPhase ρ κ) := by
      cases cancelled <;> exact Nat.succ_pos _
    have hended : mainEffort (state.finished pipeline.plans.length cancelled) = 0 := by
      rw [PipelineState.finished]
      split_ifs <;> rfl
    simp only [inside, hended, ↓reduceIte]
    omega

theorem potential_initial :
    potential pipeline (pipeline.initial : PipelineState ρ κ) ≤
      6 * (pipeline.plans.length + pipeline.cases.length) + 2 := by
  have hcard : (tasks pipeline).card ≤ pipeline.plans.length + pipeline.cases.length := by
    refine (Finset.card_union_le _ _).trans (Nat.add_le_add ?_ ?_)
    · exact Finset.card_image_le.trans (Finset.card_range _).le
    · exact Finset.card_image_le.trans (Finset.card_range _).le
  have heach : ∀ id ∈ tasks pipeline,
      effort ((pipeline.initial : PipelineState ρ κ).phases id) ≤ 6 := by
    intro id _
    cases id with
    | history plan =>
      simp only [PipelineAdmission.Pipeline.initial]
      split_ifs <;> exact le_rfl
    | question case => exact le_rfl
  have hheld : held effort (tasks pipeline) (pipeline.initial : PipelineState ρ κ).phases ≤
      (tasks pipeline).card * 6 :=
    (Finset.sum_le_sum heach).trans (Finset.sum_const_nat fun _ _ ↦ rfl).le
  have hmain : mainEffort (pipeline.initial : PipelineState ρ κ).main = 2 := rfl
  rw [potential, hmain]
  omega

/-! ### Runs -/

/-- The events from inside are bounded by the plans and cases, and before the end of the pipeline one
of them can happen. -/
structure Progresses (pipeline : PipelineAdmission.Pipeline) (events : List (Event ρ κ))
    (state : PipelineState ρ κ) : Prop where
  bounded : events.countP inside ≤ 6 * (pipeline.plans.length + pipeline.cases.length) + 2
  unstuck : ¬Finished state → Enabled pipeline state

/-- Whatever is requested of it, a pipeline whose pools have permits is never stuck before its end,
and comes to it after a bounded number of events from inside. -/
theorem progresses_of_run (hlimits : ∀ pool, 0 < pipeline.limit pool)
    (hrun : Run (Step pipeline) pipeline.initial events state) :
    Progresses pipeline events state where
  bounded := by
    have hbound := hrun.countP_add_le (TasksValid pipeline) (potential pipeline) inside .initial
      fun _ _ _ hvalid hstep ↦ ⟨hvalid.step hstep, potential_step hvalid hstep⟩
    have hinitial : potential pipeline (pipeline.initial : PipelineState ρ κ) ≤ _ :=
      potential_initial
    omega
  unstuck := by
    intro hfinished
    rw [Finished, not_forall] at hfinished
    obtain ⟨cancelled, hmain⟩ := hfinished
    exact progress_of_valid hlimits (valid_of_run hrun) (not_not.mp hmain)

/-- The ingestion of the plan is started. -/
theorem progresses_of_started_history : ∃ state : PipelineState String String,
    Progresses singlePipeline [.enter (.history 0), .grant (.history 0), .start (.history 0)]
      state ∧ ¬Finished state :=
  ⟨_, progresses_of_run (fun pool ↦ by cases pool <;> exact Nat.zero_lt_one)
    (((Run.nil.snoc (.enter rfl rfl)).snoc (.grant rfl Nat.zero_lt_one)).snoc (.start rfl rfl)),
    fun hfinished ↦ hfinished false rfl⟩

end Oamb.Runtime.PipelineProgress
