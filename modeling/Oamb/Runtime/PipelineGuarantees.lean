import Oamb.Foundation.PermitPool
import Oamb.Runtime.PipelineAdmission

/-!
# What the pipeline guarantees

The invariant of a pipeline has four parts, and each of them is kept by every step. `TasksValid`
says which tasks exist: a history task for every plan, a question task for every case of a plan
whose ingestion completed, and a history task ends after its questions. `PermitsValid` says that the
free permits of a pool and those its tasks hold are its limit. `EventsValid` reads the phases, the
records and the closing of the admission off the events of the run, and `MainValid` is about the end
of the pipeline.

`admissionSafe_of_run` is what follows for every run: the limits hold, no operation is started after
an error or a stop request, a case is started after its own plan was ingested, nothing is started
twice or left unsettled, and a pipeline that returns has one record in every position.
-/

set_option autoImplicit false

namespace Oamb.Runtime.PipelineGuarantees

open Foundation Foundation.LabelledRuns Foundation.PermitPool
open PipelineAdmission

/-! ### The assignment of the cases -/

section Assignment

variable {positions : Dictionary String ℕ}

theorem of_selectCases {caseIds assigned assigned' : List String} {selected : List ℕ}
    (hselect : selectCases positions caseIds assigned = .ok (selected, assigned')) :
    assigned' = assigned ++ caseIds ∧ (assigned.Nodup → assigned'.Nodup) ∧
      ∀ position, position ∈ selected ↔
        ∃ caseId ∈ caseIds, positions.lookup caseId = some position := by
  induction caseIds generalizing assigned selected with
  | nil =>
    cases hselect
    exact ⟨(List.append_nil _).symm, id, by simp⟩
  | cons caseId rest ih =>
    rw [selectCases] at hselect
    cases hlookup : positions.lookup caseId with
    | none => simp [hlookup] at hselect
    | some position =>
      simp only [hlookup] at hselect
      split_ifs at hselect with hassigned
      cases hrest : selectCases positions rest (assigned ++ [caseId]) with
      | error message => simp [hrest, bind, Except.bind] at hselect
      | ok result =>
        obtain ⟨selected', final⟩ := result
        simp only [hrest, bind, Except.bind, pure, Except.pure, Except.ok.injEq,
          Prod.mk.injEq] at hselect
        obtain ⟨rfl, rfl⟩ := hselect
        obtain ⟨happend, hnodup, hselected⟩ := ih hrest
        refine ⟨by rw [happend, List.append_assoc, List.singleton_append], fun hbefore ↦ ?_,
          fun other ↦ ?_⟩
        · exact hnodup (List.nodup_append'.mpr ⟨hbefore, List.nodup_singleton _,
            List.disjoint_singleton.mpr hassigned⟩)
        · rw [List.mem_cons, hselected, List.exists_mem_cons_iff, hlookup, Option.some.injEq,
            eq_comm]

theorem of_selectPlans {plans : List IngestionPlan} {casesByPlan result : Dictionary String (List ℕ)}
    {assigned assigned' : List String}
    (hdistinct : (plans.map IngestionPlan.ingestionPlanId).Nodup)
    (hselect : selectPlans positions plans casesByPlan assigned = .ok (result, assigned')) :
    assigned' = assigned ++ plans.flatMap IngestionPlan.orderedCaseManifestEntryIds ∧
      (assigned.Nodup → assigned'.Nodup) ∧
      (∀ planId ∉ plans.map IngestionPlan.ingestionPlanId,
        result.lookup planId = casesByPlan.lookup planId) ∧
      ∀ plan ∈ plans, ∃ selected, result.lookup plan.ingestionPlanId = some selected ∧
        ∀ position, position ∈ selected ↔ ∃ caseId ∈ plan.orderedCaseManifestEntryIds,
          positions.lookup caseId = some position := by
  induction plans generalizing casesByPlan assigned with
  | nil =>
    cases hselect
    exact ⟨(List.append_nil _).symm, id, fun _ _ ↦ rfl, nofun⟩
  | cons plan rest ih =>
    rw [List.map_cons, List.nodup_cons] at hdistinct
    rw [selectPlans] at hselect
    cases hfirst : selectCases positions plan.orderedCaseManifestEntryIds assigned with
    | error message => simp [hfirst, bind, Except.bind] at hselect
    | ok selection =>
      obtain ⟨selected, middle⟩ := selection
      simp only [hfirst, bind, Except.bind] at hselect
      obtain ⟨happend, hnodup, hselected⟩ := of_selectCases hfirst
      obtain ⟨hrest, hrestNodup, hothers, hplans⟩ := ih hdistinct.2 hselect
      refine ⟨?_, fun hbefore ↦ hrestNodup (hnodup hbefore), fun planId hnot ↦ ?_,
        List.forall_mem_cons.mpr ⟨⟨selected, ?_, hselected⟩, hplans⟩⟩
      · rw [hrest, happend, List.flatMap_cons, List.append_assoc]
      · rw [List.map_cons, List.mem_cons, not_or] at hnot
        rw [hothers planId hnot.2, AList.lookup_insert_ne hnot.1]
      · rw [hothers _ hdistinct.1, AList.lookup_insert]

theorem lookup_caseById {cases : List CasePlan}
    (hnodup : (cases.map CasePlan.caseManifestEntryId).Nodup) {caseId : String} {position : ℕ} :
    (caseById cases).lookup caseId = some position ↔
      (cases.map CasePlan.caseManifestEntryId)[position]? = some caseId := by
  have hkeys : (((cases.map CasePlan.caseManifestEntryId).zipIdx).map Prod.fst).Nodup := by
    rwa [List.zipIdx_map_fst]
  rw [caseById, Dictionary.lookup_ofList hkeys, List.mem_zipIdx_iff_getElem?]

end Assignment

namespace Pipeline

variable (pipeline : Pipeline)

/-- The case at a position belongs to the plan at a position. -/
def Belongs (case plan : ℕ) : Prop :=
  ∃ entry casePlan, pipeline.plans[plan]? = some entry ∧ pipeline.cases[case]? = some casePlan ∧
    casePlan.caseManifestEntryId ∈ entry.orderedCaseManifestEntryIds

/-- What the assignment of a pipeline says. -/
theorem of_assigned :
    (pipeline.cases.map CasePlan.caseManifestEntryId).Nodup ∧
      (pipeline.plans.flatMap IngestionPlan.orderedCaseManifestEntryIds).Nodup ∧
      (∀ case ∈ pipeline.cases, case.caseManifestEntryId ∈
        pipeline.plans.flatMap IngestionPlan.orderedCaseManifestEntryIds) ∧
      ∀ plan ∈ pipeline.plans, ∃ selected,
        pipeline.casesByPlan.lookup plan.ingestionPlanId = some selected ∧
        ∀ position, position ∈ selected ↔ ∃ caseId ∈ plan.orderedCaseManifestEntryIds,
          (caseById pipeline.cases).lookup caseId = some position := by
  have hassigned := pipeline.assigned
  rw [assignCases] at hassigned
  split_ifs at hassigned with hnodup
  cases hselect : selectPlans (caseById pipeline.cases) pipeline.plans ∅ [] with
  | error message => simp [hselect, bind, Except.bind] at hassigned
  | ok result =>
    obtain ⟨casesByPlan, assigned⟩ := result
    simp only [hselect, bind, Except.bind] at hassigned
    split_ifs at hassigned with hall
    simp only [pure, Except.pure, Except.ok.injEq] at hassigned
    obtain ⟨happend, hnodupAssigned, -, hplans⟩ := of_selectPlans pipeline.distinct hselect
    rw [List.nil_append] at happend
    exact ⟨hnodup, happend ▸ hnodupAssigned List.nodup_nil, happend ▸ hall,
      hassigned ▸ hplans⟩

theorem mem_casesOf {case plan : ℕ} :
    case ∈ pipeline.casesOf plan ↔ Belongs pipeline case plan := by
  obtain ⟨hnodup, -, -, hplans⟩ := of_assigned pipeline
  rw [PipelineAdmission.Pipeline.casesOf, Belongs]
  cases hplan : pipeline.plans[plan]? with
  | none => simp
  | some entry =>
    obtain ⟨selected, hselected, hpositions⟩ := hplans entry (List.mem_of_getElem? hplan)
    simp only [hselected, Option.getD_some, hpositions, lookup_caseById hnodup, List.getElem?_map,
      Option.map_eq_some_iff, Option.some.injEq]
    constructor
    · rintro ⟨caseId, hmem, casePlan, hcase, rfl⟩
      exact ⟨entry, casePlan, rfl, hcase, hmem⟩
    · rintro ⟨_, casePlan, rfl, hcase, hmem⟩
      exact ⟨_, hmem, casePlan, hcase, rfl⟩

/-- A case belongs to one plan only. -/
theorem Belongs.unique {case first second : ℕ} (hfirst : Belongs pipeline case first)
    (hsecond : Belongs pipeline case second) : first = second := by
  obtain ⟨-, hnodup, -, -⟩ := of_assigned pipeline
  obtain ⟨firstPlan, casePlan, hfirstPlan, hcase, hmemFirst⟩ := hfirst
  obtain ⟨secondPlan, casePlan', hsecondPlan, hcase', hmemSecond⟩ := hsecond
  rw [hcase, Option.some.injEq] at hcase'
  subst hcase'
  have hdisjoint := List.pairwise_iff_getElem.mp (List.nodup_flatMap.mp hnodup).2
  obtain ⟨hfirstLt, rfl⟩ := List.getElem?_eq_some_iff.mp hfirstPlan
  obtain ⟨hsecondLt, rfl⟩ := List.getElem?_eq_some_iff.mp hsecondPlan
  rcases lt_trichotomy first second with hlt | heq | hgt
  · exact absurd hmemSecond (hdisjoint first second hfirstLt hsecondLt hlt hmemFirst)
  · exact heq
  · exact absurd hmemFirst (hdisjoint second first hsecondLt hfirstLt hgt hmemSecond)

theorem Belongs.lt {case plan : ℕ} (hbelongs : Belongs pipeline case plan) :
    case < pipeline.cases.length ∧ plan < pipeline.plans.length := by
  obtain ⟨entry, casePlan, hplan, hcase, -⟩ := hbelongs
  exact ⟨(List.getElem?_eq_some_iff.mp hcase).1, (List.getElem?_eq_some_iff.mp hplan).1⟩

end Pipeline

/-! ### The tasks -/

section Tasks

variable {ρ κ : Type} {pipeline : PipelineAdmission.Pipeline} {state next : PipelineState ρ κ}
  {event : Event ρ κ}

/-- What holds of the tasks in every reachable state. -/
structure TasksValid (pipeline : PipelineAdmission.Pipeline) (state : PipelineState ρ κ) : Prop where
  /-- There is a history task for every plan. -/
  histories : ∀ plan, state.phases (.history plan) = .absent ↔ ¬ plan < pipeline.plans.length
  /-- There is a question task for every case of a plan whose ingestion completed. -/
  questions : ∀ case, state.phases (.question case) ≠ .absent ↔
    ∃ plan, case ∈ pipeline.casesOf plan ∧ (state.phases (.history plan)).returned = true
  /-- A question task has no questions of its own. -/
  unsettled : ∀ case interrupted, state.phases (.question case) ≠ .settling interrupted
  /-- A history task ends after its questions. -/
  children : ∀ plan failed, state.phases (.history plan) = .done (.completed failed) →
    ∀ case ∈ pipeline.casesOf plan, (state.phases (.question case)).ended = true

theorem TasksValid.initial : TasksValid pipeline (pipeline.initial : PipelineState ρ κ) where
  histories := by
    intro plan
    simp only [PipelineAdmission.Pipeline.initial]
    split_ifs <;> simp_all
  questions := by
    intro case
    simp only [PipelineAdmission.Pipeline.initial, ne_eq, not_true_eq_false, false_iff]
    rintro ⟨plan, -, hreturned⟩
    split_ifs at hreturned <;> cases hreturned
  unsettled := nofun
  children := by
    intro plan failed hphase
    simp only [PipelineAdmission.Pipeline.initial] at hphase
    split_ifs at hphase

/-- One task goes from its phase to another. -/
structure Move (pipeline : PipelineAdmission.Pipeline) (state : PipelineState ρ κ)
    (id : OperationId) (phase : Phase) : Prop where
  pending : state.phases id ≠ .absent ∧ (state.phases id).ended = false
  present : phase ≠ .absent
  returned : ∀ plan, id = .history plan → phase.returned = (state.phases id).returned
  unsettled : ∀ case interrupted, id = .question case → phase ≠ .settling interrupted
  children : ∀ plan failed, id = .history plan → phase = .done (.completed failed) →
    ∀ case ∈ pipeline.casesOf plan, (state.phases (.question case)).ended = true

/-- The phases after an ingestion: the history task settles, and its questions are created. -/
def ingestedPhases (pipeline : PipelineAdmission.Pipeline) (phases : OperationId → Phase)
    (plan : ℕ) : OperationId → Phase
  | .history other => if other = plan then .settling false else phases (.history other)
  | .question case => if case ∈ pipeline.casesOf plan then .created else phases (.question case)

/-- What a step does to the tasks: nothing, one move, or the completion of an ingestion. -/
theorem phases_of_step (hstep : Step pipeline state event next) :
    next.phases = state.phases ∨
      (∃ id phase, Move pipeline state id phase ∧
        next.phases = Function.update state.phases id phase) ∨
      ∃ plan record, event = .ingested plan record ∧ state.phases (.history plan) = .running ∧
        next.phases = ingestedPhases pipeline state.phases plan := by
  cases hstep with
  | stopRequest | cancelMain | cancelPlanned | finish => exact Or.inl rfl
  | enter hphase | decline hphase | grant hphase | start hphase | giveBack hphase | failed hphase
  | cancelledGranted hphase =>
    refine Or.inr (Or.inl ⟨_, _, ?_, rfl⟩)
    constructor <;> simp [hphase, Phase.ended, Phase.returned]
  | answered hphase =>
    refine Or.inr (Or.inl ⟨_, _, ?_, rfl⟩)
    constructor <;> simp [hphase, Phase.ended]
  | cancelled hphase =>
    refine Or.inr (Or.inl ⟨_, _, ?_, rfl⟩)
    rcases hphase with hphase | hphase <;>
      constructor <;> simp [hphase, Phase.ended, Phase.returned]
  | interrupt hphase =>
    refine Or.inr (Or.inl ⟨_, _, ?_, rfl⟩)
    constructor <;> simp [hphase, Phase.ended, Phase.returned]
  | settle hphase hended =>
    refine Or.inr (Or.inl ⟨_, _, ?_, rfl⟩)
    refine ⟨by simp [hphase, Phase.ended], nofun, ?_, nofun, ?_⟩
    · simp [hphase, Phase.returned]
    · rintro _ _ hid -
      cases hid
      exact hended
  | ingested hphase =>
    refine Or.inr (Or.inr ⟨_, _, rfl, hphase, ?_⟩)
    funext id
    cases id <;> simp [PipelineState.move, PipelineState.createQuestions, PipelineState.release,
      ingestedPhases, Function.update_apply]

theorem TasksValid.move (hvalid : TasksValid pipeline state) {id : OperationId} {phase : Phase}
    (hmove : Move pipeline state id phase)
    (hphases : next.phases = Function.update state.phases id phase) :
    TasksValid pipeline next := by
  have hother {other : OperationId} (hne : other ≠ id) : next.phases other = state.phases other := by
    rw [hphases, Function.update_of_ne hne]
  have hself : next.phases id = phase := by rw [hphases, Function.update_self]
  have habsent (other : OperationId) : next.phases other = .absent ↔ state.phases other = .absent := by
    by_cases hne : other = id
    · subst hne
      rw [hself]
      exact iff_of_false hmove.present hmove.pending.1
    · rw [hother hne]
  have hreturned (plan : ℕ) : (next.phases (.history plan)).returned =
      (state.phases (.history plan)).returned := by
    by_cases hne : OperationId.history plan = id
    · rw [hne, hself, hmove.returned plan hne.symm]
    · rw [hother hne]
  have hended {other : OperationId} (hdone : (state.phases other).ended = true) :
      (next.phases other).ended = true := by
    rw [hother]
    · exact hdone
    · rintro rfl
      rw [hmove.pending.2] at hdone
      cases hdone
  constructor
  · intro plan
    rw [habsent, hvalid.histories]
  · intro case
    simp only [ne_eq, habsent, hreturned]
    exact hvalid.questions case
  · intro case interrupted
    by_cases hne : OperationId.question case = id
    · rw [hne, hself]
      exact hmove.unsettled case interrupted hne.symm
    · rw [hother hne]
      exact hvalid.unsettled case interrupted
  · intro plan failed hdone case hcase
    by_cases hne : OperationId.history plan = id
    · rw [hne, hself] at hdone
      exact hended (hmove.children plan failed hne.symm hdone case hcase)
    · rw [hother hne] at hdone
      exact hended (hvalid.children plan failed hdone case hcase)

/-- Before its plan is ingested, a case has no task. -/
theorem TasksValid.absent_of_running (hvalid : TasksValid pipeline state) {plan : ℕ}
    (hrunning : state.phases (.history plan) = .running) {case : ℕ}
    (hcase : case ∈ pipeline.casesOf plan) : state.phases (.question case) = .absent := by
  by_contra hpresent
  obtain ⟨other, hother, hreturned⟩ := (hvalid.questions case).mp hpresent
  rw [Pipeline.mem_casesOf] at hcase hother
  rw [← Pipeline.Belongs.unique pipeline hcase hother, hrunning] at hreturned
  cases hreturned

theorem TasksValid.ingest (hvalid : TasksValid pipeline state) {plan : ℕ}
    (hrunning : state.phases (.history plan) = .running)
    (hphases : next.phases = ingestedPhases pipeline state.phases plan) :
    TasksValid pipeline next := by
  have hhistory (other : ℕ) : next.phases (.history other) =
      if other = plan then .settling false else state.phases (.history other) := by
    rw [hphases]
    rfl
  have hquestion (case : ℕ) : next.phases (.question case) =
      if case ∈ pipeline.casesOf plan then .created else state.phases (.question case) := by
    rw [hphases]
    rfl
  constructor
  · intro other
    rw [hhistory]
    split_ifs with heq
    · subst heq
      rw [← hvalid.histories, hrunning]
      simp
    · exact hvalid.histories other
  · intro case
    rw [hquestion]
    split_ifs with hcase
    · refine iff_of_true nofun ⟨plan, hcase, ?_⟩
      rw [hhistory, if_pos rfl]
      rfl
    · rw [hvalid.questions]
      refine exists_congr fun other ↦ and_congr_right fun hother ↦ ?_
      rw [hhistory, if_neg]
      rintro rfl
      exact hcase hother
  · intro case interrupted
    rw [hquestion]
    split_ifs
    · nofun
    · exact hvalid.unsettled case interrupted
  · intro other failed hdone case hcase
    rw [hhistory] at hdone
    split_ifs at hdone with heq
    have hended := hvalid.children other failed hdone case hcase
    rw [hquestion, if_neg]
    · exact hended
    · intro hmem
      rw [hvalid.absent_of_running hrunning hmem] at hended
      cases hended

theorem TasksValid.step (hvalid : TasksValid pipeline state)
    (hstep : Step pipeline state event next) : TasksValid pipeline next := by
  rcases phases_of_step hstep with hsame | ⟨id, phase, hmove, hphases⟩ |
    ⟨plan, record, -, hrunning, hphases⟩
  · constructor <;> rw [hsame]
    · exact hvalid.histories
    · exact hvalid.questions
    · exact hvalid.unsettled
    · exact hvalid.children
  · exact hvalid.move hmove hphases
  · exact hvalid.ingest hrunning hphases

end Tasks

/-! ### The permits -/

section Permits

variable {ρ κ : Type} {pipeline : PipelineAdmission.Pipeline} {state next : PipelineState ρ κ}
  {event : Event ρ κ}

/-- The operations of a pool. -/
def members (pipeline : PipelineAdmission.Pipeline) : Pool → Finset OperationId
  | .history => (Finset.range pipeline.plans.length).image .history
  | .question => (Finset.range pipeline.cases.length).image .question

theorem mem_members_history {pool : Pool} {plan : ℕ} :
    .history plan ∈ members pipeline pool ↔ pool = .history ∧ plan < pipeline.plans.length := by
  cases pool <;> simp [members]

theorem mem_members_question {pool : Pool} {case : ℕ} :
    .question case ∈ members pipeline pool ↔ pool = .question ∧ case < pipeline.cases.length := by
  cases pool <;> simp [members]

/-- A task that exists is one of its pool. -/
theorem TasksValid.mem_members (hvalid : TasksValid pipeline state) {id : OperationId}
    (hpresent : state.phases id ≠ .absent) (pool : Pool) :
    id ∈ members pipeline pool ↔ pool = id.pool := by
  cases id with
  | history plan =>
    rw [mem_members_history, OperationId.pool]
    exact and_iff_left (not_not.mp fun hlt ↦ hpresent ((hvalid.histories plan).mpr hlt))
  | question case =>
    obtain ⟨plan, hcase, -⟩ := (hvalid.questions case).mp hpresent
    rw [Pipeline.mem_casesOf] at hcase
    rw [mem_members_question, OperationId.pool]
    exact and_iff_left (Pipeline.Belongs.lt pipeline hcase).1

/-- The free permits of every pool and those its tasks hold are its limit. -/
def PermitsValid (pipeline : PipelineAdmission.Pipeline) (state : PipelineState ρ κ) : Prop :=
  ∀ pool, state.permits pool + held Phase.permits (members pipeline pool) state.phases =
    pipeline.limit pool

/-- The change of the free permits makes up for the move of a task. -/
theorem PermitsValid.move (hpermits : PermitsValid pipeline state)
    (hvalid : TasksValid pipeline state) {id : OperationId} {phase : Phase}
    (hpresent : state.phases id ≠ .absent)
    (hphases : next.phases = Function.update state.phases id phase)
    (hself : next.permits id.pool + phase.permits =
      state.permits id.pool + (state.phases id).permits)
    (hother : ∀ pool, pool ≠ id.pool → next.permits pool = state.permits pool) :
    PermitsValid pipeline next := by
  intro pool
  have hmembers := hvalid.mem_members hpresent pool
  rw [← hpermits pool, hphases]
  by_cases hpool : pool = id.pool
  · have hupdate := held_update Phase.permits state.phases (hmembers.mpr hpool) phase
    subst hpool
    omega
  · rw [held_update_of_notMem _ _ (fun hmem ↦ hpool (hmembers.mp hmem)), hother pool hpool]

theorem PermitsValid.ingest (hpermits : PermitsValid pipeline state)
    (hvalid : TasksValid pipeline state) {plan : ℕ}
    (hrunning : state.phases (.history plan) = .running)
    (hphases : next.phases = ingestedPhases pipeline state.phases plan)
    (hnext : next.permits = Function.update state.permits .history (state.permits .history + 1)) :
    PermitsValid pipeline next := by
  intro pool
  rw [← hpermits pool, hnext, hphases]
  cases pool with
  | history =>
    have hmember : .history plan ∈ members pipeline .history :=
      (hvalid.mem_members (by rw [hrunning]; nofun) _).mpr rfl
    have hupdate := held_update Phase.permits state.phases hmember (.settling false)
    have hcongr : held Phase.permits (members pipeline .history)
        (ingestedPhases pipeline state.phases plan) = held Phase.permits
          (members pipeline .history)
          (Function.update state.phases (.history plan) (.settling false)) := by
      refine Finset.sum_congr rfl fun id hid ↦ ?_
      obtain ⟨other, -, rfl⟩ := Finset.mem_image.mp hid
      simp only [ingestedPhases, Function.update_apply, OperationId.history.injEq]
    rw [hrunning] at hupdate
    simp only [Phase.permits] at hupdate
    rw [hcongr, Function.update_self]
    omega
  | question =>
    have hcongr : held Phase.permits (members pipeline .question)
        (ingestedPhases pipeline state.phases plan) =
          held Phase.permits (members pipeline .question) state.phases := by
      refine Finset.sum_congr rfl fun id hid ↦ ?_
      obtain ⟨case, -, rfl⟩ := Finset.mem_image.mp hid
      rw [ingestedPhases]
      split_ifs with hcase
      · rw [hvalid.absent_of_running hrunning hcase]
        rfl
      · rfl
    have hne : Pool.question ≠ .history := by
      decide
    rw [hcongr, Function.update_of_ne hne]

theorem PermitsValid.step (hpermits : PermitsValid pipeline state)
    (hvalid : TasksValid pipeline state) (hstep : Step pipeline state event next) :
    PermitsValid pipeline next := by
  cases hstep with
  | stopRequest | cancelMain | cancelPlanned | finish => exact hpermits
  | enter hphase | decline hphase | interrupt hphase | settle hphase =>
    refine hpermits.move hvalid (by rw [hphase]; nofun) rfl ?_ fun _ _ ↦ rfl
    rw [hphase]
    rfl
  | cancelled hphase =>
    rcases hphase with hphase | hphase
    all_goals
      refine hpermits.move hvalid (by rw [hphase]; nofun) rfl ?_ fun _ _ ↦ rfl
      rw [hphase]
      rfl
  | start hphase =>
    refine hpermits.move hvalid (by rw [hphase]; nofun) rfl ?_ fun _ _ ↦ rfl
    rw [hphase]
    rfl
  | grant hphase hfree =>
    refine hpermits.move hvalid (by rw [hphase]; nofun) rfl ?_ fun pool hne ↦
      Function.update_of_ne hne _ _
    simp only [PipelineState.move, PipelineState.take, Function.update_self, hphase, Phase.permits]
    omega
  | giveBack hphase | cancelledGranted hphase | failed hphase | answered hphase =>
    refine hpermits.move hvalid (by rw [hphase]; nofun) rfl ?_ fun pool hne ↦
      Function.update_of_ne hne _ _
    simp [PipelineState.move, PipelineState.release, PipelineState.latch, OperationId.pool, hphase,
      Phase.permits]
  | ingested hphase =>
    refine hpermits.ingest hvalid hphase ?_ rfl
    funext id
    cases id <;> simp [PipelineState.move, PipelineState.createQuestions, PipelineState.release,
      ingestedPhases, Function.update_apply]

theorem PermitsValid.initial :
    PermitsValid pipeline (pipeline.initial : PipelineState ρ κ) := by
  intro pool
  have hheld : held Phase.permits (members pipeline pool)
      (pipeline.initial : PipelineState ρ κ).phases = 0 := by
    refine Finset.sum_eq_zero fun id _ ↦ ?_
    cases id with
    | history plan =>
      simp only [PipelineAdmission.Pipeline.initial]
      split_ifs <;> rfl
    | question case => rfl
  rw [hheld]
  rfl

end Permits

/-! ### The events -/

section Events

variable {ρ κ : Type} {pipeline : PipelineAdmission.Pipeline} {state next : PipelineState ρ κ}
  {event : Event ρ κ}

/-- The moves of one task, with the events that make them. -/
inductive Moves : Event ρ κ → OperationId → Phase → Phase → Prop
  | enter (id : OperationId) : Moves (.enter id) id .created .waiting
  | decline (id : OperationId) : Moves (.decline id) id .created (.done .notAdmitted)
  | grant (id : OperationId) : Moves (.grant id) id .waiting .granted
  | start (id : OperationId) : Moves (.start id) id .granted .running
  | giveBack (id : OperationId) : Moves (.giveBack id) id .granted (.done .notAdmitted)
  | answered (case : ℕ) (record : κ) :
    Moves (.answered case record) (.question case) .running (.done (.completed false))
  | failed (id : OperationId) (interrupted : Bool) :
    Moves (.failed id interrupted) id .running (.done .raised)
  | cancelled (id : OperationId) {phase : Phase} (hpending : phase.started = false) :
    Moves (.cancelled id) id phase (.done .cancelled)
  | interrupt (plan : ℕ) :
    Moves (.interrupt plan) (.history plan) (.settling false) (.settling true)
  | settle (plan : ℕ) (interrupted failed : Bool) :
    Moves (.settle plan) (.history plan) (.settling interrupted) (.done (.completed failed))

/-- What a step does to the tasks, with its event. -/
theorem moves_of_step (hstep : Step pipeline state event next) :
    (next.phases = state.phases ∧ event.startOf = none ∧ event.settledOf = none) ∨
      (∃ id phase, Moves event id (state.phases id) phase ∧
        next.phases = Function.update state.phases id phase) ∨
      ∃ plan record, event = .ingested plan record ∧ state.phases (.history plan) = .running ∧
        next.phases = ingestedPhases pipeline state.phases plan := by
  cases hstep with
  | stopRequest | cancelMain | cancelPlanned | finish => exact Or.inl ⟨rfl, rfl, rfl⟩
  | enter hphase | decline hphase | grant hphase | start hphase | giveBack hphase | failed hphase
  | answered hphase | interrupt hphase | settle hphase =>
    refine Or.inr (Or.inl ⟨_, _, ?_, rfl⟩)
    rw [hphase]
    constructor
  | cancelled hphase =>
    refine Or.inr (Or.inl ⟨_, _, .cancelled _ ?_, rfl⟩)
    rcases hphase with hphase | hphase <;> rw [hphase] <;> rfl
  | cancelledGranted hphase =>
    exact Or.inr (Or.inl ⟨_, _, .cancelled _ (by rw [hphase]; rfl), rfl⟩)
  | ingested hphase =>
    refine Or.inr (Or.inr ⟨_, _, rfl, hphase, ?_⟩)
    funext id
    cases id <;> simp [PipelineState.move, PipelineState.createQuestions, PipelineState.release,
      ingestedPhases, Function.update_apply]

/-- A test of the phases changes with the event that makes it true. -/
theorem test_step (hvalid : TasksValid pipeline state) (hstep : Step pipeline state event next)
    {test : Phase → Bool} {becomes : Event ρ κ → Option OperationId}
    (hquiet : event.startOf = none → event.settledOf = none → becomes event = none)
    (hmoves : ∀ id old phase, Moves event id old phase →
      (test phase = true ↔ test old = true ∨ becomes event = some id) ∧
        (becomes event = none ∨ becomes event = some id))
    (hcreated : test .created = test .absent)
    (hingested : ∀ plan record, event = .ingested plan record →
      (test (.settling false) = true ↔
        test .running = true ∨ becomes event = some (.history plan)) ∧
        (becomes event = none ∨ becomes event = some (.history plan))) (id : OperationId) :
    test (next.phases id) = true ↔ test (state.phases id) = true ∨ becomes event = some id := by
  rcases moves_of_step hstep with ⟨hsame, hstart, hsettled⟩ | ⟨moved, phase, hmove, hphases⟩ |
    ⟨plan, record, hevent, hrunning, hphases⟩
  · rw [hsame, hquiet hstart hsettled]
    simp
  · obtain ⟨hself, hother⟩ := hmoves _ _ _ hmove
    rw [hphases]
    by_cases hid : id = moved
    · subst hid
      rw [Function.update_self, hself]
    · rw [Function.update_of_ne hid]
      rcases hother with hnone | hsome
      · simp [hnone]
      · simp [hsome, Ne.symm hid]
  · obtain ⟨hself, hother⟩ := hingested plan record hevent
    rw [hphases]
    have hquestion (case : ℕ) : becomes event ≠ some (.question case) := by
      rcases hother with hnone | hsome
      · rw [hnone]
        nofun
      · rw [hsome]
        nofun
    cases id with
    | history other =>
      rw [ingestedPhases]
      split_ifs with heq
      · rw [heq, hrunning, hself]
      · rcases hother with hnone | hsome
        · simp [hnone]
        · simp [hsome, Ne.symm heq]
    | question case =>
      rw [ingestedPhases]
      split_ifs with hcase
      · simp [hvalid.absent_of_running hrunning hcase, hcreated, hquestion]
      · simp [hquestion]

/-- Only its start makes an operation started. -/
theorem started_step (hvalid : TasksValid pipeline state)
    (hstep : Step pipeline state event next) (id : OperationId) :
    (next.phases id).started = true ↔
      (state.phases id).started = true ∨ event.startOf = some id := by
  refine test_step hvalid hstep (fun hnone _ ↦ hnone) ?_ rfl ?_ id
  · rintro moved old phase hmove
    cases hmove <;> simp_all [Phase.started, Event.startOf]
  · rintro plan record rfl
    simp [Phase.started, Event.startOf]

theorem started_of_returned {phase : Phase} (hreturned : phase.returned = true) :
    phase.started = true := by
  unfold Phase.returned at hreturned
  split at hreturned
  · rfl
  · rfl
  · cases hreturned

/-- The operation that an event completes. -/
def completedOf : Event ρ κ → Option OperationId
  | .ingested plan _ => some (.history plan)
  | .answered case _ => some (.question case)
  | _ => none

/-- Only its completion makes an operation one that returned. -/
theorem returned_step (hvalid : TasksValid pipeline state)
    (hstep : Step pipeline state event next) (id : OperationId) :
    (next.phases id).returned = true ↔
      (state.phases id).returned = true ∨ completedOf event = some id := by
  refine test_step hvalid hstep ?_ ?_ rfl ?_ id
  · intro _ hnone
    cases event <;> simp_all [completedOf, Event.settledOf]
  · rintro moved old phase hmove
    cases hmove with
    | cancelled _ hpending =>
      have hnot : old.returned = false :=
        Bool.eq_false_iff.mpr (mt started_of_returned (Bool.eq_false_iff.mp hpending))
      have hcancelled : (Phase.done .cancelled).returned = false := rfl
      rw [hnot, hcancelled]
      simp [completedOf]
    | _ => simp [Phase.returned, completedOf]
  · rintro plan record rfl
    simp [Phase.returned, completedOf]

/-- Closing the admission is final. -/
theorem stopping_step (hstep : Step pipeline state event next) :
    next.stopping = true ↔ state.stopping = true ∨ event.closes = true := by
  cases hstep with
  | failed hphase hinterrupted =>
    rename_i id interrupted
    cases interrupted with
    | false => simp [PipelineState.stopping, PipelineState.move, PipelineState.release,
        PipelineState.latch, Event.closes]
    | true => simp [PipelineState.stopping, PipelineState.move, PipelineState.release,
        PipelineState.latch, Event.closes, hinterrupted rfl]
  | stopRequest => simp [PipelineState.stopping, Event.closes]
  | _ => simp [PipelineState.stopping, PipelineState.move, PipelineState.release,
      PipelineState.take, PipelineState.createQuestions, Event.closes]

/-- What holds of the events of a run and the state they lead to. -/
structure EventsValid (pipeline : PipelineAdmission.Pipeline) (events : List (Event ρ κ))
    (state : PipelineState ρ κ) : Prop where
  /-- No operation is started twice. -/
  starts : (events.filterMap Event.startOf).Nodup
  started : ∀ id, (state.phases id).started = true ↔ id ∈ events.filterMap Event.startOf
  returned : ∀ id, (state.phases id).returned = true ↔ id ∈ events.filterMap completedOf
  /-- A started operation runs or was settled. -/
  settled : ∀ id, (state.phases id).started = true → state.phases id = .running ∨
    id ∈ events.filterMap Event.settledOf
  stopping : state.stopping = true ↔ ∃ event ∈ events, event.closes = true
  planRecords : state.planRecords.length = pipeline.plans.length ∧ ∀ plan record,
    state.planRecords[plan]? = some (some record) ↔ .ingested plan record ∈ events
  caseRecords : state.caseRecords.length = pipeline.cases.length ∧ ∀ case record,
    state.caseRecords[case]? = some (some record) ↔ .answered case record ∈ events

theorem EventsValid.initial :
    EventsValid pipeline [] (pipeline.initial : PipelineState ρ κ) where
  starts := List.nodup_nil
  started := by
    rintro (plan | case)
    · simp only [PipelineAdmission.Pipeline.initial]
      split_ifs <;> simp [Phase.started]
    · simp [PipelineAdmission.Pipeline.initial, Phase.started]
  returned := by
    rintro (plan | case)
    · simp only [PipelineAdmission.Pipeline.initial]
      split_ifs <;> simp [Phase.returned]
    · simp [PipelineAdmission.Pipeline.initial, Phase.returned]
  settled := by
    rintro (plan | case)
    · simp only [PipelineAdmission.Pipeline.initial]
      split_ifs <;> simp [Phase.started]
    · simp [PipelineAdmission.Pipeline.initial, Phase.started]
  stopping := by simp [PipelineAdmission.Pipeline.initial, PipelineState.stopping]
  planRecords := by simp [PipelineAdmission.Pipeline.initial, List.getElem?_replicate]
  caseRecords := by simp [PipelineAdmission.Pipeline.initial, List.getElem?_replicate]

/-- A list of events grows by what its last event stands for. -/
theorem mem_filterMap_snoc {α : Type} {events : List (Event ρ κ)} {kind : Event ρ κ → Option α}
    {value : α} : value ∈ (events ++ [event]).filterMap kind ↔
      value ∈ events.filterMap kind ∨ kind event = some value := by
  rw [List.filterMap_append, List.mem_append]
  cases hkind : kind event <;> simp [hkind, eq_comm]

theorem running_of_start {id : OperationId} (hstep : Step pipeline state event next)
    (hstart : event.startOf = some id) : next.phases id = .running := by
  cases hstep with
  | start hphase =>
    cases hstart
    exact Function.update_self _ _ _
  | _ => cases hstart

theorem not_started_of_start {id : OperationId} (hstep : Step pipeline state event next)
    (hstart : event.startOf = some id) : (state.phases id).started = false := by
  cases hstep with
  | start hphase =>
    cases hstart
    rw [hphase]
    rfl
  | _ => cases hstart

/-- An operation that stops running was settled by the step. -/
theorem settledOf_of_running {id : OperationId} (hvalid : TasksValid pipeline state)
    (hstep : Step pipeline state event next) (hrunning : state.phases id = .running)
    (hnext : next.phases id ≠ .running) : event.settledOf = some id := by
  rcases moves_of_step hstep with ⟨hsame, -⟩ | ⟨moved, phase, hmove, hphases⟩ |
    ⟨plan, record, rfl, hplan, hphases⟩
  · exact absurd (hsame ▸ hrunning) hnext
  · rw [hphases] at hnext
    by_cases hid : id = moved
    · subst hid
      rw [hrunning] at hmove
      cases hmove with
      | answered | failed => rfl
      | cancelled _ hpending => cases hpending
    · rw [Function.update_of_ne hid] at hnext
      exact absurd hrunning hnext
  · rw [hphases] at hnext
    cases id with
    | history other =>
      rw [ingestedPhases] at hnext
      split_ifs at hnext with heq
      · rw [heq, Event.settledOf]
      · exact absurd hrunning hnext
    | question case =>
      rw [ingestedPhases] at hnext
      split_ifs at hnext with hcase
      · rw [hvalid.absent_of_running hplan hcase] at hrunning
        cases hrunning
      · exact absurd hrunning hnext

/-- The records change when an operation completes, and only in its own position. -/
theorem records_step (hstep : Step pipeline state event next) :
    (next.planRecords = state.planRecords ∧ next.caseRecords = state.caseRecords ∧
        completedOf event = none) ∨
      (∃ plan record, event = .ingested plan record ∧
        state.phases (.history plan) = .running ∧
        next.planRecords = state.planRecords.set plan (some record) ∧
        next.caseRecords = state.caseRecords) ∨
      ∃ case record, event = .answered case record ∧
        state.phases (.question case) = .running ∧
        next.planRecords = state.planRecords ∧
        next.caseRecords = state.caseRecords.set case (some record) := by
  cases hstep with
  | ingested hphase => exact Or.inr (Or.inl ⟨_, _, rfl, hphase, rfl, rfl⟩)
  | answered hphase => exact Or.inr (Or.inr ⟨_, _, rfl, hphase, rfl, rfl⟩)
  | _ => exact Or.inl ⟨rfl, rfl, rfl⟩

/-- A record that is stored once stays in its position. -/
theorem getElem?_set_iff {α ε : Type} {records : List (Option α)} {position : ℕ} {record : α}
    {completes : ℕ → α → ε} {events : List ε}
    (hinjective : ∀ other value, completes other value = completes position record →
      other = position ∧ value = record)
    (hposition : position < records.length) (hnew : ∀ value, completes position value ∉ events)
    (hrecords : ∀ other value, records[other]? = some (some value) ↔
      completes other value ∈ events) (other : ℕ) (value : α) :
    (records.set position (some record))[other]? = some (some value) ↔
      completes other value ∈ events ++ [completes position record] := by
  rw [List.mem_append, List.mem_singleton, ← hrecords, List.getElem?_set]
  split_ifs with heq
  · subst heq
    have hnone : records[position]? ≠ some (some value) := fun hsome ↦
      hnew value ((hrecords position value).mp hsome)
    simp only [hnone, false_or, Option.some.injEq]
    exact ⟨fun hvalue ↦ by rw [hvalue], fun hcompletes ↦ (hinjective _ _ hcompletes).2.symm⟩
  · exact ⟨Or.inl, fun hor ↦ hor.resolve_right fun hcompletes ↦
      heq (hinjective _ _ hcompletes).1.symm⟩

theorem not_completed_of_running {events : List (Event ρ κ)} {id : OperationId}
    (hevents : EventsValid pipeline events state) (hrunning : state.phases id = .running)
    {completion : Event ρ κ} (hcompletion : completedOf completion = some id) :
    completion ∉ events := by
  intro hmem
  have hreturned := (hevents.returned id).mpr (List.mem_filterMap.mpr ⟨_, hmem, hcompletion⟩)
  rw [hrunning] at hreturned
  cases hreturned

theorem EventsValid.step {events : List (Event ρ κ)} (hevents : EventsValid pipeline events state)
    (hvalid : TasksValid pipeline state) (hstep : Step pipeline state event next) :
    EventsValid pipeline (events ++ [event]) next where
  starts := by
    rw [List.filterMap_append]
    cases hstart : event.startOf with
    | none => simpa [hstart] using hevents.starts
    | some id =>
      have hnew : id ∉ events.filterMap Event.startOf := by
        rw [← hevents.started, not_started_of_start hstep hstart]
        nofun
      simp only [List.filterMap_cons, hstart, List.filterMap_nil]
      exact List.nodup_append'.mpr
        ⟨hevents.starts, List.nodup_singleton _, List.disjoint_singleton.mpr hnew⟩
  started := by
    intro id
    rw [started_step hvalid hstep, hevents.started, mem_filterMap_snoc]
  returned := by
    intro id
    rw [returned_step hvalid hstep, hevents.returned, mem_filterMap_snoc]
  settled := by
    intro id hstarted
    rw [mem_filterMap_snoc]
    by_cases hnext : next.phases id = .running
    · exact Or.inl hnext
    · rcases (started_step hvalid hstep id).mp hstarted with hbefore | hstart
      · rcases hevents.settled id hbefore with hrunning | hsettled
        · exact Or.inr (Or.inr (settledOf_of_running hvalid hstep hrunning hnext))
        · exact Or.inr (Or.inl hsettled)
      · exact absurd (running_of_start hstep hstart) hnext
  stopping := by
    rw [stopping_step hstep, hevents.stopping]
    simp only [List.mem_append, List.mem_singleton, or_and_right, exists_or, exists_eq_left]
  planRecords := by
    obtain ⟨hlength, hrecords⟩ := hevents.planRecords
    rcases records_step hstep with ⟨hplans, -, hnone⟩ | ⟨plan, record, rfl, hrunning, hplans, -⟩ |
      ⟨case, record, rfl, -, hplans, -⟩
    · refine ⟨hplans ▸ hlength, fun plan record ↦ ?_⟩
      rw [hplans, hrecords, List.mem_append, List.mem_singleton, or_iff_left]
      rintro rfl
      cases hnone
    · have hplan : plan < pipeline.plans.length := by
        by_contra hnot
        rw [(hvalid.histories plan).mpr hnot] at hrunning
        cases hrunning
      refine ⟨by rw [hplans, List.length_set, hlength], fun other value ↦ ?_⟩
      rw [hplans]
      refine getElem?_set_iff (fun _ _ heq ↦ Event.ingested.inj heq) (hlength ▸ hplan)
        (fun value ↦ not_completed_of_running hevents hrunning rfl) hrecords other value
    · refine ⟨hplans ▸ hlength, fun plan record ↦ ?_⟩
      rw [hplans, hrecords, List.mem_append, List.mem_singleton, or_iff_left nofun]
  caseRecords := by
    obtain ⟨hlength, hrecords⟩ := hevents.caseRecords
    rcases records_step hstep with ⟨-, hcases, hnone⟩ | ⟨plan, record, rfl, -, -, hcases⟩ |
      ⟨case, record, rfl, hrunning, -, hcases⟩
    · refine ⟨hcases ▸ hlength, fun case record ↦ ?_⟩
      rw [hcases, hrecords, List.mem_append, List.mem_singleton, or_iff_left]
      rintro rfl
      cases hnone
    · refine ⟨hcases ▸ hlength, fun case record ↦ ?_⟩
      rw [hcases, hrecords, List.mem_append, List.mem_singleton, or_iff_left nofun]
    · obtain ⟨plan, hmem, -⟩ := (hvalid.questions case).mp (by rw [hrunning]; nofun)
      have hcase := (Pipeline.Belongs.lt pipeline ((Pipeline.mem_casesOf pipeline).mp hmem)).1
      refine ⟨by rw [hcases, List.length_set, hlength], fun other value ↦ ?_⟩
      rw [hcases]
      refine getElem?_set_iff (fun _ _ heq ↦ Event.answered.inj heq) (hlength ▸ hcase)
        (fun value ↦ not_completed_of_running hevents hrunning rfl) hrecords other value

end Events

/-! ### The end of a pipeline -/

section Main

variable {ρ κ : Type} {pipeline : PipelineAdmission.Pipeline} {state next : PipelineState ρ κ}
  {event : Event ρ κ}

/-- The pipeline returned or raised. -/
def Finished (state : PipelineState ρ κ) : Prop :=
  ∀ cancelled, state.main ≠ .settling cancelled

/-- What holds once the pipeline has ended. -/
structure MainValid (pipeline : PipelineAdmission.Pipeline) (state : PipelineState ρ κ) : Prop where
  ended : Finished state → ∀ plan < pipeline.plans.length,
    (state.phases (.history plan)).ended = true
  returned : ∀ plans cases, state.main = .returned plans cases →
    state.planRecords = plans.map some ∧ state.caseRecords = cases.map some

theorem MainValid.initial : MainValid pipeline (pipeline.initial : PipelineState ρ κ) where
  ended := fun hfinished ↦ absurd rfl (hfinished false)
  returned := nofun

/-- A task that ended stays as it is. -/
theorem phases_of_ended {id : OperationId} (hvalid : TasksValid pipeline state)
    (hstep : Step pipeline state event next) (hended : (state.phases id).ended = true) :
    next.phases id = state.phases id := by
  rcases phases_of_step hstep with hsame | ⟨moved, phase, hmove, hphases⟩ |
    ⟨plan, record, -, hrunning, hphases⟩
  · rw [hsame]
  · rw [hphases, Function.update_of_ne]
    rintro rfl
    rw [hmove.pending.2] at hended
    cases hended
  · rw [hphases]
    cases id with
    | history other =>
      rw [ingestedPhases, if_neg]
      rintro rfl
      rw [hrunning] at hended
      cases hended
    | question case =>
      rw [ingestedPhases, if_neg]
      intro hcase
      rw [hvalid.absent_of_running hrunning hcase] at hended
      cases hended

/-- When all history tasks have ended, no operation runs. -/
theorem TasksValid.ended (hvalid : TasksValid pipeline state)
    (hhistories : ∀ plan < pipeline.plans.length, (state.phases (.history plan)).ended = true)
    {id : OperationId} (hpresent : state.phases id ≠ .absent) :
    (state.phases id).ended = true := by
  have hhistory {plan : ℕ} (hplan : state.phases (.history plan) ≠ .absent) :
      (state.phases (.history plan)).ended = true :=
    hhistories plan (not_not.mp fun hlt ↦ hplan ((hvalid.histories plan).mpr hlt))
  cases id with
  | history plan => exact hhistory hpresent
  | question case =>
    obtain ⟨plan, hcase, hreturned⟩ := (hvalid.questions case).mp hpresent
    cases hphase : state.phases (.history plan) with
    | done ending =>
      cases ending with
      | completed failed => exact hvalid.children plan failed hphase case hcase
      | _ => simp [hphase, Phase.returned] at hreturned
    | settling =>
      have hpresent' : state.phases (.history plan) ≠ .absent := by
        rw [hphase]
        nofun
      have hended := hhistory hpresent'
      rw [hphase] at hended
      cases hended
    | _ => simp [hphase, Phase.returned] at hreturned

/-- Only the end of the pipeline finishes it. -/
theorem main_step (hstep : Step pipeline state event next) :
    next.main = state.main ∨ next.main = .settling true ∨
      ∃ cancelled, state.main = .settling cancelled ∧ next.phases = state.phases ∧
        (∀ plan < pipeline.plans.length, (state.phases (.history plan)).ended = true) ∧
        next.planRecords = state.planRecords ∧ next.caseRecords = state.caseRecords ∧
        next.main = state.finished pipeline.plans.length cancelled := by
  cases hstep with
  | cancelMain | cancelPlanned => exact Or.inr (Or.inl rfl)
  | finish hmain hended => exact Or.inr (Or.inr ⟨_, hmain, rfl, hended, rfl, rfl, rfl⟩)
  | _ => exact Or.inl rfl

theorem eq_map_some_of_reduceOption {α : Type} {records : List (Option α)}
    (hsome : records.any Option.isNone = false) : records = records.reduceOption.map some := by
  induction records with
  | nil => rfl
  | cons record records ih =>
    rw [List.any_cons, Bool.or_eq_false_iff] at hsome
    cases record with
    | none => simp at hsome
    | some value =>
      rw [List.reduceOption_cons_of_some, List.map_cons, ← ih hsome.2]

/-- A pipeline that returned has a record in every position. -/
theorem of_finished_eq_returned {state : PipelineState ρ κ} {length : ℕ} {cancelled : Bool}
    {plans : List ρ} {cases : List κ}
    (hfinished : state.finished length cancelled = .returned plans cases) :
    state.planRecords = plans.map some ∧ state.caseRecords = cases.map some := by
  rw [PipelineState.finished] at hfinished
  split_ifs at hfinished with hfailed hmissing
  rw [Bool.not_eq_true, Bool.or_eq_false_iff] at hmissing
  cases hfinished
  exact ⟨eq_map_some_of_reduceOption hmissing.1, eq_map_some_of_reduceOption hmissing.2⟩

theorem MainValid.step (hmain : MainValid pipeline state) (hvalid : TasksValid pipeline state)
    (hstep : Step pipeline state event next) : MainValid pipeline next := by
  rcases main_step hstep with hsame | hcancelled |
    ⟨cancelled, -, hphases, hended, hplans, hcases, hfinish⟩
  · constructor
    · intro hfinished plan hplan
      have hbefore := hmain.ended (fun cancelled ↦ hsame ▸ hfinished cancelled) plan hplan
      rw [phases_of_ended hvalid hstep hbefore]
      exact hbefore
    · intro plans cases hreturned
      rw [hsame] at hreturned
      obtain ⟨hplans, hcases⟩ := hmain.returned plans cases hreturned
      have hhistories := hmain.ended fun cancelled ↦ by rw [hreturned]; nofun
      have hquiet {id : OperationId} (hrunning : state.phases id = .running) : False := by
        have hpresent : state.phases id ≠ .absent := by
          rw [hrunning]
          nofun
        have hended := hvalid.ended hhistories hpresent
        rw [hrunning] at hended
        cases hended
      rcases records_step hstep with ⟨hkept, hkept', -⟩ | ⟨_, _, -, hrunning, -⟩ |
        ⟨_, _, -, hrunning, -⟩
      · exact ⟨hkept ▸ hplans, hkept' ▸ hcases⟩
      · exact (hquiet hrunning).elim
      · exact (hquiet hrunning).elim
  · exact ⟨fun hfinished ↦ absurd hcancelled (hfinished true), fun _ _ hreturned ↦ by
      rw [hcancelled] at hreturned
      cases hreturned⟩
  · constructor
    · intro _ plan hplan
      rw [hphases]
      exact hended plan hplan
    · intro plans cases hreturned
      rw [hplans, hcases]
      exact of_finished_eq_returned (hfinish.symm.trans hreturned)

end Main

/-! ### Runs -/

section Runs

variable {ρ κ : Type} {pipeline : PipelineAdmission.Pipeline} {state next : PipelineState ρ κ}
  {events : List (Event ρ κ)}

/-- The invariant of a pipeline. -/
structure Valid (pipeline : PipelineAdmission.Pipeline) (events : List (Event ρ κ))
    (state : PipelineState ρ κ) : Prop where
  tasks : TasksValid pipeline state
  permits : PermitsValid pipeline state
  events : EventsValid pipeline events state
  main : MainValid pipeline state

/-- Every run keeps the invariant. -/
theorem valid_of_run (hrun : Run (Step pipeline) pipeline.initial events state) :
    Valid pipeline events state := by
  refine hrun.history ⟨.initial, .initial, .initial, .initial⟩ ?_
  intro labels before label after hvalid hstep
  exact ⟨hvalid.tasks.step hstep, hvalid.permits.step hvalid.tasks hstep,
    hvalid.events.step hvalid.tasks hstep, hvalid.main.step hvalid.tasks hstep⟩

/-- What the admission of a pipeline guarantees of the events of a run and the state that they lead
to. -/
structure AdmissionSafe (pipeline : PipelineAdmission.Pipeline) (events : List (Event ρ κ))
    (state : PipelineState ρ κ) : Prop where
  /-- No more operations of a pool run than its limit admits. -/
  limited : ∀ pool, ∀ chosen : Finset OperationId,
    (∀ id ∈ chosen, id.pool = pool ∧ state.phases id = .running) →
      chosen.card ≤ pipeline.limit pool
  /-- No operation is started after an error of an operation or a stop request. -/
  closed : ∀ before id after, events = before ++ .start id :: after →
    ∀ event ∈ before, event.closes = false
  /-- A case is started after the ingestion of its own plan completed. -/
  ordered : ∀ before case after, events = before ++ .start (.question case) :: after →
    ∃ plan record, Pipeline.Belongs pipeline case plan ∧ .ingested plan record ∈ before
  /-- Every operation is started at most once. -/
  once : (events.filterMap Event.startOf).Nodup
  /-- When the pipeline has ended, every operation that was started has been settled. -/
  settled : Finished state → ∀ id, .start id ∈ events →
    id ∈ events.filterMap Event.settledOf ∧ (state.phases id).ended = true
  /-- A pipeline that returns gives the record of every plan and of every case in its position. -/
  returned : ∀ plans cases, state.main = .returned plans cases →
    plans.length = pipeline.plans.length ∧ cases.length = pipeline.cases.length ∧
      (∀ plan record, plans[plan]? = some record ↔ .ingested plan record ∈ events) ∧
      ∀ case record, cases[case]? = some record ↔ .answered case record ∈ events

theorem Valid.limited (hvalid : Valid pipeline events state) (pool : Pool)
    (chosen : Finset OperationId)
    (hchosen : ∀ id ∈ chosen, id.pool = pool ∧ state.phases id = .running) :
    chosen.card ≤ pipeline.limit pool := by
  have hmembers : chosen ⊆ members pipeline pool := by
    intro id hid
    obtain ⟨hpool, hrunning⟩ := hchosen id hid
    refine (hvalid.tasks.mem_members ?_ pool).mpr hpool.symm
    rw [hrunning]
    nofun
  have hholds : ∀ id ∈ chosen, 1 ≤ (state.phases id).permits := by
    intro id hid
    rw [(hchosen id hid).2]
    exact le_rfl
  have hheld := card_le_held hmembers hholds
  have hlimit := hvalid.permits pool
  omega

theorem Valid.settled (hvalid : Valid pipeline events state) (hfinished : Finished state)
    {id : OperationId} (hstart : .start id ∈ events) :
    id ∈ events.filterMap Event.settledOf ∧ (state.phases id).ended = true := by
  have hstarted := (hvalid.events.started id).mpr (List.mem_filterMap.mpr ⟨_, hstart, rfl⟩)
  have hpresent : state.phases id ≠ .absent := by
    intro habsent
    rw [habsent] at hstarted
    cases hstarted
  have hended := hvalid.tasks.ended (hvalid.main.ended hfinished) hpresent
  refine ⟨(hvalid.events.settled id hstarted).resolve_left ?_, hended⟩
  intro hrunning
  rw [hrunning] at hended
  cases hended

theorem Valid.returned (hvalid : Valid pipeline events state) {plans : List ρ} {cases : List κ}
    (hreturned : state.main = .returned plans cases) :
    plans.length = pipeline.plans.length ∧ cases.length = pipeline.cases.length ∧
      (∀ plan record, plans[plan]? = some record ↔ .ingested plan record ∈ events) ∧
      ∀ case record, cases[case]? = some record ↔ .answered case record ∈ events := by
  obtain ⟨hplans, hcases⟩ := hvalid.main.returned plans cases hreturned
  obtain ⟨hplanLength, hplanRecords⟩ := hvalid.events.planRecords
  obtain ⟨hcaseLength, hcaseRecords⟩ := hvalid.events.caseRecords
  rw [hplans, List.length_map] at hplanLength
  rw [hcases, List.length_map] at hcaseLength
  refine ⟨hplanLength, hcaseLength, fun plan record ↦ ?_, fun case record ↦ ?_⟩
  · rw [← hplanRecords, hplans, List.getElem?_map]
    simp
  · rw [← hcaseRecords, hcases, List.getElem?_map]
    simp

theorem open_of_start {id : OperationId} (hstep : Step pipeline state (.start id) next) :
    state.stopping = false ∧ state.phases id = .granted := by
  cases hstep with
  | start hphase hopen => exact ⟨hopen, hphase⟩

theorem Valid.closed (hvalid : Valid pipeline events state) {id : OperationId}
    (hstep : Step pipeline state (.start id) next) : ∀ event ∈ events, event.closes = false := by
  intro event hmem
  by_contra hcloses
  have hstopping := hvalid.events.stopping.mpr ⟨event, hmem, Bool.not_eq_false _ ▸ hcloses⟩
  rw [(open_of_start hstep).1] at hstopping
  cases hstopping

theorem Valid.ordered (hvalid : Valid pipeline events state) {case : ℕ}
    (hstep : Step pipeline state (.start (.question case)) next) :
    ∃ plan record, Pipeline.Belongs pipeline case plan ∧ .ingested plan record ∈ events := by
  have hpresent : state.phases (.question case) ≠ .absent := by
    rw [(open_of_start hstep).2]
    nofun
  obtain ⟨plan, hcase, hreturned⟩ := (hvalid.tasks.questions case).mp hpresent
  obtain ⟨event, hmem, hcompleted⟩ :=
    List.mem_filterMap.mp ((hvalid.events.returned _).mp hreturned)
  cases event with
  | ingested other record =>
    cases hcompleted
    exact ⟨plan, record, (Pipeline.mem_casesOf pipeline).mp hcase, hmem⟩
  | _ => cases hcompleted

/-- Every run of every pipeline, over every interleaving of its tasks and of the environment, keeps
the guarantees of the admission. -/
theorem admissionSafe_of_run (hrun : Run (Step pipeline) pipeline.initial events state) :
    AdmissionSafe pipeline events state := by
  have hvalid := valid_of_run hrun
  constructor
  · exact hvalid.limited
  · rintro before id after rfl
    obtain ⟨_, _, hbefore, hstep⟩ := hrun.split
    exact (valid_of_run hbefore).closed hstep
  · rintro before case after rfl
    obtain ⟨_, _, hbefore, hstep⟩ := hrun.split
    exact (valid_of_run hbefore).ordered hstep
  · exact hvalid.events.starts
  · exact fun hfinished _ ↦ hvalid.settled hfinished
  · exact fun _ _ ↦ hvalid.returned

end Runs

/-! ### A pipeline with one plan -/

/-- A plan with one case, and one permit in each pool. -/
def singlePipeline : PipelineAdmission.Pipeline where
  plans := [⟨"plan", ["case"]⟩]
  cases := [⟨"case"⟩]
  historyLimit := 1
  questionLimit := 1
  hasStopEvent := true
  casesByPlan := AList.singleton "plan" [0]
  distinct := List.nodup_singleton _
  assigned := rfl

/-- The ingestion of the plan is started. -/
theorem admissionSafe_of_started_history :
    ∃ state : PipelineState String String, AdmissionSafe singlePipeline
      [.enter (.history 0), .grant (.history 0), .start (.history 0)] state ∧
      state.phases (.history 0) = .running :=
  ⟨_, admissionSafe_of_run (((Run.nil.snoc (.enter rfl rfl)).snoc
    (.grant rfl Nat.zero_lt_one)).snoc (.start rfl rfl)), rfl⟩

end Oamb.Runtime.PipelineGuarantees
