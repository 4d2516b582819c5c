import Oamb.Foundation.Dialogue
import Oamb.Foundation.LabelledRuns

/-!
# Concurrent calls

Calls of a procedure share a state. A call enters it at once or waits, then asks the queries of its
dialogue, and leaves the state with its outcome. Between two of its queries any other call may go on:
`Step` is one event of a system with any number of calls. A call that ended has executed the dialogue
of its request (`Traced`).

A dialogue writes a list of queries when those of its queries that are writes are these, in their
order, as far as it comes (`WritesExactly`).
-/

set_option autoImplicit false

namespace Oamb.Foundation

open Dialogue

/-- A procedure whose calls share a state. A call that cannot enter has to wait. -/
structure Procedure (σ R Q : Type) (A : Q → Type) (ε α : Type) where
  enter : σ → R → Option (Except ε σ)
  body : R → Dialogue Q A ε α
  leave : σ → R → Except ε α → σ

namespace ConcurrentCalls

variable {σ R Q ε α ι : Type} {A : Q → Type}

/-- The phase of a call. -/
inductive Phase (R Q : Type) (A : Q → Type) (ε α : Type)
  | idle
  | refused (request : R) (error : ε)
  | running (request : R) (trace : List (Exchange Q A)) (rest : Dialogue Q A ε α)
  | ended (request : R) (trace : List (Exchange Q A)) (outcome : Except ε α)

/-- The shared state, and the calls. -/
structure State (σ ι R Q : Type) (A : Q → Type) (ε α : Type) where
  shared : σ
  calls : ι → Phase R Q A ε α

/-- No call has started. -/
def State.initial (shared : σ) : State σ ι R Q A ε α := ⟨shared, fun _ ↦ .idle⟩

/-- What happens to a call. -/
inductive Event (ι : Type)
  | start (index : ι)
  | answer (index : ι)
  | leave (index : ι)

section Steps

variable [DecidableEq ι]

/-- A call comes to another phase. -/
def State.moved (state : State σ ι R Q A ε α) (index : ι) (phase : Phase R Q A ε α) :
    State σ ι R Q A ε α :=
  { state with calls := Function.update state.calls index phase }

/-- One event of the calls of a procedure. -/
inductive Step (procedure : Procedure σ R Q A ε α) :
    State σ ι R Q A ε α → Event ι → State σ ι R Q A ε α → Prop
  | refuse {state : State σ ι R Q A ε α} {index : ι} {request : R} {error : ε}
    (hidle : state.calls index = .idle)
    (henter : procedure.enter state.shared request = some (.error error)) :
    Step procedure state (.start index) (state.moved index (.refused request error))
  /-- A call that waits is cancelled. -/
  | abandon {state : State σ ι R Q A ε α} {index : ι} {request : R} {error : ε}
    (hidle : state.calls index = .idle)
    (hwaits : procedure.enter state.shared request = none) :
    Step procedure state (.start index) (state.moved index (.refused request error))
  | start {state : State σ ι R Q A ε α} {index : ι} {request : R} {shared : σ}
    (hidle : state.calls index = .idle)
    (henter : procedure.enter state.shared request = some (.ok shared)) :
    Step procedure state (.start index)
      ({ state with shared := shared }.moved index (.running request [] (procedure.body request)))
  | answer {state : State σ ι R Q A ε α} {index : ι} {request : R} {trace : List (Exchange Q A)}
    {query : Q} {next : A query → Dialogue Q A ε α} (answer : A query)
    (hrunning : state.calls index = .running request trace (.ask query next)) :
    Step procedure state (.answer index)
      (state.moved index (.running request (trace ++ [⟨query, answer⟩]) (next answer)))
  | leave {state : State σ ι R Q A ε α} {index : ι} {request : R} {trace : List (Exchange Q A)}
    {outcome : Except ε α}
    (hrunning : state.calls index = .running request trace (.done outcome)) :
    Step procedure state (.leave index)
      ({ state with shared := procedure.leave state.shared request outcome }.moved index
        (.ended request trace outcome))

variable {procedure : Procedure σ R Q A ε α} {state next : State σ ι R Q A ε α} {event : Event ι}

@[simp]
theorem State.moved_self (index : ι) (phase : Phase R Q A ε α) :
    (state.moved index phase).calls index = phase := by
  simp only [State.moved, Function.update_self]

theorem State.moved_of_ne {index other : ι} (hother : other ≠ index)
    (phase : Phase R Q A ε α) : (state.moved index phase).calls other = state.calls other := by
  simp only [State.moved, Function.update_of_ne hother]

/-! ### What a step does -/

/-- A call runs. -/
def Running (state : State σ ι R Q A ε α) (index : ι) (request : R) : Prop :=
  ∃ trace rest, state.calls index = .running request trace rest

/-- A call ended. -/
def Ended (state : State σ ι R Q A ε α) (index : ι) (request : R) (trace : List (Exchange Q A))
    (outcome : Except ε α) : Prop :=
  state.calls index = .ended request trace outcome

/-- The step leaves the shared state as it was. -/
structure Quiet (state next : State σ ι R Q A ε α) : Prop where
  shared : next.shared = state.shared
  running : ∀ index request, Running next index request ↔ Running state index request
  ended : ∀ index request trace outcome,
    Ended next index request trace outcome ↔ Ended state index request trace outcome

/-- A call entered. -/
structure Entered (procedure : Procedure σ R Q A ε α) (state next : State σ ι R Q A ε α)
    (index : ι) (request : R) : Prop where
  enter : procedure.enter state.shared request = some (.ok next.shared)
  running : ∀ other request', Running next other request' ↔
    (other = index ∧ request' = request) ∨ (other ≠ index ∧ Running state other request')
  ended : ∀ other request' trace outcome,
    Ended next other request' trace outcome ↔ Ended state other request' trace outcome

/-- A call left. -/
structure Left (procedure : Procedure σ R Q A ε α) (state next : State σ ι R Q A ε α)
    (index : ι) (request : R) (trace : List (Exchange Q A)) (outcome : Except ε α) : Prop where
  was : state.calls index = .running request trace (.done outcome)
  shared : next.shared = procedure.leave state.shared request outcome
  running : ∀ other request', Running next other request' ↔
    other ≠ index ∧ Running state other request'
  ended : ∀ other request' trace' outcome', Ended next other request' trace' outcome' ↔
    (other = index ∧ request' = request ∧ trace' = trace ∧ outcome' = outcome) ∨
      Ended state other request' trace' outcome'

/-- A call comes to a phase that is neither one that runs nor one that ended. -/
theorem quiet_of_idle {index : ι} {phase : Phase R Q A ε α} (hidle : state.calls index = .idle)
    (hrunning : ∀ request trace rest, phase ≠ .running request trace rest)
    (hended : ∀ request trace outcome, phase ≠ .ended request trace outcome) :
    Quiet state (state.moved index phase) := by
  refine ⟨rfl, fun other request ↦ ?_, fun other request trace outcome ↦ ?_⟩
  · by_cases hother : other = index
    · subst hother
      rw [Running, Running, State.moved_self, hidle]
      refine iff_of_false ?_ (fun ⟨_, _, hsame⟩ ↦ by cases hsame)
      rintro ⟨trace, rest, hsame⟩
      exact hrunning request trace rest hsame
    · rw [Running, Running, State.moved_of_ne hother]
  · by_cases hother : other = index
    · subst hother
      rw [Ended, Ended, State.moved_self, hidle]
      exact iff_of_false (hended request trace outcome) (fun hsame ↦ by cases hsame)
    · rw [Ended, Ended, State.moved_of_ne hother]

/-- Every step is quiet, or a call enters or leaves. -/
theorem Step.effect (hstep : Step procedure state event next) :
    Quiet state next ∨ (∃ index request, Entered procedure state next index request) ∨
      ∃ index request trace outcome, Left procedure state next index request trace outcome := by
  cases hstep with
  | refuse hidle _ | abandon hidle _ =>
    refine Or.inl (quiet_of_idle hidle ?_ ?_)
    · exact fun _ _ _ hsame ↦ by cases hsame
    · exact fun _ _ _ hsame ↦ by cases hsame
  | @start index request shared hidle henter =>
    refine Or.inr (Or.inl ⟨index, request, henter, fun other request' ↦ ?_,
      fun other request' trace outcome ↦ ?_⟩)
    · by_cases hother : other = index
      · subst hother
        rw [Running, State.moved_self]
        simp only [Phase.running.injEq, true_and, ne_eq, not_true_eq_false, false_and, or_false]
        constructor
        · rintro ⟨trace, rest, rfl, -, -⟩
          rfl
        · rintro rfl
          exact ⟨[], procedure.body request', rfl, rfl, rfl⟩
      · rw [Running, State.moved_of_ne hother]
        exact ⟨fun hrunning ↦ Or.inr ⟨hother, hrunning⟩,
          fun hcases ↦ hcases.elim (fun hsame ↦ absurd hsame.1 hother) And.right⟩
    · by_cases hother : other = index
      · subst hother
        rw [Ended, Ended, State.moved_self, hidle]
        exact iff_of_false (fun hsame ↦ by cases hsame) (fun hsame ↦ by cases hsame)
      · rw [Ended, Ended, State.moved_of_ne hother]
  | @answer index request trace query rest answer hrunning =>
    refine Or.inl ⟨rfl, fun other request' ↦ ?_, fun other request' trace' outcome ↦ ?_⟩
    · by_cases hother : other = index
      · subst hother
        rw [Running, Running, State.moved_self, hrunning]
        simp only [Phase.running.injEq, exists_and_left, exists_eq', and_true]
      · rw [Running, Running, State.moved_of_ne hother]
    · by_cases hother : other = index
      · subst hother
        rw [Ended, Ended, State.moved_self, hrunning]
        exact iff_of_false (fun hsame ↦ by cases hsame) (fun hsame ↦ by cases hsame)
      · rw [Ended, Ended, State.moved_of_ne hother]
  | @leave index request trace outcome hrunning =>
    refine Or.inr (Or.inr ⟨index, request, trace, outcome, hrunning, rfl, fun other request' ↦ ?_,
      fun other request' trace' outcome' ↦ ?_⟩)
    · by_cases hother : other = index
      · subst hother
        rw [Running, State.moved_self]
        exact iff_of_false (fun ⟨_, _, hsame⟩ ↦ by cases hsame) (fun hboth ↦ hboth.1 rfl)
      · rw [Running, State.moved_of_ne hother]
        exact (and_iff_right hother).symm
    · by_cases hother : other = index
      · subst hother
        rw [Ended, Ended, State.moved_self, hrunning]
        simp only [Phase.ended.injEq, true_and, reduceCtorEq, or_false]
        exact ⟨fun ⟨hrequest, htrace, houtcome⟩ ↦ ⟨hrequest.symm, htrace.symm, houtcome.symm⟩,
          fun ⟨hrequest, htrace, houtcome⟩ ↦ ⟨hrequest.symm, htrace.symm, houtcome.symm⟩⟩
      · rw [Ended, Ended, State.moved_of_ne hother]
        exact (or_iff_right fun hsame ↦ hother hsame.1).symm

/-! ### Executions -/

/-- What a call did is an execution of its dialogue, as far as it came. -/
def Traced (procedure : Procedure σ R Q A ε α) : Phase R Q A ε α → Prop
  | .running request trace rest => ∀ later outcome, Execution rest later outcome →
    Execution (procedure.body request) (trace ++ later) outcome
  | .ended request trace outcome => Execution (procedure.body request) trace outcome
  | .idle | .refused _ _ => True

/-- What every call did is an execution of its dialogue. -/
def AllTraced (procedure : Procedure σ R Q A ε α) (state : State σ ι R Q A ε α) : Prop :=
  ∀ index, Traced procedure (state.calls index)

omit [DecidableEq ι] in
theorem allTraced_initial (shared : σ) :
    AllTraced procedure (State.initial shared : State σ ι R Q A ε α) :=
  fun _ ↦ trivial

theorem Step.traced (hstep : Step procedure state event next)
    (htraced : AllTraced procedure state) : AllTraced procedure next := by
  intro index
  have hmoved : ∀ (start : State σ ι R Q A ε α) (moving : ι) (phase : Phase R Q A ε α),
      start.calls = state.calls → Traced procedure phase →
      Traced procedure ((start.moved moving phase).calls index) := by
    intro start moving phase hcalls hphase
    by_cases hindex : index = moving
    · subst hindex
      rwa [State.moved_self]
    · rw [State.moved_of_ne hindex, hcalls]
      exact htraced index
  cases hstep with
  | refuse | abandon => exact hmoved _ _ _ rfl trivial
  | start => exact hmoved _ _ _ rfl fun later outcome hlater ↦ hlater
  | @answer moving request trace query rest answer hrunning =>
    have hbefore := htraced moving
    rw [hrunning] at hbefore
    refine hmoved _ _ _ rfl fun later outcome hlater ↦ ?_
    rw [List.append_assoc, List.singleton_append]
    exact hbefore _ _ (.ask answer hlater)
  | @leave moving request trace outcome hrunning =>
    have hbefore := htraced moving
    rw [hrunning] at hbefore
    refine hmoved _ _ _ rfl ?_
    have hdone := hbefore [] outcome .done
    rwa [List.append_nil] at hdone

theorem moved_moved (index : ι) (phase phase' : Phase R Q A ε α) :
    (state.moved index phase).moved index phase' = state.moved index phase' := by
  simp only [State.moved, Function.update_idem]

/-- A call that runs may go on alone until its dialogue comes to its outcome. -/
theorem run_answers {index : ι} {request : R} {rest : Dialogue Q A ε α}
    {trace later : List (Exchange Q A)} {outcome : Except ε α} {start : State σ ι R Q A ε α}
    {events : List (Event ι)} (hlater : Execution rest later outcome)
    (hrun : LabelledRuns.Run (Step procedure) start events
      (state.moved index (.running request trace rest))) :
    ∃ events', LabelledRuns.Run (Step procedure) start events'
      (state.moved index (.running request (trace ++ later) (.done outcome))) := by
  induction hlater generalizing trace events with
  | done => exact ⟨events, by rwa [List.append_nil]⟩
  | @ask query next later outcome answer hnext ih =>
    have hstep : Step procedure (state.moved index (.running request trace (.ask query next)))
        (.answer index) (state.moved index (.running request (trace ++ [⟨query, answer⟩])
          (next answer))) := by
      have hanswer : Step procedure (state.moved index (.running request trace (.ask query next)))
          (.answer index) _ := .answer answer (State.moved_self index _)
      rwa [moved_moved] at hanswer
    obtain ⟨events', hrest⟩ := ih (hrun.snoc hstep)
    exact ⟨events', by rwa [List.append_assoc, List.singleton_append] at hrest⟩

/-- A call that enters may execute its dialogue alone. -/
theorem run_of_execution {index : ι} {request : R} {trace : List (Exchange Q A)}
    {outcome : Except ε α} {start : State σ ι R Q A ε α} {shared : σ} {events : List (Event ι)}
    (hrun : LabelledRuns.Run (Step procedure) start events state)
    (hidle : state.calls index = .idle)
    (henter : procedure.enter state.shared request = some (.ok shared))
    (hexecution : Execution (procedure.body request) trace outcome) :
    ∃ events', LabelledRuns.Run (Step procedure) start events'
      ((⟨procedure.leave shared request outcome, state.calls⟩ : State σ ι R Q A ε α).moved index
        (.ended request trace outcome)) := by
  obtain ⟨events', hanswered⟩ := run_answers hexecution (hrun.snoc (.start hidle henter))
  have hleave := hanswered.snoc (.leave (State.moved_self index _))
  simp only [State.moved, List.nil_append, Function.update_idem] at hleave
  exact ⟨_, hleave⟩

/-- What every call of a run did is an execution of its dialogue. -/
theorem traced_of_run {shared : σ} {events : List (Event ι)}
    (hrun : LabelledRuns.Run (Step procedure) (State.initial shared : State σ ι R Q A ε α) events
      state) : AllTraced procedure state :=
  hrun.invariant (allTraced_initial shared) fun _ _ _ htraced hstep ↦ hstep.traced htraced

end Steps

/-! ### Writes -/

section Writes

/-- The writes of a dialogue are those of a list, in their order, as far as it comes. A dialogue that
comes to a value has written all of them. -/
def WritesExactly (write : Q → Prop) [DecidablePred write] :
    List Q → Dialogue Q A ε α → Prop
  | planned, .done (.ok _) => planned = []
  | _, .done (.error _) => True
  | planned, .ask query next =>
    if write query then
      ∃ rest, planned = query :: rest ∧ ∀ answer, WritesExactly write rest (next answer)
    else ∀ answer, WritesExactly write planned (next answer)

variable {write : Q → Prop} [DecidablePred write] {planned : List Q}

theorem writesExactly_pure {value : α} :
    WritesExactly write [] (pure value : Dialogue Q A ε α) :=
  rfl

theorem writesExactly_fail {error : ε} :
    WritesExactly write planned (fail error : Dialogue Q A ε α) :=
  trivial

theorem writesExactly_ofExcept {result : Except ε α} :
    WritesExactly write [] (ofExcept result : Dialogue Q A ε α) := by
  cases result with
  | ok value => rfl
  | error error => trivial

theorem writesExactly_read {query : Q} {next : A query → Dialogue Q A ε α}
    (hread : ¬ write query) (hnext : ∀ answer, WritesExactly write planned (next answer)) :
    WritesExactly write planned (ask query next) := by
  rw [WritesExactly, if_neg hread]
  exact hnext

theorem writesExactly_write {query : Q} {next : A query → Dialogue Q A ε α}
    (hwrite : write query) (hnext : ∀ answer, WritesExactly write planned (next answer)) :
    WritesExactly write (query :: planned) (ask query next) := by
  rw [WritesExactly, if_pos hwrite]
  exact ⟨planned, rfl, hnext⟩

/-- The writes of a trace. -/
def writesOf (write : Q → Prop) [DecidablePred write] (trace : List (Exchange Q A)) : List Q :=
  (trace.map Sigma.fst).filter fun query ↦ write query

theorem writesOf_append_singleton (trace : List (Exchange Q A)) (query : Q) (answer : A query) :
    writesOf write (trace ++ [⟨query, answer⟩]) =
      writesOf write trace ++ if write query then [query] else [] := by
  rw [writesOf, List.map_append, List.filter_append, writesOf]
  by_cases hwrite : write query
  · simp [hwrite]
  · simp [hwrite]

/-- What a call wrote is the beginning of what its request plans, and the rest of its dialogue writes
the rest. -/
def Written (write : Q → Prop) [DecidablePred write] (planned : R → List Q) :
    Phase R Q A ε α → Prop
  | .running request trace rest => ∃ later, planned request = writesOf write trace ++ later ∧
    WritesExactly write later rest
  | .idle | .refused _ _ | .ended _ _ _ => True

/-- What every call wrote is the beginning of what its request plans. -/
def AllWritten (write : Q → Prop) [DecidablePred write] (planned : R → List Q)
    (state : State σ ι R Q A ε α) : Prop :=
  ∀ index, Written write planned (state.calls index)

/-- What every call of a run wrote is the beginning of what its request plans. -/
theorem written_of_run [DecidableEq ι] {procedure : Procedure σ R Q A ε α} {planned : R → List Q}
    (hplanned : ∀ request, WritesExactly write (planned request) (procedure.body request))
    {shared : σ} {events : List (Event ι)} {state : State σ ι R Q A ε α}
    (hrun : LabelledRuns.Run (Step procedure) (State.initial shared : State σ ι R Q A ε α) events
      state) : AllWritten write planned state := by
  have hinitial : AllWritten write planned (State.initial shared : State σ ι R Q A ε α) :=
    fun _ ↦ trivial
  refine hrun.invariant hinitial ?_
  intro state event next hwritten hstep index
  have hmoved : ∀ (start : State σ ι R Q A ε α) (moving : ι) (phase : Phase R Q A ε α),
      start.calls = state.calls → Written write planned phase →
      Written write planned ((start.moved moving phase).calls index) := by
    intro start moving phase hcalls hphase
    by_cases hindex : index = moving
    · subst hindex
      rwa [State.moved_self]
    · rw [State.moved_of_ne hindex, hcalls]
      exact hwritten index
  cases hstep with
  | refuse | abandon | leave => exact hmoved _ _ _ rfl trivial
  | @start moving request => exact hmoved _ _ _ rfl ⟨planned request, rfl, hplanned request⟩
  | @answer moving request trace query rest answer hrunning =>
    have hbefore := hwritten moving
    rw [hrunning] at hbefore
    obtain ⟨later, hlater, hexactly⟩ := hbefore
    refine hmoved _ _ _ rfl ?_
    rw [WritesExactly] at hexactly
    rw [Written, writesOf_append_singleton]
    split_ifs at hexactly ⊢ with hwrite
    · obtain ⟨remaining, rfl, hremaining⟩ := hexactly
      exact ⟨remaining, by rw [hlater, List.append_assoc, List.singleton_append], hremaining answer⟩
    · exact ⟨later, by rw [hlater, List.append_nil], hexactly answer⟩

/-- A sequence writes what its first part writes, and then what the rest writes. -/
theorem writesExactly_bind {β : Type} {dialogue : Dialogue Q A ε α} {next : α → Dialogue Q A ε β}
    {later : List Q} (hdialogue : WritesExactly write planned dialogue)
    (hnext : ∀ value, WritesExactly write later (next value)) :
    WritesExactly write (planned ++ later) (dialogue >>= next) := by
  induction dialogue generalizing planned with
  | done outcome =>
    cases outcome with
    | ok value =>
      obtain rfl : planned = [] := hdialogue
      exact hnext value
    | error error => trivial
  | ask query rest ih =>
    rw [WritesExactly] at hdialogue
    split_ifs at hdialogue with hwrite
    · obtain ⟨remaining, rfl, hremaining⟩ := hdialogue
      exact writesExactly_write hwrite fun answer ↦ ih answer (hremaining answer)
    · exact writesExactly_read hwrite fun answer ↦ ih answer (hdialogue answer)

theorem writesExactly_bind_read {β : Type} {dialogue : Dialogue Q A ε α}
    {next : α → Dialogue Q A ε β} (hdialogue : WritesExactly write [] dialogue)
    (hnext : ∀ value, WritesExactly write planned (next value)) :
    WritesExactly write planned (dialogue >>= next) :=
  writesExactly_bind hdialogue hnext

theorem writesExactly_bind_last {β : Type} {dialogue : Dialogue Q A ε α}
    {next : α → Dialogue Q A ε β} (hdialogue : WritesExactly write planned dialogue)
    (hnext : ∀ value, WritesExactly write [] (next value)) :
    WritesExactly write planned (dialogue >>= next) := by
  have hall := writesExactly_bind hdialogue hnext
  rwa [List.append_nil] at hall

end Writes

end ConcurrentCalls

end Oamb.Foundation
