import Mathlib.Data.List.Chain
import Oamb.Runtime.MemoryQuery

/-!
# What a read-only retrieval keeps

Whatever the environment answers, a retrieval succeeds when both projections did, name the
occurrence of its scope and are equal, and every timing that it records is in order. Where the clock
does not go backwards and a step returns, raises an exception or is cancelled, the second projection
is attempted behind every dispatched query and no error is lost (`guarded_of_execution`).
-/

set_option autoImplicit false

namespace Oamb.Runtime.MemoryQueryGuarantees

open Foundation Foundation.Dialogue Foundation.DecimalContext MemoryQuery

variable {δ β α σ : Type}

/-! ### The courses of a query -/

section Courses

variable {context : Context} {expected : String} {trace : List (Exchange Query (Answer δ β))}

/-- What is projected, and what its check says. -/
def projected (expected : String) :
    Except Raised (ProjectionReceipt δ) →
      Option (ProjectionReceipt δ) × Except Raised (ProjectionReceipt δ)
  | .error error => (none, .error error)
  | .ok projection =>
    (some projection,
      if projection.Names expected then .ok projection else .error foreignProjection)

/-- An operation asks one query, and leads to what is read from its answer. -/
def Asks (query : Query) (read : Answer δ β query → σ × Except Raised α)
    (operation : QueryM δ β (σ × Except Raised α)) : Prop :=
  ∀ {trace result}, Execution operation trace result → ∃ answer,
    trace = [⟨query, answer⟩] ∧ result = .ok (read answer)

theorem asks_captureProjection :
    Asks .project (projected expected) (captureProjection expected : QueryM δ β _) := by
  intro trace result hexecution
  obtain ⟨answer, rest, rfl, hrest⟩ := execution_ask.mp hexecution
  cases answer with
  | error error =>
    obtain ⟨rfl, rfl⟩ := execution_pure.mp hrest
    exact ⟨_, rfl, rfl⟩
  | ok projection =>
    obtain ⟨rfl, rfl⟩ := execution_pure.mp hrest
    exact ⟨_, rfl, rfl⟩

theorem asks_providerRequest :
    Asks .retrieve (fun answer ↦ ((), answer)) (providerRequest : QueryM δ β _) := by
  intro trace result hexecution
  obtain ⟨answer, rest, rfl, hrest⟩ := execution_ask.mp hexecution
  obtain ⟨rfl, rfl⟩ := execution_pure.mp hrest
  exact ⟨answer, rfl, rfl⟩

theorem execution_readClock {next : ℚ → QueryM δ β α} {outcome : Except Raised α} :
    Execution (readClock >>= next) trace outcome ↔ ∃ reading rest,
      trace = ⟨.clock, reading⟩ :: rest ∧ Execution (next reading) rest outcome :=
  execution_ask

theorem execution_ofExcept_map {outcome : Except Raised α} {read : α → σ}
    {result : Except Raised σ} :
    Execution (ofExcept outcome >>= fun value ↦ (pure (read value) : QueryM δ β σ)) trace result ↔
      trace = [] ∧ result = outcome.map read := by
  cases outcome <;> exact execution_done

theorem closeInterval_eq (startedAt endedAt : ℚ) :
    (endedAt < startedAt ∧ closeInterval startedAt endedAt = .error movedBackwards) ∨
      (startedAt ≤ endedAt ∧ closeInterval startedAt endedAt = .ok ⟨startedAt, endedAt⟩) := by
  by_cases hback : endedAt < startedAt
  · exact Or.inl ⟨hback, if_pos hback⟩
  · exact Or.inr ⟨not_lt.mp hback, if_neg hback⟩

variable {query : Query} {read : Answer δ β query → σ × Except Raised α}
  {operation : QueryM δ β (σ × Except Raised α)}

/-- How an operation between two readings of the clock goes. -/
theorem of_captureAsyncInterval (hasks : Asks query read operation)
    {result : Except Raised (σ × α × MonotonicInterval)}
    (hexecution : Execution (captureAsyncInterval operation) trace result) :
    ∃ startedAt answer,
      (∃ error, (read answer).2 = .error error ∧
        trace = [⟨.clock, startedAt⟩, ⟨query, answer⟩] ∧ result = .error error) ∨
      ∃ value endedAt, (read answer).2 = .ok value ∧
        trace = [⟨.clock, startedAt⟩, ⟨query, answer⟩, ⟨.clock, endedAt⟩] ∧
        ((endedAt < startedAt ∧ result = .error movedBackwards) ∨
          startedAt ≤ endedAt ∧
            result = .ok ((read answer).1, value, ⟨startedAt, endedAt⟩)) := by
  obtain ⟨startedAt, rest, rfl, hrest⟩ := execution_readClock.mp hexecution
  rcases execution_bind.mp hrest with ⟨error, herror, -⟩ | ⟨⟨left, outcome⟩, first, second, rfl,
    hfirst, hsecond⟩
  · obtain ⟨answer, -, hsame⟩ := hasks herror
    cases hsame
  obtain ⟨answer, rfl, hsame⟩ := hasks hfirst
  refine ⟨startedAt, answer, ?_⟩
  rw [← Except.ok.inj hsame]
  cases outcome with
  | error error =>
    obtain ⟨rfl, rfl⟩ := execution_fail.mp hsecond
    exact Or.inl ⟨error, rfl, rfl, rfl⟩
  | ok value =>
    obtain ⟨endedAt, last, rfl, hlast⟩ := execution_readClock.mp hsecond
    refine Or.inr ⟨value, endedAt, rfl, ?_⟩
    rcases closeInterval_eq startedAt endedAt with ⟨hback, hclose⟩ | ⟨hle, hclose⟩
    · rw [hclose] at hlast
      obtain ⟨rfl, rfl⟩ := execution_fail.mp hlast
      exact ⟨rfl, Or.inl ⟨hback, rfl⟩⟩
    · rw [hclose] at hlast
      obtain ⟨rfl, rfl⟩ := execution_pure.mp hlast
      exact ⟨rfl, Or.inr ⟨hle, rfl⟩⟩

/-- How an operation between two readings of the clock goes whose errors are kept. -/
theorem of_captureAsyncOutcomeInterval (hasks : Asks query read operation)
    {result : Except Raised (σ × Except Raised α × MonotonicInterval)}
    (hexecution : Execution (captureAsyncOutcomeInterval operation) trace result) :
    ∃ startedAt answer,
      (∃ message, (read answer).2 = .error (.exit message) ∧
        trace = [⟨.clock, startedAt⟩, ⟨query, answer⟩] ∧ result = .error (.exit message)) ∨
      ∃ endedAt, (∀ message, (read answer).2 ≠ .error (.exit message)) ∧
        trace = [⟨.clock, startedAt⟩, ⟨query, answer⟩, ⟨.clock, endedAt⟩] ∧
        ((endedAt < startedAt ∧ result = .error movedBackwards) ∨
          startedAt ≤ endedAt ∧
            result = .ok ((read answer).1, (read answer).2, ⟨startedAt, endedAt⟩)) := by
  obtain ⟨startedAt, rest, rfl, hrest⟩ := execution_readClock.mp hexecution
  rcases execution_bind.mp hrest with ⟨error, herror, -⟩ | ⟨⟨left, outcome⟩, first, second, rfl,
    hfirst, hsecond⟩
  · obtain ⟨answer, -, hsame⟩ := hasks herror
    cases hsame
  obtain ⟨answer, rfl, hsame⟩ := hasks hfirst
  refine ⟨startedAt, answer, ?_⟩
  rw [← Except.ok.inj hsame]
  have hclosed : ∀ {outcome : Except Raised α}, (∀ message, outcome ≠ .error (.exit message)) →
      Execution (readClock >>= fun endedAt ↦
        ofExcept (closeInterval startedAt endedAt) >>= fun interval ↦
          (pure (left, outcome, interval) : QueryM δ β (σ × Except Raised α × MonotonicInterval)))
        second result →
      ∃ endedAt, (∀ message, outcome ≠ .error (.exit message)) ∧
        [⟨.clock, startedAt⟩] ++ ([⟨query, answer⟩] ++ second) =
          [⟨.clock, startedAt⟩, ⟨query, answer⟩, ⟨.clock, endedAt⟩] ∧
        ((endedAt < startedAt ∧ result = .error movedBackwards) ∨
          startedAt ≤ endedAt ∧ result = .ok (left, outcome, ⟨startedAt, endedAt⟩)) := by
    intro outcome hstays hsecond
    obtain ⟨endedAt, last, rfl, hlast⟩ := execution_readClock.mp hsecond
    refine ⟨endedAt, hstays, ?_⟩
    rcases closeInterval_eq startedAt endedAt with ⟨hback, hclose⟩ | ⟨hle, hclose⟩
    · rw [hclose] at hlast
      obtain ⟨rfl, rfl⟩ := execution_fail.mp hlast
      exact ⟨rfl, Or.inl ⟨hback, rfl⟩⟩
    · rw [hclose] at hlast
      obtain ⟨rfl, rfl⟩ := execution_pure.mp hlast
      exact ⟨rfl, Or.inr ⟨hle, rfl⟩⟩
  cases outcome with
  | ok value => exact Or.inr (hclosed (fun _ ↦ nofun) hsecond)
  | error error =>
    cases error with
    | exit message =>
      obtain ⟨rfl, rfl⟩ := execution_fail.mp hsecond
      exact Or.inl ⟨message, rfl, rfl, rfl⟩
    | exception message => exact Or.inr (hclosed (fun _ ↦ nofun) hsecond)
    | cancelled => exact Or.inr (hclosed (fun _ ↦ nofun) hsecond)

/-- The exchanges of a step between two readings of the clock. -/
def timed (startedAt : ℚ) (step : Exchange Query (Answer δ β)) (endedAt : ℚ) :
    List (Exchange Query (Answer δ β)) :=
  [⟨.clock, startedAt⟩, step, ⟨.clock, endedAt⟩]

/-- The exchanges up to a first projection that is in order. -/
def front (caseStartedAt : ℚ) (before : MonotonicInterval) (projection : ProjectionReceipt δ) :
    List (Exchange Query (Answer δ β)) :=
  ⟨.clock, caseStartedAt⟩ :: timed before.startedAt ⟨.project, .ok projection⟩ before.endedAt

/-- The exchanges up to a query that came back. -/
def middle (caseStartedAt : ℚ) (before : MonotonicInterval) (projection : ProjectionReceipt δ)
    (provider : MonotonicInterval) (answer : Except Raised β) :
    List (Exchange Query (Answer δ β)) :=
  front caseStartedAt before projection ++
    timed provider.startedAt ⟨.retrieve, answer⟩ provider.endedAt

/-- A step does not exit. -/
def Stays (outcome : Except Raised α) : Prop := ∀ message, outcome ≠ .error (.exit message)

/-- The courses that a query between two projections can take, and what they come to. -/
inductive Course (context : Context) (expected : String) :
    List (Exchange Query (Answer δ β)) →
      Except Raised (ProjectionReceipt δ × Option (ProjectionReceipt δ) × CapturedQueryOutcome β) →
      Prop
  | beforeRaised {caseStartedAt startedAt : ℚ} {answer : Except Raised (ProjectionReceipt δ)}
    {error : Raised} (herror : (projected expected answer).2 = .error error) :
    Course context expected
      [⟨.clock, caseStartedAt⟩, ⟨.clock, startedAt⟩, ⟨.project, answer⟩] (.error error)
  | beforeBackwards {caseStartedAt startedAt endedAt : ℚ}
    {answer : Except Raised (ProjectionReceipt δ)} (hback : endedAt < startedAt) :
    Course context expected (⟨.clock, caseStartedAt⟩ :: timed startedAt ⟨.project, answer⟩ endedAt)
      (.error movedBackwards)
  | providerExit {caseStartedAt startedAt : ℚ} (before : MonotonicInterval)
    {projection : ProjectionReceipt δ} (message : String) :
    Course context expected
      (front caseStartedAt before projection ++
        [⟨.clock, startedAt⟩, ⟨.retrieve, .error (.exit message)⟩]) (.error (.exit message))
  | providerBackwards {caseStartedAt startedAt endedAt : ℚ} (before : MonotonicInterval)
    {projection : ProjectionReceipt δ} {answer : Except Raised β} (hback : endedAt < startedAt) :
    Course context expected
      (front caseStartedAt before projection ++ timed startedAt ⟨.retrieve, answer⟩ endedAt)
      (.error movedBackwards)
  | afterExit {caseStartedAt startedAt : ℚ} (before provider : MonotonicInterval)
    {projection : ProjectionReceipt δ} {answer : Except Raised β} (message : String) :
    Course context expected
      (middle caseStartedAt before projection provider answer ++
        [⟨.clock, startedAt⟩, ⟨.project, .error (.exit message)⟩]) (.error (.exit message))
  | afterBackwards {caseStartedAt startedAt endedAt : ℚ} (before provider : MonotonicInterval)
    {projection : ProjectionReceipt δ} {answer : Except Raised β}
    {last : Except Raised (ProjectionReceipt δ)} (hback : endedAt < startedAt) :
    Course context expected
      (middle caseStartedAt before projection provider answer ++
        timed startedAt ⟨.project, last⟩ endedAt) (.error movedBackwards)
  | attempted {caseStartedAt caseEndedAt : ℚ} (before provider after : MonotonicInterval)
    {projection : ProjectionReceipt δ} {answer : Except Raised β}
    {last : Except Raised (ProjectionReceipt δ)} (hnames : projection.Names expected)
    (hanswer : Stays answer) :
    Course context expected
      (middle caseStartedAt before projection provider answer ++
        (timed after.startedAt ⟨.project, last⟩ after.endedAt ++ [⟨.clock, caseEndedAt⟩]))
      ((buildQueryTiming context caseStartedAt before (valueOf answer) provider after
        caseEndedAt).map fun timing ↦
          (projection, (projected expected last).1,
            ⟨timing, errorOf answer, errorOf (projected expected last).2⟩))

theorem projected_eq_ok {answer : Except Raised (ProjectionReceipt δ)}
    {projection : ProjectionReceipt δ} (hok : (projected expected answer).2 = .ok projection) :
    answer = .ok projection ∧ projection.Names expected := by
  cases answer with
  | error error => cases hok
  | ok answer =>
    by_cases hnames : answer.Names expected
    · rw [projected, if_pos hnames] at hok
      cases hok
      exact ⟨rfl, hnames⟩
    · rw [projected, if_neg hnames] at hok
      cases hok

theorem projected_eq_exit {answer : Except Raised (ProjectionReceipt δ)} {message : String}
    (hexit : (projected expected answer).2 = .error (.exit message)) :
    answer = .error (.exit message) := by
  cases answer with
  | error error =>
    cases hexit
    rfl
  | ok answer =>
    by_cases hnames : answer.Names expected
    · rw [projected, if_pos hnames] at hexit
      cases hexit
    · rw [projected, if_neg hnames] at hexit
      cases hexit

/-- Every execution takes one of the courses. -/
theorem course_of_execution {result : Except Raised
    (ProjectionReceipt δ × Option (ProjectionReceipt δ) × CapturedQueryOutcome β)}
    (hexecution : Execution (captureAsyncQueryOutcome context expected) trace result) :
    Course context expected trace result := by
  obtain ⟨caseStartedAt, rest, rfl, hrest⟩ := execution_readClock.mp hexecution
  rcases execution_bind.mp hrest with ⟨error, herror, rfl⟩ |
    ⟨⟨_, projection, before⟩, first, second, rfl, hfirst, hsecond⟩
  · obtain ⟨startedAt, answer, ⟨error, hraised, rfl, hsame⟩ | ⟨value, endedAt, -, rfl,
      ⟨hback, hsame⟩ | ⟨-, hsame⟩⟩⟩ := of_captureAsyncInterval asks_captureProjection herror
    · cases hsame
      exact .beforeRaised hraised
    · cases hsame
      exact .beforeBackwards hback
    · cases hsame
  obtain ⟨startedAt, answer, ⟨error, -, -, hsame⟩ | ⟨value, endedAt, hvalue, rfl,
    ⟨-, hsame⟩ | ⟨hle, hsame⟩⟩⟩ := of_captureAsyncInterval asks_captureProjection hfirst
  · cases hsame
  · cases hsame
  cases hsame
  obtain ⟨rfl, hnames⟩ := projected_eq_ok hvalue
  rcases execution_bind.mp hsecond with ⟨error, herror, rfl⟩ |
    ⟨⟨_, provider, providerInterval⟩, second, third, rfl, hsecond, hthird⟩
  · obtain ⟨startedAt, answer, ⟨message, hexit, rfl, hsame⟩ | ⟨endedAt, -, rfl,
      ⟨hback, hsame⟩ | ⟨-, hsame⟩⟩⟩ := of_captureAsyncOutcomeInterval asks_providerRequest herror
    · cases hsame
      cases (show answer = .error (.exit message) from hexit)
      exact .providerExit ⟨_, _⟩ message
    · cases hsame
      exact .providerBackwards ⟨_, _⟩ hback
    · cases hsame
  obtain ⟨startedAt, answer, ⟨message, -, -, hsame⟩ | ⟨endedAt, hanswer, rfl,
    ⟨-, hsame⟩ | ⟨-, hsame⟩⟩⟩ := of_captureAsyncOutcomeInterval asks_providerRequest hsecond
  · cases hsame
  · cases hsame
  cases hsame
  rcases execution_bind.mp hthird with ⟨error, herror, rfl⟩ |
    ⟨⟨_, after, afterInterval⟩, third, fourth, rfl, hthird, hfourth⟩
  · obtain ⟨startedAt, last, ⟨message, hexit, rfl, hsame⟩ | ⟨endedAt, -, rfl,
      ⟨hback, hsame⟩ | ⟨-, hsame⟩⟩⟩ := of_captureAsyncOutcomeInterval asks_captureProjection herror
    · cases hsame
      cases projected_eq_exit hexit
      exact .afterExit ⟨_, _⟩ ⟨_, _⟩ message
    · cases hsame
      exact .afterBackwards ⟨_, _⟩ ⟨_, _⟩ hback
    · cases hsame
  obtain ⟨startedAt, last, ⟨message, -, -, hsame⟩ | ⟨endedAt, hlast, rfl,
    ⟨-, hsame⟩ | ⟨-, hsame⟩⟩⟩ := of_captureAsyncOutcomeInterval asks_captureProjection hthird
  · cases hsame
  · cases hsame
  cases hsame
  obtain ⟨caseEndedAt, rest, rfl, hclosed⟩ := execution_readClock.mp hfourth
  obtain ⟨rfl, rfl⟩ := execution_ofExcept_map.mp hclosed
  exact .attempted ⟨_, _⟩ ⟨_, _⟩ ⟨_, _⟩ hnames hanswer

end Courses

/-! ### Guarded retrievals -/

section Retrievals

variable {context : Context} {expected : String} {trace : List (Exchange Query (Answer δ β))}
  {outcome : Except (Failure δ β) (ReadOnlyRetrievalReceipt δ β)}

/-- The readings of the clock. -/
def readings (trace : List (Exchange Query (Answer δ β))) : List ℚ :=
  trace.filterMap fun
    | ⟨.clock, reading⟩ => some reading
    | _ => none

/-- The exchanges with the memory system. -/
def steps (trace : List (Exchange Query (Answer δ β))) : List (Exchange Query (Answer δ β)) :=
  trace.filter fun exchange ↦ exchange.1 ≠ .clock

/-- The clock does not go backwards, and no step exits. -/
structure Regular (trace : List (Exchange Query (Answer δ β))) : Prop where
  readings : (readings trace).IsChain (· ≤ ·)
  project : ∀ message, ⟨.project, .error (.exit message)⟩ ∉ trace
  retrieve : ∀ message, ⟨.retrieve, .error (.exit message)⟩ ∉ trace

/-- The intervals of a timing are in order, and the seconds of the request are those of its own. -/
structure WellTimed {ρ : Type} (context : Context) (timing : CapturedQueryTiming ρ) : Prop where
  ordered : [timing.projectionIntervals.1.startedAt, timing.projectionIntervals.1.endedAt,
    timing.providerInterval.startedAt, timing.providerInterval.endedAt,
    timing.projectionIntervals.2.startedAt, timing.projectionIntervals.2.endedAt].IsChain (· ≤ ·)
  seconds : timing.providerRequest.seconds = timing.providerInterval.seconds context

/-- Every timing that an outcome records is in order. -/
def RecordsTimed (context : Context) :
    Except (Failure δ β) (ReadOnlyRetrievalReceipt δ β) → Prop
  | .ok receipt | .error (.mutation receipt) => WellTimed context receipt.timing
  | .error (.failed receipt _) | .error (.cancelled receipt _) => WellTimed context receipt.timing
  | .error (.raised _) => True

/-- What a failure keeps of the errors behind its first projection. -/
def errorsOf : Failure δ β → Option (Option Raised × Option Raised)
  | .failed receipt _ | .cancelled receipt _ =>
    some (receipt.providerError, receipt.postProjectionError)
  | _ => none

/-- What holds of the exchanges of a retrieval and of its outcome. -/
structure Guarded (context : Context) (expected : String)
    (trace : List (Exchange Query (Answer δ β)))
    (outcome : Except (Failure δ β) (ReadOnlyRetrievalReceipt δ β)) : Prop where
  success : ∀ {receipt}, outcome = .ok receipt →
    steps trace = [⟨.project, .ok receipt.beforeProjection⟩, ⟨.retrieve, .ok receipt.nativeBatch⟩,
        ⟨.project, .ok receipt.afterProjection⟩] ∧
      receipt.beforeProjection.Names expected ∧ receipt.afterProjection.Names expected ∧
      receipt.beforeProjection.orderedSourceUnitIds =
        receipt.afterProjection.orderedSourceUnitIds ∧
      receipt.beforeProjection.stateSha256 = receipt.afterProjection.stateSha256
  attempted : Regular trace → ∀ {before answer after},
    steps trace = before ++ ⟨.retrieve, answer⟩ :: after → ∃ last, after = [⟨.project, last⟩]
  first_kept : Regular trace → ∀ {answer error}, steps trace = [⟨.project, answer⟩] →
    (projected expected answer).2 = .error error → outcome = .error (.raised error)
  kept : Regular trace → ∀ {first answer last},
    steps trace = [⟨.project, first⟩, ⟨.retrieve, answer⟩, ⟨.project, last⟩] →
    (errorOf answer ≠ none ∨ errorOf (projected expected last).2 ≠ none) →
    ∃ failure, outcome = .error failure ∧
      errorsOf failure = some (errorOf answer, errorOf (projected expected last).2)
  timed : RecordsTimed context outcome

theorem buildQueryTiming_eq_ok {ρ : Type} {caseStartedAt caseEndedAt : ℚ}
    {before provider after : MonotonicInterval} {result : ρ} {timing : CapturedQueryTiming ρ}
    (htiming : buildQueryTiming context caseStartedAt before result provider after caseEndedAt =
      .ok timing) : WellTimed context timing ∧ timing.result = result := by
  rw [buildQueryTiming] at htiming
  by_cases hordered : (boundaries caseStartedAt before provider after caseEndedAt).IsChain (· ≤ ·)
  · rw [if_pos hordered] at htiming
    cases htiming
    refine ⟨⟨?_, rfl⟩, rfl⟩
    exact hordered.tail.infix ⟨[], [caseEndedAt], rfl⟩
  · rw [if_neg hordered] at htiming
    cases htiming

/-- A failure keeps the errors of its receipt. -/
theorem failedRetrieval_eq {receipt : FailedReadOnlyRetrievalReceipt δ β}
    (herrors : receipt.providerError ≠ none ∨ receipt.postProjectionError ≠ none) :
    ∃ cause, failedRetrieval receipt = .failed receipt cause ∨
      failedRetrieval receipt = .cancelled receipt cause := by
  rw [failedRetrieval]
  by_cases hcancelled : receipt.providerError = some .cancelled ∨
      receipt.postProjectionError = some .cancelled
  · exact ⟨.cancelled, Or.inr (if_pos hcancelled)⟩
  · rw [if_neg hcancelled]
    cases hprovider : receipt.providerError with
    | some error => exact ⟨error, Or.inl rfl⟩
    | none =>
      cases hpost : receipt.postProjectionError with
      | some error => exact ⟨error, Or.inl rfl⟩
      | none => exact absurd ⟨hprovider, hpost⟩ (not_and_or.mpr herrors)

/-- A retrieval takes one of the courses of its query, and comes to what follows from it. -/
theorem exists_course
    (hexecution : Execution (executeReadOnlyRetrieval context expected) trace outcome) :
    ∃ result, Course context expected trace result ∧
      outcome = match result with
        | .error error => .error (.raised error)
        | .ok (before, after, captured) => concludeRetrieval before after captured := by
  rcases execution_bind.mp hexecution with ⟨error, herror, -⟩ | ⟨result, first, second, rfl, hfirst,
    hsecond⟩
  · obtain ⟨other, hsame, -⟩ := execution_settle.mp herror
    cases hsame
  obtain ⟨other, hsame, hcaptured⟩ := execution_settle.mp hfirst
  cases hsame
  refine ⟨result, ?_, ?_⟩
  · cases result with
    | error error =>
      obtain ⟨rfl, -⟩ := execution_fail.mp hsecond
      rw [List.append_nil]
      exact course_of_execution hcaptured
    | ok captured =>
      obtain ⟨rfl, -⟩ := execution_ofExcept.mp hsecond
      rw [List.append_nil]
      exact course_of_execution hcaptured
  · cases result with
    | error error => exact (execution_fail.mp hsecond).2
    | ok captured => exact (execution_ofExcept.mp hsecond).2

/-- A regular retrieval fails in its first projection, or attempts all its steps. -/
theorem course_of_regular {result : Except Raised
    (ProjectionReceipt δ × Option (ProjectionReceipt δ) × CapturedQueryOutcome β)}
    (hregular : Regular trace) (hcourse : Course context expected trace result) :
    (∃ answer error, steps trace = [⟨.project, answer⟩] ∧
      (projected expected answer).2 = .error error ∧ result = .error error) ∨
    ∃ projection answer last timing, steps trace = [⟨.project, .ok projection⟩,
        ⟨.retrieve, answer⟩, ⟨.project, last⟩] ∧
      result = .ok (projection, (projected expected last).1,
        ⟨timing, errorOf answer, errorOf (projected expected last).2⟩) := by
  have hback : ∀ (before : List ℚ) {first second : ℚ} {rest : List ℚ},
      readings trace = before ++ first :: second :: rest → ¬ second < first := by
    intro before first second rest hreadings
    have hchain := hregular.readings
    rw [hreadings] at hchain
    exact not_lt.mpr (List.isChain_cons_cons.mp hchain.right_of_append).1
  cases hcourse with
  | beforeRaised herror => exact Or.inl ⟨_, _, rfl, herror, rfl⟩
  | beforeBackwards hbackwards => exact absurd hbackwards (hback [_] rfl)
  | providerExit _ message =>
    exact absurd (List.mem_append_right _ (by simp)) (hregular.retrieve message)
  | providerBackwards _ hbackwards => exact absurd hbackwards (hback [_, _, _] rfl)
  | afterExit _ _ message =>
    exact absurd (List.mem_append_right _ (by simp)) (hregular.project message)
  | afterBackwards _ _ hbackwards => exact absurd hbackwards (hback [_, _, _, _, _] rfl)
  | @attempted caseStartedAt caseEndedAt before provider after projection answer last =>
    have hordered : (boundaries caseStartedAt before provider after caseEndedAt).IsChain (· ≤ ·) :=
      hregular.readings
    obtain ⟨timing, htiming⟩ : ∃ timing, buildQueryTiming context caseStartedAt before
        (valueOf answer) provider after caseEndedAt = .ok timing := ⟨_, if_pos hordered⟩
    refine Or.inr ⟨projection, answer, last, timing, rfl, ?_⟩
    rw [htiming]
    rfl

/-- A retrieval that attempts all its steps is timed in order, and comes to its errors or to what
it projected and retrieved. -/
theorem course_of_ok {before : ProjectionReceipt δ} {after : Option (ProjectionReceipt δ)}
    {captured : CapturedQueryOutcome β}
    (hcourse : Course context expected trace (.ok (before, after, captured))) :
    WellTimed context captured.timing ∧
      ((∃ receipt, concludeRetrieval before after captured = .error (failedRetrieval receipt) ∧
          receipt.timing = captured.timing ∧
          (receipt.providerError ≠ none ∨ receipt.postProjectionError ≠ none)) ∨
        ∃ batch last, steps trace = [⟨.project, .ok before⟩, ⟨.retrieve, .ok batch⟩,
            ⟨.project, .ok last⟩] ∧ before.Names expected ∧ last.Names expected ∧
          concludeRetrieval before after captured =
            succeededRetrieval
              ⟨before, batch, last, { captured.timing with result := batch }⟩) := by
  generalize hresult : (Except.ok (before, after, captured) : Except Raised _) = result at hcourse
  cases hcourse with
  | @attempted caseStartedAt caseEndedAt beforeInterval provider afterInterval projection answer
    last hnames =>
    cases htiming : buildQueryTiming context caseStartedAt beforeInterval (valueOf answer) provider
        afterInterval caseEndedAt with
    | error error =>
      rw [htiming] at hresult
      cases hresult
    | ok timing =>
      rw [htiming] at hresult
      cases hresult
      obtain ⟨htimed, hvalue⟩ := buildQueryTiming_eq_ok htiming
      refine ⟨htimed, ?_⟩
      by_cases herrors : errorOf answer ≠ none ∨ errorOf (projected expected last).2 ≠ none
      · exact Or.inl ⟨_, if_pos herrors, rfl, herrors⟩
      obtain ⟨batch, rfl⟩ : ∃ batch, answer = .ok batch := by
        cases answer with
        | error error => exact absurd (Or.inl nofun) herrors
        | ok batch => exact ⟨batch, rfl⟩
      obtain ⟨final, hfinal⟩ : ∃ final, (projected expected last).2 = .ok final := by
        cases hlast : (projected expected last).2 with
        | error error => exact absurd (Or.inr (by rw [hlast]; exact nofun)) herrors
        | ok final => exact ⟨final, rfl⟩
      obtain ⟨rfl, hfinalNames⟩ := projected_eq_ok hfinal
      refine Or.inr ⟨batch, final, rfl, hnames, hfinalNames, ?_⟩
      obtain ⟨result, providerRequest, projectionVerification, caseTotal, providerInterval,
        projectionIntervals⟩ := timing
      cases hvalue
      exact if_neg herrors
  | _ => cases hresult

/-- The receipt of a retrieval that succeeds or finds its projections changed. -/
theorem succeededRetrieval_eq (receipt : ReadOnlyRetrievalReceipt δ β) :
    (succeededRetrieval receipt = .error (.mutation receipt)) ∨
      succeededRetrieval receipt = .ok receipt ∧
        receipt.beforeProjection.orderedSourceUnitIds =
          receipt.afterProjection.orderedSourceUnitIds ∧
        receipt.beforeProjection.stateSha256 = receipt.afterProjection.stateSha256 := by
  by_cases hchanged : projectionChanged receipt.beforeProjection receipt.afterProjection
  · exact Or.inl (if_pos hchanged)
  · refine Or.inr ⟨if_neg hchanged, ?_⟩
    simpa [projectionChanged] using hchanged

/-- A timing is in order in whatever a retrieval that attempts all its steps comes to. -/
theorem timed_of_course {before : ProjectionReceipt δ} {after : Option (ProjectionReceipt δ)}
    {captured : CapturedQueryOutcome β}
    (hcourse : Course context expected trace (.ok (before, after, captured))) :
    RecordsTimed context (concludeRetrieval before after captured) := by
  obtain ⟨htimed, ⟨receipt, hfailed, htiming, herrors⟩ |
    ⟨batch, last, -, -, -, hsucceeded⟩⟩ := course_of_ok hcourse
  · rw [hfailed]
    rw [← htiming] at htimed
    obtain ⟨cause, heq | heq⟩ := failedRetrieval_eq herrors
    · rw [heq]
      exact htimed
    · rw [heq]
      exact htimed
  · rw [hsucceeded]
    rcases succeededRetrieval_eq
      ⟨before, batch, last, { captured.timing with result := batch }⟩ with heq | ⟨heq, -⟩
    · rw [heq]
      exact ⟨htimed.ordered, htimed.seconds⟩
    · rw [heq]
      exact ⟨htimed.ordered, htimed.seconds⟩

theorem guarded_of_execution
    (hexecution : Execution (executeReadOnlyRetrieval context expected) trace outcome) :
    Guarded context expected trace outcome := by
  obtain ⟨result, hcourse, houtcome⟩ := exists_course hexecution
  constructor
  case success =>
    rintro receipt rfl
    cases result with
    | error error => cases houtcome
    | ok captured =>
      obtain ⟨-, ⟨failure, hfailed, -⟩ | ⟨batch, last, hsteps, hnames, hlast, hsucceeded⟩⟩ :=
        course_of_ok hcourse
      · cases hfailed.symm.trans houtcome.symm
      · rcases succeededRetrieval_eq _ with heq | ⟨heq, hids, hstate⟩
        · cases heq.symm.trans (hsucceeded.symm.trans houtcome.symm)
        · cases heq.symm.trans (hsucceeded.symm.trans houtcome.symm)
          exact ⟨hsteps, hnames, hlast, hids, hstate⟩
  case attempted =>
    intro hregular before answer after hsteps
    rcases course_of_regular hregular hcourse with ⟨first, error, hfirst, -, -⟩ |
      ⟨projection, provider, last, timing, hthree, -⟩
    · rw [hfirst] at hsteps
      rcases before with _ | ⟨_, before⟩
      · cases hsteps
      · simp at hsteps
    · rw [hthree] at hsteps
      rcases before with _ | ⟨_, _ | ⟨_, _ | ⟨_, before⟩⟩⟩
      · cases hsteps
      · cases hsteps
        exact ⟨last, rfl⟩
      · cases hsteps
      · simp at hsteps
  case first_kept =>
    intro hregular answer error hsteps herror
    rcases course_of_regular hregular hcourse with ⟨first, other, hfirst, hother, rfl⟩ |
      ⟨projection, provider, last, timing, hthree, -⟩
    · rw [hfirst] at hsteps
      cases hsteps
      cases hother.symm.trans herror
      exact houtcome
    · rw [hthree] at hsteps
      cases hsteps
  case kept =>
    intro hregular first answer last hsteps herrors
    rcases course_of_regular hregular hcourse with ⟨first, other, hfirst, -, -⟩ |
      ⟨projection, provider, other, timing, hthree, rfl⟩
    · rw [hfirst] at hsteps
      cases hsteps
    · rw [hthree] at hsteps
      cases hsteps
      refine ⟨_, houtcome.trans (if_pos herrors), ?_⟩
      obtain ⟨cause, heq | heq⟩ := @failedRetrieval_eq _ _ ⟨_, _, _, errorOf answer,
        errorOf (projected expected last).2, _, _⟩ herrors
      · rw [heq]
        rfl
      · rw [heq]
        rfl
  case timed =>
    rw [houtcome]
    cases result with
    | error error => exact trivial
    | ok captured => exact timed_of_course hcourse

end Retrievals

/-! ### Sample retrievals -/

section Sample

/-- A projection of an occurrence. -/
def sampleProjection : ProjectionReceipt Unit := ⟨"occurrence", ["unit"], "occurrence", "state", ()⟩

/-- A clock that counts the queries, and a memory system that projects and retrieves so. -/
def sampleAnswers (retrieved : Except Raised Unit) : ℕ → (query : Query) → Answer Unit Unit query
  | position, .clock => position
  | _, .project => .ok sampleProjection
  | _, .retrieve => retrieved

/-- A retrieval with these answers. -/
def sampleRetrieval (context : Context) (retrieved : Except Raised Unit) :
    List (Exchange Query (Answer Unit Unit)) ×
      Except (Failure Unit Unit) (ReadOnlyRetrievalReceipt Unit Unit) :=
  converse (sampleAnswers retrieved) 0 (executeReadOnlyRetrieval context "occurrence")

/-- A context of 28 digits. -/
def sampleContext : Context := ⟨28, -1000026, 999999, Nat.succ_pos 27⟩

theorem guarded_of_execution_sample :
    Guarded sampleContext "occurrence" (sampleRetrieval sampleContext (.ok ())).1
      (sampleRetrieval sampleContext (.ok ())).2 :=
  guarded_of_execution (execution_converse _ _)

/-- A query that exits is not followed by a projection. -/
theorem exit_not_attempted :
    ¬ ∀ (context : Context) (expected : String) (trace : List (Exchange Query (Answer Unit Unit)))
        (outcome : Except (Failure Unit Unit) (ReadOnlyRetrievalReceipt Unit Unit)),
      Execution (executeReadOnlyRetrieval context expected) trace outcome →
        ∀ before answer after, steps trace = before ++ ⟨.retrieve, answer⟩ :: after →
          ∃ last, after = [⟨.project, last⟩] := by
  intro hall
  have hsteps : steps (sampleRetrieval sampleContext (.error (.exit "interrupt"))).1 =
      [⟨.project, .ok sampleProjection⟩] ++ [⟨.retrieve, .error (.exit "interrupt")⟩] := rfl
  obtain ⟨last, hlast⟩ := hall sampleContext "occurrence" _ _ (execution_converse _ 0) _ _ _ hsteps
  cases hlast

end Sample

end Oamb.Runtime.MemoryQueryGuarantees
