import Oamb.Foundation.DecimalContext
import Oamb.Foundation.Dialogue

/-!
# Read-only retrieval

A retrieval from a memory system stands between two projections of its protected state. Each of the
three steps is timed on its own, and the errors of the last two are kept until both were attempted.
-/

set_option autoImplicit false

namespace Oamb.Runtime.MemoryQuery

open Foundation Foundation.Dialogue Foundation.DecimalContext

/-! ### Errors, projections and timings -/

/-- What a step raises. An exit of the process is neither an exception nor a cancellation. -/
inductive Raised
  | exception (message : String)
  | cancelled
  | exit (message : String)
  deriving DecidableEq

/-- A projection of the protected state, with its other members. -/
structure ProjectionReceipt (δ : Type) where
  inventoryOccurrenceId : String
  orderedSourceUnitIds : List String
  digestOccurrenceId : String
  stateSha256 : String
  details : δ

/-- Two readings of the clock. -/
structure MonotonicInterval where
  startedAt : ℚ
  endedAt : ℚ

/-- The seconds of an interval, in the precision of the context. -/
def MonotonicInterval.seconds (context : Context) (interval : MonotonicInterval) : ℚ :=
  context.round (interval.endedAt - interval.startedAt)

/-- A number of seconds, with what it measures. -/
structure TimingMeasurement where
  dimensionId : String
  seconds : ℚ

/-- The timing of a query with its result. -/
structure CapturedQueryTiming (ρ : Type) where
  result : ρ
  providerRequest : TimingMeasurement
  projectionVerification : TimingMeasurement
  caseTotal : TimingMeasurement
  providerInterval : MonotonicInterval
  projectionIntervals : MonotonicInterval × MonotonicInterval

/-- The timing of a query, and the errors of its last two steps. -/
structure CapturedQueryOutcome (β : Type) where
  timing : CapturedQueryTiming (Option β)
  providerError : Option Raised
  postProjectionError : Option Raised

/-- A retrieval that succeeded. -/
structure ReadOnlyRetrievalReceipt (δ β : Type) where
  beforeProjection : ProjectionReceipt δ
  nativeBatch : β
  afterProjection : ProjectionReceipt δ
  timing : CapturedQueryTiming β

/-- A retrieval of which a step failed behind its first projection. -/
structure FailedReadOnlyRetrievalReceipt (δ β : Type) where
  beforeProjection : ProjectionReceipt δ
  nativeBatch : Option β
  afterProjection : Option (ProjectionReceipt δ)
  providerError : Option Raised
  postProjectionError : Option Raised
  projectionMutated : Option Bool
  timing : CapturedQueryTiming (Option β)

/-- What a retrieval raises. -/
inductive Failure (δ β : Type)
  | raised (error : Raised)
  | failed (receipt : FailedReadOnlyRetrievalReceipt δ β) (cause : Raised)
  | cancelled (receipt : FailedReadOnlyRetrievalReceipt δ β) (cause : Raised)
  | mutation (receipt : ReadOnlyRetrievalReceipt δ β)

variable {δ β α σ : Type}

/-- The projection belongs to an occurrence. -/
def ProjectionReceipt.Names (expected : String) (projection : ProjectionReceipt δ) : Prop :=
  projection.inventoryOccurrenceId = expected ∧ projection.digestOccurrenceId = expected

instance instDecidableNames (expected : String) (projection : ProjectionReceipt δ) :
    Decidable (projection.Names expected) :=
  inferInstanceAs (Decidable (_ ∧ _))

def projectionChanged (before after : ProjectionReceipt δ) : Bool :=
  before.orderedSourceUnitIds ≠ after.orderedSourceUnitIds ∨ before.stateSha256 ≠ after.stateSha256

/-! ### The retrieval -/

/-- What a retrieval asks of the clock and of the memory system. -/
inductive Query
  | clock
  | project
  | retrieve
  deriving DecidableEq

/-- What they answer. -/
abbrev Answer (δ β : Type) : Query → Type
  | .clock => ℚ
  | .project => Except Raised (ProjectionReceipt δ)
  | .retrieve => Except Raised β

/-- A part of a retrieval. -/
abbrev QueryM (δ β α : Type) := Dialogue Query (Answer δ β) Raised α

/-- The error of a clock. -/
def movedBackwards : Raised := .exception "monotonic clock moved backwards"

/-- The error of a projection that does not belong to the occurrence of the scope. -/
def foreignProjection : Raised :=
  .exception "projection belongs to a different ingestion occurrence"

/-- Read the clock. -/
def readClock : QueryM δ β ℚ := ask .clock fun reading ↦ pure reading

/-- Project, and check what is projected. The projection is there even if its check fails. -/
def captureProjection (expected : String) :
    QueryM δ β (Option (ProjectionReceipt δ) × Except Raised (ProjectionReceipt δ)) :=
  ask .project fun
    | .error error => pure (none, .error error)
    | .ok projection =>
      pure (some projection,
        if projection.Names expected then .ok projection else .error foreignProjection)

/-- Retrieve from the memory system. -/
def providerRequest : QueryM δ β (Unit × Except Raised β) :=
  ask .retrieve fun outcome ↦ pure ((), outcome)

/-- The interval of two readings, unless the clock moved backwards. -/
def closeInterval (startedAt endedAt : ℚ) : Except Raised MonotonicInterval :=
  if endedAt < startedAt then .error movedBackwards else .ok ⟨startedAt, endedAt⟩

/-- An operation between two readings of the clock. What it raises goes on. -/
def captureAsyncInterval (operation : QueryM δ β (σ × Except Raised α)) :
    QueryM δ β (σ × α × MonotonicInterval) :=
  readClock >>= fun startedAt ↦ operation >>= fun
    | (_, .error error) => fail error
    | (left, .ok result) => readClock >>= fun endedAt ↦
      ofExcept (closeInterval startedAt endedAt) >>= fun interval ↦ pure (left, result, interval)

/-- An operation between two readings of the clock. An exception that it raises, or its
cancellation, is its result. -/
def captureAsyncOutcomeInterval (operation : QueryM δ β (σ × Except Raised α)) :
    QueryM δ β (σ × Except Raised α × MonotonicInterval) :=
  readClock >>= fun startedAt ↦ operation >>= fun
    | (_, .error (.exit message)) => fail (.exit message)
    | (left, outcome) => readClock >>= fun endedAt ↦
      ofExcept (closeInterval startedAt endedAt) >>= fun interval ↦ pure (left, outcome, interval)

/-- The boundaries of the steps of a case. -/
def boundaries (caseStartedAt : ℚ) (before provider after : MonotonicInterval)
    (caseEndedAt : ℚ) : List ℚ :=
  [caseStartedAt, before.startedAt, before.endedAt, provider.startedAt, provider.endedAt,
    after.startedAt, after.endedAt, caseEndedAt]

/-- The timing of a query whose boundaries are in order. -/
def buildQueryTiming {ρ : Type} (context : Context) (caseStartedAt : ℚ)
    (before : MonotonicInterval) (result : ρ) (provider after : MonotonicInterval)
    (caseEndedAt : ℚ) : Except Raised (CapturedQueryTiming ρ) :=
  if (boundaries caseStartedAt before provider after caseEndedAt).IsChain (· ≤ ·) then
    .ok {
      result
      providerRequest := ⟨"provider_request_wall_seconds_v1", provider.seconds context⟩
      projectionVerification := ⟨"projection_verification_wall_seconds_v1",
        context.round (before.seconds context + after.seconds context)⟩
      caseTotal := ⟨"case_wall_seconds_v1",
        MonotonicInterval.seconds context ⟨caseStartedAt, caseEndedAt⟩⟩
      providerInterval := provider
      projectionIntervals := (before, after) }
  else .error (.exception "monotonic timing boundaries are globally out of order")

/-- The value of an outcome, if there is one. -/
def valueOf : Except Raised α → Option α
  | .ok value => some value
  | .error _ => none

/-- The error of an outcome, if there is one. -/
def errorOf : Except Raised α → Option Raised
  | .ok _ => none
  | .error error => some error

/-- Time a query between two projections. The projections are returned with the outcome. -/
def captureAsyncQueryOutcome (context : Context) (expected : String) :
    QueryM δ β
      (ProjectionReceipt δ × Option (ProjectionReceipt δ) × CapturedQueryOutcome β) := do
  let caseStartedAt ← readClock
  let (_, before, beforeInterval) ← captureAsyncInterval (captureProjection expected)
  let (_, provider, providerInterval) ← captureAsyncOutcomeInterval providerRequest
  let (afterProjection, after, afterInterval) ←
    captureAsyncOutcomeInterval (captureProjection expected)
  let caseEndedAt ← readClock
  let timing ← ofExcept (buildQueryTiming context caseStartedAt beforeInterval (valueOf provider)
    providerInterval afterInterval caseEndedAt)
  pure (before, afterProjection, ⟨timing, errorOf provider, errorOf after⟩)

/-- What is raised when one of the last two steps failed. A cancellation goes first. -/
def failedRetrieval (receipt : FailedReadOnlyRetrievalReceipt δ β) : Failure δ β :=
  if receipt.providerError = some .cancelled ∨ receipt.postProjectionError = some .cancelled then
    .cancelled receipt .cancelled
  else
    match receipt.providerError, receipt.postProjectionError with
    | some error, _ | none, some error => .failed receipt error
    | none, none => .raised (.exception "failed retrieval outcome has no error")

/-- What a retrieval comes to whose steps all succeeded. -/
def succeededRetrieval (receipt : ReadOnlyRetrievalReceipt δ β) :
    Except (Failure δ β) (ReadOnlyRetrievalReceipt δ β) :=
  if projectionChanged receipt.beforeProjection receipt.afterProjection then
    .error (.mutation receipt)
  else .ok receipt

/-- What a retrieval comes to whose steps were all attempted. -/
def concludeRetrieval (before : ProjectionReceipt δ) (after : Option (ProjectionReceipt δ))
    (outcome : CapturedQueryOutcome β) : Except (Failure δ β) (ReadOnlyRetrievalReceipt δ β) :=
  if outcome.providerError ≠ none ∨ outcome.postProjectionError ≠ none then
    .error (failedRetrieval {
      beforeProjection := before
      nativeBatch := outcome.timing.result
      afterProjection := after
      providerError := outcome.providerError
      postProjectionError := outcome.postProjectionError
      projectionMutated := after.map (projectionChanged before)
      timing := outcome.timing })
  else
    match after, outcome.timing.result with
    | some after, some batch =>
      succeededRetrieval ⟨before, batch, after, { outcome.timing with result := batch }⟩
    | _, _ => .error (.raised (.exception "successful query timing returned incomplete evidence"))

/-- Retrieve from a memory system between two projections. -/
def executeReadOnlyRetrieval (context : Context) (expected : String) :
    Dialogue Query (Answer δ β) (Failure δ β) (ReadOnlyRetrievalReceipt δ β) :=
  settle (captureAsyncQueryOutcome context expected) >>= fun
    | .error error => fail (.raised error)
    | .ok (before, after, outcome) => ofExcept (concludeRetrieval before after outcome)

end Oamb.Runtime.MemoryQuery
