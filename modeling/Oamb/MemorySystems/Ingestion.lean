import Oamb.Foundation.Dialogue
import Oamb.Foundation.JsonValues
import Oamb.MemorySystems.RestClient

/-!
# The ingestion of sources

The sources of a question are planned once: a plan is a list of dispatches with contiguous ordinals.
An adapter ingests a dispatch in a dialogue with the REST client, the clock of the loop and its sleep.
An attempt on a dispatch comes to a receipt, or to an error of which a settled failure is one.
-/

set_option autoImplicit false

namespace Oamb.MemorySystems

open Foundation Foundation.Dialogue
open RestClient

/-! ### Dispatches -/

/-- A unit of source text. -/
structure SourceUnit where
  sourceUnitId : String
  ordinal : ℕ
  payloadBytes : Bytes
  occurredAt : Option String
  contextText : Option String
  sourceMetadata : List (String × String)
  deriving DecidableEq

/-- Some sources that are sent together. -/
structure IngestionDispatch where
  dispatchOrdinal : ℕ
  operationKind : String
  requestFingerprint : String
  orderedSourceUnits : List SourceUnit
  deriving DecidableEq

/-- A request to ingest a dispatch in a scope. The attempts on a dispatch are numbered to three. -/
structure IngestionDispatchRequest where
  scopeId : String
  ingestionOccurrenceId : String
  attemptId : String
  dispatch : IngestionDispatch
  batchAttemptOrdinal : ℕ
  ordinal_bounded : 1 ≤ batchAttemptOrdinal ∧ batchAttemptOrdinal ≤ 3

/-- A plan that is frozen: the ordinals of its dispatches are contiguous, and their fingerprints are
distinct. -/
structure FrozenPlan where
  dispatches : List IngestionDispatch
  ordinals : ∀ (index : ℕ) (hindex : index < dispatches.length),
    dispatches[index].dispatchOrdinal = index + 1
  distinct : (dispatches.map IngestionDispatch.requestFingerprint).Nodup

/-- The dispatch of a plan with an ordinal. -/
def FrozenPlan.find (plan : FrozenPlan) : ℕ → Option IngestionDispatch
  | 0 => none
  | index + 1 => plan.dispatches[index]?

/-- A dispatch of some units. -/
def dispatchOf (operationKind : String) (fingerprint : ℕ → List SourceUnit → String)
    (units : List SourceUnit) (index : ℕ) : IngestionDispatch :=
  ⟨index + 1, operationKind, fingerprint (index + 1) units, units⟩

/-- The plan of some batches of units, one dispatch for each. -/
def planDispatches (operationKind : String) (fingerprint : ℕ → List SourceUnit → String)
    (hfingerprint : ∀ ordinal other units units',
      fingerprint ordinal units = fingerprint other units' → ordinal = other)
    (batches : List (List SourceUnit)) : FrozenPlan where
  dispatches := batches.mapIdx fun index units ↦ dispatchOf operationKind fingerprint units index
  ordinals := by
    intro index hindex
    rw [List.getElem_mapIdx, dispatchOf]
  distinct := by
    rw [List.nodup_iff_injective_getElem]
    rintro ⟨index, hindex⟩ ⟨other, hother⟩ hsame
    simp only [List.getElem_map, List.getElem_mapIdx, dispatchOf] at hsame
    have hordinal := hfingerprint _ _ _ _ hsame
    exact Fin.ext (Nat.succ.inj hordinal)

/-- A scope that was allocated for an occurrence, and its plan when it is planned. -/
structure Scope where
  ingestionOccurrenceId : String
  plan : Option FrozenPlan

/-- The fingerprint of the dispatch of a scope with an ordinal. -/
def fingerprintAt (scopes : String → Option Scope) (batch : String × ℕ) : Option String :=
  ((((scopes batch.1).bind Scope.plan).bind fun plan ↦ plan.find batch.2)).map
    IngestionDispatch.requestFingerprint

theorem FrozenPlan.eq_of_find {plan : FrozenPlan} {ordinal other : ℕ}
    {dispatch dispatch' : IngestionDispatch} (hdispatch : plan.find ordinal = some dispatch)
    (hother : plan.find other = some dispatch')
    (hsame : dispatch.requestFingerprint = dispatch'.requestFingerprint) : ordinal = other := by
  cases ordinal with
  | zero => cases hdispatch
  | succ index =>
    cases other with
    | zero => cases hother
    | succ index' =>
      obtain ⟨hindex, rfl⟩ := List.getElem?_eq_some_iff.mp hdispatch
      obtain ⟨hindex', rfl⟩ := List.getElem?_eq_some_iff.mp hother
      have hnodup := List.nodup_iff_injective_getElem.mp plan.distinct
      have hlength : (plan.dispatches.map IngestionDispatch.requestFingerprint).length =
          plan.dispatches.length := List.length_map _
      have heq := @hnodup ⟨index, hlength ▸ hindex⟩ ⟨index', hlength ▸ hindex'⟩
        (by simpa only [List.getElem_map] using hsame)
      rw [Fin.mk.injEq] at heq
      rw [heq]

/-- Dispatches of a scope with the same fingerprint have the same ordinal. -/
theorem fingerprintAt_injective {scopes : String → Option Scope} {scopeId fingerprint : String}
    {ordinal other : ℕ} (hordinal : fingerprintAt scopes (scopeId, ordinal) = some fingerprint)
    (hother : fingerprintAt scopes (scopeId, other) = some fingerprint) : ordinal = other := by
  obtain ⟨dispatch, hdispatch, hfingerprint⟩ := Option.map_eq_some_iff.mp hordinal
  obtain ⟨dispatch', hdispatch', hfingerprint'⟩ := Option.map_eq_some_iff.mp hother
  obtain ⟨plan, hplan, hfind⟩ := Option.bind_eq_some_iff.mp hdispatch
  obtain ⟨plan', hplan', hfind'⟩ := Option.bind_eq_some_iff.mp hdispatch'
  dsimp only at hplan hplan'
  rw [hplan, Option.some.injEq] at hplan'
  subst hplan'
  exact FrozenPlan.eq_of_find hfind hfind' (hfingerprint.trans hfingerprint'.symm)

/-! ### Queries -/

/-- A request to the REST client. -/
structure RestCall where
  method : String
  path : String
  params : List (String × Json) := []
  payload : Json := .null
  writeIntent : Bool := false
  requestEvidence : Bool := false
  totalTimeoutSeconds : Option ℚ := none

/-- What an ingestion asks. -/
inductive Query
  | request (call : RestCall)
  | clock
  | sleep (seconds : ℚ)

/-- How a sleep ends. -/
inductive SleepOutcome
  | slept
  | cancelled
  deriving DecidableEq

/-- What an ingestion is told. -/
def Answer : Query → Type
  | .request _ => Exit
  | .clock => ℚ
  | .sleep _ => SleepOutcome

/-- An ingestion failure whose provider work is proven settled. -/
structure SettledFailure where
  failureKind : String
  rawReference : String
  rawResponseBytes : Bytes
  supportingRawReferences : List String
  statusCode : ℕ
  settlementBasis : String
  internalRetryCount : ℕ
  expectedTaskId : Option String
  expectedSessionId : Option String

/-- What an ingestion raises: how a request ended, or an error that is made like one; a settled
failure; an error of the profile or of the arguments; or a cancellation. -/
inductive IngestError
  | call (exit : Exit)
  | settled (failure : SettledFailure)
  | valueError (message : String)
  | cancelled

/-- A step of an ingestion. -/
abbrev Ingest (α : Type) : Type := Dialogue Query Answer IngestError α

/-- How a request ends, as a value or an error. -/
def exitOutcome : Exit → Except IngestError SealedRestResponse
  | .returned response => .ok response
  | exit => .error (.call exit)

/-- Send a request. -/
def send (call : RestCall) : Ingest SealedRestResponse :=
  ask (.request call) fun exit ↦ done (exitOutcome exit)

/-- Read the clock. -/
def readClock : Ingest ℚ := ask .clock fun now ↦ done (.ok now)

/-- Sleep for some seconds. -/
def sleepFor (seconds : ℚ) : Ingest SleepOutcome :=
  ask (.sleep seconds) fun outcome ↦ done (.ok outcome)

/-! ### Executions that come to a value -/

section Executions

variable {trace : List (Exchange Query Answer)}

theorem exitOutcome_eq_ok {exit : Exit} {response : SealedRestResponse}
    (hexit : exitOutcome exit = .ok response) : exit = .returned response := by
  cases exit with
  | returned other =>
    cases hexit
    rfl
  | _ => cases hexit

/-- A request that was sent and returned. -/
theorem execution_send_ok {call : RestCall} {response : SealedRestResponse}
    (hsend : Execution (send call) trace (.ok response)) :
    trace = [⟨.request call, Exit.returned response⟩] := by
  obtain ⟨exit, rest, rfl, hrest⟩ := execution_ask.mp hsend
  obtain ⟨rfl, houtcome⟩ := execution_done.mp hrest
  rw [exitOutcome_eq_ok houtcome.symm]

/-- A sequence that came to a value. -/
theorem execution_bind_ok {α β : Type} {dialogue : Ingest α} {next : α → Ingest β} {value : β}
    (hall : Execution (dialogue >>= next) trace (.ok value)) :
    ∃ result first second, trace = first ++ second ∧ Execution dialogue first (.ok result) ∧
      Execution (next result) second (.ok value) := by
  rcases execution_bind.mp hall with ⟨error, -, hsame⟩ | hrest
  · cases hsame
  · exact hrest

/-- A check in a sequence that came to a value. -/
theorem execution_ofExcept_bind_ok {α β : Type} {check : Except IngestError α}
    {next : α → Ingest β} {value : β}
    (hall : Execution (ofExcept check >>= next) trace (.ok value)) :
    ∃ result, check = .ok result ∧ Execution (next result) trace (.ok value) := by
  obtain ⟨result, first, second, rfl, hfirst, hsecond⟩ := execution_bind_ok hall
  obtain ⟨rfl, hresult⟩ := execution_ofExcept.mp hfirst
  exact ⟨result, hresult.symm, hsecond⟩

/-- A request in a sequence that came to a value. -/
theorem execution_send_bind_ok {α : Type} {call : RestCall} {next : SealedRestResponse → Ingest α}
    {value : α} (hall : Execution (send call >>= next) trace (.ok value)) :
    ∃ response rest, trace = ⟨.request call, Exit.returned response⟩ :: rest ∧
      Execution (next response) rest (.ok value) := by
  obtain ⟨response, first, rest, rfl, hsend, hrest⟩ := execution_bind_ok hall
  exact ⟨response, rest, by rw [execution_send_ok hsend]; rfl, hrest⟩

end Executions

/-! ### Writes -/

/-- The query is a write. -/
def IsWrite : Query → Prop
  | .request call => call.writeIntent = true
  | .clock | .sleep _ => False

instance instDecidablePredIsWrite : DecidablePred IsWrite
  | .request call => inferInstanceAs (Decidable (call.writeIntent = true))
  | .clock | .sleep _ => inferInstanceAs (Decidable False)

/-- The exit shows that the request did not come to the provider. -/
def Exit.isBeforeDispatch : Exit → Bool
  | .cancelledBeforeDispatch _ => true
  | _ => false

/-- The exchange is a write that may have come to the provider. -/
def Issues : Exchange Query Answer → Prop
  | ⟨.request call, exit⟩ => call.writeIntent = true ∧ Exit.isBeforeDispatch exit = false
  | ⟨.clock, _⟩ | ⟨.sleep _, _⟩ => False

/-! ### Failures that are settled -/

/-- What a failure of a write is raised as: a settled failure, when its response is classified as
one. -/
def settledOr (classify : ℕ → Bytes → Option ℕ → Option String) (settlementBasis : String)
    (internalRetryCount : Option ℕ) (failure : CallFailure) : IngestError :=
  match failure.statusCode, failure.rawResponseBytes, failure.rawReference, internalRetryCount with
  | some statusCode, some content, some reference, some retries =>
    match classify statusCode content (some retries) with
    | some failureKind =>
      .settled ⟨failureKind, reference, content, [], statusCode, settlementBasis, retries, none,
        none⟩
    | none => .call (.callFailure failure)
  | _, _, _, _ => .call (.callFailure failure)

/-- What is raised for a response that is not of the profile. -/
def validationFailure (message : String) (response : SealedRestResponse) : IngestError :=
  .call (.callFailure ⟨message, "response_validation", some response.rawReference,
    some response.rawBytes, some response.statusCode⟩)

/-! ### The book of the attempts -/

/-- What an adapter keeps about the attempts on its dispatches. -/
structure AttemptBook where
  nextBatchAttemptOrdinals : String × String → ℕ
  attemptedDispatches : (String × String) × ℕ → Bool

/-- The book of a new adapter. -/
def AttemptBook.initial : AttemptBook := ⟨fun _ ↦ 1, fun _ ↦ false⟩

/-- Enter an attempt in the book. -/
def AttemptBook.claim (book : AttemptBook) (key : String × String) (ordinal : ℕ) : AttemptBook :=
  { book with attemptedDispatches := Function.update book.attemptedDispatches (key, ordinal) true }

/-- Close an attempt in the book with its outcome. -/
def AttemptBook.finish {α : Type} (book : AttemptBook) (key : String × String) (ordinal : ℕ) :
    Except IngestError α → AttemptBook
  | .ok _ =>
    { book with
      nextBatchAttemptOrdinals := Function.update book.nextBatchAttemptOrdinals key 0 }
  | .error (.settled _) =>
    { book with
      nextBatchAttemptOrdinals := Function.update book.nextBatchAttemptOrdinals key (ordinal + 1) }
  | .error (.call (.cancelledBeforeDispatch _)) =>
    { book with
      attemptedDispatches := Function.update book.attemptedDispatches (key, ordinal) false }
  | .error _ => book

end Oamb.MemorySystems
