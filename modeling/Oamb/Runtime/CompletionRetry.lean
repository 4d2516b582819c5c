import Mathlib.Algebra.Order.Ring.Unbundled.Rat
import Mathlib.Data.List.Sort
import Oamb.Foundation.SegmentedRuns

/-!
# Layered retries of a model completion

A completion of the answer or the judge role has two layers of retries. An outer attempt sends the
messages and repeats the call when the transport fails; the outer attempts are repeated when the
output has a wrong format, with a correction behind the messages, and when the supplier limits the
rate, with the messages unchanged.

Each physical call leaves an attempt record with its ordinal and the hash of its messages.
`modelOuterAttemptCount` recovers the number of outer attempts from these records alone.
-/

set_option autoImplicit false

namespace Oamb.Runtime.CompletionRetry

open Foundation.SegmentedRuns

/-- The messages of a request, each with its role. -/
abbrev Messages := List (String × String)

/-- The answer of a model to one call, with its other members. -/
structure ModelReceipt (δ : Type) where
  outputText : String
  details : δ
  deriving DecidableEq

/-- The errors that a call can end with. A cancelled call is a cancellation, whether or not it also
is a call with an unknown outcome. -/
inductive CallError
  | callFailure (failureKind : String) (supplierStatusCode : Option ℤ)
  | rateLimitRejection (internalRetryCount : ℕ)
  | unknownOutcome (failureKind : String)
  | cancelled
  | unexpected (message : String)
  deriving DecidableEq

/-- The failure kind and the status code of a model call failure. A rejected call is a failure that
states both. -/
def CallError.modelCallFailure : CallError → Option (String × Option ℤ)
  | .callFailure failureKind supplierStatusCode => some (failureKind, supplierStatusCode)
  | .rateLimitRejection _ => some ("rate_limited", some 429)
  | _ => none

/-- The errors that the check of an output can raise. -/
inductive ValidationError
  | valueError (message : String)
  | unexpected (message : String)
  deriving DecidableEq

/-- What sending one call leads to. A call whose attempt is not prepared is not sent. -/
inductive Dispatched (δ : Type)
  | notPrepared (reason : String)
  | failed (error : CallError)
  | received (receipt : ModelReceipt δ)

/-- The errors that a completion can end with. -/
inductive CompletionError
  | invalidArgument (message : String)
  | notPrepared (reason : String)
  | configurationDrift
  | call (error : CallError)
  | outputFormat (message : String)
  | validation (message : String)
  | interrupted (reason : String)
  | boundExceeded
  deriving DecidableEq

/-- The script that a completion meets: what a call with an ordinal and messages leads to, what the
check of a receipt raises, and whether a pause after some calls is interrupted. -/
structure Script (δ : Type) where
  dispatch : ℕ → Messages → Dispatched δ
  validate : ModelReceipt δ → Option ValidationError
  sleep : ℕ → ℚ → Option String

/-- A call that was sent. -/
structure PhysicalCall where
  ordinal : ℕ
  messages : Messages
  deriving DecidableEq

/-- How a call or an outer attempt ends. -/
inductive AttemptEnd (δ : Type)
  | returned (receipt : ModelReceipt δ)
  | raised (error : CompletionError)
  | malformed (receipt : ModelReceipt δ) (message : String)
  | failed (error : CallError)

/-- The calls of an outer attempt and its end. -/
structure OuterAttempt (δ : Type) where
  calls : List PhysicalCall
  ending : AttemptEnd δ

/-- The calls of a completion, the number of calls of each outer attempt that was begun, and the
result. -/
structure Completion (δ : Type) where
  calls : List PhysicalCall
  outerCalls : List ℕ
  result : Except CompletionError (ModelReceipt δ)

variable {δ : Type}

/-- The number of outer attempts that sent a call. -/
def Completion.outerAttempts (completion : Completion δ) : ℕ :=
  completion.outerCalls.countP (0 < ·)

def isTransportRetryable : CallError → Bool
  | .unknownOutcome failureKind => failureKind = "timeout" ∨ failureKind = "transport_error"
  | error =>
    match error.modelCallFailure with
    | some (_, some status) => status ∈ [408, 409, 429] ∨ 500 ≤ status ∧ status ≤ 599
    | _ => false

def isOuterRateLimit (error : CallError) : Bool :=
  match error.modelCallFailure with
  | some (failureKind, supplierStatusCode) =>
    supplierStatusCode = some 429 ∨ failureKind = "rate_limited"
  | none => false

/-- The messages with the malformed output and a request to correct it behind them. -/
def appendFormatCorrection (messages : Messages) (outputText error : String) : Messages :=
  messages ++ [("assistant", outputText),
    ("user", "The previous response failed output validation: " ++ error ++
      "\nReturn a corrected response that satisfies the required output format.")]

/-- The end of a call that failed, before any retry. -/
def failureEnd : CallError → AttemptEnd δ
  | .rateLimitRejection internalRetryCount =>
    if internalRetryCount ≠ 0 then .raised .configurationDrift
    else .failed (.rateLimitRejection internalRetryCount)
  | .cancelled => .raised (.call .cancelled)
  | error => .failed error

/-- The end of a call that was answered. -/
def receiptEnd (script : Script δ) (receipt : ModelReceipt δ) : AttemptEnd δ :=
  match script.validate receipt with
  | none => .returned receipt
  | some (.valueError message) => .malformed receipt message
  | some (.unexpected message) => .raised (.validation message)

/-- One call. It is recorded when it was sent. -/
def physicalCall (script : Script δ) (messages : Messages) (ordinal : ℕ) : OuterAttempt δ :=
  match script.dispatch ordinal messages with
  | .notPrepared reason => ⟨[], .raised (.notPrepared reason)⟩
  | .failed error => ⟨[⟨ordinal, messages⟩], failureEnd error⟩
  | .received receipt => ⟨[⟨ordinal, messages⟩], receiptEnd script receipt⟩

/-- The calls of an outer attempt behind a number of calls, with the retries that are left and the
index of the next retry. -/
def transportAttempts (script : Script δ) (messages : Messages) : ℕ → ℕ → ℕ → OuterAttempt δ
  | 0, _, ordinal => physicalCall script messages (ordinal + 1)
  | retries + 1, retryIndex, ordinal =>
    let call := physicalCall script messages (ordinal + 1)
    match call.ending with
    | .failed error =>
      if isTransportRetryable error then
        match script.sleep (ordinal + 1) (1 / 2 * 2 ^ retryIndex) with
        | some reason => ⟨call.calls, .raised (.interrupted reason)⟩
        | none =>
          let rest := transportAttempts script messages retries (retryIndex + 1) (ordinal + 1)
          ⟨call.calls ++ rest.calls, rest.ending⟩
      else call
    | _ => call

/-- A completion that ends with an outer attempt. -/
def OuterAttempt.last (outer : OuterAttempt δ)
    (result : Except CompletionError (ModelReceipt δ)) : Completion δ :=
  ⟨outer.calls, [outer.calls.length], result⟩

/-- A completion that goes on behind an outer attempt. -/
def OuterAttempt.before (outer : OuterAttempt δ) (rest : Completion δ) : Completion δ :=
  ⟨outer.calls ++ rest.calls, outer.calls.length :: rest.outerCalls, rest.result⟩

/-- The outer attempts behind a number of calls, with the outer attempts that are left and the index
of the next one. -/
def outerAttempts (script : Script δ) (maxTransportRetries : ℕ) :
    ℕ → ℕ → ℕ → Messages → Completion δ
  | 0, _, _, _ => ⟨[], [], .error .boundExceeded⟩
  | attempts + 1, outerIndex, ordinal, messages =>
    let outer := transportAttempts script messages maxTransportRetries 0 ordinal
    let reached := ordinal + outer.calls.length
    match outer.ending with
    | .returned receipt => outer.last (.ok receipt)
    | .raised error => outer.last (.error error)
    | .malformed receipt message =>
      if attempts = 0 then outer.last (.error (.outputFormat message))
      else outer.before (outerAttempts script maxTransportRetries attempts (outerIndex + 1) reached
        (appendFormatCorrection messages receipt.outputText message))
    | .failed error =>
      if isOuterRateLimit error ∧ attempts ≠ 0 then
        match script.sleep reached (5 * 2 ^ outerIndex) with
        | some reason => outer.last (.error (.interrupted reason))
        | none => outer.before (outerAttempts script maxTransportRetries attempts (outerIndex + 1)
            reached messages)
      else outer.last (.error (.call error))

/-- Execute a completion with transport and format retries. The limit of the transport retries is a
natural number, so that its own check passes. -/
def executeModelCompletionRetry (script : Script δ) (messages : Messages)
    (maxOuterAttempts maxTransportRetries : ℕ) : Completion δ :=
  if maxOuterAttempts < 1 then
    ⟨[], [], .error (.invalidArgument "max outer attempts must be a positive integer")⟩
  else outerAttempts script maxTransportRetries maxOuterAttempts 0 0 messages

/-! ### The attempt records -/

/-- The members of an attempt record that the outer attempts are recovered from. -/
structure ModelAttempt where
  ordinal : ℕ
  requestMessagesSha256 : Option String
  deriving DecidableEq

/-- The records that the model stage seals, with a hash of the messages. -/
def sealedAttempts (messagesSha256 : Messages → String) (completion : Completion δ) :
    List ModelAttempt :=
  completion.calls.map fun call ↦ ⟨call.ordinal, some (messagesSha256 call.messages)⟩

/-- Add an attempt to the groups of attempts with equal hashes. -/
def groupAttempt (groups : Segmentation String) (attempt : ModelAttempt) :
    Except String (Segmentation String) :=
  match attempt.requestMessagesSha256 with
  | none => .error "model attempt lacks its request messages hash"
  | some requestHash =>
    if requestHash = "" then .error "model attempt lacks its request messages hash"
    else
      match groups.push requestHash with
      | none => .error "model correction request hash reappeared"
      | some next => .ok next

/-- Derive the outer attempts of a model stage while the transport retries are collapsed. -/
def modelOuterAttemptCount (attempts : List ModelAttempt) (maxTransportRetries : ℕ) :
    Except String ℕ :=
  if attempts = [] then .ok 0
  else do
    let ordered := attempts.insertionSort fun first second ↦ first.ordinal ≤ second.ordinal
    let groups ← ordered.foldlM groupAttempt Segmentation.empty
    .ok (groups.lengths.map (portions (maxTransportRetries + 1))).sum

end Oamb.Runtime.CompletionRetry
