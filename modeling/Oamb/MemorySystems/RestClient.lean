import Mathlib.Algebra.Order.Ring.Rat
import Oamb.Foundation.FileSystem

/-!
# The sealed REST client

A memory system is called through a client that admits a request, hands it to its transport once,
and seals the response. `startRequest` is a request up to the call of the transport, and
`finishRequest` what it makes of the answer. The client counts the requests that it admitted and did
not release, and a close waits until there are none. `Step` is one event of a client with any number
of requests and of closes: a step is the code between two awaits.
-/

set_option autoImplicit false

namespace Oamb.MemorySystems.RestClient

open Foundation

/-! ### Requests and answers -/

/-- A request: what the client reads of it before and after the transport. A timeout is given or
not, and it is finite or not. -/
structure RestRequest where
  requestHeaderNames : List String
  writeIntent : Bool
  requestEvidence : Bool
  responseSanitizer : Option (Bytes → Except String Bytes)
  totalTimeoutSeconds : Option (Option ℚ)

/-- The errors of a request in the transport. Those of timeouts are transport errors too. -/
inductive RequestError
  | timeoutException
  | transportError
  | decodingError
  | tooManyRedirects
  deriving DecidableEq

/-- The error is one of the transport. -/
def RequestError.isTransport : RequestError → Bool
  | timeoutException | transportError => true
  | decodingError | tooManyRedirects => false

/-- What the transport comes to, with what the store answers when a response is sealed: the
reference of the sealed bytes, or an error. -/
inductive Answer
  | response (statusCode : ℕ) (content : Bytes) (receipt : Except String String)
  | requestError (error : RequestError)
  | timedOut
  | cancelled

/-- A response that is sealed. -/
structure SealedRestResponse where
  statusCode : ℕ
  rawBytes : Bytes
  rawReference : String
  requestReference : Option String

/-- A call with a known outcome that is no success. -/
structure CallFailure where
  message : String
  failureKind : String
  rawReference : Option String
  rawResponseBytes : Option Bytes
  statusCode : Option ℕ

/-- An error that no class of outcomes has. -/
inductive Unclassified
  | valueError (message : String)
  | runtimeError (message : String)
  | sealError (message : String)
  | requestError (error : RequestError)

/-- How a request ends. -/
inductive Exit
  | returned (response : SealedRestResponse)
  | callFailure (failure : CallFailure)
  | unknownOutcome (message failureKind : String)
  | cancelledUnknownOutcome (message : String)
  | cancelledBeforeDispatch (message : String)
  | readCancelled (message : String)
  | raised (error : Unclassified)

/-! ### Admission -/

/-- What a client keeps about its requests. -/
structure Client where
  acceptingOperations : Bool
  closed : Bool
  activeOperationCount : ℤ
  activeOperationsDrained : Bool

/-- A new client. -/
def Client.initial : Client := ⟨true, false, 0, true⟩

/-- Count a request that is admitted. -/
def Client.admitted (client : Client) : Client :=
  { client with
    activeOperationCount := client.activeOperationCount + 1
    activeOperationsDrained :=
      if client.activeOperationCount + 1 = 1 then false else client.activeOperationsDrained }

/-- What is raised when a request comes before its dispatch and is not accepted. -/
def raiseBeforeDispatch (writeIntent : Bool) : Exit :=
  if writeIntent then .cancelledBeforeDispatch "memory-system write was cancelled before dispatch"
  else .readCancelled "memory-system read was cancelled before dispatch"

/-- Admit a request. -/
def admitOperation (client : Client) (writeIntent : Bool) : Except Exit Client :=
  if client.closed then .error (.raised (.runtimeError "memory-system REST client is closed"))
  else if client.acceptingOperations = false then .error (raiseBeforeDispatch writeIntent)
  else .ok client.admitted

/-- Release a request. -/
def releaseOperation (client : Client) : Client :=
  { client with
    activeOperationCount := client.activeOperationCount - 1
    activeOperationsDrained :=
      if client.activeOperationCount - 1 = 0 then true else client.activeOperationsDrained }

/-- Accept no more requests. -/
def stopAccepting (client : Client) : Client := { client with acceptingOperations := false }

/-! ### A request -/

/-- A request that has not come to the transport, or that is there, with the reference of its
proof. -/
inductive Start
  | rejected (exit : Exit)
  | failed (exit : Exit)
  | dispatched (requestReference : Option String)

/-- A request up to the call of the transport: it is rejected, it is admitted and fails when its
proof is sealed, or it is dispatched. -/
def startRequest (baseHeaderNames : List String) (client : Client) (request : RestRequest)
    (receipt : Except String String) : Start :=
  if ∃ timeout ∈ request.totalTimeoutSeconds, ∀ seconds ∈ timeout, seconds ≤ 0 then
    .rejected (.raised (.valueError "request total timeout must be finite positive"))
  else if ∃ name ∈ request.requestHeaderNames, name.toLower ∈ baseHeaderNames then
    .rejected (.raised (.valueError "request headers cannot override client authority"))
  else
    match admitOperation client request.writeIntent with
    | .error exit => .rejected exit
    | .ok _ =>
      if request.requestEvidence then
        match receipt with
        | .error message => .failed (.raised (.sealError message))
        | .ok reference => .dispatched (some reference)
      else .dispatched none

/-- The bytes of a response that are sealed. -/
def sanitize (request : RestRequest) (content : Bytes) : Except String Bytes :=
  match request.responseSanitizer with
  | none => .ok content
  | some sanitizer => sanitizer content

/-- What a request makes of a response that could not be sealed. -/
def sealingFailure (request : RestRequest) : Exit :=
  if request.writeIntent then
    .unknownOutcome "memory-system write response could not be sealed" "receipt_seal_error"
  else
    .callFailure ⟨"memory-system read response could not be sealed", "receipt_seal_error", none, none,
      none⟩

/-- What a request makes of the answer of the transport. -/
def finishRequest (request : RestRequest) (requestReference : Option String) : Answer → Exit
  | .cancelled =>
    if request.writeIntent then
      .cancelledUnknownOutcome "memory-system write was cancelled with unknown provider acceptance"
    else .readCancelled "memory-system read was cancelled"
  | .timedOut | .requestError .timeoutException =>
    if request.writeIntent then
      .unknownOutcome "memory-system write timed out with unknown provider acceptance" "timeout"
    else .callFailure ⟨"memory-system read timed out", "timeout", none, none, none⟩
  | .requestError .transportError =>
    if request.writeIntent then
      .unknownOutcome "memory-system write transport failed with unknown provider acceptance"
        "transport_error"
    else .callFailure ⟨"memory-system read transport failed", "transport_error", none, none, none⟩
  -- No clause catches the other errors of a request.
  | .requestError error => .raised (.requestError error)
  | .response statusCode content receipt =>
    match sanitize request content with
    | .error _ => sealingFailure request
    | .ok bytes =>
      match receipt with
      | .error _ => sealingFailure request
      | .ok reference =>
        if 200 ≤ statusCode ∧ statusCode < 300 then
          .returned ⟨statusCode, bytes, reference, requestReference⟩
        else
          .callFailure ⟨s!"memory-system returned HTTP {statusCode}", "http_status", some reference,
            some bytes, some statusCode⟩

/-! ### A client with requests and closes -/

/-- The phase of a request. -/
inductive RequestPhase
  | idle
  | refused (exit : Exit)
  | dispatched (requestReference : Option String)
  | ended (answer : Answer) (exit : Exit)

/-- The phase of a close. -/
inductive ClosePhase
  | idle
  | draining (woken : Bool)
  | locking
  | closing
  | finished
  | raised
  deriving DecidableEq

/-- The state of a client with its requests and closes. How often each request was admitted and
released is kept beside it. -/
structure State (ρ κ : Type) where
  client : Client
  requests : ρ → RequestPhase
  closers : κ → ClosePhase
  closeLock : Option κ
  admissions : ρ → ℕ
  releases : ρ → ℕ

/-- The state of a new client. -/
def State.initial {ρ κ : Type} : State ρ κ :=
  ⟨.initial, fun _ ↦ .idle, fun _ ↦ .idle, none, fun _ ↦ 0, fun _ ↦ 0⟩

/-- What happens to a client. -/
inductive Event (ρ κ : Type)
  | start (index : ρ) (receipt : Except String String)
  | answer (index : ρ) (answer : Answer)
  | stopAccepting
  | close (closer : κ)
  | resume (closer : κ)
  | acquire (closer : κ)
  | closed (closer : κ)
  | interruptClose (closer : κ)

/-- The event stops the acceptance of requests. -/
def Event.stops {ρ κ : Type} : Event ρ κ → Bool
  | .stopAccepting | .close _ => true
  | _ => false

/-- The closes that wait are woken when no request is left. -/
def wake {κ : Type} (client : Client) (closers : κ → ClosePhase) (closer : κ) : ClosePhase :=
  match closers closer with
  | .draining woken => .draining (woken || decide (client.activeOperationCount = 0))
  | phase => phase

/-- A close that waits for something. -/
def ClosePhase.waits : ClosePhase → Bool
  | draining _ | locking | closing => true
  | _ => false

section Steps

variable {ρ κ : Type} [DecidableEq ρ] [DecidableEq κ]

/-- One event of a client. -/
inductive Step (baseHeaderNames : List String) (requestOf : ρ → RestRequest) :
    State ρ κ → Event ρ κ → State ρ κ → Prop
  | reject {state : State ρ κ} {index : ρ} {receipt : Except String String} {exit : Exit}
    (hidle : state.requests index = .idle)
    (hstart : startRequest baseHeaderNames state.client (requestOf index) receipt = .rejected exit) :
    Step baseHeaderNames requestOf state (.start index receipt)
      { state with requests := Function.update state.requests index (.refused exit) }
  | fail {state : State ρ κ} {index : ρ} {receipt : Except String String} {exit : Exit}
    (hidle : state.requests index = .idle)
    (hstart : startRequest baseHeaderNames state.client (requestOf index) receipt = .failed exit) :
    Step baseHeaderNames requestOf state (.start index receipt)
      { state with
        client := releaseOperation state.client.admitted
        requests := Function.update state.requests index (.refused exit)
        closers := wake (releaseOperation state.client.admitted) state.closers
        admissions := Function.update state.admissions index (state.admissions index + 1)
        releases := Function.update state.releases index (state.releases index + 1) }
  | dispatch {state : State ρ κ} {index : ρ} {receipt : Except String String}
    {reference : Option String} (hidle : state.requests index = .idle)
    (hstart : startRequest baseHeaderNames state.client (requestOf index) receipt =
      .dispatched reference) :
    Step baseHeaderNames requestOf state (.start index receipt)
      { state with
        client := state.client.admitted
        requests := Function.update state.requests index (.dispatched reference)
        admissions := Function.update state.admissions index (state.admissions index + 1) }
  | answer {state : State ρ κ} {index : ρ} {reference : Option String} {answer : Answer}
    (hdispatched : state.requests index = .dispatched reference) :
    Step baseHeaderNames requestOf state (.answer index answer)
      { state with
        client := releaseOperation state.client
        requests := Function.update state.requests index
          (.ended answer (finishRequest (requestOf index) reference answer))
        closers := wake (releaseOperation state.client) state.closers
        releases := Function.update state.releases index (state.releases index + 1) }
  | stopAccepting {state : State ρ κ} :
    Step baseHeaderNames requestOf state .stopAccepting
      { state with client := stopAccepting state.client }
  | close {state : State ρ κ} {closer : κ} (hidle : state.closers closer = .idle) :
    Step baseHeaderNames requestOf state (.close closer)
      { state with
        client := stopAccepting state.client
        closers := Function.update state.closers closer
          (if state.client.activeOperationsDrained then .locking else .draining false) }
  | resume {state : State ρ κ} {closer : κ} (hwoken : state.closers closer = .draining true) :
    Step baseHeaderNames requestOf state (.resume closer)
      { state with closers := Function.update state.closers closer .locking }
  /-- Another close finished. -/
  | acquireClosed {state : State ρ κ} {closer : κ} (hlocking : state.closers closer = .locking)
    (hfree : state.closeLock = none) (hclosed : state.client.closed = true) :
    Step baseHeaderNames requestOf state (.acquire closer)
      { state with closers := Function.update state.closers closer .finished }
  | acquire {state : State ρ κ} {closer : κ} (hlocking : state.closers closer = .locking)
    (hfree : state.closeLock = none) (hopen : state.client.closed = false) :
    Step baseHeaderNames requestOf state (.acquire closer)
      { state with
        closers := Function.update state.closers closer .closing
        closeLock := some closer }
  | closed {state : State ρ κ} {closer : κ} (hclosing : state.closers closer = .closing) :
    Step baseHeaderNames requestOf state (.closed closer)
      { state with
        client := { state.client with closed := true }
        closers := Function.update state.closers closer .finished
        closeLock := none }
  /-- The close is cancelled, or the transport cannot be closed. -/
  | interruptClose {state : State ρ κ} {closer : κ}
    (hwaits : (state.closers closer).waits = true) :
    Step baseHeaderNames requestOf state (.interruptClose closer)
      { state with
        closers := Function.update state.closers closer .raised
        closeLock := if state.closeLock = some closer then none else state.closeLock }

end Steps

end Oamb.MemorySystems.RestClient
