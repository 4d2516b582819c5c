import Oamb.Contracts.AttemptRecords
import Oamb.Contracts.NativeStages
import Oamb.Runtime.LedgerRuns
import Oamb.Runtime.NativeErrors

/-!
# Settling a native attempt

When the dispatch of a native attempt has returned or raised, its stage seals the receipt and the
terminal record, seals the accounting evidence, and settles the budget reservation. The failure
sealer decides between four endings by the error tree: unknown outcome, cancelled before the
dispatch, exhausted infrastructure retries, and settled failure. The stages differ in what they do
after it: the ingestion batch and the model call seal the accounting themselves when the failure
sealer did not.

The answers of the artifact store and of the provider lifecycle are parameters: along one path each
of them is asked at most once. A fixture attempt has no reservation.
-/

set_option autoImplicit false

namespace Oamb.Runtime.NativeSettlement

open Foundation Contracts.AttemptRecords Contracts.NativeStages
open ResourceAmounts LedgerOperations NativeErrors NativeErrors.NativeError

/-! ### Attempts -/

/-- The parts of a live attempt: its intent, its route and the reservation it asked for. -/
structure LiveAttempt where
  intentHash : String
  dispatchRouteId : String
  dispatchRouteHash : String
  reservation : ReservationRequest

namespace LiveAttempt

/-- The identity of the reservation. -/
def reservationId (live : LiveAttempt) : String :=
  live.reservation.reservationId

/-- The whole amount that is reserved. -/
def maximum (live : LiveAttempt) : BudgetAmount :=
  live.reservation.maximum

/-- The amounts that are reserved for the owners. -/
def ownerMaximums (live : LiveAttempt) : List BudgetOwnerAllocation :=
  live.reservation.ownerAllocations

end LiveAttempt

/-- An attempt that was prepared. -/
structure PreparedNativeAttempt where
  attemptId : String
  parentKind : ParentKind
  parentId : String
  stage : NativeStage
  requestFingerprint : String
  otherFields : String
  live : Option LiveAttempt

/-- The identities of the accounting records of an attempt. -/
structure AttemptAccounting where
  usageRecordIds : List String
  resourceRecordId : String
  costRecordId : String

/-- The answers of the artifact store and the provider lifecycle along the path of an attempt. -/
structure Evidence where
  /-- The hash of a sealed record. -/
  recordHash : SourceRecord → String
  /-- The hash of the payload that describes an error, once it is sealed. -/
  errorPayload : Except NativeError String
  /-- The payload that describes the result of a memory dispatch is sealed, where the result names
  no raw evidence itself. -/
  resultPayload : Except NativeError Unit
  /-- The receipt is sealed. -/
  receiptSealed : Except NativeError Unit
  /-- The terminal record is sealed. -/
  terminalSealed : Except NativeError Unit
  /-- The usage, resource and cost records are sealed. -/
  accountingSealed : (rawReference : String) → (usageRecordIds : List String) →
    Except NativeError AttemptAccounting
  /-- The provider lifecycle clears the attempt. -/
  cleared : Except NativeError Unit

/-- The state of a run as far as an attempt changes it. The calls on the ledger and the sealed
records are listed latest first. -/
structure NativeState where
  ledger : BudgetLedger
  ledgerCalls : List LedgerRuns.Call
  sealedRecords : List SourceRecord
  accounting : Dictionary String AttemptAccounting

/-- An operation of a run; what it wrote before an exception stays written. -/
abbrev NativeOperation := EStateM NativeError NativeState

/-- An answer of the environment. -/
def answer {α : Type} : Except NativeError α → NativeOperation α
  | .ok result, state => .ok result state
  | .error failure, state => .error failure state

/-- An exception of the budget module as an error of the run. -/
def budgetFailure : BudgetError → NativeError
  | .valueError message => plain .valueError { typeName := "ValueError", message := message }
  | .budgetExceeded message =>
    plain .valueError { typeName := "BudgetExceededError", message := message }
  | .reservationState message =>
    plain .valueError { typeName := "ReservationStateError", message := message }
  | .keyError key => plain .baseException { typeName := "KeyError", message := key }
  | .decimalSignal _ => plain .baseException { typeName := "DecimalException", message := "" }

/-- A call on the ledger. -/
def callLedger (call : LedgerRuns.Call) : NativeOperation Unit := fun state ↦
  match call.operation.run state.ledger with
  | .ok _ ledger =>
    .ok () { state with ledger := ledger, ledgerCalls := call :: state.ledgerCalls }
  | .error failure ledger =>
    .error (budgetFailure failure)
      { state with ledger := ledger, ledgerCalls := call :: state.ledgerCalls }

/-- The reservation of a live attempt. The records of the claim, the reservation and the intent are
sealed and the dispatch is marked after it; `dispatched` is what that says. -/
def prepareLiveNativeAttempt (dispatched : Except NativeError Unit) (live : LiveAttempt) :
    NativeOperation Unit := do
  callLedger (.reserve live.reservation)
  answer dispatched

/-- Seal a record. -/
def sealRecord (accepted : Except NativeError Unit) (record : SourceRecord) :
    NativeOperation Unit := do
  answer accepted
  modify fun state ↦ { state with sealedRecords := record :: state.sealedRecords }

/-! ### Success -/

/-- The terminal record of an attempt. -/
def terminalRecord (prepared : PreparedNativeAttempt) (receiptHash : String)
    (outcome : AttemptOutcome) (rawResponseRef rawErrorRef : Option String) : AttemptRecord where
  attemptId := prepared.attemptId
  parentKind := prepared.parentKind
  parentId := prepared.parentId
  stage := prepared.stage.text
  requestFingerprint := prepared.requestFingerprint
  reconciliationCapability := .none
  idempotencyKeyHash := none
  outcome := outcome
  rawResponseRef := rawResponseRef
  rawErrorRef := rawErrorRef
  version := match prepared.live with
    | none => .version2
    | some live => .version4
      { intentHash := live.intentHash
        dispatchRouteId := live.dispatchRouteId
        dispatchRouteHash := live.dispatchRouteHash
        receiptRecordHash := receiptHash }
  otherFields := prepared.otherFields

/-- Seal the receipt and the terminal record of an attempt. -/
def sealOutcome (evidence : Evidence) (prepared : PreparedNativeAttempt)
    (receipt : AttemptReceiptRecord) (outcome : AttemptOutcome) : NativeOperation AttemptRecord := do
  sealRecord evidence.receiptSealed (.receipt receipt)
  let terminal := terminalRecord prepared (evidence.recordHash (.receipt receipt)) outcome
    receipt.rawResponseRef receipt.rawErrorRef
  sealRecord evidence.terminalSealed (.attempt terminal)
  return terminal

/-- The receipt of a response. -/
def responseReceipt (prepared : PreparedNativeAttempt) (rawResponseRef : String) :
    AttemptReceiptRecord where
  attemptId := prepared.attemptId
  receiptKind := .response
  rawResponseRef := some rawResponseRef
  rawErrorRef := none
  otherFields := ""

/-- Seal a success. -/
def sealNativeSuccess (evidence : Evidence) (prepared : PreparedNativeAttempt)
    (rawResponseRef : String) : NativeOperation AttemptRecord :=
  sealOutcome evidence prepared (responseReceipt prepared rawResponseRef) .succeeded

/-! ### Accounting -/

/-- Seal the accounting evidence of an attempt. A live attempt commits its whole maximum and
releases the provider. -/
def sealAccounting (evidence : Evidence) (prepared : PreparedNativeAttempt)
    (rawReference : String) (usageRecordIds : List String) : NativeOperation AttemptAccounting := do
  let accounting ← answer (evidence.accountingSealed rawReference usageRecordIds)
  match prepared.live with
  | none => pure ()
  | some live => do
    callLedger (.commit live.reservationId live.maximum (some live.ownerMaximums))
    answer evidence.cleared
  return accounting

/-- Seal the accounting evidence of an attempt, unless that was done before. -/
def sealNativeAttemptAccounting (evidence : Evidence) (prepared : PreparedNativeAttempt)
    (rawReference : String) (usageRecordIds : List String) : NativeOperation Unit := do
  let state ← get
  if prepared.attemptId ∈ state.accounting then return
  let accounting ← sealAccounting evidence prepared rawReference usageRecordIds
  modify fun written ↦
    { written with accounting := written.accounting.insert prepared.attemptId accounting }

/-! ### Failure -/

/-- The endings of a failed attempt. -/
inductive FailureEnding
  | unknownOutcome
  | cancelledBeforeDispatch
  | retryExhausted
  | settledFailure
  deriving DecidableEq

/-- The error itself says that the outcome is unknown. -/
def raisesUnknownOutcome (error : NativeError) : Bool :=
  error.isInstanceOf unknownOutcomeClasses || error.isInstance .cancelledError ||
    decide ("UnknownOutcome".toList <:+: error.info.typeName.toList)

/-- The ending of an error. A cancellation before the dispatch is searched for first. -/
def failureEnding (error : NativeError) : FailureEnding :=
  if containsCancelledBeforeDispatch error then .cancelledBeforeDispatch
  else if raisesUnknownOutcome error then .unknownOutcome
  else if containsInfrastructureRetryExhausted error then .retryExhausted
  else .settledFailure

/-- The kind of the receipt and the outcome of the terminal record. -/
def FailureEnding.recorded : FailureEnding → AttemptReceiptKind × AttemptOutcome
  | unknownOutcome => (.unknownOutcome, .unknownOutcome)
  | cancelledBeforeDispatch => (.error, .cancelled)
  | retryExhausted | settledFailure => (.error, .failed)

/-- The raw error evidence: an unknown outcome has none. -/
def rawErrorReference (evidence : Evidence) (error : NativeError) :
    Except NativeError (Option String) :=
  if failureEnding error = .unknownOutcome then .ok none
  else match error.info.rawReference with
    | some sha256 => .ok (some sha256)
    | none => evidence.errorPayload.map some

/-- The receipt of a failure. -/
def failureReceipt (prepared : PreparedNativeAttempt) (error : NativeError)
    (rawErrorRef : Option String) : AttemptReceiptRecord where
  attemptId := prepared.attemptId
  receiptKind := (failureEnding error).recorded.1
  rawResponseRef := none
  rawErrorRef := rawErrorRef
  otherFields := error.info.failureKind.getD ""

/-- The observation of an attempt that never reached the supplier. -/
def zeroObservation (live : LiveAttempt) : Option (List BudgetOwnerAllocation) :=
  if live.ownerMaximums ≠ [] then some (live.ownerMaximums.map fun allocation ↦
    ⟨allocation.ownerId, BudgetAmount.zero, allocation.ownerId_ne_empty⟩)
  else none

/-- Settle the reservation of a failed live attempt. -/
def settleFailure (evidence : Evidence) (prepared : PreparedNativeAttempt) (live : LiveAttempt)
    (error : NativeError) (rawErrorRef : Option String) : NativeOperation Unit :=
  match failureEnding error with
  | .unknownOutcome => do
    callLedger (.markUnknown live.reservationId)
    if (prepared.stage = .answer ∨ prepared.stage = .judge) ∧
        ¬ error.isInstance .cancelledError then
      answer evidence.cleared
  | .cancelledBeforeDispatch => do
    callLedger (.cancelBeforeDispatch live.reservationId)
    if ¬ error.isInstanceOf [.infrastructureBackoffCancelled, .nativeRunInterrupted] then
      answer evidence.cleared
  | .retryExhausted =>
    callLedger (.commit live.reservationId BudgetAmount.zero (zeroObservation live))
  | .settledFailure =>
    sealNativeAttemptAccounting evidence prepared (rawErrorRef.getD "")
      error.info.usageReferenceIds

/-- Settle the reservation of a failed attempt, if it has one. -/
def settleReservation (evidence : Evidence) (prepared : PreparedNativeAttempt)
    (error : NativeError) (rawErrorRef : Option String) : NativeOperation Unit :=
  match prepared.live with
  | none => pure ()
  | some live => settleFailure evidence prepared live error rawErrorRef

/-- Seal a failure and settle the reservation. -/
def sealNativeFailure (evidence : Evidence) (prepared : PreparedNativeAttempt)
    (error : NativeError) : NativeOperation AttemptRecord := do
  let rawErrorRef ← answer (rawErrorReference evidence error)
  let terminal ← sealOutcome evidence prepared (failureReceipt prepared error rawErrorRef)
    (failureEnding error).recorded.2
  settleReservation evidence prepared error rawErrorRef
  return terminal

/-- Seal a failure; when that raises, raise both errors together. -/
def sealNativeFailurePreserving (evidence : Evidence) (prepared : PreparedNativeAttempt)
    (error : NativeError) : NativeOperation AttemptRecord := fun state ↦
  match (sealNativeFailure evidence prepared error).run state with
  | .ok terminal next => .ok terminal next
  | .error evidenceError next =>
    if error.isInstance .cancelledError then
      .error (mk (.cancellationEvidence error evidenceError)
        { typeName := "NativeCancellationEvidenceError"
          message := "native cancellation and failure-evidence seal both failed" }
        none (some evidenceError) none) next
    else
      .error (mk (.group [error, evidenceError])
        { typeName := "BaseExceptionGroup"
          message := "native dispatch and failure-evidence seal both failed" }
        none (some evidenceError) none) next

/-! ### The stages -/

/-- How a dispatch ended: it returned a result, it returned an output that its validation refused,
or it raised. Only a model call validates its output. -/
inductive DispatchOutcome
  | returned (rawResponseRef : String) (usageRecordIds : List String)
  | refused (rawResponseRef : String) (usageRecordIds : List String) (message : String)
  | raised (error : NativeError)

/-- Seal the accounting of a failure that names raw evidence, when its sealer did not. -/
def accountFailure (evidence : Evidence) (prepared : PreparedNativeAttempt)
    (terminal : AttemptRecord) (error : NativeError) : NativeOperation Unit := do
  let state ← get
  match terminal.rawErrorRef with
  | none => pure ()
  | some rawErrorRef =>
    if prepared.attemptId ∉ state.accounting then
      sealNativeAttemptAccounting evidence prepared rawErrorRef error.info.usageReferenceIds

/-- Settle a success. -/
def settleSuccess (evidence : Evidence) (prepared : PreparedNativeAttempt)
    (rawResponseRef : String) (usageRecordIds : List String) : NativeOperation Unit := do
  let _ ← sealNativeSuccess evidence prepared rawResponseRef
  sealNativeAttemptAccounting evidence prepared rawResponseRef usageRecordIds

/-- The error that a model call records for an output that was refused. -/
def modelCallFailure (rawResponseRef : String) (usageRecordIds : List String) (message : String) :
    NativeError :=
  plain .runtimeError
    { typeName := "ModelCallFailure"
      message := message
      failureKind := some "output_contract_error"
      rawReference := some rawResponseRef
      usageReferenceIds := usageRecordIds }

/-- Settle an error in a stage that accounts for it after the failure sealer. -/
def settleAccounted (evidence : Evidence) (prepared : PreparedNativeAttempt)
    (error : NativeError) : NativeOperation Unit := do
  let terminal ← sealNativeFailurePreserving evidence prepared error
  accountFailure evidence prepared terminal error

/-- The end of an attempt of an ingestion batch. The batch goes on after a settled transient
failure. -/
def finishIngestion (evidence : Evidence) (prepared : PreparedNativeAttempt) :
    DispatchOutcome → NativeOperation Unit
  | .returned rawResponseRef usageRecordIds | .refused rawResponseRef usageRecordIds _ =>
    settleSuccess evidence prepared rawResponseRef usageRecordIds
  | .raised error => do
    settleAccounted evidence prepared error
    if ¬ error.isInstance .settledTransientIngestionFailure ∨ error.info.rawReference = none then
      throw error

/-- The record of a model call. -/
def recordModelCall (evidence : Evidence) (prepared : PreparedNativeAttempt) :
    DispatchOutcome → NativeOperation Unit
  | .returned rawResponseRef usageRecordIds =>
    settleSuccess evidence prepared rawResponseRef usageRecordIds
  | .refused rawResponseRef usageRecordIds message =>
    settleAccounted evidence prepared (modelCallFailure rawResponseRef usageRecordIds message)
  | .raised error => settleAccounted evidence prepared error

/-- The end of another dispatch to the memory system. -/
def finishMemoryDispatch (evidence : Evidence) (prepared : PreparedNativeAttempt) :
    DispatchOutcome → NativeOperation Unit
  | .returned rawResponseRef usageRecordIds | .refused rawResponseRef usageRecordIds _ => do
    answer evidence.resultPayload
    settleSuccess evidence prepared rawResponseRef usageRecordIds
  | .raised error => do
    let _ ← sealNativeFailurePreserving evidence prepared error
    throw error

/-- The end of an attempt in its stage. -/
def finishAttempt (evidence : Evidence) (prepared : PreparedNativeAttempt)
    (outcome : DispatchOutcome) : NativeOperation Unit :=
  match prepared.stage with
  | .memoryIngest => finishIngestion evidence prepared outcome
  | .answer | .judge => recordModelCall evidence prepared outcome
  | _ => finishMemoryDispatch evidence prepared outcome

end Oamb.Runtime.NativeSettlement
