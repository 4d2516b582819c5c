import Oamb.Contracts.AttemptRecords
import Oamb.Foundation.CreateOnlyLog
import Oamb.Foundation.StatefulExecution
import Oamb.Runtime.LedgerOperations

/-!
# The attempt coordinator

A coordinator prepares an attempt (budget reservation, claim, reservation and intent), marks its
dispatch, records its receipt and seals its terminal record. Every step writes at once, so an
exception in the middle of a call leaves what was written before it. The store only creates: a
record that is already there is accepted when it is the same and refused otherwise.

The hashes of records and payloads and the lifecycle of the provider are parameters of the model.
-/

set_option autoImplicit false

namespace Oamb.Runtime.AttemptCoordinator

open Foundation Foundation.CreateOnlyLog Foundation.StatefulExecution
open Contracts.AttemptRecords ResourceAmounts ResourceArithmetic LedgerOperations

/-- The exceptions of a coordinator and of the parts it uses. -/
inductive AttemptError
  | ordering (message : String)
  | budget (failure : BudgetError)
  | artifactCollision (path : RecordPath)
  | rawCollision (sha256 : String)
  | lifecycle (message : String)
  | keyError (key : ParentKind)
  | assertion
  deriving DecidableEq

/-- The boundary to the service that owns the dispatches of the provider. -/
structure ProviderLifecyclePort (Λ : Type) where
  markAttemptDispatched : (attemptId intentRecordHash : String) → EStateM String Λ Unit
  clearAttemptAfterReceipt : (attemptId expectedIntentRecordHash : String) → EStateM String Λ Unit

/-- What a coordinator is constructed with, besides its store and its ledger. -/
structure Environment (Λ : Type) where
  recordHash : SourceRecord → String
  payloadHash : List UInt8 → String
  providerLifecycle : Option (ProviderLifecyclePort Λ)

/-- A prepared attempt. -/
structure PreparedAttempt where
  intent : AttemptIntentRecord
  reservationId : String
  intentRecordHash : String
  dispatched : Bool := false
  receiptSealed : Bool := false
  ownerMaximums : List BudgetOwnerAllocation := []
  receiptRecordHash : Option String := none
  deriving DecidableEq

/-- A durable effect: a reservation of the ledger, or a sealed record. -/
inductive Event
  | reserved (reservationId : String)
  | sealed (record : SourceRecord)
  deriving DecidableEq

/-- The path that an event fills. -/
def Event.path? : Event → Option RecordPath
  | reserved _ => none
  | sealed record => some record.path

/-- A coordinator with its store, its ledger and the state of the provider lifecycle. The trace
lists the effects, latest first; the source records of the store are those it seals. -/
structure Coordinator (Λ : Type) where
  trace : List Event
  rawPayloads : Dictionary String (List UInt8)
  budget : BudgetLedger
  lifecycle : Λ
  prepared : Dictionary String PreparedAttempt

/-- A coordinator over an empty store. -/
def Coordinator.create {Λ : Type} (budget : BudgetLedger) (lifecycle : Λ) : Coordinator Λ where
  trace := []
  rawPayloads := ∅
  budget := budget
  lifecycle := lifecycle
  prepared := ∅

/-! ### Checks -/

/-- Raise an ordering error when a condition holds. -/
def refuse (condition : Prop) [Decidable condition] (message : String) : Except AttemptError Unit :=
  if condition then .error (.ordering message) else .ok ()

/-- A computation of the budget module. -/
def ofBudget {α : Type} : Except BudgetError α → Except AttemptError α
  | .ok result => .ok result
  | .error failure => .error (.budget failure)

/-- The scope that a version 1 intent requires. -/
def legacyScopeKind : ParentKind → Except AttemptError BudgetScopeKind
  | .ingestionPlan | .case => .ok .run
  | .modelReadiness => .ok .modelReadiness
  | .memoryConformance => .error (.keyError .memoryConformance)

/-- The check of a scope that must be the parent of the attempt. -/
def checkScope (reservation : BudgetReservationRecord) (intent : AttemptIntentRecord)
    (expectedScopeKind : BudgetScopeKind) : Except AttemptError Unit :=
  refuse (reservation.scopeKind ≠ expectedScopeKind ∨ reservation.scopeId ≠ intent.parentId)
    "reservation scope differs from the attempt parent"

/-- The checks that depend on the versions of a reservation and its intent. -/
def checkVersions (reservation : BudgetReservationRecord) (intent : AttemptIntentRecord) :
    Except AttemptError Unit :=
  match reservation.version, intent.version with
  | .version1 reservationRole, .version1 intentRole => do
    let expectedScopeKind ← legacyScopeKind intent.parentKind
    checkScope reservation intent expectedScopeKind
    refuse (intentRole ≠ reservationRole) "intent and reservation roles differ"
  | .version2 reservationRole reservationOwner, .version2 intentRole intentOwner => do
    checkScope reservation intent .memoryConformance
    refuse (intentRole ≠ reservationRole) "intent and reservation roles differ"
    refuse (intentOwner ≠ reservationOwner)
      "intent and reservation discriminated budget owners differ"
  | .version3 reservationRoute _, .version3 _ scopeKind scopeId intentRoute =>
    refuse (intentRoute ≠ reservationRoute ∨ scopeKind ≠ reservation.scopeKind ∨
      scopeId ≠ reservation.scopeId) "version 3 intent differs from its reservation route"
  | _, _ => .error (.ordering "reservation and intent contract versions differ")

/-- Whether a reservation and an intent are of one version. -/
def versionsAgree : ReservationVersion → IntentVersion → Bool
  | .version1 _, .version1 _ | .version2 _ _, .version2 _ _ | .version3 _ _, .version3 _ _ _ _ =>
    true
  | _, _ => false

/-- The resources of a reservation as a runtime amount lists them. -/
def resourceItems (ceilings : List ResourceBudgetCeiling) : List ResourceAmount :=
  ceilings.map fun item ↦ (item.dimensionId, .finite item.maximum, item.unit)

/-- The checks of the records that prepare an attempt. -/
def validatePrepare (claim : OccurrenceClaimRecord) (reservation : BudgetReservationRecord)
    (intent : AttemptIntentRecord) (maximum : BudgetAmount) : Except AttemptError Unit := do
  refuse (versionsAgree reservation.version intent.version = false)
    "reservation and intent contract versions differ"
  refuse (intent.attemptId ≠ reservation.attemptId) "intent and reservation attempt IDs differ"
  refuse (intent.claimId ≠ claim.claimId ∨ intent.reservationId ≠ reservation.reservationId)
    "intent references a different claim or reservation"
  refuse (intent.parentId ≠ claim.occurrenceId) "intent parent differs from claimed occurrence"
  refuse (intent.stage ≠ claim.stage) "intent stage differs from claimed occurrence"
  refuse (intent.reconciliationCapability ≠ claim.reconciliationCapability)
    "intent reconciliation differs from claimed occurrence"
  refuse (intent.requestFingerprint ≠ claim.requestFingerprint)
    "intent and claim request fingerprints differ"
  checkVersions reservation intent
  refuse (maximum.resources ≠ resourceItems reservation.reservedResourceCeilings)
    "reservation resource ceilings differ from runtime maximum"
  refuse (maximum.attempts ≠ reservation.reservedAttempts)
    "reservation attempt count differs from runtime maximum"
  refuse (maximum.inputTokens ≠ reservation.reservedInputTokens)
    "reservation input tokens differ from runtime maximum"
  refuse (maximum.outputTokens ≠ reservation.reservedOutputTokens)
    "reservation output tokens differ from runtime maximum"
  refuse (maximum.wallSeconds ≠ .finite reservation.reservedDispatchWallSeconds)
    "reservation wall time differs from runtime maximum"
  refuse (maximum.cost ≠ .finite (reservation.reservedCost.getD 0))
    "reservation cost differs from runtime maximum"
  refuse (((maximum.providerUnits.map Prod.snd).sum : ℚ) ≠ reservation.reservedProviderUnits)
    "reservation provider units differ from runtime maximum"

/-! ### Owner allocations -/

/-- The provider units that an owner takes from the dimensions that are left, with the rest. -/
def takeProviderUnits (dimensions : Dictionary String ProviderAmount)
    (allocation : OwnerAllocationRecord) :
    Except AttemptError (List ProviderAmount × Dictionary String ProviderAmount) := do
  if allocation.allocatedProviderUnits = 0 then return ([], dimensions)
  let units := allocation.allocatedProviderUnits.num.tdiv allocation.allocatedProviderUnits.den
  refuse (allocation.allocatedProviderUnits ≠ units)
    "provider owner allocation must use integral units"
  match dimensions.lookup allocation.ownerId with
  | none => throw (.ordering "owner allocations require matching provider-unit dimensions")
  | some dimension => return ([(dimension.1, units)], dimensions.erase allocation.ownerId)

/-- The loop over the owner allocations, with the provider dimensions that it leaves. -/
def ownerAllocationLoop (dimensions : Dictionary String ProviderAmount) :
    List OwnerAllocationRecord →
      Except AttemptError (List BudgetOwnerAllocation × Dictionary String ProviderAmount)
  | [] => .ok ([], dimensions)
  | allocation :: allocations => do
    let (providerUnits, remaining) ← takeProviderUnits dimensions allocation
    let amount ← ofBudget (BudgetAmount.ofFields
      { attempts := allocation.allocatedAttempts
        inputTokens := allocation.allocatedInputTokens
        outputTokens := allocation.allocatedOutputTokens
        wallSeconds := .finite allocation.allocatedDispatchWallSeconds
        cost := .finite (allocation.allocatedCost.getD 0)
        resources := resourceItems allocation.allocatedResourceCeilings
        providerUnits := providerUnits })
    let share ← ofBudget (BudgetOwnerAllocation.create allocation.ownerId amount)
    let (shares, unused) ← ownerAllocationLoop remaining allocations
    return (share :: shares, unused)

/-- The runtime shares of the owners of a version 3 reservation. -/
def runtimeOwnerAllocations (ownerAllocations : List OwnerAllocationRecord)
    (maximum : BudgetAmount) : Except AttemptError (List BudgetOwnerAllocation) := do
  let dimensions := Dictionary.ofList (maximum.providerUnits.map fun item ↦ (item.1.provider, item))
  let (shares, unused) ← ownerAllocationLoop dimensions ownerAllocations
  refuse (unused.keys ≠ []) "provider-unit dimensions exceed the owner allocation inventory"
  return shares

/-- The sum of the shares of the owners. -/
def sumOwnerAmounts (allocations : List BudgetOwnerAllocation) : Except BudgetError BudgetAmount :=
  allocations.foldlM (fun total allocation ↦ add total allocation.maximum) BudgetAmount.zero

/-! ### Preparing an attempt -/

/-- The memory conformance versions, which a coordinator does not prepare. -/
def isConformance : ReservationVersion → IntentVersion → Bool
  | .version2 _ _, _ | _, .version2 _ _ => true
  | _, _ => false

/-- The checked budget request of an attempt, with the shares of its owners. -/
def prepareRequest (claim : OccurrenceClaimRecord) (reservation : BudgetReservationRecord)
    (intent : AttemptIntentRecord) (maximum : BudgetAmount) :
    Except AttemptError (ReservationRequest × List BudgetOwnerAllocation) := do
  refuse (isConformance reservation.version intent.version)
    "memory conformance requires explicit owner allocations from the closed composition root"
  validatePrepare claim reservation intent maximum
  match reservation.version with
  | .version3 _ ownerAllocations =>
    let ownerMaximums ← runtimeOwnerAllocations ownerAllocations maximum
    let request ← ofBudget (ReservationRequest.create
      { reservationId := reservation.reservationId
        maximum := maximum
        ownerAllocations := ownerMaximums })
    return (request, ownerMaximums)
  | .version1 roleBindingId =>
    let request ← ofBudget (ReservationRequest.create
      { reservationId := reservation.reservationId
        maximum := maximum
        roleBindingId := some roleBindingId })
    return (request, [])
  | .version2 _ _ => throw .assertion

/-! ### Operations -/

variable {Λ : Type}

/-- An operation of a coordinator; what it wrote before an exception stays written. -/
abbrev AttemptOperation (Λ : Type) := EStateM AttemptError (Coordinator Λ)

/-- A computation that leaves the coordinator alone. -/
def check {α : Type} : Except AttemptError α → AttemptOperation Λ α
  | .ok result, coordinator => .ok result coordinator
  | .error failure, coordinator => .error failure coordinator

/-- An operation on the ledger. -/
def onBudget (operation : LedgerOperation Unit) : AttemptOperation Λ Unit := fun coordinator ↦
  match operation.run coordinator.budget with
  | .ok _ budget => .ok () { coordinator with budget := budget }
  | .error failure budget => .error (.budget failure) { coordinator with budget := budget }

/-- An operation on the provider lifecycle, when there is one. -/
def onLifecycle (environment : Environment Λ)
    (operation : ProviderLifecyclePort Λ → EStateM String Λ Unit) : AttemptOperation Λ Unit :=
  fun coordinator ↦
    match environment.providerLifecycle with
    | none => .ok () coordinator
    | some port =>
      match (operation port).run coordinator.lifecycle with
      | .ok _ lifecycle => .ok () { coordinator with lifecycle := lifecycle }
      | .error failure lifecycle =>
        .error (.lifecycle failure) { coordinator with lifecycle := lifecycle }

/-- Note a successful reservation in the trace. -/
def noteReserved (reservationId : String) : AttemptOperation Λ Unit :=
  modify fun coordinator ↦
    { coordinator with trace := .reserved reservationId :: coordinator.trace }

/-- Seal a record under its path. -/
def sealRecord (record : SourceRecord) : AttemptOperation Λ Unit := fun coordinator ↦
  match publish Event.path? record.path (.sealed record) coordinator.trace with
  | some trace => .ok () { coordinator with trace := trace }
  | none => .error (.artifactCollision record.path) coordinator

/-- Seal a payload under its hash. -/
def sealRaw (sha256 : String) (payload : List UInt8) : AttemptOperation Λ Unit :=
  fun coordinator ↦
    match coordinator.rawPayloads.lookup sha256 with
    | none => .ok () { coordinator with
        rawPayloads := coordinator.rawPayloads.insert sha256 payload }
    | some stored =>
      if stored = payload then .ok () coordinator else .error (.rawCollision sha256) coordinator

/-- Remember the state of an attempt. -/
def setPrepared (attemptId : String) (attempt : PreparedAttempt) : AttemptOperation Λ Unit :=
  modify fun coordinator ↦
    { coordinator with prepared := coordinator.prepared.insert attemptId attempt }

/-- The state of an attempt that was prepared. -/
def requirePrepared (coordinator : Coordinator Λ) (attemptId : String) :
    Except AttemptError PreparedAttempt :=
  match coordinator.prepared.lookup attemptId with
  | some attempt => .ok attempt
  | none => .error (.ordering "attempt was not durably prepared")

/-- Reserve the budget of an attempt and seal its records before it can be dispatched. -/
def prepare (environment : Environment Λ) (claim : OccurrenceClaimRecord)
    (reservation : BudgetReservationRecord) (intent : AttemptIntentRecord)
    (maximum : BudgetAmount) : AttemptOperation Λ Unit := do
  let (request, ownerMaximums) ← check (prepareRequest claim reservation intent maximum)
  onBudget (reserve request)
  noteReserved reservation.reservationId
  sealRecord (.claim claim)
  sealRecord (.reservation reservation)
  sealRecord (.intent intent)
  setPrepared intent.attemptId
    { intent := intent
      reservationId := reservation.reservationId
      intentRecordHash := environment.recordHash (.intent intent)
      ownerMaximums := ownerMaximums }

/-- The checks of a dispatch. -/
def checkDispatched (coordinator : Coordinator Λ) (attemptId : String) :
    Except AttemptError PreparedAttempt := do
  let prepared ← requirePrepared coordinator attemptId
  refuse (prepared.dispatched ∨ prepared.receiptSealed) "attempt is already dispatched or received"
  return prepared

/-- Note the dispatch of an attempt. -/
def markDispatched (environment : Environment Λ) (attemptId : String) :
    AttemptOperation Λ Unit := do
  let coordinator ← get
  let prepared ← check (checkDispatched coordinator attemptId)
  onLifecycle environment fun port ↦
    port.markAttemptDispatched attemptId prepared.intentRecordHash
  setPrepared attemptId
    { intent := prepared.intent
      reservationId := prepared.reservationId
      intentRecordHash := prepared.intentRecordHash
      dispatched := true
      ownerMaximums := prepared.ownerMaximums }

/-- The hash that a receipt names: the one of the response when it is there, else of the error. -/
def expectedRawHash (receipt : AttemptReceiptRecord) : Option String :=
  (receipt.rawResponseRef.filter (· ≠ "")).or receipt.rawErrorRef

/-- The checks of a receipt before anything is written. -/
def checkReceipt (environment : Environment Λ) (coordinator : Coordinator Λ)
    (receipt : AttemptReceiptRecord) (rawPayload : List UInt8) :
    Except AttemptError PreparedAttempt := do
  let prepared ← requirePrepared coordinator receipt.attemptId
  refuse prepared.receiptSealed "attempt receipt is already sealed"
  refuse (environment.providerLifecycle.isSome ∧ ¬ prepared.dispatched)
    "provider attempt receipt precedes dispatch guard"
  refuse (expectedRawHash receipt ≠ some (environment.payloadHash rawPayload))
    "attempt receipt raw hash does not match payload"
  return prepared

/-- The amounts that a receipt commits: an attempt with owner shares and without explicit owner
observations commits the shares. -/
def committedAmounts (prepared : PreparedAttempt) (observed : BudgetAmount)
    (ownerObserved : Option (List BudgetOwnerAllocation)) :
    Except BudgetError (BudgetAmount × Option (List BudgetOwnerAllocation)) :=
  if prepared.ownerMaximums ≠ [] ∧ ownerObserved = none then do
    let total ← sumOwnerAmounts prepared.ownerMaximums
    return (total, some prepared.ownerMaximums)
  else return (observed, ownerObserved)

/-- Commit what a receipt observed. -/
def commitReceipt (prepared : PreparedAttempt) (observed : BudgetAmount)
    (ownerObserved : Option (List BudgetOwnerAllocation)) : LedgerOperation Unit := do
  let amounts ← evaluate (committedAmounts prepared observed ownerObserved)
  commit prepared.reservationId amounts.1 amounts.2

/-- Seal the receipt of an attempt, commit its budget and release the provider. -/
def recordReceipt (environment : Environment Λ) (receipt : AttemptReceiptRecord)
    (rawPayload : List UInt8) (observed : BudgetAmount)
    (ownerObserved : Option (List BudgetOwnerAllocation)) : AttemptOperation Λ Unit := do
  let coordinator ← get
  let prepared ← check (checkReceipt environment coordinator receipt rawPayload)
  sealRaw (environment.payloadHash rawPayload) rawPayload
  sealRecord (.receipt receipt)
  onBudget (commitReceipt prepared observed ownerObserved)
  onLifecycle environment fun port ↦
    port.clearAttemptAfterReceipt receipt.attemptId prepared.intentRecordHash
  setPrepared receipt.attemptId
    { prepared with
      receiptSealed := true
      receiptRecordHash := some (environment.recordHash (.receipt receipt)) }

/-- Whether a terminal record has the version that its intent requires. -/
def versionMatches : IntentVersion → TerminalVersion → Bool
  | .version1 _, .version2 | .version2 _ _, .version3 => true
  | .version3 _ scopeKind _ _, .version4 _ => scopeKind = .run
  | .version3 _ scopeKind _ _, .version3 => scopeKind ≠ .run
  | _, _ => false

/-- The references of a version 4 terminal record to its intent. -/
def checkIntentRoute (terminal : TerminalRoute) : IntentVersion → Except AttemptError Unit
  | .version3 intentHash _ _ route =>
    refuse (terminal.intentHash ≠ intentHash ∨ terminal.dispatchRouteId ≠ route.dispatchRouteId ∨
      terminal.dispatchRouteHash ≠ route.dispatchRouteHash)
      "version 4 terminal differs from its intent route"
  | _ => .error (.ordering "version 4 terminal differs from its intent route")

/-- The checks that only a version 4 terminal record has. -/
def checkTerminalRoute (prepared : PreparedAttempt) : TerminalVersion → Except AttemptError Unit
  | .version4 terminal => do
    checkIntentRoute terminal prepared.intent.version
    refuse (prepared.receiptSealed ∧ some terminal.receiptRecordHash ≠ prepared.receiptRecordHash)
      "version 4 terminal differs from its durable receipt"
  | _ => .ok ()

/-- The checks of a terminal record. -/
def validateTerminal (prepared : PreparedAttempt) (attempt : AttemptRecord) :
    Except AttemptError Unit := do
  refuse (versionMatches prepared.intent.version attempt.version = false)
    "terminal attempt contract version differs from intent"
  refuse (attempt.parentKind ≠ prepared.intent.parentKind ∨
      attempt.parentId ≠ prepared.intent.parentId ∨ attempt.stage ≠ prepared.intent.stage ∨
      attempt.requestFingerprint ≠ prepared.intent.requestFingerprint ∨
      attempt.reconciliationCapability ≠ prepared.intent.reconciliationCapability ∨
      attempt.idempotencyKeyHash ≠ prepared.intent.idempotencyKeyHash)
    "terminal attempt differs from its durable intent"
  checkTerminalRoute prepared attempt.version
  if attempt.outcome = .unknownOutcome then
    refuse prepared.receiptSealed "received attempt cannot be unknown"
  else
    refuse (prepared.receiptSealed = false) "terminal attempt requires a durable receipt"

/-- The checks of a terminal record, for a prepared attempt. -/
def checkTerminal (coordinator : Coordinator Λ) (attempt : AttemptRecord) :
    Except AttemptError Unit := do
  let prepared ← requirePrepared coordinator attempt.attemptId
  validateTerminal prepared attempt

/-- Seal the terminal record of an attempt. -/
def sealTerminal (attempt : AttemptRecord) : AttemptOperation Λ Unit := do
  let coordinator ← get
  check (checkTerminal coordinator attempt)
  sealRecord (.attempt attempt)

/-- The checks of an unknown outcome. -/
def checkUnknown (environment : Environment Λ) (coordinator : Coordinator Λ)
    (reservationId : String) (attempt : AttemptRecord) : Except AttemptError Unit := do
  let prepared ← requirePrepared coordinator attempt.attemptId
  refuse (reservationId ≠ prepared.reservationId) "unknown outcome names a different reservation"
  refuse prepared.receiptSealed "received attempt cannot become unknown outcome"
  refuse (environment.providerLifecycle.isSome ∧ ¬ prepared.dispatched)
    "provider attempt was not dispatched"
  refuse (attempt.outcome ≠ .unknownOutcome)
    "unknown outcome requires the matching terminal outcome"
  refuse (attempt.rawResponseRef.isSome ∨ attempt.rawErrorRef.isSome)
    "unknown outcome cannot name a raw receipt"
  validateTerminal prepared attempt

/-- Keep the budget of an attempt whose outcome is unknown and seal its terminal record. -/
def markUnknown (environment : Environment Λ) (reservationId : String) (attempt : AttemptRecord) :
    AttemptOperation Λ Unit := do
  let coordinator ← get
  check (checkUnknown environment coordinator reservationId attempt)
  onBudget (LedgerOperations.markUnknown reservationId)
  sealRecord (.attempt attempt)

/-! ### Calls -/

/-- A call of a coordinator. -/
inductive Call
  | prepare (claim : OccurrenceClaimRecord) (reservation : BudgetReservationRecord)
      (intent : AttemptIntentRecord) (maximum : BudgetAmount)
  | markDispatched (attemptId : String)
  | recordReceipt (receipt : AttemptReceiptRecord) (rawPayload : List UInt8)
      (observed : BudgetAmount) (ownerObserved : Option (List BudgetOwnerAllocation))
  | sealTerminal (attempt : AttemptRecord)
  | markUnknown (reservationId : String) (attempt : AttemptRecord)

/-- The operation of a call. -/
def Call.operation (environment : Environment Λ) : Call → AttemptOperation Λ Unit
  | prepare claim reservation intent maximum =>
    AttemptCoordinator.prepare environment claim reservation intent maximum
  | markDispatched attemptId => AttemptCoordinator.markDispatched environment attemptId
  | recordReceipt receipt rawPayload observed ownerObserved =>
    AttemptCoordinator.recordReceipt environment receipt rawPayload observed ownerObserved
  | sealTerminal attempt => AttemptCoordinator.sealTerminal attempt
  | markUnknown reservationId attempt =>
    AttemptCoordinator.markUnknown environment reservationId attempt

/-- The coordinator after a sequence of calls, failing ones included. -/
def run (environment : Environment Λ) (calls : List Call) (coordinator : Coordinator Λ) :
    Coordinator Λ :=
  calls.foldl (fun current call ↦ after (call.operation environment) current) coordinator

end Oamb.Runtime.AttemptCoordinator
