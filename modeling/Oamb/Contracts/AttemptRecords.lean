import Mathlib.Data.Rat.Defs

/-!
# The records of an attempt

The source records of one attempt: the claim of its occurrence, the budget reservation, the intent,
the receipt and the terminal record. The versions of a record share their common fields here, and a
version holds the fields that only it has. The fields that no check of a coordinator reads are kept
together in `otherFields`, because two records are the same only when they agree there too.
-/

set_option autoImplicit false

namespace Oamb.Contracts.AttemptRecords

/-! ### Enumerations -/

/-- The scopes of a reservation. -/
inductive BudgetScopeKind
  | run
  | modelReadiness
  | memoryConformance
  deriving DecidableEq

/-- The parents of an attempt. -/
inductive ParentKind
  | ingestionPlan
  | case
  | modelReadiness
  | memoryConformance
  deriving DecidableEq

/-- The owner of a dispatch. -/
inductive DispatchBudgetOwnerKind
  | modelRole
  | providerOperation
  deriving DecidableEq

/-- How an interrupted dispatch can be reconciled. -/
inductive ReconciliationCapability
  | none
  | idempotencyKey
  | receiptLookup
  deriving DecidableEq

/-- The outcome of an attempt. -/
inductive AttemptOutcome
  | succeeded
  | failed
  | cancelled
  | budgetExceeded
  | unknownOutcome
  deriving DecidableEq, Repr

/-- The kind of a receipt. -/
inductive AttemptReceiptKind
  | response
  | error
  | unknownOutcome
  deriving DecidableEq, Repr

/-! ### Records -/

/-- The claim of an occurrence. -/
structure OccurrenceClaimRecord where
  claimId : String
  occurrenceId : String
  stage : String
  requestFingerprint : String
  reconciliationCapability : ReconciliationCapability
  otherFields : String
  deriving DecidableEq

/-- A bound on a named resource. -/
structure ResourceBudgetCeiling where
  dimensionId : String
  maximum : ℚ
  unit : String
  deriving DecidableEq

/-- The share of one owner in a version 3 reservation. -/
structure OwnerAllocationRecord where
  ownerId : String
  allocatedAttempts : ℤ
  allocatedInputTokens : ℤ
  allocatedOutputTokens : ℤ
  allocatedDispatchWallSeconds : ℚ
  allocatedProviderUnits : ℚ
  allocatedResourceCeilings : List ResourceBudgetCeiling
  allocatedCost : Option ℚ
  otherFields : String
  deriving DecidableEq

/-- The owners that a version 2 record discriminates. -/
structure DiscriminatedOwner where
  dispatchOwnerKind : DispatchBudgetOwnerKind
  providerOperationCeilingId : Option String
  internalUsageRoleBindingIds : List String
  deriving DecidableEq

/-- The route of a version 3 record. -/
structure BudgetRoute where
  reservationHash : String
  budgetId : String
  budgetHash : String
  dispatchRouteId : String
  dispatchRouteHash : String
  deriving DecidableEq

/-- The fields that one version of a reservation has. -/
inductive ReservationVersion
  | version1 (roleBindingId : String)
  | version2 (roleBindingId : Option String) (owner : DiscriminatedOwner)
  | version3 (route : BudgetRoute) (ownerAllocations : List OwnerAllocationRecord)
  deriving DecidableEq

/-- A budget reservation. -/
structure BudgetReservationRecord where
  reservationId : String
  scopeKind : BudgetScopeKind
  scopeId : String
  attemptId : String
  reservedAttempts : ℤ
  reservedInputTokens : ℤ
  reservedOutputTokens : ℤ
  reservedDispatchWallSeconds : ℚ
  reservedCost : Option ℚ
  reservedResourceCeilings : List ResourceBudgetCeiling
  reservedProviderUnits : ℚ
  version : ReservationVersion
  otherFields : String
  deriving DecidableEq

/-- The fields that one version of an intent has. -/
inductive IntentVersion
  | version1 (roleBindingId : String)
  | version2 (roleBindingId : Option String) (owner : DiscriminatedOwner)
  | version3 (intentHash : String) (scopeKind : BudgetScopeKind) (scopeId : String)
      (route : BudgetRoute)
  deriving DecidableEq

/-- The intent of an attempt. -/
structure AttemptIntentRecord where
  attemptId : String
  claimId : String
  reservationId : String
  parentKind : ParentKind
  parentId : String
  stage : String
  requestFingerprint : String
  reconciliationCapability : ReconciliationCapability
  idempotencyKeyHash : Option String
  version : IntentVersion
  otherFields : String
  deriving DecidableEq

/-- The receipt of a dispatch. -/
structure AttemptReceiptRecord where
  attemptId : String
  receiptKind : AttemptReceiptKind
  rawResponseRef : Option String
  rawErrorRef : Option String
  otherFields : String
  deriving DecidableEq

/-- The references that a version 4 terminal record makes. -/
structure TerminalRoute where
  intentHash : String
  dispatchRouteId : String
  dispatchRouteHash : String
  receiptRecordHash : String
  deriving DecidableEq

/-- The fields that one version of a terminal record has. -/
inductive TerminalVersion
  | version2
  | version3
  | version4 (route : TerminalRoute)
  deriving DecidableEq

/-- The terminal record of an attempt. -/
structure AttemptRecord where
  attemptId : String
  parentKind : ParentKind
  parentId : String
  stage : String
  requestFingerprint : String
  reconciliationCapability : ReconciliationCapability
  idempotencyKeyHash : Option String
  outcome : AttemptOutcome
  rawResponseRef : Option String
  rawErrorRef : Option String
  version : TerminalVersion
  otherFields : String
  deriving DecidableEq

/-! ### Durable records -/

/-- A record that a coordinator seals. -/
inductive SourceRecord
  | claim (record : OccurrenceClaimRecord)
  | reservation (record : BudgetReservationRecord)
  | intent (record : AttemptIntentRecord)
  | receipt (record : AttemptReceiptRecord)
  | attempt (record : AttemptRecord)
  deriving DecidableEq

/-- The place of a record in the store, `source/{collection}/{recordId}.json`. -/
structure RecordPath where
  collection : String
  recordId : String
  deriving DecidableEq

/-- Where a record is sealed. -/
def SourceRecord.path : SourceRecord → RecordPath
  | claim record => ⟨"occurrence-claims", record.claimId⟩
  | reservation record => ⟨"budget-reservations", record.reservationId⟩
  | intent record => ⟨"attempt-intents", record.attemptId⟩
  | receipt record => ⟨"attempt-receipts", record.attemptId⟩
  | attempt record => ⟨"attempts", record.attemptId⟩

end Oamb.Contracts.AttemptRecords
