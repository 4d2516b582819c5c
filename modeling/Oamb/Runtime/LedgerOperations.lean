import Oamb.Runtime.ResourceArithmetic

/-!
# The budget ledger

A ledger bounds the amounts of one run: a parent ceiling, one ceiling for every owner, the reserved
and committed amounts under each of them, and the reservations by identity. An operation reads and
writes the ledger step by step, so what was written before an exception stays written.
-/

set_option autoImplicit false

namespace Oamb.Runtime.LedgerOperations

open Foundation ResourceAmounts ResourceArithmetic

/-- A ceiling with its currency. -/
structure BudgetCeiling where
  maximum : BudgetAmount
  currency : Option String
  deriving DecidableEq

/-- The ceiling that admits nothing. -/
def BudgetCeiling.zero (currency : Option String) : BudgetCeiling := ⟨BudgetAmount.zero, currency⟩

/-- The share of one owner in a reservation. -/
structure BudgetOwnerAllocation where
  ownerId : String
  maximum : BudgetAmount
  ownerId_ne_empty : ownerId ≠ ""
  deriving DecidableEq

/-- The allocation constructor. -/
def BudgetOwnerAllocation.create (ownerId : String) (maximum : BudgetAmount) :
    Except BudgetError BudgetOwnerAllocation :=
  if hempty : ownerId = "" then .error (.valueError "budget allocation requires an owner identity")
  else .ok ⟨ownerId, maximum, hempty⟩

/-- The arguments of the request constructor, with its defaults. -/
structure RequestFields where
  reservationId : String
  maximum : BudgetAmount
  roleBindingId : Option String := none
  providerOperationCeilingId : Option String := none
  ownerAllocations : List BudgetOwnerAllocation := []
  deriving DecidableEq

/-- What the request constructor checks: several distinct owners, or exactly one legacy owner. -/
structure RequestFields.Valid (fields : RequestFields) : Prop where
  multipleOwners : fields.ownerAllocations ≠ [] →
    fields.roleBindingId = none ∧ fields.providerOperationCeilingId = none ∧
      (fields.ownerAllocations.map BudgetOwnerAllocation.ownerId).Nodup
  legacyOwner : fields.ownerAllocations = [] →
    (fields.roleBindingId.isSome ↔ fields.providerOperationCeilingId = none)

/-- An accepted request. -/
structure ReservationRequest extends RequestFields where
  valid : toRequestFields.Valid
  deriving DecidableEq

namespace ReservationRequest

/-- The request constructor. -/
def create (fields : RequestFields) : Except BudgetError ReservationRequest :=
  if hmultiple : fields.ownerAllocations ≠ [] then
    if hlegacy : fields.roleBindingId = none ∧ fields.providerOperationCeilingId = none then
      if hnodup : (fields.ownerAllocations.map BudgetOwnerAllocation.ownerId).Nodup then
        .ok ⟨fields, fun _ ↦ ⟨hlegacy.1, hlegacy.2, hnodup⟩, fun hempty ↦ absurd hempty hmultiple⟩
      else .error (.valueError "multi-owner reservation contains duplicate owners")
    else .error (.valueError "multi-owner reservation cannot carry a legacy owner")
  else
    if hlegacy : fields.roleBindingId.isSome ↔ fields.providerOperationCeilingId = none then
      .ok ⟨fields, fun hne ↦ absurd hne hmultiple, fun _ ↦ hlegacy⟩
    else .error
      (.valueError "reservation requires exactly one discriminated budget owner")

/-- The first owner identity that is present and not empty, or the empty one. -/
def legacyOwner (request : ReservationRequest) : String :=
  match request.roleBindingId.filter (· ≠ "") with
  | some owner => owner
  | none => (request.providerOperationCeilingId.filter (· ≠ "")).getD ""

/-- The allocations of a request; a legacy owner is allocated the whole maximum. -/
def allocations (request : ReservationRequest) : Except BudgetError (List BudgetOwnerAllocation) :=
  if request.ownerAllocations ≠ [] then .ok request.ownerAllocations
  else match BudgetOwnerAllocation.create request.legacyOwner request.maximum with
    | .ok allocation => .ok [allocation]
    | .error failure => .error failure

end ReservationRequest

/-- The state of a reservation. -/
inductive ReservationState
  | reserved
  | committed
  | cancelled
  | unknown
  deriving DecidableEq, Repr

/-- The text of a reservation state in an error message. -/
def ReservationState.text : ReservationState → String
  | reserved => "reserved"
  | committed => "committed"
  | cancelled => "cancelled"
  | unknown => "unknown"

/-- A recorded reservation. -/
structure Reservation where
  request : ReservationRequest
  state : ReservationState
  deriving DecidableEq

/-- The ledger of a run. -/
structure BudgetLedger where
  parentCeiling : BudgetCeiling
  ownerCeilings : Dictionary String BudgetCeiling
  reserved : BudgetAmount
  committed : BudgetAmount
  ownerReserved : Dictionary String BudgetAmount
  ownerCommitted : Dictionary String BudgetAmount
  reservations : Dictionary String Reservation

namespace BudgetLedger

/-- The zero amount for every owner. -/
def zeroAmounts (ceilings : Dictionary String BudgetCeiling) : Dictionary String BudgetAmount :=
  Dictionary.ofList (ceilings.entries.map fun entry ↦ (entry.1, BudgetAmount.zero))

/-- The ledger constructor. -/
def create (parentCeiling : BudgetCeiling)
    (roleCeilings providerOperationCeilings : Dictionary String BudgetCeiling) :
    Except BudgetError BudgetLedger :=
  if ∃ owner ∈ roleCeilings.keys, owner ∈ providerOperationCeilings.keys then
    .error (.valueError "budget owner identities must be unique across owner kinds")
  else
    let ownerCeilings := roleCeilings ∪ providerOperationCeilings
    if ∃ entry ∈ ownerCeilings.entries, entry.2.currency ≠ parentCeiling.currency then
      .error (.valueError "role budget currency must match the parent currency")
    else .ok
      { parentCeiling := parentCeiling
        ownerCeilings := ownerCeilings
        reserved := BudgetAmount.zero
        committed := BudgetAmount.zero
        ownerReserved := zeroAmounts ownerCeilings
        ownerCommitted := zeroAmounts ownerCeilings
        reservations := ∅ }

end BudgetLedger

/-! ### Operations -/

/-- An operation on a ledger; what it wrote before an exception stays written. -/
abbrev LedgerOperation := EStateM BudgetError BudgetLedger

/-- A computation that leaves the ledger alone. -/
def evaluate {α : Type} : Except BudgetError α → LedgerOperation α
  | .ok result, ledger => .ok result ledger
  | .error failure, ledger => .error failure ledger

/-- The value under a key that the source reads without a default. -/
def getItem {ν : Type} (dictionary : Dictionary String ν) (key : String) : Except BudgetError ν :=
  match dictionary.lookup key with
  | some stored => .ok stored
  | none => .error (.keyError key)

/-- Replace the reserved amount of the parent. -/
def updateReserved (update : BudgetAmount → Except BudgetError BudgetAmount) :
    LedgerOperation Unit := do
  let ledger ← get
  let reserved ← evaluate (update ledger.reserved)
  set { ledger with reserved := reserved }

/-- Replace the committed amount of the parent. -/
def updateCommitted (update : BudgetAmount → Except BudgetError BudgetAmount) :
    LedgerOperation Unit := do
  let ledger ← get
  let committed ← evaluate (update ledger.committed)
  set { ledger with committed := committed }

/-- Replace the reserved amount of an owner. -/
def updateOwnerReserved (owner : String)
    (update : BudgetAmount → Except BudgetError BudgetAmount) : LedgerOperation Unit := do
  let ledger ← get
  let stored ← evaluate (getItem ledger.ownerReserved owner)
  let reserved ← evaluate (update stored)
  set { ledger with ownerReserved := ledger.ownerReserved.insert owner reserved }

/-- Replace the committed amount of an owner. -/
def updateOwnerCommitted (owner : String)
    (update : BudgetAmount → Except BudgetError BudgetAmount) : LedgerOperation Unit := do
  let ledger ← get
  let stored ← evaluate (getItem ledger.ownerCommitted owner)
  let committed ← evaluate (update stored)
  set { ledger with ownerCommitted := ledger.ownerCommitted.insert owner committed }

/-- Record the state of a reservation. -/
def setReservation (reservationId : String) (reservation : Reservation) : LedgerOperation Unit :=
  modify fun ledger ↦
    { ledger with reservations := ledger.reservations.insert reservationId reservation }

/-- Refuse an allocation that crosses the ceiling of its owner. -/
def checkOwner (ledger : BudgetLedger) (allocation : BudgetOwnerAllocation) :
    Except BudgetError Unit :=
  match ledger.ownerCeilings.lookup allocation.ownerId with
  | none => .error (.budgetExceeded s!"missing budget-owner ceiling: {allocation.ownerId}")
  | some ceiling => do
    let committed ← getItem ledger.ownerCommitted allocation.ownerId
    let reserved ← getItem ledger.ownerReserved allocation.ownerId
    let booked ← add committed reserved
    let candidate ← add booked allocation.maximum
    requireFits allocation.ownerId candidate ceiling.maximum

/-- The checks of a reservation, with the allocations that it books. -/
def checkReserve (ledger : BudgetLedger) (request : ReservationRequest) :
    Except BudgetError (List BudgetOwnerAllocation) := do
  if request.reservationId = "" ∨ request.reservationId ∈ ledger.reservations then
    throw (.reservationState "reservation identity is empty or already exists")
  let booked ← add ledger.committed ledger.reserved
  let candidate ← add booked request.maximum
  requireFits "parent" candidate ledger.parentCeiling.maximum
  let allocations ← request.allocations
  forM allocations (checkOwner ledger)
  return allocations

/-- Reserve the maximum of a request. -/
def reserve (request : ReservationRequest) : LedgerOperation Unit := do
  let ledger ← get
  let allocations ← evaluate (checkReserve ledger request)
  updateReserved fun reserved ↦ add reserved request.maximum
  forM allocations fun allocation ↦
    updateOwnerReserved allocation.ownerId fun reserved ↦ add reserved allocation.maximum
  setReservation request.reservationId ⟨request, .reserved⟩

/-- The reservation of an identity, when it is still reserved. -/
def active (ledger : BudgetLedger) (reservationId : String) : Except BudgetError Reservation :=
  match ledger.reservations.lookup reservationId with
  | none => .error (.reservationState s!"unknown reservation: {reservationId}")
  | some reservation =>
    if reservation.state ≠ .reserved then .error (.reservationState
      s!"reservation is not active: {reservationId} ({reservation.state.text})")
    else .ok reservation

/-- The allocations by owner. -/
def amountsByOwner (allocations : List BudgetOwnerAllocation) : Dictionary String BudgetAmount :=
  Dictionary.ofList (allocations.map fun allocation ↦ (allocation.ownerId, allocation.maximum))

/-- The checks of explicit owner observations, with the observations by owner. -/
def checkOwnerObserved (request : ReservationRequest)
    (ownerObserved : List BudgetOwnerAllocation) :
    Except BudgetError (Dictionary String BudgetAmount) := do
  if request.ownerAllocations = [] then
    throw (.reservationState "owner observations require a multi-owner reservation")
  let observedByOwner := amountsByOwner ownerObserved
  let reservedByOwner := amountsByOwner request.ownerAllocations
  if observedByOwner.keys.length ≠ ownerObserved.length ∨
      ¬ (observedByOwner.keys ⊆ reservedByOwner.keys ∧
        reservedByOwner.keys ⊆ observedByOwner.keys) then
    throw (.reservationState
      "observed owner inventory must exactly match the reservation owner inventory")
  forM ownerObserved fun observation ↦ do
    let maximum ← getItem reservedByOwner observation.ownerId
    requireFits observation.ownerId observation.maximum maximum
  return observedByOwner

/-- The checks of a commit, with the reservation and the explicit owner observations. -/
def checkCommit (ledger : BudgetLedger) (reservationId : String) (observed : BudgetAmount)
    (ownerObserved : Option (List BudgetOwnerAllocation)) :
    Except BudgetError (Reservation × Option (Dictionary String BudgetAmount)) := do
  let reservation ← active ledger reservationId
  requireFits "observed" observed reservation.request.maximum
  match ownerObserved with
  | none => return (reservation, none)
  | some observations =>
    let observedByOwner ← checkOwnerObserved reservation.request observations
    return (reservation, some observedByOwner)

/-- The amount that a commit books for an owner: its explicit observation, its whole allocation in
a reservation of several owners, or the observation of the reservation. -/
def ownerCommit (request : ReservationRequest) (observed : BudgetAmount)
    (observedByOwner : Option (Dictionary String BudgetAmount))
    (allocation : BudgetOwnerAllocation) : Except BudgetError BudgetAmount :=
  match observedByOwner with
  | some observations => getItem observations allocation.ownerId
  | none => .ok (if request.ownerAllocations ≠ [] then allocation.maximum else observed)

/-- Release the allocation of an owner and commit what was observed of it. -/
def commitOwner (observation : BudgetOwnerAllocation → Except BudgetError BudgetAmount)
    (allocation : BudgetOwnerAllocation) : LedgerOperation Unit := do
  updateOwnerReserved allocation.ownerId fun reserved ↦ subtract reserved allocation.maximum
  let observed ← evaluate (observation allocation)
  updateOwnerCommitted allocation.ownerId fun committed ↦ add committed observed

/-- Commit the observed amount of a reservation and release the rest. -/
def commit (reservationId : String) (observed : BudgetAmount)
    (ownerObserved : Option (List BudgetOwnerAllocation)) : LedgerOperation Unit := do
  let ledger ← get
  let (reservation, observedByOwner) ←
    evaluate (checkCommit ledger reservationId observed ownerObserved)
  updateReserved fun reserved ↦ subtract reserved reservation.request.maximum
  updateCommitted fun committed ↦ add committed observed
  let allocations ← evaluate reservation.request.allocations
  forM allocations (commitOwner (ownerCommit reservation.request observed observedByOwner))
  setReservation reservationId ⟨reservation.request, .committed⟩

/-- Release a reservation whose operation was never dispatched. -/
def cancelBeforeDispatch (reservationId : String) : LedgerOperation Unit := do
  let ledger ← get
  let reservation ← evaluate (active ledger reservationId)
  updateReserved fun reserved ↦ subtract reserved reservation.request.maximum
  let allocations ← evaluate reservation.request.allocations
  forM allocations fun allocation ↦
    updateOwnerReserved allocation.ownerId fun reserved ↦ subtract reserved allocation.maximum
  setReservation reservationId ⟨reservation.request, .cancelled⟩

/-- Keep the maximum of a reservation whose outcome is unknown. -/
def markUnknown (reservationId : String) : LedgerOperation Unit := do
  let ledger ← get
  let reservation ← evaluate (active ledger reservationId)
  setReservation reservationId ⟨reservation.request, .unknown⟩

end Oamb.Runtime.LedgerOperations
