import Oamb.Foundation.StatefulExecution
import Oamb.Runtime.LedgerOperations

/-!
# Executing a ledger operation

An operation first checks and then writes. A refused check leaves the ledger alone. The writes of
an accepted check go through when the combination of every account with its share is accepted; the
loop over the owners is then one merge of the shares into the amounts of the owners. Only the last
write of an operation changes the reservations.
-/

set_option autoImplicit false

namespace Oamb.Runtime.LedgerExecution

open Foundation Foundation.StatefulExecution ResourceAmounts ResourceArithmetic LedgerOperations

/-! ### Single writes -/

section Writes

variable {ledger : BudgetLedger}

@[simp] theorem run_evaluate_ok {α : Type} (result : α) (ledger : BudgetLedger) :
    (evaluate (.ok result)).run ledger = .ok result ledger := rfl

@[simp] theorem run_evaluate_error {α : Type} (failure : BudgetError) (ledger : BudgetLedger) :
    (evaluate (.error failure) : LedgerOperation α).run ledger = .error failure ledger := rfl

@[simp] theorem run_setReservation (reservationId : String) (reservation : Reservation)
    (ledger : BudgetLedger) : (setReservation reservationId reservation).run ledger =
      .ok () { ledger with
        reservations := ledger.reservations.insert reservationId reservation } := rfl

theorem run_updateReserved {update : BudgetAmount → Except BudgetError BudgetAmount}
    {reserved : BudgetAmount} (hupdate : update ledger.reserved = .ok reserved) :
    (updateReserved update).run ledger = .ok () { ledger with reserved := reserved } := by
  simp [updateReserved, hupdate]

theorem run_updateCommitted {update : BudgetAmount → Except BudgetError BudgetAmount}
    {committed : BudgetAmount} (hupdate : update ledger.committed = .ok committed) :
    (updateCommitted update).run ledger = .ok () { ledger with committed := committed } := by
  simp [updateCommitted, hupdate]

theorem run_updateOwnerReserved {owner : String}
    {update : BudgetAmount → Except BudgetError BudgetAmount} {stored reserved : BudgetAmount}
    (hstored : ledger.ownerReserved.lookup owner = some stored)
    (hupdate : update stored = .ok reserved) :
    (updateOwnerReserved owner update).run ledger =
      .ok () { ledger with ownerReserved := ledger.ownerReserved.insert owner reserved } := by
  simp [updateOwnerReserved, getItem, hstored, hupdate]

theorem run_updateOwnerCommitted {owner : String}
    {update : BudgetAmount → Except BudgetError BudgetAmount} {stored committed : BudgetAmount}
    (hstored : ledger.ownerCommitted.lookup owner = some stored)
    (hupdate : update stored = .ok committed) :
    (updateOwnerCommitted owner update).run ledger =
      .ok () { ledger with ownerCommitted := ledger.ownerCommitted.insert owner committed } := by
  simp [updateOwnerCommitted, getItem, hstored, hupdate]

end Writes

/-! ### The loops over the owners -/

/-- Combine the stored amount of an owner with a share. -/
def combineOwner (subtract : Bool) (owner : String) (stored : Option BudgetAmount)
    (share : BudgetAmount) : Except BudgetError BudgetAmount :=
  match stored with
  | some amount => combine subtract amount share
  | none => .error (.keyError owner)

/-- The shares of the owners. -/
def shareItems (share : BudgetOwnerAllocation → BudgetAmount)
    (allocations : List BudgetOwnerAllocation) : List (String × BudgetAmount) :=
  allocations.map fun allocation ↦ (allocation.ownerId, share allocation)

theorem combineOwner_eq_ok {subtract : Bool} {owner : String} {stored : Option BudgetAmount}
    {share result : BudgetAmount} : combineOwner subtract owner stored share = .ok result ↔
      ∃ amount, stored = some amount ∧ combine subtract amount share = .ok result := by
  cases stored <;> simp [combineOwner]

theorem run_forM_updateOwnerReserved {subtract : Bool} {allocations : List BudgetOwnerAllocation}
    {ledger : BudgetLedger} {ownerReserved : Dictionary String BudgetAmount}
    (hmerge : Dictionary.merge (combineOwner subtract) ledger.ownerReserved
      (shareItems BudgetOwnerAllocation.maximum allocations) = .ok ownerReserved) :
    (forM allocations fun allocation ↦ updateOwnerReserved allocation.ownerId
        fun reserved ↦ combine subtract reserved allocation.maximum).run ledger =
      .ok () { ledger with ownerReserved := ownerReserved } := by
  induction allocations generalizing ledger with
  | nil =>
    cases hmerge
    rfl
  | cons allocation allocations ih =>
    obtain ⟨reserved, hreserved, hrest⟩ := Dictionary.merge_cons_eq_ok.mp hmerge
    obtain ⟨stored, hstored, hcombine⟩ := combineOwner_eq_ok.mp hreserved
    have hwrite : (updateOwnerReserved allocation.ownerId
        fun reserved ↦ combine subtract reserved allocation.maximum).run ledger = _ :=
      run_updateOwnerReserved hstored hcombine
    rw [List.forM_cons, EStateM.run_bind, hwrite]
    exact ih hrest

/-- The two writes of a commit for every owner. -/
theorem run_forM_commitOwner {allocations : List BudgetOwnerAllocation} {ledger : BudgetLedger}
    {observation : BudgetOwnerAllocation → Except BudgetError BudgetAmount}
    {observed : BudgetOwnerAllocation → BudgetAmount}
    {ownerReserved ownerCommitted : Dictionary String BudgetAmount}
    (hobserved : ∀ allocation ∈ allocations, observation allocation = .ok (observed allocation))
    (hreserved : Dictionary.merge (combineOwner true) ledger.ownerReserved
      (shareItems BudgetOwnerAllocation.maximum allocations) = .ok ownerReserved)
    (hcommitted : Dictionary.merge (combineOwner false) ledger.ownerCommitted
      (shareItems observed allocations) = .ok ownerCommitted) :
    (forM allocations (commitOwner observation)).run ledger =
      .ok () { ledger with ownerReserved := ownerReserved, ownerCommitted := ownerCommitted } := by
  induction allocations generalizing ledger with
  | nil =>
    cases hreserved
    cases hcommitted
    rfl
  | cons allocation allocations ih =>
    obtain ⟨reserved, hreservedShare, hreservedRest⟩ := Dictionary.merge_cons_eq_ok.mp hreserved
    obtain ⟨storedReserved, hstoredReserved, hsubtract⟩ := combineOwner_eq_ok.mp hreservedShare
    obtain ⟨committed, hcommittedShare, hcommittedRest⟩ := Dictionary.merge_cons_eq_ok.mp hcommitted
    obtain ⟨storedCommitted, hstoredCommitted, hadd⟩ := combineOwner_eq_ok.mp hcommittedShare
    have hwrite : (commitOwner observation allocation).run ledger = .ok () { ledger with
        ownerReserved := ledger.ownerReserved.insert allocation.ownerId reserved
        ownerCommitted := ledger.ownerCommitted.insert allocation.ownerId committed } := by
      have hwriteReserved : (updateOwnerReserved allocation.ownerId
          fun reserved ↦ subtract reserved allocation.maximum).run ledger = _ :=
        run_updateOwnerReserved hstoredReserved hsubtract
      have hwriteCommitted : (updateOwnerCommitted allocation.ownerId
          fun committed ↦ add committed (observed allocation)).run { ledger with
            ownerReserved := ledger.ownerReserved.insert allocation.ownerId reserved } = _ :=
        run_updateOwnerCommitted hstoredCommitted hadd
      simp only [commitOwner, EStateM.run_bind, hwriteReserved,
        hobserved allocation List.mem_cons_self, run_evaluate_ok, hwriteCommitted]
    rw [List.forM_cons, EStateM.run_bind, hwrite]
    exact ih (fun other hmem ↦ hobserved other (List.mem_cons_of_mem _ hmem)) hreservedRest
      hcommittedRest

/-! ### Whole operations -/

section Operations

variable {ledger : BudgetLedger} {failure : BudgetError}

theorem run_reserve_of_error {request : ReservationRequest}
    (hcheck : checkReserve ledger request = .error failure) :
    (reserve request).run ledger = .error failure ledger := by
  simp [reserve, hcheck]

theorem run_reserve_of_ok {request : ReservationRequest}
    {allocations : List BudgetOwnerAllocation} {reserved : BudgetAmount}
    {ownerReserved : Dictionary String BudgetAmount}
    (hcheck : checkReserve ledger request = .ok allocations)
    (hreserved : add ledger.reserved request.maximum = .ok reserved)
    (hmerge : Dictionary.merge (combineOwner false) ledger.ownerReserved
      (shareItems BudgetOwnerAllocation.maximum allocations) = .ok ownerReserved) :
    (reserve request).run ledger =
      .ok () { ledger with
        reserved := reserved
        ownerReserved := ownerReserved
        reservations := ledger.reservations.insert request.reservationId ⟨request, .reserved⟩ } := by
  have hparent : (updateReserved fun reserved ↦ add reserved request.maximum).run ledger = _ :=
    run_updateReserved hreserved
  have howners : (forM allocations fun (allocation : BudgetOwnerAllocation) ↦
      updateOwnerReserved allocation.ownerId fun reserved ↦ add reserved allocation.maximum).run
        { ledger with reserved := reserved } = _ := run_forM_updateOwnerReserved hmerge
  simp only [reserve, EStateM.run_bind, EStateM.run_get, hcheck, run_evaluate_ok, hparent, howners,
    run_setReservation]

theorem run_commit_of_error {reservationId : String} {observed : BudgetAmount}
    {ownerObserved : Option (List BudgetOwnerAllocation)}
    (hcheck : checkCommit ledger reservationId observed ownerObserved = .error failure) :
    (commit reservationId observed ownerObserved).run ledger = .error failure ledger := by
  simp [commit, hcheck]

theorem run_commit_of_ok {reservationId : String} {observed : BudgetAmount}
    {ownerObserved : Option (List BudgetOwnerAllocation)} {reservation : Reservation}
    {observedByOwner : Option (Dictionary String BudgetAmount)}
    {allocations : List BudgetOwnerAllocation} {reserved committed : BudgetAmount}
    {share : BudgetOwnerAllocation → BudgetAmount}
    {ownerReserved ownerCommitted : Dictionary String BudgetAmount}
    (hcheck : checkCommit ledger reservationId observed ownerObserved =
      .ok (reservation, observedByOwner))
    (hreserved : subtract ledger.reserved reservation.request.maximum = .ok reserved)
    (hcommitted : add ledger.committed observed = .ok committed)
    (hallocations : reservation.request.allocations = .ok allocations)
    (hshare : ∀ allocation ∈ allocations,
      ownerCommit reservation.request observed observedByOwner allocation = .ok (share allocation))
    (hownerReserved : Dictionary.merge (combineOwner true) ledger.ownerReserved
      (shareItems BudgetOwnerAllocation.maximum allocations) = .ok ownerReserved)
    (hownerCommitted : Dictionary.merge (combineOwner false) ledger.ownerCommitted
      (shareItems share allocations) = .ok ownerCommitted) :
    (commit reservationId observed ownerObserved).run ledger =
      .ok () { ledger with
        reserved := reserved
        committed := committed
        ownerReserved := ownerReserved
        ownerCommitted := ownerCommitted
        reservations :=
          ledger.reservations.insert reservationId ⟨reservation.request, .committed⟩ } := by
  have hreservedWrite : (updateReserved fun reserved ↦
      subtract reserved reservation.request.maximum).run ledger = _ := run_updateReserved hreserved
  have hcommittedWrite : (updateCommitted fun committed ↦ add committed observed).run
      { ledger with reserved := reserved } = _ := run_updateCommitted hcommitted
  have howners : (forM allocations (commitOwner
      (ownerCommit reservation.request observed observedByOwner))).run
        { ledger with reserved := reserved, committed := committed } = _ :=
    run_forM_commitOwner hshare hownerReserved hownerCommitted
  simp only [commit, EStateM.run_bind, EStateM.run_get, hcheck, run_evaluate_ok, hreservedWrite,
    hcommittedWrite, hallocations, howners, run_setReservation]

theorem run_cancelBeforeDispatch_of_error {reservationId : String}
    (hcheck : active ledger reservationId = .error failure) :
    (cancelBeforeDispatch reservationId).run ledger = .error failure ledger := by
  simp [cancelBeforeDispatch, hcheck]

theorem run_cancelBeforeDispatch_of_ok {reservationId : String} {reservation : Reservation}
    {allocations : List BudgetOwnerAllocation} {reserved : BudgetAmount}
    {ownerReserved : Dictionary String BudgetAmount}
    (hcheck : active ledger reservationId = .ok reservation)
    (hreserved : subtract ledger.reserved reservation.request.maximum = .ok reserved)
    (hallocations : reservation.request.allocations = .ok allocations)
    (hmerge : Dictionary.merge (combineOwner true) ledger.ownerReserved
      (shareItems BudgetOwnerAllocation.maximum allocations) = .ok ownerReserved) :
    (cancelBeforeDispatch reservationId).run ledger =
      .ok () { ledger with
        reserved := reserved
        ownerReserved := ownerReserved
        reservations :=
          ledger.reservations.insert reservationId ⟨reservation.request, .cancelled⟩ } := by
  have hparent : (updateReserved fun reserved ↦
      subtract reserved reservation.request.maximum).run ledger = _ := run_updateReserved hreserved
  have howners : (forM allocations fun (allocation : BudgetOwnerAllocation) ↦
      updateOwnerReserved allocation.ownerId fun reserved ↦
        subtract reserved allocation.maximum).run
        { ledger with reserved := reserved } = _ := run_forM_updateOwnerReserved hmerge
  simp only [cancelBeforeDispatch, EStateM.run_bind, EStateM.run_get, hcheck, run_evaluate_ok,
    hparent, hallocations, howners, run_setReservation]

theorem run_markUnknown_of_error {reservationId : String}
    (hcheck : active ledger reservationId = .error failure) :
    (markUnknown reservationId).run ledger = .error failure ledger := by
  simp [markUnknown, hcheck]

theorem run_markUnknown_of_ok {reservationId : String} {reservation : Reservation}
    (hcheck : active ledger reservationId = .ok reservation) :
    (markUnknown reservationId).run ledger =
      .ok () { ledger with reservations :=
        ledger.reservations.insert reservationId ⟨reservation.request, .unknown⟩ } := by
  simp [markUnknown, hcheck]

end Operations

/-! ### The record of the reservations -/

section Record

variable {α β : Type} {reservationId : String} {reservation : Reservation}

/-- An operation that does not change the reservations. -/
def KeepsReservations (operation : LedgerOperation α) : Prop :=
  ∀ ledger, (after operation ledger).reservations = ledger.reservations

/-- An operation that records a reservation when it returns, and nothing when it raises. -/
def Records (reservationId : String) (reservation : Reservation)
    (operation : LedgerOperation α) : Prop :=
  ∀ ledger, match operation.run ledger with
    | .ok _ next => next.reservations = ledger.reservations.insert reservationId reservation
    | .error _ next => next.reservations = ledger.reservations

theorem KeepsReservations.bind {operation : LedgerOperation α} {next : α → LedgerOperation β}
    (hoperation : KeepsReservations operation) (hnext : ∀ result, KeepsReservations (next result)) :
    KeepsReservations (operation >>= next) := by
  intro ledger
  rcases after_bind operation next ledger with hstop | ⟨result, hcontinue⟩
  · rw [hstop, hoperation]
  · rw [hcontinue, hnext, hoperation]

theorem Records.bind {operation : LedgerOperation α} {next : α → LedgerOperation β}
    (hoperation : KeepsReservations operation)
    (hnext : ∀ result, Records reservationId reservation (next result)) :
    Records reservationId reservation (operation >>= next) := by
  intro ledger
  have hkept := hoperation ledger
  rw [EStateM.run_bind]
  cases hrun : operation.run ledger with
  | ok result written =>
    have hrecords := hnext result written
    rw [after_of_ok hrun] at hkept
    rw [hkept] at hrecords
    exact hrecords
  | error failure written =>
    rw [after_of_error hrun] at hkept
    exact hkept

theorem keepsReservations_evaluate (computation : Except BudgetError α) :
    KeepsReservations (evaluate computation) := by
  intro ledger
  cases computation <;> rfl

theorem keepsReservations_updateReserved
    (update : BudgetAmount → Except BudgetError BudgetAmount) :
    KeepsReservations (updateReserved update) := by
  intro ledger
  simp only [after, updateReserved, EStateM.run_bind, EStateM.run_get]
  cases update ledger.reserved <;> rfl

theorem keepsReservations_updateCommitted
    (update : BudgetAmount → Except BudgetError BudgetAmount) :
    KeepsReservations (updateCommitted update) := by
  intro ledger
  simp only [after, updateCommitted, EStateM.run_bind, EStateM.run_get]
  cases update ledger.committed <;> rfl

theorem keepsReservations_updateOwnerReserved (owner : String)
    (update : BudgetAmount → Except BudgetError BudgetAmount) :
    KeepsReservations (updateOwnerReserved owner update) := by
  intro ledger
  simp only [after, updateOwnerReserved, EStateM.run_bind, EStateM.run_get]
  cases getItem ledger.ownerReserved owner with
  | error failure => rfl
  | ok stored =>
    simp only [run_evaluate_ok]
    cases update stored <;> rfl

theorem keepsReservations_updateOwnerCommitted (owner : String)
    (update : BudgetAmount → Except BudgetError BudgetAmount) :
    KeepsReservations (updateOwnerCommitted owner update) := by
  intro ledger
  simp only [after, updateOwnerCommitted, EStateM.run_bind, EStateM.run_get]
  cases getItem ledger.ownerCommitted owner with
  | error failure => rfl
  | ok stored =>
    simp only [run_evaluate_ok]
    cases update stored <;> rfl

theorem keepsReservations_forM (allocations : List BudgetOwnerAllocation)
    {operation : BudgetOwnerAllocation → LedgerOperation Unit}
    (hoperation : ∀ allocation, KeepsReservations (operation allocation)) :
    KeepsReservations (forM allocations operation) := by
  induction allocations with
  | nil =>
    intro ledger
    rfl
  | cons allocation allocations ih =>
    rw [List.forM_cons]
    exact (hoperation allocation).bind fun _ ↦ ih

theorem records_setReservation (reservationId : String) (reservation : Reservation) :
    Records reservationId reservation (setReservation reservationId reservation) :=
  fun _ ↦ rfl

end Record

end Oamb.Runtime.LedgerExecution
