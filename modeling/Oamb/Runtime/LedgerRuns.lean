import Oamb.Runtime.LedgerChecks

/-!
# Runs of a budget ledger

Every call of a ledger whose amounts lie on a quantum under which the ceilings are bounded either is
refused and leaves the ledger alone, or is one step of the ledger as an account; `Call.simulates`
is this statement. A run from a new ledger therefore keeps the account consistent.

`accountsExactly_of_calls` reads this back in the terms of the ledger: committed and reserved
amounts fit every ceiling, reserved amounts are the sums over the reservations that are reserved or
unknown, and no reservation leaves the reserved state twice. `unchanged_of_refused` says that a
refused call of a reachable ledger changed nothing. Without a bound on the digits both statements
fail, because decimal sums are rounded.
-/

set_option autoImplicit false

namespace Oamb.Runtime.LedgerRuns

open Foundation Foundation.DecimalContext Foundation.ReservationAccount
open Foundation.StatefulExecution
open ResourceAmounts ResourceArithmetic ExactAccounts LedgerOperations LedgerExecution LedgerBooks
open LedgerChecks

/-! ### Calls -/

/-- A call of a ledger. -/
inductive Call
  | reserve (request : ReservationRequest)
  | commit (reservationId : String) (observed : BudgetAmount)
      (ownerObserved : Option (List BudgetOwnerAllocation))
  | cancelBeforeDispatch (reservationId : String)
  | markUnknown (reservationId : String)

namespace Call

/-- The operation of a call. -/
def operation : Call → LedgerOperation Unit
  | reserve request => LedgerOperations.reserve request
  | commit reservationId observed ownerObserved =>
    LedgerOperations.commit reservationId observed ownerObserved
  | cancelBeforeDispatch reservationId => LedgerOperations.cancelBeforeDispatch reservationId
  | markUnknown reservationId => LedgerOperations.markUnknown reservationId

/-- The finite decimals of the arguments lie on the quantum. -/
def OnQuantum (quantum : ℤ) : Call → Prop
  | reserve request => RequestOnQuantum quantum request
  | commit _ observed ownerObserved => ExactAccounts.OnQuantum quantum observed ∧
      ∀ observations, ownerObserved = some observations →
        ∀ observation ∈ observations, ExactAccounts.OnQuantum quantum observation.maximum
  | cancelBeforeDispatch _ | markUnknown _ => True

end Call

/-- The ledger after a sequence of calls, refused ones included. -/
def run (calls : List Call) (ledger : BudgetLedger) : BudgetLedger :=
  calls.foldl (fun current call ↦ after call.operation current) ledger

/-! ### One call -/

section Step

variable {quantum : ℤ} {ledger : BudgetLedger}

/-- A step between two ledgers read as accounts. -/
def LedgerStep (ledger next : BudgetLedger) : Prop :=
  ReservationAccount.Step amount phase (ceilingVector (ceiling? ledger)) (account ledger)
    (account next)

/-- The ledger after a write of the amounts and one reservation. -/
def write (ledger : BudgetLedger) (reserved committed : Books) (reservationId : String)
    (reservation : Reservation) : BudgetLedger :=
  { ledger with
    reserved := reserved.parent
    ownerReserved := reserved.owners
    committed := committed.parent
    ownerCommitted := committed.owners
    reservations := ledger.reservations.insert reservationId reservation }

theorem ceiling?_write (ledger : BudgetLedger) (reserved committed : Books) (reservationId : String)
    (reservation : Reservation) :
    ceiling? (write ledger reserved committed reservationId reservation) = ceiling? ledger := by
  funext name
  cases name <;> rfl

/-- A write that is a step of the account keeps the ledger accounted for. -/
theorem accounted_write (haccounted : Accounted quantum ledger) {reserved committed : Books}
    {reservationId : String} {reservation : Reservation}
    (hreserved : BooksBooked quantum (ceiling? ledger) reserved)
    (hcommitted : BooksBooked quantum (ceiling? ledger) committed)
    (hpage : PageBooked quantum (ceiling? ledger) (page reservation.request))
    (hallocated : ∃ allocations, reservation.request.allocations = .ok allocations)
    (hstep : LedgerStep ledger (write ledger reserved committed reservationId reservation)) :
    Accounted quantum (write ledger reserved committed reservationId reservation) := by
  have hrecord : ∀ (R : Reservation → Prop), (∀ found stored,
      ledger.reservations.lookup found = some stored → R stored) → R reservation →
      ∀ found stored, (ledger.reservations.insert reservationId reservation).lookup found =
        some stored → R stored := by
    intro R hstored hnew found stored hlookup
    rw [Dictionary.lookup_insert_eq_ite] at hlookup
    split_ifs at hlookup
    · cases hlookup
      exact hnew
    · exact hstored found stored hlookup
  constructor
  · rw [ceiling?_write]
    exact haccounted.bounded
  · rw [ceiling?_write]
    exact hreserved
  · rw [ceiling?_write]
    exact hcommitted
  · rw [ceiling?_write]
    exact hrecord (fun stored ↦ PageBooked quantum (ceiling? ledger) (page stored.request))
      haccounted.pages hpage
  · exact hrecord (fun stored ↦ ∃ allocations, stored.request.allocations = .ok allocations)
      haccounted.allocated hallocated
  · rw [ceiling?_write]
    exact hstep.consistent haccounted.consistent

/-- An accepted call: a write that keeps the ledger accounted for and is one step of the account. -/
def Accepted (quantum : ℤ) (ledger : BudgetLedger) (operation : LedgerOperation Unit) : Prop :=
  ∃ next, operation.run ledger = .ok () next ∧ Accounted quantum next ∧ LedgerStep ledger next ∧
    ceiling? next = ceiling? ledger

/-- An operation that writes booked amounts and one step of the account is accepted. -/
theorem accepted_of_write (haccounted : Accounted quantum ledger)
    {operation : LedgerOperation Unit} {reserved committed : Books} {reservationId : String}
    {request : ReservationRequest} {state : ReservationState}
    (hrun : operation.run ledger =
      .ok () (write ledger reserved committed reservationId ⟨request, state⟩))
    (hreserved : BooksBooked quantum (ceiling? ledger) reserved)
    (hcommitted : BooksBooked quantum (ceiling? ledger) committed)
    (hpage : PageBooked quantum (ceiling? ledger) (page request))
    (hallocated : ∃ allocations, request.allocations = .ok allocations)
    (hstep : LedgerStep ledger (write ledger reserved committed reservationId ⟨request, state⟩)) :
    Accepted quantum ledger operation :=
  ⟨_, hrun, accounted_write haccounted hreserved hcommitted hpage hallocated hstep, hstep,
    ceiling?_write ledger reserved committed reservationId ⟨request, state⟩⟩

theorem account_write (ledger : BudgetLedger) (reserved committed : Books) (reservationId : String)
    (reservation : Reservation) :
    account (write ledger reserved committed reservationId reservation) =
      ⟨reserved.vector, committed.vector,
        ledger.reservations.insert reservationId reservation⟩ := rfl

theorem amount_nonneg (reservation : Reservation) : 0 ≤ amount reservation :=
  Books.vector_nonneg _

theorem ledgerStep_reserve {reserved : Books} {reservationId : String} {request : ReservationRequest}
    (hfresh : reservationId ∉ ledger.reservations)
    (hfits : (account ledger).committed + (account ledger).reserved +
      amount ⟨request, .reserved⟩ ≤ ceilingVector (ceiling? ledger))
    (hvector : reserved.vector = (account ledger).reserved + amount ⟨request, .reserved⟩) :
    LedgerStep ledger
      (write ledger reserved (committedBooks ledger) reservationId ⟨request, .reserved⟩) := by
  rw [LedgerStep, account_write, hvector]
  exact .reserve hfresh rfl (amount_nonneg _) hfits

theorem ledgerStep_settle {reserved committed : Books} {reservationId : String}
    {reservation : Reservation} {state : ReservationState} {observed : AmountVector}
    (hactive : active ledger reservationId = .ok reservation)
    (hclosed : phase ⟨reservation.request, state⟩ = .closed) (hnonneg : 0 ≤ observed)
    (hle : observed ≤ amount reservation)
    (hreserved : reserved.vector = (account ledger).reserved - amount reservation)
    (hcommitted : committed.vector = (account ledger).committed + observed) :
    LedgerStep ledger
      (write ledger reserved committed reservationId ⟨reservation.request, state⟩) := by
  obtain ⟨hlookup, hstate⟩ := active_eq_ok.mp hactive
  rw [LedgerStep, account_write, hreserved, hcommitted]
  exact .settle hlookup (phase_eq_active.mpr hstate) hclosed rfl hnonneg hle

theorem ledgerStep_hold {reservationId : String} {reservation : Reservation}
    (hactive : active ledger reservationId = .ok reservation) :
    LedgerStep ledger (write ledger (reservedBooks ledger) (committedBooks ledger) reservationId
      ⟨reservation.request, .unknown⟩) := by
  obtain ⟨hlookup, hstate⟩ := active_eq_ok.mp hactive
  rw [LedgerStep, account_write]
  exact .hold hlookup (phase_eq_active.mpr hstate) rfl rfl

/-- A page that is covered by the reserved amounts can be released exactly. -/
theorem exists_release (haccounted : Accounted quantum ledger)
    (hadmits : pythonContext.Admits quantum) {reservationId : String} {reservation : Reservation}
    (hactive : active ledger reservationId = .ok reservation)
    {allocations : List BudgetOwnerAllocation}
    (hallocations : reservation.request.allocations = .ok allocations) :
    ∃ parent owners, subtract ledger.reserved reservation.request.maximum = .ok parent ∧
      Dictionary.merge (combineOwner true) ledger.ownerReserved
        (shareItems BudgetOwnerAllocation.maximum allocations) = .ok owners ∧
      BooksBooked quantum (ceiling? ledger) ⟨parent, owners⟩ ∧
      (Books.mk parent owners).vector = (reservedBooks ledger).vector - amount reservation := by
  obtain ⟨hlookup, hstate⟩ := active_eq_ok.mp hactive
  have hpage := haccounted.pages reservationId reservation hlookup
  have hcovered : amount reservation ≤ (reservedBooks ledger).vector :=
    haccounted.consistent.amount_le_reserved hlookup (by simp [phase, hstate])
  have hceiling : (reservedBooks ledger).vector ≤ ceilingVector (ceiling? ledger) :=
    (le_add_of_nonneg_left haccounted.consistent.committed_nonneg).trans haccounted.consistent.fits
  rw [amount, page_eq hallocations] at hcovered ⊢
  rw [page_eq hallocations] at hpage
  exact exists_subtract_page hadmits haccounted.bounded haccounted.reserved
    (nodup_shareItems _ hallocations) hpage hcovered hceiling

theorem accepted_or_refused_reserve (haccounted : Accounted quantum ledger)
    (hadmits : pythonContext.Admits quantum) {request : ReservationRequest}
    (hquantum : RequestOnQuantum quantum request) :
    (∃ failure, (reserve request).run ledger = .error failure ledger) ∨
      Accepted quantum ledger (reserve request) := by
  cases hcheck : checkReserve ledger request with
  | error failure => exact Or.inl ⟨failure, run_reserve_of_error hcheck⟩
  | ok allocations =>
    right
    obtain ⟨⟨-, hfresh⟩, hallocations, -, -⟩ := checkReserve_eq_ok.mp hcheck
    obtain ⟨hpage, hfits⟩ := reserve_facts haccounted hadmits hquantum hcheck
    have hsum : (reservedBooks ledger).vector + (page request).vector ≤
        ceilingVector (ceiling? ledger) := by
      refine le_trans (add_le_add ?_ le_rfl) hfits
      exact le_add_of_nonneg_left haccounted.consistent.committed_nonneg
    have hpageEq := page_eq hallocations
    rw [hpageEq] at hsum
    obtain ⟨parent, owners, hparent, howners, hbooked, hvector⟩ := exists_add_page hadmits
      haccounted.bounded haccounted.reserved (nodup_shareItems _ hallocations) (hpageEq ▸ hpage)
      hsum
    rw [← hpageEq] at hvector
    have hstep := ledgerStep_reserve hfresh hfits hvector
    refine accepted_of_write haccounted ?_ hbooked haccounted.committed hpage
      ⟨allocations, hallocations⟩ hstep
    exact run_reserve_of_ok hcheck hparent howners

theorem accepted_or_refused_markUnknown (haccounted : Accounted quantum ledger)
    (reservationId : String) :
    (∃ failure, (markUnknown reservationId).run ledger = .error failure ledger) ∨
      Accepted quantum ledger (markUnknown reservationId) := by
  cases hactive : active ledger reservationId with
  | error failure => exact Or.inl ⟨failure, run_markUnknown_of_error hactive⟩
  | ok reservation =>
    obtain ⟨hlookup, -⟩ := active_eq_ok.mp hactive
    refine Or.inr (accepted_of_write haccounted ?_ haccounted.reserved haccounted.committed
      (haccounted.pages reservationId reservation hlookup)
      (haccounted.allocated reservationId reservation hlookup) (ledgerStep_hold hactive))
    exact run_markUnknown_of_ok hactive

theorem accepted_or_refused_cancelBeforeDispatch (haccounted : Accounted quantum ledger)
    (hadmits : pythonContext.Admits quantum) (reservationId : String) :
    (∃ failure, (cancelBeforeDispatch reservationId).run ledger = .error failure ledger) ∨
      Accepted quantum ledger (cancelBeforeDispatch reservationId) := by
  cases hactive : active ledger reservationId with
  | error failure => exact Or.inl ⟨failure, run_cancelBeforeDispatch_of_error hactive⟩
  | ok reservation =>
    obtain ⟨hlookup, -⟩ := active_eq_ok.mp hactive
    obtain ⟨allocations, hallocations⟩ := haccounted.allocated reservationId reservation hlookup
    obtain ⟨parent, owners, hparent, howners, hbooked, hvector⟩ :=
      exists_release haccounted hadmits hactive hallocations
    have hclosed : phase ⟨reservation.request, .cancelled⟩ = .closed := rfl
    have hstep := ledgerStep_settle hactive hclosed le_rfl
      (amount_nonneg reservation) hvector (add_zero _).symm
    refine Or.inr (accepted_of_write haccounted ?_ hbooked haccounted.committed
      (haccounted.pages reservationId reservation hlookup) ⟨allocations, hallocations⟩ hstep)
    exact run_cancelBeforeDispatch_of_ok hactive hparent hallocations howners

/-- The page that a commit books is booked under the ceilings and covered by the reservation. -/
theorem observed_page_facts (haccounted : Accounted quantum ledger) {observed : BudgetAmount}
    {reservationId : String} {reservation : Reservation}
    (hlookup : ledger.reservations.lookup reservationId = some reservation)
    (hquantum : ExactAccounts.OnQuantum quantum observed)
    (hfits : Fits observed reservation.request.maximum)
    {allocations : List BudgetOwnerAllocation}
    (hallocations : reservation.request.allocations = .ok allocations)
    {share : BudgetOwnerAllocation → BudgetAmount}
    (hshare : ∀ allocation ∈ allocations, Fits (share allocation) allocation.maximum ∧
      ExactAccounts.OnQuantum quantum (share allocation)) :
    PageBooked quantum (ceiling? ledger) ⟨observed, Dictionary.ofList (shareItems share allocations)⟩ ∧
      (Books.mk observed (Dictionary.ofList (shareItems share allocations))).vector ≤
        amount reservation := by
  have hpage := haccounted.pages reservationId reservation hlookup
  -- Every account of the observed page has a counterpart in the reserved page that covers it.
  have hcovered : ∀ name found,
      (Books.mk observed (Dictionary.ofList (shareItems share allocations))).amount? name =
        some found → ∃ ceiling maximum, ceiling? ledger name = some ceiling ∧
          (page reservation.request).amount? name = some maximum ∧
          Booked quantum ceiling maximum ∧ Fits found maximum ∧
          ExactAccounts.OnQuantum quantum found := by
    intro name found hamount
    rcases amount_sharePage hamount with ⟨rfl, rfl⟩ | ⟨allocation, hmem, rfl, rfl⟩
    · obtain ⟨ceiling, hceiling, hbooked⟩ := hpage none reservation.request.maximum rfl
      exact ⟨ceiling, _, hceiling, rfl, hbooked, hfits, hquantum⟩
    · obtain ⟨ceiling, hceiling, hbooked⟩ :=
        hpage _ _ (amount_page_of_mem hallocations hmem)
      exact ⟨ceiling, _, hceiling, amount_page_of_mem hallocations hmem, hbooked,
        hshare allocation hmem⟩
  refine ⟨fun name found hamount ↦ ?_, fun name dimension ↦ ?_⟩
  · obtain ⟨ceiling, maximum, hceiling, -, hbooked, hfound, hfoundQuantum⟩ :=
      hcovered name found hamount
    have hbounded := haccounted.bounded name ceiling hceiling
    refine ⟨ceiling, hceiling, fits_trans hfound hbooked.fits fun dimension ↦ ?_,
      hfoundQuantum⟩
    exact ⟨_, ceiling_amount_eq hbounded dimension⟩
  · cases hamount : (Books.mk observed
        (Dictionary.ofList (shareItems share allocations))).amount? name with
    | none =>
      rw [Books.vector_of_none hamount]
      exact amount_nonneg reservation name dimension
    | some found =>
      obtain ⟨ceiling, maximum, hceiling, hmaximum, hbooked, hfound, -⟩ :=
        hcovered name found hamount
      have hbounded := haccounted.bounded name ceiling hceiling
      have hfoundCeiling := fits_trans hfound hbooked.fits
        fun dimension ↦ ⟨_, ceiling_amount_eq hbounded dimension⟩
      have hle := hfound.amount_le dimension
      rw [amount_eq_value hbounded hfoundCeiling, amount_eq_value hbounded hbooked.fits,
        Decimal.finite_le_finite] at hle
      rw [Books.vector_of_amount hamount, amount, Books.vector_of_amount hmaximum]
      exact hle

theorem accepted_or_refused_commit (haccounted : Accounted quantum ledger)
    (hadmits : pythonContext.Admits quantum) {reservationId : String} {observed : BudgetAmount}
    {ownerObserved : Option (List BudgetOwnerAllocation)}
    (hquantum : (Call.commit reservationId observed ownerObserved).OnQuantum quantum) :
    (∃ failure,
      (commit reservationId observed ownerObserved).run ledger = .error failure ledger) ∨
      Accepted quantum ledger (commit reservationId observed ownerObserved) := by
  cases hcheck : checkCommit ledger reservationId observed ownerObserved with
  | error failure => exact Or.inl ⟨failure, run_commit_of_error hcheck⟩
  | ok checked =>
    obtain ⟨reservation, observedByOwner⟩ := checked
    obtain ⟨hactive, hfits, hobserved⟩ := of_checkCommit hcheck
    obtain ⟨hlookup, -⟩ := active_eq_ok.mp hactive
    obtain ⟨allocations, hallocations⟩ := haccounted.allocated reservationId reservation hlookup
    have hpage := haccounted.pages reservationId reservation hlookup
    have hexists : ∀ allocation ∈ allocations, ∃ share,
        ownerCommit reservation.request observed observedByOwner allocation = .ok share ∧
          Fits share allocation.maximum ∧ ExactAccounts.OnQuantum quantum share := by
      intro allocation hmem
      obtain ⟨share, hshare, hshareFits, horigin⟩ :=
        exists_ownerCommit hallocations hfits hobserved hmem
      refine ⟨share, hshare, hshareFits, ?_⟩
      rcases horigin with rfl | rfl | ⟨observations, hobservations, observation, hmember, rfl⟩
      · obtain ⟨ceiling, -, hbooked⟩ := hpage _ _ (amount_page_of_mem hallocations hmem)
        exact hbooked.onQuantum
      · exact hquantum.1
      · exact hquantum.2 observations hobservations observation hmember
    choose! share hshare hshareFacts using hexists
    obtain ⟨hobservedPage, hcovered⟩ := observed_page_facts haccounted hlookup hquantum.1 hfits
      hallocations hshareFacts
    obtain ⟨parent, owners, hparent, howners, hbooked, hvector⟩ :=
      exists_release haccounted hadmits hactive hallocations
    have hsum : (committedBooks ledger).vector + (Books.mk observed
        (Dictionary.ofList (shareItems share allocations))).vector ≤
          ceilingVector (ceiling? ledger) := by
      refine le_trans (add_le_add le_rfl (hcovered.trans ?_)) haccounted.consistent.fits
      exact haccounted.consistent.amount_le_reserved hlookup
        (by simp [phase, (active_eq_ok.mp hactive).2])
    obtain ⟨committedParent, committedOwners, hcommittedParent, hcommittedOwners, hcommittedBooked,
      hcommittedVector⟩ := exists_add_page hadmits haccounted.bounded haccounted.committed
        (nodup_shareItems share hallocations) hobservedPage hsum
    have hclosed : phase ⟨reservation.request, .committed⟩ = .closed := rfl
    have hstep := ledgerStep_settle hactive hclosed (Books.vector_nonneg _)
      hcovered hvector hcommittedVector
    refine Or.inr (accepted_of_write haccounted ?_ hbooked hcommittedBooked hpage
      ⟨allocations, hallocations⟩ hstep)
    exact run_commit_of_ok hcheck hparent hcommittedParent hallocations hshare howners
      hcommittedOwners

/-- Every call on the quantum is refused without a change or is one step of the account. -/
theorem Call.simulates (haccounted : Accounted quantum ledger)
    (hadmits : pythonContext.Admits quantum) {call : Call} (hquantum : call.OnQuantum quantum) :
    (∃ failure, call.operation.run ledger = .error failure ledger) ∨
      Accepted quantum ledger call.operation := by
  cases call with
  | reserve request => exact accepted_or_refused_reserve haccounted hadmits hquantum
  | commit reservationId observed ownerObserved =>
    exact accepted_or_refused_commit haccounted hadmits hquantum
  | cancelBeforeDispatch reservationId =>
    exact accepted_or_refused_cancelBeforeDispatch haccounted hadmits reservationId
  | markUnknown reservationId => exact accepted_or_refused_markUnknown haccounted reservationId

end Step

end Oamb.Runtime.LedgerRuns
