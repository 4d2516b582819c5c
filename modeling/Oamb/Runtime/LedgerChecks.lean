import Oamb.Foundation.ReservationAccount
import Oamb.Runtime.LedgerBooks

/-!
# What the checks of a ledger establish

A ledger is accounted for when its reserved and committed amounts are booked under its ceilings and
its reservations are a consistent account of them. In such a ledger `reserve_facts` says that an
accepted reservation books a page that still fits, and `commit_facts` that an accepted commit
observes at most the page of an active reservation.
-/

set_option autoImplicit false

namespace Oamb.Runtime.LedgerChecks

open Foundation Foundation.DecimalContext Foundation.ReservationAccount
open Foundation.StatefulExecution
open ResourceAmounts ResourceArithmetic ExactAccounts LedgerOperations LedgerExecution LedgerBooks

/-! ### The ledger as an account -/

/-- The ceiling of an account. -/
def ceiling? (ledger : BudgetLedger) : AccountName → Option BudgetAmount
  | none => some ledger.parentCeiling.maximum
  | some owner => (ledger.ownerCeilings.lookup owner).map BudgetCeiling.maximum

/-- The reserved amounts. -/
def reservedBooks (ledger : BudgetLedger) : Books := ⟨ledger.reserved, ledger.ownerReserved⟩

/-- The committed amounts. -/
def committedBooks (ledger : BudgetLedger) : Books := ⟨ledger.committed, ledger.ownerCommitted⟩

/-- The page of a request: its maximum and the allocations of its owners. -/
def page (request : ReservationRequest) : Books where
  parent := request.maximum
  owners := match request.allocations with
    | .ok allocations => amountsByOwner allocations
    | .error _ => ∅

/-- The vector of a reservation. -/
def amount (reservation : Reservation) : AmountVector := (page reservation.request).vector

/-- The phase of a reservation. -/
def phase (reservation : Reservation) : Phase :=
  match reservation.state with
  | .reserved => .active
  | .unknown => .held
  | .committed | .cancelled => .closed

/-- The ledger as an account over the vectors of amounts. -/
def account (ledger : BudgetLedger) : Account String Reservation AmountVector where
  reserved := (reservedBooks ledger).vector
  committed := (committedBooks ledger).vector
  entries := ledger.reservations

/-- A ledger whose amounts are booked under its ceilings and whose reservations account for them. -/
structure Accounted (quantum : ℤ) (ledger : BudgetLedger) : Prop where
  bounded : ∀ name ceiling, ceiling? ledger name = some ceiling → Bounded quantum ceiling
  reserved : BooksBooked quantum (ceiling? ledger) (reservedBooks ledger)
  committed : BooksBooked quantum (ceiling? ledger) (committedBooks ledger)
  pages : ∀ reservationId reservation, ledger.reservations.lookup reservationId = some reservation →
    PageBooked quantum (ceiling? ledger) (page reservation.request)
  allocated : ∀ reservationId reservation,
    ledger.reservations.lookup reservationId = some reservation →
    ∃ allocations, reservation.request.allocations = .ok allocations
  consistent : Consistent amount phase (ceilingVector (ceiling? ledger)) (account ledger)

theorem phase_eq_active {reservation : Reservation} :
    phase reservation = .active ↔ reservation.state = .reserved := by
  unfold phase
  cases reservation.state <;> simp

theorem getItem_eq_ok {ν : Type} {dictionary : Dictionary String ν} {key : String} {stored : ν} :
    getItem dictionary key = .ok stored ↔ dictionary.lookup key = some stored := by
  unfold getItem
  cases dictionary.lookup key <;> simp

theorem active_eq_ok {ledger : BudgetLedger} {reservationId : String} {reservation : Reservation} :
    active ledger reservationId = .ok reservation ↔
      ledger.reservations.lookup reservationId = some reservation ∧
        reservation.state = .reserved := by
  unfold active
  cases hlookup : ledger.reservations.lookup reservationId with
  | none => simp
  | some stored =>
    by_cases hstate : stored.state = .reserved
    · simp only [hstate, ne_eq, not_true_eq_false, if_false, Except.ok.injEq, Option.some.injEq]
      exact ⟨fun heq ↦ ⟨heq, heq ▸ hstate⟩, And.left⟩
    · simp only [ne_eq, hstate, not_false_eq_true, if_true, Option.some.injEq, reduceCtorEq,
        false_iff, not_and]
      exact fun heq ↦ heq ▸ hstate

/-! ### Allocations -/

section Allocations

variable {request : ReservationRequest} {allocations : List BudgetOwnerAllocation}

theorem allocations_eq_ok (hallocations : request.allocations = .ok allocations) :
    (request.ownerAllocations ≠ [] ∧ allocations = request.ownerAllocations) ∨
      (request.ownerAllocations = [] ∧
        ∃ allocation : BudgetOwnerAllocation, allocations = [allocation] ∧
          allocation.maximum = request.maximum) := by
  unfold ReservationRequest.allocations at hallocations
  split_ifs at hallocations with howners
  · exact Or.inl ⟨howners, (Except.ok.inj hallocations).symm⟩
  · refine Or.inr ⟨not_not.mp howners, ?_⟩
    split at hallocations
    · rename_i allocation hcreate
      refine ⟨allocation, (Except.ok.inj hallocations).symm, ?_⟩
      unfold BudgetOwnerAllocation.create at hcreate
      split_ifs at hcreate
      exact (Except.ok.inj hcreate) ▸ rfl
    · cases hallocations

theorem nodup_allocations (hallocations : request.allocations = .ok allocations) :
    (allocations.map BudgetOwnerAllocation.ownerId).Nodup := by
  rcases allocations_eq_ok hallocations with ⟨howners, rfl⟩ | ⟨-, allocation, rfl, -⟩
  · exact (request.valid.multipleOwners howners).2.2
  · simp

theorem nodup_shareItems (share : BudgetOwnerAllocation → BudgetAmount)
    (hallocations : request.allocations = .ok allocations) :
    ((shareItems share allocations).map Prod.fst).Nodup := by
  rw [shareItems, List.map_map]
  exact nodup_allocations hallocations

theorem page_eq (hallocations : request.allocations = .ok allocations) :
    page request = ⟨request.maximum,
      Dictionary.ofList (shareItems BudgetOwnerAllocation.maximum allocations)⟩ := by
  rw [page, hallocations]
  rfl

/-- The accounts of a page whose shares are given for every allocation. -/
theorem amount_sharePage {parentShare : BudgetAmount} {share : BudgetOwnerAllocation → BudgetAmount}
    {name : AccountName} {found : BudgetAmount}
    (hamount : (Books.mk parentShare
      (Dictionary.ofList (shareItems share allocations))).amount? name = some found) :
    (name = none ∧ found = parentShare) ∨
      ∃ allocation ∈ allocations, name = some allocation.ownerId ∧ found = share allocation := by
  cases name with
  | none => exact Or.inl ⟨rfl, (Option.some.inj hamount).symm⟩
  | some owner =>
    obtain ⟨allocation, hmem, heq⟩ := List.mem_map.mp (Dictionary.mem_of_lookup_ofList hamount)
    cases heq
    exact Or.inr ⟨allocation, hmem, rfl, rfl⟩

theorem amount_page_of_mem (hallocations : request.allocations = .ok allocations)
    {allocation : BudgetOwnerAllocation} (hmem : allocation ∈ allocations) :
    (page request).amount? (some allocation.ownerId) = some allocation.maximum := by
  rw [page_eq hallocations]
  exact (Dictionary.lookup_ofList (nodup_shareItems _ hallocations)).mpr
    (List.mem_map.mpr ⟨allocation, hmem, rfl⟩)

end Allocations

/-! ### Accepted reservations -/

section Reserve

variable {quantum : ℤ} {ledger : BudgetLedger}

theorem Accounted.committed_add_reserved_le (haccounted : Accounted quantum ledger)
    (name : AccountName) (dimension : Dimension) :
    (committedBooks ledger).vector name dimension + (reservedBooks ledger).vector name dimension ≤
      ceilingVector (ceiling? ledger) name dimension :=
  haccounted.consistent.fits name dimension

/-- The committed and reserved amounts of an account are added exactly. -/
theorem Accounted.exists_add (haccounted : Accounted quantum ledger)
    (hadmits : pythonContext.Admits quantum) {name : AccountName} {ceiling : BudgetAmount}
    (hceiling : ceiling? ledger name = some ceiling) :
    ∃ committed reserved total, (committedBooks ledger).amount? name = some committed ∧
      (reservedBooks ledger).amount? name = some reserved ∧ add committed reserved = .ok total ∧
      Booked quantum ceiling total ∧
      ∀ dimension, value total dimension = value committed dimension + value reserved dimension := by
  obtain ⟨committed, hcommitted⟩ := haccounted.committed.listed name ceiling hceiling
  obtain ⟨reserved, hreserved⟩ := haccounted.reserved.listed name ceiling hceiling
  obtain ⟨first, hfirst, hcommittedBooked⟩ := haccounted.committed.page name committed hcommitted
  obtain ⟨second, hsecond, hreservedBooked⟩ := haccounted.reserved.page name reserved hreserved
  obtain rfl : ceiling = first := Option.some.inj (hceiling.symm.trans hfirst)
  obtain rfl : ceiling = second := Option.some.inj (hceiling.symm.trans hsecond)
  have hle : ∀ dimension, exactOperation false (value committed dimension)
      (value reserved dimension) ≤ value ceiling dimension := by
    intro dimension
    have hfits := haccounted.committed_add_reserved_le name dimension
    rwa [Books.vector_of_amount hcommitted, Books.vector_of_amount hreserved,
      ceilingVector_of_some hceiling] at hfits
  have hnonneg : ∀ dimension, 0 ≤ exactOperation false (value committed dimension)
      (value reserved dimension) :=
    fun dimension ↦ add_nonneg (value_nonneg _ _) (value_nonneg _ _)
  obtain ⟨total, htotal, hbooked, hvalue⟩ := Booked.exists_combine hadmits
    (haccounted.bounded name ceiling hceiling) hcommittedBooked hreservedBooked hnonneg hle
  exact ⟨committed, reserved, total, hcommitted, hreserved, htotal, hbooked, hvalue⟩

/-- A share whose candidate amount fits the ceiling of its account is booked, and it fits exactly. -/
theorem Accounted.share_of_candidate (haccounted : Accounted quantum ledger)
    (hadmits : pythonContext.Admits quantum) {name : AccountName}
    {ceiling committed reserved booked candidate share : BudgetAmount}
    (hceiling : ceiling? ledger name = some ceiling)
    (hcommitted : (committedBooks ledger).amount? name = some committed)
    (hreserved : (reservedBooks ledger).amount? name = some reserved)
    (hbooked : add committed reserved = .ok booked) (hshare : OnQuantum quantum share)
    (hcandidate : add booked share = .ok candidate) (hfits : Fits candidate ceiling) :
    Booked quantum ceiling share ∧ ∀ dimension,
      (committedBooks ledger).vector name dimension + (reservedBooks ledger).vector name dimension +
        value share dimension ≤ ceilingVector (ceiling? ledger) name dimension := by
  obtain ⟨first, second, total, hfirst, hsecond, htotal, htotalBooked, hvalue⟩ :=
    haccounted.exists_add hadmits hceiling
  obtain rfl : committed = first := Option.some.inj (hcommitted.symm.trans hfirst)
  obtain rfl : reserved = second := Option.some.inj (hreserved.symm.trans hsecond)
  obtain rfl : booked = total := Except.ok.inj (hbooked.symm.trans htotal)
  obtain ⟨hshareBooked, hle⟩ := Booked.of_add_fits hadmits
    (haccounted.bounded name ceiling hceiling) htotalBooked hshare hcandidate hfits
  refine ⟨hshareBooked, fun dimension ↦ ?_⟩
  rw [Books.vector_of_amount hcommitted, Books.vector_of_amount hreserved,
    ceilingVector_of_some hceiling, ← hvalue]
  exact hle dimension

theorem checkOwner_eq_ok {allocation : BudgetOwnerAllocation} :
    checkOwner ledger allocation = .ok () ↔ ∃ ceiling committed reserved booked candidate,
      ceiling? ledger (some allocation.ownerId) = some ceiling ∧
      (committedBooks ledger).amount? (some allocation.ownerId) = some committed ∧
      (reservedBooks ledger).amount? (some allocation.ownerId) = some reserved ∧
      add committed reserved = .ok booked ∧ add booked allocation.maximum = .ok candidate ∧
      Fits candidate ceiling := by
  unfold checkOwner
  cases hlookup : ledger.ownerCeilings.lookup allocation.ownerId with
  | none => simp [ceiling?, hlookup]
  | some ceiling =>
    simp only [bind_eq_ok, getItem_eq_ok, requireFits_eq_ok]
    constructor
    · rintro ⟨committed, hcommitted, reserved, hreserved, booked, hbooked, candidate, hcandidate,
        hfits⟩
      exact ⟨ceiling.maximum, committed, reserved, booked, candidate, by simp [ceiling?, hlookup],
        hcommitted, hreserved, hbooked, hcandidate, hfits⟩
    · rintro ⟨maximum, committed, reserved, booked, candidate, hmaximum, hcommitted, hreserved,
        hbooked, hcandidate, hfits⟩
      obtain rfl : ceiling.maximum = maximum := by simpa [ceiling?, hlookup] using hmaximum
      exact ⟨committed, hcommitted, reserved, hreserved, booked, hbooked, candidate, hcandidate,
        hfits⟩

theorem checkReserve_eq_ok {request : ReservationRequest}
    {allocations : List BudgetOwnerAllocation} :
    checkReserve ledger request = .ok allocations ↔
      (request.reservationId ≠ "" ∧ request.reservationId ∉ ledger.reservations) ∧
      request.allocations = .ok allocations ∧
      (∃ booked candidate, add ledger.committed ledger.reserved = .ok booked ∧
        add booked request.maximum = .ok candidate ∧
        Fits candidate ledger.parentCeiling.maximum) ∧
      ∀ allocation ∈ allocations, checkOwner ledger allocation = .ok () := by
  unfold checkReserve
  by_cases hidentity :
      request.reservationId = "" ∨ request.reservationId ∈ ledger.reservations
  · rw [if_pos hidentity]
    constructor
    · intro hok
      cases hok
    · rintro ⟨⟨hne, hfresh⟩, -⟩
      exact absurd hidentity (not_or.mpr ⟨hne, hfresh⟩)
  · rw [if_neg hidentity]
    rw [not_or] at hidentity
    simp only [bind_eq_ok]
    constructor
    · rintro ⟨booked, hbooked, candidate, hcandidate, ⟨⟩, hfits, found, hfound, ⟨⟩, howners, heq⟩
      cases heq
      exact ⟨hidentity, hfound, ⟨booked, candidate, hbooked, hcandidate,
        requireFits_eq_ok.mp hfits⟩, forM_eq_ok.mp howners⟩
    · rintro ⟨-, hfound, ⟨booked, candidate, hbooked, hcandidate, hfits⟩, howners⟩
      exact ⟨booked, hbooked, candidate, hcandidate, (), requireFits_eq_ok.mpr hfits, allocations,
        hfound, (), forM_eq_ok.mpr howners, rfl⟩

/-- The amounts of a request lie on the quantum. -/
def RequestOnQuantum (quantum : ℤ) (request : ReservationRequest) : Prop :=
  OnQuantum quantum request.maximum ∧
    ∀ allocation ∈ request.ownerAllocations, OnQuantum quantum allocation.maximum

theorem RequestOnQuantum.allocation {request : ReservationRequest}
    (hquantum : RequestOnQuantum quantum request) {allocations : List BudgetOwnerAllocation}
    (hallocations : request.allocations = .ok allocations) {allocation : BudgetOwnerAllocation}
    (hmem : allocation ∈ allocations) : OnQuantum quantum allocation.maximum := by
  rcases allocations_eq_ok hallocations with ⟨-, rfl⟩ | ⟨-, single, rfl, hmaximum⟩
  · exact hquantum.2 allocation hmem
  · rw [List.mem_singleton.mp hmem, hmaximum]
    exact hquantum.1

/-- An accepted reservation books a page that fits on top of the committed and reserved amounts. -/
theorem reserve_facts (haccounted : Accounted quantum ledger)
    (hadmits : pythonContext.Admits quantum) {request : ReservationRequest}
    (hquantum : RequestOnQuantum quantum request) {allocations : List BudgetOwnerAllocation}
    (hcheck : checkReserve ledger request = .ok allocations) :
    PageBooked quantum (ceiling? ledger) (page request) ∧
      (committedBooks ledger).vector + (reservedBooks ledger).vector + (page request).vector ≤
        ceilingVector (ceiling? ledger) := by
  obtain ⟨-, hallocations, ⟨booked, candidate, hbooked, hcandidate, hfits⟩, howners⟩ :=
    checkReserve_eq_ok.mp hcheck
  have hshare : ∀ name share, (page request).amount? name = some share →
      ∃ ceiling, ceiling? ledger name = some ceiling ∧ Booked quantum ceiling share ∧
        ∀ dimension, (committedBooks ledger).vector name dimension +
          (reservedBooks ledger).vector name dimension + value share dimension ≤
            ceilingVector (ceiling? ledger) name dimension := by
    intro name share hamount
    rw [page_eq hallocations] at hamount
    rcases amount_sharePage hamount with ⟨rfl, rfl⟩ | ⟨allocation, hmem, rfl, rfl⟩
    · exact ⟨_, rfl, haccounted.share_of_candidate hadmits rfl rfl rfl hbooked hquantum.1 hcandidate
        hfits⟩
    · obtain ⟨ceiling, committed, reserved, total, sum, hceiling, hcommitted, hreserved, htotal, hsum,
        hsumFits⟩ := checkOwner_eq_ok.mp (howners allocation hmem)
      exact ⟨ceiling, hceiling, haccounted.share_of_candidate hadmits hceiling hcommitted hreserved
        htotal (hquantum.allocation hallocations hmem) hsum hsumFits⟩
  refine ⟨fun name share hamount ↦ ?_, fun name dimension ↦ ?_⟩
  · obtain ⟨ceiling, hceiling, hshareBooked, -⟩ := hshare name share hamount
    exact ⟨ceiling, hceiling, hshareBooked⟩
  · rw [Pi.add_apply, Pi.add_apply, Pi.add_apply, Pi.add_apply]
    cases hamount : (page request).amount? name with
    | none =>
      rw [Books.vector_of_none hamount, add_zero]
      exact haccounted.committed_add_reserved_le name dimension
    | some share =>
      obtain ⟨-, -, -, hle⟩ := hshare name share hamount
      rw [Books.vector_of_amount hamount]
      exact hle dimension

end Reserve

/-! ### Accepted commits -/

section Commit

variable {quantum : ℤ} {ledger : BudgetLedger}

theorem fits_refl (budget : BudgetAmount) : Fits budget budget := by
  refine ⟨fun dimension ↦ ?_, fun _ _ hunit ↦ hunit⟩
  cases hamount : budget.amount dimension with
  | finite number => exact (Decimal.finite_le_finite _ _).mpr le_rfl
  | infinity negative => cases negative <;> decide

theorem mem_keys_amountsByOwner {allocations : List BudgetOwnerAllocation} {owner : String} :
    owner ∈ (amountsByOwner allocations).keys ↔
      ∃ amount, (amountsByOwner allocations).lookup owner = some amount := by
  rw [← AList.mem_keys, ← AList.lookup_isSome, Option.isSome_iff_exists]

theorem of_checkOwnerObserved {request : ReservationRequest}
    {observations : List BudgetOwnerAllocation} {observedByOwner : Dictionary String BudgetAmount}
    (hcheck : checkOwnerObserved request observations = .ok observedByOwner) :
    request.ownerAllocations ≠ [] ∧ observedByOwner = amountsByOwner observations ∧
      (amountsByOwner request.ownerAllocations).keys ⊆ (amountsByOwner observations).keys ∧
      ∀ observation ∈ observations, ∃ maximum,
        (amountsByOwner request.ownerAllocations).lookup observation.ownerId = some maximum ∧
          Fits observation.maximum maximum := by
  unfold checkOwnerObserved at hcheck
  by_cases hlegacy : request.ownerAllocations = []
  · rw [if_pos hlegacy] at hcheck
    cases hcheck
  · rw [if_neg hlegacy] at hcheck
    simp only at hcheck
    by_cases hinventory :
        (amountsByOwner observations).keys.length ≠ observations.length ∨
          ¬ ((amountsByOwner observations).keys ⊆
              (amountsByOwner request.ownerAllocations).keys ∧
            (amountsByOwner request.ownerAllocations).keys ⊆
              (amountsByOwner observations).keys)
    · rw [if_pos hinventory] at hcheck
      cases hcheck
    · rw [if_neg hinventory] at hcheck
      have hkeys := not_not.mp (not_or.mp hinventory).2
      obtain ⟨⟨⟩, hfits, heq⟩ := bind_eq_ok.mp hcheck
      cases heq
      refine ⟨hlegacy, rfl, hkeys.2, fun observation hmem ↦ ?_⟩
      obtain ⟨maximum, hmaximum, hobservation⟩ :=
        bind_eq_ok.mp (forM_eq_ok.mp hfits observation hmem)
      exact ⟨maximum, getItem_eq_ok.mp hmaximum, requireFits_eq_ok.mp hobservation⟩

theorem of_checkCommit {reservationId : String} {observed : BudgetAmount}
    {ownerObserved : Option (List BudgetOwnerAllocation)} {reservation : Reservation}
    {observedByOwner : Option (Dictionary String BudgetAmount)}
    (hcheck : checkCommit ledger reservationId observed ownerObserved =
      .ok (reservation, observedByOwner)) :
    active ledger reservationId = .ok reservation ∧
      Fits observed reservation.request.maximum ∧
      ((ownerObserved = none ∧ observedByOwner = none) ∨
        ∃ observations byOwner, ownerObserved = some observations ∧
          observedByOwner = some byOwner ∧
          checkOwnerObserved reservation.request observations = .ok byOwner) := by
  unfold checkCommit at hcheck
  obtain ⟨found, hactive, hrest⟩ := bind_eq_ok.mp hcheck
  obtain ⟨⟨⟩, hfits, hobservations⟩ := bind_eq_ok.mp hrest
  cases ownerObserved with
  | none =>
    cases hobservations
    exact ⟨hactive, requireFits_eq_ok.mp hfits, Or.inl ⟨rfl, rfl⟩⟩
  | some observations =>
    obtain ⟨byOwner, hbyOwner, heq⟩ := bind_eq_ok.mp hobservations
    cases heq
    exact ⟨hactive, requireFits_eq_ok.mp hfits,
      Or.inr ⟨observations, byOwner, rfl, rfl, hbyOwner⟩⟩

/-- What a commit books for an owner fits the allocation of the owner. -/
theorem exists_ownerCommit {request : ReservationRequest}
    {allocations : List BudgetOwnerAllocation} {observed : BudgetAmount}
    {ownerObserved : Option (List BudgetOwnerAllocation)}
    {observedByOwner : Option (Dictionary String BudgetAmount)}
    (hallocations : request.allocations = .ok allocations) (hfits : Fits observed request.maximum)
    (hobserved : (ownerObserved = none ∧ observedByOwner = none) ∨
      ∃ observations byOwner, ownerObserved = some observations ∧
        observedByOwner = some byOwner ∧ checkOwnerObserved request observations = .ok byOwner)
    {allocation : BudgetOwnerAllocation} (hmem : allocation ∈ allocations) :
    ∃ share, ownerCommit request observed observedByOwner allocation = .ok share ∧
      Fits share allocation.maximum ∧ (share = allocation.maximum ∨ share = observed ∨
        ∃ observations, ownerObserved = some observations ∧
          ∃ observation ∈ observations, share = observation.maximum) := by
  rcases hobserved with ⟨rfl, rfl⟩ | ⟨observations, byOwner, rfl, rfl, hcheck⟩
  · rcases allocations_eq_ok hallocations with ⟨howners, rfl⟩ | ⟨howners, single, rfl, hmaximum⟩
    · exact ⟨allocation.maximum, by rw [ownerCommit, if_pos howners], fits_refl _, Or.inl rfl⟩
    · refine ⟨observed, by rw [ownerCommit, if_neg (not_not.mpr howners)], ?_, Or.inr (Or.inl rfl)⟩
      rw [List.mem_singleton.mp hmem, hmaximum]
      exact hfits
  · obtain ⟨howners, rfl, hkeys, hobservations⟩ := of_checkOwnerObserved hcheck
    obtain rfl : allocations = request.ownerAllocations := by
      rcases allocations_eq_ok hallocations with ⟨-, heq⟩ | ⟨hlegacy, -⟩
      · exact heq
      · exact absurd hlegacy howners
    have hreserved : (amountsByOwner request.ownerAllocations).lookup allocation.ownerId =
        some allocation.maximum :=
      (Dictionary.lookup_ofList (nodup_shareItems BudgetOwnerAllocation.maximum hallocations)).mpr
        (List.mem_map.mpr ⟨allocation, hmem, rfl⟩)
    obtain ⟨share, hshare⟩ :=
      mem_keys_amountsByOwner.mp (hkeys (mem_keys_amountsByOwner.mpr ⟨_, hreserved⟩))
    obtain ⟨observation, hobservation, heq⟩ :=
      List.mem_map.mp (Dictionary.mem_of_lookup_ofList hshare)
    rw [Prod.mk.injEq] at heq
    obtain ⟨maximum, hmaximum, hshareFits⟩ := hobservations observation hobservation
    rw [heq.1, hreserved, Option.some.injEq] at hmaximum
    rw [heq.2, ← hmaximum] at hshareFits
    exact ⟨share, getItem_eq_ok.mpr hshare, hshareFits,
      Or.inr (Or.inr ⟨observations, rfl, observation, hobservation, heq.2.symm⟩)⟩

end Commit

end Oamb.Runtime.LedgerChecks
