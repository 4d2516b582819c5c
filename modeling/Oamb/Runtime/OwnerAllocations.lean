import Oamb.Foundation.RoundedSums
import Oamb.Runtime.AttemptGuarantees

/-!
# The shares of the owners of a reservation

A version 3 reservation has a share for each owner, and its amounts are the sums of the shares
(`ReservationCloses`). When the provider units of a maximum are those of the owners, each owner has
its runtime share (`exists_runtimeOwnerAllocations`), with all units of its provider under the last
of the dimensions of the provider. A sum of shares is read dimension by dimension (`exists_sum`).
-/

set_option autoImplicit false

namespace Oamb.Runtime.OwnerAllocations

open Foundation Foundation.DecimalContext Foundation.RoundedSums Foundation.StatefulExecution
open Contracts.AttemptRecords ResourceAmounts ResourceArithmetic LedgerOperations AttemptCoordinator
open AttemptGuarantees

/-! ### The closure of a reservation -/

/-- `sum(values, Decimal("0"))`. -/
def sumDecimals (values : List ℚ) : Except Signal Decimal :=
  (values.map .finite).foldlM pythonContext.add 0

/-- Add a resource to the sums so far, in the order of their first appearance. -/
def addResource (before : List ResourceAmount) (resource : ResourceBudgetCeiling) :
    Except BudgetError (List ResourceAmount) :=
  match before.find? fun item ↦ item.1 = resource.dimensionId with
  | some stored =>
    if stored.2.2 ≠ resource.unit then .error (.valueError "allocation resource units disagree")
    else do
      let amount ← decimalOperation false stored.2.1 (.finite resource.maximum)
      pure (before.map fun item ↦
        if item.1 = resource.dimensionId then (item.1, amount, item.2.2) else item)
  | none => do
    let amount ← decimalOperation false 0 (.finite resource.maximum)
    pure (before ++ [(resource.dimensionId, amount, resource.unit)])

def sumAllocationResources (allocations : List OwnerAllocationRecord) :
    Except BudgetError (List ResourceAmount) :=
  (allocations.flatMap OwnerAllocationRecord.allocatedResourceCeilings).foldlM addResource []

/-- What the fields of a share and its validator say. -/
structure AllocationCloses (allocation : OwnerAllocationRecord) : Prop where
  ownerId : allocation.ownerId ≠ ""
  attempts : 0 < allocation.allocatedAttempts
  inputTokens : 0 ≤ allocation.allocatedInputTokens
  outputTokens : 0 ≤ allocation.allocatedOutputTokens
  wallSeconds : 0 ≤ allocation.allocatedDispatchWallSeconds
  providerUnits : 0 ≤ allocation.allocatedProviderUnits
  cost : 0 ≤ allocation.allocatedCost.getD 0
  dimensions : (allocation.allocatedResourceCeilings.map ResourceBudgetCeiling.dimensionId).Nodup
  resources : ∀ resource ∈ allocation.allocatedResourceCeilings,
    0 ≤ resource.maximum ∧ resource.dimensionId ≠ "" ∧ resource.unit ≠ ""

/-- What the validator of a version 3 reservation says of its shares. -/
structure ReservationCloses (reservation : BudgetReservationRecord)
    (allocations : List OwnerAllocationRecord) : Prop where
  version : ∃ route, reservation.version = .version3 route allocations
  closes : ∀ allocation ∈ allocations, AllocationCloses allocation
  nonempty : allocations ≠ []
  owners : (allocations.map OwnerAllocationRecord.ownerId).Nodup
  attempts : reservation.reservedAttempts =
    (allocations.map OwnerAllocationRecord.allocatedAttempts).sum
  inputTokens : reservation.reservedInputTokens =
    (allocations.map OwnerAllocationRecord.allocatedInputTokens).sum
  outputTokens : reservation.reservedOutputTokens =
    (allocations.map OwnerAllocationRecord.allocatedOutputTokens).sum
  wallSeconds : sumDecimals (allocations.map OwnerAllocationRecord.allocatedDispatchWallSeconds) =
    .ok (.finite reservation.reservedDispatchWallSeconds)
  providerUnits : sumDecimals (allocations.map OwnerAllocationRecord.allocatedProviderUnits) =
    .ok (.finite reservation.reservedProviderUnits)
  resources : sumAllocationResources allocations =
    .ok (resourceItems reservation.reservedResourceCeilings)
  currency : (∀ allocation ∈ allocations, allocation.allocatedCost = none) ∧
      reservation.reservedCost = none ∨
    (∀ allocation ∈ allocations, allocation.allocatedCost ≠ none) ∧
      ∃ cost, reservation.reservedCost = some cost ∧
        sumDecimals (allocations.map fun allocation ↦ allocation.allocatedCost.getD 0) =
          .ok (.finite cost)

/-- The provider units of a maximum are those of the owners, each under its own name. -/
structure PerOwnerUnits (allocations : List OwnerAllocationRecord) (maximum : BudgetAmount) :
    Prop where
  owned : ∀ item ∈ maximum.providerUnits,
    item.1.provider ∈ allocations.map OwnerAllocationRecord.ownerId
  units : ∀ allocation ∈ allocations, allocation.allocatedProviderUnits =
    ((maximum.providerUnits.filter fun item ↦ item.1.provider = allocation.ownerId).map
      Prod.snd).sum

/-! ### Sums of amounts -/

variable {shares : List BudgetOwnerAllocation} {start total : BudgetAmount}

theorem decimalOperation_eq_ok {first second result : Decimal} :
    decimalOperation false first second = .ok result ↔
      pythonContext.add first second = .ok result := by
  unfold decimalOperation
  simp only [Bool.false_eq_true, if_false]
  cases pythonContext.add first second with
  | error signal => exact iff_of_false (by simp) (by simp)
  | ok number => rw [Except.ok.injEq, Except.ok.injEq]

theorem amount_of_combination {first second result : BudgetAmount}
    (hadd : add first second = .ok result) {dimension : Dimension} (hdecimal : dimension.IsDecimal)
    (hrounded : Rounded pythonContext (first.amount dimension)) :
    pythonContext.add (first.amount dimension) (second.amount dimension) =
      .ok (result.amount dimension) := by
  obtain ⟨combination⟩ := combine_eq_ok.mp hadd
  rcases combination.amount_of_isDecimal hdecimal with ⟨hzero, hsame⟩ | hsum
  · rw [hzero, hsame]
    exact hrounded
  · exact decimalOperation_eq_ok.mp hsum

/-- Shares are summed when the sum of each dimension exists and no dimension has two units, and the
sum of a dimension is the one of its amounts. -/
theorem exists_sum {unitOf : String → String} {sums : Dimension → Decimal}
    (hrounded : ∀ dimension : Dimension, dimension.IsDecimal →
      Rounded pythonContext (start.amount dimension))
    (hsums : ∀ dimension : Dimension, dimension.IsDecimal →
      (shares.map fun share ↦ share.maximum.amount dimension).foldlM pythonContext.add
        (start.amount dimension) = .ok (sums dimension))
    (hstart : ∀ name unit, start.unit? name = some unit → unit = unitOf name)
    (hshares : ∀ share ∈ shares, ∀ name unit, share.maximum.unit? name = some unit →
      unit = unitOf name) :
    ∃ total, shares.foldlM (fun total share ↦ add total share.maximum) start = .ok total ∧
      (∀ dimension : Dimension, dimension.IsDecimal → total.amount dimension = sums dimension) ∧
      (∀ dimension : Dimension, ¬dimension.IsDecimal → (total.amount dimension).toRat =
        (start.amount dimension).toRat +
          (shares.map fun share ↦ (share.maximum.amount dimension).toRat).sum) ∧
      ∀ name unit, total.unit? name = some unit → unit = unitOf name := by
  induction shares generalizing start with
  | nil =>
    refine ⟨start, rfl, fun dimension hdecimal ↦ ?_, fun dimension _ ↦ by simp, hstart⟩
    exact Except.ok.inj (hsums dimension hdecimal)
  | cons share shares ih =>
    obtain ⟨hshare, hshares⟩ := List.forall_mem_cons.mp hshares
    have hstep : ∀ dimension : Dimension, dimension.IsDecimal → ∃ number,
        pythonContext.add (start.amount dimension) (share.maximum.amount dimension) = .ok number ∧
          (shares.map fun share ↦ share.maximum.amount dimension).foldlM pythonContext.add number =
            .ok (sums dimension) := by
      intro dimension hdecimal
      have hsum := hsums dimension hdecimal
      rw [List.map_cons, List.foldlM_cons] at hsum
      exact bind_eq_ok.mp hsum
    obtain ⟨next, hnext⟩ : ∃ next, add start share.maximum = .ok next := exists_combine
      (fun dimension hdecimal ↦ by
        obtain ⟨number, hnumber, -⟩ := hstep dimension hdecimal
        exact ⟨number, decimalOperation_eq_ok.mpr hnumber,
          nonneg_of_add (start.amount_nonneg _) (share.maximum.amount_nonneg _) hnumber⟩)
      (fun dimension firstCount secondCount _ hfirst hsecond ↦ by
        have hfirstNonneg := start.amount_nonneg dimension
        have hsecondNonneg := share.maximum.amount_nonneg dimension
        rw [hfirst, Decimal.zero_le_finite] at hfirstNonneg
        rw [hsecond, Decimal.zero_le_finite] at hsecondNonneg
        exact add_nonneg (Int.cast_nonneg_iff.mp hfirstNonneg)
          (Int.cast_nonneg_iff.mp hsecondNonneg))
      fun name unit unit' hunit hunit' ↦
        (hstart name unit hunit).trans (hshare name unit' hunit').symm
    obtain ⟨combination⟩ := combine_eq_ok.mp hnext
    have hamount : ∀ dimension : Dimension, dimension.IsDecimal →
        pythonContext.add (start.amount dimension) (share.maximum.amount dimension) =
          .ok (next.amount dimension) :=
      fun dimension hdecimal ↦ amount_of_combination hnext hdecimal (hrounded dimension hdecimal)
    obtain ⟨total, htotal, hdecimals, hcounts, hunits⟩ := @ih next
      (fun dimension hdecimal ↦ rounded_of_add (hamount dimension hdecimal))
      (fun dimension hdecimal ↦ by
        obtain ⟨number, hnumber, hsum⟩ := hstep dimension hdecimal
        rw [hamount dimension hdecimal, Except.ok.injEq] at hnumber
        rwa [hnumber])
      (fun name unit hunit ↦ by
        rcases combination.unit_of_unit hunit with hunit | hunit
        · exact hstart name unit hunit
        · exact hshare name unit hunit)
      hshares
    refine ⟨total, ?_, hdecimals, fun dimension hinteger ↦ ?_, hunits⟩
    · rw [List.foldlM_cons]
      exact bind_eq_ok.mpr ⟨next, hnext, htotal⟩
    · obtain ⟨firstCount, secondCount, hfirst, hsecond, hresult⟩ :=
        combination.amount_of_not_isDecimal hinteger
      rw [hcounts dimension hinteger, List.map_cons, List.sum_cons, hfirst, hsecond, hresult]
      simp only [Decimal.toRat_finite, integerOperation, Bool.false_eq_true, if_false]
      push_cast
      ring

/-! ### The share of an owner -/

/-- The provider dimensions of a maximum by provider; the last one of a provider is kept. -/
def providerDimensions (maximum : BudgetAmount) : Dictionary String ProviderAmount :=
  Dictionary.ofList (maximum.providerUnits.map fun item ↦ (item.1.provider, item))

/-- The provider units of a provider, of every operation and unit. -/
def unitsOf (maximum : BudgetAmount) (provider : String) : ℤ :=
  ((maximum.providerUnits.filter fun item ↦ item.1.provider = provider).map Prod.snd).sum

/-- All units of a provider, under the last of its dimensions. -/
def collapsedUnits (maximum : BudgetAmount) (provider : String) : List ProviderAmount :=
  match (providerDimensions maximum).lookup provider with
  | none => []
  | some dimension => [(dimension.1, unitsOf maximum provider)]

/-- The fields of the runtime share of an owner. -/
def shareFields (maximum : BudgetAmount) (allocation : OwnerAllocationRecord) : BudgetFields where
  attempts := allocation.allocatedAttempts
  inputTokens := allocation.allocatedInputTokens
  outputTokens := allocation.allocatedOutputTokens
  wallSeconds := .finite allocation.allocatedDispatchWallSeconds
  cost := .finite (allocation.allocatedCost.getD 0)
  resources := resourceItems allocation.allocatedResourceCeilings
  providerUnits := collapsedUnits maximum allocation.ownerId

/-- The runtime share of an owner. -/
structure IsShare (maximum : BudgetAmount) (allocation : OwnerAllocationRecord)
    (share : BudgetOwnerAllocation) : Prop where
  ownerId : share.ownerId = allocation.ownerId
  fields : share.maximum.toBudgetFields = (shareFields maximum allocation).normalize

variable {allocations : List OwnerAllocationRecord} {allocation : OwnerAllocationRecord}
  {maximum : BudgetAmount}

theorem mem_of_lookup_providerDimensions {provider : String} {item : ProviderAmount}
    (hlookup : (providerDimensions maximum).lookup provider = some item) :
    item ∈ maximum.providerUnits ∧ item.1.provider = provider := by
  obtain ⟨stored, hstored, hsame⟩ := List.mem_map.mp (Dictionary.mem_of_lookup_ofList hlookup)
  rw [Prod.mk.injEq] at hsame
  obtain ⟨hprovider, rfl⟩ := hsame
  exact ⟨hstored, hprovider⟩

theorem exists_lookup_providerDimensions {item : ProviderAmount}
    (hitem : item ∈ maximum.providerUnits) :
    ∃ last, (providerDimensions maximum).lookup item.1.provider = some last := by
  cases hlookup : (providerDimensions maximum).lookup item.1.provider with
  | some last => exact ⟨last, rfl⟩
  | none =>
    refine absurd ?_ (Dictionary.lookup_ofList_eq_none.mp hlookup)
    rw [List.map_map]
    exact List.mem_map.mpr ⟨item, hitem, rfl⟩

/-- A provider has units exactly when a dimension of it is kept. -/
theorem unitsOf_eq_zero {provider : String} :
    unitsOf maximum provider = 0 ↔ (providerDimensions maximum).lookup provider = none := by
  have hnonneg : ∀ count ∈ (maximum.providerUnits.filter fun item ↦
      item.1.provider = provider).map Prod.snd, 0 ≤ count := by
    intro count hcount
    obtain ⟨item, hitem, rfl⟩ := List.mem_map.mp hcount
    exact (maximum.valid.providerUnits _ (List.mem_of_mem_filter hitem)).1
  constructor
  · intro hzero
    cases hlookup : (providerDimensions maximum).lookup provider with
    | none => rfl
    | some item =>
      obtain ⟨hitem, hprovider⟩ := mem_of_lookup_providerDimensions hlookup
      have hlisted : item.2 ∈ (maximum.providerUnits.filter fun item ↦
          item.1.provider = provider).map Prod.snd :=
        List.mem_map_of_mem (List.mem_filter.mpr ⟨hitem, by simpa using hprovider⟩)
      have hle : item.2 ≤ 0 := hzero ▸ List.single_le_sum hnonneg _ hlisted
      have hpositive := (maximum.valid.providerUnits _ hitem).1
      exact absurd (le_antisymm hle hpositive) (maximum.valid.providerUnits_ne_zero _ hitem)
  · intro hnone
    have hfree : (maximum.providerUnits.filter fun item ↦ item.1.provider = provider) = [] := by
      rw [List.filter_eq_nil_iff]
      intro item hitem hprovider
      obtain ⟨last, hlast⟩ := exists_lookup_providerDimensions hitem
      rw [of_decide_eq_true hprovider, hnone] at hlast
      cases hlast
    rw [unitsOf, hfree]
    rfl

/-- An owner takes all units of its provider. -/
theorem takeProviderUnits_eq {dimensions : Dictionary String ProviderAmount}
    (hunits : allocation.allocatedProviderUnits = unitsOf maximum allocation.ownerId)
    (hlookup : dimensions.lookup allocation.ownerId =
      (providerDimensions maximum).lookup allocation.ownerId) :
    ∃ remaining : Dictionary String ProviderAmount,
      takeProviderUnits dimensions allocation =
        .ok (collapsedUnits maximum allocation.ownerId, remaining) ∧
      ∀ owner item, remaining.lookup owner = some item ↔
        owner ≠ allocation.ownerId ∧ dimensions.lookup owner = some item := by
  unfold collapsedUnits
  cases hkept : (providerDimensions maximum).lookup allocation.ownerId with
  | none =>
    have hzero : allocation.allocatedProviderUnits = 0 := by
      rw [hunits, unitsOf_eq_zero.mpr hkept, Int.cast_zero]
    refine ⟨dimensions, by rw [takeProviderUnits, if_pos hzero]; rfl, fun owner item ↦ ?_⟩
    refine ⟨fun howner ↦ ⟨fun hsame ↦ ?_, howner⟩, And.right⟩
    rw [hsame, hlookup, hkept] at howner
    cases howner
  | some dimension =>
    have hne : allocation.allocatedProviderUnits ≠ 0 := by
      intro hzero
      rw [hunits, Int.cast_eq_zero, unitsOf_eq_zero, hkept] at hzero
      cases hzero
    have hwhole : allocation.allocatedProviderUnits.num.tdiv
        allocation.allocatedProviderUnits.den = unitsOf maximum allocation.ownerId := by
      rw [hunits, Rat.num_intCast, Rat.den_intCast, Nat.cast_one, Int.tdiv_one]
    refine ⟨dimensions.erase allocation.ownerId, ?_, fun owner item ↦ ?_⟩
    · rw [takeProviderUnits, if_neg hne]
      simp only [hwhole, hlookup, hkept, refuse, if_neg (not_not.mpr hunits)]
      rfl
    · by_cases howner : owner = allocation.ownerId
      · subst howner
        simp
      · rw [AList.lookup_erase_ne howner]
        exact ⟨fun hitem ↦ ⟨howner, hitem⟩, And.right⟩

/-- The fields of a share are accepted. -/
theorem valid_shareFields (maximum : BudgetAmount) (hcloses : AllocationCloses allocation) :
    (shareFields maximum allocation).normalize.Valid where
  scalars := ⟨hcloses.attempts.le, hcloses.inputTokens, hcloses.outputTokens,
    (Decimal.zero_le_finite _).mpr hcloses.wallSeconds,
    (Decimal.zero_le_finite _).mpr hcloses.cost⟩
  resourceKeys := by
    refine BudgetFields.nodup_resources_normalize ?_
    change ((resourceItems allocation.allocatedResourceCeilings).map Prod.fst).Nodup
    rw [resourceItems, List.map_map]
    exact hcloses.dimensions
  providerKeys := by
    refine BudgetFields.nodup_providerUnits_normalize ?_
    change ((collapsedUnits maximum allocation.ownerId).map Prod.fst).Nodup
    unfold collapsedUnits
    split <;> simp
  resources := by
    intro item hitem
    obtain ⟨hlisted, -⟩ := BudgetFields.mem_resources_normalize.mp hitem
    obtain ⟨resource, hresource, rfl⟩ := List.mem_map.mp hlisted
    obtain ⟨hnonneg, -, hunit⟩ := hcloses.resources resource hresource
    exact ⟨(Decimal.zero_le_finite _).mpr hnonneg, hunit⟩
  providerUnits := by
    intro item hitem
    obtain ⟨hlisted, -⟩ := BudgetFields.mem_providerUnits_normalize.mp hitem
    change item ∈ collapsedUnits maximum allocation.ownerId at hlisted
    unfold collapsedUnits at hlisted
    split at hlisted
    · cases hlisted
    · next dimension hkept =>
      rw [List.mem_singleton.mp hlisted]
      obtain ⟨hdimension, -⟩ := mem_of_lookup_providerDimensions hkept
      refine ⟨List.sum_nonneg fun count hcount ↦ ?_,
        (maximum.valid.providerUnits _ hdimension).2⟩
      obtain ⟨item, hitem, rfl⟩ := List.mem_map.mp hcount
      exact (maximum.valid.providerUnits _ (List.mem_of_mem_filter hitem)).1
  resources_ne_zero := fun _ hitem ↦ (BudgetFields.mem_resources_normalize.mp hitem).2
  providerUnits_ne_zero := fun _ hitem ↦ (BudgetFields.mem_providerUnits_normalize.mp hitem).2

/-- The loop gives each owner its share and takes the dimensions of the owners. -/
theorem ownerAllocationLoop_eq {dimensions : Dictionary String ProviderAmount}
    (hcloses : ∀ allocation ∈ allocations, AllocationCloses allocation)
    (howners : (allocations.map OwnerAllocationRecord.ownerId).Nodup)
    (hunits : ∀ allocation ∈ allocations,
      allocation.allocatedProviderUnits = unitsOf maximum allocation.ownerId)
    (hlookup : ∀ allocation ∈ allocations, dimensions.lookup allocation.ownerId =
      (providerDimensions maximum).lookup allocation.ownerId) :
    ∃ (shares : List BudgetOwnerAllocation) (unused : Dictionary String ProviderAmount),
      ownerAllocationLoop dimensions allocations = .ok (shares, unused) ∧
      List.Forall₂ (IsShare maximum) allocations shares ∧
      ∀ owner item, unused.lookup owner = some item →
        owner ∉ allocations.map OwnerAllocationRecord.ownerId ∧
          dimensions.lookup owner = some item := by
  induction allocations generalizing dimensions with
  | nil => exact ⟨[], dimensions, rfl, .nil, fun owner item hitem ↦ ⟨by simp, hitem⟩⟩
  | cons allocation allocations ih =>
    obtain ⟨hclosed, hcloses⟩ := List.forall_mem_cons.mp hcloses
    obtain ⟨hunit, hunits⟩ := List.forall_mem_cons.mp hunits
    obtain ⟨hfirst, hlookup⟩ := List.forall_mem_cons.mp hlookup
    obtain ⟨hfresh, howners⟩ := List.nodup_cons.mp howners
    obtain ⟨remaining, htake, hremaining⟩ := takeProviderUnits_eq hunit hfirst
    obtain ⟨amount, hamount⟩ := BudgetAmount.exists_ofFields
      (valid_shareFields maximum hclosed)
    obtain ⟨shares, unused, hloop, hshares, hunused⟩ := @ih remaining hcloses howners hunits
      fun other hother ↦ by
        have hne : other.ownerId ≠ allocation.ownerId := by
          rintro hsame
          exact hfresh (hsame ▸ List.mem_map_of_mem hother)
        rw [← hlookup other hother]
        exact Option.ext fun item ↦ (hremaining _ item).trans (and_iff_right hne)
    refine ⟨⟨allocation.ownerId, amount, hclosed.ownerId⟩ :: shares, unused, ?_,
      .cons ⟨rfl, BudgetAmount.ofFields_eq_ok.mp hamount⟩ hshares, fun owner item hitem ↦ ?_⟩
    · have hcreate : BudgetOwnerAllocation.create allocation.ownerId amount =
          .ok ⟨allocation.ownerId, amount, hclosed.ownerId⟩ := by
        rw [BudgetOwnerAllocation.create, dif_neg hclosed.ownerId]
      unfold ownerAllocationLoop
      refine bind_eq_ok.mpr ⟨_, htake, ?_⟩
      refine bind_eq_ok.mpr ⟨amount, ofBudget_eq_ok.mpr hamount, ?_⟩
      refine bind_eq_ok.mpr ⟨_, ofBudget_eq_ok.mpr hcreate, ?_⟩
      exact bind_eq_ok.mpr ⟨_, hloop, rfl⟩
    · obtain ⟨hother, hitem⟩ := hunused owner item hitem
      obtain ⟨hne, hitem⟩ := (hremaining owner item).mp hitem
      exact ⟨List.not_mem_cons_of_ne_of_not_mem hne hother, hitem⟩

/-- Every owner of a closed reservation has its share. -/
theorem exists_runtimeOwnerAllocations
    (hcloses : ∀ allocation ∈ allocations, AllocationCloses allocation)
    (howners : (allocations.map OwnerAllocationRecord.ownerId).Nodup)
    (hunits : PerOwnerUnits allocations maximum) :
    ∃ shares, runtimeOwnerAllocations allocations maximum = .ok shares ∧
      List.Forall₂ (IsShare maximum) allocations shares := by
  obtain ⟨shares, unused, hloop, hshares, hunused⟩ :=
    ownerAllocationLoop_eq hcloses howners hunits.units fun _ _ ↦ rfl
  have hempty : unused.keys = [] := by
    rw [List.eq_nil_iff_forall_not_mem]
    intro owner howner
    obtain ⟨item, hitem⟩ := Option.isSome_iff_exists.mp (AList.lookup_isSome.mpr howner)
    obtain ⟨hfree, hitem⟩ := hunused owner item hitem
    obtain ⟨hmem, hprovider⟩ := mem_of_lookup_providerDimensions hitem
    exact hfree (hprovider ▸ hunits.owned item hmem)
  refine ⟨shares, ?_, hshares⟩
  unfold runtimeOwnerAllocations
  refine bind_eq_ok.mpr ⟨_, hloop, bind_eq_ok.mpr ⟨(), ?_, rfl⟩⟩
  exact refuse_eq_ok.mpr (not_not.mpr hempty)

/-! ### Sums of resources -/

/-- The amount of a dimension in a list of resources. -/
def amountOf (resources : List ResourceAmount) (dimension : String) : Decimal :=
  ((resources.find? fun item ↦ item.1 = dimension).map fun item ↦ item.2.1).getD 0

theorem amount_resource (amount : BudgetAmount) (dimension : String) :
    amount.amount (.resource dimension) = amountOf amount.resources dimension := by
  unfold amountOf
  cases hfind : amount.resources.find? fun item ↦ item.1 = dimension with
  | none =>
    have hlookup : amount.resourceTable.lookup dimension = none := by
      refine Dictionary.lookup_ofList_eq_none.mpr fun hmem ↦ ?_
      obtain ⟨item, hitem, hsame⟩ := List.mem_map.mp hmem
      exact absurd hsame (by simpa using List.find?_eq_none.mp hfind item hitem)
    rw [BudgetAmount.amount, hlookup]
    rfl
  | some item =>
    have hsame : item.1 = dimension := of_decide_eq_true (List.find?_some hfind :)
    have hlookup := BudgetAmount.lookup_resourceTable.mpr (List.mem_of_find?_eq_some hfind)
    rw [← hsame]
    exact BudgetAmount.amount_resource_of_lookup hlookup

/-- The amounts that a share lists in a dimension. -/
def listedAmounts (dimension : String) (resources : List ResourceBudgetCeiling) : List Decimal :=
  (resources.filter fun resource ↦ resource.dimensionId = dimension).map fun resource ↦
    .finite resource.maximum

theorem listedAmounts_cons {dimension : String} {resource : ResourceBudgetCeiling}
    {resources : List ResourceBudgetCeiling} :
    listedAmounts dimension (resource :: resources) =
      if resource.dimensionId = dimension then
        .finite resource.maximum :: listedAmounts dimension resources
      else listedAmounts dimension resources := by
  unfold listedAmounts
  by_cases hsame : resource.dimensionId = dimension <;> simp [hsame]

/-- One resource adds to its own dimension and leaves the units. -/
theorem addResource_eq_ok {before after : List ResourceAmount} {resource : ResourceBudgetCeiling}
    (hadd : addResource before resource = .ok after) :
    pythonContext.add (amountOf before resource.dimensionId) (.finite resource.maximum) =
        .ok (amountOf after resource.dimensionId) ∧
      (∀ dimension ≠ resource.dimensionId, amountOf after dimension = amountOf before dimension) ∧
      (∀ item ∈ before, ∃ amount, (item.1, amount, item.2.2) ∈ after) ∧
      ∃ amount, (resource.dimensionId, amount, resource.unit) ∈ after := by
  unfold addResource at hadd
  cases hfind : before.find? fun item ↦ item.1 = resource.dimensionId with
  | none =>
    rw [hfind] at hadd
    obtain ⟨amount, hamount, hafter⟩ := bind_eq_ok.mp hadd
    rw [← Except.ok.inj hafter]
    refine ⟨?_, fun dimension hne ↦ ?_, fun item hitem ↦ ⟨_, List.mem_append_left _ hitem⟩,
      amount, by simp⟩
    · unfold amountOf
      rw [List.find?_append, hfind]
      simpa using decimalOperation_eq_ok.mp hamount
    · unfold amountOf
      rw [List.find?_append, List.find?_singleton, if_neg (by simpa using hne.symm),
        Option.or_none]
  | some stored =>
    rw [hfind] at hadd
    have hstored : stored.1 = resource.dimensionId :=
      of_decide_eq_true (List.find?_some hfind :)
    change (if stored.2.2 ≠ resource.unit then _ else _) = _ at hadd
    split at hadd
    · cases hadd
    · next hunit =>
      rw [not_not] at hunit
      obtain ⟨amount, hamount, hafter⟩ := bind_eq_ok.mp hadd
      rw [← Except.ok.inj hafter]
      have hkeys : ∀ dimension : String, (fun item : ResourceAmount ↦
          decide (item.1 = dimension)) ∘ (fun item : ResourceAmount ↦
            if item.1 = resource.dimensionId then (item.1, amount, item.2.2) else item) =
          fun item : ResourceAmount ↦ decide (item.1 = dimension) := by
        intro dimension
        ext item
        rw [Function.comp_apply]
        split <;> rfl
      refine ⟨?_, fun dimension hne ↦ ?_, fun item hitem ↦ ?_, ?_⟩
      · unfold amountOf
        rw [List.find?_map, hkeys, hfind]
        simpa [hstored] using decimalOperation_eq_ok.mp hamount
      · unfold amountOf
        rw [List.find?_map, hkeys]
        cases hother : before.find? fun item ↦ item.1 = dimension with
        | none => rfl
        | some item =>
          have hitem : item.1 = dimension := of_decide_eq_true (List.find?_some hother :)
          simp [hitem, hne]
      · by_cases hsame : item.1 = resource.dimensionId
        · exact ⟨amount, List.mem_map.mpr ⟨item, hitem, if_pos hsame⟩⟩
        · exact ⟨item.2.1, List.mem_map.mpr ⟨item, hitem, if_neg hsame⟩⟩
      · refine ⟨amount, List.mem_map.mpr ⟨stored, List.mem_of_find?_eq_some hfind, ?_⟩⟩
        rw [if_pos hstored, hstored, hunit]

/-- The sum of a dimension is the one of its listed amounts, and every listed unit is kept. -/
theorem foldlM_addResource_eq_ok {resources : List ResourceBudgetCeiling}
    {before after : List ResourceAmount}
    (hsum : resources.foldlM addResource before = .ok after) :
    (∀ dimension, (listedAmounts dimension resources).foldlM pythonContext.add
        (amountOf before dimension) = .ok (amountOf after dimension)) ∧
      (∀ item ∈ before, ∃ amount, (item.1, amount, item.2.2) ∈ after) ∧
      ∀ resource ∈ resources, ∃ amount, (resource.dimensionId, amount, resource.unit) ∈ after := by
  induction resources generalizing before with
  | nil =>
    rw [← Except.ok.inj hsum]
    exact ⟨fun dimension ↦ rfl, fun item hitem ↦ ⟨item.2.1, hitem⟩, by simp⟩
  | cons resource resources ih =>
    rw [List.foldlM_cons] at hsum
    obtain ⟨next, hnext, hsum⟩ := bind_eq_ok.mp hsum
    obtain ⟨hamount, hothers, hkept, listed, hlisted⟩ := addResource_eq_ok hnext
    obtain ⟨hamounts, hlater, hresources⟩ := ih hsum
    refine ⟨fun dimension ↦ ?_, fun item hitem ↦ ?_, ?_⟩
    · rw [listedAmounts_cons]
      split
      · next hsame =>
        subst hsame
        rw [List.foldlM_cons]
        exact bind_eq_ok.mpr ⟨_, hamount, hamounts _⟩
      · next hne =>
        rw [← hothers dimension (Ne.symm hne)]
        exact hamounts dimension
    · obtain ⟨amount, hitem⟩ := hkept item hitem
      exact hlater (item.1, amount, item.2.2) hitem
    · have hfirst := hlater (resource.dimensionId, listed, resource.unit) hlisted
      exact List.forall_mem_cons.mpr ⟨hfirst, hresources⟩

/-- A share holds the amount it lists, and nothing in the other dimensions. -/
theorem listedAmounts_of_isShare {share : BudgetOwnerAllocation}
    (hcloses : AllocationCloses allocation) (hshare : IsShare maximum allocation share)
    (dimension : String) :
    listedAmounts dimension allocation.allocatedResourceCeilings =
        [share.maximum.amount (.resource dimension)] ∨
      listedAmounts dimension allocation.allocatedResourceCeilings = [] ∧
        share.maximum.amount (.resource dimension) = 0 := by
  have hmem : ∀ item : ResourceAmount, item ∈ share.maximum.resources ↔
      item ∈ resourceItems allocation.allocatedResourceCeilings ∧ item.2.1 ≠ 0 := by
    intro item
    rw [hshare.fields]
    exact BudgetFields.mem_resources_normalize
  by_cases hlisted : ∃ resource ∈ allocation.allocatedResourceCeilings,
      resource.dimensionId = dimension
  · left
    obtain ⟨resource, hresource, hsame⟩ := hlisted
    have hfilter : (allocation.allocatedResourceCeilings.filter fun other ↦
        other.dimensionId = dimension) = [resource] := by
      have hperm := List.Nodup.of_map _ hcloses.dimensions
      refine List.perm_singleton.mp ((List.perm_ext_iff_of_nodup (hperm.filter _)
        (List.nodup_singleton _)).mpr fun other ↦ ?_)
      rw [List.mem_filter, List.mem_singleton, decide_eq_true_iff]
      constructor
      · rintro ⟨hother, hdimension⟩
        exact List.inj_on_of_nodup_map hcloses.dimensions hother hresource
          (hdimension.trans hsame.symm)
      · rintro rfl
        exact ⟨hresource, hsame⟩
    unfold listedAmounts
    rw [hfilter, List.map_singleton, List.singleton_inj]
    have hitem : (dimension, Decimal.finite resource.maximum, resource.unit) ∈
        resourceItems allocation.allocatedResourceCeilings :=
      List.mem_map.mpr ⟨resource, hresource, by rw [hsame]⟩
    by_cases hzero : (Decimal.finite resource.maximum) = 0
    · rw [hzero, eq_comm, ← BudgetAmount.unit?_eq_none]
      refine Option.eq_none_iff_forall_ne_some.mpr fun unit hunit ↦ ?_
      obtain ⟨number, hnumber⟩ := BudgetAmount.unit?_eq_some.mp hunit
      obtain ⟨hstored, hne⟩ := (hmem _).mp (BudgetAmount.lookup_resourceTable.mp hnumber)
      obtain ⟨other, hother, hsameItem⟩ := List.mem_map.mp hstored
      rw [Prod.mk.injEq, Prod.mk.injEq] at hsameItem
      have heq : other = resource := List.inj_on_of_nodup_map hcloses.dimensions hother hresource
        (hsameItem.1.trans hsame.symm)
      exact hne (hsameItem.2.1.symm.trans (heq ▸ hzero))
    · exact (BudgetAmount.amount_resource_of_lookup
        (BudgetAmount.lookup_resourceTable.mpr ((hmem _).mpr ⟨hitem, hzero⟩))).symm
  · right
    push Not at hlisted
    constructor
    · unfold listedAmounts
      rw [List.filter_eq_nil_iff.mpr fun resource hresource ↦ by
        simpa using hlisted resource hresource, List.map_nil]
    · rw [← BudgetAmount.unit?_eq_none]
      refine Option.eq_none_iff_forall_ne_some.mpr fun unit hunit ↦ ?_
      obtain ⟨number, hnumber⟩ := BudgetAmount.unit?_eq_some.mp hunit
      obtain ⟨hstored, -⟩ := (hmem _).mp (BudgetAmount.lookup_resourceTable.mp hnumber)
      obtain ⟨other, hother, hsameItem⟩ := List.mem_map.mp hstored
      rw [Prod.mk.injEq] at hsameItem
      exact hlisted other hother hsameItem.1

end Oamb.Runtime.OwnerAllocations
