import Mathlib.Algebra.BigOperators.Ring.Finset
import Oamb.Runtime.OwnerAllocations

/-!
# The shares and the maximum

The runtime shares of the owners sum up to the runtime maximum in every scalar and resource
(`exists_sumOwnerAmounts`), and in the provider units exactly when no provider has units of two
kinds (`allocations_sum_iff`): the provider dimensions are kept by provider alone, and the last kind
of a provider takes the place of all others.
-/

set_option autoImplicit false

namespace Oamb.Runtime.AllocationGuarantees

open Foundation Foundation.DecimalContext Foundation.RoundedSums Foundation.StatefulExecution
open Contracts.AttemptRecords ResourceAmounts ResourceArithmetic LedgerOperations AttemptCoordinator
open AttemptGuarantees OwnerAllocations

variable {allocations : List OwnerAllocationRecord} {allocation : OwnerAllocationRecord}
  {maximum : BudgetAmount} {shares : List BudgetOwnerAllocation}

/-! ### The amounts of the shares -/

theorem map_shares {α : Type} {read : OwnerAllocationRecord → α} {readShare :
    BudgetOwnerAllocation → α} (hshares : List.Forall₂ (IsShare maximum) allocations shares)
    (hread : ∀ allocation share, IsShare maximum allocation share →
      readShare share = read allocation) : shares.map readShare = allocations.map read := by
  induction hshares with
  | nil => rfl
  | cons hshare _ ih => rw [List.map_cons, List.map_cons, hread _ _ hshare, ih]

/-- The units of an owner that its share lists under a key. -/
def unitsUnder (maximum : BudgetAmount) (key : ProviderKey) (owner : String) : ℤ :=
  if ((providerDimensions maximum).lookup owner).map Prod.fst = some key then
    unitsOf maximum owner
  else 0

theorem amount_providerUnit {share : BudgetOwnerAllocation}
    (hshare : IsShare maximum allocation share) (key : ProviderKey) :
    share.maximum.amount (.providerUnit key) =
      .finite (unitsUnder maximum key allocation.ownerId) := by
  have hmem : ∀ item : ProviderAmount, item ∈ share.maximum.providerUnits ↔
      item ∈ collapsedUnits maximum allocation.ownerId ∧ item.2 ≠ 0 := by
    intro item
    rw [hshare.fields]
    exact BudgetFields.mem_providerUnits_normalize
  have hlookup : (share.maximum.providerTable.lookup key).getD 0 =
      unitsUnder maximum key allocation.ownerId := by
    unfold unitsUnder
    unfold collapsedUnits at hmem
    cases hkept : (providerDimensions maximum).lookup allocation.ownerId with
    | none =>
      rw [hkept] at hmem
      have hnone : share.maximum.providerTable.lookup key = none := by
        refine Option.eq_none_iff_forall_ne_some.mpr fun count hcount ↦ ?_
        cases ((hmem _).mp (BudgetAmount.lookup_providerTable.mp hcount)).1
      rw [hnone]
      rfl
    | some dimension =>
      rw [hkept] at hmem
      have hne : unitsOf maximum allocation.ownerId ≠ 0 := by
        rw [Ne, unitsOf_eq_zero, hkept]
        exact Option.some_ne_none _
      rw [Option.map_some]
      by_cases hkey : dimension.1 = key
      · have hstored : share.maximum.providerTable.lookup key =
            some (unitsOf maximum allocation.ownerId) :=
          BudgetAmount.lookup_providerTable.mpr
            ((hmem _).mpr ⟨List.mem_singleton.mpr (by rw [hkey]), hne⟩)
        rw [hstored, if_pos (congrArg some hkey)]
        rfl
      · have hnone : share.maximum.providerTable.lookup key = none := by
          refine Option.eq_none_iff_forall_ne_some.mpr fun count hcount ↦ hkey ?_
          have hlisted := ((hmem _).mp (BudgetAmount.lookup_providerTable.mp hcount)).1
          exact (congrArg Prod.fst (List.mem_singleton.mp hlisted)).symm
        rw [hnone, if_neg fun hsame ↦ hkey (Option.some.inj hsame)]
        rfl
  rw [BudgetAmount.amount, hlookup]

/-- Only the owner that is the provider lists units under a key. -/
theorem sum_unitsUnder (howners : (allocations.map OwnerAllocationRecord.ownerId).Nodup)
    (hunits : PerOwnerUnits allocations maximum) (key : ProviderKey) :
    (allocations.map fun allocation ↦ unitsUnder maximum key allocation.ownerId).sum =
      unitsUnder maximum key key.provider := by
  have hothers : ∀ owner, owner ≠ key.provider → unitsUnder maximum key owner = 0 := by
    intro owner hne
    refine if_neg fun hlast ↦ hne ?_
    obtain ⟨item, hlookup, hkey⟩ := Option.map_eq_some_iff.mp hlast
    rw [← hkey]
    exact (mem_of_lookup_providerDimensions hlookup).2.symm
  have hsum := List.sum_map_eq_nsmul_single (l := allocations.map OwnerAllocationRecord.ownerId)
    key.provider (unitsUnder maximum key) fun owner hne _ ↦ hothers owner hne
  rw [List.map_map] at hsum
  refine hsum.trans ?_
  by_cases howner : key.provider ∈ allocations.map OwnerAllocationRecord.ownerId
  · rw [List.count_eq_one_of_mem howners howner, one_nsmul]
  · rw [List.count_eq_zero_of_not_mem howner, zero_nsmul, unitsUnder, if_neg]
    intro hlast
    obtain ⟨item, hlookup, -⟩ := Option.map_eq_some_iff.mp hlast
    obtain ⟨hitem, hprovider⟩ := mem_of_lookup_providerDimensions hlookup
    exact howner (hprovider ▸ hunits.owned item hitem)

/-- The keys of the provider dimensions are the only ones under which units are found. -/
theorem unitsUnder_eq_iff (maximum : BudgetAmount) :
    (∀ key : ProviderKey, .finite (unitsUnder maximum key key.provider) =
        maximum.amount (.providerUnit key)) ↔
      (maximum.providerUnits.map fun item ↦ item.1.provider).Nodup := by
  have hstored : ∀ item ∈ maximum.providerUnits,
      maximum.amount (.providerUnit item.1) = .finite item.2 := by
    intro item hitem
    rw [BudgetAmount.amount, BudgetAmount.lookup_providerTable.mpr hitem]
    rfl
  constructor
  · intro hamounts
    have hlast : ∀ item ∈ maximum.providerUnits,
        ((providerDimensions maximum).lookup item.1.provider).map Prod.fst = some item.1 := by
      intro item hitem
      by_contra hother
      have hzero : Decimal.finite ((0 : ℤ) : ℚ) = .finite item.2 := by
        rw [← hstored item hitem, ← hamounts item.1, unitsUnder, if_neg hother]
      rw [Decimal.finite.injEq, Int.cast_inj] at hzero
      exact maximum.valid.providerUnits_ne_zero item hitem hzero.symm
    refine List.Nodup.map_on ?_ (List.Nodup.of_map _ maximum.valid.providerKeys)
    intro item hitem other hother hprovider
    refine List.inj_on_of_nodup_map maximum.valid.providerKeys hitem hother ?_
    exact Option.some_injective _ (by rw [← hlast item hitem, hprovider, hlast other hother])
  · intro hnodup key
    have hlookup : ∀ item, (providerDimensions maximum).lookup key.provider = some item ↔
        item ∈ maximum.providerUnits ∧ item.1.provider = key.provider := by
      refine fun item ↦ ⟨mem_of_lookup_providerDimensions, ?_⟩
      rintro ⟨hitem, hprovider⟩
      obtain ⟨last, hlast⟩ := exists_lookup_providerDimensions hitem
      obtain ⟨hmem, hsame⟩ := mem_of_lookup_providerDimensions hlast
      rw [← hprovider, hlast, List.inj_on_of_nodup_map hnodup hmem hitem hsame]
    cases hcount : maximum.providerTable.lookup key with
    | none =>
      rw [BudgetAmount.amount, hcount, unitsUnder, if_neg]
      · rfl
      · intro hlast
        obtain ⟨item, hitem, rfl⟩ := Option.map_eq_some_iff.mp hlast
        have hmem := BudgetAmount.lookup_providerTable.mpr ((hlookup item).mp hitem).1
        rw [hcount] at hmem
        cases hmem
    | some count =>
      have hitem := BudgetAmount.lookup_providerTable.mp hcount
      have hunits : unitsOf maximum key.provider = count := by
        have hfilter : (maximum.providerUnits.filter fun item ↦
            item.1.provider = key.provider) = [(key, count)] := by
          have hitems := List.Nodup.of_map _ hnodup
          refine List.perm_singleton.mp ((List.perm_ext_iff_of_nodup (hitems.filter _)
            (List.nodup_singleton _)).mpr fun other ↦ ?_)
          rw [List.mem_filter, List.mem_singleton, decide_eq_true_iff]
          constructor
          · rintro ⟨hother, hprovider⟩
            exact List.inj_on_of_nodup_map hnodup hother hitem hprovider
          · rintro rfl
            exact ⟨hitem, rfl⟩
        rw [unitsOf, hfilter]
        exact List.sum_singleton
      rw [BudgetAmount.amount, hcount, unitsUnder, (hlookup _).mpr ⟨hitem, rfl⟩,
        Option.map_some, if_pos rfl, hunits]
      rfl

/-! ### The sum of the shares -/

variable {claim : OccurrenceClaimRecord} {reservation : BudgetReservationRecord}
  {intent : AttemptIntentRecord}

/-- What the checks before an attempt say of the amounts. -/
theorem amounts_of_validatePrepare
    (hcheck : validatePrepare claim reservation intent maximum = .ok ()) :
    maximum.resources = resourceItems reservation.reservedResourceCeilings ∧
      maximum.attempts = reservation.reservedAttempts ∧
      maximum.inputTokens = reservation.reservedInputTokens ∧
      maximum.outputTokens = reservation.reservedOutputTokens ∧
      maximum.wallSeconds = .finite reservation.reservedDispatchWallSeconds ∧
      maximum.cost = .finite (reservation.reservedCost.getD 0) := by
  obtain ⟨_, -, hcheck⟩ := bind_eq_ok.mp hcheck
  obtain ⟨_, -, hcheck⟩ := bind_eq_ok.mp hcheck
  obtain ⟨_, -, hcheck⟩ := bind_eq_ok.mp hcheck
  obtain ⟨_, -, hcheck⟩ := bind_eq_ok.mp hcheck
  obtain ⟨_, -, hcheck⟩ := bind_eq_ok.mp hcheck
  obtain ⟨_, -, hcheck⟩ := bind_eq_ok.mp hcheck
  obtain ⟨_, -, hcheck⟩ := bind_eq_ok.mp hcheck
  obtain ⟨_, -, hcheck⟩ := bind_eq_ok.mp hcheck
  obtain ⟨⟨⟩, hresources, hcheck⟩ := bind_eq_ok.mp hcheck
  obtain ⟨⟨⟩, hattempts, hcheck⟩ := bind_eq_ok.mp hcheck
  obtain ⟨⟨⟩, hinput, hcheck⟩ := bind_eq_ok.mp hcheck
  obtain ⟨⟨⟩, houtput, hcheck⟩ := bind_eq_ok.mp hcheck
  obtain ⟨⟨⟩, hwall, hcheck⟩ := bind_eq_ok.mp hcheck
  obtain ⟨⟨⟩, hcost, -⟩ := bind_eq_ok.mp hcheck
  simp only [refuse_eq_ok, not_not] at hresources hattempts hinput houtput hwall hcost
  exact ⟨hresources, hattempts, hinput, houtput, hwall, hcost⟩

/-- The decimal amounts of the shares are added up to the ones of the maximum. -/
theorem sums_of_shares (hcloses : ReservationCloses reservation allocations)
    (hcheck : validatePrepare claim reservation intent maximum = .ok ())
    (hshares : List.Forall₂ (IsShare maximum) allocations shares) {dimension : Dimension}
    (hdecimal : dimension.IsDecimal) :
    (shares.map fun share ↦ share.maximum.amount dimension).foldlM pythonContext.add 0 =
      .ok (maximum.amount dimension) := by
  obtain ⟨hresources, -, -, -, hwall, hcost⟩ := amounts_of_validatePrepare hcheck
  cases dimension with
  | attempts => cases hdecimal
  | inputTokens => cases hdecimal
  | outputTokens => cases hdecimal
  | providerUnit key => cases hdecimal
  | wallSeconds =>
    have hsum := hcloses.wallSeconds
    rw [sumDecimals, List.map_map] at hsum
    rw [map_shares hshares fun allocation share hshare ↦ by
      rw [BudgetAmount.amount, hshare.fields, BudgetFields.normalize], BudgetAmount.amount, hwall]
    exact hsum
  | cost =>
    rw [map_shares hshares fun allocation share hshare ↦ by
      rw [BudgetAmount.amount, hshare.fields, BudgetFields.normalize], BudgetAmount.amount, hcost]
    rcases hcloses.currency with ⟨hnone, hreserved⟩ | ⟨-, cost, hreserved, hsum⟩
    · have hzeros : (allocations.flatMap fun _ ↦ ([] : List Decimal)).foldlM pythonContext.add 0 =
          (allocations.map fun allocation ↦ Decimal.finite
            (allocation.allocatedCost.getD 0)).foldlM pythonContext.add 0 :=
        foldlM_zeros (rounded_zero pythonContext) fun allocation hmem ↦ by
          rw [hnone allocation hmem]
          exact Or.inr ⟨rfl, rfl⟩
      rw [hreserved]
      refine hzeros.symm.trans ?_
      rw [List.flatMap_eq_nil_iff.mpr fun _ _ ↦ rfl]
      rfl
    · rw [sumDecimals, List.map_map] at hsum
      rw [hreserved]
      exact hsum
  | resource name =>
    have hsum := (foldlM_addResource_eq_ok hcloses.resources).1 name
    have hlisted : listedAmounts name
        (allocations.flatMap OwnerAllocationRecord.allocatedResourceCeilings) =
          allocations.flatMap fun allocation ↦
            listedAmounts name allocation.allocatedResourceCeilings := by
      unfold listedAmounts
      rw [List.filter_flatMap, List.map_flatMap]
    rw [amount_resource, hresources, ← hsum, hlisted]
    have hzeros : ∀ pair ∈ allocations.zip shares,
        listedAmounts name pair.1.allocatedResourceCeilings =
            [pair.2.maximum.amount (.resource name)] ∨
          listedAmounts name pair.1.allocatedResourceCeilings = [] ∧
            pair.2.maximum.amount (.resource name) = 0 := by
      intro pair hpair
      exact listedAmounts_of_isShare
        (hcloses.closes pair.1 (List.of_mem_zip hpair).1)
        (List.forall₂_zip hshares hpair) name
    have hfold := foldlM_zeros (rounded_zero pythonContext) hzeros
    have hfirst : (allocations.zip shares).map Prod.fst = allocations :=
      List.map_fst_zip hshares.length_eq.le
    have hsecond : (allocations.zip shares).map Prod.snd = shares :=
      List.map_snd_zip hshares.length_eq.ge
    have hlists : ((allocations.zip shares).flatMap fun pair ↦
        listedAmounts name pair.1.allocatedResourceCeilings) = allocations.flatMap fun allocation ↦
          listedAmounts name allocation.allocatedResourceCeilings := by
      conv_rhs => rw [← hfirst, List.flatMap_map]
    have hamounts : ((allocations.zip shares).map fun pair ↦
        pair.2.maximum.amount (.resource name)) = shares.map fun share ↦
          share.maximum.amount (.resource name) := by
      conv_rhs => rw [← hsecond, List.map_map]
      rfl
    rw [hlists, hamounts] at hfold
    exact hfold.symm

theorem finite_toRat (amount : BudgetAmount) {dimension : Dimension}
    (hinteger : ¬dimension.IsDecimal) :
    amount.amount dimension = .finite (amount.amount dimension).toRat := by
  cases dimension with
  | wallSeconds => exact absurd trivial hinteger
  | cost => exact absurd trivial hinteger
  | resource name => exact absurd trivial hinteger
  | _ => rfl

/-- The shares of a closed reservation have a sum: the maximum, but for the provider units, which
are all under the last dimension of their provider. -/
theorem exists_sumOwnerAmounts (hcloses : ReservationCloses reservation allocations)
    (hcheck : validatePrepare claim reservation intent maximum = .ok ())
    (hunits : PerOwnerUnits allocations maximum)
    (hshares : List.Forall₂ (IsShare maximum) allocations shares) :
    ∃ total, sumOwnerAmounts shares = .ok total ∧
      (∀ dimension : Dimension, (∀ key, dimension ≠ .providerUnit key) →
        total.amount dimension = maximum.amount dimension) ∧
      (∀ key : ProviderKey, total.amount (.providerUnit key) =
        .finite (unitsUnder maximum key key.provider)) ∧
      ∀ name, total.unit? name = maximum.unit? name := by
  obtain ⟨hresources, hattempts, hinput, houtput, -⟩ := amounts_of_validatePrepare hcheck
  have hunit : ∀ share ∈ shares, ∀ name unit, share.maximum.unit? name = some unit →
      unit = (maximum.unit? name).getD "" := by
    intro share hshare name unit hname
    obtain ⟨index, hindex, rfl⟩ := List.getElem_of_mem hshare
    have hallocation := hshares.length_eq.symm ▸ hindex
    have hshare := (List.forall₂_iff_get.mp hshares).2 index hallocation hindex
    obtain ⟨number, hnumber⟩ := BudgetAmount.unit?_eq_some.mp hname
    have hitem := BudgetAmount.lookup_resourceTable.mp hnumber
    change _ ∈ (shares.get ⟨index, hindex⟩).maximum.resources at hitem
    rw [hshare.fields] at hitem
    obtain ⟨resource, hresource, hsame⟩ :=
      List.mem_map.mp (BudgetFields.mem_resources_normalize.mp hitem).1
    rw [Prod.mk.injEq, Prod.mk.injEq] at hsame
    obtain ⟨rfl, -, rfl⟩ := hsame
    obtain ⟨amount, hamount⟩ := (foldlM_addResource_eq_ok hcloses.resources).2.2 resource
      (List.mem_flatMap.mpr ⟨_, List.get_mem allocations ⟨index, hallocation⟩, hresource⟩)
    rw [← hresources] at hamount
    rw [BudgetAmount.unit?_eq_some.mpr ⟨amount, BudgetAmount.lookup_resourceTable.mpr hamount⟩]
    rfl
  obtain ⟨total, htotal, hdecimals, hcounts, hunitNames⟩ := @exists_sum shares BudgetAmount.zero
    (fun name ↦ (maximum.unit? name).getD "") maximum.amount
    (fun dimension hdecimal ↦ by cases dimension <;> exact rounded_zero _)
    (fun dimension hdecimal ↦ by
      have hsum := sums_of_shares hcloses hcheck hshares hdecimal
      cases dimension <;> exact hsum)
    (fun name unit hname ↦ by cases hname) hunit
  have hscalar : ∀ dimension : Dimension, ¬dimension.IsDecimal →
      ∀ {count : ℤ} {read : OwnerAllocationRecord → ℤ},
      BudgetAmount.zero.amount dimension = .finite 0 → count = (allocations.map read).sum →
      (∀ allocation share, IsShare maximum allocation share →
        share.maximum.amount dimension = .finite (read allocation)) →
      total.amount dimension = .finite count := by
    intro dimension hinteger count read hzero hcount hread
    have hsum := hcounts dimension hinteger
    rw [hzero, map_shares hshares fun allocation share hshare ↦ by
      rw [hread allocation share hshare, Decimal.toRat_finite], Decimal.toRat_finite,
      zero_add] at hsum
    rw [finite_toRat total hinteger, hsum, hcount, Int.cast_list_sum, List.map_map]
    rfl
  have hkeys : ∀ key : ProviderKey, total.amount (.providerUnit key) =
      .finite (unitsUnder maximum key key.provider) := fun key ↦
    hscalar (.providerUnit key) not_false rfl (sum_unitsUnder hcloses.owners hunits key).symm
      fun _ _ hshare ↦ amount_providerUnit hshare key
  have hamounts : ∀ dimension : Dimension, (∀ key, dimension ≠ .providerUnit key) →
      total.amount dimension = maximum.amount dimension := by
    intro dimension hprovider
    cases dimension with
    | attempts =>
      change total.amount .attempts = .finite (maximum.attempts : ℤ)
      refine hscalar .attempts not_false rfl (hattempts.trans hcloses.attempts) fun _ _ hshare ↦ ?_
      rw [BudgetAmount.amount, hshare.fields]
      rfl
    | inputTokens =>
      change total.amount .inputTokens = .finite (maximum.inputTokens : ℤ)
      refine hscalar .inputTokens not_false rfl (hinput.trans hcloses.inputTokens)
        fun _ _ hshare ↦ ?_
      rw [BudgetAmount.amount, hshare.fields]
      rfl
    | outputTokens =>
      change total.amount .outputTokens = .finite (maximum.outputTokens : ℤ)
      refine hscalar .outputTokens not_false rfl (houtput.trans hcloses.outputTokens)
        fun _ _ hshare ↦ ?_
      rw [BudgetAmount.amount, hshare.fields]
      rfl
    | wallSeconds => exact hdecimals _ trivial
    | cost => exact hdecimals _ trivial
    | resource name => exact hdecimals _ trivial
    | providerUnit key => exact absurd rfl (hprovider key)
  refine ⟨total, htotal, hamounts, hkeys, fun name ↦ ?_⟩
  have hsame := hamounts (.resource name) (by simp)
  cases hunitName : total.unit? name with
  | none =>
    rw [eq_comm, BudgetAmount.unit?_eq_none, ← hsame, ← BudgetAmount.unit?_eq_none, hunitName]
  | some unit =>
    cases hname : maximum.unit? name with
    | none =>
      rw [BudgetAmount.unit?_eq_none, ← hsame, ← BudgetAmount.unit?_eq_none, hunitName] at hname
      cases hname
    | some unit' => rw [hunitNames name unit hunitName, hname, Option.getD_some]

/-- The runtime shares of the owners of a valid reservation have the amounts of the maximum, and its
provider units exactly when no provider has units of two operations or units. -/
theorem allocations_sum_iff (hcloses : ReservationCloses reservation allocations)
    (hcheck : validatePrepare claim reservation intent maximum = .ok ())
    (hunits : PerOwnerUnits allocations maximum) :
    (∀ shares, runtimeOwnerAllocations allocations maximum = .ok shares →
      shares.map BudgetOwnerAllocation.ownerId = allocations.map OwnerAllocationRecord.ownerId ∧
        ∃ total, sumOwnerAmounts shares = .ok total ∧
          (∀ dimension, total.amount dimension = maximum.amount dimension) ∧
          ∀ name, total.unit? name = maximum.unit? name) ↔
      (maximum.providerUnits.map fun item ↦ item.1.provider).Nodup := by
  obtain ⟨shares, hrun, hshares⟩ :=
    exists_runtimeOwnerAllocations hcloses.closes hcloses.owners hunits
  obtain ⟨total, htotal, hothers, hkeys, hunitNames⟩ :=
    exists_sumOwnerAmounts hcloses hcheck hunits hshares
  rw [← unitsUnder_eq_iff]
  constructor
  · intro hsums key
    obtain ⟨-, total', htotal', hamounts, -⟩ := hsums shares hrun
    have hsame : total' = total := Except.ok.inj (htotal'.symm.trans htotal)
    rw [← hkeys, ← hsame, hamounts]
  · intro hamounts shares' hrun'
    have hsame : shares' = shares := Except.ok.inj (hrun'.symm.trans hrun)
    rw [hsame]
    refine ⟨map_shares hshares fun _ _ hshare ↦ hshare.ownerId, total, htotal, ?_, hunitNames⟩
    intro dimension
    cases dimension with
    | providerUnit key => rw [hkeys, hamounts]
    | _ => exact hothers _ (by simp)

/-! ### A provider with two operations -/

def sampleRoute : BudgetRoute := ⟨"reservation", "budget", "hash", "route", "route"⟩

def sampleAllocations : List OwnerAllocationRecord :=
  [{ ownerId := "mem0", allocatedAttempts := 1, allocatedInputTokens := 10
     allocatedOutputTokens := 5, allocatedDispatchWallSeconds := 30
     allocatedProviderUnits := 3, allocatedCost := some (1 / 4), otherFields := ""
     allocatedResourceCeilings := [⟨"storage", 2, "mebibyte"⟩] },
   { ownerId := "extraction", allocatedAttempts := 2, allocatedInputTokens := 20
     allocatedOutputTokens := 5, allocatedDispatchWallSeconds := 15
     allocatedProviderUnits := 0, allocatedCost := some (1 / 2), otherFields := ""
     allocatedResourceCeilings := [⟨"storage", 1, "mebibyte"⟩] }]

def sampleReservation : BudgetReservationRecord where
  reservationId := "reservation"
  scopeKind := .run
  scopeId := "run"
  attemptId := "attempt"
  reservedAttempts := 3
  reservedInputTokens := 30
  reservedOutputTokens := 10
  reservedDispatchWallSeconds := 45
  reservedCost := some (3 / 4)
  reservedResourceCeilings := [⟨"storage", 3, "mebibyte"⟩]
  reservedProviderUnits := 3
  version := .version3 sampleRoute sampleAllocations
  otherFields := ""

def sampleClaim : OccurrenceClaimRecord where
  claimId := "claim"
  occurrenceId := "occurrence"
  stage := "ingestion"
  requestFingerprint := "fingerprint"
  reconciliationCapability := .none
  otherFields := ""

def sampleIntent : AttemptIntentRecord where
  attemptId := "attempt"
  claimId := "claim"
  reservationId := "reservation"
  parentKind := .ingestionPlan
  parentId := "occurrence"
  stage := "ingestion"
  requestFingerprint := "fingerprint"
  reconciliationCapability := .none
  idempotencyKeyHash := none
  version := .version3 "intent" .run "run" sampleRoute
  otherFields := ""

/-- The maximum of the sample reservation with the units of its provider. -/
def sampleMaximum (providerUnits : List ProviderAmount) : BudgetAmount :=
  ((BudgetAmount.ofFields
    { attempts := 3
      inputTokens := 30
      outputTokens := 10
      wallSeconds := .finite 45
      cost := .finite (3 / 4)
      resources := [("storage", .finite 3, "mebibyte")]
      providerUnits := providerUnits }).toOption).getD BudgetAmount.zero

/-- All units are of one operation. -/
def oneOperation : List ProviderAmount := [(⟨"mem0", "add", "call"⟩, 3)]

/-- The units are of two operations. -/
def twoOperations : List ProviderAmount :=
  [(⟨"mem0", "add", "call"⟩, 1), (⟨"mem0", "search", "call"⟩, 2)]

theorem sampleReservation_closes : ReservationCloses sampleReservation sampleAllocations where
  version := ⟨sampleRoute, rfl⟩
  closes := by
    intro allocation hallocation
    simp only [sampleAllocations, List.mem_cons, List.not_mem_nil, or_false] at hallocation
    rcases hallocation with rfl | rfl
    all_goals exact ⟨by decide, by decide, by decide, by decide, by decide +kernel,
      by decide +kernel, by decide +kernel, by decide, by simp⟩
  nonempty := by simp [sampleAllocations]
  owners := by decide
  attempts := rfl
  inputTokens := rfl
  outputTokens := rfl
  wallSeconds := by decide +kernel
  providerUnits := by decide +kernel
  resources := by decide +kernel
  currency := Or.inr ⟨by decide, 3 / 4, rfl, by decide +kernel⟩

/-- The sum of the shares lacks the units of the first operation. -/
theorem units_of_first_operation_lost :
    ReservationCloses sampleReservation sampleAllocations ∧
      validatePrepare sampleClaim sampleReservation sampleIntent (sampleMaximum twoOperations) =
        .ok () ∧
      PerOwnerUnits sampleAllocations (sampleMaximum twoOperations) ∧
      ¬∀ shares, runtimeOwnerAllocations sampleAllocations (sampleMaximum twoOperations) =
          .ok shares →
        ∃ total, sumOwnerAmounts shares = .ok total ∧
          ∀ dimension, total.amount dimension = (sampleMaximum twoOperations).amount dimension := by
  refine ⟨sampleReservation_closes, by decide +kernel,
    ⟨by decide +kernel, by decide +kernel⟩, fun hsums ↦ ?_⟩
  have hrun : ((runtimeOwnerAllocations sampleAllocations
      (sampleMaximum twoOperations)).toOption.bind fun shares ↦
        (sumOwnerAmounts shares).toOption.map fun total ↦
          decide (total.amount (.providerUnit ⟨"mem0", "add", "call"⟩) =
            (sampleMaximum twoOperations).amount (.providerUnit ⟨"mem0", "add", "call"⟩))) =
        some false := by decide +kernel
  cases hshares : runtimeOwnerAllocations sampleAllocations (sampleMaximum twoOperations) with
  | error failure =>
    rw [hshares] at hrun
    cases hrun
  | ok shares =>
    obtain ⟨total, htotal, hamounts⟩ := hsums shares hshares
    rw [hshares] at hrun
    simp [Except.toOption, htotal, hamounts] at hrun

/-- With units of one operation the shares sum up to the maximum. -/
theorem allocations_sum_of_one_operation :
    (∀ shares, runtimeOwnerAllocations sampleAllocations (sampleMaximum oneOperation) = .ok shares →
      shares.map BudgetOwnerAllocation.ownerId =
          sampleAllocations.map OwnerAllocationRecord.ownerId ∧
        ∃ total, sumOwnerAmounts shares = .ok total ∧
          (∀ dimension, total.amount dimension = (sampleMaximum oneOperation).amount dimension) ∧
          ∀ name, total.unit? name = (sampleMaximum oneOperation).unit? name) ↔
      ((sampleMaximum oneOperation).providerUnits.map fun item ↦ item.1.provider).Nodup :=
  @allocations_sum_iff _ _ sampleClaim _ sampleIntent sampleReservation_closes (by decide +kernel)
    ⟨by decide +kernel, by decide +kernel⟩

end Oamb.Runtime.AllocationGuarantees
