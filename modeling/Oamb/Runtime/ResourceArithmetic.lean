import Oamb.Runtime.ResourceAmounts

/-!
# Comparing and combining budget amounts

`requireFits` is the check before every change of a ledger and `combine` the sum or difference of
two amounts. `requireFits_eq_ok` reads the check as an order: every dimension of the amount is at
most the same dimension of the maximum and every listed unit is the unit of the maximum.

A combination is read through its operations: `Combination.amount_of_isDecimal` and
`Combination.amount_of_not_isDecimal` give every amount of the result, and
`Combination.unit_of_unit` the units it may list. `exists_combine` says when a combination is
accepted.
-/

set_option autoImplicit false

namespace Oamb.Runtime.ResourceArithmetic

open Foundation Foundation.DecimalContext ResourceAmounts

/-! ### The ceiling check -/

/-- The scalar fields in the order of their checks. -/
def scalarFields : List (String × Dimension) :=
  [("attempts", .attempts), ("input_tokens", .inputTokens), ("output_tokens", .outputTokens),
    ("wall_seconds", .wallSeconds), ("cost", .cost)]

/-- Whether a resource crosses the maximum: by its unit, or by its amount. -/
def exceedsResource (maximum : BudgetAmount) (item : ResourceAmount) : Bool :=
  let limit := (maximum.resourceTable.lookup item.1).getD (0, item.2.2)
  item.2.2 ≠ limit.2 || ¬ item.2.1 ≤ limit.1

/-- Whether a provider unit crosses the maximum. -/
def exceedsProvider (maximum : BudgetAmount) (item : ProviderAmount) : Bool :=
  ¬ item.2 ≤ (maximum.providerTable.lookup item.1).getD 0

/-- Refuse an amount that crosses the maximum in some dimension. -/
def requireFits (label : String) (value maximum : BudgetAmount) : Except BudgetError Unit :=
  match scalarFields.find? fun field ↦ ¬ value.amount field.2 ≤ maximum.amount field.2 with
  | some field => .error (.budgetExceeded s!"{label} {field.1} ceiling exceeded")
  | none =>
    match value.resources.find? (exceedsResource maximum) with
    | some item => .error (.budgetExceeded s!"{label} resource {item.1} ceiling exceeded")
    | none =>
      match value.providerUnits.find? (exceedsProvider maximum) with
      | some item => .error (.budgetExceeded
          s!"{label} provider {item.1.provider}/{item.1.operation}/{item.1.unit} ceiling exceeded")
      | none => .ok ()

/-- The amount is at most the maximum in every dimension, in the units of the maximum. -/
structure Fits (value maximum : BudgetAmount) : Prop where
  amount_le : ∀ dimension, value.amount dimension ≤ maximum.amount dimension
  unit_eq : ∀ dimension unit, value.unit? dimension = some unit →
    maximum.unit? dimension = some unit

theorem not_exceedsResource {value maximum : BudgetAmount} {dimension unit : String}
    {number : Decimal} (hlookup : value.resourceTable.lookup dimension = some (number, unit)) :
    exceedsResource maximum (dimension, number, unit) = false ↔
      value.amount (.resource dimension) ≤ maximum.amount (.resource dimension) ∧
        maximum.unit? dimension = some unit := by
  have hmem := BudgetAmount.lookup_resourceTable.mp hlookup
  have hnonneg : 0 ≤ number := (value.valid.resources _ hmem).1
  have hne : number ≠ 0 := value.valid.resources_ne_zero _ hmem
  rw [BudgetAmount.amount_resource_of_lookup hlookup]
  cases hmaximum : maximum.resourceTable.lookup dimension with
  | none =>
    have hpositive : ¬ number ≤ 0 := fun hle ↦ hne (Decimal.eq_zero_of_le_zero hnonneg hle)
    simp [exceedsResource, BudgetAmount.unit?, hmaximum, hpositive]
  | some limit =>
    have hunits : unit = limit.2 ↔ limit.2 = unit := eq_comm
    simp [exceedsResource, BudgetAmount.unit?, BudgetAmount.amount, hmaximum, and_comm, hunits]

theorem requireFits_eq_ok {label : String} {value maximum : BudgetAmount} :
    requireFits label value maximum = .ok () ↔ Fits value maximum := by
  constructor
  · intro hok
    simp only [requireFits] at hok
    split at hok
    · cases hok
    · rename_i hscalars
      split at hok
      · cases hok
      · rename_i hresources
        split at hok
        · cases hok
        · rename_i hproviders
          simp only [scalarFields, List.find?_eq_none] at hscalars hresources hproviders
          constructor
          · intro dimension
            cases dimension with
            | resource name =>
              cases hlookup : value.resourceTable.lookup name with
              | none =>
                have hzero : value.amount (.resource name) = 0 := by
                  simp [BudgetAmount.amount, hlookup]
                exact hzero ▸ maximum.amount_nonneg _
              | some item =>
                have hfree := hresources _ (BudgetAmount.lookup_resourceTable.mp hlookup)
                exact ((not_exceedsResource hlookup).mp (by simpa using hfree)).1
            | providerUnit key =>
              cases hlookup : value.providerTable.lookup key with
              | none =>
                have hzero : value.amount (.providerUnit key) = 0 := by
                  simp [BudgetAmount.amount, hlookup, Decimal.zero_eq]
                exact hzero ▸ maximum.amount_nonneg _
              | some count =>
                have hfree := hproviders _ (BudgetAmount.lookup_providerTable.mp hlookup)
                simpa [exceedsProvider, BudgetAmount.amount, hlookup] using hfree
            | _ => simp_all
          · intro dimension unit hunit
            obtain ⟨number, hlookup⟩ := BudgetAmount.unit?_eq_some.mp hunit
            have hfree := hresources _ (BudgetAmount.lookup_resourceTable.mp hlookup)
            exact ((not_exceedsResource hlookup).mp (by simpa using hfree)).2
  · intro hfits
    have hscalars : scalarFields.find? (fun field ↦
        ¬ value.amount field.2 ≤ maximum.amount field.2) = none := by
      simp [List.find?_eq_none, hfits.amount_le]
    have hresources : value.resources.find? (exceedsResource maximum) = none := by
      rw [List.find?_eq_none]
      rintro ⟨dimension, number, unit⟩ hmem
      have hlookup := BudgetAmount.lookup_resourceTable.mpr hmem
      have hunit : value.unit? dimension = some unit :=
        BudgetAmount.unit?_eq_some.mpr ⟨number, hlookup⟩
      simpa using (not_exceedsResource hlookup).mpr
        ⟨hfits.amount_le _, hfits.unit_eq _ _ hunit⟩
    have hproviders : value.providerUnits.find? (exceedsProvider maximum) = none := by
      rw [List.find?_eq_none]
      rintro ⟨key, count⟩ hmem
      have hlookup := BudgetAmount.lookup_providerTable.mpr hmem
      simpa [exceedsProvider, BudgetAmount.amount, hlookup] using
        hfits.amount_le (.providerUnit key)
    simp only [requireFits, hscalars, hresources, hproviders]

/-! ### Combinations -/

/-- The decimal operation of a combination. -/
def decimalOperation (subtract : Bool) (first second : Decimal) : Except BudgetError Decimal :=
  match (if subtract then pythonContext.sub first second else pythonContext.add first second) with
  | .ok number => .ok number
  | .error signal => .error (.decimalSignal signal)

/-- The integer operation of a combination. -/
def integerOperation (subtract : Bool) (first second : ℤ) : ℤ :=
  if subtract then first - second else first + second

/-- Combine a resource with the stored amount of its dimension. -/
def combineResource (subtract : Bool) (dimension : String) (stored : Option (Decimal × String))
    (item : Decimal × String) : Except BudgetError (Decimal × String) :=
  let previous := stored.getD (0, item.2)
  if previous.2 ≠ item.2 then .error (.valueError s!"resource unit mismatch: {dimension}")
  else match decimalOperation subtract previous.1 item.1 with
    | .ok number => .ok (number, item.2)
    | .error failure => .error failure

/-- Combine a provider unit with the stored amount of its identity. -/
def combineProvider (subtract : Bool) (_key : ProviderKey) (stored : Option ℤ) (item : ℤ) :
    Except BudgetError ℤ :=
  .ok (integerOperation subtract (stored.getD 0) item)

/-- The combined resources in the order of their dimensions. -/
def combineResources (subtract : Bool) (first second : List ResourceAmount) :
    Except BudgetError (List ResourceAmount) := do
  let values ← Dictionary.merge (combineResource subtract) (Dictionary.ofList first) second
  return values.sortedItems

/-- The combined provider units in the order of their identities. -/
def combineProviders (subtract : Bool) (first second : List ProviderAmount) :
    Except BudgetError (List ProviderAmount) := do
  let values ← Dictionary.merge (combineProvider subtract) (Dictionary.ofList first) second
  return values.sortedItems

/-- The sum or the difference of two amounts. -/
def combine (subtract : Bool) (first second : BudgetAmount) : Except BudgetError BudgetAmount := do
  let wallSeconds ← decimalOperation subtract first.wallSeconds second.wallSeconds
  let cost ← decimalOperation subtract first.cost second.cost
  let resources ← combineResources subtract first.resources second.resources
  let providerUnits ← combineProviders subtract first.providerUnits second.providerUnits
  BudgetAmount.ofFields
    { attempts := integerOperation subtract first.attempts second.attempts
      inputTokens := integerOperation subtract first.inputTokens second.inputTokens
      outputTokens := integerOperation subtract first.outputTokens second.outputTokens
      wallSeconds := wallSeconds
      cost := cost
      resources := resources
      providerUnits := providerUnits }

/-- The sum of two amounts. -/
def add (first second : BudgetAmount) : Except BudgetError BudgetAmount :=
  combine false first second

/-- The difference of two amounts. -/
def subtract (first second : BudgetAmount) : Except BudgetError BudgetAmount :=
  combine true first second

/-- The result of a combination before it is normalized. -/
def combinedFields (subtract : Bool) (first second : BudgetAmount) (wallSeconds cost : Decimal)
    (resources : Dictionary String (Decimal × String)) (providerUnits : Dictionary ProviderKey ℤ) :
    BudgetFields :=
  { attempts := integerOperation subtract first.attempts second.attempts
    inputTokens := integerOperation subtract first.inputTokens second.inputTokens
    outputTokens := integerOperation subtract first.outputTokens second.outputTokens
    wallSeconds := wallSeconds
    cost := cost
    resources := resources.sortedItems
    providerUnits := providerUnits.sortedItems }

/-- The operations behind an accepted combination. -/
structure Combination (subtract : Bool) (first second result : BudgetAmount) where
  wallSeconds : Decimal
  cost : Decimal
  resources : Dictionary String (Decimal × String)
  providerUnits : Dictionary ProviderKey ℤ
  wallSeconds_eq : decimalOperation subtract first.wallSeconds second.wallSeconds = .ok wallSeconds
  cost_eq : decimalOperation subtract first.cost second.cost = .ok cost
  resources_eq : Dictionary.merge (combineResource subtract) first.resourceTable second.resources =
    .ok resources
  providerUnits_eq : Dictionary.merge (combineProvider subtract) first.providerTable
    second.providerUnits = .ok providerUnits
  result_eq : result.toBudgetFields =
    (combinedFields subtract first second wallSeconds cost resources providerUnits).normalize

theorem combine_eq_ok {subtract : Bool} {first second result : BudgetAmount} :
    combine subtract first second = .ok result ↔
      Nonempty (Combination subtract first second result) := by
  constructor
  · intro hok
    simp only [combine, combineResources, combineProviders, bind, Except.bind, pure,
      Except.pure] at hok
    split at hok
    · cases hok
    · rename_i wallSeconds hwall
      split at hok
      · cases hok
      · rename_i cost hcost
        cases hresources : Dictionary.merge (combineResource subtract)
            (Dictionary.ofList first.resources) second.resources with
        | error failure => simp [hresources] at hok
        | ok resources =>
          cases hproviders : Dictionary.merge (combineProvider subtract)
              (Dictionary.ofList first.providerUnits) second.providerUnits with
          | error failure => simp [hresources, hproviders] at hok
          | ok providerUnits =>
            simp only [hresources, hproviders] at hok
            exact ⟨⟨wallSeconds, cost, resources, providerUnits, hwall, hcost, hresources,
              hproviders, BudgetAmount.ofFields_eq_ok.mp hok⟩⟩
  · rintro ⟨combination⟩
    have hresources : combineResources subtract first.resources second.resources =
        .ok combination.resources.sortedItems := by
      have heq := combination.resources_eq
      rw [BudgetAmount.resourceTable] at heq
      rw [combineResources, heq]
      rfl
    have hproviders : combineProviders subtract first.providerUnits second.providerUnits =
        .ok combination.providerUnits.sortedItems := by
      have heq := combination.providerUnits_eq
      rw [BudgetAmount.providerTable] at heq
      rw [combineProviders, heq]
      rfl
    rw [combine, combination.wallSeconds_eq, combination.cost_eq, hresources, hproviders]
    exact BudgetAmount.ofFields_eq_ok.mpr combination.result_eq

namespace Combination

variable {subtract : Bool} {first second result : BudgetAmount}

theorem lookup_resourceTable (combination : Combination subtract first second result)
    {dimension unit : String} {number : Decimal} :
    result.resourceTable.lookup dimension = some (number, unit) ↔
      combination.resources.lookup dimension = some (number, unit) ∧ number ≠ 0 := by
  rw [BudgetAmount.lookup_resourceTable, combination.result_eq,
    BudgetFields.mem_resources_normalize]
  exact and_congr_left' Dictionary.mem_sortedItems

theorem lookup_providerTable (combination : Combination subtract first second result)
    {key : ProviderKey} {count : ℤ} : result.providerTable.lookup key = some count ↔
      combination.providerUnits.lookup key = some count ∧ count ≠ 0 := by
  rw [BudgetAmount.lookup_providerTable, combination.result_eq,
    BudgetFields.mem_providerUnits_normalize]
  exact and_congr_left' Dictionary.mem_sortedItems

theorem amount_resource (combination : Combination subtract first second result)
    (dimension : String) : result.amount (.resource dimension) =
      ((combination.resources.lookup dimension).map Prod.fst).getD 0 := by
  cases hresult : result.resourceTable.lookup dimension with
  | some item =>
    rw [BudgetAmount.amount_resource_of_lookup hresult,
      (combination.lookup_resourceTable.mp hresult).1]
    rfl
  | none =>
    rw [BudgetAmount.amount, hresult]
    cases hcombined : combination.resources.lookup dimension with
    | none => rfl
    | some item =>
      by_contra hne
      have hstored := combination.lookup_resourceTable.mpr ⟨hcombined, fun hzero ↦ hne hzero.symm⟩
      rw [hresult] at hstored
      cases hstored

theorem amount_providerUnit (combination : Combination subtract first second result)
    (key : ProviderKey) : result.amount (.providerUnit key) =
      .finite ((combination.providerUnits.lookup key).getD 0) := by
  cases hresult : result.providerTable.lookup key with
  | some count =>
    rw [BudgetAmount.amount, hresult, (combination.lookup_providerTable.mp hresult).1]
  | none =>
    rw [BudgetAmount.amount, hresult]
    cases hcombined : combination.providerUnits.lookup key with
    | none => rfl
    | some count =>
      by_cases hzero : count = 0
      · rw [hzero]
        rfl
      · have hstored := combination.lookup_providerTable.mpr ⟨hcombined, hzero⟩
        rw [hresult] at hstored
        cases hstored

theorem lookup_of_mem (combination : Combination subtract first second result)
    {dimension unit : String} {number : Decimal}
    (hlookup : second.resourceTable.lookup dimension = some (number, unit)) :
    ∃ combined, decimalOperation subtract (first.amount (.resource dimension)) number =
        .ok combined ∧
      combination.resources.lookup dimension = some (combined, unit) := by
  obtain ⟨⟨combined, stored⟩, hcombined, hresult⟩ := Dictionary.lookup_merge_of_mem
    combination.resources_eq second.valid.resourceKeys
    (BudgetAmount.lookup_resourceTable.mp hlookup)
  simp only [combineResource] at hcombined
  split_ifs at hcombined with hunit
  split at hcombined
  · rename_i hcomputed
    cases hcombined
    refine ⟨combined, ?_, hresult⟩
    rw [← hcomputed, BudgetAmount.amount]
    cases first.resourceTable.lookup dimension <;> rfl
  · cases hcombined

theorem lookup_of_notMem (combination : Combination subtract first second result)
    {dimension : String} (hlookup : second.resourceTable.lookup dimension = none) :
    combination.resources.lookup dimension = first.resourceTable.lookup dimension :=
  Dictionary.lookup_merge_of_notMem combination.resources_eq
    (Dictionary.lookup_ofList_eq_none.mp hlookup)

/-- A decimal dimension is combined by one decimal operation, or kept when nothing is added. -/
theorem amount_of_isDecimal (combination : Combination subtract first second result)
    {dimension : Dimension} (hdecimal : dimension.IsDecimal) :
    (second.amount dimension = 0 ∧ result.amount dimension = first.amount dimension) ∨
      decimalOperation subtract (first.amount dimension) (second.amount dimension) =
        .ok (result.amount dimension) := by
  cases dimension with
  | wallSeconds =>
    right
    have hstored : result.wallSeconds = combination.wallSeconds := by rw [combination.result_eq]; rfl
    exact combination.wallSeconds_eq.trans (congrArg Except.ok hstored.symm)
  | cost =>
    right
    have hstored : result.cost = combination.cost := by rw [combination.result_eq]; rfl
    exact combination.cost_eq.trans (congrArg Except.ok hstored.symm)
  | resource name =>
    cases hsecond : second.resourceTable.lookup name with
    | none =>
      left
      rw [combination.amount_resource, combination.lookup_of_notMem hsecond]
      exact ⟨by simp [BudgetAmount.amount, hsecond], rfl⟩
    | some item =>
      right
      obtain ⟨combined, hcombined, hlookup⟩ := combination.lookup_of_mem hsecond
      rw [combination.amount_resource, hlookup, BudgetAmount.amount_resource_of_lookup hsecond]
      exact hcombined
  | _ => exact hdecimal.elim

/-- An integer dimension is combined exactly. -/
theorem amount_of_not_isDecimal (combination : Combination subtract first second result)
    {dimension : Dimension} (hinteger : ¬ dimension.IsDecimal) :
    ∃ firstCount secondCount : ℤ, first.amount dimension = .finite firstCount ∧
      second.amount dimension = .finite secondCount ∧
      result.amount dimension = .finite (integerOperation subtract firstCount secondCount) := by
  cases dimension with
  | attempts => exact ⟨_, _, rfl, rfl, by rw [BudgetAmount.amount, combination.result_eq]; rfl⟩
  | inputTokens => exact ⟨_, _, rfl, rfl, by rw [BudgetAmount.amount, combination.result_eq]; rfl⟩
  | outputTokens => exact ⟨_, _, rfl, rfl, by rw [BudgetAmount.amount, combination.result_eq]; rfl⟩
  | providerUnit key =>
    refine ⟨_, _, rfl, rfl, ?_⟩
    rw [combination.amount_providerUnit]
    cases hsecond : second.providerTable.lookup key with
    | none =>
      rw [Dictionary.lookup_merge_of_notMem combination.providerUnits_eq
        (Dictionary.lookup_ofList_eq_none.mp hsecond)]
      cases subtract <;> simp [integerOperation]
    | some count =>
      obtain ⟨combined, hcombined, hlookup⟩ := Dictionary.lookup_merge_of_mem
        combination.providerUnits_eq second.valid.providerKeys
        (BudgetAmount.lookup_providerTable.mp hsecond)
      rw [combineProvider, Except.ok.injEq] at hcombined
      rw [hlookup, ← hcombined]
      rfl
  | _ => exact absurd trivial hinteger

/-- The result lists no unit that neither operand lists. -/
theorem unit_of_unit (combination : Combination subtract first second result)
    {dimension unit : String} (hunit : result.unit? dimension = some unit) :
    first.unit? dimension = some unit ∨ second.unit? dimension = some unit := by
  obtain ⟨number, hlookup⟩ := BudgetAmount.unit?_eq_some.mp hunit
  have hcombined := (combination.lookup_resourceTable.mp hlookup).1
  cases hsecond : second.resourceTable.lookup dimension with
  | none =>
    rw [combination.lookup_of_notMem hsecond] at hcombined
    exact Or.inl (BudgetAmount.unit?_eq_some.mpr ⟨number, hcombined⟩)
  | some item =>
    obtain ⟨computed, -, hstored⟩ := combination.lookup_of_mem hsecond
    rw [hcombined, Option.some.injEq, Prod.mk.injEq] at hstored
    exact Or.inr (BudgetAmount.unit?_eq_some.mpr ⟨item.1, by rw [hstored.2]; exact hsecond⟩)

/-- A unit of the second operand stays listed unless the combination empties its dimension. -/
theorem unit_of_second (combination : Combination subtract first second result)
    {dimension unit : String} (hunit : second.unit? dimension = some unit)
    (hne : result.amount (.resource dimension) ≠ 0) : result.unit? dimension = some unit := by
  obtain ⟨number, hsecond⟩ := BudgetAmount.unit?_eq_some.mp hunit
  obtain ⟨computed, -, hstored⟩ := combination.lookup_of_mem hsecond
  rw [combination.amount_resource, hstored] at hne
  exact BudgetAmount.unit?_eq_some.mpr
    ⟨computed, combination.lookup_resourceTable.mpr ⟨hstored, hne⟩⟩

end Combination

/-! ### Accepted combinations -/

section Accepted

variable {subtract : Bool} {first second : BudgetAmount}

theorem combineResource_eq_ok {name : String} {item : Decimal × String} {number : Decimal}
    (hlookup : second.resourceTable.lookup name = some item)
    (hnumber : decimalOperation subtract (first.amount (.resource name))
      (second.amount (.resource name)) = .ok number)
    (hunits : ∀ unit unit', first.unit? name = some unit → second.unit? name = some unit' →
      unit = unit') :
    combineResource subtract name (first.resourceTable.lookup name) item =
      .ok (number, item.2) := by
  rw [BudgetAmount.amount_resource_of_lookup hlookup] at hnumber
  cases hfirst : first.resourceTable.lookup name with
  | none =>
    simp only [BudgetAmount.amount, hfirst, Option.map_none, Option.getD_none] at hnumber
    simp [combineResource, hnumber]
  | some previous =>
    simp only [BudgetAmount.amount, hfirst, Option.map_some, Option.getD_some] at hnumber
    have hunit := hunits previous.2 item.2 (BudgetAmount.unit?_eq_some.mpr ⟨_, hfirst⟩)
      (BudgetAmount.unit?_eq_some.mpr ⟨_, hlookup⟩)
    simp [combineResource, hnumber, hunit]

/-- The resources of two amounts are combined when no result is negative and the units agree. -/
theorem exists_mergeResources
    (hdecimal : ∀ name, ∃ number, decimalOperation subtract (first.amount (.resource name))
      (second.amount (.resource name)) = .ok number ∧ 0 ≤ number)
    (hunits : ∀ name unit unit', first.unit? name = some unit → second.unit? name = some unit' →
      unit = unit') :
    ∃ resources, Dictionary.merge (combineResource subtract) first.resourceTable
        second.resources = .ok resources ∧
      ∀ name item, resources.lookup name = some item → 0 ≤ item.1 ∧ item.2 ≠ "" := by
  have hitem : ∀ name item, (name, item) ∈ second.resources → ∃ combined,
      combineResource subtract name (first.resourceTable.lookup name) item = .ok combined ∧
        0 ≤ combined.1 ∧ combined.2 = item.2 := by
    intro name item hmem
    have hlookup := BudgetAmount.lookup_resourceTable.mpr hmem
    obtain ⟨number, hnumber, hnonneg⟩ := hdecimal name
    exact ⟨_, combineResource_eq_ok hlookup hnumber (hunits name), hnonneg, rfl⟩
  obtain ⟨resources, hresources⟩ := Dictionary.exists_merge second.valid.resourceKeys
    fun name item hmem ↦ (hitem name item hmem).imp fun _ hcombined ↦ hcombined.1
  refine ⟨resources, hresources, ?_⟩
  intro name item hlookup
  cases hsecond : second.resourceTable.lookup name with
  | none =>
    have hkept := Dictionary.lookup_merge_of_notMem hresources
      (Dictionary.lookup_ofList_eq_none.mp hsecond)
    rw [hlookup] at hkept
    exact first.valid.resources _ (BudgetAmount.lookup_resourceTable.mp hkept.symm)
  | some added =>
    have hmem := BudgetAmount.lookup_resourceTable.mp hsecond
    obtain ⟨combined, hcombined, hstored⟩ := Dictionary.lookup_merge_of_mem hresources
      second.valid.resourceKeys hmem
    obtain ⟨expected, hexpected, hnonneg, hunit⟩ := hitem name added hmem
    rw [hexpected, Except.ok.injEq] at hcombined
    rw [hlookup, Option.some.injEq] at hstored
    subst hcombined hstored
    exact ⟨hnonneg, hunit ▸ (second.valid.resources _ hmem).2⟩

/-- The provider units of two amounts are combined when no result is negative. -/
theorem exists_mergeProviders
    (hinteger : ∀ key firstCount secondCount, first.amount (.providerUnit key) =
      .finite (firstCount : ℤ) → second.amount (.providerUnit key) = .finite (secondCount : ℤ) →
      0 ≤ integerOperation subtract firstCount secondCount) :
    ∃ providerUnits, Dictionary.merge (combineProvider subtract) first.providerTable
        second.providerUnits = .ok providerUnits ∧
      ∀ key count, providerUnits.lookup key = some count →
        0 ≤ count ∧ (key.provider ≠ "" ∧ key.operation ≠ "" ∧ key.unit ≠ "") := by
  obtain ⟨providerUnits, hproviders⟩ : ∃ providerUnits, Dictionary.merge
      (combineProvider subtract) first.providerTable second.providerUnits = .ok providerUnits :=
    Dictionary.exists_merge second.valid.providerKeys fun _ _ _ ↦ ⟨_, rfl⟩
  refine ⟨providerUnits, hproviders, ?_⟩
  intro key count hlookup
  cases hsecond : second.providerTable.lookup key with
  | none =>
    have hkept := Dictionary.lookup_merge_of_notMem hproviders
      (Dictionary.lookup_ofList_eq_none.mp hsecond)
    rw [hlookup] at hkept
    exact first.valid.providerUnits _ (BudgetAmount.lookup_providerTable.mp hkept.symm)
  | some added =>
    have hmem := BudgetAmount.lookup_providerTable.mp hsecond
    obtain ⟨combined, hcombined, hstored⟩ := Dictionary.lookup_merge_of_mem hproviders
      second.valid.providerKeys hmem
    rw [combineProvider, Except.ok.injEq] at hcombined
    rw [hlookup, Option.some.injEq] at hstored
    subst hcombined hstored
    exact ⟨hinteger key _ _ rfl (by rw [BudgetAmount.amount, hsecond]; rfl),
      (second.valid.providerUnits _ hmem).2⟩

/-- A combination is accepted when every decimal operation has a nonnegative result, no count
becomes negative and no dimension has two units. -/
theorem exists_combine
    (hdecimal : ∀ dimension : Dimension, dimension.IsDecimal → ∃ number,
      decimalOperation subtract (first.amount dimension) (second.amount dimension) = .ok number ∧
        0 ≤ number)
    (hinteger : ∀ (dimension : Dimension) (firstCount secondCount : ℤ), ¬ dimension.IsDecimal →
      first.amount dimension = .finite firstCount → second.amount dimension = .finite secondCount →
      0 ≤ integerOperation subtract firstCount secondCount)
    (hunits : ∀ name unit unit', first.unit? name = some unit → second.unit? name = some unit' →
      unit = unit') :
    ∃ result, combine subtract first second = .ok result := by
  obtain ⟨wallSeconds, hwall, hwallNonneg⟩ := hdecimal .wallSeconds trivial
  obtain ⟨cost, hcost, hcostNonneg⟩ := hdecimal .cost trivial
  obtain ⟨resources, hresources, hresourcesValid⟩ :=
    exists_mergeResources (fun name ↦ hdecimal (.resource name) trivial) hunits
  obtain ⟨providerUnits, hproviders, hprovidersValid⟩ :=
    exists_mergeProviders (fun key _ _ ↦ hinteger (.providerUnit key) _ _ id)
  have hvalid : (combinedFields subtract first second wallSeconds cost resources
      providerUnits).normalize.Valid :=
    { scalars := ⟨hinteger .attempts _ _ id rfl rfl, hinteger .inputTokens _ _ id rfl rfl,
        hinteger .outputTokens _ _ id rfl rfl, hwallNonneg, hcostNonneg⟩
      resourceKeys := BudgetFields.nodup_resources_normalize (Dictionary.nodup_sortedItems _)
      providerKeys := BudgetFields.nodup_providerUnits_normalize (Dictionary.nodup_sortedItems _)
      resources := fun _ hmem ↦ hresourcesValid _ _
        (Dictionary.mem_sortedItems.mp (BudgetFields.mem_resources_normalize.mp hmem).1)
      providerUnits := fun _ hmem ↦ hprovidersValid _ _
        (Dictionary.mem_sortedItems.mp (BudgetFields.mem_providerUnits_normalize.mp hmem).1)
      resources_ne_zero := fun _ hmem ↦ (BudgetFields.mem_resources_normalize.mp hmem).2
      providerUnits_ne_zero := fun _ hmem ↦ (BudgetFields.mem_providerUnits_normalize.mp hmem).2 }
  exact ⟨⟨_, hvalid⟩, combine_eq_ok.mpr ⟨⟨wallSeconds, cost, resources, providerUnits, hwall, hcost,
    hresources, hproviders, rfl⟩⟩⟩

end Accepted

end Oamb.Runtime.ResourceArithmetic
