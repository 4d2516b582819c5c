import Mathlib.Data.Prod.Lex
import Mathlib.Data.String.Basic
import Oamb.Foundation.DecimalContext
import Oamb.Foundation.Dictionary

/-!
# Budget amounts

The amounts that a budget ceiling bounds: attempts, tokens, wall seconds, cost, and two sparse
vectors of named resources and provider units. The constructor drops zero items, sorts, and refuses
negative amounts, repeated dimensions and empty names; an amount carries the proof of what was
checked. `_require_fits` compares two amounts dimension by dimension, and `requireFits_eq_ok` says
what its acceptance means. Arithmetic on wall seconds, cost and resources is decimal arithmetic in
the default context of the interpreter and may round; arithmetic on counts is exact.
-/

set_option autoImplicit false

namespace Oamb.Runtime.ResourceAmounts

open Foundation Foundation.DecimalContext

/-- The default decimal context of the interpreter. Assumes: no budget code changes it. -/
def pythonContext : Context where
  precision := 28
  etiny := -1000026
  emax := 999999
  precision_pos := by decide

/-- The exceptions of the budget module. -/
inductive BudgetError
  | valueError (message : String)
  | budgetExceeded (message : String)
  | reservationState (message : String)
  | keyError (key : String)
  | decimalSignal (signal : Signal)
  deriving DecidableEq

/-- The identity of a provider unit. -/
@[ext] structure ProviderKey where
  provider : String
  operation : String
  unit : String

namespace ProviderKey

/-- The key as a tuple in the lexicographic order. -/
def toTuple (key : ProviderKey) : String ×ₗ String ×ₗ String :=
  toLex (key.provider, toLex (key.operation, key.unit))

theorem toTuple_injective : Function.Injective toTuple := by
  intro first second heq
  simpa [toTuple, ProviderKey.ext_iff] using heq

instance : LinearOrder ProviderKey := LinearOrder.lift' toTuple toTuple_injective

end ProviderKey

/-- A named resource: its dimension, amount and unit. -/
abbrev ResourceAmount := String × Decimal × String

/-- A provider unit: its identity and amount. -/
abbrev ProviderAmount := ProviderKey × ℤ

/-- The arguments of the amount constructor, with its defaults. -/
structure BudgetFields where
  attempts : ℤ := 0
  inputTokens : ℤ := 0
  outputTokens : ℤ := 0
  wallSeconds : Decimal := 0
  cost : Decimal := 0
  resources : List ResourceAmount := []
  providerUnits : List ProviderAmount := []
  deriving DecidableEq

namespace BudgetFields

/-- The sparse vectors without zero items, in the order of their keys. -/
def normalize (fields : BudgetFields) : BudgetFields :=
  { fields with
    resources := (fields.resources.filter fun item ↦ item.2.1 ≠ 0).insertionSort
      fun first second ↦ first.1 ≤ second.1
    providerUnits := (fields.providerUnits.filter fun item ↦ item.2 ≠ 0).insertionSort
      fun first second ↦ first.1 ≤ second.1 }

/-- What the amount constructor checks, together with what it establishes by dropping zeros. -/
structure Valid (fields : BudgetFields) : Prop where
  scalars : 0 ≤ fields.attempts ∧ 0 ≤ fields.inputTokens ∧ 0 ≤ fields.outputTokens ∧
    0 ≤ fields.wallSeconds ∧ 0 ≤ fields.cost
  resourceKeys : (fields.resources.map Prod.fst).Nodup
  providerKeys : (fields.providerUnits.map Prod.fst).Nodup
  resources : ∀ item ∈ fields.resources, 0 ≤ item.2.1 ∧ item.2.2 ≠ ""
  providerUnits : ∀ item ∈ fields.providerUnits, 0 ≤ item.2 ∧
    (item.1.provider ≠ "" ∧ item.1.operation ≠ "" ∧ item.1.unit ≠ "")
  resources_ne_zero : ∀ item ∈ fields.resources, item.2.1 ≠ 0
  providerUnits_ne_zero : ∀ item ∈ fields.providerUnits, item.2 ≠ 0

theorem mem_resources_normalize {fields : BudgetFields} {item : ResourceAmount} :
    item ∈ fields.normalize.resources ↔ item ∈ fields.resources ∧ item.2.1 ≠ 0 := by
  simp [normalize]

theorem mem_providerUnits_normalize {fields : BudgetFields} {item : ProviderAmount} :
    item ∈ fields.normalize.providerUnits ↔ item ∈ fields.providerUnits ∧ item.2 ≠ 0 := by
  simp [normalize]

theorem nodup_resources_normalize {fields : BudgetFields}
    (hnodup : (fields.resources.map Prod.fst).Nodup) :
    (fields.normalize.resources.map Prod.fst).Nodup := by
  rw [normalize, ((List.perm_insertionSort _ _).map Prod.fst).nodup_iff]
  exact hnodup.sublist (List.filter_sublist.map _)

theorem nodup_providerUnits_normalize {fields : BudgetFields}
    (hnodup : (fields.providerUnits.map Prod.fst).Nodup) :
    (fields.normalize.providerUnits.map Prod.fst).Nodup := by
  rw [normalize, ((List.perm_insertionSort _ _).map Prod.fst).nodup_iff]
  exact hnodup.sublist (List.filter_sublist.map _)

end BudgetFields

/-- An accepted amount. -/
structure BudgetAmount extends BudgetFields where
  /-- The amount was accepted by the constructor. -/
  valid : toBudgetFields.Valid
  deriving DecidableEq

namespace BudgetAmount

/-- The amount constructor. -/
def ofFields (fields : BudgetFields) : Except BudgetError BudgetAmount :=
  let amount := fields.normalize
  if hscalars : 0 ≤ amount.attempts ∧ 0 ≤ amount.inputTokens ∧ 0 ≤ amount.outputTokens ∧
      0 ≤ amount.wallSeconds ∧ 0 ≤ amount.cost then
    if hresourceKeys : (amount.resources.map Prod.fst).Nodup then
      if hproviderKeys : (amount.providerUnits.map Prod.fst).Nodup then
        if hresources : ∀ item ∈ amount.resources, 0 ≤ item.2.1 ∧ item.2.2 ≠ "" then
          if hproviderUnits : ∀ item ∈ amount.providerUnits, 0 ≤ item.2 ∧
              (item.1.provider ≠ "" ∧ item.1.operation ≠ "" ∧ item.1.unit ≠ "") then
            .ok ⟨amount, hscalars, hresourceKeys, hproviderKeys, hresources, hproviderUnits,
              fun _ hmem ↦ (BudgetFields.mem_resources_normalize.mp hmem).2,
              fun _ hmem ↦ (BudgetFields.mem_providerUnits_normalize.mp hmem).2⟩
          else .error (.valueError "provider units must be valid")
        else .error (.valueError "resource amounts and units must be valid")
      else .error (.valueError "provider unit dimensions must be unique")
    else .error (.valueError "resource dimensions must be unique")
  else .error (.valueError "budget amounts must be non-negative")

theorem ofFields_eq_ok {fields : BudgetFields} {amount : BudgetAmount} :
    ofFields fields = .ok amount ↔ amount.toBudgetFields = fields.normalize := by
  constructor
  · intro hok
    simp only [ofFields] at hok
    split_ifs at hok
    cases hok
    rfl
  · intro heq
    obtain ⟨stored, hvalid⟩ := amount
    subst heq
    simp only [ofFields, dif_pos hvalid.scalars, dif_pos hvalid.resourceKeys,
      dif_pos hvalid.providerKeys, dif_pos hvalid.resources, dif_pos hvalid.providerUnits]

theorem exists_ofFields {fields : BudgetFields} (hvalid : fields.normalize.Valid) :
    ∃ amount, ofFields fields = .ok amount :=
  ⟨⟨fields.normalize, hvalid⟩, ofFields_eq_ok.mpr rfl⟩

/-- The amount without any item. -/
def zero : BudgetAmount where
  toBudgetFields := {}
  valid := ⟨by decide +kernel, by simp, by simp, by simp, by simp, by simp, by simp⟩

instance : Inhabited BudgetAmount := ⟨zero⟩

end BudgetAmount

/-! ### Dimensions -/

/-- A dimension in which amounts are compared. -/
inductive Dimension
  | attempts
  | inputTokens
  | outputTokens
  | wallSeconds
  | cost
  | resource (dimension : String)
  | providerUnit (key : ProviderKey)

namespace Dimension

/-- The dimensions whose amounts are decimal numbers; the others are integers. -/
def IsDecimal : Dimension → Prop
  | wallSeconds | cost | resource _ => True
  | attempts | inputTokens | outputTokens | providerUnit _ => False

end Dimension

namespace BudgetAmount

variable (budget : BudgetAmount)

/-- The resources by dimension. -/
def resourceTable : Dictionary String (Decimal × String) := Dictionary.ofList budget.resources

/-- The provider units by identity. -/
def providerTable : Dictionary ProviderKey ℤ := Dictionary.ofList budget.providerUnits

/-- The amount in a dimension; a dimension that is not listed holds nothing. -/
def amount : Dimension → Decimal
  | .attempts => .finite budget.attempts
  | .inputTokens => .finite budget.inputTokens
  | .outputTokens => .finite budget.outputTokens
  | .wallSeconds => budget.wallSeconds
  | .cost => budget.cost
  | .resource dimension => ((budget.resourceTable.lookup dimension).map Prod.fst).getD 0
  | .providerUnit key => .finite ((budget.providerTable.lookup key).getD 0)

/-- The unit of a listed resource. -/
def unit? (dimension : String) : Option String :=
  (budget.resourceTable.lookup dimension).map Prod.snd

variable {budget}

theorem lookup_resourceTable {dimension : String} {item : Decimal × String} :
    budget.resourceTable.lookup dimension = some item ↔ (dimension, item) ∈ budget.resources :=
  Dictionary.lookup_ofList budget.valid.resourceKeys

theorem lookup_providerTable {key : ProviderKey} {count : ℤ} :
    budget.providerTable.lookup key = some count ↔ (key, count) ∈ budget.providerUnits :=
  Dictionary.lookup_ofList budget.valid.providerKeys

theorem amount_resource_of_lookup {dimension unit : String} {number : Decimal}
    (hlookup : budget.resourceTable.lookup dimension = some (number, unit)) :
    budget.amount (.resource dimension) = number := by
  simp [amount, hlookup]

theorem unit?_eq_some {dimension unit : String} : budget.unit? dimension = some unit ↔
    ∃ number, budget.resourceTable.lookup dimension = some (number, unit) := by
  simp [unit?]

/-- No amount is negative. -/
theorem amount_nonneg (budget : BudgetAmount) (dimension : Dimension) :
    0 ≤ budget.amount dimension := by
  have hscalars := budget.valid.scalars
  cases dimension with
  | attempts => exact (Decimal.zero_le_finite _).mpr (Int.cast_nonneg hscalars.1)
  | inputTokens => exact (Decimal.zero_le_finite _).mpr (Int.cast_nonneg hscalars.2.1)
  | outputTokens => exact (Decimal.zero_le_finite _).mpr (Int.cast_nonneg hscalars.2.2.1)
  | wallSeconds => exact hscalars.2.2.2.1
  | cost => exact hscalars.2.2.2.2
  | resource name =>
    cases hlookup : budget.resourceTable.lookup name with
    | none => simp [amount, hlookup]
    | some item =>
      rw [amount_resource_of_lookup hlookup]
      exact (budget.valid.resources _ (lookup_resourceTable.mp hlookup)).1
  | providerUnit key =>
    cases hlookup : budget.providerTable.lookup key with
    | none => simp [amount, hlookup]
    | some count =>
      have hcount := (budget.valid.providerUnits _ (lookup_providerTable.mp hlookup)).1
      simpa [amount, hlookup] using hcount

/-- A resource is listed exactly when its amount is not zero. -/
theorem unit?_eq_none {dimension : String} :
    budget.unit? dimension = none ↔ budget.amount (.resource dimension) = 0 := by
  cases hlookup : budget.resourceTable.lookup dimension with
  | none => simp [unit?, amount, hlookup]
  | some item =>
    have hne := budget.valid.resources_ne_zero _ (lookup_resourceTable.mp hlookup)
    simp [unit?, amount, hlookup, hne]

end BudgetAmount

end Oamb.Runtime.ResourceAmounts
