import Mathlib.Algebra.Order.Pi
import Oamb.Runtime.ExactAccounts
import Oamb.Runtime.LedgerExecution

/-!
# The books of a ledger

A ledger keeps its reserved and its committed amounts in books with one account for the parent and
one for every owner, and a reservation is itself a page of such books: its maximum for the parent
and its allocations for the owners. Read as vectors over accounts and dimensions, booking or
releasing a page adds or subtracts one vector.

`exists_add_page` and `exists_subtract_page` are the arithmetic of a page: a sum that fits the
ceilings, and a difference that is nonnegative, are accepted and exact in every account and leave
booked amounts behind.
-/

set_option autoImplicit false

namespace Oamb.Runtime.LedgerBooks

open Foundation Foundation.DecimalContext ResourceAmounts ResourceArithmetic ExactAccounts
open LedgerExecution

/-- An account of a ledger: the parent, or the owner with a name. -/
abbrev AccountName := Option String

/-- A rational amount in every dimension of every account. -/
abbrev AmountVector := AccountName → Dimension → ℚ

/-- The amounts of the parent and of the owners. -/
structure Books where
  parent : BudgetAmount
  owners : Dictionary String BudgetAmount

namespace Books

/-- The amount of an account. -/
def amount? (books : Books) : AccountName → Option BudgetAmount
  | none => some books.parent
  | some owner => books.owners.lookup owner

/-- The books as a vector; an account that is not listed holds nothing. -/
def vector (books : Books) : AmountVector :=
  fun name dimension ↦ ((books.amount? name).map (value · dimension)).getD 0

theorem vector_of_amount {books : Books} {name : AccountName} {amount : BudgetAmount}
    (hamount : books.amount? name = some amount) (dimension : Dimension) :
    books.vector name dimension = value amount dimension := by
  rw [vector, hamount]
  rfl

theorem vector_of_none {books : Books} {name : AccountName} (hnone : books.amount? name = none)
    (dimension : Dimension) : books.vector name dimension = 0 := by
  rw [vector, hnone]
  rfl

theorem vector_nonneg (books : Books) : 0 ≤ books.vector := by
  intro name dimension
  cases hamount : books.amount? name with
  | none => exact (vector_of_none hamount dimension).ge
  | some amount => exact vector_of_amount hamount dimension ▸ value_nonneg amount dimension

end Books

/-- Every account that is listed in the books has a ceiling under which its amount is booked. -/
def PageBooked (quantum : ℤ) (ceilings : AccountName → Option BudgetAmount) (page : Books) : Prop :=
  ∀ name amount, page.amount? name = some amount →
    ∃ ceiling, ceilings name = some ceiling ∧ Booked quantum ceiling amount

/-- The books list exactly the accounts with a ceiling, each with a booked amount. -/
structure BooksBooked (quantum : ℤ) (ceilings : AccountName → Option BudgetAmount)
    (books : Books) : Prop where
  page : PageBooked quantum ceilings books
  listed : ∀ name ceiling, ceilings name = some ceiling → ∃ amount, books.amount? name = some amount

/-- The vector of the ceilings. -/
def ceilingVector (ceilings : AccountName → Option BudgetAmount) : AmountVector :=
  fun name dimension ↦ ((ceilings name).map (value · dimension)).getD 0

theorem ceilingVector_of_some {ceilings : AccountName → Option BudgetAmount} {name : AccountName}
    {ceiling : BudgetAmount} (hceiling : ceilings name = some ceiling) (dimension : Dimension) :
    ceilingVector ceilings name dimension = value ceiling dimension := by
  rw [ceilingVector, hceiling]
  rfl

/-- The exact combination of two vectors. -/
def exactVector (subtract : Bool) (first second : AmountVector) : AmountVector :=
  if subtract then first - second else first + second

theorem exactVector_apply (subtract : Bool) (first second : AmountVector) (name : AccountName)
    (dimension : Dimension) : exactVector subtract first second name dimension =
      exactOperation subtract (first name dimension) (second name dimension) := by
  cases subtract <;> rfl

section Combine

variable {quantum : ℤ} {ceilings : AccountName → Option BudgetAmount} {subtract : Bool}
  {books page : Books}

/-- The combination of one account with its share. -/
theorem exists_combine_amount (hadmits : pythonContext.Admits quantum)
    (hbounded : ∀ name ceiling, ceilings name = some ceiling → Bounded quantum ceiling)
    (hbooks : BooksBooked quantum ceilings books) (hpage : PageBooked quantum ceilings page)
    (hnonneg : 0 ≤ exactVector subtract books.vector page.vector)
    (hle : exactVector subtract books.vector page.vector ≤ ceilingVector ceilings)
    {name : AccountName} {share : BudgetAmount} (hshare : page.amount? name = some share) :
    ∃ ceiling stored result, ceilings name = some ceiling ∧ books.amount? name = some stored ∧
      combine subtract stored share = .ok result ∧ Booked quantum ceiling result ∧
      ∀ dimension, value result dimension =
        exactVector subtract books.vector page.vector name dimension := by
  obtain ⟨ceiling, hceiling, hshareBooked⟩ := hpage name share hshare
  obtain ⟨stored, hstored⟩ := hbooks.listed name ceiling hceiling
  obtain ⟨ceiling', hceiling', hstoredBooked⟩ := hbooks.page name stored hstored
  obtain rfl : ceiling = ceiling' := by rwa [hceiling, Option.some.injEq] at hceiling'
  have hexact : ∀ dimension, exactVector subtract books.vector page.vector name dimension =
      exactOperation subtract (value stored dimension) (value share dimension) := by
    intro dimension
    rw [exactVector_apply, Books.vector_of_amount hstored, Books.vector_of_amount hshare]
  have hfits : ∀ dimension,
      exactOperation subtract (value stored dimension) (value share dimension) ≤
        value ceiling dimension := by
    intro dimension
    rw [← hexact dimension, ← ceilingVector_of_some hceiling dimension]
    exact hle name dimension
  obtain ⟨result, hresult, hbooked, hvalue⟩ := Booked.exists_combine hadmits
    (hbounded name ceiling hceiling) hstoredBooked hshareBooked
    (fun dimension ↦ hexact dimension ▸ hnonneg name dimension) hfits
  exact ⟨ceiling, stored, result, hceiling, hstored, hresult, hbooked,
    fun dimension ↦ (hvalue dimension).trans (hexact dimension).symm⟩

/-- The accounts after a page was combined: an account of the page holds the exact combination, and
every other account what it held before. -/
structure Combined (quantum : ℤ) (ceilings : AccountName → Option BudgetAmount) (subtract : Bool)
    (books page result : Books) : Prop where
  changed : ∀ name share, page.amount? name = some share → ∃ ceiling amount,
    ceilings name = some ceiling ∧ result.amount? name = some amount ∧
      Booked quantum ceiling amount ∧
      ∀ dimension, value amount dimension =
        exactVector subtract books.vector page.vector name dimension
  kept : ∀ name, page.amount? name = none → result.amount? name = books.amount? name

theorem Combined.vector_eq {result : Books}
    (hcombined : Combined quantum ceilings subtract books page result) :
    result.vector = exactVector subtract books.vector page.vector := by
  funext name dimension
  cases hpage : page.amount? name with
  | none =>
    rw [exactVector_apply, Books.vector_of_none hpage, Books.vector, hcombined.kept name hpage]
    cases subtract <;> simp [exactOperation, Books.vector]
  | some share =>
    obtain ⟨ceiling, amount, -, hamount, -, hvalue⟩ := hcombined.changed name share hpage
    rw [Books.vector_of_amount hamount, hvalue]

theorem Combined.booksBooked {result : Books} (hbooks : BooksBooked quantum ceilings books)
    (hcombined : Combined quantum ceilings subtract books page result) :
    BooksBooked quantum ceilings result := by
  constructor
  · intro name amount hamount
    cases hpage : page.amount? name with
    | none => exact hbooks.page name amount (hcombined.kept name hpage ▸ hamount)
    | some share =>
      obtain ⟨ceiling, stored, hceiling, hstored, hbooked, -⟩ := hcombined.changed name share hpage
      obtain rfl : stored = amount := by rwa [hstored, Option.some.injEq] at hamount
      exact ⟨ceiling, hceiling, hbooked⟩
  · intro name ceiling hceiling
    cases hpage : page.amount? name with
    | none => exact hcombined.kept name hpage ▸ hbooks.listed name ceiling hceiling
    | some share =>
      obtain ⟨-, amount, -, hamount, -⟩ := hcombined.changed name share hpage
      exact ⟨amount, hamount⟩

/-- A page whose exact combination with the books is nonnegative and fits the ceilings is combined
with every account. -/
theorem exists_combine_page (hadmits : pythonContext.Admits quantum)
    (hbounded : ∀ name ceiling, ceilings name = some ceiling → Bounded quantum ceiling)
    (hbooks : BooksBooked quantum ceilings books) {parentShare : BudgetAmount}
    {items : List (String × BudgetAmount)} (hnodup : (items.map Prod.fst).Nodup)
    (hpage : PageBooked quantum ceilings ⟨parentShare, Dictionary.ofList items⟩)
    (hnonneg : 0 ≤ exactVector subtract books.vector
      (Books.mk parentShare (Dictionary.ofList items)).vector)
    (hle : exactVector subtract books.vector
      (Books.mk parentShare (Dictionary.ofList items)).vector ≤ ceilingVector ceilings) :
    ∃ parent owners, combine subtract books.parent parentShare = .ok parent ∧
      Dictionary.merge (combineOwner subtract) books.owners items = .ok owners ∧
      Combined quantum ceilings subtract books ⟨parentShare, Dictionary.ofList items⟩
        ⟨parent, owners⟩ := by
  have hcombine : ∀ name share,
      (Books.mk parentShare (Dictionary.ofList items)).amount? name = some share → _ :=
    fun name share ↦ exists_combine_amount hadmits hbounded hbooks hpage hnonneg hle
  obtain ⟨parentCeiling, storedParent, parent, hparentCeiling, hstoredParent, hparent,
    hparentBooked, hparentValue⟩ := hcombine none parentShare rfl
  obtain rfl : books.parent = storedParent := Option.some.inj hstoredParent
  have hitem : ∀ owner share, (owner, share) ∈ items →
      ∃ result, combineOwner subtract owner (books.owners.lookup owner) share = .ok result := by
    intro owner share hmem
    obtain ⟨-, stored, result, -, hstored, hresult, -, -⟩ :=
      hcombine (some owner) share ((Dictionary.lookup_ofList hnodup).mpr hmem)
    exact ⟨result, combineOwner_eq_ok.mpr ⟨stored, hstored, hresult⟩⟩
  obtain ⟨owners, howners⟩ := Dictionary.exists_merge hnodup hitem
  refine ⟨parent, owners, hparent, howners, ?_, ?_⟩
  · rintro (_ | owner) share hshare
    · obtain rfl : parentShare = share := Option.some.inj hshare
      exact ⟨parentCeiling, parent, hparentCeiling, rfl, hparentBooked, hparentValue⟩
    · obtain ⟨ceiling, stored, result, hceiling, hstored, hresult, hbooked, hvalue⟩ :=
        hcombine (some owner) share hshare
      obtain ⟨merged, hmerged, hlookup⟩ := Dictionary.lookup_merge_of_mem howners hnodup
        ((Dictionary.lookup_ofList hnodup).mp hshare)
      obtain ⟨stored', hstored', hresult'⟩ := combineOwner_eq_ok.mp hmerged
      obtain rfl : stored = stored' := Option.some.inj (hstored.symm.trans hstored')
      obtain rfl : result = merged := by rwa [hresult, Except.ok.injEq] at hresult'
      exact ⟨ceiling, result, hceiling, hlookup, hbooked, hvalue⟩
  · rintro (_ | owner) hnone
    · cases hnone
    · exact Dictionary.lookup_merge_of_notMem howners (Dictionary.lookup_ofList_eq_none.mp hnone)

end Combine

section Pages

variable {quantum : ℤ} {ceilings : AccountName → Option BudgetAmount} {books : Books}
  {parentShare : BudgetAmount} {items : List (String × BudgetAmount)}

/-- A page that fits on top of the books is added to every account. -/
theorem exists_add_page (hadmits : pythonContext.Admits quantum)
    (hbounded : ∀ name ceiling, ceilings name = some ceiling → Bounded quantum ceiling)
    (hbooks : BooksBooked quantum ceilings books) (hnodup : (items.map Prod.fst).Nodup)
    (hpage : PageBooked quantum ceilings ⟨parentShare, Dictionary.ofList items⟩)
    (hle : books.vector + (Books.mk parentShare (Dictionary.ofList items)).vector ≤
      ceilingVector ceilings) :
    ∃ parent owners, add books.parent parentShare = .ok parent ∧
      Dictionary.merge (combineOwner false) books.owners items = .ok owners ∧
      BooksBooked quantum ceilings ⟨parent, owners⟩ ∧
      (Books.mk parent owners).vector =
        books.vector + (Books.mk parentShare (Dictionary.ofList items)).vector := by
  have hnonneg : 0 ≤ exactVector false books.vector
      (Books.mk parentShare (Dictionary.ofList items)).vector :=
    add_nonneg (Books.vector_nonneg _) (Books.vector_nonneg _)
  obtain ⟨parent, owners, hparent, howners, hcombined⟩ :=
    exists_combine_page hadmits hbounded hbooks hnodup hpage hnonneg hle
  exact ⟨parent, owners, hparent, howners, hcombined.booksBooked hbooks, hcombined.vector_eq⟩

/-- A page that the books cover is subtracted from every account. -/
theorem exists_subtract_page (hadmits : pythonContext.Admits quantum)
    (hbounded : ∀ name ceiling, ceilings name = some ceiling → Bounded quantum ceiling)
    (hbooks : BooksBooked quantum ceilings books) (hnodup : (items.map Prod.fst).Nodup)
    (hpage : PageBooked quantum ceilings ⟨parentShare, Dictionary.ofList items⟩)
    (hcovered : (Books.mk parentShare (Dictionary.ofList items)).vector ≤ books.vector)
    (hle : books.vector ≤ ceilingVector ceilings) :
    ∃ parent owners, subtract books.parent parentShare = .ok parent ∧
      Dictionary.merge (combineOwner true) books.owners items = .ok owners ∧
      BooksBooked quantum ceilings ⟨parent, owners⟩ ∧
      (Books.mk parent owners).vector =
        books.vector - (Books.mk parentShare (Dictionary.ofList items)).vector := by
  have hnonneg : 0 ≤ exactVector true books.vector
      (Books.mk parentShare (Dictionary.ofList items)).vector := sub_nonneg.mpr hcovered
  have hfits : exactVector true books.vector
      (Books.mk parentShare (Dictionary.ofList items)).vector ≤ ceilingVector ceilings :=
    (sub_le_self _ (Books.vector_nonneg _)).trans hle
  obtain ⟨parent, owners, hparent, howners, hcombined⟩ :=
    exists_combine_page hadmits hbounded hbooks hnodup hpage hnonneg hfits
  exact ⟨parent, owners, hparent, howners, hcombined.booksBooked hbooks, hcombined.vector_eq⟩

end Pages

end Oamb.Runtime.LedgerBooks
