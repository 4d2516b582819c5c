import Oamb.Foundation.JsonRendering
import Oamb.Foundation.StatefulExecution
import Oamb.MemorySystems.ExactJson

/-!
# Responses of the administration of OpenViking

A response to an administrative request is sealed without the fields that hold secrets, at every
depth: it is read with the checks of the profile, its secret fields are left out, and what is kept is
written with sorted members. The text that the writer gives a double is a parameter.
-/

set_option autoImplicit false

namespace Oamb.MemorySystems.AdminResponses

open Foundation Foundation.Json Foundation.JsonText Foundation.JsonPaths Foundation.JsonRendering

open ExactJson

/-- The lower case of a character, when it is an ASCII character; the lower case of the Kelvin sign
is one, and of all others that are not ASCII none is. -/
def lowerChar (char : Char) : Char := if char = '\u212a' then 'k' else char.toLower

def lower (name : String) : String := String.ofList (name.toList.map lowerChar)

variable {hidden : String → Bool} {doubleText : String → DoubleText}

/-- The names of the members that are kept. -/
theorem names_kept (members : List (String × Json)) :
    (renderMembers doubleText (withoutMembers hidden members)).map Prod.fst =
      (members.filter fun member ↦ !hidden member.1).map Prod.fst := by
  rw [renderMembers_eq_map, withoutMembers_eq_map, List.map_map, List.map_map]
  rfl

mutual

/-- What is kept of a document without faults has no name twice, and finite numbers only. -/
theorem exact_kept : ∀ value : Json, fault value = none →
    finiteNumbers (without hidden value) = true →
    (renderNumbers doubleText (without hidden value)).exact = true
  | .null, _, _ | .bool _, _, _ | .integer _, _, _ | .string _, _, _ => by
    rw [without, renderNumbers] <;> simp [Json.exact]
  | .real finite text, _, hfinite => by
    rw [without, renderNumbers] <;> simp_all [Json.exact, without, finiteNumbers]
  | .array items, hfault, hfinite => by
    rw [fault] at hfault
    rw [without, finiteNumbers] at hfinite
    rw [without, renderNumbers, Json.exact]
    exact exactItems_kept items hfault hfinite
  | .object members, hfault, hfinite => by
    rw [fault, Option.or_eq_none_iff, Option.map_eq_none_iff] at hfault
    rw [without, finiteNumbers] at hfinite
    have hnodup := (nodup_of_repeatedName hfault.2).sublist
      ((List.filter_sublist (p := fun member : String × Json ↦ !hidden member.1)).map Prod.fst)
    rw [without, renderNumbers, Json.exact, Bool.and_eq_true, decide_eq_true_eq, names_kept]
    exact ⟨hnodup, exactMembers_kept members hfault.1 hfinite⟩

theorem exactItems_kept : ∀ items : List Json, faultItems items = none →
    finiteItems (withoutItems hidden items) = true →
    exactItems (renderItems doubleText (withoutItems hidden items)) = true
  | [], _, _ => rfl
  | item :: items, hfault, hfinite => by
    rw [faultItems, Option.or_eq_none_iff] at hfault
    rw [withoutItems, finiteItems, Bool.and_eq_true] at hfinite
    rw [withoutItems, renderItems, exactItems, exact_kept item hfault.1 hfinite.1,
      exactItems_kept items hfault.2 hfinite.2]
    rfl

theorem exactMembers_kept : ∀ members : List (String × Json), faultMembers members = none →
    finiteMembers (withoutMembers hidden members) = true →
    exactMembers (renderMembers doubleText (withoutMembers hidden members)) = true
  | [], _, _ => rfl
  | (name, value) :: members, hfault, hfinite => by
    rw [faultMembers, Option.or_eq_none_iff] at hfault
    rw [withoutMembers] at hfinite ⊢
    split
    · next hname =>
      rw [if_pos hname] at hfinite
      exact exactMembers_kept members hfault.2 hfinite
    · next hname =>
      rw [if_neg hname, finiteMembers, Bool.and_eq_true] at hfinite
      rw [renderMembers, exactMembers, exact_kept value hfault.1 hfinite.1,
        exactMembers_kept members hfault.2 hfinite.2]
      rfl

end

end Oamb.MemorySystems.AdminResponses
