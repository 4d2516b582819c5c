import Oamb.Foundation.JsonText

/-!
# Trees of JSON values

A value occurs in another at a path of names; an array is passed without a step. A transformation
that works member by member and item by item brings nothing to a place that does not come from the
same place (`Pointwise.occurs`). Two of them are the reading of objects as dictionaries, where the
last member of a name counts, and the sorting of members.
-/

set_option autoImplicit false

namespace Oamb.Foundation.JsonTrees

open Json JsonText

/-! ### Occurrences -/

/-- A value occurs in a value at a path of names. -/
inductive Occurs : Json → List String → Json → Prop
  | here (value : Json) : Occurs value [] value
  | member {members : List (String × Json)} {name : String} {child value : Json}
    {path : List String} (hmem : (name, child) ∈ members) (hinside : Occurs child path value) :
    Occurs (.object members) (name :: path) value
  | item {items : List Json} {child value : Json} {path : List String} (hmem : child ∈ items)
    (hinside : Occurs child path value) : Occurs (.array items) path value

/-- The value is neither an object nor an array. -/
def isScalar (value : Json) : Bool := !value.isObject && !value.isArray

theorem occurs_of_isScalar {value other : Json} {path : List String}
    (hscalar : isScalar value = true) : Occurs value path other ↔ path = [] ∧ other = value := by
  constructor
  · intro hoccurs
    cases hoccurs with
    | here => exact ⟨rfl, rfl⟩
    | member => cases hscalar
    | item => cases hscalar
  · rintro ⟨rfl, rfl⟩
    exact .here _

/-! ### Transformations -/

/-- A transformation that works member by member and item by item. -/
structure Pointwise (change : Json → Json) : Prop where
  object_of : ∀ {value members}, change value = .object members → ∃ before,
    value = .object before ∧ ∀ member ∈ members, ∃ child, (member.1, child) ∈ before ∧
      member.2 = change child
  array_of : ∀ {value items}, change value = .array items → ∃ before,
    value = .array before ∧ ∀ item ∈ items, ∃ child ∈ before, item = change child

/-- What occurs after the transformation comes from the same place. -/
theorem Pointwise.occurs {change : Json → Json} (hchange : Pointwise change)
    {value other : Json} {path : List String} (hoccurs : Occurs (change value) path other) :
    ∃ child, Occurs value path child ∧ other = change child := by
  generalize htree : change value = tree at hoccurs
  induction hoccurs generalizing value with
  | here => exact ⟨value, .here value, htree.symm⟩
  | @member members name child other path hmem hinside ih =>
    obtain ⟨before, rfl, hmembers⟩ := hchange.object_of htree
    obtain ⟨source, hsource, hchild⟩ := hmembers _ hmem
    obtain ⟨inner, hinner, rfl⟩ := ih hchild.symm
    exact ⟨inner, .member hsource hinner, rfl⟩
  | @item items child other path hmem hinside ih =>
    obtain ⟨before, rfl, hitems⟩ := hchange.array_of htree
    obtain ⟨source, hsource, hchild⟩ := hitems _ hmem
    obtain ⟨inner, hinner, rfl⟩ := ih hchild.symm
    exact ⟨inner, .item hsource hinner, rfl⟩

/-! ### Dictionaries -/

/-- A dictionary with the value of a name, at the place of its name or at the end. -/
def setMember (members : List (String × Json)) (member : String × Json) : List (String × Json) :=
  if member.1 ∈ members.map Prod.fst then
    members.map fun other ↦ if other.1 = member.1 then member else other
  else members ++ [member]

/-- The dictionary of members: the first place and the last value of each name. -/
def lastMembers (members : List (String × Json)) : List (String × Json) :=
  members.foldl setMember []

mutual

/-- A value whose objects are read as dictionaries. -/
def asDictionaries : Json → Json
  | .object members => .object (lastMembers (dictionaryMembers members))
  | .array items => .array (dictionaryItems items)
  | value => value

/-- The items with their objects as dictionaries. -/
def dictionaryItems : List Json → List Json
  | [] => []
  | item :: items => asDictionaries item :: dictionaryItems items

/-- The members with the objects of their values as dictionaries. -/
def dictionaryMembers : List (String × Json) → List (String × Json)
  | [] => []
  | (name, value) :: members => (name, asDictionaries value) :: dictionaryMembers members

end

theorem dictionaryItems_eq_map (items : List Json) :
    dictionaryItems items = items.map asDictionaries := by
  induction items with
  | nil => rfl
  | cons item items ih => rw [dictionaryItems, ih, List.map_cons]

theorem dictionaryMembers_eq_map (members : List (String × Json)) :
    dictionaryMembers members =
      members.map fun member ↦ (member.1, asDictionaries member.2) := by
  induction members with
  | nil => rfl
  | cons member members ih => rw [dictionaryMembers, ih, List.map_cons]

/-- The members of a dictionary are among those that it is read from. -/
theorem mem_of_mem_lastMembers {members : List (String × Json)} {member : String × Json}
    (hmem : member ∈ lastMembers members) : member ∈ members := by
  induction members using List.reverseRecOn with
  | nil => exact hmem
  | append_singleton members last ih =>
    rw [lastMembers, List.foldl_append] at hmem
    change member ∈ setMember (lastMembers members) last at hmem
    rw [setMember] at hmem
    rw [List.mem_append, List.mem_singleton]
    split_ifs at hmem
    · obtain ⟨source, hsource, hmember⟩ := List.mem_map.mp hmem
      split_ifs at hmember
      · exact Or.inr hmember.symm
      · exact Or.inl (ih (hmember ▸ hsource))
    · exact (List.mem_append.mp hmem).imp ih List.mem_singleton.mp

theorem pointwise_asDictionaries : Pointwise asDictionaries := by
  constructor
  · intro value members hvalue
    cases value with
    | object before =>
      rw [asDictionaries, Json.object.injEq] at hvalue
      subst hvalue
      refine ⟨before, rfl, fun member hmem ↦ ?_⟩
      have hsource := mem_of_mem_lastMembers hmem
      rw [dictionaryMembers_eq_map] at hsource
      obtain ⟨⟨name, child⟩, hchild, rfl⟩ := List.mem_map.mp hsource
      exact ⟨child, hchild, rfl⟩
    | _ => cases hvalue
  · intro value items hvalue
    cases value with
    | array before =>
      rw [asDictionaries, Json.array.injEq] at hvalue
      subst hvalue
      refine ⟨before, rfl, fun item hmem ↦ ?_⟩
      rw [dictionaryItems_eq_map] at hmem
      obtain ⟨child, hchild, rfl⟩ := List.mem_map.mp hmem
      exact ⟨child, hchild, rfl⟩
    | _ => cases hvalue

/-! ### Sorted members -/

theorem pointwise_sorted : Pointwise sorted := by
  constructor
  · intro value members hvalue
    cases value with
    | object before =>
      rw [sorted, Json.object.injEq] at hvalue
      subst hvalue
      refine ⟨before, rfl, fun member hmem ↦ ?_⟩
      have hsource := (perm_sortMembers _).mem_iff.mp hmem
      rw [sortedMembers_eq_map] at hsource
      obtain ⟨⟨name, child⟩, hchild, rfl⟩ := List.mem_map.mp hsource
      exact ⟨child, hchild, rfl⟩
    | _ => cases hvalue
  · intro value items hvalue
    cases value with
    | array before =>
      rw [sorted, Json.array.injEq] at hvalue
      subst hvalue
      refine ⟨before, rfl, fun item hmem ↦ ?_⟩
      rw [sortedItems_eq_map] at hmem
      obtain ⟨child, hchild, rfl⟩ := List.mem_map.mp hmem
      exact ⟨child, hchild, rfl⟩
    | _ => cases hvalue

/-! ### Equality -/

mutual

/-- Two values are the same. -/
def same : Json → Json → Bool
  | .null, .null => true
  | .bool first, .bool second => first == second
  | .integer first, .integer second => first == second
  | .real first text, .real second other => first == second && text == other
  | .string first, .string second => first == second
  | .array items, .array others => sameItems items others
  | .object members, .object others => sameMembers members others
  | _, _ => false

/-- Two lists of items are the same. -/
def sameItems : List Json → List Json → Bool
  | [], [] => true
  | item :: items, other :: others => same item other && sameItems items others
  | _, _ => false

/-- Two lists of members are the same. -/
def sameMembers : List (String × Json) → List (String × Json) → Bool
  | [], [] => true
  | (name, value) :: members, (other, second) :: others =>
    name == other && same value second && sameMembers members others
  | _, _ => false

end

mutual

theorem same_iff : ∀ first second : Json, same first second = true ↔ first = second
  | .null, second | .bool _, second | .integer _, second | .real _ _, second
  | .string _, second => by cases second <;> simp [same]
  | .array items, second => by
    cases second with
    | array others => rw [same, sameItems_iff items others, Json.array.injEq]
    | _ => simp [same]
  | .object members, second => by
    cases second with
    | object others => rw [same, sameMembers_iff members others, Json.object.injEq]
    | _ => simp [same]

theorem sameItems_iff : ∀ first second : List Json, sameItems first second = true ↔ first = second
  | [], second => by cases second <;> simp [sameItems]
  | item :: items, second => by
    cases second with
    | nil => simp [sameItems]
    | cons other others =>
      rw [sameItems, Bool.and_eq_true, same_iff item other, sameItems_iff items others,
        List.cons.injEq]

theorem sameMembers_iff : ∀ first second : List (String × Json),
    sameMembers first second = true ↔ first = second
  | [], second => by cases second <;> simp [sameMembers]
  | (name, value) :: members, second => by
    cases second with
    | nil => simp [sameMembers]
    | cons other others =>
      obtain ⟨other, last⟩ := other
      rw [sameMembers, Bool.and_eq_true, Bool.and_eq_true, beq_iff_eq, same_iff value last,
        sameMembers_iff members others, List.cons.injEq, Prod.mk.injEq]

end

end Oamb.Foundation.JsonTrees
