import Oamb.Foundation.JsonText

/-!
# Exact JSON objects

A response is read as an object with the fields of its profile, no more and no less. An object that
has a name twice is refused wherever it stands, and so is a constant that is no number.

A document is sorted when it is written, so what is read of it is the sorted one; `get_sorted` and
`hasNames_sorted` say that this changes no field. `parseExactJsonObject_utf8` is the round trip.
-/

set_option autoImplicit false

namespace Oamb.MemorySystems.ExactJson

open Foundation Foundation.Json Foundation.JsonText

/-! ### Reading -/

/-- The first name that stands again. -/
def repeatedName : List String → Option String
  | [] => none
  | name :: rest => if name ∈ rest then some name else repeatedName rest

mutual

/-- What a reader refuses in a value, the innermost first. -/
def fault : Json → Option String
  | .real _ text =>
    if text ∈ ["NaN", "Infinity", "-Infinity"] then some s!"non-finite JSON constant: {text}"
    else none
  | .array items => faultItems items
  | .object members =>
    (faultMembers members).or
      ((repeatedName (members.map Prod.fst)).map fun name ↦ s!"duplicate JSON field: {name}")
  | .null | .bool _ | .integer _ | .string _ => none

/-- What a reader refuses in the items. -/
def faultItems : List Json → Option String
  | [] => none
  | item :: items => (fault item).or (faultItems items)

/-- What a reader refuses in the values of the members. -/
def faultMembers : List (String × Json) → Option String
  | [] => none
  | (_, value) :: members => (fault value).or (faultMembers members)

end

/-- The object of some bytes, which has the fields of its profile. -/
def parseExactJsonObject (rawBytes : Bytes) (expectedFields : List String) : Except String Json :=
  match (readUtf8 rawBytes).bind loads with
  | none => .error "response is not valid JSON"
  | some document =>
    match fault document with
    | some message => .error message
    | none =>
      if document.isObject = false then .error "response root must be an object"
      else if document.hasNames expectedFields then .ok document
      else .error "response fields do not match the exact profile"

/-! ### Exact values -/

theorem repeatedName_eq_none {names : List String} (hnodup : names.Nodup) :
    repeatedName names = none := by
  induction names with
  | nil => rfl
  | cons name names ih =>
    obtain ⟨hname, hrest⟩ := List.nodup_cons.mp hnodup
    rw [repeatedName, if_neg hname, ih hrest]

theorem nodup_of_repeatedName {names : List String} (hnone : repeatedName names = none) :
    names.Nodup := by
  induction names with
  | nil => exact List.nodup_nil
  | cons name names ih =>
    unfold repeatedName at hnone
    split_ifs at hnone with hname
    exact List.nodup_cons.mpr ⟨hname, ih hnone⟩

mutual

/-- Nothing is refused in a value that is exact and whose numbers are integers. -/
theorem fault_eq_none : ∀ value : Json, value.exact = true → isWhole value = true →
    fault value = none
  | .null, _, _ | .bool _, _, _ | .integer _, _, _ | .string _, _, _ => rfl
  | .real _ _, _, hwhole => by cases hwhole
  | .array items, hexact, hwhole => by
    rw [exact] at hexact
    rw [isWhole] at hwhole
    rw [fault, faultItems_eq_none items hexact hwhole]
  | .object members, hexact, hwhole => by
    rw [exact, Bool.and_eq_true, decide_eq_true_eq] at hexact
    rw [isWhole] at hwhole
    rw [fault, faultMembers_eq_none members hexact.2 hwhole, repeatedName_eq_none hexact.1]
    rfl

theorem faultItems_eq_none : ∀ items : List Json, exactItems items = true →
    areWhole items = true → faultItems items = none
  | [], _, _ => rfl
  | item :: items, hexact, hwhole => by
    rw [exactItems, Bool.and_eq_true] at hexact
    rw [areWhole, Bool.and_eq_true] at hwhole
    rw [faultItems, fault_eq_none item hexact.1 hwhole.1,
      faultItems_eq_none items hexact.2 hwhole.2]
    rfl

theorem faultMembers_eq_none : ∀ members : List (String × Json), exactMembers members = true →
    haveWhole members = true → faultMembers members = none
  | [], _, _ => rfl
  | (name, value) :: members, hexact, hwhole => by
    rw [exactMembers, Bool.and_eq_true] at hexact
    rw [haveWhole, Bool.and_eq_true] at hwhole
    rw [faultMembers, fault_eq_none value hexact.1 hwhole.1,
      faultMembers_eq_none members hexact.2 hwhole.2]
    rfl

end

theorem exactMembers_eq_all (members : List (String × Json)) :
    exactMembers members = members.all fun member ↦ member.2.exact := by
  induction members with
  | nil => rw [exactMembers, List.all_nil]
  | cons member members ih => rw [exactMembers, List.all_cons, ih]

theorem exactItems_eq_all (items : List Json) : exactItems items = items.all Json.exact := by
  induction items with
  | nil => rw [exactItems, List.all_nil]
  | cons item items ih => rw [exactItems, List.all_cons, ih]

/-! ### Sorted documents -/

/-- The names of sorted members are the names in another order. -/
theorem names_perm (members : List (String × Json)) :
    ((sortMembers (sortedMembers members)).map Prod.fst).Perm (members.map Prod.fst) := by
  refine ((perm_sortMembers (sortedMembers members)).map Prod.fst).trans ?_
  rw [sortedMembers_eq_map, List.map_map]
  exact .refl _

mutual

theorem exact_sorted : ∀ value : Json, (sorted value).exact = value.exact
  | .null | .bool _ | .integer _ | .real _ _ | .string _ => rfl
  | .array items => by rw [sorted, exact, exact, exactItems_sortedItems items]
  | .object members => by
    have hnames : decide ((sortMembers (sortedMembers members)).map Prod.fst).Nodup =
        decide (members.map Prod.fst).Nodup :=
      decide_eq_decide.mpr (names_perm members).nodup_iff
    rw [sorted, exact, exact, hnames, exactMembers_eq_all,
      (perm_sortMembers (sortedMembers members)).all_eq, ← exactMembers_eq_all,
      exactMembers_sortedMembers members]

theorem exactItems_sortedItems : ∀ items : List Json,
    exactItems (sortedItems items) = exactItems items
  | [] => rfl
  | item :: items => by
    rw [sortedItems, exactItems, exactItems, exact_sorted item, exactItems_sortedItems items]

theorem exactMembers_sortedMembers : ∀ members : List (String × Json),
    exactMembers (sortedMembers members) = exactMembers members
  | [] => rfl
  | (name, value) :: members => by
    rw [sortedMembers, exactMembers, exactMembers, exact_sorted value,
      exactMembers_sortedMembers members]

end

@[simp] theorem asText_sorted (value : Json) : (sorted value).asText = value.asText := by
  cases value <;> rfl

@[simp] theorem asNonEmptyText_sorted (value : Json) :
    (sorted value).asNonEmptyText = value.asNonEmptyText := by
  rw [asNonEmptyText, asNonEmptyText, asText_sorted]

@[simp] theorem asInteger_sorted (value : Json) : (sorted value).asInteger = value.asInteger := by
  cases value <;> rfl

@[simp] theorem isNull_sorted (value : Json) : (sorted value).isNull = value.isNull := by
  cases value <;> rfl

@[simp] theorem isObject_sorted (value : Json) : (sorted value).isObject = value.isObject := by
  cases value <;> rfl

theorem names_sorted_perm (value : Json) : (sorted value).names.Perm value.names := by
  cases value with
  | object members => exact names_perm members
  | null | bool | integer | real | string | array => exact .refl _

@[simp] theorem hasNames_sorted (value : Json) (expected : List String) :
    (sorted value).hasNames expected = value.hasNames expected := by
  have hperm := names_sorted_perm value
  have hmem (name : String) : name ∈ (sorted value).names ↔ name ∈ value.names := hperm.mem_iff
  rw [hasNames, hasNames, isObject_sorted, hperm.all_eq]
  simp only [hmem]

/-- A member is found by its name. -/
theorem lookup_eq_some_iff {members : List (String × Json)}
    (hnodup : (members.map Prod.fst).Nodup) {name : String} {value : Json} :
    lookup members name = some value ↔ (name, value) ∈ members := by
  rw [lookup, Option.map_eq_some_iff]
  constructor
  · rintro ⟨member, hfind, rfl⟩
    have hname : member.1 = name := by simpa using List.find?_some hfind
    rw [← hname]
    exact List.mem_reverse.mp (List.mem_of_find?_eq_some hfind)
  · intro hmem
    have hsome : (members.reverse.find? fun member ↦ decide (member.1 = name)).isSome :=
      List.find?_isSome.mpr ⟨_, List.mem_reverse.mpr hmem, decide_eq_true rfl⟩
    obtain ⟨member, hfind⟩ := Option.isSome_iff_exists.mp hsome
    have hname : member.1 = name := by simpa using List.find?_some hfind
    have hfound := List.mem_reverse.mp (List.mem_of_find?_eq_some hfind)
    exact ⟨member, hfind, congrArg Prod.snd (List.inj_on_of_nodup_map hnodup hfound hmem hname)⟩

/-- A member of sorted members is the sorted member. -/
theorem lookup_sortMembers {members : List (String × Json)}
    (hunique : (members.map Prod.fst).Nodup) (name : String) :
    lookup (sortMembers (sortedMembers members)) name = (lookup members name).map sorted := by
  have hnodup := (names_perm members).nodup_iff.mpr hunique
  refine Option.ext fun found ↦ ?_
  rw [lookup_eq_some_iff hnodup, (perm_sortMembers _).mem_iff, sortedMembers_eq_map,
    List.mem_map, Option.map_eq_some_iff]
  constructor
  · rintro ⟨member, hmem, hsame⟩
    obtain ⟨rfl, rfl⟩ := Prod.mk.inj hsame
    exact ⟨member.2, (lookup_eq_some_iff hunique).mpr hmem, rfl⟩
  · rintro ⟨other, hother, rfl⟩
    exact ⟨(name, other), (lookup_eq_some_iff hunique).mp hother, rfl⟩

/-- A field of a sorted document is the sorted field. -/
theorem get_sorted {value : Json} (hexact : value.exact = true) (name : String) :
    (sorted value).get name = sorted (value.get name) := by
  cases value with
  | null | bool | integer | real | string | array => rfl
  | object members =>
    rw [exact, Bool.and_eq_true, decide_eq_true_eq] at hexact
    rw [sorted, Json.get, Json.get, lookup_sortMembers hexact.1]
    cases lookup members name <;> rfl

/-- An exact document with the fields of its profile is read back from its bytes, sorted. -/
theorem parseExactJsonObject_utf8 {ascii : Bool} {document : Json} {expectedFields : List String}
    (hexact : document.exact = true) (hwhole : isWhole document = true)
    (hnames : document.hasNames expectedFields = true) :
    parseExactJsonObject (utf8 (dumps ascii document)) expectedFields = .ok (sorted document) := by
  have hobject : document.isObject = true := by
    rw [hasNames, Bool.and_eq_true, Bool.and_eq_true] at hnames
    exact hnames.1.1
  rw [parseExactJsonObject, readUtf8_utf8, Option.bind_some, loads_dumps ascii hwhole]
  simp only [fault_eq_none (sorted document) ((exact_sorted document).trans hexact)
    ((isWhole_sorted document).trans hwhole), isObject_sorted, hobject, hasNames_sorted, hnames,
    Bool.true_eq_false, if_false, if_true]

end Oamb.MemorySystems.ExactJson
