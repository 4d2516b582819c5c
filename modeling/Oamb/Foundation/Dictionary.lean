import Mathlib.Algebra.BigOperators.Group.List.Basic
import Mathlib.Data.List.AList
import Mathlib.Data.List.Induction
import Mathlib.Data.List.Sort

/-!
# Dictionaries

A dictionary is an association list with distinct keys. `fromKeys` keeps every key of a list where it
stands first. `ofList` writes the items of a list one
after the other and `sortedItems` reads them back in the order of their keys. `merge` writes the
items of a list with a fallible combination of the stored value and the new item: when the keys of
the list are distinct, `lookup_merge_of_mem` and `lookup_merge_of_notMem` give every value of the
result, and `exists_merge` says that no item is refused because of another one.
-/

set_option autoImplicit false

namespace Oamb.Foundation

universe u v w

/-- An association list with distinct keys. -/
abbrev Dictionary (κ : Type u) (ν : Type v) := AList (fun _ : κ ↦ ν)

namespace Dictionary

variable {κ : Type u} {ν : Type v} {ω : Type w} [DecidableEq κ]

theorem lookup_insert_eq_ite (key key' : κ) (value : ν) (dictionary : Dictionary κ ν) :
    (dictionary.insert key value).lookup key' =
      if key' = key then some value else dictionary.lookup key' := by
  by_cases hkey : key' = key
  · subst hkey
    rw [AList.lookup_insert, if_pos rfl]
  · rw [AList.lookup_insert_ne hkey, if_neg hkey]

/-! ### Lists of keys -/

/-- Add a key at the end, unless it is there. -/
def addKey (keys : List κ) (key : κ) : List κ := if key ∈ keys then keys else keys ++ [key]

/-- The keys of a list, each where it stands first. -/
def fromKeys (keys : List κ) : List κ := keys.foldl addKey []

theorem mem_addKey {keys : List κ} {key key' : κ} :
    key' ∈ addKey keys key ↔ key' ∈ keys ∨ key' = key := by
  by_cases hkey : key ∈ keys
  · rw [addKey, if_pos hkey]
    exact ⟨Or.inl, fun hmem ↦ hmem.elim id fun hsame ↦ hsame ▸ hkey⟩
  · rw [addKey, if_neg hkey, List.mem_append, List.mem_singleton]

theorem mem_foldl_addKey {keys start : List κ} {key : κ} :
    key ∈ keys.foldl addKey start ↔ key ∈ start ∨ key ∈ keys := by
  induction keys generalizing start with
  | nil => exact ⟨Or.inl, fun hmem ↦ hmem.elim id fun hnil ↦ absurd hnil List.not_mem_nil⟩
  | cons first rest ih => rw [List.foldl_cons, ih, mem_addKey, or_assoc, List.mem_cons]

@[simp] theorem mem_fromKeys {keys : List κ} {key : κ} : key ∈ fromKeys keys ↔ key ∈ keys := by
  rw [fromKeys, mem_foldl_addKey]
  exact or_iff_right List.not_mem_nil

theorem foldl_addKey_of_nodup {keys start : List κ} (hnodup : (start ++ keys).Nodup) :
    keys.foldl addKey start = start ++ keys := by
  induction keys generalizing start with
  | nil => exact (List.append_nil start).symm
  | cons first rest ih =>
    rw [List.append_cons] at hnodup ⊢
    have hfirst : first ∉ start := fun hmem ↦
      (List.nodup_append.mp (List.nodup_append.mp hnodup).1).2.2 first hmem first
        (List.mem_singleton_self first) rfl
    rw [List.foldl_cons, addKey, if_neg hfirst, ih hnodup]

theorem fromKeys_of_nodup {keys : List κ} (hnodup : keys.Nodup) : fromKeys keys = keys :=
  foldl_addKey_of_nodup hnodup

/-- The keys that pass a test are found among those that pass it. -/
theorem filter_fromKeys (keep : κ → Bool) (keys : List κ) :
    (fromKeys keys).filter keep = fromKeys (keys.filter keep) := by
  have hfold : ∀ start : List κ, (keys.foldl addKey start).filter keep =
      (keys.filter keep).foldl addKey (start.filter keep) := by
    induction keys with
    | nil => exact fun start ↦ rfl
    | cons first rest ih =>
      intro start
      rw [List.foldl_cons, ih, List.filter_cons]
      by_cases hkeep : keep first = true
      · rw [if_pos hkeep, List.foldl_cons]
        congr 1
        by_cases hmem : first ∈ start
        · rw [addKey, addKey, if_pos hmem, if_pos (List.mem_filter.mpr ⟨hmem, hkeep⟩)]
        · rw [addKey, addKey, if_neg hmem, if_neg fun hfilter ↦ hmem (List.mem_filter.mp hfilter).1,
            List.filter_append, List.filter_cons, if_pos hkeep, List.filter_nil]
      · rw [if_neg hkeep]
        congr 1
        by_cases hmem : first ∈ start
        · rw [addKey, if_pos hmem]
        · rw [addKey, if_neg hmem, List.filter_append, List.filter_cons, if_neg hkeep,
            List.filter_nil, List.append_nil]
  exact hfold []

/-! ### Lists of items -/

/-- Write the items of a list into a dictionary; a later item replaces an earlier one. -/
def insertAll (dictionary : Dictionary κ ν) (items : List (κ × ν)) : Dictionary κ ν :=
  items.foldl (fun written item ↦ written.insert item.1 item.2) dictionary

/-- The dictionary of a list of items. -/
def ofList (items : List (κ × ν)) : Dictionary κ ν := insertAll ∅ items

theorem lookup_insertAll_of_notMem {key : κ} {items : List (κ × ν)}
    (hkey : key ∉ items.map Prod.fst) (dictionary : Dictionary κ ν) :
    (insertAll dictionary items).lookup key = dictionary.lookup key := by
  induction items generalizing dictionary with
  | nil => rfl
  | cons item items ih =>
    rw [List.map_cons, List.mem_cons, not_or] at hkey
    calc (insertAll (dictionary.insert item.1 item.2) items).lookup key
        = (dictionary.insert item.1 item.2).lookup key := ih hkey.2 _
      _ = dictionary.lookup key := AList.lookup_insert_ne hkey.1

theorem mem_of_lookup_insertAll {key : κ} {value : ν} {items : List (κ × ν)}
    {dictionary : Dictionary κ ν} (hlookup : (insertAll dictionary items).lookup key = some value) :
    (key, value) ∈ items ∨ dictionary.lookup key = some value := by
  induction items generalizing dictionary with
  | nil => exact Or.inr hlookup
  | cons item items ih =>
    rcases ih hlookup with hmem | hstored
    · exact Or.inl (List.mem_cons_of_mem _ hmem)
    · rw [lookup_insert_eq_ite] at hstored
      split_ifs at hstored with hkey
      · cases hstored
        subst hkey
        exact Or.inl List.mem_cons_self
      · exact Or.inr hstored

theorem mem_of_lookup_ofList {key : κ} {value : ν} {items : List (κ × ν)}
    (hlookup : (ofList items).lookup key = some value) : (key, value) ∈ items :=
  (mem_of_lookup_insertAll hlookup).resolve_right (by simp)

theorem lookup_insertAll_of_mem {key : κ} {value : ν} {items : List (κ × ν)}
    (hnodup : (items.map Prod.fst).Nodup) (hmem : (key, value) ∈ items)
    (dictionary : Dictionary κ ν) :
    (insertAll dictionary items).lookup key = some value := by
  induction items generalizing dictionary with
  | nil => cases hmem
  | cons item items ih =>
    rw [List.map_cons, List.nodup_cons] at hnodup
    rcases List.mem_cons.mp hmem with rfl | hrest
    · exact (lookup_insertAll_of_notMem hnodup.1 _).trans (AList.lookup_insert _)
    · exact ih hnodup.2 hrest _

/-- The dictionary of a list with distinct keys has exactly the items of the list. -/
theorem lookup_ofList {key : κ} {value : ν} {items : List (κ × ν)}
    (hnodup : (items.map Prod.fst).Nodup) :
    (ofList items).lookup key = some value ↔ (key, value) ∈ items :=
  ⟨mem_of_lookup_ofList, fun hmem ↦ lookup_insertAll_of_mem hnodup hmem _⟩

theorem lookup_ofList_eq_none {key : κ} {items : List (κ × ν)} :
    (ofList items).lookup key = none ↔ key ∉ items.map Prod.fst := by
  constructor
  · intro hlookup hkey
    induction items using List.reverseRecOn with
    | nil => cases hkey
    | append_singleton items item ih =>
      rw [ofList, insertAll, List.foldl_append, List.foldl_cons, List.foldl_nil,
        lookup_insert_eq_ite] at hlookup
      split at hlookup
      · cases hlookup
      · rename_i hne
        rw [List.map_append, List.mem_append] at hkey
        rcases hkey with hkey | hkey
        · exact ih hlookup hkey
        · exact hne (by simpa using hkey)
  · intro hkey
    exact (lookup_insertAll_of_notMem hkey _).trans (AList.lookup_empty _)

/-- The items of a dictionary in the order of their keys. -/
def sortedItems [LinearOrder κ] (dictionary : Dictionary κ ν) : List (κ × ν) :=
  (dictionary.entries.map fun entry ↦ (entry.1, entry.2)).insertionSort fun first second ↦
    first.1 ≤ second.1

theorem mem_sortedItems [LinearOrder κ] {key : κ} {value : ν} {dictionary : Dictionary κ ν} :
    (key, value) ∈ dictionary.sortedItems ↔ dictionary.lookup key = some value := by
  rw [sortedItems, (List.perm_insertionSort _ _).mem_iff, List.mem_map]
  constructor
  · rintro ⟨⟨found, stored⟩, hmem, heq⟩
    cases heq
    exact AList.mem_lookup_iff.mpr hmem
  · intro hlookup
    exact ⟨⟨key, value⟩, AList.mem_lookup_iff.mp hlookup, rfl⟩

omit [DecidableEq κ] in
theorem nodup_sortedItems [LinearOrder κ] (dictionary : Dictionary κ ν) :
    (dictionary.sortedItems.map Prod.fst).Nodup := by
  have hperm := (List.perm_insertionSort (fun first second : κ × ν ↦ first.1 ≤ second.1)
    (dictionary.entries.map fun entry ↦ (entry.1, entry.2))).map Prod.fst
  rw [sortedItems, hperm.nodup_iff, List.map_map]
  exact dictionary.keys_nodup

/-! ### Totals -/

section Total

variable {M : Type*} [AddCommMonoid M]

/-- The sum of a measure over the values of a dictionary. -/
def total (measure : ν → M) (dictionary : Dictionary κ ν) : M :=
  (dictionary.entries.map fun entry ↦ measure entry.2).sum

theorem total_insert_of_notMem (measure : ν → M) {dictionary : Dictionary κ ν} {key : κ}
    (hkey : key ∉ dictionary) (value : ν) :
    total measure (dictionary.insert key value) = measure value + total measure dictionary := by
  rw [total, AList.entries_insert_of_notMem hkey]
  rfl

/-- Replacing a value changes the total by the difference of the measures. -/
theorem total_insert_add (measure : ν → M) {dictionary : Dictionary κ ν} {key : κ} {stored : ν}
    (hlookup : dictionary.lookup key = some stored) (value : ν) :
    total measure (dictionary.insert key value) + measure stored =
      measure value + total measure dictionary := by
  have hkey : key ∈ dictionary.entries.keys :=
    List.dlookup_isSome.mp (by rw [← AList.lookup, hlookup]; rfl)
  obtain ⟨found, before, after, -, hentries, herase⟩ := List.exists_of_kerase hkey
  have hfound : (⟨key, found⟩ : (_ : κ) × ν) ∈ dictionary.entries := by
    rw [hentries]
    exact List.mem_append_right _ List.mem_cons_self
  obtain rfl : found = stored := by
    have hsame : dictionary.lookup key = some found := AList.mem_lookup_iff.mpr hfound
    rw [hlookup, Option.some.injEq] at hsame
    exact hsame.symm
  rw [total, total, AList.entries_insert, herase, hentries]
  simp only [List.map_cons, List.map_append, List.sum_cons, List.sum_append]
  ac_rfl

end Total

/-! ### Fallible merges -/

variable {ε : Type*}

/-- Write the items of a list, each one combined with the value stored under its key. -/
def merge (combine : κ → Option ν → ω → Except ε ν) (dictionary : Dictionary κ ν) :
    List (κ × ω) → Except ε (Dictionary κ ν)
  | [] => .ok dictionary
  | (key, item) :: items =>
    match combine key (dictionary.lookup key) item with
    | .error failure => .error failure
    | .ok value => merge combine (dictionary.insert key value) items

section Merge

variable {combine : κ → Option ν → ω → Except ε ν}

theorem merge_cons_eq_ok {dictionary result : Dictionary κ ν} {key : κ} {item : ω}
    {items : List (κ × ω)} : merge combine dictionary ((key, item) :: items) = .ok result ↔
      ∃ value, combine key (dictionary.lookup key) item = .ok value ∧
        merge combine (dictionary.insert key value) items = .ok result := by
  rw [merge]
  cases combine key (dictionary.lookup key) item <;> simp

theorem lookup_merge_of_notMem {dictionary result : Dictionary κ ν} {items : List (κ × ω)}
    (hmerge : merge combine dictionary items = .ok result) {key : κ}
    (hkey : key ∉ items.map Prod.fst) : result.lookup key = dictionary.lookup key := by
  induction items generalizing dictionary with
  | nil => cases hmerge; rfl
  | cons item items ih =>
    obtain ⟨value, -, hrest⟩ := merge_cons_eq_ok.mp hmerge
    rw [List.map_cons, List.mem_cons, not_or] at hkey
    rw [ih hrest hkey.2, AList.lookup_insert_ne hkey.1]

theorem lookup_merge_of_mem {dictionary result : Dictionary κ ν} {items : List (κ × ω)}
    (hmerge : merge combine dictionary items = .ok result)
    (hnodup : (items.map Prod.fst).Nodup) {key : κ} {item : ω} (hmem : (key, item) ∈ items) :
    ∃ value, combine key (dictionary.lookup key) item = .ok value ∧
      result.lookup key = some value := by
  induction items generalizing dictionary with
  | nil => cases hmem
  | cons first items ih =>
    obtain ⟨value, hvalue, hrest⟩ := merge_cons_eq_ok.mp hmerge
    rw [List.map_cons, List.nodup_cons] at hnodup
    rcases List.mem_cons.mp hmem with rfl | htail
    · exact ⟨value, hvalue, (lookup_merge_of_notMem hrest hnodup.1).trans (AList.lookup_insert _)⟩
    · obtain ⟨later, hlater, hlookup⟩ := ih hrest hnodup.2 htail
      have hne : key ≠ first.1 := by
        rintro rfl
        exact hnodup.1 (List.mem_map.mpr ⟨_, htail, rfl⟩)
      rw [AList.lookup_insert_ne hne] at hlater
      exact ⟨later, hlater, hlookup⟩

/-- A merge whose items are all accepted with the stored values of the start is accepted. -/
theorem exists_merge {dictionary : Dictionary κ ν} {items : List (κ × ω)}
    (hnodup : (items.map Prod.fst).Nodup)
    (haccepted : ∀ key item, (key, item) ∈ items →
      ∃ value, combine key (dictionary.lookup key) item = .ok value) :
    ∃ result, merge combine dictionary items = .ok result := by
  induction items generalizing dictionary with
  | nil => exact ⟨dictionary, rfl⟩
  | cons first items ih =>
    rw [List.map_cons, List.nodup_cons] at hnodup
    obtain ⟨value, hvalue⟩ := haccepted first.1 first.2 List.mem_cons_self
    have htail : ∀ key item, (key, item) ∈ items →
        ∃ later, combine key ((dictionary.insert first.1 value).lookup key) item = .ok later := by
      intro key item hmem
      have hne : key ≠ first.1 := by
        rintro rfl
        exact hnodup.1 (List.mem_map.mpr ⟨_, hmem, rfl⟩)
      rw [AList.lookup_insert_ne hne]
      exact haccepted key item (List.mem_cons_of_mem _ hmem)
    obtain ⟨result, hresult⟩ := ih hnodup.2 htail
    exact ⟨result, merge_cons_eq_ok.mpr ⟨value, hvalue, hresult⟩⟩

end Merge

end Dictionary

end Oamb.Foundation
