import Mathlib.Algebra.Ring.Nat
import Mathlib.Data.List.Dedup
import Mathlib.Data.List.ProdSigma
import Oamb.Foundation.BoundedSearch
import Oamb.MemorySystems.HindsightProjection

/-!
# Joins of entities

A page of memories joins the entities of a memory with commas, in an order of its own, and names may
hold the separator themselves. `unorderedEntityJoinMatches` looks for an order with a search that
gives up after a number of states. What it accepts is a join of the entities in some order, and it
accepts all of these joins unless it gave up (`unorderedEntityJoinMatches_exact`). There are joins
that it does give up on (`not_accepts_every_join`).
-/

set_option autoImplicit false

namespace Oamb.MemorySystems.EntityJoins

open Foundation.BoundedSearch HindsightProjection

/-! ### What the match is for -/

/-- A text is the join of some names in some order. -/
def IsJoin (entities : List String) (serialized : String) : Prop :=
  ∃ order : List String, order.Perm entities ∧ ", ".intercalate order = serialized

/-! ### The states of the match -/

/-- The text that is left, and how often each name is left. -/
abbrev JoinState := List Char × List ℕ

/-- The text behind a name and its separator. The last name has to be the whole text. -/
def suffixOf (last : Bool) (name remaining : List Char) : Option (List Char) :=
  if last then (if remaining = name then some [] else none)
  else afterText (name ++ [',', ' ']) remaining

/-- The state behind the name of an index. -/
def joinStep (names : List (List Char)) (state : JoinState) (index : ℕ) : Option JoinState :=
  if state.2.getD index 0 = 0 then none
  else
    (suffixOf (decide (state.2.sum = 1)) (names.getD index []) state.1).map fun suffix ↦
      (suffix, state.2.set index (state.2.getD index 0 - 1))

def joinSuccessors (names : List (List Char)) (state : JoinState) : List JoinState :=
  (List.range names.length).filterMap (joinStep names state)

def joinAccepting (state : JoinState) : Bool := state.1.isEmpty

/-- How many names are left. -/
def joinRank (state : JoinState) : ℕ := state.2.sum

theorem sum_set {counts : List ℕ} {index : ℕ} (hcount : counts.getD index 0 ≠ 0) :
    (counts.set index (counts.getD index 0 - 1)).sum + 1 = counts.sum := by
  induction counts generalizing index with
  | nil => exact absurd rfl hcount
  | cons count counts ih =>
    cases index with
    | zero =>
      simp only [List.getD_cons_zero] at hcount
      simp only [List.set_cons_zero, List.getD_cons_zero, List.sum_cons]
      omega
    | succ index =>
      simp only [List.getD_cons_succ] at hcount
      simp only [List.set_cons_succ, List.getD_cons_succ, List.sum_cons]
      have hrest := ih hcount
      omega

theorem ranked_joinSuccessors (names : List (List Char)) :
    Ranked (joinSuccessors names) joinRank := by
  intro state next hnext
  obtain ⟨index, -, hstep⟩ := List.mem_filterMap.mp hnext
  unfold joinStep at hstep
  by_cases hcount : state.2.getD index 0 = 0
  · rw [if_pos hcount] at hstep
    exact absurd hstep (by simp)
  · rw [if_neg hcount] at hstep
    obtain ⟨suffix, -, rfl⟩ := Option.map_eq_some_iff.mp hstep
    exact sum_set hcount

/-! ### The match is a search -/

/-- What the match of a join has done, as a search. -/
def searchOf (state : JoinMatch) : Search JoinState := ⟨state.visitedStates, state.found⟩

theorem find_eq_lookup {Key Result : Type} [DecidableEq Key] (found : List (Key × Result))
    (key : Key) :
    (found.find? fun entry ↦ entry.1 = key) =
      (found.lookup key).map fun result ↦ (key, result) := by
  induction found with
  | nil => rfl
  | cons entry found ih =>
    obtain ⟨state, result⟩ := entry
    by_cases hkey : state = key
    · subst hkey
      simp only [List.find?_cons, decide_true, List.lookup_cons_self, Option.map_some]
    · have hother : (key == state) = false := beq_eq_false_iff_ne.mpr (Ne.symm hkey)
      simp only [List.find?_cons, hkey, decide_false, ih]
      rw [List.lookup_cons, hother]

theorem find_eq_answer (before : JoinMatch) (key : JoinState) :
    (before.found.find? fun entry ↦ entry.1 = key) =
      ((searchOf before).answer key).map fun result ↦ (key, result) :=
  find_eq_lookup before.found key

/-- What the match does with a state that it has to answer with a body. -/
def remembering (state : JoinState) (body : StateM JoinMatch Bool) : StateM JoinMatch Bool := do
  match (← get).found.find? fun entry ↦ entry.1 = (state.1, state.2) with
  | some (_, result) => pure result
  | none =>
    modify fun before ↦ { before with visitedStates := before.visitedStates + 1 }
    let result ← if entityJoinMatchStateLimit < (← get).visitedStates then pure false else body
    modify fun later ↦ { later with found := ((state.1, state.2), result) :: later.found }
    pure result

/-- The loop of the match over indices of names. -/
def tryIndices (names : List (List Char)) (rest : ℕ) (state : JoinState) (indices : List ℕ) :
    StateM JoinMatch Bool :=
  indices.foldlM (fun matched index ↦ do
    let name := names.getD index []
    if matched || state.2.getD index 0 = 0 then pure matched
    else
      let suffix :=
        if rest = 0 then (if state.1 = name then some [] else none)
        else afterText (name ++ [',', ' ']) state.1
      match suffix with
      | none => pure false
      | some suffix =>
        matchJoin names rest suffix (state.2.set index (state.2.getD index 0 - 1))) false

theorem matchJoin_zero (names : List (List Char)) (state : JoinState) :
    matchJoin names 0 state.1 state.2 = remembering state (pure state.1.isEmpty) := by
  rw [matchJoin.eq_def]
  rfl

theorem matchJoin_succ (names : List (List Char)) (rest : ℕ) (state : JoinState) :
    matchJoin names (rest + 1) state.1 state.2 =
      remembering state (tryIndices names rest state (List.range names.length)) := by
  rw [matchJoin.eq_def]
  rfl

theorem remembering_of_none {state : JoinState} {before : JoinMatch}
    (hnone : (before.found.find? fun entry ↦ entry.1 = (state.1, state.2)) = none)
    (body : StateM JoinMatch Bool) :
    remembering state body before =
      let entered : JoinMatch := ⟨before.visitedStates + 1, before.found⟩
      let outcome :=
        if entityJoinMatchStateLimit < entered.visitedStates then (false, entered) else body entered
      (outcome.1, ⟨outcome.2.visitedStates, (state, outcome.1) :: outcome.2.found⟩) := by
  unfold remembering
  simp only [bind, StateT.bind, get, getThe, MonadStateOf.get, StateT.get, pure, hnone]
  change (ite (entityJoinMatchStateLimit < before.visitedStates + 1) _ _ : StateM JoinMatch Bool)
    ⟨before.visitedStates + 1, before.found⟩ = _
  by_cases hlimit : entityJoinMatchStateLimit < before.visitedStates + 1
  · simp only [hlimit, if_true]
    rfl
  · simp only [hlimit, if_false]
    rfl

theorem search_remembering {state : JoinState} {body : StateM JoinMatch Bool}
    {compute : Search JoinState → Bool × Search JoinState}
    (hbody : ∀ entered, (body entered).map id searchOf = compute (searchOf entered))
    (before : JoinMatch) :
    (remembering state body before).map id searchOf =
      remember entityJoinMatchStateLimit compute state (searchOf before) := by
  have hfind := find_eq_answer before (state.1, state.2)
  unfold remember
  cases hanswer : (searchOf before).answer state with
  | some result =>
    rw [Prod.mk.eta, hanswer] at hfind
    unfold remembering
    simp only [bind, StateT.bind, get, getThe, MonadStateOf.get, StateT.get, pure, Prod.mk.eta,
      hfind]
    rfl
  | none =>
    rw [Prod.mk.eta, hanswer] at hfind
    rw [remembering_of_none hfind]
    have hentered := hbody ⟨before.visitedStates + 1, before.found⟩
    change _ = compute ⟨before.visitedStates + 1, before.found⟩ at hentered
    have hsearch : searchOf before = ⟨before.visitedStates, before.found⟩ := rfl
    by_cases hlimit : entityJoinMatchStateLimit < before.visitedStates + 1
    · simp only [hsearch, hlimit, if_true]
      rfl
    · simp only [hsearch, hlimit, if_false, ← hentered]
      rfl

/-- Once something was found, the loop is over. -/
theorem foldlM_true {step : Bool → ℕ → StateM JoinMatch Bool}
    (hstep : ∀ index, step true index = pure true) (indices : List ℕ) :
    indices.foldlM step true = pure true := by
  induction indices with
  | nil => rfl
  | cons index indices ih => rw [List.foldlM_cons, hstep, pure_bind, ih]

theorem search_tryIndices {names : List (List Char)} {rest : ℕ} {state : JoinState}
    {visit : JoinState → Search JoinState → Bool × Search JoinState}
    (hmatch : ∀ next, joinRank next = rest → ∀ before : JoinMatch,
      (matchJoin names rest next.1 next.2 before).map id searchOf =
        visit next (searchOf before))
    (hrank : joinRank state = rest + 1) (indices : List ℕ) (before : JoinMatch) :
    (tryIndices names rest state indices before).map id searchOf =
      tryAll visit (indices.filterMap (joinStep names state)) (searchOf before) := by
  induction indices generalizing before with
  | nil => rfl
  | cons index indices ih =>
    unfold tryIndices at ih ⊢
    rw [List.foldlM_cons]
    by_cases hcount : state.2.getD index 0 = 0
    · have hnone : joinStep names state index = none := if_pos hcount
      rw [List.filterMap_cons_none hnone, ← ih before]
      simp only [hcount, decide_true, Bool.or_true, if_true, pure_bind]
    · have hlast : decide (state.2.sum = 1) = decide (rest = 0) := by
        unfold joinRank at hrank
        simp only [hrank, Nat.add_eq_right]
      have hstep : joinStep names state index =
          (suffixOf (decide (rest = 0)) (names.getD index []) state.1).map fun suffix ↦
            (suffix, state.2.set index (state.2.getD index 0 - 1)) := by
        rw [joinStep, if_neg hcount, hlast]
      have hsuffix : (if rest = 0 then (if state.1 = names.getD index [] then some [] else none)
          else afterText (names.getD index [] ++ [',', ' ']) state.1) =
          suffixOf (decide (rest = 0)) (names.getD index []) state.1 := by
        simp only [suffixOf, decide_eq_true_eq]
      simp only [hcount, decide_false, Bool.or_false, Bool.false_eq_true, if_false, hsuffix]
      cases hfound : suffixOf (decide (rest = 0)) (names.getD index []) state.1 with
      | none =>
        rw [hfound, Option.map_none] at hstep
        rw [List.filterMap_cons_none hstep, ← ih before, pure_bind]
      | some suffix =>
        rw [hfound, Option.map_some] at hstep
        rw [List.filterMap_cons_some hstep, tryAll]
        have hnext : joinRank (suffix, state.2.set index (state.2.getD index 0 - 1)) = rest := by
          have hsum := sum_set hcount
          unfold joinRank at hrank ⊢
          simp only
          omega
        have hvisit := hmatch _ hnext before
        simp only at hvisit ⊢
        rw [← hvisit]
        generalize matchJoin names rest suffix (state.2.set index (state.2.getD index 0 - 1)) = body
        change Prod.map id searchOf
          ((List.foldlM _ (body before).1 indices : StateM JoinMatch Bool) (body before).2) = _
        obtain ⟨result, later⟩ := body before
        cases result with
        | true =>
          rw [foldlM_true (fun _ ↦ by simp only [Bool.true_or, if_true])]
          rfl
        | false => exact ih later

theorem search_matchJoin (names : List (List Char)) {total : ℕ} {state : JoinState}
    (hrank : joinRank state = total) (before : JoinMatch) :
    (matchJoin names total state.1 state.2 before).map id searchOf =
      explore entityJoinMatchStateLimit (joinSuccessors names) joinAccepting total state
        (searchOf before) := by
  induction total generalizing state before with
  | zero =>
    rw [matchJoin_zero]
    exact search_remembering (fun _ ↦ rfl) before
  | succ rest ih =>
    rw [matchJoin_succ]
    exact search_remembering (search_tryIndices (fun _ hnext ↦ ih hnext) hrank _) before

/-! ### What the search looks for -/

/-- The names that are left, each as often as it is counted. -/
def leftNames : List (List Char) → List ℕ → List (List Char)
  | name :: names, count :: counts => List.replicate count name ++ leftNames names counts
  | _, _ => []

/-- The text that is left is a join of the names that are left. -/
def Joinable (names : List (List Char)) (state : JoinState) : Prop :=
  ∃ order : List (List Char), order.Perm (leftNames names state.2) ∧
    [',', ' '].intercalate order = state.1

theorem length_leftNames {names : List (List Char)} {counts : List ℕ}
    (hlength : counts.length = names.length) : (leftNames names counts).length = counts.sum := by
  induction names generalizing counts with
  | nil =>
    rw [List.length_nil, List.length_eq_zero_iff] at hlength
    subst hlength
    rfl
  | cons name names ih =>
    cases counts with
    | nil => exact absurd hlength.symm (Nat.succ_ne_zero _)
    | cons count counts =>
      rw [leftNames, List.length_append, List.length_replicate, List.sum_cons,
        ih (Nat.succ.inj hlength)]

/-- Taking a name from the names that are left. -/
theorem perm_leftNames {names : List (List Char)} {counts : List ℕ} {index : ℕ}
    (hindex : index < names.length) (hcount : counts.getD index 0 ≠ 0) :
    (names.getD index [] :: leftNames names (counts.set index (counts.getD index 0 - 1))).Perm
      (leftNames names counts) := by
  induction names generalizing counts index with
  | nil => exact absurd hindex (Nat.not_lt_zero _)
  | cons name names ih =>
    cases counts with
    | nil => exact absurd rfl hcount
    | cons count counts =>
      cases index with
      | zero =>
        rw [List.getD_cons_zero] at hcount
        obtain ⟨before, rfl⟩ := Nat.exists_eq_succ_of_ne_zero hcount
        exact List.Perm.refl _
      | succ index =>
        rw [List.getD_cons_succ] at hcount
        have hrest := ih (Nat.lt_of_succ_lt_succ hindex) hcount
        simp only [List.getD_cons_succ, List.set_cons_succ, leftNames]
        exact List.perm_middle.symm.trans (hrest.append_left _)

theorem exists_index_of_mem {names : List (List Char)} {counts : List ℕ} {name : List Char}
    (hmem : name ∈ leftNames names counts) :
    ∃ index < names.length, names.getD index [] = name ∧ counts.getD index 0 ≠ 0 := by
  induction names generalizing counts with
  | nil => exact (List.not_mem_nil hmem).elim
  | cons first names ih =>
    cases counts with
    | nil => exact (List.not_mem_nil hmem).elim
    | cons count counts =>
      rcases List.mem_append.mp hmem with hfirst | hrest
      · obtain ⟨hcount, rfl⟩ := List.mem_replicate.mp hfirst
        exact ⟨0, Nat.succ_pos _, rfl, hcount⟩
      · obtain ⟨index, hindex, hname, hcount⟩ := ih hrest
        exact ⟨index + 1, Nat.succ_lt_succ hindex, hname, hcount⟩

/-- A name is taken from a text exactly when the text is the join of the name and the rest. -/
theorem suffixOf_eq_some_iff {name remaining : List Char} {rest : List (List Char)} :
    suffixOf (decide (rest = [])) name remaining = some ([',', ' '].intercalate rest) ↔
      [',', ' '].intercalate (name :: rest) = remaining := by
  cases rest with
  | nil =>
    simp only [suffixOf, decide_true, if_true, List.intercalate_nil, List.intercalate_singleton]
    by_cases hname : remaining = name
    · simp [hname]
    · simp [hname, Ne.symm hname]
  | cons next rest =>
    rw [List.intercalate_cons_cons]
    simp only [suffixOf, reduceCtorEq, decide_false, Bool.false_eq_true, if_false, afterText]
    constructor
    · intro htaken
      by_cases hstart : name ++ [',', ' '] <+: remaining
      · rw [if_pos hstart] at htaken
        obtain ⟨suffix, rfl⟩ := hstart
        rw [List.drop_left, Option.some_inj] at htaken
        rw [htaken]
      · rw [if_neg hstart] at htaken
        exact absurd htaken (by simp)
    · rintro rfl
      rw [if_pos (List.prefix_append _ _), List.drop_left]

theorem joinStep_eq_some_iff {names : List (List Char)} {state next : JoinState} {index : ℕ} :
    joinStep names state index = some next ↔ state.2.getD index 0 ≠ 0 ∧
      suffixOf (decide (state.2.sum = 1)) (names.getD index []) state.1 = some next.1 ∧
      state.2.set index (state.2.getD index 0 - 1) = next.2 := by
  unfold joinStep
  by_cases hcount : state.2.getD index 0 = 0
  · rw [if_pos hcount]
    exact ⟨fun hnone ↦ absurd hnone (by simp), fun hstep ↦ absurd hcount hstep.1⟩
  · rw [if_neg hcount, Option.map_eq_some_iff]
    constructor
    · rintro ⟨suffix, hsuffix, rfl⟩
      exact ⟨hcount, hsuffix, rfl⟩
    · rintro ⟨-, hsuffix, hcounts⟩
      exact ⟨next.1, hsuffix, Prod.ext rfl hcounts⟩

/-- A depth first search reaches the end exactly when there is an order. -/
theorem accepts_iff_joinable {names : List (List Char)} {depth : ℕ} {state : JoinState}
    (hlength : state.2.length = names.length) (hrank : joinRank state = depth) :
    accepts (joinSuccessors names) joinAccepting depth state = true ↔ Joinable names state := by
  induction depth generalizing state with
  | zero =>
    have hnil : leftNames names state.2 = [] :=
      List.eq_nil_of_length_eq_zero ((length_leftNames hlength).trans hrank)
    unfold accepts joinAccepting Joinable
    rw [hnil, List.isEmpty_iff]
    constructor
    · exact fun hempty ↦ ⟨[], List.Perm.refl _, hempty.symm⟩
    · rintro ⟨order, hperm, hjoin⟩
      rw [hperm.eq_nil, List.intercalate_nil] at hjoin
      exact hjoin.symm
  | succ depth ih =>
    have hlast {order : List (List Char)} (horder : order.length = depth) :
        decide (state.2.sum = 1) = decide (order = []) := by
      unfold joinRank at hrank
      refine decide_eq_decide.mpr ?_
      rw [← List.length_eq_zero_iff, horder, hrank]
      exact Nat.succ_inj
    have hnext {next : JoinState} (hmem : next ∈ joinSuccessors names state) :
        next.2.length = names.length ∧ joinRank next = depth := by
      have hstep := ranked_joinSuccessors names state next hmem
      obtain ⟨index, -, hindex⟩ := List.mem_filterMap.mp hmem
      obtain ⟨-, -, hcounts⟩ := joinStep_eq_some_iff.mp hindex
      refine ⟨?_, by omega⟩
      rw [← hcounts, List.length_set, hlength]
    rw [accepts, List.any_eq_true]
    constructor
    · rintro ⟨next, hmem, haccepts⟩
      obtain ⟨hnextLength, hnextRank⟩ := hnext hmem
      obtain ⟨order, hperm, hjoin⟩ := (ih hnextLength hnextRank).mp haccepts
      obtain ⟨index, hindex, hstep⟩ := List.mem_filterMap.mp hmem
      obtain ⟨hcount, hsuffix, hcounts⟩ := joinStep_eq_some_iff.mp hstep
      have horder : order.length = depth :=
        hperm.length_eq.trans ((length_leftNames hnextLength).trans hnextRank)
      rw [hlast horder, ← hjoin] at hsuffix
      refine ⟨names.getD index [] :: order, ?_, suffixOf_eq_some_iff.mp hsuffix⟩
      rw [← hcounts] at hperm
      exact (hperm.cons _).trans (perm_leftNames (List.mem_range.mp hindex) hcount)
    · rintro ⟨order, hperm, hjoin⟩
      have horder : order.length = depth + 1 :=
        hperm.length_eq.trans ((length_leftNames hlength).trans hrank)
      obtain ⟨name, rest, rfl⟩ := List.exists_cons_of_length_eq_add_one horder
      obtain ⟨index, hindex, rfl, hcount⟩ :=
        exists_index_of_mem (hperm.subset List.mem_cons_self)
      have hrest : rest.Perm (leftNames names (state.2.set index (state.2.getD index 0 - 1))) :=
        (hperm.trans (perm_leftNames hindex hcount).symm).cons_inv
      have hmem : ([',', ' '].intercalate rest, state.2.set index (state.2.getD index 0 - 1)) ∈
          joinSuccessors names state := by
        refine List.mem_filterMap.mpr ⟨index, List.mem_range.mpr hindex,
          joinStep_eq_some_iff.mpr ⟨hcount, ?_, rfl⟩⟩
        rw [hlast (Nat.succ.inj horder)]
        exact suffixOf_eq_some_iff.mpr hjoin
      obtain ⟨hnextLength, hnextRank⟩ := hnext hmem
      exact ⟨_, hmem, (ih hnextLength hnextRank).mpr ⟨rest, hrest, rfl⟩⟩

/-! ### The match of a page -/

/-- The names of some entities, in the order in which the match tries them. -/
def namesOf (entities : List String) : List (List Char) :=
  distinctNames (entities.map String.toList)

/-- The state that the match of some entities with a text starts at. -/
def startOf (entities : List String) (serialized : String) : JoinState :=
  (serialized.toList, (namesOf entities).map fun name ↦ (entities.map String.toList).count name)

/-- What is reached when names are taken from the front of a text. -/
def Reached (entities : List String) (serialized : String) : JoinState → Prop :=
  Reaches (joinSuccessors (namesOf entities)) (startOf entities serialized)

/-- How many states the match of some entities with a text enters. -/
def visitedStates (entities : List String) (serialized : String) : ℕ :=
  (matchJoin (namesOf entities) entities.length (startOf entities serialized).1
    (startOf entities serialized).2 ⟨0, []⟩).2.visitedStates

theorem count_leftNames {names : List (List Char)} (hnodup : names.Nodup)
    (count : List Char → ℕ) (name : List Char) :
    (leftNames names (names.map count)).count name = if name ∈ names then count name else 0 := by
  induction names with
  | nil => rfl
  | cons first names ih =>
    obtain ⟨hfirst, hrest⟩ := List.nodup_cons.mp hnodup
    rw [List.map_cons, leftNames, List.count_append, ih hrest, List.count_replicate]
    by_cases heq : first = name
    · subst heq
      simp [hfirst]
    · simp [heq, Ne.symm heq]

theorem perm_distinctNames (entities : List (List Char)) :
    (distinctNames entities).Perm entities.dedup :=
  List.mergeSort_perm _ _

theorem leftNames_perm (entities : List (List Char)) :
    (leftNames (distinctNames entities)
      ((distinctNames entities).map fun name ↦ entities.count name)).Perm entities := by
  have hnames := perm_distinctNames entities
  refine List.perm_iff_count.mpr fun name ↦ ?_
  rw [count_leftNames (hnames.nodup_iff.mpr (List.nodup_dedup entities))]
  by_cases hmem : name ∈ distinctNames entities
  · rw [if_pos hmem]
  · rw [if_neg hmem]
    rw [hnames.mem_iff, List.mem_dedup] at hmem
    exact (List.count_eq_zero.mpr hmem).symm

theorem joinable_startOf_iff (entities : List String) (serialized : String) :
    Joinable (namesOf entities) (startOf entities serialized) ↔ IsJoin entities serialized := by
  have hleft : (leftNames (namesOf entities) (startOf entities serialized).2).Perm
      (entities.map String.toList) := leftNames_perm _
  constructor
  · rintro ⟨order, hperm, hjoin⟩
    refine ⟨order.map String.ofList, ?_, ?_⟩
    · have hmap := (hperm.trans hleft).map String.ofList
      simpa [Function.comp_def] using hmap
    · rw [← String.toList_inj, String.toList_intercalate]
      simpa [Function.comp_def, startOf] using hjoin
  · rintro ⟨order, hperm, rfl⟩
    refine ⟨order.map String.toList, (hperm.map String.toList).trans hleft.symm, ?_⟩
    simp [startOf, String.toList_intercalate]

theorem length_startOf (entities : List String) (serialized : String) :
    (startOf entities serialized).2.length = (namesOf entities).length := List.length_map _

theorem joinRank_startOf (entities : List String) (serialized : String) :
    joinRank (startOf entities serialized) = entities.length := by
  have hlength := (leftNames_perm (entities.map String.toList)).length_eq
  rw [length_leftNames (List.length_map _), List.length_map] at hlength
  exact hlength

/-- The match of a page as a search. -/
theorem match_eq_explore (entities : List String) (serialized : String) :
    (matchJoin (namesOf entities) entities.length (startOf entities serialized).1
      (startOf entities serialized).2 ⟨0, []⟩).map id searchOf =
      explore entityJoinMatchStateLimit (joinSuccessors (namesOf entities)) joinAccepting
        (joinRank (startOf entities serialized)) (startOf entities serialized) Search.empty := by
  rw [search_matchJoin _ (joinRank_startOf entities serialized), joinRank_startOf]
  rfl

theorem unorderedEntityJoinMatches_eq {entities : List String} (hentities : entities ≠ [])
    (serialized : String) :
    unorderedEntityJoinMatches entities serialized =
      (explore entityJoinMatchStateLimit (joinSuccessors (namesOf entities)) joinAccepting
        (joinRank (startOf entities serialized)) (startOf entities serialized)
        Search.empty).1 := by
  rw [← match_eq_explore]
  unfold unorderedEntityJoinMatches
  simp only [hentities, if_false, List.length_map]
  rfl

theorem visitedStates_eq (entities : List String) (serialized : String) :
    visitedStates entities serialized =
      (explore entityJoinMatchStateLimit (joinSuccessors (namesOf entities)) joinAccepting
        (joinRank (startOf entities serialized)) (startOf entities serialized)
        Search.empty).2.visited := by
  rw [← match_eq_explore]
  rfl

theorem isJoin_nil_iff (serialized : String) : IsJoin [] serialized ↔ serialized = "" := by
  constructor
  · rintro ⟨order, hperm, hjoin⟩
    rw [hperm.eq_nil] at hjoin
    exact hjoin.symm
  · rintro rfl
    exact ⟨[], List.Perm.refl _, rfl⟩

/-- What a page has to hold is a join of the entities, and every join is accepted unless more states
than the limit were entered. No state is entered twice, so these are states that can be reached. -/
theorem unorderedEntityJoinMatches_exact (entities : List String) (serialized : String) :
    (unorderedEntityJoinMatches entities serialized = true → IsJoin entities serialized) ∧
      (IsJoin entities serialized → unorderedEntityJoinMatches entities serialized = false →
        entityJoinMatchStateLimit < visitedStates entities serialized) ∧
      ∀ states : List JoinState, (∀ state, Reached entities serialized state → state ∈ states) →
        visitedStates entities serialized ≤ states.length := by
  have hranked := ranked_joinSuccessors (namesOf entities)
  have haccepts := accepts_iff_joinable (length_startOf entities serialized) (Eq.refl _)
  rw [joinable_startOf_iff] at haccepts
  refine ⟨fun hmatches ↦ ?_, fun hjoin hmissed ↦ ?_, fun states hstates ↦ ?_⟩
  · by_cases hentities : entities = []
    · subst hentities
      exact (isJoin_nil_iff serialized).mpr (of_decide_eq_true hmatches)
    · rw [unorderedEntityJoinMatches_eq hentities] at hmatches
      exact haccepts.mp (accepts_of_explore hranked hmatches)
  · by_cases hentities : entities = []
    · subst hentities
      exact absurd ((isJoin_nil_iff serialized).mp hjoin) (of_decide_eq_false hmissed)
    · rw [unorderedEntityJoinMatches_eq hentities] at hmissed
      rw [visitedStates_eq]
      by_contra hwithin
      have hnone := not_accepts_of_explore hranked hmissed (Nat.le_of_not_lt hwithin)
      rw [haccepts.mpr hjoin] at hnone
      exact Bool.noConfusion hnone
  · rw [visitedStates_eq]
    exact visited_le hranked hstates

/-! ### A join that is given up -/

/-- Some names of one letter, joined: a name that holds the separator. -/
def runOf (count : ℕ) : List Char := [',', ' '].intercalate (List.replicate count ['a'])

def crowdedNames : List (List Char) := [runOf 5, runOf 4, runOf 2, ['b']]

/-- A long run, many short runs, and a name behind which the text starts again. -/
def crowdedTexts : List (List Char) :=
  runOf 5 :: List.replicate 64 (runOf 4) ++ List.replicate 65 (runOf 2) ++ [['b']]

def crowdedOrder : List (List Char) :=
  List.replicate 64 (runOf 4) ++ List.replicate 65 (runOf 2) ++ [['b'], runOf 5]

/-- The text that is left in front of so many letters. -/
def crowdedText : ℕ → List Char
  | 0 => 'b' :: ',' :: ' ' :: runOf 5
  | count + 1 => 'a' :: ',' :: ' ' :: crowdedText count

theorem distinctNames_crowdedTexts : distinctNames crowdedTexts = crowdedNames := by
  have hdedup : crowdedTexts.dedup = crowdedNames := by decide +kernel
  unfold distinctNames
  rw [hdedup]
  exact List.mergeSort_of_pairwise (by decide +kernel)

theorem count_crowdedTexts :
    (crowdedNames.map fun name ↦ crowdedTexts.count name) = [1, 64, 65, 1] := by decide +kernel

theorem join_crowdedOrder : [',', ' '].intercalate crowdedOrder = crowdedText 386 := by
  decide +kernel

theorem perm_crowdedOrder : crowdedOrder.Perm crowdedTexts := by
  have hlast : crowdedOrder =
      (List.replicate 64 (runOf 4) ++ List.replicate 65 (runOf 2) ++ [['b']]) ++ [runOf 5] := rfl
  rw [hlast]
  exact List.perm_append_singleton _ _

theorem afterText_append (start text : List Char) :
    afterText start (start ++ text) = some text := by
  unfold afterText
  rw [if_pos (List.prefix_append _ _), List.drop_left]

/-- A run is taken from a text while there are as many letters. -/
theorem afterText_runOf (count left : ℕ) :
    afterText (runOf (count + 1) ++ [',', ' ']) (crowdedText (left + (count + 1))) =
      some (crowdedText left) := by
  have htext : crowdedText (left + (count + 1)) =
      runOf (count + 1) ++ [',', ' '] ++ crowdedText left := by
    induction count with
    | zero => rfl
    | succ count ih =>
      have hrun : runOf (count + 1 + 1) = 'a' :: ',' :: ' ' :: runOf (count + 1) := by
        simp [runOf, List.replicate_succ]
      rw [hrun, ← Nat.add_assoc, crowdedText, ih]
      rfl
  rw [htext, afterText_append]

/-- The states behind the long run: an odd number of letters is left, and no long run. -/
def OddLeft (state : JoinState) : Prop :=
  ∃ half, state.1 = crowdedText (2 * half + 1) ∧ state.2.getD 0 0 = 0

theorem length_crowdedText (count : ℕ) : 16 ≤ (crowdedText count).length := by
  induction count with
  | zero => decide
  | succ count ih =>
    simp only [crowdedText, List.length_cons]
    omega

theorem odd_of_suffixOf {last : Bool} {name suffix : List Char} {half : ℕ}
    (hname : name ∈ [runOf 4, runOf 2, ['b']])
    (hsuffix : suffixOf last name (crowdedText (2 * half + 1)) = some suffix) :
    ∃ later, suffix = crowdedText (2 * later + 1) := by
  cases last with
  | true =>
    -- No name is as long as what is left.
    have hlong : 16 ≤ (crowdedText (2 * half + 1)).length := length_crowdedText _
    have hshort : name.length ≤ 10 := by
      simp only [List.mem_cons, List.not_mem_nil, or_false] at hname
      rcases hname with rfl | rfl | rfl <;> decide
    have hne : crowdedText (2 * half + 1) ≠ name := by
      rintro rfl
      omega
    exact absurd ((if_neg hne).symm.trans hsuffix) (by simp)
  | false =>
    have htaken : afterText (name ++ [',', ' ']) (crowdedText (2 * half + 1)) = some suffix :=
      hsuffix
    simp only [List.mem_cons, List.not_mem_nil, or_false] at hname
    rcases hname with rfl | rfl | rfl
    · match half with
      | 0 => exact absurd (htaken.symm.trans (by decide : _ = none)) (by simp)
      | 1 => exact absurd (htaken.symm.trans (by decide : _ = none)) (by simp)
      | later + 2 =>
        exact ⟨later, Option.some_inj.mp (htaken.symm.trans (afterText_runOf 3 (2 * later + 1)))⟩
    · match half with
      | 0 => exact absurd (htaken.symm.trans (by decide : _ = none)) (by simp)
      | later + 1 =>
        exact ⟨later, Option.some_inj.mp (htaken.symm.trans (afterText_runOf 1 (2 * later + 1)))⟩
    · exact absurd htaken (by simp [afterText, crowdedText])

theorem crowded_step {state : JoinState} (hodd : OddLeft state) {next : JoinState}
    (hnext : next ∈ joinSuccessors crowdedNames state) : OddLeft next := by
  obtain ⟨half, htext, hlong⟩ := hodd
  obtain ⟨index, hindex, hstep⟩ := List.mem_filterMap.mp hnext
  obtain ⟨hcount, hsuffix, hcounts⟩ := joinStep_eq_some_iff.mp hstep
  rw [htext] at hsuffix
  cases index with
  | zero => exact absurd hlong hcount
  | succ index =>
    have hname : crowdedNames.getD (index + 1) [] ∈ [runOf 4, runOf 2, ['b']] := by
      have hlt : index < 3 := Nat.lt_of_succ_lt_succ (List.mem_range.mp hindex)
      match index, hlt with
      | 0, _ => exact List.mem_cons_self
      | 1, _ => exact List.mem_cons_of_mem _ List.mem_cons_self
      | 2, _ => exact List.mem_cons_of_mem _ (List.mem_cons_of_mem _ List.mem_cons_self)
    obtain ⟨later, hlater⟩ := odd_of_suffixOf hname hsuffix
    refine ⟨later, hlater, ?_⟩
    rw [← hcounts, List.getD_eq_getElem?_getD, List.getElem?_set_ne (Nat.succ_ne_zero index),
      ← List.getD_eq_getElem?_getD, hlong]

theorem short_step (left x y : ℕ) :
    (crowdedText left, [0, x, y, 1]) ∈
      joinSuccessors crowdedNames (crowdedText (left + 4), [0, x + 1, y, 1]) := by
  refine List.mem_filterMap.mpr ⟨1, by decide, joinStep_eq_some_iff.mpr ⟨by simp, ?_, rfl⟩⟩
  have hlast : ([0, x + 1, y, 1].sum = 1) = False := by simp; omega
  simp only [hlast, decide_false, suffixOf]
  exact afterText_runOf 3 left

theorem pair_step (left x y : ℕ) :
    (crowdedText left, [0, x, y, 1]) ∈
      joinSuccessors crowdedNames (crowdedText (left + 2), [0, x, y + 1, 1]) := by
  refine List.mem_filterMap.mpr ⟨2, by decide, joinStep_eq_some_iff.mpr ⟨by simp, ?_, rfl⟩⟩
  have hlast : ([0, x, y + 1, 1].sum = 1) = False := by simp; omega
  simp only [hlast, decide_false, suffixOf]
  exact afterText_runOf 1 left

theorem crowded_reaches (left x y i j : ℕ) :
    Reaches (joinSuccessors crowdedNames) (crowdedText (left + 2 * j + 4 * i), [0, x + i, y + j, 1])
      (crowdedText left, [0, x, y, 1]) := by
  induction i with
  | zero =>
    induction j with
    | zero => exact Relation.ReflTransGen.refl
    | succ j ih => exact Relation.ReflTransGen.head (pair_step _ x (y + j)) ih
  | succ i ih => exact Relation.ReflTransGen.head (short_step _ (x + i) (y + j)) ih

/-- More states than the limit that can be reached behind the long run. -/
def crowdedStates : List JoinState :=
  (List.range 64 ×ˢ List.range 65).map fun used ↦
    (crowdedText (381 - 2 * used.2 - 4 * used.1), [0, 64 - used.1, 65 - used.2, 1])

theorem nodup_crowdedStates : crowdedStates.Nodup := by
  refine List.Nodup.map_on ?_ (List.nodup_range.product List.nodup_range)
  rintro ⟨i, j⟩ hused ⟨k, l⟩ hother hsame
  obtain ⟨hi, hj⟩ := List.pair_mem_product.mp hused
  obtain ⟨hk, hl⟩ := List.pair_mem_product.mp hother
  rw [List.mem_range] at hi hj hk hl
  obtain ⟨-, hcounts⟩ := Prod.mk.inj hsame
  simp only [List.cons.injEq, true_and, and_true] at hcounts
  exact Prod.ext (by omega) (by omega)

theorem reaches_crowdedStates {state : JoinState} (hmem : state ∈ crowdedStates) :
    Reaches (joinSuccessors crowdedNames) (crowdedText 381, [0, 64, 65, 1]) state := by
  obtain ⟨⟨i, j⟩, hused, rfl⟩ := List.mem_map.mp hmem
  obtain ⟨hi, hj⟩ := List.pair_mem_product.mp hused
  rw [List.mem_range] at hi hj
  have hreaches := crowded_reaches (381 - 2 * j - 4 * i) (64 - i) (65 - j) i j
  rwa [show 381 - 2 * j - 4 * i + 2 * j + 4 * i = 381 by omega,
    show 64 - i + i = 64 by omega, show 65 - j + j = 65 by omega] at hreaches

theorem joinSuccessors_crowded :
    ∃ rest, joinSuccessors crowdedNames (crowdedText 386, [1, 64, 65, 1]) =
      (crowdedText 381, [0, 64, 65, 1]) :: rest := by
  have hfirst : joinStep crowdedNames (crowdedText 386, [1, 64, 65, 1]) 0 =
      some (crowdedText 381, [0, 64, 65, 1]) :=
    joinStep_eq_some_iff.mpr ⟨by decide, afterText_runOf 4 381, rfl⟩
  exact ⟨_, List.filterMap_cons_some (l := [1, 2, 3]) hfirst⟩

/-- The match gives up on a join of some entities: the states behind the longest of them, which does
not stand first, are more than the limit. -/
theorem not_accepts_every_join :
    ¬∀ (entities : List String) (serialized : String),
      unorderedEntityJoinMatches entities serialized = true ↔ IsJoin entities serialized := by
  intro hexact
  have hjoin : IsJoin (crowdedTexts.map String.ofList) (String.ofList (crowdedText 386)) := by
    refine ⟨crowdedOrder.map String.ofList, perm_crowdedOrder.map _, ?_⟩
    rw [← String.toList_inj, String.toList_intercalate, String.toList_ofList, ← join_crowdedOrder]
    simp [Function.comp_def]
  have hmatches := (hexact _ _).mpr hjoin
  have htexts : (crowdedTexts.map String.ofList).map String.toList = crowdedTexts := by
    simp [Function.comp_def]
  have hnames : namesOf (crowdedTexts.map String.ofList) = crowdedNames := by
    rw [namesOf, htexts, distinctNames_crowdedTexts]
  have hstart : startOf (crowdedTexts.map String.ofList) (String.ofList (crowdedText 386)) =
      (crowdedText 386, [1, 64, 65, 1]) := by
    rw [startOf, hnames, htexts, String.toList_ofList, count_crowdedTexts]
  rw [unorderedEntityJoinMatches_eq (by simp [crowdedTexts]), hnames, hstart] at hmatches
  obtain ⟨rest, hsuccessors⟩ := joinSuccessors_crowded
  have hempty : ∀ state, OddLeft state → joinAccepting state = false := by
    rintro ⟨text, counts⟩ ⟨half, rfl, -⟩
    rfl
  have hlimit : entityJoinMatchStateLimit ≤ crowdedStates.length := by
    have hlength : crowdedStates.length = 64 * 65 := by
      rw [crowdedStates, List.length_map, List.length_product, List.length_range, List.length_range]
    rw [hlength]
    decide
  have hmissed := explore_eq_false_of_trap (ranked_joinSuccessors crowdedNames) hsuccessors
    ⟨190, rfl, rfl⟩ (fun _ hodd _ hnext ↦ crowded_step hodd hnext) hempty nodup_crowdedStates
    (fun _ ↦ reaches_crowdedStates) hlimit
  rw [hmissed] at hmatches
  exact Bool.noConfusion hmatches

end Oamb.MemorySystems.EntityJoins
