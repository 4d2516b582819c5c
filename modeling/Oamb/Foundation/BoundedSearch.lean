import Mathlib.Data.List.Perm.Subperm

/-!
# Searches with a bound

`explore` looks for an accepting state depth first. It keeps the answer on every state that it is
done with, counts the states that it enters, and gives every state up that it enters behind a limit.
What it finds is there (`accepts_of_explore`); what it does not find is not there unless it was
behind its limit (`not_accepts_of_explore`). It enters no more states than can be reached
(`visited_le`), and no fewer when it finds nothing within its limit (`length_le_visited`).
-/

set_option autoImplicit false

namespace Oamb.Foundation.BoundedSearch

variable {α : Type}

/-- The number of states that were entered, and the answers so far. -/
structure Search (α : Type) where
  visited : ℕ
  cached : List (α × Bool)

/-- A search before its first state. -/
def Search.empty : Search α := ⟨0, []⟩

section Exploration

variable [DecidableEq α] (limit : ℕ) (successors : α → List α) (accepting : α → Bool)

/-- The answer on a state, if it is known. -/
def Search.answer (search : Search α) (state : α) : Option Bool := search.cached.lookup state

/-- Enter a state unless there is an answer, and keep its answer. -/
def remember (compute : Search α → Bool × Search α) (state : α) (search : Search α) :
    Bool × Search α :=
  match search.answer state with
  | some result => (result, search)
  | none =>
    let entered : Search α := ⟨search.visited + 1, search.cached⟩
    let outcome := if limit < entered.visited then (false, entered) else compute entered
    (outcome.1, ⟨outcome.2.visited, (state, outcome.1) :: outcome.2.cached⟩)

/-- Visit some states until one of them is accepted. -/
def tryAll (visit : α → Search α → Bool × Search α) : List α → Search α → Bool × Search α
  | [], search => (false, search)
  | state :: rest, search =>
    let outcome := visit state search
    if outcome.1 then outcome else tryAll visit rest outcome.2

/-- Whether an accepting state is found at some depth below a state. -/
def explore : ℕ → α → Search α → Bool × Search α
  | 0, state => remember limit (fun search ↦ (accepting state, search)) state
  | depth + 1, state => remember limit (tryAll (explore depth) (successors state)) state

/-- An accepting state stands at some depth below a state. -/
def accepts : ℕ → α → Bool
  | 0, state => accepting state
  | depth + 1, state => (successors state).any (accepts depth)

/-- A state is reached from another one. -/
def Reaches (successors : α → List α) : α → α → Prop :=
  Relation.ReflTransGen fun state next ↦ next ∈ successors state

end Exploration

section Correctness

variable {limit : ℕ} {successors : α → List α} {accepting : α → Bool} {rank : α → ℕ}

/-- The answers of a search are right; the ones that nothing was found are when the limit was not
exceeded, and then their successors are answered too. -/
structure Valid (limit : ℕ) (successors : α → List α) (accepting : α → Bool) (rank : α → ℕ)
    (search : Search α) : Prop where
  found : ∀ state, (state, true) ∈ search.cached →
    accepts successors accepting (rank state) state = true
  closed : search.visited ≤ limit → ∀ state, (state, false) ∈ search.cached →
    accepts successors accepting (rank state) state = false ∧
      ∀ next ∈ successors state, (next, false) ∈ search.cached
  nodup : (search.cached.map Prod.fst).Nodup

/-- What exploring states below a bound adds to a search. -/
structure Grows (successors : α → List α) (rank : α → ℕ) (bound : ℕ) (origin : α → Prop)
    (search later : Search α) : Prop where
  kept : ∀ entry ∈ search.cached, entry ∈ later.cached
  visited : search.visited ≤ later.visited
  balance : later.visited + search.cached.length = search.visited + later.cached.length
  added : ∀ entry ∈ later.cached, entry ∈ search.cached ∨
    rank entry.1 < bound ∧ ∃ first, origin first ∧ Reaches successors first entry.1

theorem Valid.empty : Valid limit successors accepting rank Search.empty :=
  ⟨fun _ hmem ↦ (List.not_mem_nil hmem).elim, fun _ _ hmem ↦ (List.not_mem_nil hmem).elim,
    List.nodup_nil⟩

theorem Grows.refl {bound : ℕ} {origin : α → Prop} (search : Search α) :
    Grows successors rank bound origin search search :=
  ⟨fun _ hmem ↦ hmem, Nat.le_refl _, rfl, fun _ hmem ↦ Or.inl hmem⟩

theorem Grows.trans {bound : ℕ} {origin : α → Prop} {first second third : Search α}
    (hfirst : Grows successors rank bound origin first second)
    (hsecond : Grows successors rank bound origin second third) :
    Grows successors rank bound origin first third where
  kept := fun entry hmem ↦ hsecond.kept entry (hfirst.kept entry hmem)
  visited := Nat.le_trans hfirst.visited hsecond.visited
  balance := by
    have hone := hfirst.balance
    have htwo := hsecond.balance
    omega
  added := by
    intro entry hmem
    rcases hsecond.added entry hmem with hmid | hnew
    · exact hfirst.added entry hmid
    · exact Or.inr hnew

theorem Grows.mono {bound larger : ℕ} {origin wider : α → Prop} {search later : Search α}
    (hgrows : Grows successors rank bound origin search later) (hbound : bound ≤ larger)
    (horigin : ∀ state, origin state → ∃ first, wider first ∧ Reaches successors first state) :
    Grows successors rank larger wider search later where
  kept := hgrows.kept
  visited := hgrows.visited
  balance := hgrows.balance
  added := by
    intro entry hmem
    rcases hgrows.added entry hmem with hold | ⟨hrank, state, hstate, hreach⟩
    · exact Or.inl hold
    · obtain ⟨first, hfirst, hbefore⟩ := horigin state hstate
      exact Or.inr ⟨Nat.lt_of_lt_of_le hrank hbound, first, hfirst, hbefore.trans hreach⟩

/-- What visiting a state does to a search that is right. -/
structure Visits (limit : ℕ) (successors : α → List α) (accepting : α → Bool) (rank : α → ℕ)
    (search : Search α) (state : α) (outcome : Bool × Search α) : Prop where
  valid : Valid limit successors accepting rank outcome.2
  grows : Grows successors rank (rank state + 1) (Eq state) search outcome.2
  answered : (state, outcome.1) ∈ outcome.2.cached

/-- What visiting some states of one rank does to a search that is right. -/
structure Tries (limit : ℕ) (successors : α → List α) (accepting : α → Bool) (rank : α → ℕ)
    (bound : ℕ) (search : Search α) (states : List α) (outcome : Bool × Search α) : Prop where
  valid : Valid limit successors accepting rank outcome.2
  grows : Grows successors rank bound (fun state ↦ state ∈ states) search outcome.2
  found : outcome.1 = true → ∃ state ∈ states, (state, true) ∈ outcome.2.cached
  missed : outcome.1 = false → ∀ state ∈ states, (state, false) ∈ outcome.2.cached

theorem tries_tryAll {visit : α → Search α → Bool × Search α} {bound : ℕ} {states : List α}
    (hrank : ∀ state ∈ states, rank state < bound)
    (hvisit : ∀ state ∈ states, ∀ search, Valid limit successors accepting rank search →
      Visits limit successors accepting rank search state (visit state search))
    {search : Search α} (hvalid : Valid limit successors accepting rank search) :
    Tries limit successors accepting rank bound search states (tryAll visit states search) := by
  induction states generalizing search with
  | nil =>
    exact ⟨hvalid, Grows.refl search, fun htrue ↦ Bool.noConfusion htrue,
      fun _ _ hmem ↦ (List.not_mem_nil hmem).elim⟩
  | cons state rest ih =>
    have hfirst := hvisit state List.mem_cons_self search hvalid
    have hgrows : Grows successors rank bound (fun other ↦ other ∈ state :: rest) search
        (visit state search).2 :=
      hfirst.grows.mono (hrank state List.mem_cons_self)
        (fun other heq ↦ ⟨other, heq ▸ List.mem_cons_self, Relation.ReflTransGen.refl⟩)
    unfold tryAll
    by_cases hresult : (visit state search).1 = true
    · simp only [hresult, if_true]
      refine ⟨hfirst.valid, hgrows, fun _ ↦ ⟨state, List.mem_cons_self, ?_⟩, ?_⟩
      · have hanswered := hfirst.answered
        rwa [hresult] at hanswered
      · intro hfalse
        exact absurd (hresult.symm.trans hfalse) Bool.noConfusion
    · simp only [hresult, if_false, Bool.false_eq_true]
      have hrest := ih (fun other hmem ↦ hrank other (List.mem_cons_of_mem _ hmem))
        (fun other hmem ↦ hvisit other (List.mem_cons_of_mem _ hmem)) hfirst.valid
      refine ⟨hrest.valid, hgrows.trans (hrest.grows.mono (Nat.le_refl _) ?_), ?_, ?_⟩
      · exact fun other hmem ↦ ⟨other, List.mem_cons_of_mem _ hmem, Relation.ReflTransGen.refl⟩
      · intro htrue
        obtain ⟨other, hmem, hcached⟩ := hrest.found htrue
        exact ⟨other, List.mem_cons_of_mem _ hmem, hcached⟩
      · intro hfalse other hmem
        rcases List.mem_cons.mp hmem with rfl | hmem
        · have hanswered := hfirst.answered
          rw [Bool.eq_false_iff.mpr hresult] at hanswered
          exact hrest.grows.kept _ hanswered
        · exact hrest.missed hfalse other hmem

/-- When nothing is found within the limit, all states that can be reached have been entered. -/
theorem mem_cached_of_reaches {state : α} {search : Search α}
    (hvalid : Valid limit successors accepting rank search) (hlimit : search.visited ≤ limit)
    (hanswered : (state, false) ∈ search.cached) {other : α}
    (hreach : Reaches successors state other) : (other, false) ∈ search.cached := by
  induction hreach with
  | refl => exact hanswered
  | tail _ hnext ih => exact (hvalid.closed hlimit _ ih).2 _ hnext

/-- Where no state is accepted that an invariant allows, nothing is found. -/
theorem not_accepts_of_invariant {invariant : α → Prop}
    (hstep : ∀ state, invariant state → ∀ next ∈ successors state, invariant next)
    (hnone : ∀ state, invariant state → accepting state = false) {depth : ℕ} {state : α}
    (hstate : invariant state) : accepts successors accepting depth state = false := by
  induction depth generalizing state with
  | zero => exact hnone state hstate
  | succ depth ih =>
    exact List.any_eq_false.mpr fun next hnext ↦
      Bool.eq_false_iff.mp (ih (hstep state hstate next hnext))

variable [DecidableEq α]

theorem mem_of_answer {search : Search α} {state : α} {result : Bool}
    (hanswer : search.answer state = some result) : (state, result) ∈ search.cached := by
  obtain ⟨before, after, hcached, -⟩ := List.lookup_eq_some_iff.mp hanswer
  rw [hcached]
  exact List.mem_append_right before List.mem_cons_self

theorem not_mem_keys_of_answer {search : Search α} {state : α}
    (hanswer : search.answer state = none) : state ∉ search.cached.map Prod.fst := by
  intro hmem
  obtain ⟨entry, hentry, rfl⟩ := List.mem_map.mp hmem
  have hne := List.lookup_eq_none_iff.mp hanswer entry hentry
  simp at hne

/-- What computing the answer on a state has to do with a search that is right. -/
structure Computes (limit : ℕ) (successors : α → List α) (accepting : α → Bool) (rank : α → ℕ)
    (search : Search α) (state : α) (outcome : Bool × Search α) : Prop where
  valid : Valid limit successors accepting rank outcome.2
  grows : Grows successors rank (rank state) (fun next ↦ next ∈ successors state) search outcome.2
  found : outcome.1 = true → accepts successors accepting (rank state) state = true
  missed : outcome.1 = false → ∀ next ∈ successors state, (next, false) ∈ outcome.2.cached
  closed : outcome.1 = false → outcome.2.visited ≤ limit →
    accepts successors accepting (rank state) state = false

theorem visits_remember {compute : Search α → Bool × Search α} {state : α}
    (hcompute : ∀ search, Valid limit successors accepting rank search →
      Computes limit successors accepting rank search state (compute search))
    {search : Search α} (hvalid : Valid limit successors accepting rank search) :
    Visits limit successors accepting rank search state (remember limit compute state search) := by
  unfold remember
  cases hanswer : search.answer state with
  | some result => exact ⟨hvalid, Grows.refl search, mem_of_answer hanswer⟩
  | none =>
    have hfresh := not_mem_keys_of_answer hanswer
    have hentered : Valid limit successors accepting rank
        ⟨search.visited + 1, search.cached⟩ :=
      ⟨hvalid.found, fun hle ↦ hvalid.closed (Nat.le_of_succ_le hle), hvalid.nodup⟩
    by_cases hlimit : limit < search.visited + 1
    · simp only [hlimit, if_true]
      refine ⟨⟨?_, ?_, ?_⟩, ⟨?_, ?_, ?_, ?_⟩, List.mem_cons_self⟩
      · intro other hmem
        rcases List.mem_cons.mp hmem with heq | hmem
        · exact absurd (congrArg Prod.snd heq) Bool.noConfusion
        · exact hvalid.found other hmem
      · exact fun hle ↦ absurd hle (Nat.not_le.mpr hlimit)
      · exact List.nodup_cons.mpr ⟨hfresh, hvalid.nodup⟩
      · exact fun entry hmem ↦ List.mem_cons_of_mem _ hmem
      · exact Nat.le_succ _
      · simp only [List.length_cons]
        omega
      · intro entry hmem
        rcases List.mem_cons.mp hmem with rfl | hmem
        · exact Or.inr ⟨Nat.lt_succ_self _, state, rfl, Relation.ReflTransGen.refl⟩
        · exact Or.inl hmem
    · simp only [hlimit, if_false]
      have hcomputes := hcompute _ hentered
      generalize hcomputed : compute ⟨search.visited + 1, search.cached⟩ = outcome at *
      have hnew : state ∉ outcome.2.cached.map Prod.fst := by
        intro hmem
        obtain ⟨entry, hentry, heq⟩ := List.mem_map.mp hmem
        rcases hcomputes.grows.added entry hentry with hold | ⟨hrank, -⟩
        · exact hfresh (heq ▸ List.mem_map_of_mem hold)
        · exact absurd (heq ▸ hrank) (Nat.lt_irrefl _)
      refine ⟨⟨?_, ?_, ?_⟩, ⟨?_, ?_, ?_, ?_⟩, List.mem_cons_self⟩
      · intro other hmem
        rcases List.mem_cons.mp hmem with heq | hmem
        · obtain ⟨rfl, hresult⟩ := Prod.mk.inj heq
          exact hcomputes.found hresult.symm
        · exact hcomputes.valid.found other hmem
      · intro hle other hmem
        rcases List.mem_cons.mp hmem with heq | hmem
        · obtain ⟨rfl, hresult⟩ := Prod.mk.inj heq
          exact ⟨hcomputes.closed hresult.symm hle, fun next hnext ↦
            List.mem_cons_of_mem _ (hcomputes.missed hresult.symm next hnext)⟩
        · obtain ⟨hnot, hnexts⟩ := hcomputes.valid.closed hle other hmem
          exact ⟨hnot, fun next hnext ↦ List.mem_cons_of_mem _ (hnexts next hnext)⟩
      · exact List.nodup_cons.mpr ⟨hnew, hcomputes.valid.nodup⟩
      · exact fun entry hmem ↦ List.mem_cons_of_mem _ (hcomputes.grows.kept entry hmem)
      · exact Nat.le_of_succ_le hcomputes.grows.visited
      · have hbalance := hcomputes.grows.balance
        simp only [List.length_cons] at hbalance ⊢
        omega
      · intro entry hmem
        rcases List.mem_cons.mp hmem with rfl | hmem
        · exact Or.inr ⟨Nat.lt_succ_self _, state, rfl, Relation.ReflTransGen.refl⟩
        · rcases hcomputes.grows.added entry hmem with hold | ⟨hrank, next, hnext, hreach⟩
          · exact Or.inl hold
          · exact Or.inr ⟨Nat.lt_succ_of_lt hrank, state, rfl,
              Relation.ReflTransGen.head hnext hreach⟩

/-- Every successor is one step closer to the end. -/
def Ranked (successors : α → List α) (rank : α → ℕ) : Prop :=
  ∀ state, ∀ next ∈ successors state, rank next + 1 = rank state

/-- Exploring a state to its own depth keeps a search right, by induction on the depth. -/
theorem visits_explore (hranked : Ranked successors rank) {depth : ℕ} {state : α}
    (hdepth : rank state = depth) {search : Search α}
    (hvalid : Valid limit successors accepting rank search) :
    Visits limit successors accepting rank search state
      (explore limit successors accepting depth state search) := by
  induction depth generalizing state search with
  | zero =>
    refine visits_remember (fun entered hentered ↦ ?_) hvalid
    have hnone : successors state = [] := by
      refine List.eq_nil_iff_forall_not_mem.mpr fun next hnext ↦ ?_
      have hstep := hranked state next hnext
      omega
    refine ⟨hentered, Grows.refl _, ?_, ?_, ?_⟩
    · rw [hdepth]
      exact id
    · rw [hnone]
      exact fun _ _ hmem ↦ (List.not_mem_nil hmem).elim
    · rw [hdepth]
      exact fun hfalse _ ↦ hfalse
  | succ depth ih =>
    have hnext : ∀ next ∈ successors state, rank next = depth := by
      intro next hmem
      have hstep := hranked state next hmem
      omega
    refine visits_remember (fun entered hentered ↦ ?_) hvalid
    have htries : Tries limit successors accepting rank (rank state) entered (successors state)
        (tryAll (explore limit successors accepting depth) (successors state) entered) :=
      tries_tryAll (fun next hmem ↦ by rw [hnext next hmem, hdepth]; exact Nat.lt_succ_self depth)
      (fun next hmem other hother ↦ ih (hnext next hmem) hother) hentered
    refine ⟨htries.valid, htries.grows, ?_, htries.missed, ?_⟩
    · intro htrue
      obtain ⟨next, hmem, hcached⟩ := htries.found htrue
      have haccepts := htries.valid.found next hcached
      rw [hnext next hmem] at haccepts
      rw [hdepth]
      exact List.any_eq_true.mpr ⟨next, hmem, haccepts⟩
    · intro hfalse hle
      rw [hdepth]
      refine List.any_eq_false.mpr fun next hmem ↦ ?_
      have hnot := (htries.valid.closed hle next (htries.missed hfalse next hmem)).1
      rw [hnext next hmem] at hnot
      exact Bool.eq_false_iff.mp hnot

/-! ### A search from its start -/

variable {state : α}

theorem visits_start (limit : ℕ) (accepting : α → Bool) (state : α)
    (hranked : Ranked successors rank) :
    Visits limit successors accepting rank Search.empty state
      (explore limit successors accepting (rank state) state Search.empty) :=
  visits_explore hranked rfl Valid.empty

/-- What is found is there. -/
theorem accepts_of_explore (hranked : Ranked successors rank)
    (hfound : (explore limit successors accepting (rank state) state Search.empty).1 = true) :
    accepts successors accepting (rank state) state = true := by
  have hvisits := visits_start limit accepting state hranked
  have hanswered := hvisits.answered
  rw [hfound] at hanswered
  exact hvisits.valid.found state hanswered

/-- What is not found within the limit is not there. -/
theorem not_accepts_of_explore (hranked : Ranked successors rank)
    (hmissed : (explore limit successors accepting (rank state) state Search.empty).1 = false)
    (hlimit :
      (explore limit successors accepting (rank state) state Search.empty).2.visited ≤ limit) :
    accepts successors accepting (rank state) state = false := by
  have hvisits := visits_start limit accepting state hranked
  have hanswered := hvisits.answered
  rw [hmissed] at hanswered
  exact (hvisits.valid.closed hlimit state hanswered).1

/-- No state is entered twice, and only states that can be reached are entered. -/
theorem visited_le (hranked : Ranked successors rank) {possible : List α}
    (hpossible : ∀ other, Reaches successors state other → other ∈ possible) :
    (explore limit successors accepting (rank state) state Search.empty).2.visited ≤
      possible.length := by
  have hvisits := visits_start limit accepting state hranked
  have hbalance := hvisits.grows.balance
  have hsub : (explore limit successors accepting (rank state) state
      Search.empty).2.cached.map Prod.fst ⊆ possible := by
    intro other hmem
    obtain ⟨entry, hentry, rfl⟩ := List.mem_map.mp hmem
    rcases hvisits.grows.added entry hentry with hold | ⟨-, first, rfl, hreach⟩
    · exact (List.not_mem_nil hold).elim
    · exact hpossible entry.1 hreach
  have hle := (List.subperm_of_subset hvisits.valid.nodup hsub).length_le
  rw [List.length_map] at hle
  simp only [Search.empty, List.length_nil] at hbalance
  simp only [Search.empty] at hle ⊢
  omega

/-! ### A search behind its limit -/

/-- The limit was reached, and nothing was found. -/
structure Behind (limit : ℕ) (search : Search α) : Prop where
  visited : limit ≤ search.visited
  missed : ∀ state, (state, true) ∉ search.cached

theorem remember_behind {search : Search α} (hbehind : Behind limit search)
    (compute : Search α → Bool × Search α) (state : α) :
    (remember limit compute state search).1 = false ∧
      Behind limit (remember limit compute state search).2 := by
  unfold remember
  cases hanswer : search.answer state with
  | some result =>
    cases result with
    | false => exact ⟨rfl, hbehind⟩
    | true => exact absurd (mem_of_answer hanswer) (hbehind.missed state)
  | none =>
    have hlimit : limit < search.visited + 1 := Nat.lt_succ_of_le hbehind.visited
    simp only [hlimit, if_true]
    refine ⟨trivial, Nat.le_succ_of_le hbehind.visited, fun other hmem ↦ ?_⟩
    rcases List.mem_cons.mp hmem with heq | hmem
    · exact absurd (congrArg Prod.snd heq) Bool.noConfusion
    · exact hbehind.missed other hmem

theorem explore_behind (successors : α → List α) (accepting : α → Bool) {search : Search α}
    (hbehind : Behind limit search) (depth : ℕ) (state : α) :
    (explore limit successors accepting depth state search).1 = false ∧
      Behind limit (explore limit successors accepting depth state search).2 := by
  cases depth with
  | zero => exact remember_behind hbehind _ state
  | succ depth => exact remember_behind hbehind _ state

theorem tryAll_behind {search : Search α} (hbehind : Behind limit search) (depth : ℕ)
    (states : List α) :
    (tryAll (explore limit successors accepting depth) states search).1 = false := by
  induction states generalizing search with
  | nil => rfl
  | cons state rest ih =>
    obtain ⟨hresult, hlater⟩ := explore_behind successors accepting hbehind depth state
    simp only [tryAll, hresult, Bool.false_eq_true, if_false]
    exact ih hlater

/-- A first successor below which nothing is found and too much is entered hides what stands below
the other successors. -/
theorem explore_eq_false_of_trap (hranked : Ranked successors rank) {first : α} {rest : List α}
    (hsuccessors : successors state = first :: rest)
    {invariant : α → Prop} (hfirst : invariant first)
    (hstep : ∀ other, invariant other → ∀ next ∈ successors other, invariant next)
    (hnone : ∀ other, invariant other → accepting other = false)
    {trap : List α} (hnodup : trap.Nodup) (htrap : ∀ other ∈ trap, Reaches successors first other)
    (hlimit : limit ≤ trap.length) :
    (explore limit successors accepting (rank state) state Search.empty).1 = false := by
  have hrank : rank state = rank first + 1 :=
    (hranked state first (hsuccessors ▸ List.mem_cons_self)).symm
  have hbarren : ∀ other, Reaches successors first other →
      accepts successors accepting (rank other) other = false := by
    intro other hreach
    refine not_accepts_of_invariant hstep hnone ?_
    induction hreach with
    | refl => exact hfirst
    | tail _ hnext ih => exact hstep _ ih _ hnext
  by_cases hzero : limit < 1
  · rw [hrank]
    simp [explore, remember, Search.answer, Search.empty, hzero]
  · have hentered : Valid limit successors accepting rank ⟨1, []⟩ :=
      ⟨fun _ hmem ↦ (List.not_mem_nil hmem).elim, fun _ _ hmem ↦ (List.not_mem_nil hmem).elim,
        List.nodup_nil⟩
    have hvisits := visits_explore hranked (Eq.refl (rank first)) hentered
    generalize houtcome :
      explore limit successors accepting (rank first) first ⟨1, []⟩ = outcome at hvisits
    have hresult : outcome.1 = false := by
      rw [← Bool.not_eq_true]
      intro htrue
      have hanswered := hvisits.answered
      rw [htrue] at hanswered
      have haccepts := hvisits.valid.found first hanswered
      rw [hbarren first Relation.ReflTransGen.refl] at haccepts
      exact Bool.noConfusion haccepts
    have hbehind : Behind limit outcome.2 := by
      refine ⟨?_, fun other hmem ↦ ?_⟩
      · by_contra hwithin
        have hanswered := hvisits.answered
        rw [hresult] at hanswered
        have hsub : trap ⊆ outcome.2.cached.map Prod.fst := fun other hmem ↦
          List.mem_map_of_mem (mem_cached_of_reaches hvisits.valid (Nat.le_of_not_le hwithin)
            hanswered (htrap other hmem))
        have hle := (List.subperm_of_subset hnodup hsub).length_le
        have hbalance := hvisits.grows.balance
        rw [List.length_map] at hle
        simp only [List.length_nil] at hbalance
        omega
      · rcases hvisits.grows.added _ hmem with hold | ⟨-, start, rfl, hreach⟩
        · exact (List.not_mem_nil hold).elim
        · have haccepts := hvisits.valid.found other hmem
          rw [hbarren other hreach] at haccepts
          exact Bool.noConfusion haccepts
    rw [hrank]
    simp only [explore, remember, Search.answer, Search.empty, List.lookup_nil, hsuccessors, tryAll,
      Nat.zero_add, hzero, if_false, houtcome, hresult, Bool.false_eq_true]
    exact tryAll_behind hbehind (rank first) rest

end Correctness

end Oamb.Foundation.BoundedSearch
