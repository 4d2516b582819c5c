import Mathlib.Data.List.Forall2

/-!
# Stateful computations that may raise

A stateful computation may raise in the middle, and what it wrote before stays written. `after` is
the state it leaves behind in both cases. A triple states what holds of that state, separately for a
return and for a raise; `Triple.bind` composes triples along a sequence, and `Triple.holds_after`
turns an assertion that holds in both cases into one about the state left behind.

For computations without a state, `bind_eq_ok` and `forM_eq_ok` read an accepted sequence back as
its accepted parts.
-/

set_option autoImplicit false

namespace Oamb.Foundation.StatefulExecution

/-! ### Fallible computations -/

section Fallible

variable {ε α β ι : Type}

theorem bind_eq_ok {first : Except ε α} {next : α → Except ε β} {result : β} :
    (first >>= next) = .ok result ↔
      ∃ value, first = .ok value ∧ next value = .ok result := by
  cases first with
  | error failure => simp [bind, Except.bind]
  | ok value => simp [bind, Except.bind]

theorem bind_eq_error {first : Except ε α} {next : α → Except ε β} {failure : ε} :
    (first >>= next) = .error failure ↔
      first = .error failure ∨ ∃ value, first = .ok value ∧ next value = .error failure := by
  cases first with
  | error other => simp [bind, Except.bind]
  | ok value => simp [bind, Except.bind]

theorem mapError_eq_ok {ε' : Type} {outcome : Except ε α} {convert : ε → ε'} {result : α} :
    outcome.mapError convert = .ok result ↔ outcome = .ok result := by
  cases outcome <;> simp [Except.mapError]

theorem forM_eq_ok {items : List ι} {check : ι → Except ε Unit} :
    forM items check = .ok () ↔ ∀ item ∈ items, check item = .ok () := by
  induction items with
  | nil => simp [pure, Except.pure]
  | cons item items ih =>
    rw [List.forM_cons, bind_eq_ok, List.forall_mem_cons]
    exact ⟨fun ⟨_, hfirst, hrest⟩ ↦ ⟨hfirst, ih.mp hrest⟩,
      fun ⟨hfirst, hrest⟩ ↦ ⟨(), hfirst, ih.mpr hrest⟩⟩

/-- A list of values is read when each of them is. -/
theorem mapM_eq_ok {items : List ι} {read : ι → Except ε α} {results : List α} :
    items.mapM read = .ok results ↔ items.map read = results.map .ok := by
  induction items generalizing results with
  | nil => cases results <;> simp [pure, Except.pure]
  | cons item items ih =>
    rw [List.mapM_cons, bind_eq_ok, List.map_cons]
    simp only [bind_eq_ok, ih]
    constructor
    · rintro ⟨value, hvalue, values, hvalues, hresults⟩
      rw [← Except.ok.inj hresults, List.map_cons, hvalue, hvalues]
    · intro hresults
      cases results with
      | nil => cases hresults
      | cons value values =>
        obtain ⟨hvalue, hvalues⟩ := List.cons.inj hresults
        exact ⟨value, hvalue, values, hvalues, rfl⟩

/-- A list of values is read when each item has one. -/
theorem exists_mapM {items : List ι} {read : ι → Except ε α}
    (hread : ∀ item ∈ items, ∃ value, read item = .ok value) :
    ∃ values, items.mapM read = .ok values := by
  induction items with
  | nil => exact ⟨[], rfl⟩
  | cons item items ih =>
    obtain ⟨⟨value, hvalue⟩, hrest⟩ := List.forall_mem_cons.mp hread
    obtain ⟨values, hvalues⟩ := ih hrest
    refine ⟨value :: values, mapM_eq_ok.mpr ?_⟩
    rw [List.map_cons, hvalue, mapM_eq_ok.mp hvalues, List.map_cons]

/-- Each item of a list that is read has its value. -/
theorem forall₂_of_mapM {items : List ι} {read : ι → Except ε α} {results : List α}
    (hread : items.mapM read = .ok results) :
    List.Forall₂ (fun item result ↦ read item = .ok result) items results := by
  have hsame : List.Forall₂ Eq (items.map read) (results.map .ok) := by
    rw [List.forall₂_eq_eq_eq]
    exact mapM_eq_ok.mp hread
  rw [List.forall₂_map_left_iff, List.forall₂_map_right_iff] at hsame
  exact hsame

theorem exists_of_mapM {items : List ι} {read : ι → Except ε α} {results : List α}
    (hread : items.mapM read = .ok results) {item : ι} (hitem : item ∈ items) :
    ∃ result ∈ results, read item = .ok result := by
  have hmem : read item ∈ results.map .ok := mapM_eq_ok.mp hread ▸ List.mem_map_of_mem hitem
  obtain ⟨result, hresult, hsame⟩ := List.mem_map.mp hmem
  exact ⟨result, hresult, hsame.symm⟩

/-- What stops a list from being read stops one of its items. -/
theorem error_of_mapM {items : List ι} {read : ι → Except ε α} {failure : ε}
    (hread : items.mapM read = .error failure) : ∃ item ∈ items, read item = .error failure := by
  induction items with
  | nil => exact nomatch hread
  | cons item items ih =>
    rw [List.mapM_cons, bind_eq_error] at hread
    rcases hread with hitem | ⟨value, -, hrest⟩
    · exact ⟨item, List.mem_cons_self, hitem⟩
    · rcases bind_eq_error.mp hrest with hrest | ⟨values, -, hpure⟩
      · obtain ⟨other, hother, hfailure⟩ := ih hrest
        exact ⟨other, List.mem_cons_of_mem _ hother, hfailure⟩
      · exact nomatch hpure

end Fallible

universe u

variable {ε σ α β : Type u}

/-! ### The state left behind -/

/-- The state that a computation leaves behind, also when it raises. -/
def after (operation : EStateM ε σ α) (state : σ) : σ :=
  match operation.run state with
  | .ok _ final => final
  | .error _ final => final

theorem after_of_ok {operation : EStateM ε σ α} {state final : σ} {result : α}
    (hrun : operation.run state = .ok result final) : after operation state = final := by
  rw [after, hrun]

theorem after_of_error {operation : EStateM ε σ α} {state final : σ} {failure : ε}
    (hrun : operation.run state = .error failure final) : after operation state = final := by
  rw [after, hrun]

/-- Whether a computation returns. -/
def returns (operation : EStateM ε σ α) (state : σ) : Bool :=
  match operation.run state with
  | .ok _ _ => true
  | .error _ _ => false

theorem returns_iff {operation : EStateM ε σ α} {state : σ} :
    returns operation state = true ↔ ∃ result final, operation.run state = .ok result final := by
  rw [returns]
  cases operation.run state <;> simp

theorem returns_eq_false_iff {operation : EStateM ε σ α} {state : σ} :
    returns operation state = false ↔
      ∃ failure final, operation.run state = .error failure final := by
  rw [returns]
  cases operation.run state <;> simp

/-- After a first part that returns, a sequence ends where the rest ends. -/
theorem after_bind_of_ok {operation : EStateM ε σ α} {next : α → EStateM ε σ β} {state middle : σ}
    {result : α} (hrun : operation.run state = .ok result middle) :
    after (operation >>= next) state = after (next result) middle := by
  simp only [after, EStateM.run_bind, hrun]

/-- A sequence ends where its first part raises. -/
theorem after_bind_of_error {operation : EStateM ε σ α} {next : α → EStateM ε σ β}
    {state final : σ} {failure : ε} (hrun : operation.run state = .error failure final) :
    after (operation >>= next) state = final := by
  simp only [after, EStateM.run_bind, hrun]

/-- A rest that writes nothing leaves a sequence where its first part ends. -/
theorem after_bind_of_quiet {operation : EStateM ε σ α} {next : α → EStateM ε σ β}
    (hquiet : ∀ result state, after (next result) state = state) (state : σ) :
    after (operation >>= next) state = after operation state := by
  cases hrun : operation.run state with
  | ok result middle => rw [after_bind_of_ok hrun, hquiet, after_of_ok hrun]
  | error failure final => rw [after_bind_of_error hrun, after_of_error hrun]

/-- A sequence ends where its first part ends, or where the rest ends that starts there. -/
theorem after_bind (operation : EStateM ε σ α) (next : α → EStateM ε σ β) (state : σ) :
    after (operation >>= next) state = after operation state ∨
      ∃ result, after (operation >>= next) state =
        after (next result) (after operation state) := by
  simp only [after, EStateM.run_bind]
  cases operation.run state with
  | ok result final => exact Or.inr ⟨result, rfl⟩
  | error failure final => exact Or.inl rfl

/-! ### Triples -/

/-- From a state with the precondition, a computation that returns ends in a state with the
postcondition, and one that raises in a state with the failure condition. -/
def Triple (pre : σ → Prop) (operation : EStateM ε σ α) (post : α → σ → Prop)
    (failure : σ → Prop) : Prop :=
  ∀ state, pre state →
    match operation.run state with
    | .ok result final => post result final
    | .error _ final => failure final

namespace Triple

variable {pre : σ → Prop} {post : α → σ → Prop} {failure : σ → Prop}

theorem bind {operation : EStateM ε σ α} {next : α → EStateM ε σ β} {final : β → σ → Prop}
    (hoperation : Triple pre operation post failure)
    (hnext : ∀ result, Triple (post result) (next result) final failure) :
    Triple pre (operation >>= next) final failure := by
  intro state hpre
  have hfirst := hoperation state hpre
  rw [EStateM.run_bind]
  cases hrun : operation.run state with
  | ok result written =>
    rw [hrun] at hfirst
    exact hnext result written hfirst
  | error raised written =>
    rw [hrun] at hfirst
    exact hfirst

theorem modify {post : PUnit → σ → Prop} (update : σ → σ)
    (hpost : ∀ state, pre state → post ⟨⟩ (update state)) :
    Triple pre (modify update : EStateM ε σ PUnit) post failure :=
  hpost

/-- A computation that starts by reading the state starts from a known state. -/
theorem get_bind {next : σ → EStateM ε σ α}
    (hnext : ∀ start, pre start → Triple (· = start) (next start) post failure) :
    Triple pre (get >>= next) post failure :=
  fun state hpre ↦ hnext state hpre state rfl

/-- An assertion that a computation reaches in both cases holds of the state left behind. -/
theorem holds_after {final : σ → Prop} {operation : EStateM ε σ α}
    (hoperation : Triple pre operation (fun _ ↦ final) final) {state : σ} (hstate : pre state) :
    final (after operation state) := by
  have hrun := hoperation state hstate
  rw [after]
  cases hresult : operation.run state with
  | ok result written => rwa [hresult] at hrun
  | error raised written => rwa [hresult] at hrun

end Triple

end Oamb.Foundation.StatefulExecution
