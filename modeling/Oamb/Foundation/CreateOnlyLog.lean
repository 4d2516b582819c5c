import Mathlib.Tactic.Common

/-!
# Create-only logs

A log lists events, latest first. Some events publish a value under a key: `publish` appends the
first event of a key, accepts a repetition of it, and refuses any other event of the same key. So
a key names at most one event (`KeysUnique`), and publishing keeps it so (`KeysUnique.publish`).

An event may require what was logged before it. `Supported` says that every event found what it
required, and `supported_iff` reads this at an arbitrary position of the log.
-/

set_option autoImplicit false

namespace Oamb.Foundation.CreateOnlyLog

variable {ε κ : Type}

/-! ### Order -/

/-- Every event of the log found what it requires in the part before it. -/
def Supported (requires : ε → List ε → Prop) : List ε → Prop
  | [] => True
  | event :: earlier => requires event earlier ∧ Supported requires earlier

theorem supported_iff {requires : ε → List ε → Prop} {log : List ε} :
    Supported requires log ↔
      ∀ later event earlier, log = later ++ event :: earlier → requires event earlier := by
  induction log with
  | nil => simp [Supported]
  | cons last log ih =>
    constructor
    · rintro ⟨hlast, hlog⟩ later event earlier hsplit
      cases later with
      | nil =>
        obtain ⟨rfl, rfl⟩ := List.cons.inj hsplit
        exact hlast
      | cons first later =>
        exact ih.mp hlog later event earlier (List.cons.inj hsplit).2
    · intro hsplits
      refine ⟨hsplits [] last log rfl, ih.mpr fun later event earlier hsplit ↦ ?_⟩
      exact hsplits (last :: later) event earlier (by rw [hsplit, List.cons_append])

/-! ### Publication -/

section Publication

variable (key : ε → Option κ) [DecidableEq κ] [DecidableEq ε]

/-- The event that holds a key. -/
def published (log : List ε) (name : κ) : Option ε := log.find? fun event ↦ key event = some name

/-- Append the first event of a key; accept only the same event afterwards. -/
def publish (name : κ) (event : ε) (log : List ε) : Option (List ε) :=
  match published key log name with
  | none => some (event :: log)
  | some stored => if stored = event then some log else none

/-- No two events hold one key. -/
def KeysUnique (log : List ε) : Prop :=
  ∀ first ∈ log, ∀ second ∈ log, (key first).isSome → key first = key second → first = second

variable {key} {name : κ} {event : ε} {log log' : List ε}

omit [DecidableEq ε] in
theorem of_published {stored : ε} (hpublished : published key log name = some stored) :
    stored ∈ log ∧ key stored = some name :=
  ⟨List.mem_of_find?_eq_some hpublished, by simpa using List.find?_some hpublished⟩

omit [DecidableEq ε] in
theorem published_eq_none :
    published key log name = none ↔ ∀ stored ∈ log, key stored ≠ some name := by
  simp [published, List.find?_eq_none]

/-- A publication either finds its event or appends it under a new key. -/
theorem publish_cases (hpublish : publish key name event log = some log') :
    (log' = log ∧ event ∈ log) ∨
      (log' = event :: log ∧ ∀ stored ∈ log, key stored ≠ some name) := by
  rw [publish] at hpublish
  split at hpublish
  · next hnone => exact Or.inr ⟨(Option.some.inj hpublish).symm, published_eq_none.mp hnone⟩
  · next stored hstored =>
    split_ifs at hpublish with heq
    exact Or.inl ⟨(Option.some.inj hpublish).symm, heq ▸ (of_published hstored).1⟩

theorem mem_publish (hpublish : publish key name event log = some log') {logged : ε} :
    logged ∈ log' ↔ logged = event ∨ logged ∈ log := by
  rcases publish_cases hpublish with ⟨rfl, hmem⟩ | ⟨rfl, -⟩
  · refine ⟨Or.inr, ?_⟩
    rintro (rfl | hlogged)
    exacts [hmem, hlogged]
  · exact List.mem_cons

theorem Supported.publish {requires : ε → List ε → Prop} (hlog : Supported requires log)
    (hevent : requires event log) (hpublish : publish key name event log = some log') :
    Supported requires log' := by
  rcases publish_cases hpublish with ⟨rfl, -⟩ | ⟨rfl, -⟩
  · exact hlog
  · exact ⟨hevent, hlog⟩

theorem KeysUnique.publish (hlog : KeysUnique key log) (hkey : key event = some name)
    (hpublish : publish key name event log = some log') : KeysUnique key log' := by
  rcases publish_cases hpublish with ⟨rfl, -⟩ | ⟨rfl, hnew⟩
  · exact hlog
  · intro first hfirst second hsecond hsome heq
    rcases List.mem_cons.mp hfirst with rfl | hearlier
    · rcases List.mem_cons.mp hsecond with rfl | hother
      · rfl
      · exact absurd (heq.symm.trans hkey) (hnew second hother)
    · rcases List.mem_cons.mp hsecond with rfl | hother
      · exact absurd (heq.trans hkey) (hnew first hearlier)
      · exact hlog first hearlier second hother hsome heq

omit [DecidableEq κ] [DecidableEq ε] in
/-- An event without a key does not touch the keys. -/
theorem KeysUnique.cons (hlog : KeysUnique key log) (hkey : key event = none) :
    KeysUnique key (event :: log) := by
  intro first hfirst second hsecond hsome heq
  rcases List.mem_cons.mp hfirst with rfl | hearlier
  · simp [hkey] at hsome
  · rcases List.mem_cons.mp hsecond with rfl | hother
    · simp [heq, hkey] at hsome
    · exact hlog first hearlier second hother hsome heq

end Publication

end Oamb.Foundation.CreateOnlyLog
