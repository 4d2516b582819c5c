import Oamb.Foundation.Dialogue

/-!
# Dialogues that may stop

A dialogue whose environment has a state. `Reaches` leads to what is left of the dialogue after some
answers, and to the state that these made: a process that ends stays there. `Guarantees` says of a
dialogue what holds of the state at every step of it, and what holds at its outcome; there is one
rule for every construction, and `Guarantees.of_reaches` carries the assertion along. `perform` is
the run in an environment that answers in one way, and has what the dialogue guarantees
(`Guarantees.of_perform`).
-/

set_option autoImplicit false

namespace Oamb.Foundation.CrashLogic

open Dialogue

section Assertions

variable {Q : Type} {A : Q → Type} {ε ε' α β σ : Type}

/-- A dialogue comes to the rest of it, and its environment to a state. -/
inductive Reaches (serve : σ → (query : Q) → A query → σ → Prop) (first : Dialogue Q A ε α)
    (start : σ) : Dialogue Q A ε α → σ → Prop
  | start : Reaches serve first start first start
  | step {query : Q} {next : A query → Dialogue Q A ε α} {state later : σ} {answer : A query}
    (hreaches : Reaches serve first start (.ask query next) state)
    (hserve : serve state query answer later) : Reaches serve first start (next answer) later

section Reaching

variable {serve serve' : σ → (query : Q) → A query → σ → Prop}
  {first second third : Dialogue Q A ε α} {start middle final : σ}

theorem Reaches.mono (hreaches : Reaches serve first start second final)
    (hserve : ∀ state query answer later, serve state query answer later →
      serve' state query answer later) : Reaches serve' first start second final := by
  induction hreaches with
  | start => exact .start
  | step _ hstep ih => exact .step ih (hserve _ _ _ _ hstep)

theorem Reaches.trans (hfirst : Reaches serve first start second middle)
    (hsecond : Reaches serve second middle third final) :
    Reaches serve first start third final := by
  induction hsecond with
  | start => exact hfirst
  | step _ hstep ih => exact .step ih hstep

/-- The first part of a sequence comes to what it comes to alone. -/
theorem Reaches.bind (hreaches : Reaches serve first start second final)
    (next : α → Dialogue Q A ε β) :
    Reaches serve (first >>= next) start (second >>= next) final := by
  induction hreaches with
  | start => exact .start
  | step _ hstep ih => exact .step ih hstep

end Reaching

variable (serve : σ → (query : Q) → A query → σ → Prop) (always : σ → Prop)

/-- What holds of the state at every step of a dialogue, and of its outcome with the last state. -/
def Guarantees (post : Except ε α → σ → Prop) : Dialogue Q A ε α → σ → Prop
  | .done outcome, state => always state ∧ post outcome state
  | .ask query next, state => always state ∧ ∀ answer later, serve state query answer later →
    Guarantees post (next answer) later

variable {serve always} {post : Except ε α → σ → Prop} {dialogue : Dialogue Q A ε α} {state : σ}

theorem Guarantees.holds (hguarantees : Guarantees serve always post dialogue state) :
    always state := by
  cases dialogue with
  | done outcome => exact hguarantees.1
  | ask query next => exact hguarantees.1

/-- An assertion is carried along. -/
theorem Guarantees.of_reaches (hguarantees : Guarantees serve always post dialogue state)
    {rest : Dialogue Q A ε α} {later : σ} (hreaches : Reaches serve dialogue state rest later) :
    Guarantees serve always post rest later := by
  induction hreaches with
  | start => exact hguarantees
  | step _ hserve ih => exact ih.2 _ _ hserve

theorem Guarantees.mono {always' : σ → Prop} {post' : Except ε α → σ → Prop}
    (hguarantees : Guarantees serve always post dialogue state)
    (halways : ∀ state, always state → always' state)
    (hpost : ∀ outcome state, always state → post outcome state → post' outcome state) :
    Guarantees serve always' post' dialogue state := by
  induction dialogue generalizing state with
  | done outcome => exact ⟨halways _ hguarantees.1, hpost _ _ hguarantees.1 hguarantees.2⟩
  | ask query next ih =>
    exact ⟨halways _ hguarantees.1, fun answer later hserve ↦ ih _ (hguarantees.2 _ _ hserve)⟩

theorem guarantees_pure {value : α} (halways : always state) (hpost : post (.ok value) state) :
    Guarantees serve always post (pure value : Dialogue Q A ε α) state :=
  ⟨halways, hpost⟩

theorem guarantees_fail {error : ε} (halways : always state) (hpost : post (.error error) state) :
    Guarantees serve always post (fail error : Dialogue Q A ε α) state :=
  ⟨halways, hpost⟩

/-- A sequence guarantees what its first part does, with the rest for the value of it. -/
theorem Guarantees.bind {next : α → Dialogue Q A ε β} {final : Except ε β → σ → Prop}
    (hfirst : Guarantees serve always post dialogue state)
    (hnext : ∀ value later, post (.ok value) later → always later →
      Guarantees serve always final (next value) later)
    (herror : ∀ error later, post (.error error) later → final (.error error) later) :
    Guarantees serve always final (dialogue >>= next) state := by
  induction dialogue generalizing state with
  | done outcome =>
    cases outcome with
    | ok value => exact hnext value state hfirst.2 hfirst.1
    | error error => exact ⟨hfirst.1, herror error state hfirst.2⟩
  | ask query rest ih =>
    exact ⟨hfirst.1, fun answer later hserve ↦ ih answer (hfirst.2 _ _ hserve)⟩

/-- A handled dialogue guarantees what the dialogue does, with the handler for the error of it. -/
theorem Guarantees.handle {handler : ε → Dialogue Q A ε' α} {final : Except ε' α → σ → Prop}
    (hfirst : Guarantees serve always post dialogue state)
    (hvalue : ∀ value later, post (.ok value) later → final (.ok value) later)
    (herror : ∀ error later, post (.error error) later → always later →
      Guarantees serve always final (handler error) later) :
    Guarantees serve always final (dialogue.handle handler) state := by
  induction dialogue generalizing state with
  | done outcome =>
    cases outcome with
    | ok value => exact ⟨hfirst.1, hvalue value state hfirst.2⟩
    | error error => exact herror error state hfirst.2 hfirst.1
  | ask query rest ih =>
    exact ⟨hfirst.1, fun answer later hserve ↦ ih answer (hfirst.2 _ _ hserve)⟩

end Assertions

/-! ### An environment that answers in one way -/

section Performance

variable {Q : Type} {A : Q → Type} {ε ε' α β σ : Type} {answer : σ → (query : Q) → A query × σ}

/-- The outcome of a dialogue and the last state. -/
def perform (answer : σ → (query : Q) → A query × σ) :
    Dialogue Q A ε α → σ → Except ε α × σ
  | .done outcome, state => (outcome, state)
  | .ask query next, state => perform answer (next (answer state query).1) (answer state query).2

variable {dialogue : Dialogue Q A ε α} {state later : σ}

theorem perform_bind_of_ok {next : α → Dialogue Q A ε β} {value : α}
    (hfirst : perform answer dialogue state = (.ok value, later)) :
    perform answer (dialogue >>= next) state = perform answer (next value) later := by
  induction dialogue generalizing state with
  | done outcome =>
    cases hfirst
    rfl
  | ask query rest ih => exact ih _ hfirst

theorem perform_bind_of_error {next : α → Dialogue Q A ε β} {error : ε}
    (hfirst : perform answer dialogue state = (.error error, later)) :
    perform answer (dialogue >>= next) state = (.error error, later) := by
  induction dialogue generalizing state with
  | done outcome =>
    cases hfirst
    rfl
  | ask query rest ih => exact ih _ hfirst

theorem perform_handle_of_ok {handler : ε → Dialogue Q A ε' α} {value : α}
    (hfirst : perform answer dialogue state = (.ok value, later)) :
    perform answer (dialogue.handle handler) state = (.ok value, later) := by
  induction dialogue generalizing state with
  | done outcome =>
    cases hfirst
    rfl
  | ask query rest ih => exact ih _ hfirst

/-- An environment that answers in one way. -/
def Regular (answer : σ → (query : Q) → A query × σ) (state : σ) (query : Q) (result : A query)
    (next : σ) : Prop :=
  answer state query = (result, next)

/-- A run goes on from everything that it comes to. -/
theorem perform_of_reaches {first : Dialogue Q A ε α} {start : σ}
    (hreaches : Reaches (Regular answer) first start dialogue state) :
    perform answer first start = perform answer dialogue state := by
  induction hreaches with
  | start => rfl
  | step _ hstep ih =>
    rw [ih, perform, hstep]

/-- A sequence comes to its second part. -/
theorem reaches_of_perform {value : α} (next : α → Dialogue Q A ε β)
    (hfirst : perform answer dialogue state = (.ok value, later)) :
    Reaches (Regular answer) (dialogue >>= next) state (next value) later := by
  have hdone : ∀ {first : Dialogue Q A ε α} {start : σ}, Reaches (Regular answer) first start
      dialogue state → Reaches (Regular answer) first start (.done (.ok value)) later := by
    induction dialogue generalizing state with
    | done outcome =>
      cases hfirst
      exact id
    | ask query rest ih => exact fun hreaches ↦ ih _ hfirst (.step hreaches rfl)
  exact (hdone .start).bind next

/-- The run of an environment is one that a dialogue can come to. -/
theorem reaches_perform {serve : σ → (query : Q) → A query → σ → Prop}
    (hserve : ∀ state query, serve state query (answer state query).1 (answer state query).2)
    {first : Dialogue Q A ε α} {start : σ} (hreaches : Reaches serve first start dialogue state) :
    Reaches serve first start (.done (perform answer dialogue state).1)
      (perform answer dialogue state).2 := by
  induction dialogue generalizing state with
  | done outcome => exact hreaches
  | ask query next ih => exact ih _ (.step hreaches (hserve state query))

/-- What a dialogue guarantees holds of the outcome of its run. -/
theorem Guarantees.of_perform {serve : σ → (query : Q) → A query → σ → Prop}
    {always : σ → Prop} {post : Except ε α → σ → Prop}
    (hserve : ∀ state query, serve state query (answer state query).1 (answer state query).2)
    (hguarantees : Guarantees serve always post dialogue state) {outcome : Except ε α}
    (hperform : perform answer dialogue state = (outcome, later)) :
    always later ∧ post outcome later := by
  have hreaches : Reaches serve dialogue state (.done (perform answer dialogue state).1)
      (perform answer dialogue state).2 := reaches_perform hserve .start
  have hlast := hguarantees.of_reaches hreaches
  rw [hperform] at hlast
  exact hlast

end Performance

end Oamb.Foundation.CrashLogic
