import Mathlib.Tactic.Common

/-!
# Dialogues

A dialogue is a program that asks its environment and goes on with the answer; it comes to a value
or to an error. `Execution` is a dialogue with the answers that it was given: a trace of its
queries, and its outcome. There is one rule for every construction: a query, a sequence, and the
handling of an error. A sequence splits its trace where the first part came to its value.
-/

set_option autoImplicit false

namespace Oamb.Foundation

/-- A program that asks queries. -/
inductive Dialogue (Q : Type) (A : Q → Type) (ε α : Type)
  | done (outcome : Except ε α)
  | ask (query : Q) (next : A query → Dialogue Q A ε α)

/-- A query with its answer. -/
abbrev Exchange (Q : Type) (A : Q → Type) := (query : Q) × A query

namespace Dialogue

variable {Q : Type} {A : Q → Type} {ε ε' α β : Type}

/-- Ask a query. -/
def query (query : Q) : Dialogue Q A ε (A query) := ask query fun answer ↦ done (.ok answer)

/-- Come to an error. -/
def fail (error : ε) : Dialogue Q A ε α := done (.error error)

/-- Go on with the value of a dialogue. -/
def andThen (next : α → Dialogue Q A ε β) : Dialogue Q A ε α → Dialogue Q A ε β
  | done (.ok value) => next value
  | done (.error error) => done (.error error)
  | ask query rest => ask query fun answer ↦ andThen next (rest answer)

/-- Go on with the error of a dialogue. -/
def handle (handler : ε → Dialogue Q A ε' α) : Dialogue Q A ε α → Dialogue Q A ε' α
  | done (.ok value) => done (.ok value)
  | done (.error error) => handler error
  | ask query rest => ask query fun answer ↦ handle handler (rest answer)

/-- The outcome of a dialogue as a value. -/
def settle : Dialogue Q A ε α → Dialogue Q A ε' (Except ε α)
  | done outcome => done (.ok outcome)
  | ask query rest => ask query fun answer ↦ settle (rest answer)

instance instMonadDialogue : Monad (Dialogue Q A ε) where
  pure value := done (.ok value)
  bind dialogue next := andThen next dialogue

instance instLawfulMonadDialogue : LawfulMonad (Dialogue Q A ε) :=
  LawfulMonad.mk' (Dialogue Q A ε)
    (fun dialogue ↦ by
      induction dialogue with
      | done outcome => cases outcome <;> rfl
      | ask query rest ih => exact congrArg (ask query) (funext ih))
    (fun _ _ ↦ rfl)
    (fun dialogue first second ↦ by
      induction dialogue with
      | done outcome => cases outcome <;> rfl
      | ask query rest ih => exact congrArg (ask query) (funext ih))

/-- A dialogue of a function that may fail. -/
def ofExcept (outcome : Except ε α) : Dialogue Q A ε α := done outcome

theorem ofExcept_ok_bind {value : α} {next : α → Dialogue Q A ε β} :
    (ofExcept (.ok value) : Dialogue Q A ε α) >>= next = next value :=
  rfl

/-- A dialogue with the answers that it was given, and its outcome. -/
inductive Execution : Dialogue Q A ε α → List (Exchange Q A) → Except ε α → Prop
  | done {outcome : Except ε α} : Execution (done outcome) [] outcome
  | ask {query : Q} {next : A query → Dialogue Q A ε α} {trace : List (Exchange Q A)}
    {outcome : Except ε α} (answer : A query) (hnext : Execution (next answer) trace outcome) :
    Execution (ask query next) (⟨query, answer⟩ :: trace) outcome

variable {dialogue : Dialogue Q A ε α} {trace : List (Exchange Q A)} {outcome : Except ε α}

theorem execution_done {result : Except ε α} :
    Execution (done result : Dialogue Q A ε α) trace outcome ↔ trace = [] ∧ outcome = result := by
  constructor
  · rintro ⟨⟩
    exact ⟨rfl, rfl⟩
  · rintro ⟨rfl, rfl⟩
    exact .done

theorem execution_pure {value : α} :
    Execution (pure value : Dialogue Q A ε α) trace outcome ↔ trace = [] ∧ outcome = .ok value :=
  execution_done

theorem execution_fail {error : ε} :
    Execution (fail error : Dialogue Q A ε α) trace outcome ↔ trace = [] ∧ outcome = .error error :=
  execution_done

theorem execution_ofExcept {result : Except ε α} :
    Execution (ofExcept result : Dialogue Q A ε α) trace outcome ↔
      trace = [] ∧ outcome = result :=
  execution_done

theorem execution_ask {query : Q} {next : A query → Dialogue Q A ε α} :
    Execution (ask query next) trace outcome ↔
      ∃ answer rest, trace = ⟨query, answer⟩ :: rest ∧ Execution (next answer) rest outcome := by
  constructor
  · rintro ⟨⟩
    exact ⟨_, _, rfl, ‹_›⟩
  · rintro ⟨answer, rest, rfl, hnext⟩
    exact .ask answer hnext

/-- A sequence fails with its first part, or goes on with its value. -/
theorem execution_andThen {next : α → Dialogue Q A ε β} {outcome : Except ε β} :
    Execution (andThen next dialogue) trace outcome ↔
      (∃ error, Execution dialogue trace (.error error) ∧ outcome = .error error) ∨
        ∃ value first second, trace = first ++ second ∧ Execution dialogue first (.ok value) ∧
          Execution (next value) second outcome := by
  induction dialogue generalizing trace with
  | done result =>
    cases result with
    | error error =>
      rw [andThen, execution_done]
      constructor
      · rintro ⟨rfl, rfl⟩
        exact Or.inl ⟨error, .done, rfl⟩
      · rintro (⟨other, hother, rfl⟩ | ⟨value, first, second, -, hfirst, -⟩)
        · obtain ⟨rfl, hsame⟩ := execution_done.mp hother
          cases hsame
          exact ⟨rfl, rfl⟩
        · cases (execution_done.mp hfirst).2
    | ok value =>
      rw [andThen]
      constructor
      · intro hnext
        exact Or.inr ⟨value, [], trace, rfl, .done, hnext⟩
      · rintro (⟨error, herror, -⟩ | ⟨other, first, second, rfl, hfirst, hsecond⟩)
        · cases (execution_done.mp herror).2
        · obtain ⟨rfl, hsame⟩ := execution_done.mp hfirst
          cases hsame
          exact hsecond
  | ask query rest ih =>
    rw [andThen, execution_ask]
    constructor
    · rintro ⟨answer, later, rfl, hlater⟩
      rcases (ih answer).mp hlater with ⟨error, herror, rfl⟩ | ⟨value, first, second, rfl, hfirst,
        hsecond⟩
      · exact Or.inl ⟨error, .ask answer herror, rfl⟩
      · exact Or.inr ⟨value, _, second, rfl, .ask answer hfirst, hsecond⟩
    · rintro (⟨error, herror, rfl⟩ | ⟨value, first, second, rfl, hfirst, hsecond⟩)
      · obtain ⟨answer, later, rfl, hlater⟩ := execution_ask.mp herror
        exact ⟨answer, later, rfl, (ih answer).mpr (Or.inl ⟨error, hlater, rfl⟩)⟩
      · obtain ⟨answer, later, rfl, hlater⟩ := execution_ask.mp hfirst
        exact ⟨answer, later ++ second, rfl,
          (ih answer).mpr (Or.inr ⟨value, later, second, rfl, hlater, hsecond⟩)⟩

theorem execution_bind {next : α → Dialogue Q A ε β} {outcome : Except ε β} :
    Execution (dialogue >>= next) trace outcome ↔
      (∃ error, Execution dialogue trace (.error error) ∧ outcome = .error error) ∨
        ∃ value first second, trace = first ++ second ∧ Execution dialogue first (.ok value) ∧
          Execution (next value) second outcome :=
  execution_andThen

theorem execution_settle {result : Except ε' (Except ε α)} :
    Execution (settle dialogue : Dialogue Q A ε' (Except ε α)) trace result ↔
      ∃ outcome, result = .ok outcome ∧ Execution dialogue trace outcome := by
  induction dialogue generalizing trace with
  | done outcome =>
    rw [settle, execution_done]
    constructor
    · rintro ⟨rfl, rfl⟩
      exact ⟨outcome, rfl, .done⟩
    · rintro ⟨other, rfl, hother⟩
      obtain ⟨rfl, rfl⟩ := execution_done.mp hother
      exact ⟨rfl, rfl⟩
  | ask query rest ih =>
    rw [settle, execution_ask]
    constructor
    · rintro ⟨answer, later, rfl, hlater⟩
      obtain ⟨outcome, rfl, houtcome⟩ := (ih answer).mp hlater
      exact ⟨outcome, rfl, .ask answer houtcome⟩
    · rintro ⟨outcome, rfl, houtcome⟩
      obtain ⟨answer, later, rfl, hlater⟩ := execution_ask.mp houtcome
      exact ⟨answer, later, rfl, (ih answer).mpr ⟨outcome, rfl, hlater⟩⟩

/-- After the first part of a sequence came to its value, the rest is an execution of the rest. -/
theorem Execution.rest {next : α → Dialogue Q A ε β} {value : α}
    {first second : List (Exchange Q A)} {outcome : Except ε β}
    (hfirst : Execution dialogue first (.ok value))
    (hall : Execution (dialogue >>= next) (first ++ second) outcome) :
    Execution (next value) second outcome := by
  induction dialogue generalizing first with
  | done result =>
    obtain ⟨rfl, rfl⟩ := execution_done.mp hfirst
    exact hall
  | ask query rest ih =>
    obtain ⟨answer, later, rfl, hlater⟩ := execution_ask.mp hfirst
    obtain ⟨other, remaining, hsame, hremaining⟩ := execution_ask.mp hall
    rw [List.cons_append, List.cons.injEq] at hsame
    obtain ⟨hexchange, rfl⟩ := hsame
    cases hexchange
    exact ih answer hlater hremaining

/-- A dialogue with an environment that answers one query after another. -/
def converse (answers : ℕ → (query : Q) → A query) :
    ℕ → Dialogue Q A ε α → List (Exchange Q A) × Except ε α
  | _, done outcome => ([], outcome)
  | position, ask query next =>
    let rest := converse answers (position + 1) (next (answers position query))
    (⟨query, answers position query⟩ :: rest.1, rest.2)

/-- Every environment brings a dialogue to an outcome. -/
theorem execution_converse (answers : ℕ → (query : Q) → A query) (position : ℕ) :
    Execution dialogue (converse answers position dialogue).1
      (converse answers position dialogue).2 := by
  induction dialogue generalizing position with
  | done outcome => exact .done
  | ask query next ih =>
    exact .ask (answers position query) (ih (answers position query) (position + 1))

/-- The answers of a trace are those of its environment. -/
theorem mem_converse {answers : ℕ → (query : Q) → A query} {position : ℕ} {exchange : Exchange Q A}
    (hmem : exchange ∈ (converse answers position dialogue).1) :
    ∃ later, exchange.2 = answers later exchange.1 := by
  induction dialogue generalizing position with
  | done outcome => cases hmem
  | ask query next ih =>
    rcases List.mem_cons.mp hmem with rfl | hlater
    · exact ⟨position, rfl⟩
    · exact ih (answers position query) hlater

/-! ### An environment that always answers the same -/

section Answered

variable {answers : (query : Q) → A query}

/-- The outcome of a dialogue whose environment has one answer to each query. -/
def answered (answers : (query : Q) → A query) : Dialogue Q A ε α → Except ε α
  | done outcome => outcome
  | ask query next => answered answers (next (answers query))

theorem answered_eq_converse (position : ℕ) :
    answered answers dialogue = (converse (fun _ ↦ answers) position dialogue).2 := by
  induction dialogue generalizing position with
  | done outcome => rfl
  | ask query next ih => exact ih (answers query) (position + 1)

@[simp]
theorem answered_pure {value : α} :
    answered answers (pure value : Dialogue Q A ε α) = .ok value :=
  rfl

@[simp]
theorem answered_fail {error : ε} :
    answered answers (fail error : Dialogue Q A ε α) = .error error :=
  rfl

@[simp]
theorem answered_ofExcept {outcome : Except ε α} :
    answered answers (ofExcept outcome) = outcome :=
  rfl

@[simp]
theorem answered_ask {query : Q} {next : A query → Dialogue Q A ε α} :
    answered answers (ask query next) = answered answers (next (answers query)) :=
  rfl

theorem answered_bind_of_ok {next : α → Dialogue Q A ε β} {value : α}
    (hvalue : answered answers dialogue = .ok value) :
    answered answers (dialogue >>= next) = answered answers (next value) := by
  induction dialogue with
  | done outcome =>
    obtain rfl : outcome = .ok value := hvalue
    rfl
  | ask query rest ih => exact ih (answers query) hvalue

theorem answered_bind_of_error {next : α → Dialogue Q A ε β} {error : ε}
    (herror : answered answers dialogue = .error error) :
    answered answers (dialogue >>= next) = .error error := by
  induction dialogue with
  | done outcome =>
    obtain rfl : outcome = .error error := herror
    rfl
  | ask query rest ih => exact ih (answers query) herror

theorem answered_handle_of_ok {handler : ε → Dialogue Q A ε' α} {value : α}
    (hvalue : answered answers dialogue = .ok value) :
    answered answers (dialogue.handle handler) = .ok value := by
  induction dialogue with
  | done outcome =>
    obtain rfl : outcome = .ok value := hvalue
    rfl
  | ask query rest ih => exact ih (answers query) hvalue

theorem answered_handle_of_error {handler : ε → Dialogue Q A ε' α} {error : ε}
    (herror : answered answers dialogue = .error error) :
    answered answers (dialogue.handle handler) = answered answers (handler error) := by
  induction dialogue with
  | done outcome =>
    obtain rfl : outcome = .error error := herror
    rfl
  | ask query rest ih => exact ih (answers query) herror

/-- The queries of a dialogue whose environment has one answer to each. -/
def asked (answers : (query : Q) → A query) : Dialogue Q A ε α → List Q
  | done _ => []
  | ask query next => query :: asked answers (next (answers query))

theorem asked_bind_of_ok {next : α → Dialogue Q A ε β} {value : α}
    (hvalue : answered answers dialogue = .ok value) :
    asked answers (dialogue >>= next) = asked answers dialogue ++ asked answers (next value) := by
  induction dialogue with
  | done outcome =>
    obtain rfl : outcome = .ok value := hvalue
    rfl
  | ask query rest ih =>
    exact congrArg (query :: ·) (ih (answers query) hvalue)

end Answered

/-! ### The errors of a dialogue -/

section Errors

/-- Every error that a dialogue comes to has a property. -/
def Raises (property : ε → Prop) (dialogue : Dialogue Q A ε α) : Prop :=
  ∀ trace error, Execution dialogue trace (.error error) → property error

variable {property : ε → Prop}

theorem raises_pure {value : α} : Raises property (pure value : Dialogue Q A ε α) := by
  intro trace error herror
  cases (execution_pure.mp herror).2

theorem raises_fail {error : ε} (herror : property error) :
    Raises property (fail error : Dialogue Q A ε α) := by
  intro trace other hother
  cases (execution_fail.mp hother).2
  exact herror

theorem raises_ofExcept {result : Except ε α}
    (hresult : ∀ error, result = .error error → property error) :
    Raises property (ofExcept result : Dialogue Q A ε α) :=
  fun _ error herror ↦ hresult error (execution_ofExcept.mp herror).2.symm

theorem raises_ask {query : Q} {next : A query → Dialogue Q A ε α}
    (hnext : ∀ answer, Raises property (next answer)) : Raises property (ask query next) := by
  intro trace error herror
  obtain ⟨answer, rest, -, hrest⟩ := execution_ask.mp herror
  exact hnext answer rest error hrest

theorem raises_bind {next : α → Dialogue Q A ε β} (hdialogue : Raises property dialogue)
    (hnext : ∀ value, Raises property (next value)) : Raises property (dialogue >>= next) := by
  intro trace error herror
  rcases execution_bind.mp herror with ⟨other, hother, hsame⟩ | ⟨value, _, second, -, -, hsecond⟩
  · cases hsame
    exact hdialogue trace error hother
  · exact hnext value second error hsecond

end Errors

end Dialogue

end Oamb.Foundation
