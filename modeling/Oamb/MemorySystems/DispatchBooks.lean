import Oamb.Foundation.RetryDiscipline
import Oamb.MemorySystems.Ingestion

/-!
# The book of an adapter is one of retries

Mem0 and Hindsight keep the same book of their attempts, under the scope and the fingerprint of a
dispatch. An adapter that claims an attempt when a call enters, and finishes it with the outcome when
the call leaves, keeps the laws of retries (`bookRetries_lawful`).
-/

set_option autoImplicit false

namespace Oamb.MemorySystems

open Foundation Foundation.Dialogue Foundation.RetryDiscipline
open RestClient

section Books

variable {σ α : Type}

/-- The book of an adapter, read as one of retries. -/
def bookRetries (scopes : String → Option Scope) (book : σ → AttemptBook) :
    Retries σ IngestionDispatchRequest IngestError String where
  batch request := (request.scopeId, request.dispatch.dispatchOrdinal)
  ordinal request := request.batchAttemptOrdinal
  expected state batch :=
    ((fingerprintAt scopes batch).map fun fingerprint ↦
      (book state).nextBatchAttemptOrdinals (batch.1, fingerprint)).getD 1
  Attempted state batch ordinal := ∃ fingerprint, fingerprintAt scopes batch = some fingerprint ∧
    (book state).attemptedDispatches ((batch.1, fingerprint), ordinal) = true
  Settled error := ∃ failure, error = .settled failure
  Withdrawn error := ∃ message, error = .call (.cancelledBeforeDispatch message)

/-- The dispatch of the request is one of the plan of its scope. -/
def Planned (scopes : String → Option Scope) (request : IngestionDispatchRequest) : Prop :=
  fingerprintAt scopes (request.scopeId, request.dispatch.dispatchOrdinal) =
    some request.dispatch.requestFingerprint

/-- The key of a request in a book. -/
def bookKey (request : IngestionDispatchRequest) : String × String :=
  (request.scopeId, request.dispatch.requestFingerprint)

variable {scopes : String → Option Scope} {book : σ → AttemptBook} {state : σ}
  {request : IngestionDispatchRequest}

theorem expected_eq (hplanned : Planned scopes request) :
    (bookRetries scopes book).expected state ((bookRetries scopes book).batch request) =
      (book state).nextBatchAttemptOrdinals (bookKey request) := by
  rw [Planned] at hplanned
  simp only [bookRetries, hplanned, Option.map_some, Option.getD_some, bookKey]

theorem attempted_iff (hplanned : Planned scopes request) {ordinal : ℕ} :
    (bookRetries scopes book).Attempted state ((bookRetries scopes book).batch request) ordinal ↔
      (book state).attemptedDispatches (bookKey request, ordinal) = true := by
  rw [Planned] at hplanned
  simp only [bookRetries, hplanned, Option.some.injEq, exists_eq_left', bookKey]

/-- Another batch has another key. -/
theorem key_ne (hplanned : Planned scopes request) {batch : String × ℕ} {fingerprint : String}
    (hbatch : batch ≠ (bookRetries scopes book).batch request)
    (hfingerprint : fingerprintAt scopes batch = some fingerprint) :
    (batch.1, fingerprint) ≠ bookKey request := by
  intro hkey
  obtain ⟨hscope, rfl⟩ := Prod.mk.inj hkey
  refine hbatch (Prod.ext hscope ?_)
  have hother : fingerprintAt scopes (request.scopeId, batch.2) =
      some request.dispatch.requestFingerprint := by
    rw [← hscope]
    exact hfingerprint
  exact fingerprintAt_injective hother hplanned

/-! ### Finishing an attempt -/

section Finish

variable {attempts : AttemptBook} {key other : String × String} {ordinal : ℕ}
  {outcome : Except IngestError α}

theorem next_finish_of_ne (hother : other ≠ key) :
    (attempts.finish key ordinal outcome).nextBatchAttemptOrdinals other =
      attempts.nextBatchAttemptOrdinals other := by
  unfold AttemptBook.finish
  split
  · exact Function.update_of_ne hother _ _
  · exact Function.update_of_ne hother _ _
  · rfl
  · rfl

theorem next_finish_settled {failure : SettledFailure} :
    (attempts.finish key ordinal (.error (.settled failure) : Except IngestError α)
      ).nextBatchAttemptOrdinals key = ordinal + 1 :=
  Function.update_self _ _ _

theorem next_finish (hunsettled : ∀ failure, outcome ≠ .error (.settled failure)) :
    (attempts.finish key ordinal outcome).nextBatchAttemptOrdinals key =
        attempts.nextBatchAttemptOrdinals key ∨
      (attempts.finish key ordinal outcome).nextBatchAttemptOrdinals key = 0 := by
  unfold AttemptBook.finish
  split
  · exact Or.inr (Function.update_self _ _ _)
  · exact absurd rfl (hunsettled _)
  · exact Or.inl rfl
  · exact Or.inl rfl

theorem attempted_finish {ordinal' : ℕ} (hattempted : attempts.attemptedDispatches (other, ordinal')
      = true) (hkeeps : ¬ ((∃ message, outcome = .error (.call (.cancelledBeforeDispatch message))) ∧
        other = key ∧ ordinal' = ordinal)) :
    (attempts.finish key ordinal outcome).attemptedDispatches (other, ordinal') = true := by
  unfold AttemptBook.finish
  split
  · exact hattempted
  · exact hattempted
  · dsimp only
    rw [Function.update_of_ne]
    · exact hattempted
    · intro hsame
      obtain ⟨rfl, rfl⟩ := Prod.mk.inj hsame
      exact hkeeps ⟨⟨_, rfl⟩, rfl, rfl⟩
  · exact hattempted

end Finish

/-- An adapter that claims its attempts and finishes them keeps the laws of retries. -/
theorem bookRetries_lawful
    {procedure : Procedure σ IngestionDispatchRequest Query Answer IngestError α} {start : σ}
    (hstart : book start = .initial)
    (henter : ∀ {state request state'}, procedure.enter state request = some (.ok state') →
      Planned scopes request ∧
        (book state).nextBatchAttemptOrdinals (bookKey request) = request.batchAttemptOrdinal ∧
        (book state).attemptedDispatches (bookKey request, request.batchAttemptOrdinal) = false ∧
        book state' = (book state).claim (bookKey request) request.batchAttemptOrdinal)
    (hleave : ∀ {state request outcome}, book (procedure.leave state request outcome) =
      (book state).finish (bookKey request) request.batchAttemptOrdinal outcome)
    (hissues : ∀ {request trace message}, Execution (procedure.body request) trace
      (.error (.call (.cancelledBeforeDispatch message))) → ∀ exchange ∈ trace, ¬ Issues exchange) :
    (bookRetries scopes book).Lawful procedure start (Planned scopes) Issues where
  ordinal_pos := fun {request} _ ↦ request.ordinal_bounded.1
  expected_initial := by
    intro batch
    simp only [bookRetries, hstart, AttemptBook.initial]
    cases fingerprintAt scopes batch with
    | none => exact le_refl 1
    | some fingerprint => exact le_refl 1
  admissible := fun hentered ↦ (henter hentered).1
  expected_of_enter := by
    intro state request state' hentered
    obtain ⟨hplanned, hordinal, -, -⟩ := henter hentered
    rw [expected_eq hplanned]
    exact hordinal
  not_attempted := by
    intro state request state' hentered
    obtain ⟨hplanned, -, hfresh, -⟩ := henter hentered
    rw [attempted_iff hplanned, Bool.not_eq_true]
    exact hfresh
  attempted_of_enter := by
    intro state request state' hentered
    obtain ⟨hplanned, -, -, hclaim⟩ := henter hentered
    rw [attempted_iff hplanned, hclaim]
    exact Function.update_self _ _ _
  expected_enter := by
    intro state request state' hentered
    obtain ⟨-, -, -, hclaim⟩ := henter hentered
    simp only [bookRetries, hclaim, AttemptBook.claim]
  attempted_enter := by
    rintro state request state' batch ordinal hentered ⟨fingerprint, hfingerprint, hattempted⟩
    obtain ⟨-, -, -, hclaim⟩ := henter hentered
    refine ⟨fingerprint, hfingerprint, ?_⟩
    rw [hclaim, AttemptBook.claim]
    by_cases hsame : ((batch.1, fingerprint), ordinal) =
        (bookKey request, request.batchAttemptOrdinal)
    · rw [hsame]
      exact Function.update_self _ _ _
    · exact (Function.update_of_ne hsame _ _).trans hattempted
  expected_leave_of_ne := by
    intro state request outcome batch hplanned hbatch
    simp only [bookRetries, hleave]
    cases hfingerprint : fingerprintAt scopes batch with
    | none => rfl
    | some fingerprint =>
      exact next_finish_of_ne (key_ne hplanned hbatch hfingerprint)
  expected_settled := by
    rintro state request outcome hplanned ⟨error, rfl, failure, rfl⟩
    rw [expected_eq hplanned, hleave]
    exact next_finish_settled
  expected_leave := by
    intro state request outcome hplanned hunsettled
    rw [expected_eq hplanned, expected_eq hplanned, hleave]
    exact next_finish fun failure hsame ↦ hunsettled ⟨_, hsame, failure, rfl⟩
  attempted_leave := by
    rintro state request outcome batch ordinal hplanned ⟨fingerprint, hfingerprint, hattempted⟩
      hkeeps
    refine ⟨fingerprint, hfingerprint, ?_⟩
    rw [hleave]
    refine attempted_finish hattempted ?_
    rintro ⟨⟨message, hmessage⟩, hkey, rfl⟩
    refine hkeeps ⟨⟨_, hmessage, message, rfl⟩, ?_, rfl⟩
    by_contra hbatch
    exact key_ne hplanned hbatch hfingerprint hkey
  not_issues := by
    rintro request trace error hexecution ⟨message, rfl⟩
    exact hissues hexecution

end Books

end Oamb.MemorySystems
