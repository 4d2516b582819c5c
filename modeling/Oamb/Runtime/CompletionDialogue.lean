import Oamb.Foundation.Dialogue
import Oamb.Runtime.CompletionRetry

/-!
# The dialogue of a model completion

A completion dispatches its calls, validates what they return, has each of them recorded, and sleeps
between them; a recorder or a sleep may fail. `executeModelCompletionRetry` is this dialogue.

In every execution a dispatch is recorded before anything else is dispatched or slept for, what
comes behind it is determined by its answer (`Continues`), the calls are numbered without gaps and
bounded by both layers of retries, and a receipt is returned when it was validated and recorded
(`faithful_of_execution`).
-/

set_option autoImplicit false

namespace Oamb.Runtime.CompletionDialogue

open Foundation Foundation.Dialogue CompletionRetry

/-! ### The queries -/

/-- An error that is recorded with a call. -/
inductive RecordedError
  | call (error : CallError)
  | validation (error : ValidationError)
  deriving DecidableEq

/-- What a completion asks of its callbacks. -/
inductive Query (δ : Type)
  | dispatch (ordinal : ℕ) (messages : Messages)
  | validate (receipt : ModelReceipt δ)
  | record (ordinal : ℕ) (receipt : Option (ModelReceipt δ)) (error : Option RecordedError)
  | sleep (seconds : ℚ)

/-- What a callback answers. A recorder and a sleep may fail with any error. -/
abbrev Answer {δ : Type} : Query δ → Type
  | .dispatch _ _ => Except CallError (ModelReceipt δ)
  | .validate _ => Except ValidationError Unit
  | .record _ _ _ => Except CompletionError Unit
  | .sleep _ => Except CompletionError Unit

/-- A completion that is under way. -/
abbrev CompletionM (δ α : Type) := Dialogue (Query δ) Answer CompletionError α

/-- The end of a call that does not end the completion with an error. -/
inductive CallEnd (δ : Type)
  | returned (receipt : ModelReceipt δ)
  | malformed (receipt : ModelReceipt δ) (message : String)
  | failed (error : CallError)

variable {δ : Type}

/-- Go on when a recorder or a sleep did not fail. -/
def completed {α : Type} (next : CompletionM δ α) : Except CompletionError Unit → CompletionM δ α
  | .ok () => next
  | .error error => fail error

/-- A call that failed, after its record. -/
def failedCall : CallError → CompletionM δ (CallEnd δ)
  | .rateLimitRejection internalRetryCount =>
    if internalRetryCount ≠ 0 then fail .configurationDrift
    else pure (.failed (.rateLimitRejection internalRetryCount))
  | .cancelled => fail (.call .cancelled)
  | error => pure (.failed error)

/-- A call that was answered, after its validation and its record. -/
def answeredCall (receipt : ModelReceipt δ) :
    Except ValidationError Unit → CompletionM δ (CallEnd δ)
  | .ok () => pure (.returned receipt)
  | .error (.valueError message) => pure (.malformed receipt message)
  | .error (.unexpected message) => fail (.validation message)

/-- The error of a validation, as it is recorded. -/
def validationError : Except ValidationError Unit → Option RecordedError
  | .ok () => none
  | .error error => some (.validation error)

/-- Dispatch one call, validate what it returns, and have it recorded. -/
def physicalCall (ordinal : ℕ) (messages : Messages) : CompletionM δ (CallEnd δ) :=
  ask (.dispatch ordinal messages) fun
    | .error error => ask (.record ordinal none (some (.call error))) fun recorded ↦
      completed (failedCall error) recorded
    | .ok receipt => ask (.validate receipt) fun validated ↦
      ask (.record ordinal (some receipt) (validationError validated)) fun recorded ↦
        completed (answeredCall receipt validated) recorded

/-- The calls of an outer attempt behind a number of calls, with the retries that are left and the
index of the next one. -/
def transportAttempts (messages : Messages) : ℕ → ℕ → ℕ → CompletionM δ (ℕ × CallEnd δ)
  | 0, _, ordinal =>
    physicalCall (ordinal + 1) messages >>= fun ending ↦ pure (ordinal + 1, ending)
  | retries + 1, retryIndex, ordinal =>
    physicalCall (ordinal + 1) messages >>= fun
      | .failed error =>
        if isTransportRetryable error then
          ask (.sleep (1 / 2 * 2 ^ retryIndex)) fun slept ↦
            completed (transportAttempts messages retries (retryIndex + 1) (ordinal + 1)) slept
        else pure (ordinal + 1, .failed error)
      | ending => pure (ordinal + 1, ending)

/-- The outer attempts behind a number of calls, with the outer attempts that are left and the index
of the next one. -/
def outerAttempts (maxTransportRetries : ℕ) :
    ℕ → ℕ → ℕ → Messages → CompletionM δ (ModelReceipt δ)
  | 0, _, _, _ => fail .boundExceeded
  | attempts + 1, outerIndex, ordinal, messages =>
    transportAttempts messages maxTransportRetries 0 ordinal >>= fun
      | (_, .returned receipt) => pure receipt
      | (reached, .malformed receipt message) =>
        if attempts = 0 then fail (.outputFormat message)
        else outerAttempts maxTransportRetries attempts (outerIndex + 1) reached
          (appendFormatCorrection messages receipt.outputText message)
      | (reached, .failed error) =>
        if isOuterRateLimit error ∧ attempts ≠ 0 then
          ask (.sleep (5 * 2 ^ outerIndex)) fun slept ↦
            completed (outerAttempts maxTransportRetries attempts (outerIndex + 1) reached messages)
              slept
        else fail (.call error)

/-- Execute one completion with transport and format retries. -/
def executeModelCompletionRetry (messages : Messages) (maxOuterAttempts maxTransportRetries : ℤ) :
    CompletionM δ (ModelReceipt δ) :=
  if maxOuterAttempts < 1 then
    fail (.invalidArgument "max outer attempts must be a positive integer")
  else if maxTransportRetries < 0 then
    fail (.invalidArgument "max transport retries must be a non-negative integer")
  else outerAttempts maxTransportRetries.toNat maxOuterAttempts.toNat 0 0 messages

/-! ### Calls one after the other -/

section Chains

/-- The exchanges of one call, and how it ends when it is recorded. -/
inductive CallBlock (ordinal : ℕ) (messages : Messages) :
    List (Exchange (Query δ) Answer) → Except CompletionError (CallEnd δ) → Prop
  | failed {error : CallError} {outcome : Except CompletionError (CallEnd δ)}
    (hend : failedCall error = Dialogue.done outcome) :
    CallBlock ordinal messages
      [⟨.dispatch ordinal messages, .error error⟩,
        ⟨.record ordinal none (some (.call error)), .ok ()⟩] outcome
  | failedUnrecorded {error : CallError} (failure : CompletionError) :
    CallBlock ordinal messages
      [⟨.dispatch ordinal messages, .error error⟩,
        ⟨.record ordinal none (some (.call error)), .error failure⟩] (.error failure)
  | answered {receipt : ModelReceipt δ} {validated : Except ValidationError Unit}
    {outcome : Except CompletionError (CallEnd δ)}
    (hend : answeredCall receipt validated = Dialogue.done outcome) :
    CallBlock ordinal messages
      [⟨.dispatch ordinal messages, .ok receipt⟩, ⟨.validate receipt, validated⟩,
        ⟨.record ordinal (some receipt) (validationError validated), .ok ()⟩] outcome
  | answeredUnrecorded {receipt : ModelReceipt δ} {validated : Except ValidationError Unit}
    (failure : CompletionError) :
    CallBlock ordinal messages
      [⟨.dispatch ordinal messages, .ok receipt⟩, ⟨.validate receipt, validated⟩,
        ⟨.record ordinal (some receipt) (validationError validated), .error failure⟩]
      (.error failure)

variable {ordinal : ℕ} {messages : Messages} {trace : List (Exchange (Query δ) Answer)}

theorem callBlock_of_execution {outcome : Except CompletionError (CallEnd δ)}
    (hexecution : Execution (physicalCall ordinal messages) trace outcome) :
    CallBlock ordinal messages trace outcome := by
  obtain ⟨answer, rest, rfl, hrest⟩ := execution_ask.mp hexecution
  cases answer with
  | error error =>
    obtain ⟨recorded, last, rfl, hlast⟩ := execution_ask.mp hrest
    cases recorded with
    | error failure =>
      obtain ⟨rfl, rfl⟩ := execution_fail.mp hlast
      exact .failedUnrecorded failure
    | ok =>
      obtain ⟨result, hresult⟩ : ∃ result, (failedCall error : CompletionM δ (CallEnd δ)) =
          Dialogue.done result := by
        cases error with
        | rateLimitRejection internalRetryCount =>
          by_cases hdrift : internalRetryCount ≠ 0
          · exact ⟨_, if_pos hdrift⟩
          · exact ⟨_, if_neg hdrift⟩
        | _ => exact ⟨_, rfl⟩
      rw [completed, hresult, execution_done] at hlast
      obtain ⟨rfl, rfl⟩ := hlast
      exact .failed hresult
  | ok receipt =>
    obtain ⟨validated, later, rfl, hlater⟩ := execution_ask.mp hrest
    obtain ⟨recorded, last, rfl, hlast⟩ := execution_ask.mp hlater
    cases recorded with
    | error failure =>
      obtain ⟨rfl, rfl⟩ := execution_fail.mp hlast
      exact .answeredUnrecorded failure
    | ok =>
      obtain ⟨result, hresult⟩ : ∃ result, (answeredCall receipt validated :
          CompletionM δ (CallEnd δ)) = Dialogue.done result := by
        cases validated with
        | ok => exact ⟨_, rfl⟩
        | error error =>
          cases error with
          | _ => exact ⟨_, rfl⟩
      rw [completed, hresult, execution_done] at hlast
      obtain ⟨rfl, rfl⟩ := hlast
      exact .answered hresult

/-- A failure that is tried again: the transport may recover, or the rate be limited no more. -/
def Retried (error : CallError) : Prop := isTransportRetryable error ∨ isOuterRateLimit error

/-- A call with an unknown outcome is tried again when it is known to be one of the transport. -/
theorem retried_unknownOutcome (failureKind : String) :
    Retried (.unknownOutcome failureKind) ↔
      failureKind = "timeout" ∨ failureKind = "transport_error" := by
  simp [Retried, isTransportRetryable, isOuterRateLimit, CallError.modelCallFailure]

/-- The exchanges of calls behind a number of calls, the first of them with these messages: a call
follows one that failed and is tried again, or one that returned a malformed output. -/
inductive Chain : ℕ → Messages → List (Exchange (Query δ) Answer) →
    Except CompletionError (ModelReceipt δ) → Prop
  | returned {ordinal : ℕ} {messages : Messages} {block : List (Exchange (Query δ) Answer)}
    {receipt : ModelReceipt δ}
    (hblock : CallBlock (ordinal + 1) messages block (.ok (.returned receipt))) :
    Chain ordinal messages block (.ok receipt)
  | raised {ordinal : ℕ} {messages : Messages} {block : List (Exchange (Query δ) Answer)}
    {ending : Except CompletionError (CallEnd δ)} (error : CompletionError)
    (hblock : CallBlock (ordinal + 1) messages block ending) :
    Chain ordinal messages block (.error error)
  | sleepFailed {ordinal : ℕ} {messages : Messages} {block : List (Exchange (Query δ) Answer)}
    {error : CallError} (seconds : ℚ) (failure : CompletionError)
    (hblock : CallBlock (ordinal + 1) messages block (.ok (.failed error)))
    (hretried : Retried error) :
    Chain ordinal messages (block ++ [⟨.sleep seconds, .error failure⟩]) (.error failure)
  | again {ordinal : ℕ} {messages : Messages} {block rest : List (Exchange (Query δ) Answer)}
    {error : CallError} {outcome : Except CompletionError (ModelReceipt δ)} (seconds : ℚ)
    (hblock : CallBlock (ordinal + 1) messages block (.ok (.failed error)))
    (hretried : Retried error) (hrest : Chain (ordinal + 1) messages rest outcome) :
    Chain ordinal messages (block ++ ⟨.sleep seconds, .ok ()⟩ :: rest) outcome
  | corrected {ordinal : ℕ} {messages : Messages} {block rest : List (Exchange (Query δ) Answer)}
    {receipt : ModelReceipt δ} {message : String}
    {outcome : Except CompletionError (ModelReceipt δ)}
    (hblock : CallBlock (ordinal + 1) messages block (.ok (.malformed receipt message)))
    (hrest : Chain (ordinal + 1)
      (appendFormatCorrection messages receipt.outputText message) rest outcome) :
    Chain ordinal messages (block ++ rest) outcome

/-- The exchanges of an outer attempt end with the block of its last call, and lead to a chain when
the rest behind this call does. -/
def Leads (ordinal : ℕ) (messages : Messages) (trace : List (Exchange (Query δ) Answer)) :
    Except CompletionError (ℕ × CallEnd δ) → Prop
  | .error error => Chain ordinal messages trace (.error error)
  | .ok (reached, ending) => ∃ before front block, reached = before + 1 ∧ trace = front ++ block ∧
    CallBlock reached messages block (.ok ending) ∧
    ∀ later outcome, Chain before messages (block ++ later) outcome →
      Chain ordinal messages (trace ++ later) outcome

/-- An outer attempt with one call. -/
theorem leads_of_block {ending : CallEnd δ}
    (hblock : CallBlock (ordinal + 1) messages trace (.ok ending)) :
    Leads ordinal messages trace (.ok (ordinal + 1, ending)) :=
  ⟨ordinal, [], trace, rfl, rfl, hblock, fun _ _ hchain ↦ hchain⟩

theorem leads_of_transportAttempts {retries retryIndex : ℕ}
    {result : Except CompletionError (ℕ × CallEnd δ)}
    (hexecution : Execution (transportAttempts messages retries retryIndex ordinal) trace result) :
    Leads ordinal messages trace result := by
  induction retries generalizing retryIndex ordinal trace with
  | zero =>
    rw [transportAttempts, execution_bind] at hexecution
    rcases hexecution with ⟨error, herror, rfl⟩ | ⟨ending, first, second, rfl, hfirst, hsecond⟩
    · exact .raised error (callBlock_of_execution herror)
    · obtain ⟨rfl, rfl⟩ := execution_pure.mp hsecond
      rw [List.append_nil]
      exact leads_of_block (callBlock_of_execution hfirst)
  | succ retries ih =>
    rw [transportAttempts, execution_bind] at hexecution
    rcases hexecution with ⟨error, herror, rfl⟩ | ⟨ending, first, second, rfl, hfirst, hsecond⟩
    · exact .raised error (callBlock_of_execution herror)
    have hblock := callBlock_of_execution hfirst
    have hdone : ∀ {ending : CallEnd δ}, CallBlock (ordinal + 1) messages first (.ok ending) →
        Execution (pure (ordinal + 1, ending) : CompletionM δ (ℕ × CallEnd δ)) second result →
        Leads ordinal messages (first ++ second) result := by
      intro ending hblock hpure
      obtain ⟨rfl, rfl⟩ := execution_pure.mp hpure
      rw [List.append_nil]
      exact leads_of_block hblock
    cases ending with
    | returned receipt => exact hdone hblock hsecond
    | malformed receipt message => exact hdone hblock hsecond
    | failed error =>
      by_cases hretryable : isTransportRetryable error
      · simp only [if_pos hretryable] at hsecond
        obtain ⟨slept, rest, rfl, hrest⟩ := execution_ask.mp hsecond
        cases slept with
        | error failure =>
          obtain ⟨rfl, rfl⟩ := execution_fail.mp hrest
          exact .sleepFailed _ failure hblock (Or.inl hretryable)
        | ok =>
          have hleads := ih hrest
          cases result with
          | error error => exact .again _ hblock (Or.inl hretryable) hleads
          | ok reached =>
            obtain ⟨before, front, block, hreached, rfl, hlast, hlater⟩ := hleads
            refine ⟨before, first ++ ⟨.sleep (1 / 2 * 2 ^ retryIndex), .ok ()⟩ :: front, block,
              hreached, ?_, hlast, ?_⟩
            · rw [List.append_assoc, List.cons_append]
            · intro later outcome hchain
              rw [List.append_assoc, List.cons_append]
              exact .again _ hblock (Or.inl hretryable) (hlater later outcome hchain)
      · simp only [if_neg hretryable] at hsecond
        exact hdone hblock hsecond

/-- An outer attempt is followed by a chain when the outer attempts that are left are one. -/
theorem chain_of_outerAttempt {maxTransportRetries attempts outerIndex : ℕ}
    {outcome : Except CompletionError (ModelReceipt δ)}
    (hrest : attempts ≠ 0 → ∀ {outerIndex ordinal : ℕ} {messages : Messages}
      {trace : List (Exchange (Query δ) Answer)},
      Execution (outerAttempts maxTransportRetries attempts outerIndex ordinal messages) trace
        outcome → Chain ordinal messages trace outcome)
    (hexecution : Execution
      (outerAttempts maxTransportRetries (attempts + 1) outerIndex ordinal messages) trace
      outcome) :
    Chain ordinal messages trace outcome := by
  rw [outerAttempts, execution_bind] at hexecution
  rcases hexecution with ⟨error, herror, rfl⟩ | ⟨⟨reached, ending⟩, first, second, rfl, hfirst,
    hsecond⟩
  · exact leads_of_transportAttempts herror
  obtain ⟨before, front, block, rfl, rfl, hblock, hlater⟩ := leads_of_transportAttempts hfirst
  have hlast : ∀ {result : Except CompletionError (ModelReceipt δ)},
      Chain before messages block result → Chain ordinal messages (front ++ block) result := by
    intro result hchain
    have hwhole := hlater [] result ((List.append_nil block).symm ▸ hchain)
    rwa [List.append_nil] at hwhole
  cases ending with
  | returned receipt =>
    obtain ⟨rfl, rfl⟩ := execution_pure.mp hsecond
    rw [List.append_nil]
    exact hlast (.returned hblock)
  | malformed receipt message =>
    by_cases hnone : attempts = 0
    · simp only [if_pos hnone] at hsecond
      obtain ⟨rfl, rfl⟩ := execution_fail.mp hsecond
      rw [List.append_nil]
      exact hlast (.raised _ hblock)
    · simp only [if_neg hnone] at hsecond
      exact hlater _ _ (.corrected hblock (hrest hnone hsecond))
  | failed error =>
    by_cases hagain : isOuterRateLimit error ∧ attempts ≠ 0
    · simp only [if_pos hagain] at hsecond
      obtain ⟨slept, rest, rfl, hslept⟩ := execution_ask.mp hsecond
      cases slept with
      | error failure =>
        obtain ⟨rfl, rfl⟩ := execution_fail.mp hslept
        exact hlater _ _ (.sleepFailed _ failure hblock (Or.inr hagain.1))
      | ok => exact hlater _ _ (.again _ hblock (Or.inr hagain.1) (hrest hagain.2 hslept))
    · simp only [if_neg hagain] at hsecond
      obtain ⟨rfl, rfl⟩ := execution_fail.mp hsecond
      rw [List.append_nil]
      exact hlast (.raised _ hblock)

theorem chain_of_outerAttempts {maxTransportRetries attempts outerIndex : ℕ}
    {outcome : Except CompletionError (ModelReceipt δ)}
    (hexecution : Execution
      (outerAttempts maxTransportRetries (attempts + 1) outerIndex ordinal messages) trace
      outcome) :
    Chain ordinal messages trace outcome := by
  induction attempts generalizing outerIndex ordinal messages trace with
  | zero => exact chain_of_outerAttempt (fun hzero ↦ absurd rfl hzero) hexecution
  | succ attempts ih => exact chain_of_outerAttempt (fun _ ↦ ih) hexecution

/-! ### What holds of a chain -/

/-- The ordinals of the calls. -/
def dispatches (trace : List (Exchange (Query δ) Answer)) : List ℕ :=
  trace.filterMap fun exchange ↦
    match exchange.1 with
    | .dispatch ordinal _ => some ordinal
    | _ => none

/-- The ordinals of the records. -/
def records (trace : List (Exchange (Query δ) Answer)) : List ℕ :=
  trace.filterMap fun exchange ↦
    match exchange.1 with
    | .record ordinal _ _ => some ordinal
    | _ => none

theorem dispatches_append (first second : List (Exchange (Query δ) Answer)) :
    dispatches (first ++ second) = dispatches first ++ dispatches second :=
  List.filterMap_append

theorem records_append (first second : List (Exchange (Query δ) Answer)) :
    records (first ++ second) = records first ++ records second :=
  List.filterMap_append

theorem CallBlock.dispatches_eq {ending : Except CompletionError (CallEnd δ)}
    (hblock : CallBlock ordinal messages trace ending) : dispatches trace = [ordinal] := by
  cases hblock <;> rfl

theorem CallBlock.records_eq {ending : Except CompletionError (CallEnd δ)}
    (hblock : CallBlock ordinal messages trace ending) : records trace = [ordinal] := by
  cases hblock <;> rfl

/-- The calls of a chain are numbered without gaps, and each of them has one record. -/
theorem Chain.ordinals {outcome : Except CompletionError (ModelReceipt δ)}
    (hchain : Chain ordinal messages trace outcome) :
    dispatches trace = List.range' (ordinal + 1) (dispatches trace).length ∧
      records trace = dispatches trace := by
  induction hchain with
  | returned hblock | raised _ hblock =>
    rw [hblock.dispatches_eq, hblock.records_eq]
    exact ⟨rfl, rfl⟩
  | sleepFailed _ _ hblock =>
    rw [dispatches_append, records_append, hblock.dispatches_eq, hblock.records_eq]
    exact ⟨rfl, rfl⟩
  | @again ordinal messages block rest error outcome seconds hblock _ _ ih =>
    have hsleep : dispatches (⟨.sleep seconds, .ok ()⟩ :: rest) = dispatches rest := rfl
    have hslept : records (⟨.sleep seconds, .ok ()⟩ :: rest) = records rest := rfl
    rw [dispatches_append, records_append, hblock.dispatches_eq, hblock.records_eq, hsleep, hslept,
      ih.2, List.singleton_append, List.length_cons, List.range'_succ, ← ih.1]
    exact ⟨rfl, rfl⟩
  | corrected hblock _ ih =>
    rw [dispatches_append, records_append, hblock.dispatches_eq, hblock.records_eq,
      ih.2, List.singleton_append, List.length_cons, List.range'_succ, ← ih.1]
    exact ⟨rfl, rfl⟩

/-- A failed call that does not end the completion is not cancelled. -/
theorem of_failedCall {error : CallError} {ending : CallEnd δ}
    (hend : failedCall error = (Dialogue.done (.ok ending) : CompletionM δ (CallEnd δ))) :
    ending = .failed error ∧ error ≠ .cancelled := by
  cases error with
  | rateLimitRejection internalRetryCount =>
    rw [failedCall] at hend
    by_cases hdrift : internalRetryCount ≠ 0
    · rw [if_pos hdrift] at hend
      cases hend
    · rw [if_neg hdrift] at hend
      cases hend
      exact ⟨rfl, nofun⟩
  | cancelled => cases hend
  | _ =>
    cases hend
    exact ⟨rfl, nofun⟩

/-- An answered call that does not end the completion is returned or malformed. -/
theorem of_answeredCall {receipt : ModelReceipt δ} {validated : Except ValidationError Unit}
    {ending : CallEnd δ}
    (hend : answeredCall receipt validated =
      (Dialogue.done (.ok ending) : CompletionM δ (CallEnd δ))) :
    (ending = .returned receipt ∧ validated = .ok ()) ∨
      ∃ message, ending = .malformed receipt message ∧
        validated = .error (.valueError message) := by
  cases validated with
  | ok =>
    cases hend
    exact Or.inl ⟨rfl, rfl⟩
  | error error =>
    cases error with
    | valueError message =>
      cases hend
      exact Or.inr ⟨message, rfl, rfl⟩
    | unexpected message => cases hend

/-- A receipt that is returned is that of the last call, which was validated and recorded. -/
theorem Chain.accepted {receipt : ModelReceipt δ}
    (hchain : Chain ordinal messages trace (.ok receipt)) :
    ∃ before reached sent, trace = before ++ [⟨.dispatch reached sent, .ok receipt⟩,
      ⟨.validate receipt, .ok ()⟩, ⟨.record reached (some receipt) none, .ok ()⟩] := by
  generalize houtcome : (Except.ok receipt : Except CompletionError (ModelReceipt δ)) = outcome
    at hchain
  induction hchain with
  | @returned ordinal messages block returned hblock =>
    cases houtcome
    cases hblock with
    | failed hend => cases (of_failedCall hend).1
    | @answered receipt validated outcome hend =>
      rcases of_answeredCall hend with ⟨hsame, rfl⟩ | ⟨message, hsame, -⟩
      · cases hsame
        exact ⟨[], _, _, rfl⟩
      · cases hsame
  | raised | sleepFailed => cases houtcome
  | @again _ _ block _ _ _ seconds _ _ _ ih =>
    obtain ⟨before, reached, sent, rfl⟩ := ih houtcome
    refine ⟨block ++ ⟨.sleep seconds, .ok ()⟩ :: before, reached, sent, ?_⟩
    rw [List.append_assoc, List.cons_append]
  | @corrected _ _ block _ _ _ _ _ _ ih =>
    obtain ⟨before, reached, sent, rfl⟩ := ih houtcome
    exact ⟨block ++ before, reached, sent, (List.append_assoc _ _ _).symm⟩

/-- What comes behind a call. -/
def Continues (ordinal : ℕ) (messages : Messages) :
    Except CallError (ModelReceipt δ) → List (Exchange (Query δ) Answer) → Prop
  | .error error, after => ∃ recorded rest,
    after = ⟨.record ordinal none (some (.call error)), recorded⟩ :: rest ∧
      (rest = [] ∨ recorded = .ok () ∧ Retried error ∧ error ≠ .cancelled ∧
        ∃ seconds slept later, rest = ⟨.sleep seconds, slept⟩ :: later ∧
          (later = [] ∨ slept = .ok () ∧ ∃ answer last,
            later = ⟨.dispatch (ordinal + 1) messages, answer⟩ :: last))
  | .ok receipt, after => ∃ validated recorded rest,
    after = ⟨.validate receipt, validated⟩ ::
        ⟨.record ordinal (some receipt) (validationError validated), recorded⟩ :: rest ∧
      (rest = [] ∨ recorded = .ok () ∧ ∃ message answer last,
        validated = .error (.valueError message) ∧
          rest = ⟨.dispatch (ordinal + 1)
            (appendFormatCorrection messages receipt.outputText message), answer⟩ :: last)

/-- What comes behind the block of a call that ended so. -/
def Follows (ordinal : ℕ) (messages : Messages) :
    CallEnd δ → List (Exchange (Query δ) Answer) → Prop
  | .returned _, _ => False
  | .failed error, rest => Retried error ∧ ∃ seconds slept later,
    rest = ⟨.sleep seconds, slept⟩ :: later ∧ (later = [] ∨ slept = .ok () ∧ ∃ answer last,
      later = ⟨.dispatch (ordinal + 1) messages, answer⟩ :: last)
  | .malformed receipt message, rest => ∃ answer last,
    rest = ⟨.dispatch (ordinal + 1)
      (appendFormatCorrection messages receipt.outputText message), answer⟩ :: last

/-- A call in a block is followed as it should be when the block is. -/
theorem CallBlock.continues {block rest after : List (Exchange (Query δ) Answer)}
    {ending : Except CompletionError (CallEnd δ)} {reached : ℕ} {sent : Messages}
    {answer : Except CallError (ModelReceipt δ)}
    (hblock : CallBlock ordinal messages block ending)
    (hrest : rest = [] ∨ ∃ last, ending = .ok last ∧ Follows ordinal messages last rest)
    (hsuffix : ⟨.dispatch reached sent, answer⟩ :: after <:+ block ++ rest) :
    Continues reached sent answer after ∨ ⟨.dispatch reached sent, answer⟩ :: after <:+ rest := by
  cases hblock with
  | @failed error _ hend =>
    rcases List.suffix_cons_iff.mp hsuffix with heq | hrecord
    · cases heq
      refine Or.inl ⟨_, _, rfl, hrest.imp_right ?_⟩
      rintro ⟨last, rfl, hfollows⟩
      obtain ⟨rfl, hcancelled⟩ := of_failedCall hend
      exact ⟨rfl, hfollows.1, hcancelled, hfollows.2⟩
    · rcases List.suffix_cons_iff.mp hrecord with heq | hlater
      · cases heq
      · exact Or.inr hlater
  | failedUnrecorded failure =>
    obtain rfl : rest = [] := hrest.resolve_right fun ⟨_, hsame, _⟩ ↦ nomatch hsame
    rcases List.suffix_cons_iff.mp hsuffix with heq | hrecord
    · cases heq
      exact Or.inl ⟨_, _, rfl, Or.inl rfl⟩
    · rcases List.suffix_cons_iff.mp hrecord with heq | hlater
      · cases heq
      · exact Or.inr hlater
  | @answered receipt validated _ hend =>
    rcases List.suffix_cons_iff.mp hsuffix with heq | hvalidate
    · cases heq
      refine Or.inl ⟨_, _, _, rfl, hrest.imp_right ?_⟩
      rintro ⟨last, rfl, hfollows⟩
      rcases of_answeredCall hend with ⟨rfl, -⟩ | ⟨message, rfl, hvalidated⟩
      · exact hfollows.elim
      · obtain ⟨answer, last, hlast⟩ := hfollows
        exact ⟨rfl, message, answer, last, hvalidated, hlast⟩
    · rcases List.suffix_cons_iff.mp hvalidate with heq | hrecord
      · cases heq
      · rcases List.suffix_cons_iff.mp hrecord with heq | hlater
        · cases heq
        · exact Or.inr hlater
  | answeredUnrecorded failure =>
    obtain rfl : rest = [] := hrest.resolve_right fun ⟨_, hsame, _⟩ ↦ nomatch hsame
    rcases List.suffix_cons_iff.mp hsuffix with heq | hvalidate
    · cases heq
      exact Or.inl ⟨_, _, _, rfl, Or.inl rfl⟩
    · rcases List.suffix_cons_iff.mp hvalidate with heq | hrecord
      · cases heq
      · rcases List.suffix_cons_iff.mp hrecord with heq | hlater
        · cases heq
        · exact Or.inr hlater

/-- A call in the last block is followed as it should be. -/
theorem CallBlock.continues_last {block after : List (Exchange (Query δ) Answer)}
    {ending : Except CompletionError (CallEnd δ)} {reached : ℕ} {sent : Messages}
    {answer : Except CallError (ModelReceipt δ)}
    (hblock : CallBlock ordinal messages block ending)
    (hsuffix : ⟨.dispatch reached sent, answer⟩ :: after <:+ block) :
    Continues reached sent answer after := by
  have happend : ⟨.dispatch reached sent, answer⟩ :: after <:+ block ++ [] := by
    rwa [List.append_nil]
  rcases hblock.continues (Or.inl rfl) happend with hcontinues | hnone
  · exact hcontinues
  · cases List.suffix_nil.mp hnone

theorem CallBlock.head {block : List (Exchange (Query δ) Answer)}
    {ending : Except CompletionError (CallEnd δ)}
    (hblock : CallBlock ordinal messages block ending)
    (rest : List (Exchange (Query δ) Answer)) : ∃ answer last,
    block ++ rest = ⟨.dispatch ordinal messages, answer⟩ :: last := by
  cases hblock <;> exact ⟨_, _, rfl⟩

theorem Chain.head {outcome : Except CompletionError (ModelReceipt δ)}
    (hchain : Chain ordinal messages trace outcome) : ∃ answer last,
    trace = ⟨.dispatch (ordinal + 1) messages, answer⟩ :: last := by
  cases hchain with
  | returned hblock | raised _ hblock => simpa using hblock.head []
  | sleepFailed _ _ hblock | again _ hblock | corrected hblock => exact hblock.head _

/-- Every call of a chain is followed as its answer demands. -/
theorem Chain.continues {outcome : Except CompletionError (ModelReceipt δ)}
    (hchain : Chain ordinal messages trace outcome) {reached : ℕ} {sent : Messages}
    {answer : Except CallError (ModelReceipt δ)} {after : List (Exchange (Query δ) Answer)}
    (hsuffix : ⟨.dispatch reached sent, answer⟩ :: after <:+ trace) :
    Continues reached sent answer after := by
  induction hchain with
  | returned hblock | raised _ hblock => exact hblock.continues_last hsuffix
  | sleepFailed seconds failure hblock hretried =>
    rcases hblock.continues (Or.inr ⟨_, rfl, hretried, _, _, _, rfl, Or.inl rfl⟩) hsuffix with
      hcontinues | hlater
    · exact hcontinues
    · rcases List.suffix_cons_iff.mp hlater with heq | hnone
      · cases heq
      · cases List.suffix_nil.mp hnone
  | again seconds hblock hretried hrest ih =>
    obtain ⟨next, last, hhead⟩ := hrest.head
    rcases hblock.continues (Or.inr ⟨_, rfl, hretried, _, _, _, rfl,
      Or.inr ⟨rfl, next, last, hhead⟩⟩) hsuffix with hcontinues | hlater
    · exact hcontinues
    · rcases List.suffix_cons_iff.mp hlater with heq | hrest
      · cases heq
      · exact ih hrest
  | corrected hblock hrest ih =>
    rcases hblock.continues (Or.inr ⟨_, rfl, hrest.head⟩) hsuffix with hcontinues | hlater
    · exact hcontinues
    · exact ih hlater

/-! ### The number of calls -/

theorem length_of_transportAttempts {retries retryIndex : ℕ}
    {result : Except CompletionError (ℕ × CallEnd δ)}
    (hexecution : Execution (transportAttempts messages retries retryIndex ordinal) trace result) :
    (dispatches trace).length ≤ retries + 1 := by
  induction retries generalizing retryIndex ordinal trace with
  | zero =>
    rw [transportAttempts, execution_bind] at hexecution
    rcases hexecution with ⟨error, herror, -⟩ | ⟨ending, first, second, rfl, hfirst, hsecond⟩
    · exact (congrArg List.length (callBlock_of_execution herror).dispatches_eq).le
    · obtain ⟨rfl, -⟩ := execution_pure.mp hsecond
      rw [List.append_nil]
      exact (congrArg List.length (callBlock_of_execution hfirst).dispatches_eq).le
  | succ retries ih =>
    rw [transportAttempts, execution_bind] at hexecution
    rcases hexecution with ⟨error, herror, -⟩ | ⟨ending, first, second, rfl, hfirst, hsecond⟩
    · rw [(callBlock_of_execution herror).dispatches_eq]
      exact Nat.succ_le_succ (Nat.zero_le _)
    have hlength : (dispatches second).length ≤ retries + 1 := by
      cases ending with
      | returned | malformed =>
        obtain ⟨rfl, -⟩ := execution_pure.mp hsecond
        exact Nat.zero_le _
      | failed error =>
        by_cases hretryable : isTransportRetryable error
        · simp only [if_pos hretryable] at hsecond
          obtain ⟨slept, rest, rfl, hrest⟩ := execution_ask.mp hsecond
          cases slept with
          | error failure =>
            obtain ⟨rfl, -⟩ := execution_fail.mp hrest
            exact Nat.zero_le _
          | ok =>
            have hlength := ih hrest
            exact hlength
        · simp only [if_neg hretryable] at hsecond
          obtain ⟨rfl, -⟩ := execution_pure.mp hsecond
          exact Nat.zero_le _
    rw [dispatches_append, (callBlock_of_execution hfirst).dispatches_eq, List.length_append,
      List.length_singleton]
    omega

theorem length_of_outerAttempts {maxTransportRetries attempts outerIndex : ℕ}
    {outcome : Except CompletionError (ModelReceipt δ)}
    (hexecution : Execution
      (outerAttempts maxTransportRetries attempts outerIndex ordinal messages) trace outcome) :
    (dispatches trace).length ≤ attempts * (maxTransportRetries + 1) := by
  induction attempts generalizing outerIndex ordinal messages trace with
  | zero =>
    obtain ⟨rfl, -⟩ := execution_fail.mp hexecution
    exact Nat.zero_le _
  | succ attempts ih =>
    rw [outerAttempts, execution_bind] at hexecution
    rw [Nat.succ_mul]
    rcases hexecution with ⟨error, herror, -⟩ | ⟨⟨reached, ending⟩, first, second, rfl, hfirst,
      hsecond⟩
    · exact (length_of_transportAttempts herror).trans (Nat.le_add_left _ _)
    have hlength : (dispatches second).length ≤ attempts * (maxTransportRetries + 1) := by
      cases ending with
      | returned receipt =>
        obtain ⟨rfl, -⟩ := execution_pure.mp hsecond
        exact Nat.zero_le _
      | malformed receipt message =>
        by_cases hnone : attempts = 0
        · simp only [if_pos hnone] at hsecond
          obtain ⟨rfl, -⟩ := execution_fail.mp hsecond
          exact Nat.zero_le _
        · simp only [if_neg hnone] at hsecond
          exact ih hsecond
      | failed error =>
        by_cases hagain : isOuterRateLimit error ∧ attempts ≠ 0
        · simp only [if_pos hagain] at hsecond
          obtain ⟨slept, rest, rfl, hslept⟩ := execution_ask.mp hsecond
          cases slept with
          | error failure =>
            obtain ⟨rfl, -⟩ := execution_fail.mp hslept
            exact Nat.zero_le _
          | ok =>
            have hlength := ih hslept
            exact hlength
        · simp only [if_neg hagain] at hsecond
          obtain ⟨rfl, -⟩ := execution_fail.mp hsecond
          exact Nat.zero_le _
    rw [dispatches_append, List.length_append, Nat.add_comm]
    exact Nat.add_le_add hlength (length_of_transportAttempts hfirst)

end Chains

/-! ### Completions -/

section Completions

variable {messages : Messages} {maxOuterAttempts maxTransportRetries : ℤ}
  {trace : List (Exchange (Query δ) Answer)} {outcome : Except CompletionError (ModelReceipt δ)}

/-- What holds of the exchanges of a completion. -/
structure Faithful (messages : Messages) (maxOuterAttempts maxTransportRetries : ℤ)
    (trace : List (Exchange (Query δ) Answer))
    (outcome : Except CompletionError (ModelReceipt δ)) : Prop where
  bounded : (dispatches trace).length ≤ maxOuterAttempts.toNat * (maxTransportRetries.toNat + 1)
  ordinals : dispatches trace = List.range' 1 (dispatches trace).length
  records_eq : records trace = dispatches trace
  first : trace = [] ∨ ∃ answer rest, trace = ⟨.dispatch 1 messages, answer⟩ :: rest
  continues : ∀ {ordinal sent answer after},
    ⟨.dispatch ordinal sent, answer⟩ :: after <:+ trace → Continues ordinal sent answer after
  cancelled : ∀ {ordinal sent after},
    ⟨.dispatch ordinal sent, .error .cancelled⟩ :: after <:+ trace →
      ∃ recorded, after = [⟨.record ordinal none (some (.call .cancelled)), recorded⟩]
  unknown : ∀ {ordinal sent failureKind after},
    ⟨.dispatch ordinal sent, .error (.unknownOutcome failureKind)⟩ :: after <:+ trace →
      failureKind = "timeout" ∨ failureKind = "transport_error" ∨ ∃ recorded,
        after = [⟨.record ordinal none (some (.call (.unknownOutcome failureKind))), recorded⟩]
  accepted : ∀ {receipt}, outcome = .ok receipt → ∃ before ordinal sent,
    trace = before ++ [⟨.dispatch ordinal sent, .ok receipt⟩, ⟨.validate receipt, .ok ()⟩,
      ⟨.record ordinal (some receipt) none, .ok ()⟩]

theorem faithful_of_execution
    (hexecution : Execution
      (executeModelCompletionRetry messages maxOuterAttempts maxTransportRetries) trace outcome) :
    Faithful messages maxOuterAttempts maxTransportRetries trace outcome := by
  have hrefused : ∀ {error : CompletionError}, trace = [] → outcome = .error error →
      Faithful messages maxOuterAttempts maxTransportRetries trace outcome := by
    rintro error rfl rfl
    refine ⟨Nat.zero_le _, rfl, rfl, Or.inl rfl, fun hsuffix ↦ ?_, fun hsuffix ↦ ?_,
      fun hsuffix ↦ ?_, nofun⟩
    all_goals cases List.suffix_nil.mp hsuffix
  rw [executeModelCompletionRetry] at hexecution
  by_cases houter : maxOuterAttempts < 1
  · rw [if_pos houter] at hexecution
    obtain ⟨htrace, houtcome⟩ := execution_fail.mp hexecution
    exact hrefused htrace houtcome
  by_cases htransport : maxTransportRetries < 0
  · rw [if_neg houter, if_pos htransport] at hexecution
    obtain ⟨htrace, houtcome⟩ := execution_fail.mp hexecution
    exact hrefused htrace houtcome
  rw [if_neg houter, if_neg htransport] at hexecution
  obtain ⟨attempts, hattempts⟩ : ∃ attempts, maxOuterAttempts.toNat = attempts + 1 :=
    Nat.exists_eq_succ_of_ne_zero (by omega)
  have hlength := length_of_outerAttempts hexecution
  rw [hattempts] at hexecution
  have hchain := chain_of_outerAttempts hexecution
  constructor
  case bounded => exact hlength
  case ordinals => exact hchain.ordinals.1
  case records_eq => exact hchain.ordinals.2
  case first => exact Or.inr hchain.head
  case continues => exact hchain.continues
  case cancelled =>
    intro ordinal sent after hsuffix
    obtain ⟨recorded, rest, rfl, hrest⟩ := hchain.continues hsuffix
    obtain rfl := hrest.resolve_right fun hretried ↦ hretried.2.2.1 rfl
    exact ⟨recorded, rfl⟩
  case unknown =>
    intro ordinal sent failureKind after hsuffix
    obtain ⟨recorded, rest, rfl, rfl | ⟨-, hretried, -⟩⟩ := hchain.continues hsuffix
    · exact Or.inr (Or.inr ⟨recorded, rfl⟩)
    · rcases (retried_unknownOutcome failureKind).mp hretried with htimeout | htransport
      · exact Or.inl htimeout
      · exact Or.inr (Or.inl htransport)
  case accepted =>
    rintro receipt rfl
    exact hchain.accepted

end Completions

/-! ### Sample executions -/

section Sample

/-- A receipt. -/
def sampleReceipt : ModelReceipt Unit := ⟨"yes", ()⟩

/-- A question. -/
def sampleMessages : Messages := [("user", "question")]

/-- A call that is validated and recorded. -/
def sampleCall (ordinal : ℕ) : List (Exchange (Query Unit) Answer) :=
  [⟨.dispatch ordinal sampleMessages, .ok sampleReceipt⟩, ⟨.validate sampleReceipt, .ok ()⟩,
    ⟨.record ordinal (some sampleReceipt) none, .ok ()⟩]

/-- A call that fails and is recorded, a sleep, and a call that is validated and recorded. -/
def sampleRetry (error : CallError) (seconds : ℚ) : List (Exchange (Query Unit) Answer) :=
  [⟨.dispatch 1 sampleMessages, .error error⟩, ⟨.record 1 none (some (.call error)), .ok ()⟩,
    ⟨.sleep seconds, .ok ()⟩] ++ sampleCall 2

theorem execution_sampleCall : Execution
    (executeModelCompletionRetry sampleMessages 1 0 : CompletionM Unit _) (sampleCall 1)
    (.ok sampleReceipt) :=
  .ask _ (.ask _ (.ask _ .done))

theorem faithful_of_execution_sample :
    Faithful sampleMessages 1 0 (sampleCall 1) (.ok sampleReceipt) :=
  faithful_of_execution execution_sampleCall

/-- A transport retry behind a timeout. -/
theorem execution_timeout : Execution
    (executeModelCompletionRetry sampleMessages 1 1 : CompletionM Unit _)
    (sampleRetry (.unknownOutcome "timeout") (1 / 2 * 2 ^ 0)) (.ok sampleReceipt) :=
  .ask _ (.ask _ (.ask _ (.ask _ (.ask _ (.ask _ .done)))))

/-- An outer attempt behind a limit of the rate. -/
theorem execution_rateLimit : Execution
    (executeModelCompletionRetry sampleMessages 2 0 : CompletionM Unit _)
    (sampleRetry (.rateLimitRejection 0) (5 * 2 ^ 0)) (.ok sampleReceipt) :=
  .ask _ (.ask _ (.ask _ (.ask _ (.ask _ (.ask _ .done)))))

/-- A call with an unknown outcome may be retried, and a new outer attempt may send the messages of
the one before it. -/
theorem retried_unchanged :
    (¬ ∀ (messages : Messages) (maxOuterAttempts maxTransportRetries : ℤ)
        (trace : List (Exchange (Query Unit) Answer)) (outcome : _),
      Execution (executeModelCompletionRetry messages maxOuterAttempts maxTransportRetries) trace
        outcome → ∀ ordinal sent failureKind after,
        ⟨.dispatch ordinal sent, .error (.unknownOutcome failureKind)⟩ :: after <:+ trace →
          dispatches after = []) ∧
    -- Without transport retries every call is an outer attempt of its own.
    ¬ ∀ (messages : Messages) (maxOuterAttempts : ℤ)
        (trace : List (Exchange (Query Unit) Answer)) (outcome : _),
      Execution (executeModelCompletionRetry messages maxOuterAttempts 0) trace outcome →
        ∀ ordinal sent next answer other, ⟨.dispatch ordinal sent, answer⟩ ∈ trace →
          ⟨.dispatch (ordinal + 1) next, other⟩ ∈ trace →
          ∃ outputText correction,
            next = sent ++ [("assistant", outputText), ("user", correction)] := by
  constructor
  · intro hall
    have hnone := hall _ _ _ _ _ execution_timeout _ _ _ _ (List.suffix_refl _)
    cases hnone
  · intro hall
    obtain ⟨outputText, correction, hnext⟩ := hall _ _ _ _ execution_rateLimit 1 _ _ _ _
      List.mem_cons_self
      (List.mem_append_right _ List.mem_cons_self)
    have hlength := congrArg List.length hnext
    rw [List.length_append] at hlength
    simp at hlength

end Sample

end Oamb.Runtime.CompletionDialogue
