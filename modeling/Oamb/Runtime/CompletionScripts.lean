import Oamb.Runtime.CompletionDialogue

/-!
# Scripts of a model completion

A script fixes what every call of a completion leads to. The layered retries of a script are an
execution of the dialogue of the completion, with a recorder that does not fail: it dispatches their
calls and comes to their result (`execution_of_script`).
-/

set_option autoImplicit false

namespace Oamb.Runtime.CompletionScripts

open Foundation Foundation.Dialogue CompletionRetry CompletionDialogue

variable {δ : Type} {script : Script δ} {ordinal : ℕ} {messages : Messages}

/-- The calls that were dispatched. -/
def dispatched (trace : List (Exchange (Query δ) Answer)) : List PhysicalCall :=
  trace.filterMap fun exchange ↦
    match exchange.1 with
    | .dispatch ordinal messages => some ⟨ordinal, messages⟩
    | _ => none

theorem dispatched_append (first second : List (Exchange (Query δ) Answer)) :
    dispatched (first ++ second) = dispatched first ++ dispatched second :=
  List.filterMap_append

/-- The end of a call or of an outer attempt, as its dialogue has it. -/
def outcomeOf : AttemptEnd δ → Except CompletionError (CallEnd δ)
  | .returned receipt => .ok (.returned receipt)
  | .raised error => .error error
  | .malformed receipt message => .ok (.malformed receipt message)
  | .failed error => .ok (.failed error)

/-- A dialogue has an execution that dispatches calls and comes to an outcome. A call that is not
prepared is dispatched, but not sent. -/
def Plays {α : Type} (dialogue : CompletionM δ α) (calls : List PhysicalCall)
    (outcome : Except CompletionError α) : Prop :=
  ∃ trace, Execution dialogue trace outcome ∧ (dispatched trace = calls ∨
    ∃ reason call, outcome = .error (.notPrepared reason) ∧ dispatched trace = calls ++ [call])

theorem failedCall_eq (error : CallError) :
    (failedCall error : CompletionM δ (CallEnd δ)) =
      Dialogue.done (outcomeOf (failureEnd error)) := by
  cases error with
  | rateLimitRejection internalRetryCount =>
    by_cases hdrift : internalRetryCount ≠ 0
    · rw [failedCall, failureEnd, if_pos hdrift, if_pos hdrift]
      rfl
    · rw [failedCall, failureEnd, if_neg hdrift, if_neg hdrift]
      rfl
  | _ => rfl

/-- What the validation of a script answers. -/
def validated (script : Script δ) (receipt : ModelReceipt δ) : Except ValidationError Unit :=
  match script.validate receipt with
  | none => .ok ()
  | some error => .error error

theorem answeredCall_eq (receipt : ModelReceipt δ) :
    (answeredCall receipt (validated script receipt) : CompletionM δ (CallEnd δ)) =
      Dialogue.done (outcomeOf (receiptEnd script receipt)) := by
  rw [validated, receiptEnd]
  cases script.validate receipt with
  | none => rfl
  | some error =>
    cases error with
    | _ => rfl

theorem plays_physicalCall (script : Script δ) (ordinal : ℕ) (messages : Messages) :
    Plays (CompletionDialogue.physicalCall ordinal messages)
      (CompletionRetry.physicalCall script messages ordinal).calls
      (outcomeOf (CompletionRetry.physicalCall script messages ordinal).ending) := by
  rw [CompletionRetry.physicalCall]
  cases script.dispatch ordinal messages with
  | notPrepared reason =>
    refine ⟨[⟨.dispatch ordinal messages, .error (.unexpected reason)⟩,
      ⟨.record ordinal none (some (.call (.unexpected reason))), .error (.notPrepared reason)⟩],
      execution_ask.mpr ⟨_, _, rfl, execution_ask.mpr ⟨_, _, rfl, .done⟩⟩,
      Or.inr ⟨reason, ⟨ordinal, messages⟩, rfl, rfl⟩⟩
  | failed error =>
    refine ⟨[⟨.dispatch ordinal messages, .error error⟩,
      ⟨.record ordinal none (some (.call error)), .ok ()⟩],
      execution_ask.mpr ⟨_, _, rfl, execution_ask.mpr ⟨_, _, rfl, ?_⟩⟩, Or.inl rfl⟩
    rw [completed, failedCall_eq]
    exact .done
  | received receipt =>
    refine ⟨[⟨.dispatch ordinal messages, .ok receipt⟩,
      ⟨.validate receipt, validated script receipt⟩,
      ⟨.record ordinal (some receipt) (validationError (validated script receipt)), .ok ()⟩],
      execution_ask.mpr ⟨_, _, rfl, execution_ask.mpr ⟨_, _, rfl, execution_ask.mpr ⟨_, _, rfl,
        ?_⟩⟩⟩, Or.inl rfl⟩
    rw [completed, answeredCall_eq]
    exact .done

/-- The outcome of an outer attempt behind a number of calls, as its dialogue has it. -/
def reachedOf (ordinal : ℕ) (ending : AttemptEnd δ) :
    Except CompletionError (ℕ × CallEnd δ) :=
  (outcomeOf ending).map fun last ↦ (ordinal, last)

section Rules

variable {α β : Type} {dialogue : CompletionM δ α} {next : α → CompletionM δ β}
  {first second : List PhysicalCall} {value : α} {outcome : Except CompletionError β}

theorem Plays.bind_ok (hdialogue : Plays dialogue first (.ok value))
    (hnext : Plays (next value) second outcome) :
    Plays (dialogue >>= next) (first ++ second) outcome := by
  obtain ⟨front, hfront, hfirst⟩ := hdialogue
  obtain ⟨back, hback, hsecond⟩ := hnext
  obtain rfl := hfirst.resolve_right fun ⟨_, _, hsame, _⟩ ↦ nomatch hsame
  refine ⟨front ++ back, execution_bind.mpr (Or.inr ⟨value, front, back, rfl, hfront, hback⟩), ?_⟩
  rw [dispatched_append]
  rcases hsecond with rfl | ⟨reason, call, hreason, hlast⟩
  · exact Or.inl rfl
  · exact Or.inr ⟨reason, call, hreason, by rw [hlast, List.append_assoc]⟩

theorem Plays.bind_error {error : CompletionError}
    (hdialogue : Plays dialogue first (.error error)) :
    Plays (dialogue >>= next) first (.error error) := by
  obtain ⟨front, hfront, hfirst⟩ := hdialogue
  refine ⟨front, execution_bind.mpr (Or.inl ⟨error, hfront, rfl⟩), ?_⟩
  rcases hfirst with rfl | ⟨reason, call, hreason, hlast⟩
  · exact Or.inl rfl
  · cases hreason
    exact Or.inr ⟨reason, call, rfl, hlast⟩

theorem Plays.bind_last (hdialogue : Plays dialogue first (.ok value))
    (hnext : Plays (next value) [] outcome) : Plays (dialogue >>= next) first outcome := by
  have hbind := hdialogue.bind_ok hnext
  rwa [List.append_nil] at hbind

theorem plays_pure (value : α) : Plays (pure value : CompletionM δ α) [] (.ok value) :=
  ⟨[], .done, Or.inl rfl⟩

theorem plays_fail (error : CompletionError) :
    Plays (fail error : CompletionM δ α) [] (.error error) :=
  ⟨[], .done, Or.inl rfl⟩

theorem plays_sleep {seconds : ℚ} {rest : CompletionM δ β}
    (hrest : Plays rest second outcome) :
    Plays (ask (.sleep seconds) fun slept ↦ completed rest slept) second outcome := by
  obtain ⟨back, hback, hsecond⟩ := hrest
  exact ⟨⟨.sleep seconds, .ok ()⟩ :: back, execution_ask.mpr ⟨_, _, rfl, hback⟩, hsecond⟩

theorem plays_sleep_interrupted {seconds : ℚ} {rest : CompletionM δ β} (reason : String) :
    Plays (ask (.sleep seconds) fun slept ↦ completed rest slept) []
      (.error (.interrupted reason)) :=
  ⟨[⟨.sleep seconds, .error (.interrupted reason)⟩], execution_ask.mpr ⟨_, _, rfl, .done⟩,
    Or.inl rfl⟩

end Rules

/-- A call that does not end the completion is sent. -/
theorem calls_of_ok (script : Script δ) (ordinal : ℕ) (messages : Messages) {last : CallEnd δ}
    (hlast : outcomeOf (CompletionRetry.physicalCall script messages ordinal).ending = .ok last) :
    (CompletionRetry.physicalCall script messages ordinal).calls = [⟨ordinal, messages⟩] := by
  rw [CompletionRetry.physicalCall] at hlast ⊢
  cases hdispatch : script.dispatch ordinal messages with
  | notPrepared reason =>
    rw [hdispatch] at hlast
    cases hlast
  | _ => rfl

/-- The dialogue of an outer attempt of one call. -/
theorem plays_last (script : Script δ) (ordinal : ℕ) (messages : Messages) :
    Plays (CompletionDialogue.physicalCall (ordinal + 1) messages >>= fun ending ↦
        (pure (ordinal + 1, ending) : CompletionM δ (ℕ × CallEnd δ)))
      (CompletionRetry.physicalCall script messages (ordinal + 1)).calls
      (reachedOf
        (ordinal + (CompletionRetry.physicalCall script messages (ordinal + 1)).calls.length)
        (CompletionRetry.physicalCall script messages (ordinal + 1)).ending) := by
  have hplays := plays_physicalCall script (ordinal + 1) messages
  rw [reachedOf]
  cases hlast : outcomeOf (CompletionRetry.physicalCall script messages (ordinal + 1)).ending with
  | error error =>
    rw [hlast] at hplays
    exact hplays.bind_error
  | ok last =>
    rw [hlast] at hplays
    rw [calls_of_ok script (ordinal + 1) messages hlast] at hplays ⊢
    exact hplays.bind_last (plays_pure _)

theorem plays_transportAttempts (script : Script δ) (ordinal : ℕ) (messages : Messages)
    (retries retryIndex : ℕ) :
    Plays (CompletionDialogue.transportAttempts messages retries retryIndex ordinal)
      (CompletionRetry.transportAttempts script messages retries retryIndex ordinal).calls
      (reachedOf (ordinal +
        (CompletionRetry.transportAttempts script messages retries retryIndex ordinal).calls.length)
        (CompletionRetry.transportAttempts script messages retries retryIndex ordinal).ending) := by
  induction retries generalizing retryIndex ordinal with
  | zero => exact plays_last script ordinal messages
  | succ retries ih =>
    have hplays := plays_physicalCall script (ordinal + 1) messages
    have hcalls := @calls_of_ok δ script (ordinal + 1) messages
    rw [CompletionDialogue.transportAttempts, CompletionRetry.transportAttempts]
    generalize CompletionRetry.physicalCall script messages (ordinal + 1) = call at *
    obtain ⟨calls, ending⟩ := call
    cases ending with
    | raised error => exact hplays.bind_error
    | returned receipt =>
      obtain rfl := hcalls rfl
      exact hplays.bind_last (plays_pure _)
    | malformed receipt message =>
      obtain rfl := hcalls rfl
      exact hplays.bind_last (plays_pure _)
    | failed error =>
      obtain rfl := hcalls rfl
      by_cases hretryable : isTransportRetryable error
      · simp only [if_pos hretryable]
        cases script.sleep (ordinal + 1) (1 / 2 * 2 ^ retryIndex) with
        | some reason =>
          refine hplays.bind_last ?_
          simp only [if_pos hretryable]
          exact plays_sleep_interrupted reason
        | none =>
          refine hplays.bind_ok ?_
          simp only [if_pos hretryable, List.length_append, List.length_singleton,
            ← Nat.add_assoc]
          exact plays_sleep (ih (ordinal + 1) (retryIndex + 1))
      · simp only [if_neg hretryable]
        refine hplays.bind_last ?_
        simp only [if_neg hretryable]
        exact plays_pure _

theorem plays_outerAttempts (script : Script δ)
    (maxTransportRetries attempts outerIndex ordinal : ℕ) (messages : Messages) :
    Plays
      (CompletionDialogue.outerAttempts maxTransportRetries attempts outerIndex ordinal messages)
      (CompletionRetry.outerAttempts script maxTransportRetries attempts outerIndex ordinal
        messages).calls
      (CompletionRetry.outerAttempts script maxTransportRetries attempts outerIndex ordinal
        messages).result := by
  induction attempts generalizing outerIndex ordinal messages with
  | zero => exact plays_fail .boundExceeded
  | succ attempts ih =>
    have hplays := plays_transportAttempts script ordinal messages maxTransportRetries 0
    rw [CompletionDialogue.outerAttempts, CompletionRetry.outerAttempts]
    generalize CompletionRetry.transportAttempts script messages maxTransportRetries 0 ordinal =
      outer at *
    obtain ⟨calls, ending⟩ := outer
    cases ending with
    | raised error => exact hplays.bind_error
    | returned receipt => exact hplays.bind_last (plays_pure receipt)
    | malformed receipt message =>
      by_cases hnone : attempts = 0
      · simp only [if_pos hnone]
        exact hplays.bind_last (plays_fail _)
      · simp only [if_neg hnone]
        exact hplays.bind_ok (ih _ _ _)
    | failed error =>
      by_cases hagain : isOuterRateLimit error ∧ attempts ≠ 0
      · simp only [if_pos hagain]
        cases script.sleep (ordinal + calls.length) (5 * 2 ^ outerIndex) with
        | some reason =>
          refine hplays.bind_last ?_
          simp only [if_pos hagain]
          exact plays_sleep_interrupted reason
        | none =>
          refine hplays.bind_ok ?_
          simp only [if_pos hagain]
          exact plays_sleep (ih _ _ _)
      · simp only [if_neg hagain]
        refine hplays.bind_last ?_
        simp only [if_neg hagain]
        exact plays_fail _

/-- The calls of a script and their result are those of an execution. -/
theorem execution_of_script (script : Script δ) (messages : Messages)
    (maxOuterAttempts maxTransportRetries : ℕ) :
    Plays
      (CompletionDialogue.executeModelCompletionRetry messages maxOuterAttempts
        maxTransportRetries)
      (CompletionRetry.executeModelCompletionRetry script messages maxOuterAttempts
        maxTransportRetries).calls
      (CompletionRetry.executeModelCompletionRetry script messages maxOuterAttempts
        maxTransportRetries).result := by
  rw [CompletionDialogue.executeModelCompletionRetry, CompletionRetry.executeModelCompletionRetry]
  by_cases houter : maxOuterAttempts < 1
  · rw [if_pos houter, if_pos (by exact_mod_cast houter)]
    exact plays_fail _
  · rw [if_neg houter, if_neg (by exact_mod_cast houter), if_neg (by omega)]
    exact plays_outerAttempts script maxTransportRetries maxOuterAttempts 0 0 messages

end Oamb.Runtime.CompletionScripts
