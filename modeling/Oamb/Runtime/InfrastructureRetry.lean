import Mathlib.Algebra.Ring.Nat
import Mathlib.Data.List.Range
import Oamb.Foundation.LabelledRuns

/-!
# Infrastructure retries under a shared limit

A call that the model supplier rejects is repeated after a pause, as long as the controller of its
operation grants the units that the rejection costs. Operations may share a controller, and each of
them may go on between any two steps of the others. In every such run an operation ends after one
call more than the controller has units, has every rejection persisted once before it pauses or
gives up, and doubles its pauses without a bound of their own (`disciplined_of_run`).
-/

set_option autoImplicit false

namespace Oamb.Runtime.InfrastructureRetry

open Foundation.LabelledRuns

/-! ### The controller -/

/-- The retries that are consumed, under their limit. -/
structure RetryController where
  maximum : ℕ
  consumed : ℕ
  within : consumed ≤ maximum

/-- A controller of which nothing is consumed. -/
def RetryController.initial (maximum : ℕ) : RetryController := ⟨maximum, 0, Nat.zero_le maximum⟩

/-- Consume the units of a retry when they are left. No other reservation comes between the check
and the update: the lock around them is never held over a suspension. -/
def RetryController.reserve (controller : RetryController) (units : ℕ) : Bool × RetryController :=
  if hfits : controller.consumed + units ≤ controller.maximum then
    (true, ⟨controller.maximum, controller.consumed + units, hfits⟩)
  else (false, controller)

/-- The pauses before the first retries, in seconds. -/
def infrastructureRetryBackoffSeconds : List ℕ := [1, 2]

/-- The pause before a retry. The last of the given pauses is doubled for each retry behind them. -/
def backoffSeconds (retryOrdinal : ℕ) : ℕ :=
  let seedIndex := retryOrdinal - 1
  match infrastructureRetryBackoffSeconds[seedIndex]? with
  | some seconds => seconds
  | none =>
    let additionalDoublings := seedIndex - infrastructureRetryBackoffSeconds.length + 1
    infrastructureRetryBackoffSeconds.getLastD 0 <<< additionalDoublings

theorem backoffSeconds_succ (index : ℕ) : backoffSeconds (index + 1) = 2 ^ index := by
  match index with
  | 0 => rfl
  | 1 => rfl
  | index + 2 =>
    show 2 <<< (index + 2 - 2 + 1) = 2 ^ (index + 2)
    rw [Nat.shiftLeft_eq, Nat.add_sub_cancel, ← pow_succ']

/-! ### One operation -/

variable {α ε δ ι : Type}

/-- A rejection by the supplier, with its other members. -/
structure SupplierRejection (δ : Type) where
  internalRetryCount : ℕ
  details : δ

/-- The units that a retry after a rejection costs. -/
def SupplierRejection.units (rejection : SupplierRejection δ) : ℕ :=
  1 + rejection.internalRetryCount

/-- What a call comes to. -/
inductive CallOutcome (α ε δ : Type)
  | returned (value : α)
  | rejected (rejection : SupplierRejection δ)
  | raised (error : ε)

/-- What a pause comes to. -/
inductive PauseOutcome (ε : Type)
  | completed
  | cancelled
  | raised (error : ε)

/-- What an operation comes to. -/
inductive Ending (α ε δ : Type)
  | returned (value : α)
  | raised (error : ε)
  | exhausted (lastRejection : SupplierRejection δ)
  | backoffCancelled

/-- Where an operation stands. -/
inductive Phase (α ε δ : Type)
  | calling (ordinal : ℕ)
  | reserving (ordinal : ℕ) (rejection : SupplierRejection δ)
  | persisting (ordinal : ℕ) (rejection : SupplierRejection δ) (backoff : Option ℕ)
  | pausing (ordinal seconds : ℕ)
  | ended (ending : Ending α ε δ)

/-- What happens to an operation. -/
inductive Event (α ε δ : Type)
  | called (ordinal : ℕ) (outcome : CallOutcome α ε δ)
  | reserved (units : ℕ) (granted : Bool)
  | persisted (ordinal : ℕ) (rejection : SupplierRejection δ) (backoff : Option ℕ)
    (outcome : Except ε Unit)
  | paused (seconds : ℕ) (outcome : PauseOutcome ε)

/-- Only a rejection is retried. -/
def afterCall (ordinal : ℕ) : CallOutcome α ε δ → Phase α ε δ
  | .returned value => .ended (.returned value)
  | .rejected rejection => .reserving ordinal rejection
  | .raised error => .ended (.raised error)

/-- A retry that is granted has a pause before it. -/
def afterReservation (ordinal : ℕ) (rejection : SupplierRejection δ) (granted : Bool) :
    Phase α ε δ :=
  .persisting ordinal rejection (if granted then some (backoffSeconds ordinal) else none)

/-- An operation pauses, or gives up, once its rejection is persisted. -/
def afterPersistence (ordinal : ℕ) (rejection : SupplierRejection δ) :
    Option ℕ → Except ε Unit → Phase α ε δ
  | _, .error error => .ended (.raised error)
  | none, .ok () => .ended (.exhausted rejection)
  | some seconds, .ok () => .pausing ordinal seconds

/-- A pause that is over is followed by the next call. -/
def afterPause (ordinal : ℕ) : PauseOutcome ε → Phase α ε δ
  | .completed => .calling (ordinal + 1)
  | .cancelled => .ended .backoffCancelled
  | .raised error => .ended (.raised error)

/-- One step of an operation, between two of its suspensions. -/
inductive OperationStep : Phase α ε δ → Event α ε δ → Phase α ε δ → Prop
  | call {ordinal : ℕ} (outcome : CallOutcome α ε δ) :
    OperationStep (.calling ordinal) (.called ordinal outcome) (afterCall ordinal outcome)
  | reserve {ordinal : ℕ} {rejection : SupplierRejection δ} (granted : Bool) :
    OperationStep (.reserving ordinal rejection) (.reserved rejection.units granted)
      (afterReservation ordinal rejection granted)
  | persist {ordinal : ℕ} {rejection : SupplierRejection δ} {backoff : Option ℕ}
    (outcome : Except ε Unit) :
    OperationStep (.persisting ordinal rejection backoff)
      (.persisted ordinal rejection backoff outcome)
      (afterPersistence ordinal rejection backoff outcome)
  | pause {ordinal seconds : ℕ} (outcome : PauseOutcome ε) :
    OperationStep (.pausing ordinal seconds) (.paused seconds outcome) (afterPause ordinal outcome)

/-! ### Operations that share a controller -/

/-- A controller, and the operations that share it. -/
structure System (ι α ε δ : Type) where
  controller : RetryController
  operations : ι → Phase α ε δ

/-- Every operation is before its first call. -/
def System.initial (maximum : ℕ) : System ι α ε δ :=
  ⟨.initial maximum, fun _ ↦ .calling 1⟩

/-- The controller after an event, if that is its answer to a reservation. -/
def RetryController.after (controller : RetryController) :
    Event α ε δ → Option RetryController
  | .reserved units granted =>
    if (controller.reserve units).1 = granted then some (controller.reserve units).2 else none
  | _ => some controller

/-- One step of one of the operations. -/
inductive Step [DecidableEq ι] :
    System ι α ε δ → ι × Event α ε δ → System ι α ε δ → Prop
  | operation {system : System ι α ε δ} {index : ι} {event : Event α ε δ} {phase : Phase α ε δ}
    {controller : RetryController} (hstep : OperationStep (system.operations index) event phase)
    (hcontroller : system.controller.after event = some controller) :
    Step system (index, event) ⟨controller, Function.update system.operations index phase⟩

/-! ### The trace of one operation -/

section Traces

/-- The ordinals of the calls. -/
def calls (trace : List (Event α ε δ)) : List ℕ :=
  trace.filterMap fun
    | .called ordinal _ => some ordinal
    | _ => none

/-- The ordinals of the calls whose rejection is persisted, or was to be. -/
def persistences (trace : List (Event α ε δ)) : List ℕ :=
  trace.filterMap fun
    | .persisted ordinal _ _ _ => some ordinal
    | _ => none

/-- The units that a reservation was granted. -/
def Event.grantedUnits : Event α ε δ → ℕ
  | .reserved units true => units
  | _ => 0

/-- The units that reservations were granted. -/
def grantedUnits (trace : List (Event α ε δ)) : ℕ := (trace.map Event.grantedUnits).sum

/-- The events of a round of an operation: a call, its rejection, and the pause behind it. -/
def round (ordinal : ℕ) (rejection : SupplierRejection δ) : List (Event α ε δ) :=
  [.called ordinal (.rejected rejection), .reserved rejection.units true,
    .persisted ordinal rejection (some (2 ^ (ordinal - 1))) (.ok ()),
    .paused (2 ^ (ordinal - 1)) .completed]

/-- The rounds of rejections, one after the other. -/
def rounds : ℕ → List (SupplierRejection δ) → List (Event α ε δ)
  | _, [] => []
  | ordinal, rejection :: rejections => round ordinal rejection ++ rounds (ordinal + 1) rejections

/-- The events of an operation behind its last full round, and where they lead. -/
inductive LastRound (ordinal : ℕ) : List (Event α ε δ) → Phase α ε δ → Prop
  | calling : LastRound ordinal [] (.calling ordinal)
  | returned (value : α) :
    LastRound ordinal [.called ordinal (.returned value)] (.ended (.returned value))
  | raised (error : ε) :
    LastRound ordinal [.called ordinal (.raised error)] (.ended (.raised error))
  | reserving (rejection : SupplierRejection δ) :
    LastRound ordinal [.called ordinal (.rejected rejection)] (.reserving ordinal rejection)
  | persisting (rejection : SupplierRejection δ) :
    LastRound ordinal
      [.called ordinal (.rejected rejection), .reserved rejection.units true]
      (.persisting ordinal rejection (some (2 ^ (ordinal - 1))))
  | refused (rejection : SupplierRejection δ) :
    LastRound ordinal
      [.called ordinal (.rejected rejection), .reserved rejection.units false]
      (.persisting ordinal rejection none)
  | notPersisted (rejection : SupplierRejection δ) (error : ε) :
    LastRound ordinal
      [.called ordinal (.rejected rejection), .reserved rejection.units true,
        .persisted ordinal rejection (some (2 ^ (ordinal - 1))) (.error error)]
      (.ended (.raised error))
  | notPersistedRefused (rejection : SupplierRejection δ) (error : ε) :
    LastRound ordinal
      [.called ordinal (.rejected rejection), .reserved rejection.units false,
        .persisted ordinal rejection none (.error error)]
      (.ended (.raised error))
  | exhausted (rejection : SupplierRejection δ) :
    LastRound ordinal
      [.called ordinal (.rejected rejection), .reserved rejection.units false,
        .persisted ordinal rejection none (.ok ())]
      (.ended (.exhausted rejection))
  | pausing (rejection : SupplierRejection δ) :
    LastRound ordinal
      [.called ordinal (.rejected rejection), .reserved rejection.units true,
        .persisted ordinal rejection (some (2 ^ (ordinal - 1))) (.ok ())]
      (.pausing ordinal (2 ^ (ordinal - 1)))
  | cancelled (rejection : SupplierRejection δ) :
    LastRound ordinal
      [.called ordinal (.rejected rejection), .reserved rejection.units true,
        .persisted ordinal rejection (some (2 ^ (ordinal - 1))) (.ok ()),
        .paused (2 ^ (ordinal - 1)) .cancelled]
      (.ended .backoffCancelled)
  | notPaused (rejection : SupplierRejection δ) (error : ε) :
    LastRound ordinal
      [.called ordinal (.rejected rejection), .reserved rejection.units true,
        .persisted ordinal rejection (some (2 ^ (ordinal - 1))) (.ok ()),
        .paused (2 ^ (ordinal - 1)) (.raised error)]
      (.ended (.raised error))

/-- The events of an operation are full rounds with an ordinal each, and a last round that may stop
anywhere. -/
def InRounds (trace : List (Event α ε δ)) (phase : Phase α ε δ) : Prop :=
  ∃ rejections last, trace = rounds 1 rejections ++ last ∧
    LastRound (rejections.length + 1) last phase

theorem rounds_concat (ordinal : ℕ) (rejections : List (SupplierRejection δ))
    (rejection : SupplierRejection δ) :
    (rounds ordinal (rejections ++ [rejection]) : List (Event α ε δ)) =
      rounds ordinal rejections ++ round (ordinal + rejections.length) rejection := by
  induction rejections generalizing ordinal with
  | nil => exact List.append_nil _
  | cons first rejections ih =>
    rw [List.cons_append, rounds, rounds, ih, List.append_assoc, List.length_cons,
      Nat.add_right_comm, Nat.add_assoc ordinal]

variable {trace : List (Event α ε δ)} {phase next : Phase α ε δ} {event : Event α ε δ}

theorem InRounds.step (hrounds : InRounds trace phase) (hstep : OperationStep phase event next) :
    InRounds (trace ++ [event]) next := by
  obtain ⟨rejections, last, rfl, hlast⟩ := hrounds
  have hbackoff := backoffSeconds_succ rejections.length
  have hround : ∀ {later : List (Event α ε δ)} {next : Phase α ε δ},
      LastRound (rejections.length + 1) (last ++ later) next →
        InRounds (rounds 1 rejections ++ last ++ later) next :=
    fun hnext ↦ ⟨rejections, _, List.append_assoc _ _ _, hnext⟩
  cases hstep with
  | call outcome =>
    cases hlast
    cases outcome with
    | returned value => exact hround (.returned value)
    | rejected rejection => exact hround (.reserving rejection)
    | raised error => exact hround (.raised error)
  | @reserve ordinal rejection granted =>
    cases hlast
    cases granted with
    | false => exact hround (.refused rejection)
    | true =>
      rw [afterReservation, if_pos rfl, hbackoff]
      exact hround (.persisting rejection)
  | @persist ordinal rejection backoff outcome =>
    cases hlast with
    | persisting =>
      cases outcome with
      | error error => exact hround (.notPersisted rejection error)
      | ok => exact hround (.pausing rejection)
    | refused =>
      cases outcome with
      | error error => exact hround (.notPersistedRefused rejection error)
      | ok => exact hround (.exhausted rejection)
  | pause outcome =>
    cases hlast with
    | pausing rejection =>
      cases outcome with
      | cancelled => exact hround (.cancelled rejection)
      | raised error => exact hround (.notPaused rejection error)
      | completed =>
        refine ⟨rejections ++ [rejection], [], ?_, ?_⟩
        · rw [rounds_concat, Nat.add_comm 1, List.append_nil, List.append_assoc]
          rfl
        · rw [List.length_append]
          exact .calling

theorem inRounds_of_run (hrun : Run OperationStep (.calling 1) trace phase) :
    InRounds trace phase :=
  hrun.history ⟨[], [], rfl, .calling⟩ fun _ _ _ _ hrounds hstep ↦ hrounds.step hstep

/-! ### What holds of the rounds -/

theorem length_rounds (ordinal : ℕ) (rejections : List (SupplierRejection δ)) :
    (rounds ordinal rejections : List (Event α ε δ)).length = 4 * rejections.length := by
  induction rejections generalizing ordinal with
  | nil => rfl
  | cons rejection rejections ih =>
    rw [rounds, List.length_append, ih, List.length_cons, round]
    simp only [List.length_cons, List.length_nil]
    omega

theorem calls_rounds (ordinal : ℕ) (rejections : List (SupplierRejection δ)) :
    calls (rounds ordinal rejections : List (Event α ε δ)) =
      List.range' ordinal rejections.length := by
  induction rejections generalizing ordinal with
  | nil => rfl
  | cons rejection rejections ih =>
    rw [rounds, calls, List.filterMap_append, ← calls, ← calls, ih, List.length_cons,
      List.range'_succ]
    rfl

theorem persistences_rounds (ordinal : ℕ) (rejections : List (SupplierRejection δ)) :
    persistences (rounds ordinal rejections : List (Event α ε δ)) =
      List.range' ordinal rejections.length := by
  induction rejections generalizing ordinal with
  | nil => rfl
  | cons rejection rejections ih =>
    rw [rounds, persistences, List.filterMap_append, ← persistences, ← persistences, ih,
      List.length_cons, List.range'_succ]
    rfl

theorem grantedUnits_append (first second : List (Event α ε δ)) :
    grantedUnits (first ++ second) = grantedUnits first + grantedUnits second := by
  rw [grantedUnits, List.map_append, List.sum_append, grantedUnits, grantedUnits]

/-- Every round costs a unit at least. -/
theorem length_le_grantedUnits (ordinal : ℕ) (rejections : List (SupplierRejection δ)) :
    rejections.length ≤ grantedUnits (rounds ordinal rejections : List (Event α ε δ)) := by
  induction rejections generalizing ordinal with
  | nil => exact Nat.zero_le _
  | cons rejection rejections ih =>
    have hround : grantedUnits (round ordinal rejection : List (Event α ε δ)) =
        1 + rejection.internalRetryCount := by
      simp [grantedUnits, round, Event.grantedUnits, SupplierRejection.units]
    have hrest := ih (ordinal + 1)
    rw [rounds, grantedUnits_append, hround, List.length_cons]
    omega

/-- The calls of a last round are none or its own. -/
theorem LastRound.calls_eq {ordinal : ℕ} {last : List (Event α ε δ)}
    (hlast : LastRound ordinal last phase) : calls last = [] ∨ calls last = [ordinal] := by
  cases hlast with
  | calling => exact Or.inl rfl
  | _ => exact Or.inr rfl

/-- A last round persists its own rejection or none. -/
theorem LastRound.persistences_eq {ordinal : ℕ} {last : List (Event α ε δ)}
    (hlast : LastRound ordinal last phase) :
    persistences last = [] ∨ persistences last = [ordinal] := by
  cases hlast with
  | calling | returned | raised | reserving | persisting | refused => exact Or.inl rfl
  | _ => exact Or.inr rfl

theorem LastRound.length_le {ordinal : ℕ} {last : List (Event α ε δ)}
    (hlast : LastRound ordinal last phase) : last.length ≤ 4 := by
  cases hlast <;> simp

/-- Ordinals from one, and maybe the next one, are the ordinals up to their number. -/
theorem range'_append_eq {count : ℕ} {later : List ℕ} (hlater : later = [] ∨ later = [count + 1]) :
    List.range' 1 count ++ later = List.range' 1 (List.range' 1 count ++ later).length := by
  rcases hlater with rfl | rfl
  · rw [List.append_nil, List.length_range']
  · rw [List.length_append, List.length_range', List.length_singleton, List.range'_concat,
      Nat.one_mul, Nat.add_comm 1]

/-- An error that a call raises is the end of its operation. -/
theorem raised_of_run (hrun : Run OperationStep (.calling 1) trace phase)
    {before after : List (Event α ε δ)} {ordinal : ℕ} {error : ε}
    (htrace : trace = before ++ .called ordinal (.raised error) :: after) :
    after = [] ∧ phase = .ended (.raised error) := by
  induction hrun generalizing after with
  | nil => simp at htrace
  | snoc hrun hstep ih =>
    rcases List.eq_nil_or_concat after with rfl | ⟨rest, last, rfl⟩
    · obtain ⟨-, hlast⟩ := List.append_inj' htrace rfl
      cases hlast
      cases hstep
      exact ⟨rfl, rfl⟩
    · rw [List.concat_eq_append, ← List.cons_append, ← List.append_assoc] at htrace
      have hended := (ih (List.append_inj' htrace rfl).1).2
      rw [hended] at hstep
      cases hstep

/-- A reservation follows a rejection, whose units it asks for. -/
theorem reserved_of_run {before after : List (Event α ε δ)} {units : ℕ} {granted : Bool}
    (hrun : Run OperationStep (.calling 1) (before ++ .reserved units granted :: after) phase) :
    ∃ earlier ordinal rejection, units = SupplierRejection.units rejection ∧
      before = earlier ++ [.called ordinal (.rejected rejection)] := by
  obtain ⟨state, _, hbefore, hstep⟩ := hrun.split
  cases hstep with
  | reserve granted =>
    obtain ⟨rejections, last, rfl, hlast⟩ := inRounds_of_run hbefore
    cases hlast with
    | reserving => exact ⟨_, _, _, rfl, rfl⟩

/-- A pause follows the persistence of a rejection, and is twice as long as the one before it. -/
theorem paused_of_run {before after : List (Event α ε δ)} {seconds : ℕ} {outcome : PauseOutcome ε}
    (hrun : Run OperationStep (.calling 1) (before ++ .paused seconds outcome :: after) phase) :
    ∃ earlier ordinal rejection, seconds = 2 ^ (ordinal - 1) ∧
      before = earlier ++ [.called ordinal (.rejected rejection), .reserved rejection.units true,
        .persisted ordinal rejection (some seconds) (.ok ())] := by
  obtain ⟨state, _, hbefore, hstep⟩ := hrun.split
  cases hstep with
  | pause outcome =>
    obtain ⟨rejections, last, rfl, hlast⟩ := inRounds_of_run hbefore
    cases hlast with
    | pausing rejection => exact ⟨_, _, rejection, rfl, rfl⟩

/-- An operation gives up once its last rejection, whose units were refused, is persisted. -/
theorem exhausted_of_run {rejection : SupplierRejection δ}
    (hrun : Run OperationStep (.calling 1) trace (.ended (.exhausted rejection))) :
    ∃ (earlier : List (Event α ε δ)) (ordinal : ℕ),
      trace = earlier ++ [.called ordinal (.rejected rejection), .reserved rejection.units false,
        .persisted ordinal rejection none (.ok ())] := by
  obtain ⟨rejections, last, rfl, hlast⟩ := inRounds_of_run hrun
  cases hlast with
  | exhausted => exact ⟨_, _, rfl⟩

end Traces

/-! ### The runs of a system -/

section Runs

variable [DecidableEq ι]

/-- The events of one operation. -/
def ofOperation (index : ι) (labels : List (ι × Event α ε δ)) : List (Event α ε δ) :=
  labels.filterMap fun label ↦ if label.1 = index then some label.2 else none

/-- What holds of the events of an operation under a controller with a maximum. -/
structure Disciplined (maximum : ℕ) (trace : List (Event α ε δ)) (phase : Phase α ε δ) :
    Prop where
  calls_eq : calls trace = List.range' 1 (calls trace).length
  calls_le : (calls trace).length ≤ maximum + 1
  length_le : trace.length ≤ 4 * (maximum + 1)
  persistences_nodup : (persistences trace).Nodup
  reserved : ∀ {before after units granted}, trace = before ++ .reserved units granted :: after →
    ∃ earlier ordinal rejection, units = SupplierRejection.units rejection ∧
      before = earlier ++ [.called ordinal (.rejected rejection)]
  paused : ∀ {before after seconds outcome}, trace = before ++ .paused seconds outcome :: after →
    ∃ earlier ordinal rejection, seconds = 2 ^ (ordinal - 1) ∧
      before = earlier ++ [.called ordinal (.rejected rejection), .reserved rejection.units true,
        .persisted ordinal rejection (some seconds) (.ok ())]
  exhausted : ∀ {rejection}, phase = .ended (.exhausted rejection) → ∃ earlier ordinal,
    trace = earlier ++ [.called ordinal (.rejected rejection), .reserved rejection.units false,
      .persisted ordinal rejection none (.ok ())]
  raised : ∀ {before after ordinal error},
    trace = before ++ .called ordinal (.raised error) :: after →
      after = [] ∧ phase = .ended (.raised error)

variable {labels : List (ι × Event α ε δ)} {system final : System ι α ε δ}

theorem ofOperation_concat (index : ι) (label : ι × Event α ε δ) :
    ofOperation index (labels ++ [label]) =
      ofOperation index labels ++ if label.1 = index then [label.2] else [] := by
  rw [ofOperation, List.filterMap_append, ← ofOperation]
  by_cases hindex : label.1 = index
  · simp [hindex]
  · simp [hindex]

/-- The units of one operation are among those of all of them. -/
theorem grantedUnits_ofOperation_le (index : ι) (labels : List (ι × Event α ε δ)) :
    grantedUnits (ofOperation index labels) ≤ grantedUnits (labels.map Prod.snd) := by
  induction labels using List.reverseRecOn with
  | nil => exact le_rfl
  | append_singleton labels label ih =>
    rw [ofOperation_concat, List.map_append, grantedUnits_append, grantedUnits_append]
    by_cases hindex : label.1 = index
    · rw [if_pos hindex]
      exact Nat.add_le_add_right ih _
    · rw [if_neg hindex]
      exact Nat.add_le_add ih (Nat.zero_le _)

/-- An operation of a system goes through its own steps. -/
theorem operation_of_run {maximum : ℕ} (hrun : Run Step (.initial maximum) labels final)
    (index : ι) :
    Run OperationStep (.calling 1) (ofOperation index labels) (final.operations index) := by
  induction hrun with
  | nil => exact .nil
  | snoc hrun hstep ih =>
    cases hstep with
    | @operation other event phase controller hstep hcontroller =>
      rw [ofOperation_concat]
      by_cases hindex : other = index
      · subst hindex
        simp only [if_pos, Function.update_self]
        exact ih.snoc hstep
      · simp only [if_neg hindex, List.append_nil, Function.update_of_ne (Ne.symm hindex)]
        exact ih

/-- What an answer of the controller consumes is what it grants. -/
theorem RetryController.consumed_after {controller next : RetryController} {event : Event α ε δ}
    (hnext : controller.after event = some next) :
    next.maximum = controller.maximum ∧
      next.consumed = controller.consumed + event.grantedUnits := by
  cases event with
  | reserved units granted =>
    rw [after, reserve] at hnext
    by_cases hfits : controller.consumed + units ≤ controller.maximum
    · rw [dif_pos hfits] at hnext
      cases granted with
      | false => cases hnext
      | true =>
        cases hnext
        exact ⟨rfl, rfl⟩
    · rw [dif_neg hfits] at hnext
      cases granted with
      | true => cases hnext
      | false =>
        cases hnext
        exact ⟨rfl, rfl⟩
  | _ =>
    cases hnext
    exact ⟨rfl, rfl⟩

/-- What is consumed in a run is what its reservations were granted. -/
theorem consumed_of_run {maximum : ℕ} (hrun : Run Step (.initial maximum) labels final) :
    final.controller.maximum = maximum ∧
      final.controller.consumed = grantedUnits (labels.map Prod.snd) := by
  induction hrun with
  | nil => exact ⟨rfl, rfl⟩
  | snoc hrun hstep ih =>
    cases hstep with
    | operation hstep hcontroller =>
      obtain ⟨hmaximum, hconsumed⟩ := RetryController.consumed_after hcontroller
      refine ⟨hmaximum.trans ih.1, hconsumed.trans ?_⟩
      rw [ih.2, List.map_append, grantedUnits_append]
      rfl

/-- The operations of a system are disciplined. -/
theorem disciplined_of_operation {maximum : ℕ} (hrun : Run Step (.initial maximum) labels final)
    (index : ι) :
    Disciplined maximum (ofOperation index labels) (final.operations index) := by
  have hoperation := operation_of_run hrun index
  obtain ⟨rejections, last, htrace, hlast⟩ := inRounds_of_run hoperation
  have hrounds : rejections.length ≤ maximum := by
    calc rejections.length
        ≤ grantedUnits (rounds 1 rejections : List (Event α ε δ)) := length_le_grantedUnits 1 _
      _ ≤ grantedUnits (ofOperation index labels) := by
        rw [htrace, grantedUnits_append]
        exact Nat.le_add_right _ _
      _ ≤ final.controller.consumed := by
        rw [(consumed_of_run hrun).2]
        exact grantedUnits_ofOperation_le index labels
      _ ≤ maximum := (consumed_of_run hrun).1 ▸ final.controller.within
  have hcalls : calls (ofOperation index labels) =
      List.range' 1 rejections.length ++ calls last := by
    rw [htrace, calls, List.filterMap_append, ← calls, ← calls, calls_rounds]
  have hpersistences : persistences (ofOperation index labels) =
      List.range' 1 rejections.length ++ persistences last := by
    rw [htrace, persistences, List.filterMap_append, ← persistences, ← persistences,
      persistences_rounds]
  constructor
  case calls_eq =>
    rw [hcalls]
    exact range'_append_eq hlast.calls_eq
  case calls_le =>
    rw [hcalls, List.length_append, List.length_range']
    rcases hlast.calls_eq with hnone | hone
    · rw [hnone, List.length_nil]
      omega
    · rw [hone, List.length_singleton]
      omega
  case length_le =>
    have hlength := hlast.length_le
    rw [htrace, List.length_append, length_rounds]
    omega
  case persistences_nodup =>
    rw [hpersistences, range'_append_eq hlast.persistences_eq]
    exact List.nodup_range'
  case reserved =>
    intro before after units granted hsplit
    exact reserved_of_run (hsplit ▸ hoperation)
  case paused =>
    intro before after seconds outcome hsplit
    exact paused_of_run (hsplit ▸ hoperation)
  case exhausted =>
    intro rejection hended
    exact exhausted_of_run (hended ▸ hoperation)
  case raised => exact raised_of_run hoperation

/-- An operation goes on with every answer to what it waits for, until it ended. -/
def GoesOn (system : System ι α ε δ) (index : ι) : Prop :=
  match system.operations index with
  | .calling ordinal => ∀ outcome, ∃ next, Step system (index, .called ordinal outcome) next
  | .reserving _ rejection => ∃ granted next,
    Step system (index, .reserved rejection.units granted) next
  | .persisting ordinal rejection backoff => ∀ outcome, ∃ next,
    Step system (index, .persisted ordinal rejection backoff outcome) next
  | .pausing _ seconds => ∀ outcome, ∃ next, Step system (index, .paused seconds outcome) next
  | .ended _ => True

/-- A step of an operation that stands in a phase. -/
theorem exists_step {index : ι} {phase next : Phase α ε δ} {event : Event α ε δ}
    {controller : RetryController} (hphase : system.operations index = phase)
    (hstep : OperationStep phase event next)
    (hcontroller : system.controller.after event = some controller) :
    ∃ next, Step system (index, event) next := by
  subst hphase
  exact ⟨_, .operation hstep hcontroller⟩

theorem goesOn (system : System ι α ε δ) (index : ι) : GoesOn system index := by
  rw [GoesOn]
  cases hphase : system.operations index with
  | calling ordinal => exact fun outcome ↦ exists_step hphase (.call outcome) rfl
  | reserving ordinal rejection =>
    exact ⟨_, exists_step hphase (.reserve _) (if_pos rfl)⟩
  | persisting ordinal rejection backoff =>
    exact fun outcome ↦ exists_step hphase (.persist outcome) rfl
  | pausing ordinal seconds => exact fun outcome ↦ exists_step hphase (.pause outcome) rfl
  | ended ending => exact trivial

/-- In every run of operations that share a controller, the controller consumes what it grants,
under its maximum, and every operation is disciplined and goes on until it ended. -/
theorem disciplined_of_run {maximum : ℕ} (hrun : Run Step (.initial maximum) labels final) :
    final.controller.consumed = grantedUnits (labels.map Prod.snd) ∧
      final.controller.consumed ≤ maximum ∧
      ∀ index, Disciplined maximum (ofOperation index labels) (final.operations index) ∧
        GoesOn final index :=
  ⟨(consumed_of_run hrun).2, (consumed_of_run hrun).1 ▸ final.controller.within,
    fun index ↦ ⟨disciplined_of_operation hrun index, goesOn final index⟩⟩

end Runs

/-! ### Runs of one operation -/

section Sample

/-- A rejection after no retries of the supplier's own. -/
def plainRejection : SupplierRejection Unit := ⟨0, ()⟩

/-- A system with one operation. -/
abbrev Single := System Unit Unit Unit Unit

/-- The one operation of a system goes on. -/
theorem Single.step {system : Single} {event : Event Unit Unit Unit} {phase : Phase Unit Unit Unit}
    {controller : RetryController} (hstep : OperationStep (system.operations ()) event phase)
    (hcontroller : system.controller.after event = some controller) :
    Step system ((), event) ⟨controller, fun _ ↦ phase⟩ := by
  have hnext := Step.operation hstep hcontroller
  rwa [show Function.update system.operations () phase = fun _ ↦ phase from
    funext fun _ ↦ Function.update_self _ _ _] at hnext

/-- As long as units are left, every round can be a rejection that is retried. -/
theorem exists_rounds (maximum : ℕ) {count : ℕ} (hcount : count ≤ maximum) :
    ∃ labels controller, Run Step (.initial maximum : Single) labels
        ⟨controller, fun _ ↦ .calling (count + 1)⟩ ∧
      controller.maximum = maximum ∧ controller.consumed = count ∧
      (0 < count → ((), .paused (backoffSeconds count) .completed) ∈ labels) := by
  induction count with
  | zero => exact ⟨[], _, .nil, rfl, rfl, fun hpos ↦ absurd hpos (Nat.lt_irrefl 0)⟩
  | succ count ih =>
    obtain ⟨labels, controller, hrun, hmaximum, hconsumed, -⟩ := ih (Nat.le_of_succ_le hcount)
    have hfits : controller.consumed + plainRejection.units ≤ controller.maximum := by
      rw [hmaximum, hconsumed]
      exact hcount
    have hreserve : controller.after (.reserved plainRejection.units true :
        Event Unit Unit Unit) = some ⟨controller.maximum, _, hfits⟩ := by
      rw [RetryController.after, RetryController.reserve, dif_pos hfits, if_pos rfl]
    refine ⟨_, _, (((hrun.snoc (Single.step (.call (.rejected plainRejection)) rfl)).snoc
      (Single.step (.reserve true) hreserve)).snoc
      (Single.step (.persist (.ok ())) rfl)).snoc (Single.step (.pause .completed) rfl),
      hmaximum, ?_, fun _ ↦ List.mem_concat_self⟩
    rw [← hconsumed]
    rfl

/-- The events of an operation that is rejected once and then returns. -/
def sampleLabels : List (Unit × Event Unit Unit Unit) :=
  [((), .called 1 (.rejected plainRejection)), ((), .reserved 1 true),
    ((), .persisted 1 plainRejection (some 1) (.ok ())), ((), .paused 1 .completed),
    ((), .called 2 (.returned ()))]

theorem sample_run : Run Step (.initial 1 : Single) sampleLabels
    ⟨⟨1, 1, le_rfl⟩, fun _ ↦ .ended (.returned ())⟩ := by
  have hrejected := Run.nil.snoc (@Single.step (.initial 1) _ _ _
    (.call (.rejected plainRejection)) rfl)
  have hreserved := hrejected.snoc (Single.step (.reserve true) rfl)
  have hpersisted := hreserved.snoc (Single.step (.persist (.ok ())) rfl)
  have hpaused := hpersisted.snoc (Single.step (.pause .completed) rfl)
  exact hpaused.snoc (Single.step (.call (.returned ())) rfl)

theorem disciplined_of_run_sample :
    Disciplined 1 (ofOperation () sampleLabels) (.ended (.returned ())) :=
  ((disciplined_of_run sample_run).2.2 ()).1

/-- No number of seconds bounds the pauses of all runs. -/
theorem pauses_unbounded :
    ¬ ∃ cap : ℕ, ∀ (maximum : ℕ) (labels : List (Unit × Event Unit Unit Unit)) (final : Single),
      Run Step (.initial maximum) labels final →
        ∀ seconds outcome, ((), .paused seconds outcome) ∈ labels → seconds ≤ cap := by
  rintro ⟨cap, hcap⟩
  obtain ⟨labels, controller, hrun, -, -, hmem⟩ := exists_rounds (cap + 1) (le_refl (cap + 1))
  have hle := hcap _ _ _ hrun _ _ (hmem (Nat.succ_pos cap))
  rw [backoffSeconds_succ] at hle
  exact absurd hle (not_le.mpr Nat.lt_two_pow_self)

end Sample

end Oamb.Runtime.InfrastructureRetry
