import Oamb.Runtime.LedgerGuarantees
import Oamb.Runtime.NativeSettlement

/-!
# What the settlement of an attempt guarantees

`Effect` says which calls on the ledger and which records a part of a run adds. The paths of a
stage are described by it one after the other, and the description of a whole path is the
composition of those of its parts.

`settledOnce_iff` is the exact condition under which a dispatched attempt leaves its reservation
settled by one call. The ingestion batch and the model call miss it for a cancellation before the
dispatch and for exhausted retries: there the failure sealer settles the reservation, and the stage
then accounts for the attempt and asks for a commit as well. `cancelled_ingest_settles_twice` is
such an attempt.
-/

set_option autoImplicit false

namespace Oamb.Runtime.SettlementGuarantees

open Foundation Foundation.StatefulExecution Contracts.AttemptRecords Contracts.NativeStages
open ResourceAmounts LedgerOperations LedgerRuns LedgerGuarantees NativeErrors NativeSettlement

/-! ### Effects -/

/-- A part of a run made some calls on the ledger and sealed some records, in this order. -/
structure Effect (calls : List Call) (records : List SourceRecord) (start final : NativeState) :
    Prop where
  ledger : final.ledger = run calls start.ledger
  ledgerCalls : final.ledgerCalls = calls.reverse ++ start.ledgerCalls
  sealedRecords : final.sealedRecords = records.reverse ++ start.sealedRecords

namespace Effect

variable {calls laterCalls : List Call} {records laterRecords : List SourceRecord}
  {start middle final : NativeState}

theorem refl (state : NativeState) : Effect [] [] state state :=
  ⟨rfl, rfl, rfl⟩

theorem trans (hfirst : Effect calls records start middle)
    (hlater : Effect laterCalls laterRecords middle final) :
    Effect (calls ++ laterCalls) (records ++ laterRecords) start final := by
  constructor
  · rw [hlater.ledger, hfirst.ledger, run, run, run, List.foldl_append]
  · rw [hlater.ledgerCalls, hfirst.ledgerCalls, List.reverse_append, List.append_assoc]
  · rw [hlater.sealedRecords, hfirst.sealedRecords, List.reverse_append, List.append_assoc]

end Effect

variable {evidence : Evidence} {prepared : PreparedNativeAttempt} {live : LiveAttempt}
  {start : NativeState}

/-! ### Single steps -/

theorem exists_of_isOk {α : Type} {result : Except NativeError α} (hok : result.isOk = true) :
    ∃ value, result = .ok value := by
  cases result with
  | ok value => exact ⟨value, rfl⟩
  | error failure => cases hok

theorem exists_of_not_isOk {α : Type} {result : Except NativeError α} (hok : ¬ result.isOk = true) :
    ∃ failure, result = .error failure := by
  cases result with
  | ok value => exact absurd rfl hok
  | error failure => exact ⟨failure, rfl⟩

theorem run_answer_ok {α : Type} (result : α) (state : NativeState) :
    (answer (.ok result)).run state = .ok result state := rfl

theorem run_answer_error {α : Type} (failure : NativeError) (state : NativeState) :
    (answer (.error failure) : NativeOperation α).run state = .error failure state := rfl

/-- The state after a call on the ledger, also when the ledger refuses it. -/
def called (call : Call) (state : NativeState) : NativeState :=
  { state with
    ledger := after call.operation state.ledger
    ledgerCalls := call :: state.ledgerCalls }

theorem effect_called (call : Call) (state : NativeState) :
    Effect [call] [] state (called call state) :=
  ⟨rfl, rfl, rfl⟩

theorem run_callLedger_of_accepted {call : Call} {state : NativeState}
    (haccepted : returns call.operation state.ledger = true) :
    (callLedger call).run state = .ok () (called call state) := by
  obtain ⟨_, ledger, hrun⟩ := returns_iff.mp haccepted
  rw [called, after_of_ok hrun]
  simp only [EStateM.run, callLedger] at hrun ⊢
  rw [hrun]

theorem run_callLedger_of_refused {call : Call} {state : NativeState}
    (hrefused : returns call.operation state.ledger = false) :
    ∃ failure, (callLedger call).run state = .error failure (called call state) := by
  obtain ⟨raised, ledger, hrun⟩ := returns_eq_false_iff.mp hrefused
  refine ⟨budgetFailure raised, ?_⟩
  rw [called, after_of_error hrun]
  simp only [EStateM.run, callLedger] at hrun ⊢
  rw [hrun]

/-- What an attempt seals when the store accepts its receipt and its terminal record. -/
def outcomeRecords (evidence : Evidence) (prepared : PreparedNativeAttempt)
    (receipt : AttemptReceiptRecord) (outcome : AttemptOutcome) : List SourceRecord :=
  [.receipt receipt, .attempt (terminalRecord prepared (evidence.recordHash (.receipt receipt))
    outcome receipt.rawResponseRef receipt.rawErrorRef)]

/-- The store accepts the receipt and the terminal record. -/
def OutcomeSealed (evidence : Evidence) : Prop :=
  evidence.receiptSealed.isOk ∧ evidence.terminalSealed.isOk

theorem run_sealOutcome (prepared : PreparedNativeAttempt) (hsealed : OutcomeSealed evidence)
    (receipt : AttemptReceiptRecord) (outcome : AttemptOutcome) : ∃ written,
      (sealOutcome evidence prepared receipt outcome).run start =
        .ok (terminalRecord prepared (evidence.recordHash (.receipt receipt)) outcome
          receipt.rawResponseRef receipt.rawErrorRef) written ∧
      Effect [] (outcomeRecords evidence prepared receipt outcome) start written ∧
      written.accounting = start.accounting := by
  obtain ⟨_, hreceipt⟩ := exists_of_isOk hsealed.1
  obtain ⟨_, hterminal⟩ := exists_of_isOk hsealed.2
  simp only [sealOutcome, sealRecord, hreceipt, hterminal]
  exact ⟨_, rfl, ⟨rfl, rfl, rfl⟩, rfl⟩

theorem run_sealOutcome_of_not_sealed (prepared : PreparedNativeAttempt)
    (hsealed : ¬ OutcomeSealed evidence) (receipt : AttemptReceiptRecord)
    (outcome : AttemptOutcome) : ∃ failure written records,
      (sealOutcome evidence prepared receipt outcome).run start = .error failure written ∧
      Effect [] records start written ∧ records.length < 2 := by
  simp only [sealOutcome, sealRecord]
  cases hreceiptSealed : evidence.receiptSealed with
  | error failure => exact ⟨failure, _, [], rfl, .refl _, by decide⟩
  | ok _ =>
    cases hterminalSealed : evidence.terminalSealed with
    | error failure =>
      exact ⟨failure, _, [.receipt receipt], rfl, ⟨rfl, rfl, rfl⟩, Nat.lt_succ_self 1⟩
    | ok _ =>
      refine absurd ⟨?_, ?_⟩ hsealed
      · rw [hreceiptSealed]
        rfl
      · rw [hterminalSealed]
        rfl

/-! ### Calls that release the provider -/

/-- The ledger accepts a call, and the provider lifecycle clears the attempt if it is asked to. -/
def Accepted (evidence : Evidence) (asks : Prop) (call : Call) (ledger : BudgetLedger) : Prop :=
  returns call.operation ledger = true ∧ (asks → evidence.cleared.isOk = true)

theorem run_call_of_accepted {asks : Prop} [Decidable asks] {call : Call}
    (haccepted : Accepted evidence asks call start.ledger) :
    (do callLedger call; if asks then answer evidence.cleared).run start =
      .ok () (called call start) := by
  rw [EStateM.run_bind, run_callLedger_of_accepted haccepted.1]
  by_cases hasks : asks
  · obtain ⟨_, hcleared⟩ := exists_of_isOk (haccepted.2 hasks)
    simp only [if_pos hasks, hcleared, run_answer_ok]
  · simp only [if_neg hasks, EStateM.run_pure]

theorem run_call_of_not_accepted {asks : Prop} [Decidable asks] {call : Call}
    (haccepted : ¬ Accepted evidence asks call start.ledger) : ∃ failure,
      (do callLedger call; if asks then answer evidence.cleared).run start =
        .error failure (called call start) := by
  rw [EStateM.run_bind]
  cases hreturns : returns call.operation start.ledger with
  | false =>
    obtain ⟨failure, hrun⟩ := run_callLedger_of_refused hreturns
    exact ⟨failure, by rw [hrun]⟩
  | true =>
    rw [run_callLedger_of_accepted hreturns]
    have hrefused : asks ∧ ¬ evidence.cleared.isOk = true := by
      by_contra hcleared
      exact haccepted ⟨hreturns, fun hasks ↦ not_not.mp fun hnot ↦ hcleared ⟨hasks, hnot⟩⟩
    obtain ⟨failure, hcleared⟩ := exists_of_not_isOk hrefused.2
    exact ⟨failure, by simp only [if_pos hrefused.1, hcleared, run_answer_error]⟩

/-- The commit of the whole maximum of an attempt. -/
def commitMaximum (live : LiveAttempt) : Call :=
  .commit live.reservationId live.maximum (some live.ownerMaximums)

section Accounting

variable {rawReference : String} {usageRecordIds : List String}

theorem run_sealAccounting_of_refused {failure : NativeError}
    (hfresh : prepared.attemptId ∉ start.accounting)
    (hrefused : evidence.accountingSealed rawReference usageRecordIds = .error failure) :
    (sealNativeAttemptAccounting evidence prepared rawReference usageRecordIds).run start =
      .error failure start := by
  simp only [sealNativeAttemptAccounting, sealAccounting, hrefused, EStateM.run_bind,
    EStateM.run_get, if_neg hfresh, run_answer_error]

theorem run_sealAccounting_of_accepted {accounting : AttemptAccounting}
    (hlive : prepared.live = some live) (hfresh : prepared.attemptId ∉ start.accounting)
    (hsealed : evidence.accountingSealed rawReference usageRecordIds = .ok accounting)
    (haccepted : Accepted evidence True (commitMaximum live) start.ledger) : ∃ written,
      (sealNativeAttemptAccounting evidence prepared rawReference usageRecordIds).run start =
        .ok () written ∧
      Effect [commitMaximum live] [] start written ∧
      written.accounting = start.accounting.insert prepared.attemptId accounting := by
  have hcommit : (callLedger (.commit live.reservationId live.maximum
      (some live.ownerMaximums))).run start = .ok () (called (commitMaximum live) start) :=
    run_callLedger_of_accepted haccepted.1
  obtain ⟨_, hcleared⟩ := exists_of_isOk (haccepted.2 trivial)
  simp only [sealNativeAttemptAccounting, sealAccounting, hsealed, hlive, hcleared, hcommit,
    EStateM.run_bind, EStateM.run_get, if_neg hfresh, run_answer_ok]
  exact ⟨_, rfl, ⟨rfl, rfl, rfl⟩, rfl⟩

theorem run_sealAccounting_of_not_accepted {accounting : AttemptAccounting}
    (hlive : prepared.live = some live) (hfresh : prepared.attemptId ∉ start.accounting)
    (hsealed : evidence.accountingSealed rawReference usageRecordIds = .ok accounting)
    (haccepted : ¬ Accepted evidence True (commitMaximum live) start.ledger) : ∃ failure,
      (sealNativeAttemptAccounting evidence prepared rawReference usageRecordIds).run start =
        .error failure (called (commitMaximum live) start) := by
  simp only [sealNativeAttemptAccounting, sealAccounting, hsealed, hlive,
    EStateM.run_bind, EStateM.run_get, if_neg hfresh, run_answer_ok]
  cases hreturns : returns (commitMaximum live).operation start.ledger with
  | false =>
    obtain ⟨failure, hrun⟩ := run_callLedger_of_refused hreturns
    rw [commitMaximum] at hrun ⊢
    exact ⟨failure, by rw [hrun]⟩
  | true =>
    have hrun := run_callLedger_of_accepted hreturns
    rw [commitMaximum] at hrun ⊢
    obtain ⟨failure, hcleared⟩ :=
      exists_of_not_isOk fun hcleared ↦ haccepted ⟨hreturns, fun _ ↦ hcleared⟩
    exact ⟨failure, by rw [hrun, hcleared]; rfl⟩

end Accounting

/-! ### The failure sealer -/

/-- The call that settles a failed attempt. -/
def failureCall (live : LiveAttempt) : FailureEnding → Call
  | .unknownOutcome => .markUnknown live.reservationId
  | .cancelledBeforeDispatch => .cancelBeforeDispatch live.reservationId
  | .retryExhausted => .commit live.reservationId BudgetAmount.zero (zeroObservation live)
  | .settledFailure => commitMaximum live

/-- The failure sealer asks the provider lifecycle to clear the attempt. -/
def AsksClearing (prepared : PreparedNativeAttempt) (error : NativeError) : Prop :=
  match failureEnding error with
  | .unknownOutcome => (prepared.stage = .answer ∨ prepared.stage = .judge) ∧
      ¬ error.isInstance .cancelledError
  | .cancelledBeforeDispatch =>
    ¬ error.isInstanceOf [.infrastructureBackoffCancelled, .nativeRunInterrupted]
  | .retryExhausted => False
  | .settledFailure => True

section Failure

variable {error : NativeError} {rawErrorRef : Option String}

theorem run_settleFailure_of_accepted (rawErrorRef : Option String)
    (hending : failureEnding error ≠ .settledFailure)
    (haccepted : Accepted evidence (AsksClearing prepared error)
      (failureCall live (failureEnding error)) start.ledger) :
    (settleFailure evidence prepared live error rawErrorRef).run start =
      .ok () (called (failureCall live (failureEnding error)) start) := by
  rw [AsksClearing] at haccepted
  rw [settleFailure]
  cases hcase : failureEnding error with
  | settledFailure => exact absurd hcase hending
  | retryExhausted =>
    rw [hcase] at haccepted
    exact run_callLedger_of_accepted haccepted.1
  | unknownOutcome | cancelledBeforeDispatch =>
    rw [hcase] at haccepted
    exact run_call_of_accepted haccepted

theorem run_settleFailure_of_not_accepted (rawErrorRef : Option String)
    (hending : failureEnding error ≠ .settledFailure)
    (haccepted : ¬ Accepted evidence (AsksClearing prepared error)
      (failureCall live (failureEnding error)) start.ledger) : ∃ failure,
    (settleFailure evidence prepared live error rawErrorRef).run start =
      .error failure (called (failureCall live (failureEnding error)) start) := by
  rw [AsksClearing] at haccepted
  rw [settleFailure]
  cases hcase : failureEnding error with
  | settledFailure => exact absurd hcase hending
  | retryExhausted =>
    rw [hcase] at haccepted
    refine run_callLedger_of_refused (Bool.eq_false_iff.mpr fun hreturns ↦ ?_)
    exact haccepted ⟨hreturns, False.elim⟩
  | unknownOutcome | cancelledBeforeDispatch =>
    rw [hcase] at haccepted
    exact run_call_of_not_accepted haccepted

/-- What the failure sealer writes before it settles the reservation. -/
def failureRecords (evidence : Evidence) (prepared : PreparedNativeAttempt) (error : NativeError)
    (rawErrorRef : Option String) : List SourceRecord :=
  outcomeRecords evidence prepared (failureReceipt prepared error rawErrorRef)
    (failureEnding error).recorded.2

/-- The terminal record of a failure. -/
def failureTerminal (evidence : Evidence) (prepared : PreparedNativeAttempt) (error : NativeError)
    (rawErrorRef : Option String) : AttemptRecord :=
  terminalRecord prepared
    (evidence.recordHash (.receipt (failureReceipt prepared error rawErrorRef)))
    (failureEnding error).recorded.2 none rawErrorRef

/-- The part of the failure sealer after the terminal record. -/
theorem run_sealNativeFailure (prepared : PreparedNativeAttempt) (start : NativeState)
    (hraw : rawErrorReference evidence error = .ok rawErrorRef)
    (hsealed : OutcomeSealed evidence) : ∃ written,
      Effect [] (failureRecords evidence prepared error rawErrorRef) start written ∧
      written.accounting = start.accounting ∧
      (sealNativeFailure evidence prepared error).run start =
        (do
          settleReservation evidence prepared error rawErrorRef
          return failureTerminal evidence prepared error rawErrorRef).run written := by
  obtain ⟨written, hrun, heffect, haccounting⟩ := run_sealOutcome prepared hsealed
    (failureReceipt prepared error rawErrorRef) (failureEnding error).recorded.2
  refine ⟨written, heffect, haccounting, ?_⟩
  rw [sealNativeFailure, hraw, EStateM.run_bind, run_answer_ok]
  simp only [EStateM.run_bind, hrun]
  rfl

theorem run_sealNativeFailure_of_not_sealed (prepared : PreparedNativeAttempt)
    (start : NativeState)
    (hsealed : ¬ ((rawErrorReference evidence error).isOk ∧ OutcomeSealed evidence)) :
    ∃ failure written records,
      (sealNativeFailure evidence prepared error).run start = .error failure written ∧
      Effect [] records start written ∧ records.length < 2 := by
  rw [sealNativeFailure, EStateM.run_bind]
  by_cases hraw : (rawErrorReference evidence error).isOk = true
  · obtain ⟨rawErrorRef, hrawErrorRef⟩ := exists_of_isOk hraw
    obtain ⟨failure, written, records, hrun, heffect⟩ := run_sealOutcome_of_not_sealed prepared
      (fun houtcome ↦ hsealed ⟨hraw, houtcome⟩) (failureReceipt prepared error rawErrorRef)
      (failureEnding error).recorded.2
    refine ⟨failure, written, records, ?_, heffect⟩
    rw [hrawErrorRef, run_answer_ok]
    simp only [EStateM.run_bind, hrun]
  · obtain ⟨failure, hfailure⟩ := exists_of_not_isOk hraw
    exact ⟨failure, start, [], by rw [hfailure, run_answer_error], .refl start, by decide⟩

/-- The accounting evidence of a failure. -/
def failureAccounting (evidence : Evidence) (error : NativeError) :
    Except NativeError AttemptAccounting := do
  let rawErrorRef ← rawErrorReference evidence error
  evidence.accountingSealed (rawErrorRef.getD "") error.info.usageReferenceIds

/-- The store accepts what the failure sealer writes before it settles the reservation. -/
def FailureSealed (evidence : Evidence) (error : NativeError) : Prop :=
  (rawErrorReference evidence error).isOk ∧ OutcomeSealed evidence ∧
    (failureEnding error = .settledFailure → (failureAccounting evidence error).isOk)

/-- The settlement of a failed attempt is accepted. -/
def FailureAccepted (evidence : Evidence) (prepared : PreparedNativeAttempt) (live : LiveAttempt)
    (error : NativeError) (ledger : BudgetLedger) : Prop :=
  Accepted evidence (AsksClearing prepared error) (failureCall live (failureEnding error)) ledger

theorem failureAccounting_of_ok (hraw : rawErrorReference evidence error = .ok rawErrorRef) :
    failureAccounting evidence error =
      evidence.accountingSealed (rawErrorRef.getD "") error.info.usageReferenceIds := by
  rw [failureAccounting, hraw]
  rfl

/-- The settlement of a failed attempt whose evidence is sealed. -/
theorem run_settleFailure (hlive : prepared.live = some live)
    (hfresh : prepared.attemptId ∉ start.accounting)
    (hraw : rawErrorReference evidence error = .ok rawErrorRef)
    (hsealed : FailureSealed evidence error)
    (haccepted : FailureAccepted evidence prepared live error start.ledger) : ∃ final,
      (settleFailure evidence prepared live error rawErrorRef).run start = .ok () final ∧
      Effect [failureCall live (failureEnding error)] [] start final ∧
      (prepared.attemptId ∈ final.accounting ↔ failureEnding error = .settledFailure) := by
  by_cases hending : failureEnding error = .settledFailure
  · obtain ⟨accounting, haccounting⟩ := exists_of_isOk (hsealed.2.2 hending)
    rw [failureAccounting_of_ok hraw] at haccounting
    rw [FailureAccepted, AsksClearing, hending] at haccepted
    obtain ⟨final, hrun, heffect, hinserted⟩ :=
      run_sealAccounting_of_accepted hlive hfresh haccounting haccepted
    refine ⟨final, ?_, hending ▸ heffect, ?_⟩
    · rw [settleFailure, hending]
      exact hrun
    · rw [hinserted]
      exact iff_of_true ((AList.mem_insert _).mpr (Or.inl rfl)) hending
  · exact ⟨_, run_settleFailure_of_accepted rawErrorRef hending haccepted, effect_called _ start,
      iff_of_false hfresh hending⟩

theorem run_settleFailure_of_refused (hlive : prepared.live = some live)
    (hfresh : prepared.attemptId ∉ start.accounting)
    (hraw : rawErrorReference evidence error = .ok rawErrorRef)
    (hsealed : FailureSealed evidence error)
    (haccepted : ¬ FailureAccepted evidence prepared live error start.ledger) :
    ∃ failure final,
      (settleFailure evidence prepared live error rawErrorRef).run start = .error failure final ∧
      Effect [failureCall live (failureEnding error)] [] start final := by
  by_cases hending : failureEnding error = .settledFailure
  · obtain ⟨accounting, haccounting⟩ := exists_of_isOk (hsealed.2.2 hending)
    rw [failureAccounting_of_ok hraw] at haccounting
    rw [FailureAccepted, AsksClearing, hending] at haccepted
    obtain ⟨failure, hrun⟩ :=
      run_sealAccounting_of_not_accepted hlive hfresh haccounting haccepted
    rw [settleFailure, hending]
    exact ⟨failure, _, hrun, effect_called _ start⟩
  · obtain ⟨failure, hrun⟩ := run_settleFailure_of_not_accepted rawErrorRef hending haccepted
    exact ⟨failure, _, hrun, effect_called _ start⟩

/-- An accepted settlement returns the terminal record, and it has accounted for the attempt exactly
when the failure is a settled one. -/
theorem sealNativeFailure_of_accepted (hlive : prepared.live = some live)
    (hfresh : prepared.attemptId ∉ start.accounting)
    (hraw : rawErrorReference evidence error = .ok rawErrorRef)
    (hsealed : FailureSealed evidence error)
    (haccepted : FailureAccepted evidence prepared live error start.ledger) : ∃ final,
      (sealNativeFailure evidence prepared error).run start =
        .ok (failureTerminal evidence prepared error rawErrorRef) final ∧
      Effect [failureCall live (failureEnding error)]
        (failureRecords evidence prepared error rawErrorRef) start final ∧
      (prepared.attemptId ∈ final.accounting ↔ failureEnding error = .settledFailure) := by
  obtain ⟨written, heffect, haccounting, hrun⟩ :=
    run_sealNativeFailure prepared start hraw hsealed.2.1
  rw [← show written.ledger = start.ledger from heffect.ledger] at haccepted
  obtain ⟨final, hsettle, hcall, haccounted⟩ :=
    run_settleFailure hlive (haccounting ▸ hfresh) hraw hsealed haccepted
  refine ⟨final, ?_, heffect.trans hcall, haccounted⟩
  rw [hrun, EStateM.run_bind, settleReservation, hlive]
  simp only [hsettle, EStateM.run_pure]

theorem sealNativeFailure_of_refused (hlive : prepared.live = some live)
    (hfresh : prepared.attemptId ∉ start.accounting)
    (hraw : rawErrorReference evidence error = .ok rawErrorRef)
    (hsealed : FailureSealed evidence error)
    (haccepted : ¬ FailureAccepted evidence prepared live error start.ledger) :
    ∃ failure final,
      (sealNativeFailure evidence prepared error).run start = .error failure final ∧
      Effect [failureCall live (failureEnding error)]
        (failureRecords evidence prepared error rawErrorRef) start final := by
  obtain ⟨written, heffect, haccounting, hrun⟩ :=
    run_sealNativeFailure prepared start hraw hsealed.2.1
  rw [← show written.ledger = start.ledger from heffect.ledger] at haccepted
  obtain ⟨failure, final, hsettle, hcall⟩ :=
    run_settleFailure_of_refused hlive (haccounting ▸ hfresh) hraw hsealed haccepted
  refine ⟨failure, final, ?_, heffect.trans hcall⟩
  rw [hrun, EStateM.run_bind, settleReservation, hlive]
  simp only [hsettle]

/-- A failure whose evidence is not sealed raises without a call on the ledger. -/
theorem sealNativeFailure_of_not_sealed (hlive : prepared.live = some live)
    (hfresh : prepared.attemptId ∉ start.accounting)
    (hsealed : ¬ FailureSealed evidence error) : ∃ failure final records,
      (sealNativeFailure evidence prepared error).run start = .error failure final ∧
      Effect [] records start final := by
  by_cases houtcome : (rawErrorReference evidence error).isOk ∧ OutcomeSealed evidence
  · obtain ⟨rawErrorRef, hraw⟩ := exists_of_isOk houtcome.1
    have hending : failureEnding error = .settledFailure := by
      by_contra hother
      exact hsealed ⟨houtcome.1, houtcome.2, fun hending ↦ absurd hending hother⟩
    obtain ⟨failure, hfailure⟩ := exists_of_not_isOk fun haccounted ↦
      hsealed ⟨houtcome.1, houtcome.2, fun _ ↦ haccounted⟩
    rw [failureAccounting_of_ok hraw] at hfailure
    obtain ⟨written, heffect, haccounting, hrun⟩ :=
      run_sealNativeFailure prepared start hraw houtcome.2
    refine ⟨failure, written, _, ?_, heffect⟩
    rw [hrun, EStateM.run_bind, settleReservation, hlive]
    simp only [settleFailure, hending]
    simp only [run_sealAccounting_of_refused (haccounting ▸ hfresh) hfailure]
  · obtain ⟨failure, written, records, hrun, heffect, -⟩ :=
      run_sealNativeFailure_of_not_sealed prepared start houtcome
    exact ⟨failure, written, records, hrun, heffect⟩

end Failure

/-! ### The stages -/

/-- What a stage settles: a success with its raw response, or a failure. -/
inductive Settlement
  | success (rawResponseRef : String) (usageRecordIds : List String)
  | failure (error : NativeError)

/-- The stages that account for a failure after its sealer. -/
def AccountsAfterFailure (stage : NativeStage) : Prop :=
  stage = .memoryIngest ∨ stage = .answer ∨ stage = .judge

/-- The endings that the failure sealer settles without accounting for the attempt. -/
def Unaccounted (error : NativeError) : Prop :=
  failureEnding error = .cancelledBeforeDispatch ∨ failureEnding error = .retryExhausted

/-- What a stage settles for a dispatch. Only a model call refuses an output. -/
def settlement (stage : NativeStage) : DispatchOutcome → Settlement
  | .returned rawResponseRef usageRecordIds => .success rawResponseRef usageRecordIds
  | .refused rawResponseRef usageRecordIds message =>
    if stage = .answer ∨ stage = .judge then
      .failure (modelCallFailure rawResponseRef usageRecordIds message)
    else .success rawResponseRef usageRecordIds
  | .raised error => .failure error

namespace Settlement

/-- The call that settles the reservation. -/
def call (live : LiveAttempt) : Settlement → Call
  | success _ _ => commitMaximum live
  | failure error => failureCall live (failureEnding error)

/-- The store accepts what the stage writes before the call that settles the reservation. -/
def EvidenceSealed (evidence : Evidence) (stage : NativeStage) : Settlement → Prop
  | success rawResponseRef usageRecordIds =>
    (¬ AccountsAfterFailure stage → evidence.resultPayload.isOk) ∧ OutcomeSealed evidence ∧
      (evidence.accountingSealed rawResponseRef usageRecordIds).isOk
  | failure error => FailureSealed evidence error

/-- The stage accounts for a failure that its sealer has settled without accounting for it. -/
def SettlesAgain (evidence : Evidence) (prepared : PreparedNativeAttempt) : Settlement → Prop
  | success _ _ => False
  | failure error => AccountsAfterFailure prepared.stage ∧ Unaccounted error ∧
    (AsksClearing prepared error → evidence.cleared.isOk) ∧
    (failureAccounting evidence error).isOk

end Settlement

section Stages

variable {error : NativeError} {rawErrorRef : Option String}

theorem rawErrorRef_eq_none_iff (hraw : rawErrorReference evidence error = .ok rawErrorRef) :
    rawErrorRef = none ↔ failureEnding error = .unknownOutcome := by
  rw [rawErrorReference] at hraw
  split_ifs at hraw with hending
  · cases hraw
    exact iff_of_true rfl hending
  · refine iff_of_false ?_ hending
    rintro rfl
    cases hreference : error.info.rawReference with
    | some sha256 => simp [hreference] at hraw
    | none =>
      cases hpayload : evidence.errorPayload with
      | error failure => simp [hreference, hpayload, Except.map] at hraw
      | ok payload => simp [hreference, hpayload, Except.map] at hraw

/-- A preserved failure returns where the failure sealer returns. -/
theorem run_preserving_of_ok {terminal : AttemptRecord} {final : NativeState}
    (hrun : (sealNativeFailure evidence prepared error).run start = .ok terminal final) :
    (sealNativeFailurePreserving evidence prepared error).run start = .ok terminal final := by
  simp only [EStateM.run, sealNativeFailurePreserving] at hrun ⊢
  rw [hrun]

theorem run_preserving_of_error {failure : NativeError} {final : NativeState}
    (hrun : (sealNativeFailure evidence prepared error).run start = .error failure final) :
    ∃ raised,
      (sealNativeFailurePreserving evidence prepared error).run start = .error raised final := by
  simp only [EStateM.run, sealNativeFailurePreserving] at hrun ⊢
  rw [hrun]
  split_ifs
  · exact ⟨_, rfl⟩
  · exact ⟨_, rfl⟩

/-- Accounting for a failure makes a commit if the accounting evidence is sealed. -/
theorem effect_sealAccounting (evidence : Evidence) (rawReference : String)
    (usageRecordIds : List String) (hlive : prepared.live = some live) (hfresh : prepared.attemptId ∉ start.accounting) :
    Effect (if (evidence.accountingSealed rawReference usageRecordIds).isOk then
        [commitMaximum live] else []) [] start
      (after (sealNativeAttemptAccounting evidence prepared rawReference usageRecordIds) start) := by
  by_cases hsealed : (evidence.accountingSealed rawReference usageRecordIds).isOk = true
  · rw [if_pos hsealed]
    obtain ⟨accounting, haccounting⟩ := exists_of_isOk hsealed
    by_cases haccepted : Accepted evidence True (commitMaximum live) start.ledger
    · obtain ⟨final, hrun, heffect, -⟩ :=
        run_sealAccounting_of_accepted hlive hfresh haccounting haccepted
      rwa [after_of_ok hrun]
    · obtain ⟨failure, hrun⟩ :=
        run_sealAccounting_of_not_accepted hlive hfresh haccounting haccepted
      rw [after_of_error hrun]
      exact effect_called _ start
  · rw [if_neg hsealed]
    obtain ⟨failure, hfailure⟩ := exists_of_not_isOk hsealed
    rw [after_of_error (run_sealAccounting_of_refused hfresh hfailure)]
    exact .refl start

/-- A stage accounts for a failure that its sealer left unaccounted. -/
theorem effect_accountFailure_of_unaccounted (hlive : prepared.live = some live)
    (hfresh : prepared.attemptId ∉ start.accounting)
    (hraw : rawErrorReference evidence error = .ok rawErrorRef) (hunaccounted : Unaccounted error) :
    Effect (if (failureAccounting evidence error).isOk then [commitMaximum live] else []) [] start
      (after (accountFailure evidence prepared
        (failureTerminal evidence prepared error rawErrorRef) error) start) := by
  have hnone := rawErrorRef_eq_none_iff hraw
  rw [failureAccounting_of_ok hraw]
  cases rawErrorRef with
  | none =>
    rw [Unaccounted, hnone.mp rfl] at hunaccounted
    exact absurd hunaccounted (by decide)
  | some rawReference =>
    have hafter : after (accountFailure evidence prepared
        (failureTerminal evidence prepared error (some rawReference)) error) start =
          after (if prepared.attemptId ∉ start.accounting then
            sealNativeAttemptAccounting evidence prepared rawReference
              error.info.usageReferenceIds else pure ()) start := rfl
    rw [hafter, if_pos hfresh]
    exact effect_sealAccounting evidence _ _ hlive hfresh

/-- A stage does nothing more for another failure. -/
theorem effect_accountFailure_of_accounted
    (haccounted : failureEnding error = .settledFailure → prepared.attemptId ∈ start.accounting)
    (hraw : rawErrorReference evidence error = .ok rawErrorRef)
    (hunaccounted : ¬ Unaccounted error) :
    Effect [] [] start (after (accountFailure evidence prepared
      (failureTerminal evidence prepared error rawErrorRef) error) start) := by
  have hnone := rawErrorRef_eq_none_iff hraw
  cases rawErrorRef with
  | none => exact .refl start
  | some rawReference =>
    have hending : failureEnding error = .settledFailure := by
      cases hcase : failureEnding error with
      | settledFailure => rfl
      | unknownOutcome => exact absurd (hnone.mpr hcase) (by simp)
      | cancelledBeforeDispatch => exact absurd (Or.inl hcase) hunaccounted
      | retryExhausted => exact absurd (Or.inr hcase) hunaccounted
    have hafter : after (accountFailure evidence prepared
        (failureTerminal evidence prepared error (some rawReference)) error) start =
          after (if prepared.attemptId ∉ start.accounting then
            sealNativeAttemptAccounting evidence prepared rawReference
              error.info.usageReferenceIds else pure ()) start := rfl
    rw [hafter, if_neg (not_not.mpr (haccounted hending))]
    exact .refl start

/-! ### Calls of a whole path -/

open Classical in
/-- The calls of the failure sealer. -/
noncomputable def sealerCalls (evidence : Evidence) (live : LiveAttempt) (error : NativeError) :
    List Call :=
  if FailureSealed evidence error then [failureCall live (failureEnding error)] else []

/-- The failure sealer makes one call when its evidence is sealed. -/
theorem effect_preserving (evidence : Evidence) (error : NativeError)
    (hlive : prepared.live = some live)
    (hfresh : prepared.attemptId ∉ start.accounting) : ∃ records,
      Effect (sealerCalls evidence live error) records start
        (after (sealNativeFailurePreserving evidence prepared error) start) := by
  rw [sealerCalls]
  by_cases hsealed : FailureSealed evidence error
  · obtain ⟨rawErrorRef, hraw⟩ := exists_of_isOk hsealed.1
    rw [if_pos hsealed]
    by_cases haccepted : FailureAccepted evidence prepared live error start.ledger
    · obtain ⟨final, hrun, heffect, -⟩ :=
        sealNativeFailure_of_accepted hlive hfresh hraw hsealed haccepted
      rw [after_of_ok (run_preserving_of_ok hrun)]
      exact ⟨_, heffect⟩
    · obtain ⟨failure, final, hrun, heffect⟩ :=
        sealNativeFailure_of_refused hlive hfresh hraw hsealed haccepted
      obtain ⟨raised, hraised⟩ := run_preserving_of_error hrun
      rw [after_of_error hraised]
      exact ⟨_, heffect⟩
  · obtain ⟨failure, final, records, hrun, heffect⟩ :=
      sealNativeFailure_of_not_sealed hlive hfresh hsealed
    obtain ⟨raised, hraised⟩ := run_preserving_of_error hrun
    rw [if_neg hsealed, after_of_error hraised]
    exact ⟨records, heffect⟩

/-- The failure sealer returns when its settlement is accepted, and raises otherwise. -/
theorem run_preserving (evidence : Evidence) (error : NativeError)
    (hlive : prepared.live = some live)
    (hfresh : prepared.attemptId ∉ start.accounting) :
    (∃ failure final,
      (sealNativeFailurePreserving evidence prepared error).run start = .error failure final ∧
      ¬ (FailureSealed evidence error ∧
        FailureAccepted evidence prepared live error start.ledger)) ∨
    ∃ rawErrorRef final, rawErrorReference evidence error = .ok rawErrorRef ∧
      (sealNativeFailurePreserving evidence prepared error).run start =
        .ok (failureTerminal evidence prepared error rawErrorRef) final ∧
      FailureSealed evidence error ∧
      FailureAccepted evidence prepared live error start.ledger ∧
      (prepared.attemptId ∈ final.accounting ↔ failureEnding error = .settledFailure) := by
  by_cases hsealed : FailureSealed evidence error
  · obtain ⟨rawErrorRef, hraw⟩ := exists_of_isOk hsealed.1
    by_cases haccepted : FailureAccepted evidence prepared live error start.ledger
    · obtain ⟨final, hrun, -, hmem⟩ :=
        sealNativeFailure_of_accepted hlive hfresh hraw hsealed haccepted
      exact Or.inr ⟨rawErrorRef, final, hraw, run_preserving_of_ok hrun, hsealed, haccepted, hmem⟩
    · obtain ⟨failure, final, hrun, -⟩ :=
        sealNativeFailure_of_refused hlive hfresh hraw hsealed haccepted
      obtain ⟨raised, hraised⟩ := run_preserving_of_error hrun
      exact Or.inl ⟨raised, final, hraised, fun hboth ↦ haccepted hboth.2⟩
  · obtain ⟨failure, final, records, hrun, -⟩ :=
      sealNativeFailure_of_not_sealed hlive hfresh hsealed
    obtain ⟨raised, hraised⟩ := run_preserving_of_error hrun
    exact Or.inl ⟨raised, final, hraised, fun hboth ↦ hsealed hboth.1⟩

open Classical in
/-- The commit of a stage that settles again. -/
noncomputable def repeatedCalls (evidence : Evidence) (prepared : PreparedNativeAttempt)
    (live : LiveAttempt) (error : NativeError) (ledger : BudgetLedger) : List Call :=
  if FailureSealed evidence error ∧
      returns (failureCall live (failureEnding error)).operation ledger = true ∧
      Settlement.SettlesAgain evidence prepared (.failure error) then [commitMaximum live]
  else []

/-- A stage that accounts for its failures makes the calls of the failure sealer, and one more
commit where it settles again. -/
theorem effect_settleAccounted (hlive : prepared.live = some live)
    (hfresh : prepared.attemptId ∉ start.accounting)
    (haccounts : AccountsAfterFailure prepared.stage) : ∃ records,
      Effect (sealerCalls evidence live error ++
          repeatedCalls evidence prepared live error start.ledger) records start
        (after (settleAccounted evidence prepared error) start) := by
  obtain ⟨records, heffect⟩ := effect_preserving evidence error hlive hfresh
  rw [repeatedCalls]
  rcases run_preserving evidence error hlive hfresh with
    ⟨failure, final, hrun, hrefused⟩ | ⟨rawErrorRef, final, hraw, hrun, hsealed, haccepted, hmem⟩
  · rw [if_neg fun hcondition ↦ hrefused
      ⟨hcondition.1, hcondition.2.1, hcondition.2.2.2.2.1⟩, List.append_nil, settleAccounted,
      after_bind_of_error hrun]
    rw [after_of_error hrun] at heffect
    exact ⟨records, heffect⟩
  · rw [settleAccounted, after_bind_of_ok hrun]
    rw [after_of_ok hrun] at heffect
    by_cases hunaccounted : Unaccounted error
    · have hfinal : prepared.attemptId ∉ final.accounting := by
        rw [hmem]
        intro hending
        rw [Unaccounted, hending] at hunaccounted
        exact absurd hunaccounted (by decide)
      have hagain := effect_accountFailure_of_unaccounted hlive hfinal hraw hunaccounted
      by_cases haccounting : (failureAccounting evidence error).isOk = true
      · rw [if_pos haccounting] at hagain
        rw [if_pos ⟨hsealed, haccepted.1, haccounts, hunaccounted, haccepted.2, haccounting⟩]
        exact ⟨_, heffect.trans hagain⟩
      · rw [if_neg haccounting] at hagain
        rw [if_neg fun hcondition ↦ haccounting hcondition.2.2.2.2.2]
        exact ⟨_, heffect.trans hagain⟩
    · rw [if_neg fun hcondition ↦ hunaccounted hcondition.2.2.2.1]
      exact ⟨_, heffect.trans (effect_accountFailure_of_accounted hmem.mpr hraw hunaccounted)⟩

open Classical in
/-- The path of a success makes its commit when its evidence is sealed. -/
theorem effect_settleSuccess (evidence : Evidence) (rawResponseRef : String)
    (usageRecordIds : List String) (hlive : prepared.live = some live) (hfresh : prepared.attemptId ∉ start.accounting) :
    ∃ records, Effect (if OutcomeSealed evidence ∧
        (evidence.accountingSealed rawResponseRef usageRecordIds).isOk then [commitMaximum live]
        else []) records start
      (after (settleSuccess evidence prepared rawResponseRef usageRecordIds) start) := by
  rw [settleSuccess, sealNativeSuccess]
  by_cases hsealed : OutcomeSealed evidence
  · obtain ⟨written, hrun, heffect, haccounting⟩ :=
      run_sealOutcome prepared hsealed (responseReceipt prepared rawResponseRef) .succeeded
    have hcommit := effect_sealAccounting evidence rawResponseRef usageRecordIds hlive
      (haccounting ▸ hfresh)
    rw [after_bind_of_ok hrun]
    simp only [hsealed, true_and]
    exact ⟨_, heffect.trans hcommit⟩
  · obtain ⟨failure, written, records, hrun, heffect, -⟩ := run_sealOutcome_of_not_sealed prepared
      hsealed (responseReceipt prepared rawResponseRef) .succeeded
    rw [after_bind_of_error hrun, if_neg fun hboth ↦ hsealed hboth.1]
    exact ⟨records, heffect⟩

open Classical in
/-- The calls of the path of a settlement. -/
noncomputable def settlementCalls (evidence : Evidence) (prepared : PreparedNativeAttempt)
    (live : LiveAttempt) (ledger : BudgetLedger) : Settlement → List Call
  | .success rawResponseRef usageRecordIds =>
    if Settlement.EvidenceSealed evidence prepared.stage
      (.success rawResponseRef usageRecordIds) then [commitMaximum live] else []
  | .failure error =>
    sealerCalls evidence live error ++ repeatedCalls evidence prepared live error ledger

open Classical in
theorem settlementCalls_of_sealed (settled : Settlement) {ledger : BudgetLedger}
    (hsealed : settled.EvidenceSealed evidence prepared.stage) :
    settlementCalls evidence prepared live ledger settled = settled.call live ::
      if returns (settled.call live).operation ledger = true ∧
        settled.SettlesAgain evidence prepared then [commitMaximum live] else [] := by
  cases settled with
  | success =>
    rw [settlementCalls, if_pos hsealed, if_neg fun hcondition ↦ hcondition.2]
    rfl
  | failure error =>
    have hfailure : FailureSealed evidence error := hsealed
    rw [settlementCalls, sealerCalls, repeatedCalls, if_pos hfailure, List.singleton_append]
    exact congrArg _ (if_congr (and_iff_right hfailure) rfl rfl)

theorem settlementCalls_of_unsealed {settled : Settlement} {ledger : BudgetLedger}
    (hsealed : ¬ settled.EvidenceSealed evidence prepared.stage) :
    settlementCalls evidence prepared live ledger settled = [] := by
  cases settled with
  | success => exact if_neg hsealed
  | failure error =>
    have hfailure : ¬ FailureSealed evidence error := hsealed
    rw [settlementCalls, sealerCalls, repeatedCalls, if_neg hfailure,
      if_neg fun hcondition ↦ hfailure hcondition.1, List.append_nil]

open Classical in
theorem settlementCalls_success
    (hpayload : ¬ AccountsAfterFailure prepared.stage → evidence.resultPayload.isOk)
    (rawResponseRef : String) (usageRecordIds : List String) (ledger : BudgetLedger) :
    settlementCalls evidence prepared live ledger (.success rawResponseRef usageRecordIds) =
      if OutcomeSealed evidence ∧
        (evidence.accountingSealed rawResponseRef usageRecordIds).isOk then [commitMaximum live]
      else [] := by
  exact if_congr ⟨And.right, fun hsealed ↦ ⟨hpayload, hsealed⟩⟩ rfl rfl

theorem effect_finishIngestion (hlive : prepared.live = some live)
    (hfresh : prepared.attemptId ∉ start.accounting) (hstage : prepared.stage = .memoryIngest)
    (outcome : DispatchOutcome) : ∃ records,
      Effect (settlementCalls evidence prepared live start.ledger
        (settlement prepared.stage outcome)) records start
        (after (finishIngestion evidence prepared outcome) start) := by
  have haccounts : AccountsAfterFailure prepared.stage := Or.inl hstage
  cases outcome with
  | returned | refused =>
    have hnot : ¬ (prepared.stage = .answer ∨ prepared.stage = .judge) := by simp [hstage]
    simp only [settlement, if_neg hnot]
    rw [settlementCalls_success fun hnot ↦ absurd haccounts hnot]
    exact effect_settleSuccess evidence _ _ hlive hfresh
  | raised error =>
    have hquiet (state : NativeState) : after (if ¬ error.isInstance .settledTransientIngestionFailure ∨
        error.info.rawReference = none then throw error else pure () : NativeOperation Unit) state =
          state := by
      split_ifs <;> rfl
    rw [finishIngestion, after_bind_of_quiet fun _ ↦ hquiet]
    exact effect_settleAccounted hlive hfresh haccounts

theorem effect_recordModelCall (hlive : prepared.live = some live)
    (hfresh : prepared.attemptId ∉ start.accounting)
    (hstage : prepared.stage = .answer ∨ prepared.stage = .judge) (outcome : DispatchOutcome) :
    ∃ records, Effect (settlementCalls evidence prepared live start.ledger
        (settlement prepared.stage outcome)) records start
        (after (recordModelCall evidence prepared outcome) start) := by
  have haccounts : AccountsAfterFailure prepared.stage := Or.inr hstage
  cases outcome with
  | returned =>
    rw [settlement, settlementCalls_success fun hnot ↦ absurd haccounts hnot]
    exact effect_settleSuccess evidence _ _ hlive hfresh
  | refused =>
    rw [settlement, if_pos hstage]
    exact effect_settleAccounted hlive hfresh haccounts
  | raised error => exact effect_settleAccounted hlive hfresh haccounts

theorem effect_finishMemoryDispatch (hlive : prepared.live = some live)
    (hfresh : prepared.attemptId ∉ start.accounting)
    (hstage : ¬ AccountsAfterFailure prepared.stage) (outcome : DispatchOutcome) :
    ∃ records, Effect (settlementCalls evidence prepared live start.ledger
        (settlement prepared.stage outcome)) records start
        (after (finishMemoryDispatch evidence prepared outcome) start) := by
  have hnot : ¬ (prepared.stage = .answer ∨ prepared.stage = .judge) := fun hmodel ↦
    hstage (Or.inr hmodel)
  cases outcome with
  | returned rawResponseRef usageRecordIds | refused rawResponseRef usageRecordIds =>
    have hsuccess :=
      effect_settleSuccess evidence rawResponseRef usageRecordIds hlive hfresh
    simp only [settlement, if_neg hnot]
    by_cases hpayload : evidence.resultPayload.isOk = true
    · obtain ⟨_, hok⟩ := exists_of_isOk hpayload
      rw [settlementCalls_success fun _ ↦ hpayload, finishMemoryDispatch, hok,
        after_bind_of_ok (run_answer_ok _ start)]
      exact hsuccess
    · obtain ⟨failure, herror⟩ := exists_of_not_isOk hpayload
      rw [settlementCalls, if_neg fun hsealed ↦ hpayload (hsealed.1 hstage),
        finishMemoryDispatch, herror, after_bind_of_error (run_answer_error failure start)]
      exact ⟨[], .refl start⟩
  | raised error =>
    have hrepeated : repeatedCalls evidence prepared live error start.ledger = [] :=
      if_neg fun hcondition ↦ hstage hcondition.2.2.1
    rw [finishMemoryDispatch, after_bind_of_quiet fun _ _ ↦ rfl, settlement, settlementCalls,
      hrepeated, List.append_nil]
    exact effect_preserving evidence error hlive hfresh

/-- The calls of a dispatched attempt, from its preparation on. -/
theorem effect_finishAttempt (evidence : Evidence) (outcome : DispatchOutcome)
    (hlive : prepared.live = some live) (hfresh : prepared.attemptId ∉ start.accounting) :
    ∃ records,
      Effect (settlementCalls evidence prepared live start.ledger
        (settlement prepared.stage outcome)) records start
        (after (finishAttempt evidence prepared outcome) start) := by
  rw [finishAttempt]
  split
  · exact effect_finishIngestion hlive hfresh (by assumption) outcome
  · exact effect_recordModelCall hlive hfresh (Or.inl (by assumption)) outcome
  · exact effect_recordModelCall hlive hfresh (Or.inr (by assumption)) outcome
  · refine effect_finishMemoryDispatch hlive hfresh ?_ outcome
    simp_all [AccountsAfterFailure]

end Stages

/-! ### Settled reservations -/

/-- The reservation that a call is about, with the state that it leaves it in. -/
def written : Call → String × ReservationState
  | .reserve request => (request.reservationId, .reserved)
  | .commit reservationId _ _ => (reservationId, .committed)
  | .cancelBeforeDispatch reservationId => (reservationId, .cancelled)
  | .markUnknown reservationId => (reservationId, .unknown)

/-- A reservation is in a state. -/
def HasState (ledger : BudgetLedger) (reservationId : String) (state : ReservationState) : Prop :=
  ∃ reservation, ledger.reservations.lookup reservationId = some reservation ∧
    reservation.state = state

theorem HasState.unique {ledger : BudgetLedger} {reservationId : String}
    {first second : ReservationState} (hfirst : HasState ledger reservationId first)
    (hsecond : HasState ledger reservationId second) : first = second := by
  obtain ⟨reservation, hlookup, rfl⟩ := hfirst
  obtain ⟨found, hfound, rfl⟩ := hsecond
  rw [hlookup, Option.some.injEq] at hfound
  rw [hfound]

/-- An accepted call leaves its state in the reservation. -/
theorem hasState_of_accepted {ledger : BudgetLedger} {call : Call}
    (haccepted : returns call.operation ledger = true) :
    HasState (after call.operation ledger) (written call).1 (written call).2 := by
  obtain ⟨_, final, hrun⟩ := returns_iff.mp haccepted
  have hrecorded := recorded_call call ledger
  rw [Recorded, hrun] at hrecorded
  obtain ⟨recordedId, recorded, hadmits, hinserted⟩ := hrecorded
  rw [after_of_ok hrun, HasState, hinserted]
  cases call with
  | reserve request =>
    obtain ⟨rfl, rfl, -⟩ := hadmits
    exact ⟨_, AList.lookup_insert _, rfl⟩
  | commit | cancelBeforeDispatch | markUnknown =>
    obtain ⟨rfl, stored, -, rfl⟩ := hadmits
    exact ⟨_, AList.lookup_insert _, rfl⟩

/-- A refused call leaves every reservation as it was. -/
theorem hasState_of_refused {ledger : BudgetLedger} {call : Call} {reservationId : String}
    {state : ReservationState} (hrefused : returns call.operation ledger = false)
    (hstate : HasState ledger reservationId state) :
    HasState (after call.operation ledger) reservationId state := by
  obtain ⟨failure, final, hrun⟩ := returns_eq_false_iff.mp hrefused
  have hrecorded := recorded_call call ledger
  rw [Recorded, hrun] at hrecorded
  rwa [after_of_error hrun, HasState, hrecorded]

/-- An attempt that was prepared and dispatched, and not settled yet. -/
structure Dispatched (prepared : PreparedNativeAttempt) (live : LiveAttempt) (state : NativeState) :
    Prop where
  live_eq : prepared.live = some live
  reserved : HasState state.ledger live.reservationId .reserved
  not_mem_accounting : prepared.attemptId ∉ state.accounting

/-- One call was made, and it left the reservation in the state of that call. -/
def SettledOnce (live : LiveAttempt) (call : Call) (start final : NativeState) : Prop :=
  final.ledgerCalls = call :: start.ledgerCalls ∧ (written call).2 ≠ .reserved ∧
    HasState final.ledger live.reservationId (written call).2

theorem written_call (live : LiveAttempt) (settled : Settlement) :
    (written (settled.call live)).1 = live.reservationId ∧
      (written (settled.call live)).2 ≠ .reserved := by
  cases settled with
  | success => exact ⟨rfl, nofun⟩
  | failure error =>
    rw [Settlement.call]
    cases failureEnding error <;> exact ⟨rfl, nofun⟩

theorem not_settledOnce_of_effect {calls : List Call} {records : List SourceRecord} {call : Call}
    {final : NativeState} (heffect : Effect calls records start final) (hcalls : calls ≠ [call]) :
    ¬ SettledOnce live call start final := by
  rintro ⟨hledgerCalls, -⟩
  rw [heffect.ledgerCalls, ← List.singleton_append] at hledgerCalls
  exact hcalls (List.reverse_injective (List.append_cancel_right hledgerCalls))

theorem settledOnce_iff_of_effect {records : List SourceRecord} {settled : Settlement}
    {final : NativeState} (hdispatched : Dispatched prepared live start)
    (heffect : Effect [settled.call live] records start final) :
    SettledOnce live (settled.call live) start final ↔
      returns (settled.call live).operation start.ledger = true := by
  obtain ⟨hwritten, hstate⟩ := written_call live settled
  have hledger : final.ledger = after (settled.call live).operation start.ledger := heffect.ledger
  rw [SettledOnce, hledger]
  constructor
  · rintro ⟨-, -, hfinal⟩
    by_contra hrefused
    have hkept := hasState_of_refused (Bool.eq_false_iff.mpr hrefused) hdispatched.reserved
    exact hstate (hfinal.unique hkept)
  · intro haccepted
    exact ⟨heffect.ledgerCalls, hstate, hwritten ▸ hasState_of_accepted haccepted⟩

/-- An attempt settles its reservation by one call exactly when the store seals its evidence, the
ledger accepts the call, and the stage does not settle again. -/
theorem settledOnce_iff (evidence : Evidence) (outcome : DispatchOutcome)
    (hdispatched : Dispatched prepared live start) :
    SettledOnce live ((settlement prepared.stage outcome).call live) start
        (after (finishAttempt evidence prepared outcome) start) ↔
      (settlement prepared.stage outcome).EvidenceSealed evidence prepared.stage ∧
      returns ((settlement prepared.stage outcome).call live).operation start.ledger = true ∧
      ¬ (settlement prepared.stage outcome).SettlesAgain evidence prepared := by
  obtain ⟨records, heffect⟩ := effect_finishAttempt evidence outcome hdispatched.live_eq
    hdispatched.not_mem_accounting
  generalize settlement prepared.stage outcome = settled at heffect ⊢
  by_cases hsealed : settled.EvidenceSealed evidence prepared.stage
  · rw [settlementCalls_of_sealed settled hsealed] at heffect
    by_cases hagain : returns (settled.call live).operation start.ledger = true ∧
        settled.SettlesAgain evidence prepared
    · rw [if_pos hagain] at heffect
      exact iff_of_false (not_settledOnce_of_effect heffect (by simp))
        fun hcondition ↦ hcondition.2.2 hagain.2
    · rw [if_neg hagain] at heffect
      rw [settledOnce_iff_of_effect hdispatched heffect]
      exact ⟨fun haccepted ↦ ⟨hsealed, haccepted, fun hsettles ↦ hagain ⟨haccepted, hsettles⟩⟩,
        fun hcondition ↦ hcondition.2.1⟩
  · rw [settlementCalls_of_unsealed hsealed] at heffect
    exact iff_of_false (not_settledOnce_of_effect heffect (List.cons_ne_nil _ _).symm)
      fun hcondition ↦ hsealed hcondition.1

/-! ### An ingestion attempt -/

/-- A store that seals everything, and a lifecycle that clears every attempt. -/
def acceptingEvidence : Evidence where
  recordHash := fun _ ↦ "record"
  errorPayload := .ok "error"
  resultPayload := .ok ()
  receiptSealed := .ok ()
  terminalSealed := .ok ()
  accountingSealed := fun _ usageRecordIds ↦ .ok ⟨usageRecordIds, "resource", "cost"⟩
  cleared := .ok ()

theorem answer_ne_empty : "answer" ≠ "" := by
  decide

/-- A request of one attempt and five seconds for the owner. -/
def ingestRequest : RequestFields where
  reservationId := "reservation"
  maximum := wallAmount 1 5
  ownerAllocations := [⟨"answer", wallAmount 1 5, answer_ne_empty⟩]

theorem valid_ingestRequest : ingestRequest.Valid :=
  ⟨fun _ ↦ ⟨rfl, rfl, List.nodup_singleton _⟩, fun hempty ↦ absurd hempty (List.cons_ne_nil _ _)⟩

/-- The budget of an attempt of the owner. -/
def ingestLive : LiveAttempt where
  intentHash := "intent"
  dispatchRouteId := "route"
  dispatchRouteHash := "route hash"
  reservation := ⟨ingestRequest, valid_ingestRequest⟩

/-- An attempt of an ingestion batch. -/
def ingestAttempt : PreparedNativeAttempt where
  attemptId := "attempt"
  parentKind := .ingestionPlan
  parentId := "plan"
  stage := .memoryIngest
  requestFingerprint := "request"
  otherFields := ""
  live := some ingestLive

/-- The run in which the attempt was prepared. -/
def ingestState : NativeState where
  ledger := run [.reserve ingestLive.reservation] (wallLedger 2 100)
  ledgerCalls := [.reserve ingestLive.reservation]
  sealedRecords := []
  accounting := ∅

theorem dispatched_ingestState : Dispatched ingestAttempt ingestLive ingestState where
  live_eq := rfl
  reserved := hasState_of_accepted (by decide +kernel)
  not_mem_accounting := by decide

/-- A success of the attempt settles its reservation once. -/
theorem settledOnce_of_success :
    SettledOnce ingestLive (commitMaximum ingestLive) ingestState
      (after (finishAttempt acceptingEvidence ingestAttempt (.returned "response" [])) ingestState) :=
  (settledOnce_iff acceptingEvidence (.returned "response" []) dispatched_ingestState).mpr
    ⟨⟨fun _ ↦ rfl, ⟨rfl, rfl⟩, rfl⟩, by decide +kernel, id⟩

/-- The cancellation of a call before it was dispatched. -/
def cancelledBeforeDispatch : NativeError :=
  NativeError.plain .memorySystemCallCancelledBeforeDispatch
    { typeName := "MemorySystemCallCancelledBeforeDispatch"
      message := "memory ingest was cancelled before dispatch" }

theorem failureEnding_cancelledBeforeDispatch :
    failureEnding cancelledBeforeDispatch = .cancelledBeforeDispatch :=
  if_pos (TreeSearch.Links.contains_iff.mpr ⟨_, .refl, rfl⟩)

/-- The cancellation is settled by the failure sealer, and the batch then asks for a commit of the
same reservation. -/
theorem cancelled_ingest_settles_twice :
    ¬ ∀ prepared live start outcome, Dispatched prepared live start →
      SettledOnce live ((settlement prepared.stage outcome).call live) start
        (after (finishAttempt acceptingEvidence prepared outcome) start) := by
  intro hclaim
  have hending := failureEnding_cancelledBeforeDispatch
  have hraw : rawErrorReference acceptingEvidence cancelledBeforeDispatch = .ok (some "error") := by
    rw [rawErrorReference, hending]
    rfl
  obtain ⟨records, heffect⟩ := effect_finishAttempt acceptingEvidence
    (.raised cancelledBeforeDispatch) dispatched_ingestState.live_eq
    dispatched_ingestState.not_mem_accounting
  have hsealed : FailureSealed acceptingEvidence cancelledBeforeDispatch := by
    refine ⟨by rw [hraw]; rfl, ⟨rfl, rfl⟩, fun hsettled ↦ ?_⟩
    rw [hending] at hsettled
    cases hsettled
  have hagain : Settlement.SettlesAgain acceptingEvidence ingestAttempt
      (.failure cancelledBeforeDispatch) :=
    ⟨Or.inl rfl, Or.inl hending, fun _ ↦ rfl, by rw [failureAccounting_of_ok hraw]; rfl⟩
  have haccepted : returns (Settlement.call ingestLive
      (.failure cancelledBeforeDispatch)).operation ingestState.ledger = true := by
    rw [Settlement.call, hending]
    decide +kernel
  rw [settlement, settlementCalls_of_sealed (.failure cancelledBeforeDispatch) hsealed,
    if_pos ⟨haccepted, hagain⟩] at heffect
  exact not_settledOnce_of_effect heffect (by simp)
    (hclaim ingestAttempt ingestLive ingestState (.raised cancelledBeforeDispatch)
      dispatched_ingestState)

end Oamb.Runtime.SettlementGuarantees
