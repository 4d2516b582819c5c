import Oamb.Runtime.SettlementGuarantees

/-!
# Unknown outcomes and the failure sealer

An error contains an unknown outcome when one can be reached along members, causes, contexts and
receipts. The failure sealer looks for a cancellation before the dispatch along causes, contexts and
receipts, and then only at the error itself. `sealedUnknown_iff` says for which errors it seals an
unknown outcome: `failed_retrieval_is_sealed_as_failed` is a retrieval whose provider call has an
unknown outcome, and which is sealed as failed.
-/

set_option autoImplicit false

namespace Oamb.Runtime.UnknownOutcomes

open Foundation Foundation.StatefulExecution Contracts.AttemptRecords
open LedgerOperations LedgerRuns LedgerGuarantees NativeErrors NativeSettlement
open SettlementGuarantees

variable {evidence : Evidence} {prepared : PreparedNativeAttempt} {live : LiveAttempt}
  {start : NativeState} {error : NativeError} {rawErrorRef : Option String}

/-! ### What the failure sealer seals -/

theorem failureEnding_eq_unknownOutcome_iff : failureEnding error = .unknownOutcome ↔
    raisesUnknownOutcome error = true ∧ containsCancelledBeforeDispatch error = false := by
  rw [failureEnding]
  cases containsCancelledBeforeDispatch error with
  | true => simp
  | false =>
    cases raisesUnknownOutcome error with
    | true => simp
    | false => split_ifs <;> simp

/-- An attempt that is not settled: a fixture attempt, or a live one that was dispatched. -/
def Unsettled (prepared : PreparedNativeAttempt) (start : NativeState) : Prop :=
  ∀ live, prepared.live = some live → Dispatched prepared live start

/-- Sealing records keeps an attempt unsettled. -/
theorem Unsettled.of_effect {records : List SourceRecord} {written : NativeState}
    (hunsettled : Unsettled prepared start) (heffect : Effect [] records start written)
    (haccounting : written.accounting = start.accounting) : Unsettled prepared written := by
  intro live hlive
  obtain ⟨-, hreserved, hfresh⟩ := hunsettled live hlive
  refine ⟨hlive, ?_, haccounting ▸ hfresh⟩
  rw [heffect.ledger]
  exact hreserved

/-- Settling a reservation seals none of the records of the attempt. -/
theorem effect_settleReservation (evidence : Evidence) (error : NativeError)
    (rawErrorRef : Option String) (hunsettled : Unsettled prepared start) : ∃ calls,
    Effect calls [] start
      (after (settleReservation evidence prepared error rawErrorRef) start) := by
  rw [settleReservation]
  cases hlive : prepared.live with
  | none => exact ⟨[], .refl start⟩
  | some live =>
    have hfresh := (hunsettled live hlive).not_mem_accounting
    by_cases hending : failureEnding error = .settledFailure
    · have hsettle : settleFailure evidence prepared live error rawErrorRef =
          sealNativeAttemptAccounting evidence prepared (rawErrorRef.getD "")
            error.info.usageReferenceIds := by
        rw [settleFailure, hending]
      simp only [hsettle]
      exact ⟨_, effect_sealAccounting evidence _ _ hlive hfresh⟩
    · by_cases haccepted : Accepted evidence (AsksClearing prepared error)
          (failureCall live (failureEnding error)) start.ledger
      · exact ⟨_, after_of_ok (run_settleFailure_of_accepted rawErrorRef hending haccepted) ▸
          effect_called _ start⟩
      · obtain ⟨failure, hrun⟩ :=
          run_settleFailure_of_not_accepted rawErrorRef hending haccepted
        exact ⟨_, after_of_error hrun ▸ effect_called _ start⟩

theorem after_sealNativeFailure (prepared : PreparedNativeAttempt) (start : NativeState)
    (hraw : rawErrorReference evidence error = .ok rawErrorRef)
    (hsealed : OutcomeSealed evidence) : ∃ written,
      Effect [] (failureRecords evidence prepared error rawErrorRef) start written ∧
      written.accounting = start.accounting ∧
      after (sealNativeFailure evidence prepared error) start =
        after (settleReservation evidence prepared error rawErrorRef) written := by
  obtain ⟨written, heffect, haccounting, hrun⟩ := run_sealNativeFailure prepared start hraw hsealed
  refine ⟨written, heffect, haccounting, ?_⟩
  rw [after, hrun]
  exact after_bind_of_quiet (fun _ _ ↦ rfl) written

/-- The failure sealer seals the receipt and the terminal record of the ending, or fewer than two
records. -/
theorem sealedRecords_sealNativeFailure (evidence : Evidence) (error : NativeError)
    (hunsettled : Unsettled prepared start) :
    ∃ records, (after (sealNativeFailure evidence prepared error) start).sealedRecords =
        records.reverse ++ start.sealedRecords ∧
      (records.length < 2 ∨ OutcomeSealed evidence ∧
        ∃ rawErrorRef, records = failureRecords evidence prepared error rawErrorRef) := by
  by_cases hsealed : (rawErrorReference evidence error).isOk ∧ OutcomeSealed evidence
  · obtain ⟨rawErrorRef, hraw⟩ := exists_of_isOk hsealed.1
    obtain ⟨written, heffect, haccounting, hafter⟩ :=
      after_sealNativeFailure prepared start hraw hsealed.2
    obtain ⟨calls, hsettle⟩ := effect_settleReservation evidence error rawErrorRef
      (hunsettled.of_effect heffect haccounting)
    refine ⟨failureRecords evidence prepared error rawErrorRef, ?_,
      Or.inr ⟨hsealed.2, rawErrorRef, rfl⟩⟩
    rw [hafter, hsettle.sealedRecords, heffect.sealedRecords, List.reverse_nil, List.nil_append]
  · obtain ⟨failure, written, records, hrun, heffect, hlength⟩ :=
      run_sealNativeFailure_of_not_sealed prepared start hsealed
    exact ⟨records, by rw [after_of_error hrun, heffect.sealedRecords], Or.inl hlength⟩

/-! ### Unknown outcomes -/

/-- The receipt and the terminal record say that the outcome is unknown, and so does the
reservation. -/
structure SealedUnknown (prepared : PreparedNativeAttempt) (start final : NativeState) : Prop where
  sealedRecords : ∃ receipt terminal,
    final.sealedRecords = [.attempt terminal, .receipt receipt] ++ start.sealedRecords ∧
      receipt.attemptId = prepared.attemptId ∧ receipt.receiptKind = .unknownOutcome ∧
      terminal.attemptId = prepared.attemptId ∧ terminal.outcome = .unknownOutcome
  reservation : ∀ live, prepared.live = some live →
    HasState final.ledger live.reservationId .unknown

/-- A sealed unknown outcome comes from an error that ends so, and from a store that sealed it. -/
theorem of_sealedUnknown (hunsettled : Unsettled prepared start)
    (hunknown : SealedUnknown prepared start (after (sealNativeFailure evidence prepared error) start)) :
    failureEnding error = .unknownOutcome ∧ OutcomeSealed evidence := by
  obtain ⟨receipt, terminal, hsealed, -, hkind, -⟩ := hunknown.sealedRecords
  obtain ⟨records, hrecords, hcases⟩ :=
    sealedRecords_sealNativeFailure evidence error hunsettled
  have hreverse : records.reverse = [.attempt terminal, .receipt receipt] :=
    List.append_cancel_right (hrecords.symm.trans hsealed)
  rcases hcases with hlength | ⟨houtcome, rawErrorRef, rfl⟩
  · rw [← List.length_reverse, hreverse] at hlength
    simp at hlength
  · refine ⟨?_, houtcome⟩
    have hreceipt : failureReceipt prepared error rawErrorRef = receipt := by
      simp [failureRecords, outcomeRecords] at hreverse
      exact hreverse.2
    rw [← hreceipt, failureReceipt] at hkind
    cases hending : failureEnding error with
    | unknownOutcome => rfl
    | cancelledBeforeDispatch | retryExhausted | settledFailure =>
      rw [hending] at hkind
      cases hkind

theorem returns_markUnknown {ledger : BudgetLedger} {reservationId : String}
    (hreserved : HasState ledger reservationId .reserved) :
    returns (Call.markUnknown reservationId).operation ledger = true := by
  obtain ⟨reservation, hlookup, hstate⟩ := hreserved
  have hactive := LedgerChecks.active_eq_ok.mpr ⟨hlookup, hstate⟩
  exact returns_iff.mpr ⟨_, _, LedgerExecution.run_markUnknown_of_ok hactive⟩

/-- An error that ends in an unknown outcome is sealed so by a store that seals it. -/
theorem sealedUnknown_of_ending (hunsettled : Unsettled prepared start)
    (hending : failureEnding error = .unknownOutcome) (hsealed : OutcomeSealed evidence) :
    SealedUnknown prepared start (after (sealNativeFailure evidence prepared error) start) := by
  have hraw : rawErrorReference evidence error = .ok none := if_pos hending
  obtain ⟨written, heffect, haccounting, hafter⟩ :=
    after_sealNativeFailure prepared start hraw hsealed
  have hwritten := hunsettled.of_effect heffect haccounting
  constructor
  · obtain ⟨calls, hsettle⟩ := effect_settleReservation evidence error none hwritten
    refine ⟨failureReceipt prepared error none, failureTerminal evidence prepared error none, ?_, rfl,
      congrArg (fun ending ↦ ending.recorded.1) hending, rfl,
      congrArg (fun ending ↦ ending.recorded.2) hending⟩
    rw [hafter, hsettle.sealedRecords, heffect.sealedRecords]
    rfl
  · intro live hlive
    have hdispatched := hwritten live hlive
    have hcall : failureCall live (failureEnding error) = .markUnknown live.reservationId := by
      rw [hending, failureCall]
    have hending' : failureEnding error ≠ .settledFailure := by
      rw [hending]
      nofun
    have hsettled : after (settleFailure evidence prepared live error none) written =
        called (failureCall live (failureEnding error)) written := by
      by_cases haccepted : Accepted evidence (AsksClearing prepared error)
          (failureCall live (failureEnding error)) written.ledger
      · exact after_of_ok (run_settleFailure_of_accepted none hending' haccepted)
      · obtain ⟨failure, hrun⟩ := run_settleFailure_of_not_accepted none hending' haccepted
        exact after_of_error hrun
    rw [hafter, settleReservation, hlive]
    simp only [hsettled, hcall]
    exact hasState_of_accepted (returns_markUnknown hdispatched.reserved)

/-- The failure sealer seals an error that contains an unknown outcome as one exactly when the error
itself says so, no cancellation before the dispatch is linked to it, and the store seals the
records. -/
theorem sealedUnknown_iff (evidence : Evidence) (error : NativeError)
    (hunsettled : Unsettled prepared start) :
    (containsUnknownOutcomeExtended error = true →
        SealedUnknown prepared start (after (sealNativeFailure evidence prepared error) start)) ↔
      (containsUnknownOutcomeExtended error = true →
        raisesUnknownOutcome error = true ∧ containsCancelledBeforeDispatch error = false ∧
          OutcomeSealed evidence) := by
  refine imp_congr_right fun _ ↦ ?_
  rw [← and_assoc, ← failureEnding_eq_unknownOutcome_iff]
  exact ⟨of_sealedUnknown hunsettled,
    fun hcondition ↦ sealedUnknown_of_ending hunsettled hcondition.1 hcondition.2⟩

/-- A call to the memory system that was cancelled in the middle. -/
def cancelledCall : NativeError :=
  NativeError.plain .memorySystemCallCancelledUnknownOutcome
    { typeName := "MemorySystemCallCancelledUnknownOutcome", message := "memory ingest was cancelled" }

/-- A cancellation of the dispatched ingestion attempt leaves its outcome unknown. -/
theorem sealedUnknown_of_cancelledCall :
    SealedUnknown ingestAttempt ingestState
      (after (sealNativeFailure acceptingEvidence ingestAttempt cancelledCall) ingestState) := by
  have hunsettled : Unsettled ingestAttempt ingestState := by
    intro live hlive
    cases hlive
    exact dispatched_ingestState
  refine (sealedUnknown_iff acceptingEvidence cancelledCall hunsettled).mpr (fun _ ↦ ?_)
    (TreeSearch.Links.contains_iff.mpr ⟨_, .refl, rfl⟩)
  refine ⟨rfl, ?_, rfl, rfl⟩
  rw [Bool.eq_false_iff]
  intro hcontains
  obtain ⟨node, hreaches, hfound⟩ := TreeSearch.Links.contains_iff.mp hcontains
  rcases TreeSearch.Links.reaches_iff.mp hreaches with rfl | ⟨child, hchild, -⟩
  · exact absurd hfound (by decide)
  · cases hchild

/-- The attempt of a query. -/
def queryAttempt : PreparedNativeAttempt where
  attemptId := "query"
  parentKind := .case
  parentId := "case"
  stage := .memoryQuery
  requestFingerprint := "request"
  otherFields := ""
  live := none

/-- What the provider raised while it was queried. -/
def unknownQuery : NativeError :=
  NativeError.plain .memorySystemCallUnknownOutcome
    { typeName := "MemorySystemCallUnknownOutcome", message := "memory query outcome is unknown" }

/-- A failed retrieval: its receipt keeps what the provider raised, and so does its cause. -/
def failedRetrieval : NativeError :=
  .mk (.leaf .runtimeError)
    { typeName := "ReadOnlyRetrievalFailure"
      message := "read-only retrieval failed after provider dispatch" }
    (some unknownQuery) none (some ⟨some unknownQuery, none⟩)

/-- The failed retrieval contains the unknown outcome of the query, and it is not sealed as one. -/
theorem failed_retrieval_is_sealed_as_failed :
    ¬ ∀ prepared start error, Unsettled prepared start →
      containsUnknownOutcomeExtended error = true →
        SealedUnknown prepared start
          (after (sealNativeFailure acceptingEvidence prepared error) start) := by
  intro hclaim
  have hunsettled : Unsettled queryAttempt ingestState := nofun
  have hcontains : containsUnknownOutcomeExtended failedRetrieval = true := by
    refine TreeSearch.Links.contains_iff.mpr ⟨unknownQuery, ?_, rfl⟩
    refine TreeSearch.Links.reaches_iff.mpr (Or.inr ⟨unknownQuery, ?_, .refl⟩)
    exact List.mem_cons_self
  have hunknown := hclaim queryAttempt ingestState failedRetrieval hunsettled hcontains
  have hraises := (failureEnding_eq_unknownOutcome_iff.mp (of_sealedUnknown hunsettled hunknown).1).1
  exact absurd hraises (by decide +kernel)

end Oamb.Runtime.UnknownOutcomes
