import Mathlib.Data.List.ReduceOption
import Oamb.Artifacts.Mem0EvidenceGuarantees
import Oamb.Foundation.FirstOccurrences
import Oamb.MemorySystems.InspectorGuarantees

/-!
# Guarantees of the plans of Mem0

A plan that was ingested with Mem0 is read back from the payloads that were sealed for it. Every
dispatch leaves one receipt, which its last attempt closes (`batchEffect_of_execution`,
`runEffect_of_execution`), however often it was tried; the captures around the dispatches are numbered
one after the other and agree (`sealedPlan_of_execution`). `evidence_agrees` puts together that such a
plan is read back, which pages are taken, and what the digest of a projection stands for.
-/

set_option autoImplicit false

namespace Oamb.Artifacts.Mem0PlanGuarantees

open Foundation Foundation.Dialogue Foundation.Json Foundation.JsonText Foundation.StatefulExecution
open Contracts.AttemptRecords Contracts.Identities
open MemorySystems MemorySystems.RestClient MemorySystems.Mem0Ingest
open MemorySystems.Mem0Projection MemorySystems.Mem0ProjectionLaws MemorySystems.Mem0Capture
open MemorySystems.Mem0Wire MemorySystems.Mem0Readiness
open Mem0Evidence Mem0EvidenceGuarantees Runtime.IngestionRuns

/-! ### Batches -/

section Batches

variable {settings : RunSettings} {plan : IngestionPlan}

/-- The attempts on two dispatches have different identities. -/
theorem ordinal_of_physicalAttemptId (hsha256 : Function.Injective settings.sha256)
    {dispatch other : IngestionDispatch} {batchOrdinal otherOrdinal : ℕ}
    (hsame : physicalAttemptId settings plan dispatch batchOrdinal =
      physicalAttemptId settings plan other otherOrdinal) :
    dispatch.dispatchOrdinal = other.dispatchOrdinal := by
  have hbase (hbases : attemptId settings.sha256 plan.ingestionOccurrenceId "memory_ingest"
      dispatch.dispatchOrdinal dispatch.requestFingerprint =
        attemptId settings.sha256 plan.ingestionOccurrenceId "memory_ingest"
          other.dispatchOrdinal other.requestFingerprint) :
      dispatch.dispatchOrdinal = other.dispatchOrdinal := by
    have hparts := (sha256Identity_inj hsha256 rfl rfl hbases).2
    simp only [List.cons.injEq, Json.string.injEq, Json.integer.injEq, Nat.cast_inj] at hparts
    exact hparts.2.2.1
  rw [physicalAttemptId, physicalAttemptId] at hsame
  split_ifs at hsame
  · exact hbase hsame
  · exact absurd (sha256Identity_inj hsha256 rfl rfl hsame).1 (by decide)
  · exact absurd (sha256Identity_inj hsha256 rfl rfl hsame).1 (by decide)
  · have hparts := (sha256Identity_inj hsha256 rfl rfl hsame).2
    rw [List.cons.injEq, Json.string.injEq] at hparts
    exact hbase hparts.1

variable {rawPayloads : RawPayloads}

/-- A dispatch was added: its receipt is closed, and its last attempt succeeded. -/
structure Added (settings : RunSettings) (plan : IngestionPlan) (rawPayloads : RawPayloads)
    (attempts : Dictionary String AttemptRecord) (receipt : IngestionDispatchReceipt) : Prop where
  accepted : receipt.acceptedSourceUnitIds = [sourceOf receipt.dispatch]
  skipped : receipt.skippedSourceUnitIds = []
  recorded : attempts.lookup receipt.attemptId = some (attemptRecord settings plan receipt.dispatch
    receipt.attemptId .succeeded (some receipt.rawReference) none)
  closed : ∃ payload, ClosedReceipt settings.sha256 rawPayloads (sourceOf receipt.dispatch)
    receipt.rawReference payload

/-- A dispatch was skipped: its last attempt failed, and the failure is sealed. -/
structure Skipped (settings : RunSettings) (plan : IngestionPlan) (rawPayloads : RawPayloads)
    (attempts : Dictionary String AttemptRecord) (receipt : IngestionDispatchReceipt) : Prop where
  accepted : receipt.acceptedSourceUnitIds = []
  skipped : receipt.skippedSourceUnitIds =
    receipt.dispatch.orderedSourceUnits.map SourceUnit.sourceUnitId
  recorded : attempts.lookup receipt.attemptId = some (attemptRecord settings plan receipt.dispatch
    receipt.attemptId .failed none (some receipt.rawReference))
  stored : (rawPayloads receipt.rawReference).isSome = true

/-- The receipt of a dispatch with the attempt that it came from. -/
structure Closes (settings : RunSettings) (plan : IngestionPlan) (rawPayloads : RawPayloads)
    (attempts : Dictionary String AttemptRecord) (receipt : IngestionDispatchReceipt) : Prop where
  identity : ∃ batchOrdinal, receipt.attemptId =
    physicalAttemptId settings plan receipt.dispatch batchOrdinal
  rejected : receipt.rejectedSourceUnitIds = []
  plain : Plain rawPayloads receipt.rawReference
  settled : Added settings plan rawPayloads attempts receipt ∨
    Skipped settings plan rawPayloads attempts receipt

/-- A receipt stays closed while other attempts are recorded. -/
theorem Closes.of_lookup {attempts attempts' : Dictionary String AttemptRecord}
    {receipt : IngestionDispatchReceipt}
    (hcloses : Closes settings plan rawPayloads attempts receipt)
    (hlookup : attempts'.lookup receipt.attemptId = attempts.lookup receipt.attemptId) :
    Closes settings plan rawPayloads attempts' receipt := by
  refine ⟨hcloses.identity, hcloses.rejected, hcloses.plain, ?_⟩
  rcases hcloses.settled with hadded | hskipped
  · exact Or.inl ⟨hadded.accepted, hadded.skipped, hlookup.trans hadded.recorded, hadded.closed⟩
  · exact Or.inr ⟨hskipped.accepted, hskipped.skipped, hlookup.trans hskipped.recorded,
      hskipped.stored⟩

/-- What a batch does: it seals no less than before, records attempts on its dispatch only, and closes
the receipt of its dispatch. -/
structure BatchEffect (settings : RunSettings) (plan : IngestionPlan) (rawPayloads : RawPayloads)
    (dispatch : IngestionDispatch) (progress next : Progress) (trace : Trace) : Prop where
  keeps : Keeps progress.adapter next.adapter
  others : ∀ identity, (∀ batchOrdinal, identity ≠ physicalAttemptId settings plan dispatch batchOrdinal) →
    next.attempts.lookup identity = progress.attempts.lookup identity
  receipts : ∃ receipt, next.receipts = progress.receipts ++ [receipt] ∧ receipt.dispatch = dispatch ∧
    (Stores settings.sha256 rawPayloads next.adapter trace →
      Closes settings plan rawPayloads next.attempts receipt)

/-- The settings of an adapter for a plan are those of the wire, and every dispatch has requests. -/
structure Adapted (adapted : Settings) (dispatch : IngestionDispatch) : Prop where
  acceptable : ∀ rawBytes, adapted.acceptable rawBytes = true →
    ∃ events, parseAddResponse rawBytes = .ok events
  classify : adapted.classifySettledIngestionFailure = classifySettledIngestionFailure
  requests : ∀ scopeId, adapted.wireRequests scopeId dispatch ≠ []

/-- An attempt that succeeds closes the receipt of its dispatch. -/
theorem closes_of_ingest_ok {adapted : Settings} {request : IngestionDispatchRequest}
    (hadapted : Adapted adapted request.dispatch) {batchOrdinal : ℕ}
    (hidentity : request.attemptId = physicalAttemptId settings plan request.dispatch batchOrdinal)
    {adapter next : Mem0Adapter} {receipt : IngestionDispatchReceipt} {trace : Trace}
    (hingest : Execution (ingest settings.sha256 adapted adapter request) trace
      (.ok (next, .ok receipt))) (hstores : Stores settings.sha256 rawPayloads next trace)
    {attempts : Dictionary String AttemptRecord}
    (hrecorded : attempts.lookup request.attemptId = some (attemptRecord settings plan
      request.dispatch request.attemptId .succeeded (some receipt.rawReference) none)) :
    Closes settings plan rawPayloads attempts receipt := by
  obtain ⟨responses, hbody, rfl, hpayloads⟩ := of_ingest_ok hingest
  obtain ⟨added, hadded, hlength, hresponses⟩ := of_addPairs_ok hbody
  rw [List.nil_append] at hadded
  subst hadded
  have hne : responses ≠ [] := by
    rintro rfl
    exact hadapted.requests _ (List.length_eq_zero_iff.mp hlength.symm)
  have hclosed : ClosedReceipt settings.sha256 rawPayloads (sourceOf request.dispatch) _ _ :=
    closedReceipt_of_responses (fun response hmem ↦ by
      obtain ⟨hacceptable, call, hcall⟩ := hresponses response hmem
      obtain ⟨hdigest, hstored⟩ := hstores.responses call response hcall
      exact ⟨hdigest, hstored, hadapted.acceptable _ hacceptable⟩) hne
      fun content hcontent ↦ hstores.payloads content (by
        rw [hpayloads]
        exact List.mem_append_right _ hcontent)
  exact ⟨⟨batchOrdinal, hidentity⟩, rfl, hclosed.plain, Or.inl ⟨rfl, rfl, hrecorded, _, hclosed⟩⟩

/-- An attempt whose failure is settled closes the receipt of a dispatch that is skipped. -/
theorem closes_of_ingest_settled {adapted : Settings} {request : IngestionDispatchRequest}
    (hadapted : Adapted adapted request.dispatch) {batchOrdinal : ℕ}
    (hidentity : request.attemptId = physicalAttemptId settings plan request.dispatch batchOrdinal)
    {adapter next : Mem0Adapter} {failure : SettledFailure} {trace : Trace}
    (hingest : Execution (ingest settings.sha256 adapted adapter request) trace
      (.ok (next, .error (.settled failure)))) (hstores : Stores settings.sha256 rawPayloads next trace)
    {attempts : Dictionary String AttemptRecord}
    (hrecorded : attempts.lookup request.attemptId = some (attemptRecord settings plan
      request.dispatch request.attemptId .failed none (some failure.rawReference))) :
    Closes settings plan rawPayloads attempts
      (skippedReceipt request.attemptId request.dispatch failure) := by
  obtain ⟨hbody, -⟩ := of_ingest_settled hingest
  obtain ⟨⟨kind, hkind⟩, call, original, hcall, hreference, hcontent⟩ := of_addPairs_settled hbody
  rw [hadapted.classify] at hkind
  have hstored := hstores.failures call original hcall failure.rawReference hreference
    failure.rawResponseBytes hcontent
  exact ⟨⟨batchOrdinal, hidentity⟩, rfl, plain_of_settled hstored hkind,
    Or.inr ⟨rfl, rfl, hrecorded, Option.isSome_iff_exists.mpr ⟨_, hstored⟩⟩⟩

/-- A batch closes the receipt of its dispatch. -/
theorem batchEffect_of_execution {adapted : Settings} {dispatch : IngestionDispatch}
    (hadapted : Adapted adapted dispatch) {remaining batchOrdinal : ℕ} {progress next : Progress}
    {trace : Trace} (hbatch : Execution (executeIngestionBatch settings plan adapted dispatch
      remaining batchOrdinal progress) trace (.ok next)) :
    BatchEffect settings plan rawPayloads dispatch progress next trace := by
  induction remaining generalizing batchOrdinal progress trace with
  | zero => cases (execution_fail.mp hbatch).2
  | succ remaining ih =>
    rw [executeIngestionBatch] at hbatch
    by_cases hordinal : 1 ≤ batchOrdinal ∧ batchOrdinal ≤ 3
    · rw [dif_pos hordinal] at hbatch
      obtain ⟨⟨adapter, outcome⟩, first, second, rfl, hingest, hrest⟩ := execution_bind_ok hbatch
      cases outcome with
      | ok receipt =>
        obtain ⟨rfl, hsame⟩ := execution_pure.mp hrest
        obtain rfl := Except.ok.inj hsame
        obtain ⟨responses, -, hreceipt, hpayloads⟩ := of_ingest_ok hingest
        refine ⟨fun content hcontent ↦ ?_, fun identity hother ↦ AList.lookup_insert_ne (hother _),
          receipt, rfl, ?_, fun hstores ↦ ?_⟩
        · change content ∈ adapter.sealedPayloads
          rw [hpayloads]
          exact List.mem_append_left _ hcontent
        · rw [hreceipt]
          rfl
        · rw [List.append_nil] at hstores
          exact closes_of_ingest_ok hadapted rfl hingest (hstores.part (fun _ hmem ↦ hmem)
            fun _ hmem ↦ hmem) (AList.lookup_insert _)
      | error error =>
        cases error with
        | settled failure =>
          obtain ⟨-, hpayloads⟩ := of_ingest_settled hingest
          have hkeeps : Keeps progress.adapter adapter := by
            intro content hcontent
            rw [hpayloads]
            exact hcontent
          dsimp only at hrest
          split_ifs at hrest with hlast
          · obtain ⟨rfl, hsame⟩ := execution_pure.mp hrest
            obtain rfl := Except.ok.inj hsame
            refine ⟨hkeeps, fun identity hother ↦ AList.lookup_insert_ne (hother _), _, rfl, rfl,
              fun hstores ↦ ?_⟩
            rw [List.append_nil] at hstores
            exact closes_of_ingest_settled hadapted rfl hingest (hstores.part (fun _ hmem ↦ hmem)
              fun _ hmem ↦ hmem) (AList.lookup_insert _)
          · obtain ⟨pause, waited, later, rfl, -, hlater⟩ := execution_bind_ok hrest
            cases pause with
            | cancelled => cases (execution_fail.mp hlater).2
            | slept =>
              obtain ⟨hkept, hothers, receipt, hreceipts, hdispatch, hcloses⟩ := ih hlater
              refine ⟨fun content hcontent ↦ hkept content (hkeeps content hcontent),
                fun identity hother ↦ (hothers identity hother).trans (AList.lookup_insert_ne (hother _)),
                receipt, hreceipts, hdispatch, fun hstores ↦ hcloses (hstores.part
                  (fun _ hmem ↦ hmem) fun exchange hmem ↦ ?_)⟩
              exact List.mem_append_right _ (List.mem_append_right _ hmem)
        | call | valueError | cancelled => cases (execution_fail.mp hrest).2
    · rw [dif_neg hordinal] at hbatch
      cases (execution_fail.mp hbatch).2

end Batches

/-! ### Dispatches -/

section Dispatches

variable {settings : RunSettings} {plan : IngestionPlan} {rawPayloads : RawPayloads}

/-- What the dispatches of a plan do: every one leaves a receipt that is closed. -/
structure RunEffect (settings : RunSettings) (plan : IngestionPlan) (rawPayloads : RawPayloads)
    (dispatches : List IngestionDispatch) (progress next : Progress) (trace : Trace) : Prop where
  keeps : Keeps progress.adapter next.adapter
  others : ∀ identity, (∀ dispatch ∈ dispatches, ∀ batchOrdinal,
      identity ≠ physicalAttemptId settings plan dispatch batchOrdinal) →
    next.attempts.lookup identity = progress.attempts.lookup identity
  receipts : ∃ receipts, next.receipts = progress.receipts ++ receipts ∧
    receipts.map IngestionDispatchReceipt.dispatch = dispatches ∧
    (Stores settings.sha256 rawPayloads next.adapter trace →
      ∀ receipt ∈ receipts, Closes settings plan rawPayloads next.attempts receipt)

/-- The dispatches of a plan leave receipts that are closed. -/
theorem runEffect_of_execution (hsha256 : Function.Injective settings.sha256) {adapted : Settings}
    {dispatches : List IngestionDispatch}
    (hadapted : ∀ dispatch ∈ dispatches, Adapted adapted dispatch)
    (hordinals : (dispatches.map IngestionDispatch.dispatchOrdinal).Nodup)
    {progress next : Progress} {trace : Trace}
    (hrun : Execution (executeDispatches settings plan adapted dispatches progress) trace (.ok next)) :
    RunEffect settings plan rawPayloads dispatches progress next trace := by
  induction dispatches generalizing progress trace with
  | nil =>
    obtain ⟨rfl, hsame⟩ := execution_pure.mp hrun
    obtain rfl := Except.ok.inj hsame
    exact ⟨fun _ hcontent ↦ hcontent, fun _ _ ↦ rfl, [], (List.append_nil _).symm, rfl,
      fun _ _ hnil ↦ absurd hnil (List.not_mem_nil)⟩
  | cons dispatch rest ih =>
    rw [executeDispatches] at hrun
    obtain ⟨middle, first, second, rfl, hbatch, hrest⟩ := execution_bind_ok hrun
    rw [List.map_cons, List.nodup_cons] at hordinals
    have hbatch := @batchEffect_of_execution settings plan rawPayloads adapted dispatch
      (hadapted dispatch List.mem_cons_self) _ _ _ _ _ hbatch
    have hrest := ih (fun other hother ↦ hadapted other (List.mem_cons_of_mem _ hother)) hordinals.2
      hrest
    obtain ⟨receipt, hreceipt, hdispatch, hcloses⟩ := hbatch.receipts
    obtain ⟨receipts, hreceipts, hdispatches, hclosed⟩ := hrest.receipts
    refine ⟨fun content hcontent ↦ hrest.keeps content (hbatch.keeps content hcontent),
      fun identity hother ↦ ?_, receipt :: receipts, ?_, ?_, fun hstores ↦
        List.forall_mem_cons.mpr ⟨?_, ?_⟩⟩
    · rw [hrest.others identity fun other hmem ↦ hother other (List.mem_cons_of_mem _ hmem),
        hbatch.others identity (hother dispatch List.mem_cons_self)]
    · rw [hreceipts, hreceipt, List.append_assoc, List.singleton_append]
    · rw [List.map_cons, hdispatch, hdispatches]
    · have hearlier := hcloses (hstores.part hrest.keeps fun exchange hmem ↦
        List.mem_append_left _ hmem)
      obtain ⟨batchOrdinal, hidentity⟩ := hearlier.identity
      refine hearlier.of_lookup (hrest.others _ fun other hmem otherOrdinal hsame ↦ ?_)
      rw [hidentity, hdispatch] at hsame
      refine hordinals.1 (List.mem_map.mpr ⟨other, hmem, ?_⟩)
      exact (ordinal_of_physicalAttemptId hsha256 hsame).symm
    · exact hclosed (hstores.part (fun _ hcontent ↦ hcontent) fun exchange hmem ↦
        List.mem_append_right _ hmem)

end Dispatches

/-! ### The plan -/

section Plans

variable {sha256 : Bytes → String} {encodeAddRequest : Mem0Source → List Message → Except String Json}

/-- A source has at least one message. -/
theorem sourceMessages_ne_nil {source : Mem0Source} {messages : List Message}
    (hmessages : sourceMessages sha256 source = .ok messages) : messages ≠ [] := by
  rintro rfl
  unfold sourceMessages at hmessages
  dsimp only at hmessages
  split_ifs at hmessages
  · rw [longMemEvalMessages] at hmessages
    obtain ⟨document, -, hread⟩ := bind_eq_ok.mp hmessages
    split at hread
    · exact absurd ((mapM_eq_nil_iff hread).mp rfl) (List.cons_ne_nil _ _)
    · cases hread
  · unfold plainMessages at hmessages
    split at hmessages <;> cases hmessages

/-- A source has at least one request. -/
theorem addRequests_ne_nil {source : Mem0Source} {requests : List WireRequest}
    (hrequests : addRequests sha256 encodeAddRequest source = .ok requests) : requests ≠ [] := by
  obtain ⟨messages, hmessages, hpairs⟩ := bind_eq_ok.mp hrequests
  exact fun hnil ↦ messagePairs_ne_nil (sourceMessages_ne_nil hmessages)
    ((mapM_eq_nil_iff hpairs).mp hnil)

/-- A plan has one dispatch for each batch. -/
theorem units_planDispatches (operationKind : String) (fingerprint : ℕ → List SourceUnit → String)
    (hfingerprint : ∀ ordinal other units units',
      fingerprint ordinal units = fingerprint other units' → ordinal = other)
    (batches : List (List SourceUnit)) :
    (planDispatches operationKind fingerprint hfingerprint batches).dispatches.map
      IngestionDispatch.orderedSourceUnits = batches := by
  change (batches.mapIdx _).map _ = batches
  rw [List.mapIdx_eq_zipIdx_map, List.map_map]
  exact List.zipIdx_map_fst 0 batches

/-- The dispatches of the sources of a plan, and their requests. -/
structure PlannedAdds (sources : List Mem0Source) (frozen : FrozenPlan) (planned : List PlannedAdd) :
    Prop where
  ordinals : sources.map (fun source ↦ source.ordinal) = (List.range sources.length).map Nat.succ
  distinct : (sources.map fun source ↦ source.sourceUnitId).Nodup
  single : frozen.dispatches.map IngestionDispatch.orderedSourceUnits =
    sources.map fun source ↦ [source.toSourceUnit]
  dispatches : planned.map PlannedAdd.dispatch = frozen.dispatches
  requests : ∀ add ∈ planned, add.requests ≠ []

theorem plannedAdds_of_planAdds {fingerprint : ℕ → List SourceUnit → String}
    {hfingerprint : ∀ ordinal other units units',
      fingerprint ordinal units = fingerprint other units' → ordinal = other}
    {sources : List Mem0Source} {frozen : FrozenPlan} {planned : List PlannedAdd}
    (hplan : planAdds sha256 encodeAddRequest fingerprint hfingerprint sources =
      .ok (frozen, planned)) : PlannedAdds sources frozen planned := by
  obtain ⟨plan, hfrozen, hrest⟩ := bind_eq_ok.mp hplan
  obtain ⟨requests, hrequests, hpair⟩ := bind_eq_ok.mp hrest
  obtain ⟨rfl, rfl⟩ := Prod.mk.inj (Except.ok.inj hpair)
  have hread := mapM_eq_ok.mp (mapError_eq_ok.mp hrequests)
  unfold planIngestion at hfrozen
  split_ifs at hfrozen with hempty hordinals hdistinct
  obtain rfl := Except.ok.inj hfrozen
  rw [ne_eq, not_not, List.map_map, List.length_map] at hordinals
  rw [List.map_map] at hdistinct
  have hsingle := (units_planDispatches addOperation fingerprint hfingerprint ((sources.map
    Mem0Source.toSourceUnit).map fun source ↦ [source])).trans List.map_map
  have hlength := congrArg List.length hread
  rw [List.length_map, List.length_map] at hlength
  refine ⟨hordinals, hdistinct, hsingle, ?_, fun add hadd ↦ ?_⟩
  · rw [← List.map_uncurry_zip_eq_zipWith, List.map_map]
    refine List.map_fst_zip (le_of_eq ?_)
    have := congrArg List.length hsingle
    rwa [List.length_map, List.length_map, hlength] at this
  · rw [← List.map_uncurry_zip_eq_zipWith] at hadd
    obtain ⟨⟨dispatch, added⟩, hmem, rfl⟩ := List.mem_map.mp hadd
    have hadded : (Except.ok added : Except String _) ∈ requests.map Except.ok :=
      List.mem_map_of_mem (List.of_mem_zip hmem).2
    rw [← hread] at hadded
    obtain ⟨source, -, hsource⟩ := List.mem_map.mp hadded
    exact addRequests_ne_nil hsource

/-- A plan whose dispatches have requests suits its adapter. -/
theorem adapted_of_plannedAdds {settings : RunSettings} {plan : IngestionPlan}
    {sources : List Mem0Source} {frozen : FrozenPlan} {planned : List PlannedAdd}
    (hplanned : PlannedAdds sources frozen planned) {dispatch : IngestionDispatch}
    (hdispatch : dispatch ∈ frozen.dispatches) :
    Adapted (adapterSettings settings plan frozen planned) dispatch where
  acceptable rawBytes haccepted := by
    change (parseAddResponse rawBytes).toOption.isSome = true at haccepted
    cases hread : parseAddResponse rawBytes with
    | error message => rw [hread] at haccepted; cases haccepted
    | ok events => exact ⟨events, rfl⟩
  classify := rfl
  requests scopeId := by
    rw [← hplanned.dispatches] at hdispatch
    obtain ⟨add, hadd, rfl⟩ := List.mem_map.mp hdispatch
    change requestsOf planned add.dispatch ≠ []
    cases hfind : planned.find? fun other ↦ other.dispatch = add.dispatch with
    | none => exact absurd rfl (of_decide_eq_false
        (Bool.eq_false_iff.mpr (List.find?_eq_none.mp hfind add hadd)))
    | some found =>
      rw [requestsOf, hfind]
      exact hplanned.requests found (List.mem_of_find?_eq_some hfind)

theorem nodup_ordinals (frozen : FrozenPlan) :
    (frozen.dispatches.map IngestionDispatch.dispatchOrdinal).Nodup := by
  rw [List.nodup_iff_injective_getElem]
  rintro ⟨index, hindex⟩ ⟨other, hother⟩ hsame
  rw [List.length_map] at hindex hother
  simp only [List.getElem_map, frozen.ordinals _ hindex, frozen.ordinals _ hother] at hsame
  exact Fin.ext (Nat.succ.inj hsame)

end Plans

/-! ### Scopes -/

section Scopes

variable {sha256 : Bytes → String} {runId : String} {adapter next : Mem0Adapter} {trace : Trace}

/-- A scope that was allocated was empty. -/
theorem of_allocateIngestionScope {absence : CapturedProjection}
    (hallocate : Execution (allocateIngestionScope sha256 adapter runId) trace
      (.ok (next, absence))) :
    Execution (captureProjection sha256 adapter runId) trace (.ok (next, absence)) ∧
      absence.native.points = [] := by
  unfold allocateIngestionScope at hallocate
  split_ifs at hallocate
  · cases (execution_fail.mp hallocate).2
  · obtain ⟨⟨middle, captured⟩, first, second, rfl, hcapture, hrest⟩ := execution_bind_ok hallocate
    dsimp only at hrest
    split_ifs at hrest with hvisible
    · cases (execution_fail.mp hrest).2
    · obtain ⟨rfl, hsame⟩ := execution_pure.mp hrest
      obtain ⟨rfl, rfl⟩ := Prod.mk.inj (Except.ok.inj hsame)
      rw [List.append_nil]
      exact ⟨hcapture, by_contra fun hpoints ↦ hvisible (Or.inr hpoints)⟩

/-- A projection of a ready scope agrees with the capture that made it ready. -/
theorem of_project {captured : CapturedProjection}
    (hproject : Execution (project sha256 adapter runId) trace (.ok (next, captured))) :
    ∃ ready, adapter.readyProjections runId = some ready ∧ agree captured ready ∧
      Execution (captureProjection sha256 adapter runId) trace (.ok (next, captured)) := by
  unfold project at hproject
  split at hproject
  · cases (execution_fail.mp hproject).2
  · next ready hready =>
    obtain ⟨⟨middle, found⟩, first, second, rfl, hcapture, hrest⟩ := execution_bind_ok hproject
    dsimp only at hrest
    split_ifs at hrest with hagree
    · obtain ⟨rfl, hsame⟩ := execution_pure.mp hrest
      obtain ⟨rfl, rfl⟩ := Prod.mk.inj (Except.ok.inj hsame)
      rw [List.append_nil]
      exact ⟨ready, hready, hagree, hcapture⟩
    · cases (execution_fail.mp hrest).2

/-- What readiness comes to: two captures that agree, and show no source but the planned ones. -/
structure Readies (sha256 : Bytes → String) (binding : ScopeBinding) (planned : List PlannedAdd)
    (receipt : IngestionReceipt) (adapter next : Mem0Adapter) (references : List String)
    (trace : Trace) (first second : CapturedProjection) : Prop where
  captures : ∃ middle last firstTrace secondTrace, trace = firstTrace ++ secondTrace ∧
    Execution (captureProjection sha256 adapter binding.ingestionOccurrenceId) firstTrace
      (.ok (middle, first)) ∧
    Execution (captureProjection sha256 middle binding.ingestionOccurrenceId) secondTrace
      (.ok (last, second)) ∧
    next =
      { last with
        readyProjections :=
          Function.update last.readyProjections binding.ingestionOccurrenceId (some second) }
  agree : agree first second
  sources : ∀ point ∈ second.native.points, checkPointSource binding
    (completedSources planned receipt.rejectedSourceUnitIds) point = .ok ()
  references : references = receipt.rawReferences ++ CapturedProjection.references first ++
    CapturedProjection.references second

theorem readies_of_execution {binding : ScopeBinding} {planned : List PlannedAdd}
    {expected : List String} {receipt : IngestionReceipt} {references : List String}
    (hready : Execution (waitReady sha256 binding planned adapter expected receipt) trace
      (.ok (next, references))) :
    ∃ first second, Readies sha256 binding planned receipt adapter next references trace first
      second := by
  obtain ⟨_, -, hrest⟩ := execution_ofExcept_bind_ok hready
  obtain ⟨⟨middle, first⟩, firstTrace, restTrace, rfl, hfirst, hrest⟩ := execution_bind_ok hrest
  obtain ⟨⟨last, second⟩, secondTrace, lastTrace, rfl, hsecond, hrest⟩ := execution_bind_ok hrest
  dsimp only at hrest
  split_ifs at hrest with hagree
  · obtain ⟨_, hsources, hdone⟩ := execution_ofExcept_bind_ok hrest
    obtain ⟨rfl, hsame⟩ := execution_pure.mp hdone
    obtain ⟨rfl, rfl⟩ := Prod.mk.inj (Except.ok.inj hsame)
    rw [List.append_nil]
    exact ⟨first, second, ⟨middle, last, firstTrace, secondTrace, rfl, hfirst, hsecond, rfl⟩,
      hagree, forM_eq_ok.mp (mapError_eq_ok.mp hsources), rfl⟩
  · cases (execution_fail.mp hrest).2

end Scopes

/-! ### Ledgers -/

section Ledgers

variable {settings : RunSettings} {plan : IngestionPlan} {rawPayloads : RawPayloads}
  {frozen : FrozenPlan} {planned : List PlannedAdd} {receipts : List IngestionDispatchReceipt}
  {attempts : Dictionary String AttemptRecord}

/-- The receipts of a plan that was ingested: one for each dispatch, and each is closed. -/
structure ClosedLedger (settings : RunSettings) (plan : IngestionPlan) (rawPayloads : RawPayloads)
    (frozen : FrozenPlan) (planned : List PlannedAdd) (receipts : List IngestionDispatchReceipt)
    (attempts : Dictionary String AttemptRecord) : Prop where
  planned : PlannedAdds plan.orderedSourceUnits frozen planned
  dispatches : receipts.map IngestionDispatchReceipt.dispatch = frozen.dispatches
  closes : ∀ receipt ∈ receipts, Closes settings plan rawPayloads attempts receipt

theorem ClosedLedger.units
    (hledger : ClosedLedger settings plan rawPayloads frozen planned receipts attempts) :
    (receipts.map fun receipt ↦ receipt.dispatch.orderedSourceUnits) =
      plan.orderedSourceUnits.map fun source ↦ [source.toSourceUnit] := by
  rw [← hledger.planned.single, ← hledger.dispatches, List.map_map]
  rfl

/-- The dispatch of a receipt has one source. -/
theorem ClosedLedger.source
    (hledger : ClosedLedger settings plan rawPayloads frozen planned receipts attempts)
    {receipt : IngestionDispatchReceipt} (hreceipt : receipt ∈ receipts) :
    receipt.dispatch.orderedSourceUnits.map SourceUnit.sourceUnitId = [sourceOf receipt.dispatch] ∧
      sourceOf receipt.dispatch ∈ plan.orderedSourceUnits.map fun source ↦ source.sourceUnitId := by
  have hunits : receipt.dispatch.orderedSourceUnits ∈
      plan.orderedSourceUnits.map fun source ↦ [source.toSourceUnit] :=
    hledger.units ▸ List.mem_map_of_mem (f := fun receipt : IngestionDispatchReceipt ↦
      receipt.dispatch.orderedSourceUnits) hreceipt
  obtain ⟨source, hsource, hsingle⟩ := List.mem_map.mp hunits
  rw [sourceOf, ← hsingle]
  exact ⟨rfl, List.mem_map.mpr ⟨source, hsource, rfl⟩⟩

theorem ClosedLedger.sources
    (hledger : ClosedLedger settings plan rawPayloads frozen planned receipts attempts) :
    (receipts.map fun receipt ↦ sourceOf receipt.dispatch) =
      plan.orderedSourceUnits.map fun source ↦ source.sourceUnitId := by
  have hunits := congrArg (List.map fun units : List SourceUnit ↦
    (units.head?.map SourceUnit.sourceUnitId).getD "") hledger.units
  rw [List.map_map, List.map_map] at hunits
  exact hunits

/-- Two receipts of one source are the same. -/
theorem ClosedLedger.eq_of_source
    (hledger : ClosedLedger settings plan rawPayloads frozen planned receipts attempts)
    {receipt other : IngestionDispatchReceipt} (hreceipt : receipt ∈ receipts)
    (hother : other ∈ receipts) (hsame : sourceOf receipt.dispatch = sourceOf other.dispatch) :
    receipt = other := by
  have hnodup := hledger.planned.distinct
  rw [← hledger.sources] at hnodup
  exact List.inj_on_of_nodup_map hnodup hreceipt hother hsame

theorem Closes.partition {receipt : IngestionDispatchReceipt}
    (hcloses : Closes settings plan rawPayloads attempts receipt)
    (hsource : receipt.dispatch.orderedSourceUnits.map SourceUnit.sourceUnitId =
      [sourceOf receipt.dispatch]) :
    receipt.rejectedSourceUnitIds = [] ∧
      (Added settings plan rawPayloads attempts receipt ∧
          receipt.acceptedSourceUnitIds = [sourceOf receipt.dispatch] ∧
          receipt.skippedSourceUnitIds = [] ∨
        Skipped settings plan rawPayloads attempts receipt ∧ receipt.acceptedSourceUnitIds = [] ∧
          receipt.skippedSourceUnitIds = [sourceOf receipt.dispatch]) := by
  refine ⟨hcloses.rejected, ?_⟩
  rcases hcloses.settled with hadded | hskipped
  · exact Or.inl ⟨hadded, hadded.accepted, hadded.skipped⟩
  · exact Or.inr ⟨hskipped, hskipped.accepted, hskipped.skipped.trans hsource⟩

/-- The sources of a plan are those that were added or skipped. -/
theorem ClosedLedger.covers
    (hledger : ClosedLedger settings plan rawPayloads frozen planned receipts attempts)
    {sourceId : String} :
    sourceId ∈ (ingestionReceipt plan receipts).acceptedSourceUnitIds ++
        (ingestionReceipt plan receipts).rejectedSourceUnitIds ++
        (ingestionReceipt plan receipts).skippedSourceUnitIds ↔
      sourceId ∈ plan.orderedSourceUnits.map fun source ↦ source.sourceUnitId := by
  rw [← hledger.sources, List.mem_append, List.mem_append]
  simp only [ingestionReceipt, List.mem_flatMap, List.mem_map]
  constructor
  · rintro ((⟨receipt, hreceipt, hmem⟩ | ⟨receipt, hreceipt, hmem⟩) | ⟨receipt, hreceipt, hmem⟩)
    all_goals
      obtain ⟨hrejected, ⟨-, haccepted, hskipped⟩ | ⟨-, haccepted, hskipped⟩⟩ :=
        (hledger.closes receipt hreceipt).partition (hledger.source hreceipt).1
      all_goals simp only [hrejected, haccepted, hskipped, List.mem_singleton, List.not_mem_nil] at hmem
      all_goals exact ⟨receipt, hreceipt, hmem.symm⟩
  · rintro ⟨receipt, hreceipt, rfl⟩
    obtain ⟨-, ⟨-, haccepted, -⟩ | ⟨-, -, hskipped⟩⟩ :=
      (hledger.closes receipt hreceipt).partition (hledger.source hreceipt).1
    · exact Or.inl (Or.inl ⟨receipt, hreceipt, haccepted ▸ List.mem_singleton_self _⟩)
    · exact Or.inr ⟨receipt, hreceipt, hskipped ▸ List.mem_singleton_self _⟩

theorem ClosedLedger.rejected
    (hledger : ClosedLedger settings plan rawPayloads frozen planned receipts attempts) :
    (ingestionReceipt plan receipts).rejectedSourceUnitIds = [] :=
  List.flatMap_eq_nil_iff.mpr fun receipt hreceipt ↦ (hledger.closes receipt hreceipt).rejected

/-- The source of a receipt was skipped when the receipt says so. -/
theorem ClosedLedger.skipped_iff
    (hledger : ClosedLedger settings plan rawPayloads frozen planned receipts attempts)
    {receipt : IngestionDispatchReceipt} (hreceipt : receipt ∈ receipts) :
    sourceOf receipt.dispatch ∈ (ingestionReceipt plan receipts).skippedSourceUnitIds ↔
      receipt.skippedSourceUnitIds = [sourceOf receipt.dispatch] := by
  constructor
  · intro hmem
    obtain ⟨other, hother, hskip⟩ := List.mem_flatMap.mp hmem
    obtain ⟨-, ⟨-, -, hskipped⟩ | ⟨-, -, hskipped⟩⟩ :=
      (hledger.closes other hother).partition (hledger.source hother).1
    · rw [hskipped] at hskip
      cases hskip
    · rw [hskipped] at hskip
      obtain rfl := hledger.eq_of_source hreceipt hother (List.mem_singleton.mp hskip)
      exact hskipped
  · intro hskipped
    exact List.mem_flatMap.mpr ⟨receipt, hreceipt, hskipped ▸ List.mem_singleton_self _⟩

/-- The attempt of every receipt closes its dispatch. -/
theorem ClosedLedger.validateDispatch_eq_ok
    (hledger : ClosedLedger settings plan rawPayloads frozen planned receipts attempts)
    {record : IngestionPlanRecord} (hoccurrence : record.ingestionOccurrenceId =
      plan.ingestionOccurrenceId) (hskips : record.skippedSourceUnitIds =
      (ingestionReceipt plan receipts).skippedSourceUnitIds)
    {receipt : IngestionDispatchReceipt} (hreceipt : receipt ∈ receipts) :
    ∃ kept, validateDispatch settings.sha256 rawPayloads record attempts.lookup receipt.attemptId
        (receipt.dispatch.orderedSourceUnits.map SourceUnit.sourceUnitId) = .ok kept ∧
      ∀ reference ∈ kept, reference = receipt.rawReference := by
  obtain ⟨hsource, -⟩ := hledger.source hreceipt
  have hskipped := hledger.skipped_iff hreceipt
  rw [← hskips] at hskipped
  rw [hsource]
  have identity (outcome : AttemptOutcome) (rawResponseRef rawErrorRef : Option String) :
      (attemptRecord settings plan receipt.dispatch receipt.attemptId outcome rawResponseRef
          rawErrorRef).parentKind = .ingestionPlan ∧
        (attemptRecord settings plan receipt.dispatch receipt.attemptId outcome rawResponseRef
          rawErrorRef).parentId = record.ingestionOccurrenceId ∧
        (attemptRecord settings plan receipt.dispatch receipt.attemptId outcome rawResponseRef
          rawErrorRef).stage = "memory_ingest" ∧ [sourceOf receipt.dispatch].length = 1 :=
    ⟨rfl, hoccurrence.symm, rfl, rfl⟩
  obtain ⟨-, ⟨hadded, -, hnone⟩ | ⟨hskip, -, hsome⟩⟩ :=
    (hledger.closes receipt hreceipt).partition hsource
  · have hnot : ¬ ∀ sourceId ∈ [sourceOf receipt.dispatch], sourceId ∈ record.skippedSourceUnitIds := by
      rw [List.forall_mem_singleton, hskipped, hnone]
      exact List.cons_ne_nil _ _ ∘ Eq.symm
    obtain ⟨payload, hclosed⟩ := hadded.closed
    refine ⟨some receipt.rawReference, ?_, fun reference hmem ↦ (Option.some_inj.mp hmem).symm⟩
    rw [validateDispatch, hadded.recorded]
    simp only [bind, Except.bind, require_of (identity .succeeded _ _), if_neg hnot,
      require_of (show (attemptRecord settings plan receipt.dispatch receipt.attemptId .succeeded
        (some receipt.rawReference) none).outcome = .succeeded from rfl)]
    change (payloadOf rawPayloads receipt.rawReference _ >>= _) = _
    rw [payloadOf_of_stored hclosed.stored]
    change (validateAddReceipt _ _ payload (sourceOf receipt.dispatch) >>= _) = _
    rw [hclosed.valid]
    rfl
  · have hall : ∀ sourceId ∈ [sourceOf receipt.dispatch], sourceId ∈ record.skippedSourceUnitIds := by
      rw [List.forall_mem_singleton, hskipped, hsome]
    refine ⟨none, ?_, fun _ hnone ↦ absurd hnone (Option.not_mem_none _)⟩
    rw [validateDispatch, hskip.recorded]
    simp only [bind, Except.bind, require_of (identity .failed _ _), if_pos hall]
    rw [require_of ⟨rfl, receipt.rawReference, rfl, hskip.stored⟩]
    rfl

end Ledgers

/-! ### Points -/

/-- The sources of a plan are the units of its dispatches. -/
theorem completedSources_nil {sources : List Mem0Source} {frozen : FrozenPlan}
    {planned : List PlannedAdd} (hplanned : PlannedAdds sources frozen planned) :
    completedSources planned [] = sources.map Mem0Source.toSourceUnit := by
  have hunits : (planned.map fun add ↦ add.dispatch.orderedSourceUnits.take 1) =
      sources.map fun source ↦ [source.toSourceUnit] := by
    have hsingle := congrArg (List.map (List.take 1)) hplanned.single
    rw [← hplanned.dispatches, List.map_map, List.map_map, List.map_map] at hsingle
    exact hsingle
  rw [completedSources, List.flatMap_def, hunits, List.filter_eq_self.mpr fun _ _ ↦
    decide_eq_true List.not_mem_nil, ← List.flatMap_def, List.map_eq_flatMap]

/-- The ordinals of the sources of a plan are their places. -/
theorem ordinal_of_getElem {sources : List Mem0Source} {frozen : FrozenPlan}
    {planned : List PlannedAdd} (hplanned : PlannedAdds sources frozen planned) {index : ℕ}
    (hindex : index < sources.length) : sources[index].ordinal = index + 1 := by
  have hordinals := congrArg (fun ordinals : List ℕ ↦ ordinals[index]?) hplanned.ordinals
  simpa [List.getElem?_map, List.getElem?_eq_getElem hindex, List.getElem?_range hindex] using hordinals

/-- A point of a ready scope has a source of the plan. -/
theorem validatePointSource_eq_ok {plan : IngestionPlan} {frozen : FrozenPlan}
    {planned : List PlannedAdd} (hplanned : PlannedAdds plan.orderedSourceUnits frozen planned)
    {record : IngestionPlanRecord}
    (hoccurrence : record.ingestionOccurrenceId = plan.ingestionOccurrenceId)
    (hplan : record.ingestionPlanId = plan.ingestionPlanId)
    (hordered : record.orderedSourceUnitIds =
      plan.orderedSourceUnits.map fun source ↦ source.sourceUnitId)
    (hrejected : record.rejectedSourceUnitIds = [])
    (hcovers : ∀ sourceId ∈ record.orderedSourceUnitIds, sourceId ∈ record.acceptedSourceUnitIds ++
      record.rejectedSourceUnitIds ++ record.skippedSourceUnitIds) {point : ProjectionPoint}
    (hpoint : checkPointSource ⟨plan.ingestionOccurrenceId, plan.ingestionPlanId⟩
      (completedSources planned []) point = .ok ()) :
    validatePointSource record point = .ok () := by
  rw [completedSources_nil hplanned] at hpoint
  unfold checkPointSource at hpoint
  unfold validatePointSource
  cases hmetadata : point.metadata with
  | none => rfl
  | some metadata =>
    rw [hmetadata] at hpoint
    obtain ⟨_, hscope, hrest⟩ := bind_eq_ok.mp hpoint
    rw [require_eq_ok] at hscope
    split at hrest
    · cases hrest
    · next unit hunit =>
      obtain ⟨_, hordinal, -⟩ := bind_eq_ok.mp hrest
      rw [require_eq_ok] at hordinal
      have hmem := List.mem_reverse.mp (List.mem_of_find?_eq_some hunit)
      have hsame : unit.sourceUnitId = metadata.sourceUnitId := by
        have hfound := List.find?_some hunit
        exact of_decide_eq_true hfound
      obtain ⟨source, hsource, rfl⟩ := List.mem_map.mp hmem
      obtain ⟨index, hindex, rfl⟩ := List.getElem_of_mem hsource
      have hid : metadata.sourceUnitId ∈ record.orderedSourceUnitIds := by
        rw [hordered, ← hsame]
        exact List.mem_map.mpr ⟨_, hsource, rfl⟩
      have hknown := hcovers _ hid
      rw [hrejected, List.append_nil] at hknown
      refine require_of ⟨hscope.1.trans hoccurrence.symm, hscope.2.trans hplan.symm, hknown, ?_⟩ _
      have hplace : (metadata.sourceUnitId, index) ∈ record.orderedSourceUnitIds.zipIdx := by
        rw [hordered, List.mem_zipIdx_iff_getElem?, List.getElem?_map,
          List.getElem?_eq_getElem hindex]
        exact congrArg some hsame
      cases hfind : record.orderedSourceUnitIds.zipIdx.reverse.find? fun entry ↦
          entry.1 = metadata.sourceUnitId with
      | none =>
        have hnone := List.find?_eq_none.mp hfind _ (List.mem_reverse.mpr hplace)
        exact absurd (decide_eq_true rfl) hnone
      | some entry =>
        have hfound := List.find?_some hfind
        have hentry := List.mem_reverse.mp (List.mem_of_find?_eq_some hfind)
        rw [List.mem_zipIdx_iff_getElem?] at hentry hplace
        have hnodup : record.orderedSourceUnitIds.Nodup := hordered ▸ hplanned.distinct
        have hindices : entry.2 = index := by
          refine (List.getElem?_inj (List.getElem?_eq_some_iff.mp hentry).1 hnodup).mp ?_
          rw [hentry, hplace, of_decide_eq_true hfound]
        rw [Option.any_some, hindices, decide_eq_true_eq, hordinal]
        exact_mod_cast ordinal_of_getElem hplanned hindex

/-! ### Plans that are read back -/

section Reconstruction

variable {settings : RunSettings} {plan : IngestionPlan} {rawPayloads : RawPayloads}

/-- The evidence of a plan that was ingested. -/
structure SealedPlan (settings : RunSettings) (plan : IngestionPlan) (rawPayloads : RawPayloads)
    (absence first second projection : CapturedProjection)
    (receipts : List IngestionDispatchReceipt) (attempts : Dictionary String AttemptRecord) :
    Prop where
  absent : ∃ pages, SealedCapture settings.sha256 rawPayloads plan.ingestionOccurrenceId absence pages
  empty : absence.native.points = []
  ledger : ∃ frozen planned,
    ClosedLedger settings plan rawPayloads frozen planned receipts attempts ∧
      ∀ point ∈ projection.native.points, checkPointSource
        ⟨plan.ingestionOccurrenceId, plan.ingestionPlanId⟩ (completedSources planned []) point = .ok ()
  before : ∃ pages, SealedCapture settings.sha256 rawPayloads plan.ingestionOccurrenceId first pages
  after : ∃ pages, SealedCapture settings.sha256 rawPayloads plan.ingestionOccurrenceId second pages
  projected : ∃ pages,
    SealedCapture settings.sha256 rawPayloads plan.ingestionOccurrenceId projection pages
  consecutive : second.captureSequence = first.captureSequence + 1 ∧
    projection.captureSequence = second.captureSequence + 1
  stable : agree first second
  unchanged : agree projection second

/-- The references of readiness. -/
def readinessReferences (receipts : List IngestionDispatchReceipt)
    (first second : CapturedProjection) : List String :=
  receipts.map IngestionDispatchReceipt.rawReference ++ CapturedProjection.references first ++
    CapturedProjection.references second

/-- The source dispatches of a closed ledger are all validated. -/
theorem exists_mapM_validateDispatch {record : IngestionPlanRecord}
    {attempts : Dictionary String AttemptRecord} {receipts : List IngestionDispatchReceipt}
    (hvalid : ∀ receipt ∈ receipts, ∃ kept, validateDispatch settings.sha256 rawPayloads record
        attempts.lookup receipt.attemptId
        (receipt.dispatch.orderedSourceUnits.map SourceUnit.sourceUnitId) = .ok kept ∧
      ∀ reference ∈ kept, reference = receipt.rawReference) :
    ∃ kept, ((receipts.map IngestionDispatchReceipt.attemptId).zip (receipts.map fun receipt ↦
          receipt.dispatch.orderedSourceUnits.map SourceUnit.sourceUnitId)).mapM
        (fun dispatch ↦ validateDispatch settings.sha256 rawPayloads record attempts.lookup
          dispatch.1 dispatch.2) = .ok kept ∧
      ∀ reference ∈ kept.reduceOption, reference ∈ receipts.map IngestionDispatchReceipt.rawReference := by
  induction receipts with
  | nil => exact ⟨[], rfl, fun _ hmem ↦ hmem⟩
  | cons receipt rest ih =>
    rw [List.forall_mem_cons] at hvalid
    obtain ⟨⟨kept, hkept, hreference⟩, hrest⟩ := hvalid
    obtain ⟨others, hothers, hmem⟩ := ih hrest
    refine ⟨kept :: others, ?_, fun reference hreduced ↦ ?_⟩
    · simp only [List.map_cons, List.zip_cons_cons, List.mapM_cons, hkept, hothers, bind, Except.bind]
      rfl
    · rw [List.reduceOption_mem_iff, List.mem_cons] at hreduced
      rw [List.map_cons, List.mem_cons]
      rcases hreduced with hsame | hlater
      · exact Or.inl (hreference reference hsame.symm)
      · exact Or.inr (hmem reference (List.reduceOption_mem_iff.mpr hlater))

/-- A plan that was ingested is read back from its evidence. -/
theorem reconstructMem0Plan_eq_ok {absence first second projection : CapturedProjection}
    {receipts : List IngestionDispatchReceipt} {attempts : Dictionary String AttemptRecord}
    (hsealed : SealedPlan settings plan rawPayloads absence first second projection receipts attempts) :
    reconstructMem0Plan settings.sha256 rawPayloads
        (planRecord plan absence receipts (readinessReferences receipts first second) projection)
        attempts.lookup =
      .ok ⟨planRecord plan absence receipts (readinessReferences receipts first second) projection,
        evidenceOf projection⟩ := by
  obtain ⟨absentPages, habsent⟩ := hsealed.absent
  obtain ⟨firstPages, hfirst⟩ := hsealed.before
  obtain ⟨secondPages, hsecond⟩ := hsealed.after
  obtain ⟨pages, hprojection⟩ := hsealed.projected
  obtain ⟨frozen, planned, hledger, hpoints⟩ := hsealed.ledger
  set record := planRecord plan absence receipts (readinessReferences receipts first second)
    projection with hrecord
  have hempty : (evidenceOf absence).projection.points = [] ∧
      (evidenceOf absence).orderedSourceUnitIds = [] := by
    refine ⟨hsealed.empty, ?_⟩
    change absence.orderedSourceUnitIds = []
    rw [habsent.sourceIds, projectionSourceUnitIds, orderedProjectionPoints, hsealed.empty,
      List.mergeSort_nil]
    rfl
  obtain ⟨kept, hkept, hreferences⟩ := @exists_mapM_validateDispatch settings rawPayloads record
    attempts receipts fun receipt hreceipt ↦ hledger.validateDispatch_eq_ok rfl rfl hreceipt
  have hsources : record.orderedDispatchSourceUnitIds.flatten = record.orderedSourceUnitIds := by
    have hsingle : record.orderedDispatchSourceUnitIds =
        receipts.map fun receipt ↦ [sourceOf receipt.dispatch] :=
      List.map_congr_left fun receipt hreceipt ↦ (hledger.source hreceipt).1
    rw [hsingle, ← List.flatMap_def, ← List.map_eq_flatMap]
    exact hledger.sources
  have hcloses : record.orderedDispatchSourceUnitIds.flatten = record.orderedSourceUnitIds ∧
      (∀ sourceId ∈ record.acceptedSourceUnitIds ++ record.rejectedSourceUnitIds ++
        record.skippedSourceUnitIds, sourceId ∈ record.orderedSourceUnitIds) ∧
      (∀ sourceId ∈ record.orderedSourceUnitIds, sourceId ∈ record.acceptedSourceUnitIds ++
        record.rejectedSourceUnitIds ++ record.skippedSourceUnitIds) ∧
      ∀ reference ∈ kept.reduceOption, reference ∈ record.readinessEvidenceRefs :=
    ⟨hsources, fun sourceId hmem ↦ hledger.covers.mp hmem, fun sourceId hmem ↦ hledger.covers.mpr hmem,
      fun reference hmem ↦ Dictionary.mem_fromKeys.mpr
        (List.mem_append_left _ (List.mem_append_left _ (hreferences reference hmem)))⟩
  have hplain : ∀ reference ∈ receipts.map IngestionDispatchReceipt.rawReference,
      Plain rawPayloads reference := by
    intro reference hmem
    obtain ⟨receipt, hreceipt, rfl⟩ := List.mem_map.mp hmem
    exact (hledger.closes receipt hreceipt).plain
  have hsnapshots := reconstructMem0ProjectionSnapshots_eq_ok hplain hfirst hsecond
    (by rw [hsealed.consecutive.1]; exact (Nat.succ_ne_self _).symm)
  have hconsecutive : (evidenceOf second).captureSequence = (evidenceOf first).captureSequence + 1 ∧
      (evidenceOf first).orderedSourceUnitIds = (evidenceOf second).orderedSourceUnitIds ∧
      (evidenceOf first).stateSha256 = (evidenceOf second).stateSha256 :=
    ⟨congrArg Nat.cast hsealed.consecutive.1, hsealed.stable⟩
  have hbinds : (evidenceOf projection).orderedSourceUnitIds = record.projectedSourceUnitIds ∧
      (evidenceOf projection).stateSha256 = record.protectedStateSha256 ∧
      (evidenceOf projection).captureSequence = (evidenceOf second).captureSequence + 1 ∧
      record.inventoryRawRef = (evidenceOf projection).summaryRawRef ∧
      (evidenceOf second).orderedSourceUnitIds = (evidenceOf projection).orderedSourceUnitIds ∧
      (evidenceOf second).stateSha256 = (evidenceOf projection).stateSha256 :=
    ⟨rfl, rfl, congrArg Nat.cast hsealed.consecutive.2, rfl, hsealed.unchanged.1.symm,
      hsealed.unchanged.2.symm⟩
  have hvalid : (evidenceOf projection).projection.points.forM (validatePointSource record) = .ok () :=
    forM_eq_ok.mpr fun point hpoint ↦ validatePointSource_eq_ok hledger.planned rfl rfl rfl
      hledger.rejected hcloses.2.2.1 (hpoints point hpoint)
  have hlengths : record.orderedDispatchAttemptIds.length =
      record.orderedDispatchSourceUnitIds.length := (List.length_map _).trans (List.length_map _).symm
  have habsence := reconstructMem0Projection_eq_ok habsent (fromKeys_references habsent).1
  have hprojected := reconstructMem0Projection_eq_ok hprojection (fromKeys_references hprojection).2
  simp only [reconstructMem0Plan, bind_eq_ok, require_eq_ok, exists_const]
  exact ⟨⟨rfl, rfl, rfl⟩, _, habsence, hempty, hlengths, kept, hkept, hcloses, _, hsnapshots,
    (evidenceOf first, evidenceOf second), rfl, hconsecutive, _, hprojected, (),
    hvalid, hbinds, rfl⟩

/-- What a plan comes to whose ingestion succeeds, once its payloads are sealed. -/
theorem sealedPlan_of_execution (hsha256 : Function.Injective settings.sha256)
    {adapter : Mem0Adapter} {attempts : Dictionary String AttemptRecord} {outcome : PlanOutcome}
    {trace : Trace}
    (hplan : Execution (executeIngestionPlan settings plan adapter attempts) trace (.ok outcome))
    (hstores : Stores settings.sha256 rawPayloads outcome.adapter trace) :
    ∃ absence first second receipts,
      outcome.record = planRecord plan absence receipts (readinessReferences receipts first second)
        outcome.projection ∧
      SealedPlan settings plan rawPayloads absence first second outcome.projection receipts
        outcome.attempts := by
  obtain ⟨⟨allocated, absence⟩, allocateTrace, _, rfl, hallocate, hrest⟩ := execution_bind_ok hplan
  obtain ⟨⟨frozen, planned⟩, hplanned, hrest⟩ := execution_ofExcept_bind_ok hrest
  obtain ⟨progress, runTrace, _, rfl, hrun, hrest⟩ := execution_bind_ok hrest
  obtain ⟨⟨ready, references⟩, readyTrace, _, rfl, hready, hrest⟩ := execution_bind_ok hrest
  obtain ⟨⟨last, projection⟩, projectTrace, _, rfl, hproject, hdone⟩ := execution_bind_ok hrest
  obtain ⟨rfl, hsame⟩ := execution_pure.mp hdone
  obtain rfl := Except.ok.inj hsame
  have hadds := plannedAdds_of_planAdds hplanned
  obtain ⟨hallocate, hempty⟩ := of_allocateIngestionScope hallocate
  obtain ⟨first, second, hreadies⟩ := readies_of_execution hready
  obtain ⟨middle, before, firstTrace, secondTrace, rfl, hfirst, hsecond, rfl⟩ := hreadies.captures
  obtain ⟨found, hfound, hunchanged, hproject⟩ := of_project hproject
  obtain rfl : second = found := by
    simp only [Function.update_self] at hfound
    exact Option.some_inj.mp hfound
  have hrunEffect := @runEffect_of_execution settings plan rawPayloads hsha256 _ _
    (fun dispatch hdispatch ↦ adapted_of_plannedAdds hadds hdispatch) (nodup_ordinals frozen) _ _ _ hrun
  obtain ⟨receipts, hreceipts, hdispatches, hcloses⟩ := hrunEffect.receipts
  rw [List.nil_append] at hreceipts
  have hkept := (@captures_of_execution _ rawPayloads _ _ _ _ _ hproject).1
  have hkeptSecond := (@captures_of_execution _ rawPayloads _ _ _ _ _ hsecond).1
  have hkeptFirst := (@captures_of_execution _ rawPayloads _ _ _ _ _ hfirst).1
  -- what was sealed at each point of the ingestion is still sealed at its end
  have hbefore : Keeps before last := hkept.keeps
  have hmiddle : Keeps middle last := fun content hcontent ↦
    hbefore content (hkeptSecond.keeps content hcontent)
  have hprogress : Keeps progress.adapter last := fun content hcontent ↦
    hmiddle content (hkeptFirst.keeps content hcontent)
  have hallocated : Keeps allocated last := fun content hcontent ↦
    hprogress content (hrunEffect.keeps content hcontent)
  have habsent := (captures_of_execution hallocate).2 (hstores.part hallocated fun _ hmem ↦
    List.mem_append_left _ hmem)
  have hclosed := hcloses (hstores.part hprogress fun _ hmem ↦
    List.mem_append_right _ (List.mem_append_left _ hmem))
  have hsealedFirst := (captures_of_execution hfirst).2 (hstores.part hmiddle fun _ hmem ↦
    List.mem_append_right _ (List.mem_append_right _
      (List.mem_append_left _ (List.mem_append_left _ hmem))))
  have hsealedSecond := (captures_of_execution hsecond).2 (hstores.part hbefore fun _ hmem ↦
    List.mem_append_right _ (List.mem_append_right _
      (List.mem_append_left _ (List.mem_append_right _ hmem))))
  have hsealed := (captures_of_execution hproject).2 (hstores.part (fun _ hcontent ↦ hcontent)
    fun _ hmem ↦ List.mem_append_right _ (List.mem_append_right _
      (List.mem_append_right _ (List.mem_append_left _ hmem))))
  have hledger : ClosedLedger settings plan rawPayloads frozen planned receipts progress.attempts :=
    ⟨hadds, hdispatches, hclosed⟩
  refine ⟨absence, first, second, receipts, ?_, habsent, hempty, ⟨frozen, planned, hledger,
    fun point hpoint ↦ ?_⟩, hsealedFirst, hsealedSecond, hsealed, ⟨?_, ?_⟩, hreadies.agree, hunchanged⟩
  · change planRecord plan absence progress.receipts references projection = _
    rw [hreadies.references, hreceipts]
    rfl
  · obtain ⟨pages, hpages⟩ := hsealed
    obtain ⟨others, hothers⟩ := hsealedSecond
    have hsources := hreadies.sources point ((hpages.mem_points hsha256 hothers hunchanged.2 point).mp
      hpoint)
    rwa [hreceipts, hledger.rejected] at hsources
  · rw [hkeptSecond.sequence, hkeptFirst.next_sequence]
  · rw [hkept.sequence]
    exact congrArg Nat.succ hkeptSecond.next_sequence

end Reconstruction

/-! ### A plan of one source -/

section Sample

open InspectorGuarantees

/-- The text whose characters are some bytes. -/
def textOfBytes (content : Bytes) : String :=
  String.ofList (content.map fun byte ↦ Char.ofNat byte.toNat)

/-- The payloads under the texts of their bytes. -/
def payloadsByText (reference : String) : Option Bytes :=
  some (reference.toList.map fun char ↦ UInt8.ofNat char.toNat)

theorem payloadsByText_textOfBytes (content : Bytes) :
    payloadsByText (textOfBytes content) = some content := by
  have hbyte (byte : UInt8) : UInt8.ofNat (Char.ofNat byte.toNat).toNat = byte := by
    have hvalid : byte.toNat.isValidChar := Or.inl (byte.toNat_lt.trans (by decide))
    rw [Char.ofNat, dif_pos hvalid]
    exact UInt8.ofNat_toNat
  rw [payloadsByText, textOfBytes, String.toList_ofList, List.map_map]
  exact congrArg some ((List.map_congr_left fun byte _ ↦ hbyte byte).trans (List.map_id _))

theorem textOfBytes_injective : Function.Injective textOfBytes := by
  intro content other hsame
  rw [← Option.some_inj, ← payloadsByText_textOfBytes content, hsame, payloadsByText_textOfBytes]

def sampleSettings : RunSettings where
  sha256 := textOfBytes
  encodeAddRequest _ _ := .ok .null
  fingerprint ordinal _ := String.ofList (List.replicate ordinal 'a')
  fingerprint_ordinal ordinal other _ _ hsame := by
    have hlength := congrArg (fun text : String ↦ text.toList.length) hsame
    simpa using hlength
  internalRetryCount := some 10
  maxRetriesPerOperation := none
  live _ := none
  receiptHash _ := ""

/-- A plan with one message. -/
def samplePlan : IngestionPlan :=
  ⟨sampleRunId, "plan",
    [⟨⟨"source", 1, utf8 ['a'], none, none, []⟩, textOfBytes (utf8 ['a']), none⟩]⟩

def sampleAdapter : Mem0Adapter := ⟨.initial, fun _ ↦ none, fun _ ↦ 0, fun _ ↦ none, []⟩

/-- A memory of the source of the plan. -/
def memoryPayload : Json :=
  .object [("data", .string "memory"), ("text_lemmatized", .string "memory"),
    ("hash", .string "hash"), ("created_at", .string "2024-01-01"),
    ("updated_at", .string "2024-01-01"), ("run_id", .string sampleRunId),
    ("oamb_ingestion_occurrence_id", .string sampleRunId), ("oamb_ingestion_plan_id", .string "plan"),
    ("oamb_source_unit_id", .string "source"), ("oamb_source_ordinal", .integer 1)]

/-- The response to an add without events. -/
def addedResponse : SealedRestResponse :=
  let rawBytes := utf8 (dumps true (.object [("results", .array [])]))
  ⟨200, rawBytes, textOfBytes rawBytes, none⟩

/-- The answers while a source is added. -/
def addAnswers : (query : Query) → MemorySystems.Answer query
  | .request _ => Exit.returned addedResponse
  | .clock => (0 : ℚ)
  | .sleep _ => SleepOutcome.slept

/-- The table with no memory or with one. -/
def memoryTable (count : ℕ) : Mem0Inspector.MemoryTable := sampleTable memoryPayload count

/-- What a capture sees of the table. -/
def seen (count : ℕ) : Projection × List SealedRestResponse :=
  (answered (inspectorAnswers textOfBytes (memoryTable count))
    (captureNativeProjection sampleRunId)).toOption.getD (⟨"", "", 0, [], 0⟩, [])

/-- What a capture comes to. -/
def seenBy (adapter : Mem0Adapter) (count : ℕ) : Mem0Adapter × CapturedProjection :=
  let (sequences, captured) := sealCapture textOfBytes adapter.projectionCaptureSequences sampleRunId
    (seen count).1 (seen count).2
  ({ adapter with
      projectionCaptureSequences := sequences
      sealedPayloads := adapter.sealedPayloads ++ [captured.summary] },
    captured)

theorem samplePayload_memory : SamplePayload memoryPayload :=
  ⟨rfl, rfl, rfl, rfl, by decide⟩

theorem pointOf_memoryPayload (index : ℕ) :
    ∃ point, pointOf sampleRunId ⟨index, memoryPayload⟩ = .ok point ∧ point.metadata =
      some ⟨sampleRunId, "plan", "source", 1⟩ :=
  ⟨_, rfl, rfl⟩

/-- The captures of the table succeed, and see its memories. -/
theorem seen_eq {count : ℕ} (hcount : count ≤ 1) :
    answered (inspectorAnswers textOfBytes (memoryTable count))
        (captureNativeProjection sampleRunId) = .ok (seen count) ∧
      (seen count).1.declaredCount = count ∧ (seen count).1.points.length = count ∧
      ∀ point ∈ (seen count).1.points, point.metadata = some ⟨sampleRunId, "plan", "source", 1⟩ := by
  have hmany : count ≤ 1048576 := hcount.trans (by decide)
  have hlimit : rowCount (memoryTable count) sampleRunId ≤ mem0ProjectionMaxPoints :=
    (rowCount_sampleTable samplePayload_memory count).le.trans (hcount.trans (by decide))
  have hpoints : ∀ row ∈ Mem0Inspector.orderedRows (tableRows (memoryTable count)) sampleRunId,
      ∃ point, pointOf sampleRunId row = .ok point ∧ point.metadata =
        some ⟨sampleRunId, "plan", "source", 1⟩ := by
    intro row hrow
    have hmem : row ∈ tableRows (memoryTable count) := mem_of_mem_orderedRows hrow
    obtain ⟨index, -, rfl⟩ := List.mem_map.mp hmem
    exact pointOf_memoryPayload index
  obtain ⟨native, responses, hseen, hdeclared, hread, -⟩ := (capturesAll_of_rows
    (showable_sampleTable samplePayload_memory hmany) hlimit fun row hrow ↦ by
      obtain ⟨index, -, rfl⟩ := List.mem_map.mp (List.mem_of_mem_filter hrow)
      obtain ⟨point, hpoint, -⟩ := pointOf_memoryPayload index
      exact ⟨point, hpoint⟩ : CapturesAll textOfBytes (memoryTable count) sampleRunId).captured
  have hsame : seen count = (native, responses) := by
    rw [seen, hseen]
    rfl
  have hrows : rowCount (memoryTable count) sampleRunId = count :=
    rowCount_sampleTable samplePayload_memory count
  rw [mapM_eq_ok] at hread
  rw [hsame]
  refine ⟨hseen, hdeclared.trans hrows, ?_, fun point hpoint ↦ ?_⟩
  · have hlength := congrArg List.length hread
    rw [List.length_map, List.length_map, length_orderedRows] at hlength
    exact hlength.symm.trans hrows
  · have hmem : (Except.ok point : Except String _) ∈ native.points.map Except.ok :=
      List.mem_map_of_mem hpoint
    rw [← hread] at hmem
    obtain ⟨row, hrow, hpointOf⟩ := List.mem_map.mp hmem
    obtain ⟨found, hfound, hmetadata⟩ := hpoints row hrow
    rw [hfound] at hpointOf
    rw [← Except.ok.inj hpointOf]
    exact hmetadata

/-- An answer of the table or of an add. -/
def Given (exchange : Exchange Query MemorySystems.Answer) : Prop :=
  exchange.2 = addAnswers exchange.1 ∨
    ∃ count, exchange.2 = inspectorAnswers textOfBytes (memoryTable count) exchange.1

/-- What the table answers is sealed under the text of its bytes. -/
theorem inspectorExit_eq_or (count : ℕ) (call : RestCall) :
    (∃ statusCode content, inspectorExit textOfBytes (memoryTable count) call =
        .returned ⟨statusCode, content, textOfBytes content, none⟩) ∨
      ∃ message kind content statusCode, inspectorExit textOfBytes (memoryTable count) call =
        .callFailure ⟨message, kind, some (textOfBytes content), some content, statusCode⟩ := by
  simp only [inspectorExit, finishRequest, sanitize]
  split_ifs
  · exact Or.inl ⟨_, _, rfl⟩
  · exact Or.inr ⟨_, _, _, _, rfl⟩

theorem stores_of_given {adapter : Mem0Adapter} {trace : Trace}
    (htrace : ∀ exchange ∈ trace, Given exchange) :
    Stores textOfBytes payloadsByText adapter trace where
  responses call response hmem := by
    have hsealed : response.rawReference = textOfBytes response.rawBytes := by
      rcases htrace _ hmem with hadded | ⟨count, hshown⟩
      · cases hadded
        rfl
      · change Exit.returned response = inspectorExit textOfBytes (memoryTable count) call at hshown
        rcases inspectorExit_eq_or count call with ⟨_, _, hexit⟩ | ⟨_, _, _, _, hexit⟩
        · cases hshown.trans hexit
          rfl
        · cases hshown.trans hexit
    exact ⟨hsealed, hsealed ▸ payloadsByText_textOfBytes _⟩
  failures call failure hmem reference hreference content hcontent := by
    rcases htrace _ hmem with hadded | ⟨count, hshown⟩
    · cases hadded
    · change Exit.callFailure failure = inspectorExit textOfBytes (memoryTable count) call at hshown
      rcases inspectorExit_eq_or count call with ⟨_, _, hexit⟩ | ⟨_, _, _, _, hexit⟩
      · cases hshown.trans hexit
      · cases hshown.trans hexit
        cases hreference
        cases hcontent
        exact payloadsByText_textOfBytes _
  payloads content _ := payloadsByText_textOfBytes content

/-- A sequence of two executions. -/
theorem execution_seq {α β : Type} {dialogue : Ingest α} {next : α → Ingest β} {value : α}
    {outcome : Except IngestError β} {first second : Trace}
    (hfirst : Execution dialogue first (.ok value)) (hsecond : Execution (next value) second outcome) :
    Execution (dialogue >>= next) (first ++ second) outcome :=
  execution_bind.mpr (Or.inr ⟨value, first, second, rfl, hfirst, hsecond⟩)

theorem execution_check {α β : Type} {check : Except IngestError α} {next : α → Ingest β} {value : α}
    {outcome : Except IngestError β} {trace : Trace} (hcheck : check = .ok value)
    (hnext : Execution (next value) trace outcome) :
    Execution (ofExcept check >>= next) trace outcome :=
  execution_seq (execution_ofExcept.mpr ⟨rfl, hcheck.symm⟩) hnext

/-- The captures of the table are executions. -/
theorem execution_seenBy {count : ℕ} (hcount : count ≤ 1) (adapter : Mem0Adapter) :
    ∃ trace, Execution (captureProjection textOfBytes adapter sampleRunId) trace
      (.ok (seenBy adapter count)) ∧ ∀ exchange ∈ trace, Given exchange := by
  obtain ⟨hseen, -⟩ := seen_eq hcount
  have hexecution := @execution_converse _ _ _ _ (captureNativeProjection sampleRunId)
    (fun _ ↦ inspectorAnswers textOfBytes (memoryTable count)) 0
  rw [← answered_eq_converse, hseen] at hexecution
  refine ⟨_, execution_seq hexecution (execution_pure.mpr ⟨rfl, rfl⟩), fun exchange hmem ↦ ?_⟩
  rw [List.append_nil] at hmem
  obtain ⟨-, hanswer⟩ := mem_converse hmem
  exact Or.inr ⟨count, hanswer⟩

/-- The dispatches of the plan, from an empty table on. -/
def sampleDispatches (frozen : FrozenPlan) (planned : List PlannedAdd) : Ingest Progress :=
  executeDispatches sampleSettings samplePlan
    (adapterSettings sampleSettings samplePlan frozen planned) frozen.dispatches
    ⟨(seenBy sampleAdapter 0).1, ∅, []⟩

/-- The receipts of the dispatches can be asked for readiness. -/
def readyFor (planned : List PlannedAdd) (progress : Progress) : Bool :=
  let receipt := ingestionReceipt samplePlan progress.receipts
  (checkReadiness textOfBytes ⟨sampleRunId, "plan"⟩ planned progress.adapter
      receipt.acceptedSourceUnitIds receipt).toOption.isSome &&
    receipt.rejectedSourceUnitIds.isEmpty

def sampleReady : Bool :=
  match planAdds textOfBytes sampleSettings.encodeAddRequest sampleSettings.fingerprint
    sampleSettings.fingerprint_ordinal samplePlan.orderedSourceUnits with
  | .error _ => false
  | .ok (frozen, planned) =>
    match (converse (fun _ ↦ addAnswers) 0 (sampleDispatches frozen planned)).2 with
    | .error _ => false
    | .ok progress => readyFor planned progress

theorem sampleReady_eq_true : sampleReady = true := by decide +kernel

/-- The dispatches of the plan leave receipts that can be asked for readiness. -/
theorem exists_dispatches : ∃ frozen planned progress trace,
    planAdds textOfBytes sampleSettings.encodeAddRequest sampleSettings.fingerprint
        sampleSettings.fingerprint_ordinal samplePlan.orderedSourceUnits = .ok (frozen, planned) ∧
      Execution (sampleDispatches frozen planned) trace (.ok progress) ∧
      readyFor planned progress = true ∧ ∀ exchange ∈ trace, Given exchange := by
  have hready := sampleReady_eq_true
  unfold sampleReady at hready
  split at hready
  · cases hready
  · next frozen planned hplanned =>
    split at hready
    · cases hready
    · next progress hprogress =>
      have hexecution := @execution_converse _ _ _ _ (sampleDispatches frozen planned)
        (fun _ ↦ addAnswers) 0
      rw [hprogress] at hexecution
      refine ⟨frozen, planned, progress, _, hplanned, hexecution, hready, fun exchange hmem ↦ ?_⟩
      obtain ⟨-, hanswer⟩ := mem_converse hmem
      exact Or.inl hanswer

/-- The plan is ingested: its memory is not there before the add, and there after it. -/
theorem exists_ingestion : ∃ outcome trace,
    Execution (executeIngestionPlan sampleSettings samplePlan sampleAdapter ∅) trace (.ok outcome) ∧
      outcome.projection.native.points.length = 1 ∧ ∀ exchange ∈ trace, Given exchange := by
  obtain ⟨frozen, planned, progress, trace, hplanned, hrun, hready, hgiven⟩ := exists_dispatches
  obtain ⟨first, hfirst, hgivenFirst⟩ := execution_seenBy (Nat.zero_le 1) sampleAdapter
  obtain ⟨second, hsecond, hgivenSecond⟩ := execution_seenBy le_rfl progress.adapter
  obtain ⟨third, hthird, hgivenThird⟩ := execution_seenBy le_rfl (seenBy progress.adapter 1).1
  set readied : Mem0Adapter :=
    { (seenBy (seenBy progress.adapter 1).1 1).1 with
      readyProjections := Function.update
        (seenBy (seenBy progress.adapter 1).1 1).1.readyProjections sampleRunId
        (some (seenBy (seenBy progress.adapter 1).1 1).2) } with hreadied
  obtain ⟨fourth, hfourth, hgivenFourth⟩ := execution_seenBy le_rfl readied
  have hempty : ¬ ((seenBy sampleAdapter 0).2.native.declaredCount ≠ 0 ∨
      (seenBy sampleAdapter 0).2.native.points ≠ []) := by
    obtain ⟨-, hdeclared, hpoints, -⟩ := seen_eq (Nat.zero_le 1)
    rintro (hcount | hpoint)
    · exact hcount hdeclared
    · exact hpoint (List.length_eq_zero_iff.mp hpoints)
  have hallocate : Execution (allocateIngestionScope textOfBytes sampleAdapter sampleRunId)
      (first ++ []) (.ok (seenBy sampleAdapter 0)) := by
    have hrun : ¬ isRunId sampleRunId = false := by decide
    rw [allocateIngestionScope, if_neg hrun]
    refine execution_seq hfirst ?_
    dsimp only
    rw [if_neg hempty]
    exact execution_pure.mpr ⟨rfl, rfl⟩
  obtain ⟨hcheck, hrejected⟩ := Bool.and_eq_true_iff.mp hready
  obtain ⟨checked, hchecked⟩ : ∃ checked, checkReadiness textOfBytes ⟨sampleRunId, "plan"⟩ planned
      progress.adapter (ingestionReceipt samplePlan progress.receipts).acceptedSourceUnitIds
      (ingestionReceipt samplePlan progress.receipts) = .ok checked := by
    cases hfound : checkReadiness textOfBytes ⟨sampleRunId, "plan"⟩ planned progress.adapter
        (ingestionReceipt samplePlan progress.receipts).acceptedSourceUnitIds
        (ingestionReceipt samplePlan progress.receipts) with
    | error message => rw [hfound] at hcheck; cases hcheck
    | ok checked => exact ⟨checked, rfl⟩
  have hsources : (seen 1).1.points.forM (checkPointSource ⟨sampleRunId, "plan"⟩ (completedSources
      planned (ingestionReceipt samplePlan progress.receipts).rejectedSourceUnitIds)) = .ok () := by
    rw [List.isEmpty_iff.mp hrejected, completedSources_nil (plannedAdds_of_planAdds hplanned)]
    refine forM_eq_ok.mpr fun point hpoint ↦ ?_
    rw [checkPointSource, (seen_eq le_rfl).2.2.2 point hpoint]
    rfl
  have hwait : Execution (waitReady textOfBytes ⟨sampleRunId, "plan"⟩ planned progress.adapter
      (ingestionReceipt samplePlan progress.receipts).acceptedSourceUnitIds
      (ingestionReceipt samplePlan progress.receipts)) (second ++ (third ++ []))
      (.ok (readied, readinessReferences progress.receipts (seenBy progress.adapter 1).2
        (seenBy (seenBy progress.adapter 1).1 1).2)) := by
    refine execution_check (mapError_eq_ok.mpr hchecked) (execution_seq hsecond
      (execution_seq hthird ?_))
    dsimp only
    rw [if_neg (not_not_intro ⟨rfl, rfl⟩)]
    exact execution_check (mapError_eq_ok.mpr hsources) (execution_pure.mpr ⟨rfl, rfl⟩)
  have hproject : Execution (project textOfBytes readied sampleRunId) (fourth ++ [])
      (.ok (seenBy readied 1)) := by
    have hknown : readied.readyProjections sampleRunId =
        some (seenBy (seenBy progress.adapter 1).1 1).2 := by
      simp only [hreadied, Function.update_self]
    rw [project, hknown]
    refine execution_seq hfourth ?_
    dsimp only
    rw [if_pos ⟨rfl, rfl⟩]
    exact execution_pure.mpr ⟨rfl, rfl⟩
  refine ⟨_, _, execution_seq hallocate (execution_check hplanned (execution_seq hrun
    (execution_seq hwait (execution_seq hproject (execution_pure.mpr ⟨rfl, rfl⟩))))),
    (seen_eq le_rfl).2.2.1, fun exchange hmem ↦ ?_⟩
  simp only [List.append_nil, List.mem_append] at hmem
  rcases hmem with hmem | hmem | (hmem | hmem) | hmem
  · exact hgivenFirst exchange hmem
  · exact hgiven exchange hmem
  · exact hgivenSecond exchange hmem
  · exact hgivenThird exchange hmem
  · exact hgivenFourth exchange hmem

end Sample

/-! ### The evidence of a plan -/

/-- The evidence of Mem0 agrees with what the adapter saw. When the ingestion of a plan succeeds and its
payloads are sealed, the plan is read back with the projection it ended with: the same points, sources
and state. Pages are taken exactly when each can be read and together they are one chain. Two
projections have one digest exactly when they are of one collection and one run and have the same
points. -/
theorem evidence_agrees (settings : RunSettings) (hsha256 : Function.Injective settings.sha256) :
    (∀ (plan : IngestionPlan) (adapter : Mem0Adapter) (attempts : Dictionary String AttemptRecord)
        (rawPayloads : RawPayloads) (outcome : PlanOutcome) (trace : Trace),
      Execution (executeIngestionPlan settings plan adapter attempts) trace (.ok outcome) →
      Stores settings.sha256 rawPayloads outcome.adapter trace →
      reconstructMem0Plan settings.sha256 rawPayloads outcome.record outcome.attempts.lookup =
        .ok ⟨outcome.record, evidenceOf outcome.projection⟩) ∧
    (∀ (rawPages : List Bytes) (collection runId : String) (maxPages maxPoints : ℕ)
        (projection : Projection),
      parseProjectionPages rawPages collection runId maxPages maxPoints = .ok projection ↔
        (collection ≠ "" ∧ isRunId runId = true ∧ 1 ≤ maxPoints ∧ rawPages.length ≤ maxPages) ∧
          ∃ pages, rawPages.mapM (readPageAlone ⟨collection, runId, maxPoints⟩) = .ok pages ∧
            Chain maxPoints pages ∧
            projection = ⟨collection, runId, (allPoints pages).length, allPoints pages,
              rawPages.length⟩) ∧
    ∀ projection other : Projection, (identities projection.points).Nodup →
      (identities other.points).Nodup →
      (projectionStateSha256 settings.sha256 projection =
          projectionStateSha256 settings.sha256 other ↔
        projection.collection = other.collection ∧ projection.runId = other.runId ∧
          ∀ point, point ∈ projection.points ↔ point ∈ other.points) := by
  refine ⟨fun plan adapter attempts rawPayloads outcome trace hplan hstores ↦ ?_,
    fun rawPages collection runId maxPages maxPoints projection ↦ parseProjectionPages_eq_ok,
    fun projection other hnodup hother ↦ projectionStateSha256_eq_iff hsha256 hnodup hother⟩
  obtain ⟨absence, first, second, receipts, hrecord, hsealed⟩ :=
    sealedPlan_of_execution hsha256 hplan hstores
  rw [hrecord]
  exact reconstructMem0Plan_eq_ok hsealed

/-- The plan of one source is ingested, and read back with the one memory of its source. -/
theorem evidence_agrees_sample : ∃ outcome : PlanOutcome,
    outcome.projection.native.points.length = 1 ∧
      reconstructMem0Plan textOfBytes payloadsByText outcome.record outcome.attempts.lookup =
        .ok ⟨outcome.record, evidenceOf outcome.projection⟩ := by
  obtain ⟨outcome, trace, hplan, hpoints, hgiven⟩ := exists_ingestion
  exact ⟨outcome, hpoints, (evidence_agrees sampleSettings textOfBytes_injective).1 samplePlan
    sampleAdapter ∅ payloadsByText outcome trace hplan (stores_of_given hgiven)⟩

/-! ### The sources of a record -/

open FirstOccurrences

variable {settings : RunSettings} {plan : IngestionPlan} {rawPayloads : RawPayloads}

/-- What the record of a plan says of its sources: each was dispatched once, under an attempt of its
own, and either accepted or skipped, and the projection shows some of them, each once. -/
structure SourcesClose (record : IngestionPlanRecord) : Prop where
  distinct : record.orderedSourceUnitIds.Nodup
  attempts : record.orderedDispatchAttemptIds.Nodup
  dispatched : record.orderedDispatchSourceUnitIds =
    record.orderedSourceUnitIds.map fun sourceId ↦ [sourceId]
  partition : (record.acceptedSourceUnitIds ++ record.skippedSourceUnitIds).Perm
    record.orderedSourceUnitIds
  rejected : record.rejectedSourceUnitIds = []
  projected : record.projectedSourceUnitIds.Nodup
  observed : record.projectedSourceUnitIds ⊆ record.orderedSourceUnitIds

/-- The sources of a projection are those of its points, each at its first place. -/
theorem projectionSourceUnitIds_eq (projection : Projection) :
    projectionSourceUnitIds projection = firstsBy id ((orderedProjectionPoints projection).filterMap
      fun point ↦ point.metadata.map SourceMetadata.sourceUnitId) := by
  rw [projectionSourceUnitIds, firstsBy, List.foldl_filterMap]
  congr
  funext found point
  cases hmetadata : point.metadata <;> simp [addSourceUnitId, addFirst, hmetadata]

/-- However the dispatches of a plan end, its record closes over its sources. -/
theorem sourcesClose_of_execution (hsha256 : Function.Injective settings.sha256)
    {adapter : Mem0Adapter} {attempts : Dictionary String AttemptRecord} {outcome : PlanOutcome}
    {trace : Trace}
    (hplan : Execution (executeIngestionPlan settings plan adapter attempts) trace (.ok outcome))
    (hstores : Stores settings.sha256 rawPayloads outcome.adapter trace) :
    SourcesClose outcome.record := by
  obtain ⟨absence, first, second, receipts, hrecord, hsealed⟩ :=
    sealedPlan_of_execution hsha256 hplan hstores
  obtain ⟨frozen, planned, hledger, hpoints⟩ := hsealed.ledger
  obtain ⟨pages, hcaptured⟩ := hsealed.projected
  have hordinals : (receipts.map fun receipt ↦ receipt.dispatch.dispatchOrdinal).Nodup := by
    have hfrozen := nodup_ordinals frozen
    rwa [← hledger.dispatches, List.map_map] at hfrozen
  have hsources := hcaptured.sourceIds.trans (projectionSourceUnitIds_eq _)
  rw [hrecord]
  refine ⟨hledger.planned.distinct, ?_, ?_, ?_, hledger.rejected, ?_, fun sourceId hmem ↦ ?_⟩
  · refine hordinals.of_map.map_on fun receipt hreceipt other hother hsame ↦ ?_
    obtain ⟨ordinal, hordinal⟩ := (hledger.closes receipt hreceipt).identity
    obtain ⟨last, hlast⟩ := (hledger.closes other hother).identity
    rw [hordinal, hlast] at hsame
    exact List.inj_on_of_nodup_map hordinals hreceipt hother
      (ordinal_of_physicalAttemptId hsha256 hsame)
  · change receipts.map _ = (plan.orderedSourceUnits.map _).map _
    rw [← hledger.sources, List.map_map]
    exact List.map_congr_left fun receipt hreceipt ↦ (hledger.source hreceipt).1
  · refine (List.flatMap_append_perm receipts _ _).trans (.of_eq ?_)
    change _ = plan.orderedSourceUnits.map _
    rw [← hledger.sources, List.map_eq_flatMap]
    refine List.flatMap_congr fun receipt hreceipt ↦ ?_
    obtain ⟨-, ⟨-, haccepted, hskipped⟩ | ⟨-, haccepted, hskipped⟩⟩ :=
      (hledger.closes receipt hreceipt).partition (hledger.source hreceipt).1
    all_goals rw [haccepted, hskipped]; rfl
  · change outcome.projection.orderedSourceUnitIds.Nodup
    rw [hsources, ← List.map_id (firstsBy id _)]
    exact nodup_map_firstsBy _
  · change sourceId ∈ outcome.projection.orderedSourceUnitIds at hmem
    rw [hsources] at hmem
    obtain ⟨point, hpoint, hsource⟩ := List.mem_filterMap.mp ((firstsBy_sublist _).subset hmem)
    obtain ⟨metadata, hmetadata, rfl⟩ := Option.map_eq_some_iff.mp hsource
    have hchecked := hpoints point ((perm_orderedProjectionPoints _).mem_iff.mp hpoint)
    rw [completedSources_nil hledger.planned] at hchecked
    unfold checkPointSource at hchecked
    rw [hmetadata] at hchecked
    obtain ⟨_, -, hfound⟩ := bind_eq_ok.mp hchecked
    split at hfound
    · cases hfound
    · next unit hunit =>
      have hsame := List.find?_some hunit
      rw [← of_decide_eq_true hsame]
      obtain ⟨source, hsource, rfl⟩ :=
        List.mem_map.mp (List.mem_reverse.mp (List.mem_of_find?_eq_some hunit))
      exact List.mem_map_of_mem hsource

/-- The record of the plan of one source closes over it. -/
theorem sourcesClose_of_sample : ∃ outcome : PlanOutcome, SourcesClose outcome.record := by
  obtain ⟨outcome, trace, hplan, -, hgiven⟩ := exists_ingestion
  exact ⟨outcome, sourcesClose_of_execution textOfBytes_injective hplan (stores_of_given hgiven)⟩

end Oamb.Artifacts.Mem0PlanGuarantees
