import Oamb.MemorySystems.HindsightBanks
import Oamb.MemorySystems.HindsightReadiness

/-!
# Partial ingestions of Hindsight

The runtime ingests a plan, and some sources are skipped after settled failures. Whether the failed
attempts stored the document of a skipped source is not known, so that an honest bank may show any
documents between the accepted sources and all sources. `Accepts` says that readiness and projection
accept each of these, and no other. `accepts_iff` shows that this holds exactly when the bank shows
every skipped source: readiness asks for the documents of all sources that are not rejected.
-/

set_option autoImplicit false

namespace Oamb.MemorySystems.HindsightGuarantees

open Foundation Foundation.Dialogue
open RestClient HindsightProjection HindsightReadiness HindsightBanks

/-! ### Ingestions -/

section Ingestions

variable {υ : Type}

/-- A response is sealed under the digest of its bytes. -/
def Sealed (sha256 : Bytes → String) : Exchange Query Answer → Prop
  | ⟨.request _, exit⟩ =>
    match (exit : Exit) with
    | .returned response => sha256 response.rawBytes = response.rawReference
    | .callFailure failure => ∀ content reference, failure.rawResponseBytes = some content →
        failure.rawReference = some reference → sha256 content = reference
    | _ => True
  | _ => True

/-- An attempt on a dispatch, in a scope. -/
structure IsAttempt (scopeId ingestionOccurrenceId : String) (dispatch : IngestionDispatch)
    (attemptId : String) (ordinal : ℕ) (request : IngestionDispatchRequest) : Prop where
  scope : request.scopeId = scopeId
  occurrence : request.ingestionOccurrenceId = ingestionOccurrenceId
  names : request.dispatch = dispatch
  attempt : request.attemptId = attemptId
  ordinal : request.batchAttemptOrdinal = ordinal

/-- What an attempt comes to: it is refused, or it sends its request and gets an answer. -/
inductive Attempted (settings : AdapterSettings υ) (scopeId ingestionOccurrenceId : String)
    (dispatch : IngestionDispatch) (attemptId : String) (ordinal : ℕ) :
    Except IngestError (IngestionDispatchReceipt υ) → Prop
  | refused {message : String} : Attempted settings scopeId ingestionOccurrenceId dispatch attemptId
      ordinal (.error (.valueError message))
  | made {request : IngestionDispatchRequest} {trace : List (Exchange Query Answer)}
    {outcome : Except IngestError (IngestionDispatchReceipt υ)}
    (hrequest : IsAttempt scopeId ingestionOccurrenceId dispatch attemptId ordinal request)
    (hsealed : ∀ exchange ∈ trace, Sealed settings.profile.sha256 exchange)
    (hexecution : Execution (ingest settings request) trace outcome) :
    Attempted settings scopeId ingestionOccurrenceId dispatch attemptId ordinal outcome

/-- The runtime has made its attempts on a dispatch, and came to a receipt. -/
def Dispatched (settings : AdapterSettings υ) (scopeId ingestionOccurrenceId : String)
    (dispatch : IngestionDispatch) (receipt : IngestionDispatchReceipt υ) : Prop :=
  ∃ (maximumAttempts : ℕ) (attemptIds : ℕ → String)
    (outcomes : ℕ → Except IngestError (IngestionDispatchReceipt υ)),
    (∀ ordinal, Attempted settings scopeId ingestionOccurrenceId dispatch (attemptIds ordinal)
      ordinal (outcomes ordinal)) ∧
    executeIngestionBatch dispatch attemptIds outcomes maximumAttempts 1 = .ok receipt

/-- A receipt that names its dispatch: all of its sources are accepted, or all are skipped. -/
structure Bound (settings : AdapterSettings υ) (scopeId ingestionOccurrenceId : String)
    (dispatch : IngestionDispatch) (receipt : IngestionDispatchReceipt υ) : Prop where
  names : receipt.dispatch = dispatch
  rejected : receipt.rejectedSourceUnitIds = []
  reference : settings.profile.sha256 receipt.rawResponseBytes = receipt.rawReference
  sources :
    (receipt.acceptedSourceUnitIds = sourceIdsOf dispatch ∧ receipt.skippedSourceUnitIds = [] ∧
      settings.ingestion.acceptable scopeId dispatch.orderedSourceUnits.length
        receipt.rawResponseBytes = true ∧
      receipt.usageRecords = [settings.retainUsageRecord receipt.rawResponseBytes receipt.attemptId
        ingestionOccurrenceId receipt.rawReference]) ∨
    (receipt.acceptedSourceUnitIds = [] ∧ receipt.skippedSourceUnitIds = sourceIdsOf dispatch)

variable {settings : AdapterSettings υ} {scopeId ingestionOccurrenceId : String}
  {dispatch : IngestionDispatch}

theorem length_of_mapM {α β ε : Type} {step : α → Except ε β} {values : List α} {results : List β}
    (hresults : values.mapM step = .ok results) : results.length = values.length := by
  induction values generalizing results with
  | nil =>
    cases hresults
    rfl
  | cons value rest ih =>
    rw [List.mapM_cons] at hresults
    cases hvalue : step value with
    | error error =>
      rw [hvalue] at hresults
      cases hresults
    | ok result =>
      cases hrest : rest.mapM step with
      | error error =>
        rw [hvalue, hrest] at hresults
        cases hresults
      | ok others =>
        rw [hvalue, hrest] at hresults
        cases hresults
        rw [List.length_cons, List.length_cons, ih hrest]

/-- An error of a sequence is one of its steps. -/
theorem error_of_mapM {α β ε : Type} {step : α → Except ε β} {values : List α} {error : ε}
    (herror : values.mapM step = .error error) : ∃ value ∈ values, step value = .error error := by
  induction values with
  | nil => cases herror
  | cons value rest ih =>
    rw [List.mapM_cons] at herror
    cases hvalue : step value with
    | error first =>
      rw [hvalue] at herror
      cases herror
      exact ⟨value, List.mem_cons_self, hvalue⟩
    | ok result =>
      cases hrest : rest.mapM step with
      | error later =>
        rw [hvalue, hrest] at herror
        cases herror
        obtain ⟨other, hother, hsame⟩ := ih hrest
        exact ⟨other, List.mem_cons_of_mem _ hother, hsame⟩
      | ok others =>
        rw [hvalue, hrest] at herror
        cases herror

theorem retainItem_ne_settled {decode : Bytes → Option String} {source : SourceUnit}
    {failure : SettledFailure} :
    HindsightIngest.retainItem decode source ≠ .error (.settled failure) := by
  unfold HindsightIngest.retainItem
  split
  · split
    · exact fun hsame ↦ by cases hsame
    · exact fun hsame ↦ by cases hsame
  · exact fun hsame ↦ by cases hsame

/-- An attempt sends one request, whose answer is sealed. It is accepted with a response, or its
failure is settled. -/
theorem execution_body {request : IngestionDispatchRequest} {trace : List (Exchange Query Answer)}
    {outcome : Except IngestError SealedRestResponse}
    (hsealed : ∀ exchange ∈ trace, Sealed settings.profile.sha256 exchange)
    (hbody : Execution (HindsightIngest.body settings.ingestion request) trace outcome) :
    (∀ response, outcome = .ok response →
      settings.profile.sha256 response.rawBytes = response.rawReference ∧
        settings.ingestion.acceptable request.scopeId request.dispatch.orderedSourceUnits.length
          response.rawBytes = true) ∧
    ∀ failure, outcome = .error (.settled failure) →
      settings.profile.sha256 failure.rawResponseBytes = failure.rawReference := by
  unfold HindsightIngest.body at hbody
  split at hbody
  · next error herror =>
    obtain ⟨-, rfl⟩ := execution_fail.mp hbody
    obtain ⟨source, -, hsource⟩ := error_of_mapM herror
    refine ⟨fun response hsame ↦ (by cases hsame), fun failure hsame ↦ ?_⟩
    cases hsame
    exact absurd hsource retainItem_ne_settled
  · next items hitems =>
    have hlength := length_of_mapM hitems
    obtain ⟨exit, later, rfl, hlater⟩ := execution_ask.mp hbody
    have hexit := hsealed _ List.mem_cons_self
    split at hlater
    · next failure =>
      obtain ⟨-, rfl⟩ := execution_fail.mp hlater
      refine ⟨fun response hsame ↦ (by cases hsame), fun settled hsame ↦ ?_⟩
      unfold settledOr at hsame
      split at hsame
      · next content reference _ _ hcontent hreference _ =>
        split at hsame
        · cases hsame
          exact hexit _ _ hcontent hreference
        · cases hsame
      · cases hsame
    · next response =>
      split_ifs at hlater with hacceptable
      · obtain ⟨-, rfl⟩ := execution_pure.mp hlater
        refine ⟨fun other hsame ↦ ?_, fun failure hsame ↦ (by cases hsame)⟩
        cases hsame
        rw [← hlength]
        exact ⟨hexit, hacceptable⟩
      · obtain ⟨-, rfl⟩ := execution_fail.mp hlater
        exact ⟨fun other hsame ↦ (by cases hsame), fun failure hsame ↦ (by cases hsame)⟩
    · obtain ⟨-, rfl⟩ := execution_fail.mp hlater
      exact ⟨fun other hsame ↦ (by cases hsame), fun failure hsame ↦ (by cases hsame)⟩

theorem execution_ingest {request : IngestionDispatchRequest} {trace : List (Exchange Query Answer)}
    {outcome : Except IngestError (IngestionDispatchReceipt υ)}
    (hingest : Execution (ingest settings request) trace outcome) :
    ∃ result, Execution (HindsightIngest.body settings.ingestion request) trace result ∧
      outcome = result.map (dispatchReceipt settings request) := by
  rcases execution_bind.mp hingest with
    ⟨error, hbody, rfl⟩ | ⟨response, first, second, rfl, hbody, hreceipt⟩
  · exact ⟨_, hbody, rfl⟩
  · obtain ⟨rfl, rfl⟩ := execution_pure.mp hreceipt
    rw [List.append_nil]
    exact ⟨_, hbody, rfl⟩

/-- An attempt that is accepted names its dispatch. -/
theorem Attempted.bound {attemptId : String} {ordinal : ℕ} {receipt : IngestionDispatchReceipt υ}
    (hattempted : Attempted settings scopeId ingestionOccurrenceId dispatch attemptId ordinal
      (.ok receipt)) : Bound settings scopeId ingestionOccurrenceId dispatch receipt := by
  cases hattempted with
  | made hrequest hsealed hexecution =>
    obtain ⟨result, hbody, hresult⟩ := execution_ingest hexecution
    cases result with
    | error error => cases hresult
    | ok response =>
      cases hresult
      obtain ⟨hreference, hacceptable⟩ := (execution_body hsealed hbody).1 response rfl
      obtain ⟨rfl, rfl, rfl, rfl, rfl⟩ := hrequest
      exact ⟨rfl, rfl, hreference, Or.inl ⟨rfl, rfl, hacceptable, rfl⟩⟩

/-- An attempt whose failure is settled has sealed it. -/
theorem Attempted.sealed {attemptId : String} {ordinal : ℕ} {failure : SettledFailure}
    (hattempted : Attempted settings scopeId ingestionOccurrenceId dispatch attemptId ordinal
      (.error (.settled failure))) :
    settings.profile.sha256 failure.rawResponseBytes = failure.rawReference := by
  cases hattempted with
  | made hrequest hsealed hexecution =>
    obtain ⟨result, hbody, hresult⟩ := execution_ingest hexecution
    cases result with
    | ok response => cases hresult
    | error error =>
      cases hresult
      exact (execution_body hsealed hbody).2 failure rfl

/-- What the attempts on a dispatch come to names the dispatch. -/
theorem Dispatched.bound {receipt : IngestionDispatchReceipt υ}
    (hdispatched : Dispatched settings scopeId ingestionOccurrenceId dispatch receipt) :
    Bound settings scopeId ingestionOccurrenceId dispatch receipt := by
  obtain ⟨maximumAttempts, attemptIds, outcomes, hattempted, hreceipt⟩ := hdispatched
  have hbatch : ∀ (remaining ordinal : ℕ),
      executeIngestionBatch dispatch attemptIds outcomes remaining ordinal = .ok receipt →
        Bound settings scopeId ingestionOccurrenceId dispatch receipt := by
    intro remaining
    induction remaining with
    | zero => exact fun ordinal hsame ↦ by cases hsame
    | succ remaining ih =>
      intro ordinal hbatch
      have hattempt := hattempted ordinal
      rw [executeIngestionBatch] at hbatch
      split at hbatch
      · next accepted haccepted =>
        rw [haccepted] at hattempt
        split_ifs at hbatch
        cases hbatch
        exact hattempt.bound
      · next failure hfailure =>
        rw [hfailure] at hattempt
        split_ifs at hbatch
        · cases hbatch
          exact ⟨rfl, rfl, hattempt.sealed, Or.inr ⟨rfl, rfl⟩⟩
        · exact ih _ hbatch
      · cases hbatch
  exact hbatch _ _ hreceipt

end Ingestions

/-! ### Readiness -/

section Readiness

variable {υ : Type} [DecidableEq υ] {settings : AdapterSettings υ}
  {scopeId ingestionOccurrenceId : String}

/-- The sources of a receipt that names its dispatch are those of the dispatch. -/
theorem receiptSources_eq {dispatch : IngestionDispatch} {receipt : IngestionDispatchReceipt υ}
    (hbound : Bound settings scopeId ingestionOccurrenceId dispatch receipt)
    (hunits : dispatch.orderedSourceUnits ≠ []) :
    receiptSources settings scopeId ingestionOccurrenceId dispatch.dispatchOrdinal receipt =
      .ok dispatch.orderedSourceUnits := by
  obtain ⟨rfl, hrejected, hreference, hsources⟩ := hbound
  have hids : sourceIdsOf receipt.dispatch ≠ [] := mt List.map_eq_nil_iff.mp hunits
  rcases hsources with ⟨haccepted, hskipped, hacceptable, husage⟩ | ⟨haccepted, hskipped⟩
  · simp [receiptSources, require, haccepted, hskipped, hrejected, hreference, hacceptable, husage,
      bind, Except.bind, pure, Except.pure]
  · simp [receiptSources, require, haccepted, hskipped, hrejected, hreference, hids, bind,
      Except.bind, pure, Except.pure]

/-- The sources of the receipts of a plan are those of the plan. -/
theorem allReceiptSources_eq {dispatches : List IngestionDispatch}
    {receipts : List (IngestionDispatchReceipt υ)}
    (hbound : List.Forall₂ (Bound settings scopeId ingestionOccurrenceId) dispatches receipts)
    (hunits : ∀ dispatch ∈ dispatches, dispatch.orderedSourceUnits ≠ []) {start : ℕ}
    (hordinals : ∀ (index : ℕ) (hindex : index < dispatches.length),
      dispatches[index].dispatchOrdinal = start + index) :
    allReceiptSources settings scopeId ingestionOccurrenceId start receipts =
      .ok (dispatches.flatMap IngestionDispatch.orderedSourceUnits) := by
  induction hbound generalizing start with
  | nil => rfl
  | @cons dispatch receipt dispatches receipts hfirst hrest ih =>
    have hordinal : dispatch.dispatchOrdinal = start := hordinals 0 (Nat.zero_lt_succ _)
    have hsources := receiptSources_eq hfirst (hunits dispatch List.mem_cons_self)
    rw [hordinal] at hsources
    have hothers : allReceiptSources settings scopeId ingestionOccurrenceId (start + 1) receipts =
        .ok (dispatches.flatMap IngestionDispatch.orderedSourceUnits) := by
      refine ih (fun other hother ↦ hunits other (List.mem_cons_of_mem _ hother)) ?_
      intro index hindex
      have hnext := hordinals (index + 1) (Nat.succ_lt_succ hindex)
      rw [List.getElem_cons_succ] at hnext
      rw [hnext]
      omega
    rw [allReceiptSources, hsources, hothers]
    rfl

omit [DecidableEq υ] in
theorem dispatch_of_bound {dispatches : List IngestionDispatch}
    {receipts : List (IngestionDispatchReceipt υ)}
    (hbound : List.Forall₂ (Bound settings scopeId ingestionOccurrenceId) dispatches receipts) :
    receipts.map IngestionDispatchReceipt.dispatch = dispatches ∧
      receipts.flatMap IngestionDispatchReceipt.rejectedSourceUnitIds = [] ∧
      ∀ identity, identity ∈ dispatches.flatMap sourceIdsOf ↔
        identity ∈ receipts.flatMap IngestionDispatchReceipt.acceptedSourceUnitIds ∨
          identity ∈ receipts.flatMap IngestionDispatchReceipt.skippedSourceUnitIds := by
  induction hbound with
  | nil => simp
  | @cons dispatch receipt dispatches receipts hfirst hrest ih =>
    obtain ⟨hdispatches, hrejected, hids⟩ := ih
    refine ⟨?_, ?_, fun identity ↦ ?_⟩
    · rw [List.map_cons, hfirst.names, hdispatches]
    · rw [List.flatMap_cons, hfirst.rejected, hrejected]
      rfl
    · rw [List.flatMap_cons, List.flatMap_cons, List.flatMap_cons, List.mem_append, List.mem_append,
        List.mem_append, hids identity]
      rcases hfirst.sources with ⟨haccepted, hskipped, -⟩ | ⟨haccepted, hskipped⟩
      · rw [haccepted, hskipped]
        simp only [List.not_mem_nil, false_or, or_assoc]
      · rw [haccepted, hskipped]
        simp only [List.not_mem_nil, false_or]
        tauto

end Readiness

/-! ### Plans -/

section Plans

theorem toChunks_go {α : Type} (values : List α) (value : α) (chunks : Array (List α)) :
    List.toChunks.go 1 values #[value] chunks =
      chunks.toList ++ (value :: values).map fun item ↦ [item] := by
  induction values generalizing value chunks with
  | nil => simp [List.toChunks.go]
  | cons next rest ih => simp [List.toChunks.go, ih]

theorem toChunks_one {α : Type} (values : List α) :
    values.toChunks 1 = values.map fun item ↦ [item] := by
  cases values with
  | nil => rfl
  | cons value rest => simp [List.toChunks, toChunks_go]

variable {decode : Bytes → Option String} {fingerprint : ℕ → List SourceUnit → String}
  {hfingerprint : ∀ ordinal other units units',
    fingerprint ordinal units = fingerprint other units' → ordinal = other}
  {sources : List SourceUnit} {plan : FrozenPlan}

/-- The batches of a plan are its sources, one in each. -/
theorem units_of_planIngestion
    (hplan : HindsightIngest.planIngestion decode fingerprint hfingerprint sources = .ok plan) :
    plan.dispatches.map IngestionDispatch.orderedSourceUnits = sources.map fun item ↦ [item] := by
  unfold HindsightIngest.planIngestion at hplan
  split at hplan
  · cases hplan
  · cases hplan
    rw [planDispatches, HindsightIngest.retainBatchLimit, toChunks_one]
    refine List.ext_getElem (by simp) fun index _ _ ↦ ?_
    simp [dispatchOf]

theorem sources_of_planIngestion
    (hplan : HindsightIngest.planIngestion decode fingerprint hfingerprint sources = .ok plan) :
    plan.dispatches.flatMap IngestionDispatch.orderedSourceUnits = sources := by
  rw [List.flatMap_def, units_of_planIngestion hplan, ← List.flatMap_def]
  exact List.flatMap_singleton' sources

theorem units_ne_nil_of_planIngestion
    (hplan : HindsightIngest.planIngestion decode fingerprint hfingerprint sources = .ok plan)
    {dispatch : IngestionDispatch} (hdispatch : dispatch ∈ plan.dispatches) :
    dispatch.orderedSourceUnits ≠ [] := by
  have hunits : dispatch.orderedSourceUnits ∈
      plan.dispatches.map IngestionDispatch.orderedSourceUnits :=
    List.mem_map_of_mem hdispatch
  rw [units_of_planIngestion hplan] at hunits
  obtain ⟨source, -, hsame⟩ := List.mem_map.mp hunits
  rw [← hsame]
  exact List.cons_ne_nil _ _

theorem sourceIds_of_planIngestion
    (hplan : HindsightIngest.planIngestion decode fingerprint hfingerprint sources = .ok plan) :
    plan.dispatches.flatMap sourceIdsOf = sources.map SourceUnit.sourceUnitId := by
  rw [← sources_of_planIngestion hplan, List.map_flatMap]
  rfl

end Plans

/-! ### Partial ingestions -/

section Partial

variable {υ : Type} [DecidableEq υ]

/-- The runtime has ingested the sources of a plan: the plan is frozen in its scope, each source stands
once, and the runtime came to a receipt for each dispatch. -/
structure Ingested (settings : AdapterSettings υ) (scopeId ingestionOccurrenceId : String)
    (sources : List SourceUnit) (receipts : List (IngestionDispatchReceipt υ)) : Prop where
  nonempty : sources ≠ []
  distinct : (sources.map SourceUnit.sourceUnitId).Nodup
  plan : ∃ fingerprint hfingerprint plan,
    HindsightIngest.planIngestion settings.ingestion.decode fingerprint hfingerprint sources =
      .ok plan ∧
    settings.ingestion.scopes scopeId = some ⟨ingestionOccurrenceId, some plan⟩ ∧
    List.Forall₂ (Dispatched settings scopeId ingestionOccurrenceId) plan.dispatches receipts

/-- The sources that were accepted. -/
def acceptedIds (receipts : List (IngestionDispatchReceipt υ)) : List String :=
  receipts.flatMap IngestionDispatchReceipt.acceptedSourceUnitIds

/-- The sources that were skipped. -/
def skippedIds (receipts : List (IngestionDispatchReceipt υ)) : List String :=
  receipts.flatMap IngestionDispatchReceipt.skippedSourceUnitIds

/-- The documents of a bank lie between the accepted sources and all sources. -/
structure Between (receipts : List (IngestionDispatchReceipt υ)) (documents : List String) :
    Prop where
  complete : ∀ identity ∈ acceptedIds receipts, identity ∈ documents
  known : ∀ identity ∈ documents, identity ∈ acceptedIds receipts ∨ identity ∈ skippedIds receipts

/-- The scope is ready, and its projection shows some sources. -/
def Projects (settings : AdapterSettings υ) (bank : Bank) (scopeId ingestionOccurrenceId : String)
    (receipts : List (IngestionDispatchReceipt υ)) (shown : List String) : Prop :=
  ∃ readiness ready projection,
    answered bank.answers (waitReady settings (fun _ ↦ none)
        (readinessRequest scopeId ingestionOccurrenceId receipts)) = .ok (readiness, ready) ∧
      readiness.ready = true ∧
      answered bank.answers (project settings ready scopeId ingestionOccurrenceId) =
        .ok projection ∧ projection.orderedSourceUnitIds = shown

/-- Readiness raises an error. -/
def Refuses (settings : AdapterSettings υ) (bank : Bank) (scopeId ingestionOccurrenceId : String)
    (receipts : List (IngestionDispatchReceipt υ)) : Prop :=
  ∃ error, answered bank.answers (waitReady settings (fun _ ↦ none)
    (readinessRequest scopeId ingestionOccurrenceId receipts)) = .error error

/-- A bank whose documents lie between the accepted sources and all sources is shown as it is, and no
other bank is accepted. -/
structure Accepts (settings : AdapterSettings υ) (bank : Bank)
    (scopeId ingestionOccurrenceId : String) (sources : List SourceUnit)
    (receipts : List (IngestionDispatchReceipt υ)) : Prop where
  shown : Between receipts (bank.documents.map Prod.fst) →
    Projects settings bank scopeId ingestionOccurrenceId receipts
      ((sources.map SourceUnit.sourceUnitId).filter (· ∈ bank.documents.map Prod.fst))
  refused : ¬ Between receipts (bank.documents.map Prod.fst) →
    Refuses settings bank scopeId ingestionOccurrenceId receipts

variable {settings : AdapterSettings υ} {scopeId ingestionOccurrenceId : String}
  {sources : List SourceUnit} {receipts : List (IngestionDispatchReceipt υ)} {bank : Bank}

/-- The sources that the bank may show are all of the plan. -/
theorem Ingested.validateReadinessRequest
    (hingested : Ingested settings scopeId ingestionOccurrenceId sources receipts) :
    validateReadinessRequest settings (readinessRequest scopeId ingestionOccurrenceId receipts) =
      .ok sources := by
  obtain ⟨fingerprint, hfingerprint, plan, hplan, hscope, hdispatched⟩ := hingested.plan
  have hbound := hdispatched.imp fun _ _ hreceipt ↦ hreceipt.bound
  obtain ⟨hdispatches, hrejected, -⟩ := dispatch_of_bound hbound
  have hsources := allReceiptSources_eq hbound
    (fun dispatch hdispatch ↦ units_ne_nil_of_planIngestion hplan hdispatch)
    (fun index hindex ↦ (plan.ordinals index hindex).trans (Nat.add_comm index 1))
  rw [sources_of_planIngestion hplan] at hsources
  have hids := sourceIds_of_planIngestion hplan
  have hnonempty : sources.map SourceUnit.sourceUnitId ≠ [] :=
    mt List.map_eq_nil_iff.mp hingested.nonempty
  simp [HindsightReadiness.validateReadinessRequest, readinessRequest, ingestionReceipt, hscope,
    require, hids, hnonempty, hdispatches, hrejected, hsources, hingested.distinct, bind,
    Except.bind, pure, Except.pure]

omit [DecidableEq υ] in
theorem Ingested.mem_iff
    (hingested : Ingested settings scopeId ingestionOccurrenceId sources receipts)
    (identity : String) : identity ∈ sources.map SourceUnit.sourceUnitId ↔
      identity ∈ acceptedIds receipts ∨ identity ∈ skippedIds receipts := by
  obtain ⟨fingerprint, hfingerprint, plan, hplan, -, hdispatched⟩ := hingested.plan
  rw [← sourceIds_of_planIngestion hplan]
  exact (dispatch_of_bound (hdispatched.imp fun _ _ hreceipt ↦ hreceipt.bound)).2.2 identity

omit [DecidableEq υ] in
/-- The bank shows the sources when it shows all that were accepted and all that were skipped. -/
theorem Ingested.shows_iff
    (hingested : Ingested settings scopeId ingestionOccurrenceId sources receipts) :
    bank.Shows sources ↔ Between receipts (bank.documents.map Prod.fst) ∧
      ∀ identity ∈ skippedIds receipts, identity ∈ bank.documents.map Prod.fst := by
  simp only [Bank.Shows, hingested.mem_iff]
  constructor
  · intro hshows
    exact ⟨⟨fun identity haccepted ↦ (hshows identity).mpr (Or.inl haccepted),
      fun identity ↦ (hshows identity).mp⟩,
      fun identity hskipped ↦ (hshows identity).mpr (Or.inr hskipped)⟩
  · rintro ⟨⟨hcomplete, hknown⟩, hskipped⟩ identity
    exact ⟨hknown identity, fun hcases ↦ hcases.elim (hcomplete identity) (hskipped identity)⟩

/-- A bank that shows the sources is ready, and it is projected. -/
theorem Ingested.projects
    (hingested : Ingested settings scopeId ingestionOccurrenceId sources receipts)
    (hhonest : bank.Honest settings.profile scopeId sources) (hshows : bank.Shows sources) :
    Projects settings bank scopeId ingestionOccurrenceId receipts
      (sources.map SourceUnit.sourceUnitId) := by
  obtain ⟨snapshot, hsnapshot, hids⟩ :=
    answered_buildProjection hhonest hingested.nonempty hingested.distinct hshows
  have hready : answered bank.answers (waitReady settings (fun _ ↦ none)
      (readinessRequest scopeId ingestionOccurrenceId receipts)) =
      .ok (⟨ingestionOccurrenceId, true, (ingestionReceipt ingestionOccurrenceId
          receipts).rawReferences ++ snapshot.rawReferences⟩,
        Function.update (fun _ ↦ none) scopeId
          (some ⟨ingestionOccurrenceId, sources, snapshot.documentToSourceUnit⟩)) := by
    rw [waitReady, hingested.validateReadinessRequest, Except.mapError, ofExcept_ok_bind]
    exact answered_bind_of_ok hsnapshot
  have hproject : answered bank.answers (project settings (Function.update (fun _ ↦ none) scopeId
      (some ⟨ingestionOccurrenceId, sources, snapshot.documentToSourceUnit⟩)) scopeId
        ingestionOccurrenceId) =
      .ok ⟨ingestionOccurrenceId, snapshot.orderedSourceUnitIds, snapshot.stateSha256,
        snapshot.stateSha256, snapshot.rawReferences⟩ := by
    simp only [project, Function.update_self, ne_eq, not_true_eq_false, if_false]
    exact answered_bind_of_ok hsnapshot
  exact ⟨_, _, _, hready, rfl, hproject, hids⟩

/-- A bank that does not show the sources is refused. -/
theorem Ingested.refuses
    (hingested : Ingested settings scopeId ingestionOccurrenceId sources receipts)
    (hhonest : bank.Honest settings.profile scopeId sources) (hshows : ¬ bank.Shows sources) :
    Refuses settings bank scopeId ingestionOccurrenceId receipts := by
  obtain ⟨error, herror⟩ := answered_buildProjection_of_ne hhonest hshows
  refine ⟨error, ?_⟩
  rw [waitReady, hingested.validateReadinessRequest, Except.mapError, ofExcept_ok_bind]
  exact answered_bind_of_error herror

/-- Readiness accepts what the failed attempts may have stored exactly when they stored all of it. -/
theorem accepts_iff (hingested : Ingested settings scopeId ingestionOccurrenceId sources receipts)
    (hhonest : bank.Honest settings.profile scopeId sources) :
    Accepts settings bank scopeId ingestionOccurrenceId sources receipts ↔
      (Between receipts (bank.documents.map Prod.fst) →
        ∀ identity ∈ skippedIds receipts, identity ∈ bank.documents.map Prod.fst) := by
  constructor
  · intro haccepts hbetween
    by_contra hmissing
    obtain ⟨error, herror⟩ := hingested.refuses hhonest
      fun hshows ↦ hmissing (hingested.shows_iff.mp hshows).2
    obtain ⟨readiness, ready, projection, hready, -⟩ := haccepts.shown hbetween
    rw [hready] at herror
    cases herror
  · intro hstored
    refine ⟨fun hbetween ↦ ?_, fun hbetween ↦ ?_⟩
    · have hshows := hingested.shows_iff.mpr ⟨hbetween, hstored hbetween⟩
      have hall : (sources.map SourceUnit.sourceUnitId).filter
          (· ∈ bank.documents.map Prod.fst) = sources.map SourceUnit.sourceUnitId :=
        List.filter_eq_self.mpr fun identity hidentity ↦
          decide_eq_true ((hshows identity).mpr hidentity)
      rw [hall]
      exact hingested.projects hhonest hshows
    · exact hingested.refuses hhonest fun hshows ↦ hbetween (hingested.shows_iff.mp hshows).1

end Partial

/-! ### A sample -/

section Sample

/-- The text of some bytes. -/
def sampleText (content : Bytes) : String :=
  String.ofList (content.map fun byte ↦ Char.ofNat byte.toNat)

def sampleFingerprint (ordinal : ℕ) (_ : List SourceUnit) : String :=
  String.ofList (List.replicate ordinal 'i')

theorem sampleFingerprint_injective (ordinal other : ℕ) (units units' : List SourceUnit)
    (hsame : sampleFingerprint ordinal units = sampleFingerprint other units') :
    ordinal = other := by
  have hlengths := congrArg List.length (String.ofList_injective hsame)
  rwa [List.length_replicate, List.length_replicate] at hlengths

def sampleSource : SourceUnit :=
  ⟨"source", 1, [116, 101, 120, 116], some "2026-01-01T00:00:00Z", some "context", []⟩

def samplePlan : FrozenPlan :=
  planDispatches HindsightIngest.retainOperation sampleFingerprint sampleFingerprint_injective
    [[sampleSource]]

/-- The item of the sample's document on its page. -/
def sampleItem : Json := .object
  [("id", .string "source"), ("bank_id", .string "bank"), ("content_hash", .string "text"),
    ("created_at", .string "now"), ("updated_at", .string "now"), ("text_length", .integer 4),
    ("memory_unit_count", .integer 0), ("retain_params", .null), ("document_metadata", .null),
    ("tags", .array [])]

/-- The detail of the sample's document. -/
def sampleDetail : Json := .object
  [("id", .string "source"), ("bank_id", .string "bank"), ("original_text", .string "text"),
    ("content_hash", .string "text"), ("memory_unit_count", .integer 0),
    ("nodes_by_fact_type", .null), ("created_at", .string "now"), ("updated_at", .string "now"),
    ("tags", .array []), ("document_metadata", .null), ("retain_params", .null),
    ("observation_scopes", .null)]

/-- The responses of the sample: pages without items, and the pages and the detail of a document. -/
def sampleParse : Bytes → Except String Json
  | [0] => .ok (pageDocument [] 0 0)
  | [1] => .ok (pageDocument [sampleItem] 1 0)
  | [2] => .ok (pageDocument [] 1 1)
  | [3] => .ok sampleDetail
  | _ => .error "response is not valid JSON"

def sampleProfile : Profile where
  parse := sampleParse
  decode content := some (sampleText content)
  sha256 := sampleText
  same first second := first.asText = second.asText && first.asInteger = second.asInteger
  isUuid _ := false
  quote text := text
  canonicalJsonBytes _ := []

def sampleSettings : AdapterSettings String where
  ingestion :=
    { scopes := fun scopeId ↦
        if scopeId = "bank" then some ⟨"occurrence", some samplePlan⟩ else none
      fingerprint := fun _ ↦ sampleFingerprint
      decode := fun content ↦ some (sampleText content)
      acceptable := fun _ _ _ ↦ true
      classifySettledIngestionFailure := fun _ _ _ ↦ some "rate_limited"
      internalRetryCount := some 0 }
  profile := sampleProfile
  retainUsageRecord _ _ _ _ := "usage"

/-- The failure of every attempt of the sample. -/
def sampleFailure : CallFailure :=
  ⟨"memory-system returned HTTP 503", "http_status", some "busy", some [98, 117, 115, 121],
    some 503⟩

def sampleSettled : SettledFailure :=
  ⟨"rate_limited", "busy", [98, 117, 115, 121], [], 503, HindsightIngest.settlementBasis, 0, none,
    none⟩

def sampleDispatch : IngestionDispatch :=
  dispatchOf HindsightIngest.retainOperation sampleFingerprint [sampleSource] 0

/-- The three attempts of the sample. -/
def sampleOutcomes (ordinal : ℕ) : Except IngestError (IngestionDispatchReceipt String) :=
  if 1 ≤ ordinal ∧ ordinal ≤ 3 then .error (.settled sampleSettled)
  else .error (.valueError "ingestion batch attempt ordinal must be 1, 2, or 3")

def sampleReceipt : IngestionDispatchReceipt String :=
  skippedReceipt "attempt" sampleDispatch sampleSettled

theorem sample_attempted (ordinal : ℕ) : Attempted sampleSettings "bank" "occurrence"
    sampleDispatch "attempt" ordinal (sampleOutcomes ordinal) := by
  unfold sampleOutcomes
  split_ifs with hbounded
  · let request : IngestionDispatchRequest :=
      ⟨"bank", "occurrence", "attempt", sampleDispatch, ordinal, hbounded⟩
    have hexecution : Execution (ingest sampleSettings request)
        [⟨.request _, .callFailure sampleFailure⟩] (.error (.settled sampleSettled)) :=
      .ask _ .done
    refine .made ⟨rfl, rfl, rfl, rfl, rfl⟩ (fun exchange hexchange ↦ ?_) hexecution
    rw [List.mem_singleton] at hexchange
    subst hexchange
    intro content reference hcontent hreference
    cases hcontent
    cases hreference
    rfl
  · exact .refused

theorem sample_ingested :
    Ingested sampleSettings "bank" "occurrence" [sampleSource] [sampleReceipt] where
  nonempty := List.cons_ne_nil _ _
  distinct := List.nodup_singleton _
  plan := by
    refine ⟨sampleFingerprint, sampleFingerprint_injective, samplePlan, rfl, rfl, ?_⟩
    exact .cons ⟨3, fun _ ↦ "attempt", sampleOutcomes, sample_attempted, rfl⟩ .nil

theorem servesPages_nil {listing : Listing} {respond : RestCall → SealedRestResponse}
    (hparse : sampleParse (respond (listing.call 0)).rawBytes = .ok (pageDocument [] 0 0)) :
    ServesPages sampleProfile listing respond [] where
  distinct := List.nodup_nil
  identified := fun _ hitem ↦ nomatch hitem
  fields := fun _ hitem ↦ nomatch hitem
  pages := by
    intro shown rest hitems
    obtain ⟨rfl, rfl⟩ := List.append_eq_nil_iff.mp hitems.symm
    exact ⟨[], List.nil_prefix, fun _ ↦ rfl, hparse⟩

/-- A bank that has no document. -/
def emptyBank : Bank := ⟨[], [], fun _ ↦ ⟨200, [0], "page", none⟩⟩

theorem emptyBank_honest : emptyBank.Honest sampleProfile "bank" [sampleSource] where
  documents := servesPages_nil rfl
  document := fun _ hitem ↦ nomatch hitem
  memories := servesPages_nil rfl
  memory := fun _ hitem ↦ nomatch hitem
  mentalModels := rfl
  observations := rfl

/-- What a bank with the sample's document answers. -/
def storedContent (call : RestCall) : Bytes :=
  if call.path = "/v1/default/banks/bank/documents" then
    if ((Json.object call.params).get "offset").asInteger = some 0 then [1] else [2]
  else if call.path = "/v1/default/banks/bank/documents/source" then [3]
  else [0]

/-- A bank in which a failed attempt has stored the sample's document. -/
def storedBank : Bank :=
  ⟨[("source", sampleItem)], [], fun call ↦ ⟨200, storedContent call, "page", none⟩⟩

theorem storedBank_honest : storedBank.Honest sampleProfile "bank" [sampleSource] where
  documents :=
    { distinct := List.nodup_singleton _
      identified := by
        intro item hitem
        rw [List.mem_singleton.mp hitem]
        rfl
      fields := by
        intro item hitem
        rw [List.mem_singleton.mp hitem]
        rfl
      pages := by
        intro shown rest hitems
        rcases List.singleton_eq_append_iff.mp hitems with ⟨rfl, rfl⟩ | ⟨rfl, rfl⟩
        · exact ⟨storedBank.documents, List.prefix_rfl,
            fun hnone ↦ absurd hnone (List.cons_ne_nil _ _), rfl⟩
        · exact ⟨[], List.nil_prefix, fun _ ↦ rfl, rfl⟩ }
  document := by
    intro item hitem
    rw [List.mem_singleton.mp hitem]
    refine ⟨rfl, rfl, fun source hsource _ ↦ ⟨sampleDetail, ?_, rfl⟩⟩
    rw [List.mem_singleton.mp hsource]
    rfl
  memories := servesPages_nil rfl
  memory := fun _ hitem ↦ nomatch hitem
  mentalModels := rfl
  observations := rfl

/-- The failed attempts stored nothing, and readiness does not accept it. -/
theorem not_accepts_of_emptyBank :
    Ingested sampleSettings "bank" "occurrence" [sampleSource] [sampleReceipt] ∧
      emptyBank.Honest sampleProfile "bank" [sampleSource] ∧
      ¬ Accepts sampleSettings emptyBank "bank" "occurrence" [sampleSource] [sampleReceipt] := by
  refine ⟨sample_ingested, emptyBank_honest, fun haccepts ↦ ?_⟩
  have hbetween : Between [sampleReceipt] (emptyBank.documents.map Prod.fst) :=
    ⟨(fun _ hidentity ↦ nomatch hidentity), (fun _ hidentity ↦ nomatch hidentity)⟩
  have hmissing : ¬ emptyBank.Shows [sampleSource] :=
    fun hshows ↦ List.not_mem_nil ((hshows "source").mpr List.mem_cons_self)
  obtain ⟨error, herror⟩ := sample_ingested.refuses emptyBank_honest hmissing
  obtain ⟨readiness, ready, projection, hready, -⟩ := haccepts.shown hbetween
  rw [hready] at herror
  cases herror

/-- A failed attempt stored its document, and readiness accepts it. -/
theorem accepts_of_storedBank :
    Accepts sampleSettings storedBank "bank" "occurrence" [sampleSource] [sampleReceipt] :=
  (accepts_iff sample_ingested storedBank_honest).mpr fun _ _ hskipped ↦ hskipped

end Sample

end Oamb.MemorySystems.HindsightGuarantees
