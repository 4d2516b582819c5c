import Oamb.Runtime.AttemptCoordinator
import Oamb.Runtime.LedgerGuarantees

/-!
# What an attempt coordinator guarantees

A durable intent was preceded by its claim, its reservation record and the reservation of the
ledger, and a durable terminal record other than an unknown outcome was preceded by its intent and
its receipt. This holds in every run (`ordered_of_calls`).

That no attempt has both a receipt and an unknown outcome does not hold in every run, because a
receipt is durable before the ledger and the provider lifecycle accept it, and because a receipt is
sealed without a look at the terminal record. `RunSettles` excludes these two: every receipt that
passes its checks finds no unknown outcome, and is accepted to the end. The runs that satisfy it
have all three properties (`transactionsClosed_of_calls`); `refused_observation_is_not_exclusive` is
a run that does not satisfy it.
-/

set_option autoImplicit false

namespace Oamb.Runtime.AttemptGuarantees

open Foundation Foundation.CreateOnlyLog Foundation.StatefulExecution
open Contracts.AttemptRecords ResourceAmounts LedgerOperations LedgerGuarantees
open AttemptCoordinator

variable {Λ : Type}

/-! ### The statements -/

/-- A record is durable in a trace. -/
abbrev Durable (trace : List Event) (record : SourceRecord) : Prop := .sealed record ∈ trace

/-- The intent and the receipt of an attempt are durable. -/
def Received (trace : List Event) (attemptId : String) : Prop :=
  (∃ intent, Durable trace (.intent intent) ∧ intent.attemptId = attemptId) ∧
    ∃ receipt, Durable trace (.receipt receipt) ∧ receipt.attemptId = attemptId

/-- The claim and the reservation of an intent are durable, after its budget was reserved. -/
def Backed (trace : List Event) (intent : AttemptIntentRecord) : Prop :=
  (∃ claim, Durable trace (.claim claim) ∧ claim.claimId = intent.claimId) ∧
    (∃ reservation, Durable trace (.reservation reservation) ∧
      reservation.reservationId = intent.reservationId) ∧
    .reserved intent.reservationId ∈ trace

/-- No attempt has both a receipt and an unknown outcome. -/
def Exclusive (trace : List Event) : Prop :=
  ∀ receipt attempt, Durable trace (.receipt receipt) → Durable trace (.attempt attempt) →
    attempt.attemptId = receipt.attemptId → attempt.outcome ≠ .unknownOutcome

/-- What a coordinator promises of the records of its attempts. -/
structure TransactionsClosed (trace : List Event) : Prop where
  exclusive : Exclusive trace
  received : ∀ later earlier attempt, trace = later ++ .sealed (.attempt attempt) :: earlier →
    attempt.outcome ≠ .unknownOutcome → Received earlier attempt.attemptId
  backed : ∀ later earlier intent, trace = later ++ .sealed (.intent intent) :: earlier →
    Backed earlier intent

/-- A receipt that passes its checks finds no unknown outcome of its attempt, and the ledger and the
provider lifecycle accept it. -/
def Settles (environment : Environment Λ) (coordinator : Coordinator Λ) : Call → Prop
  | .recordReceipt receipt rawPayload observed ownerObserved =>
    ∀ prepared, checkReceipt environment coordinator receipt rawPayload = .ok prepared →
      (∀ attempt, Durable coordinator.trace (.attempt attempt) →
        attempt.attemptId = receipt.attemptId → attempt.outcome ≠ .unknownOutcome) ∧
      (∃ budget, (commitReceipt prepared observed ownerObserved).run coordinator.budget =
        .ok () budget) ∧
      ∀ port, environment.providerLifecycle = some port →
        ∃ lifecycle, (port.clearAttemptAfterReceipt receipt.attemptId
          prepared.intentRecordHash).run coordinator.lifecycle = .ok () lifecycle
  | _ => True

/-- Every call of a run settles. -/
def RunSettles (environment : Environment Λ) : List Call → Coordinator Λ → Prop
  | [], _ => True
  | call :: calls, coordinator => Settles environment coordinator call ∧
      RunSettles environment calls (after (call.operation environment) coordinator)

/-! ### The invariant -/

/-- What an event requires of the events before it. -/
def Requires : Event → List Event → Prop
  | .sealed (.attempt attempt), earlier =>
    attempt.outcome ≠ .unknownOutcome → Received earlier attempt.attemptId
  | .sealed (.intent intent), earlier => Backed earlier intent
  | _, _ => True

/-- What a coordinator remembers of an attempt is durable. -/
structure Remembered (trace : List Event) (attemptId : String) (attempt : PreparedAttempt) :
    Prop where
  attemptId_eq : attempt.intent.attemptId = attemptId
  intent : Durable trace (.intent attempt.intent)
  receipt : attempt.receiptSealed →
    ∃ receipt, Durable trace (.receipt receipt) ∧ receipt.attemptId = attemptId

/-- The attempt is remembered as received. -/
def RemembersReceipt (coordinator : Coordinator Λ) (attemptId : String) : Prop :=
  ∃ attempt, coordinator.prepared.lookup attemptId = some attempt ∧ attempt.receiptSealed

/-- The invariant of a coordinator. The last two properties hold while all calls settle; they leave
out the attempt whose receipt is being recorded. -/
structure Consistent (settled : Prop) (awaited : Option String) (coordinator : Coordinator Λ) :
    Prop where
  supported : Supported Requires coordinator.trace
  unique : KeysUnique Event.path? coordinator.trace
  recorded : ∀ intent, Durable coordinator.trace (.intent intent) →
    intent.reservationId ∈ coordinator.budget.reservations
  remembered : ∀ attemptId attempt, coordinator.prepared.lookup attemptId = some attempt →
    Remembered coordinator.trace attemptId attempt
  received : settled → ∀ receipt, Durable coordinator.trace (.receipt receipt) →
    awaited ≠ some receipt.attemptId → RemembersReceipt coordinator receipt.attemptId
  exclusive : settled → Exclusive coordinator.trace

/-- What the invariant asks of a record that is sealed next. -/
def Admitted (settled : Prop) (awaited : Option String) (coordinator : Coordinator Λ) :
    SourceRecord → Prop
  | .claim _ | .reservation _ => True
  | .intent intent => Backed coordinator.trace intent ∧
      intent.reservationId ∈ coordinator.budget.reservations
  | .receipt receipt => settled → awaited = some receipt.attemptId ∧
      ∀ attempt, Durable coordinator.trace (.attempt attempt) →
        attempt.attemptId = receipt.attemptId → attempt.outcome ≠ .unknownOutcome
  | .attempt attempt =>
    (attempt.outcome ≠ .unknownOutcome → Received coordinator.trace attempt.attemptId) ∧
      (settled → attempt.outcome = .unknownOutcome → ∀ receipt,
        Durable coordinator.trace (.receipt receipt) → attempt.attemptId ≠ receipt.attemptId)

theorem consistent_create (settled : Prop) (budget : BudgetLedger) (lifecycle : Λ) :
    Consistent settled none (Coordinator.create budget lifecycle) where
  supported := trivial
  unique := fun _ hmem ↦ absurd hmem List.not_mem_nil
  recorded := fun _ hmem ↦ absurd hmem List.not_mem_nil
  remembered := by
    intro attemptId attempt hlookup
    simp [Coordinator.create] at hlookup
  received := fun _ _ hmem ↦ absurd hmem List.not_mem_nil
  exclusive := fun _ _ _ hmem ↦ absurd hmem List.not_mem_nil

namespace Consistent

variable {settled : Prop} {awaited : Option String} {coordinator : Coordinator Λ}

/-- An operation on the ledger that forgets no reservation keeps the invariant. -/
theorem withBudget (hconsistent : Consistent settled awaited coordinator) {budget : BudgetLedger}
    (hgrow : ∀ reservationId ∈ coordinator.budget.reservations,
      reservationId ∈ budget.reservations) :
    Consistent settled awaited { coordinator with budget := budget } :=
  { hconsistent with
    recorded := fun intent hmem ↦ hgrow _ (hconsistent.recorded intent hmem) }

theorem withLifecycle (hconsistent : Consistent settled awaited coordinator) (lifecycle : Λ) :
    Consistent settled awaited { coordinator with lifecycle := lifecycle } :=
  { hconsistent with }

theorem withRawPayloads (hconsistent : Consistent settled awaited coordinator)
    (rawPayloads : Dictionary String (List UInt8)) :
    Consistent settled awaited { coordinator with rawPayloads := rawPayloads } :=
  { hconsistent with }

theorem noteReserved (hconsistent : Consistent settled awaited coordinator)
    (reservationId : String) :
    Consistent settled awaited
      { coordinator with trace := .reserved reservationId :: coordinator.trace } where
  supported := ⟨trivial, hconsistent.supported⟩
  unique := hconsistent.unique.cons rfl
  recorded := by
    intro intent hmem
    simp only [List.mem_cons, reduceCtorEq, false_or] at hmem
    exact hconsistent.recorded intent hmem
  remembered := by
    intro attemptId attempt hlookup
    obtain ⟨heq, hintent, hreceipt⟩ := hconsistent.remembered attemptId attempt hlookup
    refine ⟨heq, List.mem_cons_of_mem _ hintent, fun hsealed ↦ ?_⟩
    obtain ⟨receipt, hdurable, hid⟩ := hreceipt hsealed
    exact ⟨receipt, List.mem_cons_of_mem _ hdurable, hid⟩
  received := by
    intro hsettled receipt hmem
    simp only [List.mem_cons, reduceCtorEq, false_or] at hmem
    exact hconsistent.received hsettled receipt hmem
  exclusive := by
    intro hsettled receipt attempt hreceipt hattempt
    simp only [List.mem_cons, reduceCtorEq, false_or] at hreceipt hattempt
    exact hconsistent.exclusive hsettled receipt attempt hreceipt hattempt

/-- An admitted record can be sealed. -/
theorem sealRecord (hconsistent : Consistent settled awaited coordinator) {record : SourceRecord}
    (hadmitted : Admitted settled awaited coordinator record) {trace : List Event}
    (hpublish : publish Event.path? record.path (.sealed record) coordinator.trace = some trace) :
    Consistent settled awaited { coordinator with trace := trace } where
  supported := by
    refine hconsistent.supported.publish ?_ hpublish
    cases record with
    | claim | reservation | receipt => trivial
    | intent | attempt => exact hadmitted.1
  unique := hconsistent.unique.publish rfl hpublish
  recorded := by
    intro intent hmem
    rcases (mem_publish hpublish).mp hmem with heq | hearlier
    · cases heq
      exact hadmitted.2
    · exact hconsistent.recorded intent hearlier
  remembered := by
    intro attemptId attempt hlookup
    obtain ⟨heq, hintent, hreceipt⟩ := hconsistent.remembered attemptId attempt hlookup
    refine ⟨heq, (mem_publish hpublish).mpr (Or.inr hintent), fun hsealed ↦ ?_⟩
    obtain ⟨receipt, hdurable, hid⟩ := hreceipt hsealed
    exact ⟨receipt, (mem_publish hpublish).mpr (Or.inr hdurable), hid⟩
  received := by
    intro hsettled receipt hmem hawaited
    rcases (mem_publish hpublish).mp hmem with heq | hearlier
    · cases heq
      exact absurd (hadmitted hsettled).1 hawaited
    · exact hconsistent.received hsettled receipt hearlier hawaited
  exclusive := by
    intro hsettled receipt attempt hreceipt hattempt hid
    rcases (mem_publish hpublish).mp hreceipt with heq | hreceipt
    · cases heq
      rcases (mem_publish hpublish).mp hattempt with heq | hattempt
      · cases heq
      · exact (hadmitted hsettled).2 attempt hattempt hid
    · rcases (mem_publish hpublish).mp hattempt with heq | hattempt
      · cases heq
        exact fun hunknown ↦ hadmitted.2 hsettled hunknown receipt hreceipt hid
      · exact hconsistent.exclusive hsettled receipt attempt hreceipt hattempt hid

/-- While a receipt is recorded, its attempt is left out. -/
theorem await (hconsistent : Consistent settled none coordinator) (attemptId : String) :
    Consistent settled (some attemptId) coordinator :=
  { hconsistent with
    received := fun hsettled receipt hdurable _ ↦
      hconsistent.received hsettled receipt hdurable nofun }

/-- When the calls do not settle, no attempt has to be left out. -/
theorem of_unsettled (hconsistent : Consistent settled awaited coordinator)
    (hunsettled : ¬ settled) : Consistent settled none coordinator :=
  { hconsistent with received := fun hsettled ↦ absurd hsettled hunsettled }

/-- An attempt that is not awaited and not remembered as received has no receipt. -/
theorem not_durable_receipt (hconsistent : Consistent settled none coordinator)
    (hsettled : settled) {attemptId : String}
    (hunsealed : ¬ RemembersReceipt coordinator attemptId) {receipt : AttemptReceiptRecord}
    (hdurable : Durable coordinator.trace (.receipt receipt)) :
    attemptId ≠ receipt.attemptId := by
  rintro rfl
  exact hunsealed (hconsistent.received hsettled receipt hdurable nofun)

/-- The state of an attempt can be replaced by one that is durable, and that knows of the receipt
if there is one. -/
theorem setPrepared (hconsistent : Consistent settled awaited coordinator) {attemptId : String}
    {attempt : PreparedAttempt} (hremembered : Remembered coordinator.trace attemptId attempt)
    (hawaited : ∀ awaitedId, awaited = some awaitedId → awaitedId = attemptId)
    (hreceipt : settled → attempt.receiptSealed ∨ ∀ receipt,
      Durable coordinator.trace (.receipt receipt) → attemptId ≠ receipt.attemptId) :
    Consistent settled none
      { coordinator with prepared := coordinator.prepared.insert attemptId attempt } :=
  { hconsistent with
    remembered := by
      intro foundId found hlookup
      rw [Dictionary.lookup_insert_eq_ite] at hlookup
      split_ifs at hlookup with heq
      · cases hlookup
        exact heq ▸ hremembered
      · exact hconsistent.remembered foundId found hlookup
    received := by
      intro hsettled receipt hdurable _
      simp only [RemembersReceipt, Dictionary.lookup_insert_eq_ite]
      by_cases heq : receipt.attemptId = attemptId
      · rw [if_pos heq]
        rcases hreceipt hsettled with hsealed | hnone
        · exact ⟨attempt, rfl, hsealed⟩
        · exact absurd heq.symm (hnone receipt hdurable)
      · rw [if_neg heq]
        refine hconsistent.received hsettled receipt hdurable fun hsome ↦ heq ?_
        exact hawaited _ hsome }

end Consistent

/-! ### What the checks accept -/

section Checks

variable {environment : Environment Λ} {coordinator : Coordinator Λ}

@[simp] theorem refuse_eq_ok {condition : Prop} [Decidable condition] {message : String} :
    refuse condition message = .ok () ↔ ¬ condition := by
  by_cases hcondition : condition <;> simp [refuse, hcondition]

@[simp] theorem requirePrepared_eq_ok {attemptId : String} {attempt : PreparedAttempt} :
    requirePrepared coordinator attemptId = .ok attempt ↔
      coordinator.prepared.lookup attemptId = some attempt := by
  cases hlookup : coordinator.prepared.lookup attemptId <;> simp [requirePrepared, hlookup]

theorem ofBudget_eq_ok {α : Type} {computation : Except BudgetError α} {result : α} :
    ofBudget computation = .ok result ↔ computation = .ok result := by
  cases computation <;> simp [ofBudget]

theorem reservationId_of_create {fields : RequestFields} {request : ReservationRequest}
    (hcreate : ReservationRequest.create fields = .ok request) :
    request.reservationId = fields.reservationId := by
  rw [ReservationRequest.create] at hcreate
  split_ifs at hcreate
  all_goals cases hcreate; rfl

theorem of_validatePrepare {claim : OccurrenceClaimRecord} {reservation : BudgetReservationRecord}
    {intent : AttemptIntentRecord} {maximum : BudgetAmount}
    (hcheck : validatePrepare claim reservation intent maximum = .ok ()) :
    intent.claimId = claim.claimId ∧ intent.reservationId = reservation.reservationId := by
  obtain ⟨_, -, hcheck⟩ := bind_eq_ok.mp hcheck
  obtain ⟨_, -, hcheck⟩ := bind_eq_ok.mp hcheck
  obtain ⟨⟨⟩, hids, -⟩ := bind_eq_ok.mp hcheck
  simpa only [refuse_eq_ok, not_or, not_not] using hids

theorem of_prepareRequest {claim : OccurrenceClaimRecord} {reservation : BudgetReservationRecord}
    {intent : AttemptIntentRecord} {maximum : BudgetAmount} {request : ReservationRequest}
    {ownerMaximums : List BudgetOwnerAllocation}
    (hcheck : prepareRequest claim reservation intent maximum = .ok (request, ownerMaximums)) :
    request.reservationId = intent.reservationId ∧ claim.claimId = intent.claimId ∧
      reservation.reservationId = intent.reservationId := by
  obtain ⟨_, -, hcheck⟩ := bind_eq_ok.mp hcheck
  obtain ⟨_, hvalid, hcheck⟩ := bind_eq_ok.mp hcheck
  obtain ⟨hclaim, hreservation⟩ := of_validatePrepare hvalid
  refine ⟨?_, hclaim.symm, hreservation.symm⟩
  rw [hreservation]
  split at hcheck
  · obtain ⟨_, -, hcheck⟩ := bind_eq_ok.mp hcheck
    obtain ⟨created, hcreate, hresult⟩ := bind_eq_ok.mp hcheck
    cases hresult
    exact reservationId_of_create (ofBudget_eq_ok.mp hcreate)
  · obtain ⟨created, hcreate, hresult⟩ := bind_eq_ok.mp hcheck
    cases hresult
    exact reservationId_of_create (ofBudget_eq_ok.mp hcreate)
  · exact nomatch hcheck

theorem of_checkDispatched {attemptId : String} {prepared : PreparedAttempt}
    (hcheck : checkDispatched coordinator attemptId = .ok prepared) :
    coordinator.prepared.lookup attemptId = some prepared ∧ prepared.receiptSealed = false := by
  obtain ⟨found, hfound, hcheck⟩ := bind_eq_ok.mp hcheck
  obtain ⟨_, hunsealed, hresult⟩ := bind_eq_ok.mp hcheck
  cases hresult
  rw [refuse_eq_ok, not_or, Bool.not_eq_true, Bool.not_eq_true] at hunsealed
  exact ⟨requirePrepared_eq_ok.mp hfound, hunsealed.2⟩

theorem of_checkReceipt {receipt : AttemptReceiptRecord} {rawPayload : List UInt8}
    {prepared : PreparedAttempt}
    (hcheck : checkReceipt environment coordinator receipt rawPayload = .ok prepared) :
    coordinator.prepared.lookup receipt.attemptId = some prepared := by
  obtain ⟨found, hfound, hcheck⟩ := bind_eq_ok.mp hcheck
  obtain ⟨_, -, hcheck⟩ := bind_eq_ok.mp hcheck
  obtain ⟨_, -, hcheck⟩ := bind_eq_ok.mp hcheck
  obtain ⟨_, -, hresult⟩ := bind_eq_ok.mp hcheck
  cases hresult
  exact requirePrepared_eq_ok.mp hfound

/-- A terminal record is an unknown outcome exactly when the attempt is not remembered as
received. -/
theorem of_validateTerminal {prepared : PreparedAttempt} {attempt : AttemptRecord}
    (hcheck : validateTerminal prepared attempt = .ok ()) :
    attempt.outcome = .unknownOutcome ↔ prepared.receiptSealed = false := by
  obtain ⟨_, -, hcheck⟩ := bind_eq_ok.mp hcheck
  obtain ⟨_, -, hcheck⟩ := bind_eq_ok.mp hcheck
  obtain ⟨_, -, hcheck⟩ := bind_eq_ok.mp hcheck
  split_ifs at hcheck with hunknown
  · simpa [hunknown] using hcheck
  · simpa [hunknown] using hcheck

theorem of_checkTerminal {attempt : AttemptRecord}
    (hcheck : checkTerminal coordinator attempt = .ok ()) :
    ∃ prepared, coordinator.prepared.lookup attempt.attemptId = some prepared ∧
      (attempt.outcome = .unknownOutcome ↔ prepared.receiptSealed = false) := by
  obtain ⟨found, hfound, hvalid⟩ := bind_eq_ok.mp hcheck
  exact ⟨found, requirePrepared_eq_ok.mp hfound, of_validateTerminal hvalid⟩

theorem of_checkUnknown {reservationId : String} {attempt : AttemptRecord}
    (hcheck : checkUnknown environment coordinator reservationId attempt = .ok ()) :
    ∃ prepared, coordinator.prepared.lookup attempt.attemptId = some prepared ∧
      (attempt.outcome = .unknownOutcome ↔ prepared.receiptSealed = false) := by
  obtain ⟨found, hfound, hcheck⟩ := bind_eq_ok.mp hcheck
  obtain ⟨_, -, hcheck⟩ := bind_eq_ok.mp hcheck
  obtain ⟨_, -, hcheck⟩ := bind_eq_ok.mp hcheck
  obtain ⟨_, -, hcheck⟩ := bind_eq_ok.mp hcheck
  obtain ⟨_, -, hcheck⟩ := bind_eq_ok.mp hcheck
  obtain ⟨_, -, hvalid⟩ := bind_eq_ok.mp hcheck
  exact ⟨found, requirePrepared_eq_ok.mp hfound, of_validateTerminal hvalid⟩

end Checks

/-! ### Triples of the writes -/

section Writes

variable {α : Type} {pre post failure : Coordinator Λ → Prop}

/-- A check goes on with what it accepted. -/
theorem triple_check_bind {computation : Except AttemptError α} {next : α → AttemptOperation Λ Unit}
    (hnext : ∀ result, computation = .ok result → Triple pre (next result) (fun _ ↦ post) failure)
    (hfailure : ∀ coordinator, pre coordinator → failure coordinator) :
    Triple pre (check computation >>= next) (fun _ ↦ post) failure := by
  cases computation with
  | error raised => exact hfailure
  | ok result => exact hnext result rfl

theorem triple_onBudget {operation : LedgerOperation Unit}
    (hok : ∀ coordinator budget, pre coordinator → operation.run coordinator.budget = .ok () budget →
      post { coordinator with budget := budget })
    (herror : ∀ coordinator budget raised, pre coordinator →
      operation.run coordinator.budget = .error raised budget →
      failure { coordinator with budget := budget }) :
    Triple pre (onBudget operation : AttemptOperation Λ Unit) (fun _ ↦ post) failure := by
  intro coordinator hpre
  cases hrun : operation.run coordinator.budget with
  | ok _ budget =>
    have hwrite : (onBudget operation).run coordinator =
        .ok () { coordinator with budget := budget } := by
      simp only [onBudget, EStateM.run] at hrun ⊢
      rw [hrun]
    rw [hwrite]
    exact hok coordinator budget hpre hrun
  | error raised budget =>
    have hwrite : (onBudget operation).run coordinator =
        .error (.budget raised) { coordinator with budget := budget } := by
      simp only [onBudget, EStateM.run] at hrun ⊢
      rw [hrun]
    rw [hwrite]
    exact herror coordinator budget raised hpre hrun

theorem triple_onLifecycle {environment : Environment Λ}
    {operation : ProviderLifecyclePort Λ → EStateM String Λ Unit}
    (hok : ∀ coordinator lifecycle, pre coordinator →
      post { coordinator with lifecycle := lifecycle })
    (herror : ∀ coordinator port lifecycle raised, pre coordinator →
      environment.providerLifecycle = some port →
      (operation port).run coordinator.lifecycle = .error raised lifecycle →
      failure { coordinator with lifecycle := lifecycle }) :
    Triple pre (onLifecycle environment operation) (fun _ ↦ post) failure := by
  intro coordinator hpre
  cases hport : environment.providerLifecycle with
  | none =>
    have hwrite : (onLifecycle environment operation).run coordinator = .ok () coordinator := by
      simp only [onLifecycle, EStateM.run, hport]
    rw [hwrite]
    exact hok coordinator coordinator.lifecycle hpre
  | some port =>
    cases hrun : (operation port).run coordinator.lifecycle with
    | ok _ lifecycle =>
      have hwrite : (onLifecycle environment operation).run coordinator =
          .ok () { coordinator with lifecycle := lifecycle } := by
        simp only [onLifecycle, EStateM.run, hport] at hrun ⊢
        rw [hrun]
      rw [hwrite]
      exact hok coordinator lifecycle hpre
    | error raised lifecycle =>
      have hwrite : (onLifecycle environment operation).run coordinator =
          .error (.lifecycle raised) { coordinator with lifecycle := lifecycle } := by
        simp only [onLifecycle, EStateM.run, hport] at hrun ⊢
        rw [hrun]
      rw [hwrite]
      exact herror coordinator port lifecycle raised hpre hport hrun

theorem triple_sealRecord {record : SourceRecord}
    (hok : ∀ coordinator trace, pre coordinator →
      publish Event.path? record.path (.sealed record) coordinator.trace = some trace →
      post { coordinator with trace := trace })
    (herror : ∀ coordinator, pre coordinator → failure coordinator) :
    Triple pre (sealRecord record) (fun _ ↦ post) failure := by
  intro coordinator hpre
  cases hpublish : publish Event.path? record.path (.sealed record) coordinator.trace with
  | none =>
    have hwrite : (sealRecord record).run coordinator =
        .error (.artifactCollision record.path) coordinator := by
      simp only [sealRecord, EStateM.run, hpublish]
    rw [hwrite]
    exact herror coordinator hpre
  | some trace =>
    have hwrite : (sealRecord record).run coordinator =
        .ok () { coordinator with trace := trace } := by
      simp only [sealRecord, EStateM.run, hpublish]
    rw [hwrite]
    exact hok coordinator trace hpre hpublish

theorem triple_sealRaw {sha256 : String} {payload : List UInt8}
    (hok : ∀ coordinator rawPayloads, pre coordinator →
      post { coordinator with rawPayloads := rawPayloads })
    (herror : ∀ coordinator, pre coordinator → failure coordinator) :
    Triple pre (sealRaw sha256 payload) (fun _ ↦ post) failure := by
  intro coordinator hpre
  simp only [sealRaw, EStateM.run]
  cases coordinator.rawPayloads.lookup sha256 with
  | none => exact hok coordinator _ hpre
  | some stored =>
    by_cases heq : stored = payload
    · simp only [if_pos heq]
      exact hok coordinator coordinator.rawPayloads hpre
    · simp only [if_neg heq]
      exact herror coordinator hpre

end Writes

/-! ### The invariant along the calls -/

section Steps

variable {environment : Environment Λ} {settled : Prop}

/-- An intent that is being prepared: its budget is reserved, it is not durable, and some events
are. -/
structure Preparing (settled : Prop) (intent : AttemptIntentRecord) (events : List Event)
    (coordinator : Coordinator Λ) : Prop where
  consistent : Consistent settled none coordinator
  reserved : intent.reservationId ∈ coordinator.budget.reservations
  fresh : ¬ Durable coordinator.trace (.intent intent)
  durable : ∀ event ∈ events, event ∈ coordinator.trace

/-- A record that needs nothing before it can be sealed while an intent is prepared. -/
theorem triple_preparing {intent : AttemptIntentRecord} {events : List Event}
    (record : SourceRecord) (hadmitted : ∀ coordinator : Coordinator Λ,
      Admitted settled none coordinator record) (hne : record ≠ .intent intent) :
    Triple (Preparing settled intent events) (sealRecord record : AttemptOperation Λ Unit)
      (fun _ ↦ Preparing settled intent (.sealed record :: events))
      (Consistent settled none) := by
  refine triple_sealRecord (fun coordinator trace hpreparing hpublish ↦ ?_)
    fun coordinator hpreparing ↦ hpreparing.consistent
  refine ⟨hpreparing.consistent.sealRecord (hadmitted coordinator) hpublish, hpreparing.reserved,
    fun hdurable ↦ ?_, fun event hevent ↦ (mem_publish hpublish).mpr ?_⟩
  · rcases (mem_publish hpublish).mp hdurable with heq | hearlier
    · exact hne (Event.sealed.inj heq).symm
    · exact hpreparing.fresh hearlier
  · exact (List.mem_cons.mp hevent).imp_right (hpreparing.durable event)

/-- The budget of an intent is reserved only when the intent is not durable yet. -/
theorem triple_reserve {request : ReservationRequest} {intent : AttemptIntentRecord}
    (hid : request.reservationId = intent.reservationId) :
    Triple (Consistent settled none) (onBudget (reserve request) : AttemptOperation Λ Unit)
      (fun _ ↦ Preparing settled intent []) (Consistent settled none) := by
  have hgrow {budget next : BudgetLedger} (hafter : after (reserve request) budget = next) :
      ∀ reservationId ∈ budget.reservations, reservationId ∈ next.reservations := by
    intro reservationId hmem
    rw [← hafter]
    exact mem_reservations_after (.reserve request) hmem
  refine triple_onBudget (fun coordinator budget hconsistent hrun ↦ ?_)
    fun coordinator budget raised hconsistent hrun ↦
      hconsistent.withBudget (hgrow (after_of_error hrun))
  obtain ⟨hfresh, hreserved⟩ := of_run_reserve hrun
  rw [hid] at hfresh hreserved
  exact ⟨hconsistent.withBudget (hgrow (after_of_ok hrun)), hreserved,
    fun hdurable ↦ hfresh (hconsistent.recorded intent hdurable), fun _ hmem ↦ nomatch hmem⟩

theorem triple_noteReserved {intent : AttemptIntentRecord} (reservationId : String) :
    Triple (Preparing settled intent []) (noteReserved reservationId : AttemptOperation Λ Unit)
      (fun _ ↦ Preparing settled intent [.reserved reservationId]) (Consistent settled none) := by
  refine Triple.modify _ fun coordinator hpreparing ↦ ⟨hpreparing.consistent.noteReserved _,
    hpreparing.reserved, fun hdurable ↦ ?_, fun event hevent ↦ ?_⟩
  · simp only [Durable, List.mem_cons, reduceCtorEq, false_or] at hdurable
    exact hpreparing.fresh hdurable
  · rw [List.mem_singleton.mp hevent]
    exact List.mem_cons_self

/-- The intent itself is sealed when its claim, its reservation and the reserved budget are there;
no receipt of its attempt is durable then. -/
theorem triple_sealIntent {claim : OccurrenceClaimRecord} {reservation : BudgetReservationRecord}
    {intent : AttemptIntentRecord} (hclaim : claim.claimId = intent.claimId)
    (hreservation : reservation.reservationId = intent.reservationId) :
    Triple (Preparing settled intent [.sealed (.reservation reservation), .sealed (.claim claim),
        .reserved reservation.reservationId])
      (sealRecord (.intent intent) : AttemptOperation Λ Unit)
      (fun _ coordinator ↦ Consistent settled none coordinator ∧
        Durable coordinator.trace (.intent intent) ∧
        ¬ RemembersReceipt coordinator intent.attemptId)
      (Consistent settled none) := by
  refine triple_sealRecord (fun coordinator trace hpreparing hpublish ↦ ?_)
    fun coordinator hpreparing ↦ hpreparing.consistent
  have hbacked : Backed coordinator.trace intent := by
    refine ⟨⟨claim, hpreparing.durable _ (by simp), hclaim⟩,
      ⟨reservation, hpreparing.durable _ (by simp), hreservation⟩, ?_⟩
    rw [← hreservation]
    exact hpreparing.durable _ (by simp)
  have hadmitted : Admitted settled none coordinator (.intent intent) :=
    ⟨hbacked, hpreparing.reserved⟩
  refine ⟨hpreparing.consistent.sealRecord hadmitted hpublish,
    (mem_publish hpublish).mpr (Or.inl rfl), ?_⟩
  rintro ⟨attempt, hlookup, -⟩
  have hremembered := hpreparing.consistent.remembered _ _ hlookup
  rcases publish_cases hpublish with ⟨-, hdurable⟩ | ⟨-, hnew⟩
  · exact hpreparing.fresh hdurable
  · refine hnew _ hremembered.intent ?_
    simp [Event.path?, SourceRecord.path, hremembered.attemptId_eq]

theorem triple_prepare (claim : OccurrenceClaimRecord) (reservation : BudgetReservationRecord)
    (intent : AttemptIntentRecord) (maximum : BudgetAmount) :
    Triple (Consistent settled none) (prepare environment claim reservation intent maximum)
      (fun _ ↦ Consistent settled none) (Consistent settled none) := by
  refine triple_check_bind (fun ⟨request, ownerMaximums⟩ hcheck ↦ ?_) fun _ ↦ id
  obtain ⟨hrequest, hclaim, hreservation⟩ := of_prepareRequest hcheck
  refine (triple_reserve hrequest).bind fun _ ↦ (triple_noteReserved _).bind fun _ ↦ ?_
  refine (triple_preparing (.claim claim) (fun _ ↦ trivial) nofun).bind fun _ ↦ ?_
  refine (triple_preparing (.reservation reservation) (fun _ ↦ trivial) nofun).bind fun _ ↦ ?_
  refine (triple_sealIntent hclaim hreservation).bind fun _ ↦ ?_
  refine Triple.modify _ fun coordinator ⟨hconsistent, hintent, hunsealed⟩ ↦ ?_
  exact hconsistent.setPrepared ⟨rfl, hintent, nofun⟩ nofun fun hsettled ↦
    Or.inr fun receipt ↦ hconsistent.not_durable_receipt hsettled hunsealed

theorem triple_markDispatched (attemptId : String) :
    Triple (Consistent settled none) (markDispatched environment attemptId)
      (fun _ ↦ Consistent settled none) (Consistent settled none) := by
  refine Triple.get_bind fun start hstart ↦ ?_
  refine triple_check_bind (fun prepared hcheck ↦ ?_) fun coordinator heq ↦ heq ▸ hstart
  obtain ⟨hlookup, hunsealed⟩ := of_checkDispatched hcheck
  have hlifecycle : Triple (· = start) (onLifecycle environment fun port ↦
      port.markAttemptDispatched attemptId prepared.intentRecordHash)
      (fun _ coordinator ↦ Consistent settled none coordinator ∧
        coordinator.prepared.lookup attemptId = some prepared) (Consistent settled none) := by
    refine triple_onLifecycle ?_ ?_
    · rintro _ lifecycle rfl
      exact ⟨hstart.withLifecycle lifecycle, hlookup⟩
    · rintro _ port lifecycle raised rfl - -
      exact hstart.withLifecycle lifecycle
  refine hlifecycle.bind fun _ ↦ Triple.modify _ fun coordinator ⟨hconsistent, hfound⟩ ↦ ?_
  have hremembered := hconsistent.remembered _ _ hfound
  refine hconsistent.setPrepared ⟨hremembered.attemptId_eq, hremembered.intent, nofun⟩ nofun
    fun hsettled ↦ Or.inr fun receipt ↦ hconsistent.not_durable_receipt hsettled ?_
  rintro ⟨attempt, hother, hsealed⟩
  rw [hfound, Option.some.injEq] at hother
  rw [← hother, hunsealed] at hsealed
  exact nomatch hsealed

/-- A terminal record that agrees with what is remembered of its attempt is admitted. -/
theorem admitted_attempt {coordinator : Coordinator Λ}
    (hconsistent : Consistent settled none coordinator) {attempt : AttemptRecord}
    {prepared : PreparedAttempt}
    (hlookup : coordinator.prepared.lookup attempt.attemptId = some prepared)
    (houtcome : attempt.outcome = .unknownOutcome ↔ prepared.receiptSealed = false) :
    Admitted settled none coordinator (.attempt attempt) := by
  have hremembered := hconsistent.remembered _ _ hlookup
  constructor
  · intro hknown
    rw [ne_eq, houtcome, Bool.not_eq_false] at hknown
    exact ⟨⟨prepared.intent, hremembered.intent, hremembered.attemptId_eq⟩,
      hremembered.receipt hknown⟩
  · intro hsettled hunknown receipt
    refine hconsistent.not_durable_receipt hsettled ?_
    rintro ⟨other, hother, hsealed⟩
    rw [hlookup, Option.some.injEq] at hother
    rw [← hother, houtcome.mp hunknown] at hsealed
    exact nomatch hsealed

theorem triple_sealTerminal (attempt : AttemptRecord) :
    Triple (Consistent settled none) (sealTerminal attempt : AttemptOperation Λ Unit)
      (fun _ ↦ Consistent settled none) (Consistent settled none) := by
  refine Triple.get_bind fun start hstart ↦ ?_
  refine triple_check_bind (fun _ hcheck ↦ ?_) fun coordinator heq ↦ heq ▸ hstart
  obtain ⟨prepared, hlookup, houtcome⟩ := of_checkTerminal hcheck
  refine triple_sealRecord ?_ fun coordinator heq ↦ heq ▸ hstart
  rintro _ trace rfl hpublish
  exact hstart.sealRecord (admitted_attempt hstart hlookup houtcome) hpublish

theorem triple_markUnknown (reservationId : String) (attempt : AttemptRecord) :
    Triple (Consistent settled none) (markUnknown environment reservationId attempt)
      (fun _ ↦ Consistent settled none) (Consistent settled none) := by
  refine Triple.get_bind fun start hstart ↦ ?_
  refine triple_check_bind (fun _ hcheck ↦ ?_) fun coordinator heq ↦ heq ▸ hstart
  obtain ⟨prepared, hlookup, houtcome⟩ := of_checkUnknown hcheck
  have hgrow {next : BudgetLedger}
      (hafter : after (LedgerOperations.markUnknown reservationId) start.budget = next) :
      Consistent settled none { start with budget := next } := by
    refine hstart.withBudget fun otherId hmem ↦ ?_
    rw [← hafter]
    exact mem_reservations_after (.markUnknown reservationId) hmem
  have hbudget : Triple (· = start) (onBudget (LedgerOperations.markUnknown reservationId))
      (fun _ coordinator ↦ Consistent settled none coordinator ∧
        coordinator.prepared.lookup attempt.attemptId = some prepared)
      (Consistent settled none) := by
    refine triple_onBudget ?_ ?_
    · rintro _ budget rfl hrun
      exact ⟨hgrow (after_of_ok hrun), hlookup⟩
    · rintro _ budget raised rfl hrun
      exact hgrow (after_of_error hrun)
  refine hbudget.bind fun _ ↦ triple_sealRecord ?_ fun coordinator hmid ↦ hmid.1
  intro coordinator trace ⟨hconsistent, hfound⟩ hpublish
  exact hconsistent.sealRecord (admitted_attempt hconsistent hfound houtcome) hpublish

theorem mem_reservations_after_commitReceipt {prepared : PreparedAttempt} {observed : BudgetAmount}
    {ownerObserved : Option (List BudgetOwnerAllocation)} {budget : BudgetLedger}
    {reservationId : String} (hmem : reservationId ∈ budget.reservations) :
    reservationId ∈ (after (commitReceipt prepared observed ownerObserved) budget).reservations := by
  have hevaluate := LedgerExecution.keepsReservations_evaluate
    (committedAmounts prepared observed ownerObserved) budget
  rcases after_bind (evaluate (committedAmounts prepared observed ownerObserved))
    (fun amounts ↦ commit prepared.reservationId amounts.1 amounts.2) budget with
    hstop | ⟨amounts, hcommit⟩
  · rw [commitReceipt, hstop, hevaluate]
    exact hmem
  · rw [commitReceipt, hcommit]
    refine mem_reservations_after (.commit prepared.reservationId amounts.1 amounts.2) ?_
    rwa [hevaluate]

/-- A receipt that is being recorded: it is durable and not remembered yet. -/
structure Recording (settled : Prop) (receipt : AttemptReceiptRecord) (prepared : PreparedAttempt)
    (coordinator : Coordinator Λ) : Prop where
  consistent : Consistent settled (some receipt.attemptId) coordinator
  durable : Durable coordinator.trace (.receipt receipt)
  lookup : coordinator.prepared.lookup receipt.attemptId = some prepared

/-- A receipt is sealed over the ledger and the lifecycle of the coordinator at the start. -/
theorem triple_sealReceipt {start : Coordinator Λ} (hstart : Consistent settled none start)
    {receipt : AttemptReceiptRecord} {prepared : PreparedAttempt}
    (hlookup : start.prepared.lookup receipt.attemptId = some prepared)
    (hopen : settled → ∀ attempt, Durable start.trace (.attempt attempt) →
      attempt.attemptId = receipt.attemptId → attempt.outcome ≠ .unknownOutcome) :
    Triple (fun coordinator ↦ ∃ rawPayloads,
        coordinator = { start with rawPayloads := rawPayloads })
      (sealRecord (.receipt receipt))
      (fun _ coordinator ↦ Recording settled receipt prepared coordinator ∧
        coordinator.budget = start.budget ∧ coordinator.lifecycle = start.lifecycle)
      (Consistent settled none) := by
  refine triple_sealRecord ?_ ?_
  · rintro _ trace ⟨rawPayloads, rfl⟩ hpublish
    have hconsistent := (hstart.withRawPayloads rawPayloads).await receipt.attemptId
    have hadmitted : Admitted settled (some receipt.attemptId)
        { start with rawPayloads := rawPayloads } (.receipt receipt) :=
      fun hsettled ↦ ⟨rfl, hopen hsettled⟩
    exact ⟨⟨hconsistent.sealRecord hadmitted hpublish, (mem_publish hpublish).mpr (Or.inl rfl),
      hlookup⟩, rfl, rfl⟩
  · rintro _ ⟨rawPayloads, rfl⟩
    exact hstart.withRawPayloads rawPayloads

theorem triple_recordReceipt (receipt : AttemptReceiptRecord) (rawPayload : List UInt8)
    (observed : BudgetAmount) (ownerObserved : Option (List BudgetOwnerAllocation)) :
    Triple (fun coordinator ↦ Consistent settled none coordinator ∧ (settled →
        Settles environment coordinator (.recordReceipt receipt rawPayload observed ownerObserved)))
      (recordReceipt environment receipt rawPayload observed ownerObserved)
      (fun _ ↦ Consistent settled none) (Consistent settled none) := by
  refine Triple.get_bind fun start ⟨hstart, hsettles⟩ ↦ ?_
  refine triple_check_bind (fun prepared hcheck ↦ ?_) fun coordinator heq ↦ heq ▸ hstart
  have hraw : Triple (· = start) (sealRaw (environment.payloadHash rawPayload) rawPayload)
      (fun _ coordinator ↦ ∃ rawPayloads, coordinator = { start with rawPayloads := rawPayloads })
      (Consistent settled none) := by
    refine triple_sealRaw ?_ fun coordinator heq ↦ heq ▸ hstart
    rintro _ rawPayloads rfl
    exact ⟨rawPayloads, rfl⟩
  have hseal := triple_sealReceipt hstart (of_checkReceipt hcheck)
    fun hsettled ↦ (hsettles hsettled prepared hcheck).1
  have hcommit : Triple (fun coordinator ↦ Recording settled receipt prepared coordinator ∧
        coordinator.budget = start.budget ∧ coordinator.lifecycle = start.lifecycle)
      (onBudget (commitReceipt prepared observed ownerObserved))
      (fun _ coordinator ↦ Recording settled receipt prepared coordinator ∧
        coordinator.lifecycle = start.lifecycle) (Consistent settled none) := by
    have hgrow {coordinator : Coordinator Λ} {next : BudgetLedger}
        (hrecording : Recording settled receipt prepared coordinator)
        (hafter : after (commitReceipt prepared observed ownerObserved) coordinator.budget = next) :
        Consistent settled (some receipt.attemptId) { coordinator with budget := next } :=
      hrecording.consistent.withBudget fun _ hmem ↦
        hafter ▸ mem_reservations_after_commitReceipt hmem
    refine triple_onBudget ?_ ?_
    · rintro coordinator budget ⟨hrecording, -, hlifecycle⟩ hrun
      exact ⟨⟨hgrow hrecording (after_of_ok hrun), hrecording.durable, hrecording.lookup⟩,
        hlifecycle⟩
    · rintro coordinator budget raised ⟨hrecording, hbudget, -⟩ hrun
      refine (hgrow hrecording (after_of_error hrun)).of_unsettled fun hsettled ↦ ?_
      obtain ⟨-, ⟨accepted, hcommitted⟩, -⟩ := hsettles hsettled prepared hcheck
      rw [hbudget, hcommitted] at hrun
      exact nomatch hrun
  have hclear : Triple (fun coordinator ↦ Recording settled receipt prepared coordinator ∧
        coordinator.lifecycle = start.lifecycle)
      (onLifecycle environment fun port ↦
        port.clearAttemptAfterReceipt receipt.attemptId prepared.intentRecordHash)
      (fun _ ↦ Recording settled receipt prepared) (Consistent settled none) := by
    refine triple_onLifecycle ?_ ?_
    · rintro coordinator lifecycle ⟨hrecording, -⟩
      exact ⟨hrecording.consistent.withLifecycle lifecycle, hrecording.durable, hrecording.lookup⟩
    · rintro coordinator port lifecycle raised ⟨hrecording, hlifecycle⟩ hport hrun
      refine (hrecording.consistent.withLifecycle lifecycle).of_unsettled fun hsettled ↦ ?_
      obtain ⟨-, -, hcleared⟩ := hsettles hsettled prepared hcheck
      obtain ⟨accepted, hcleared⟩ := hcleared port hport
      rw [hlifecycle, hcleared] at hrun
      exact nomatch hrun
  refine hraw.bind fun _ ↦ hseal.bind fun _ ↦ hcommit.bind fun _ ↦ hclear.bind fun _ ↦
    Triple.modify _ fun coordinator hrecording ↦ ?_
  have hremembered := hrecording.consistent.remembered _ _ hrecording.lookup
  refine hrecording.consistent.setPrepared
    ⟨hremembered.attemptId_eq, hremembered.intent, fun _ ↦ ⟨receipt, hrecording.durable, rfl⟩⟩
    (fun awaitedId hawaited ↦ (Option.some.inj hawaited).symm) fun _ ↦ Or.inl rfl

/-- Every call keeps the invariant, also when it raises. -/
theorem consistent_after {coordinator : Coordinator Λ}
    (hconsistent : Consistent settled none coordinator) {call : Call}
    (hsettles : settled → Settles environment coordinator call) :
    Consistent settled none (after (call.operation environment) coordinator) := by
  cases call with
  | prepare claim reservation intent maximum =>
    exact (triple_prepare claim reservation intent maximum).holds_after hconsistent
  | markDispatched attemptId => exact (triple_markDispatched attemptId).holds_after hconsistent
  | recordReceipt receipt rawPayload observed ownerObserved =>
    exact (triple_recordReceipt receipt rawPayload observed ownerObserved).holds_after
      ⟨hconsistent, hsettles⟩
  | sealTerminal attempt => exact (triple_sealTerminal attempt).holds_after hconsistent
  | markUnknown reservationId attempt =>
    exact (triple_markUnknown reservationId attempt).holds_after hconsistent

theorem consistent_run {coordinator : Coordinator Λ} {calls : List Call}
    (hconsistent : Consistent settled none coordinator)
    (hsettles : settled → RunSettles environment calls coordinator) :
    Consistent settled none (run environment calls coordinator) := by
  induction calls generalizing coordinator with
  | nil => exact hconsistent
  | cons call calls ih =>
    exact ih (consistent_after hconsistent fun hsettled ↦ (hsettles hsettled).1)
      fun hsettled ↦ (hsettles hsettled).2

end Steps

/-! ### Guarantees -/

/-- In every run, an event found durable what it requires. -/
theorem ordered_of_calls (environment : Environment Λ) (budget : BudgetLedger) (lifecycle : Λ)
    (calls : List Call) :
    Supported Requires (run environment calls (Coordinator.create budget lifecycle)).trace := by
  have hstart := consistent_create False budget lifecycle
  exact (consistent_run hstart nofun).supported

/-- A run whose receipts all settle closes the transactions of its attempts. -/
theorem transactionsClosed_of_calls (environment : Environment Λ) (budget : BudgetLedger)
    (lifecycle : Λ) (calls : List Call)
    (hsettles : RunSettles environment calls (Coordinator.create budget lifecycle)) :
    TransactionsClosed (run environment calls (Coordinator.create budget lifecycle)).trace := by
  have hconsistent := consistent_run (consistent_create True budget lifecycle) fun _ ↦ hsettles
  have hordered := supported_iff.mp (ordered_of_calls environment budget lifecycle calls)
  constructor
  · exact hconsistent.exclusive trivial
  · exact fun later earlier attempt ↦ hordered later (.sealed (.attempt attempt)) earlier
  · exact fun later earlier intent ↦ hordered later (.sealed (.intent intent)) earlier

/-! ### The attempt of an answer -/

/-- An environment without a provider service; the hash of the payload is the one of the empty
payload. -/
def localEnvironment : Environment Unit where
  recordHash := fun _ ↦ "4f53cda18c2baa0c0354bb5f9a3ecbe5ed12ab4d8e11ba873c2f11161202b945"
  payloadHash := fun _ ↦ "e3b0c44298fc1c149afbf4c8996fb92427ae41e4649b934ca495991b7852b855"
  providerLifecycle := none

/-- The claim of the case `case-1`. -/
def answerClaim : OccurrenceClaimRecord where
  claimId := "claim"
  occurrenceId := "case-1"
  stage := "answer"
  requestFingerprint := "fingerprint"
  reconciliationCapability := .none
  otherFields := ""

/-- A reservation of five seconds for the case. -/
def answerReservation : BudgetReservationRecord where
  reservationId := "reservation"
  scopeKind := .run
  scopeId := "case-1"
  attemptId := "attempt"
  reservedAttempts := 1
  reservedInputTokens := 0
  reservedOutputTokens := 0
  reservedDispatchWallSeconds := 5
  reservedCost := none
  reservedResourceCeilings := []
  reservedProviderUnits := 0
  version := .version1 "answer"
  otherFields := ""

/-- The intent of the attempt. -/
def answerIntent : AttemptIntentRecord where
  attemptId := "attempt"
  claimId := "claim"
  reservationId := "reservation"
  parentKind := .case
  parentId := "case-1"
  stage := "answer"
  requestFingerprint := "fingerprint"
  reconciliationCapability := .none
  idempotencyKeyHash := none
  version := .version1 "answer"
  otherFields := ""

/-- The receipt of an empty response. -/
def answerReceipt : AttemptReceiptRecord where
  attemptId := "attempt"
  receiptKind := .response
  rawResponseRef := some "e3b0c44298fc1c149afbf4c8996fb92427ae41e4649b934ca495991b7852b855"
  rawErrorRef := none
  otherFields := ""

/-- The terminal record of an outcome. -/
def answerAttempt (outcome : AttemptOutcome) : AttemptRecord where
  attemptId := "attempt"
  parentKind := .case
  parentId := "case-1"
  stage := "answer"
  requestFingerprint := "fingerprint"
  reconciliationCapability := .none
  idempotencyKeyHash := none
  outcome := outcome
  rawResponseRef := none
  rawErrorRef := none
  version := .version2
  otherFields := ""

/-- The attempt is prepared and received with the observed seconds. -/
def answerCalls (seconds : ℕ) : List Call :=
  [.prepare answerClaim answerReservation answerIntent (wallAmount 1 5),
    .recordReceipt answerReceipt [] (wallAmount 1 seconds) none]

/-- The coordinator once the attempt is prepared. -/
def preparedAnswer : Coordinator Unit :=
  run localEnvironment [.prepare answerClaim answerReservation answerIntent (wallAmount 1 5)]
    (Coordinator.create (wallLedger 2 100) ())

/-- An observation within the reservation settles, so the run closes the transaction. -/
theorem transactionsClosed_of_accepted_receipt :
    TransactionsClosed (run localEnvironment
      (answerCalls 3 ++ [.sealTerminal (answerAttempt .succeeded)])
      (Coordinator.create (wallLedger 2 100) ())).trace := by
  refine transactionsClosed_of_calls _ _ _ _ ⟨trivial, ?_, trivial, trivial⟩
  intro prepared hcheck
  refine ⟨fun attempt hdurable ↦ ?_, ?_, nofun⟩
  · have htrace : preparedAnswer.trace = [.sealed (.intent answerIntent),
        .sealed (.reservation answerReservation), .sealed (.claim answerClaim),
        .reserved "reservation"] := by
      decide +kernel
    have hmem : Event.sealed (.attempt attempt) ∈ preparedAnswer.trace := hdurable
    simp [htrace] at hmem
  · have hfound : checkReceipt localEnvironment preparedAnswer answerReceipt [] =
        .ok { intent := answerIntent
              reservationId := "reservation"
              intentRecordHash := localEnvironment.recordHash (.intent answerIntent) } := by
      decide +kernel
    obtain rfl := Except.ok.inj (hcheck.symm.trans hfound)
    have haccepted : returns (commitReceipt
        { intent := answerIntent
          reservationId := "reservation"
          intentRecordHash := localEnvironment.recordHash (.intent answerIntent) }
        (wallAmount 1 3) none) preparedAnswer.budget = true := by
      decide +kernel
    obtain ⟨_, budget, hcommit⟩ := returns_iff.mp haccepted
    exact ⟨budget, hcommit⟩

/-- An observation above the reservation is refused by the ledger after the receipt is durable. The
attempt is not remembered as received, so it can be marked as an unknown outcome. -/
theorem refused_observation_is_not_exclusive :
    ¬ ∀ (environment : Environment Unit) budget lifecycle calls,
      TransactionsClosed (run environment calls (Coordinator.create budget lifecycle)).trace := by
  intro hclaim
  have hexclusive := (hclaim localEnvironment (wallLedger 2 100) () (answerCalls 6 ++
    [.markUnknown "reservation" (answerAttempt .unknownOutcome)])).exclusive
  refine hexclusive answerReceipt (answerAttempt .unknownOutcome) ?_ ?_ rfl rfl
  · decide +kernel
  · decide +kernel

end Oamb.Runtime.AttemptGuarantees
