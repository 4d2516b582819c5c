import Oamb.Runtime.LedgerRuns

/-!
# What a budget ledger guarantees

A ledger accounts exactly when in every account the committed and reserved amounts add up exactly to
an amount that fits the ceiling, and the reserved amount is the exact sum of the shares of the
reservations that are reserved or unknown. `accountsExactly_of_calls` says this of every run of a
new ledger whose ceilings are bounded on the quantum of the calls, and that no reservation leaves
the reserved state twice; the second half needs no bound. `unchanged_of_refused` says that a call
which raises in such a run changed nothing.

Both need the bound. `rounded_sum_is_not_exact` books `10 ^ 28` seconds and then one second more,
which the decimal context rounds away; `rounded_sum_breaks_cancellation` is a cancellation that
raises half-way for the same reason.
-/

set_option autoImplicit false

namespace Oamb.Runtime.LedgerGuarantees

open Foundation Foundation.DecimalContext Foundation.ReservationAccount
open Foundation.StatefulExecution
open ResourceAmounts ResourceArithmetic ExactAccounts LedgerOperations LedgerExecution LedgerBooks
open LedgerChecks LedgerRuns

/-! ### The statements -/

/-- A decimal number is the sum of finite decimal numbers, without rounding. -/
def ExactSum (total : Decimal) (parts : List Decimal) : Prop :=
  ∃ values : List ℚ, parts = values.map .finite ∧ total = .finite values.sum

/-- The reservations that are reserved or unknown. -/
def live (ledger : BudgetLedger) : List Reservation :=
  (ledger.reservations.entries.map Sigma.snd).filter fun reservation ↦
    reservation.state = .reserved ∨ reservation.state = .unknown

/-- The shares of an account in the reservations that are reserved or unknown. -/
def liveShares (ledger : BudgetLedger) (name : AccountName) : List BudgetAmount :=
  (live ledger).filterMap fun reservation ↦ (page reservation.request).amount? name

/-- An account under its ceiling: committed and reserved amounts fit it, and the reserved amount is
the sum of the live shares. -/
def AccountExact (ledger : BudgetLedger) (name : AccountName) (ceiling : BudgetAmount) : Prop :=
  ∃ reserved committed total, (reservedBooks ledger).amount? name = some reserved ∧
    (committedBooks ledger).amount? name = some committed ∧
    add committed reserved = .ok total ∧ Fits total ceiling ∧
    (∀ dimension, ExactSum (total.amount dimension)
      [committed.amount dimension, reserved.amount dimension]) ∧
    ∀ dimension, ExactSum (reserved.amount dimension)
      ((liveShares ledger name).map fun share ↦ share.amount dimension)

/-- Every account of the ledger is exact under its ceiling. -/
def AccountsExactly (ledger : BudgetLedger) : Prop :=
  ∀ name ceiling, ceiling? ledger name = some ceiling → AccountExact ledger name ceiling

/-- No reservation leaves the reserved state twice: once it is in another state, it stays as it
is. -/
def SettlesOnce (ledger : BudgetLedger) : Prop :=
  ∀ calls later reservationId reservation,
    (run calls ledger).reservations.lookup reservationId = some reservation →
    reservation.state ≠ .reserved →
    (run (calls ++ later) ledger).reservations.lookup reservationId = some reservation

/-- The ceilings of a ledger are bounded on a quantum that the decimal context admits. -/
def CeilingsBounded (quantum : ℤ) (ledger : BudgetLedger) : Prop :=
  pythonContext.Admits quantum ∧
    ∀ name ceiling, ceiling? ledger name = some ceiling → Bounded quantum ceiling

/-! ### New ledgers -/

section Create

variable {quantum : ℤ} {parentCeiling : BudgetCeiling}
  {roleCeilings providerOperationCeilings : Dictionary String BudgetCeiling} {ledger : BudgetLedger}

theorem lookup_zeroAmounts {ceilings : Dictionary String BudgetCeiling} {owner : String}
    {amount : BudgetAmount} :
    (BudgetLedger.zeroAmounts ceilings).lookup owner = some amount ↔
      amount = BudgetAmount.zero ∧ ∃ ceiling, ceilings.lookup owner = some ceiling := by
  have hkeys : ((ceilings.entries.map fun entry ↦ (entry.1, BudgetAmount.zero)).map
      Prod.fst).Nodup := by
    rw [List.map_map]
    exact ceilings.keys_nodup
  rw [BudgetLedger.zeroAmounts, Dictionary.lookup_ofList hkeys, List.mem_map]
  constructor
  · rintro ⟨entry, hmem, heq⟩
    cases heq
    exact ⟨rfl, entry.2, AList.mem_lookup_iff.mpr hmem⟩
  · rintro ⟨rfl, ceiling, hceiling⟩
    exact ⟨⟨owner, ceiling⟩, AList.mem_lookup_iff.mp hceiling, rfl⟩

theorem of_create
    (hcreate : BudgetLedger.create parentCeiling roleCeilings providerOperationCeilings =
      .ok ledger) :
    ledger.reserved = BudgetAmount.zero ∧ ledger.committed = BudgetAmount.zero ∧
      ledger.ownerReserved = BudgetLedger.zeroAmounts ledger.ownerCeilings ∧
      ledger.ownerCommitted = BudgetLedger.zeroAmounts ledger.ownerCeilings ∧
      ledger.reservations = ∅ := by
  simp only [BudgetLedger.create] at hcreate
  split_ifs at hcreate
  cases hcreate
  exact ⟨rfl, rfl, rfl, rfl, rfl⟩

theorem booksBooked_zero (quantum : ℤ) (ledger : BudgetLedger) :
    BooksBooked quantum (ceiling? ledger)
      ⟨BudgetAmount.zero, BudgetLedger.zeroAmounts ledger.ownerCeilings⟩ := by
  constructor
  · rintro (_ | owner) amount hamount
    · cases hamount
      exact ⟨_, rfl, Booked.zero quantum _⟩
    · obtain ⟨rfl, ceiling, hceiling⟩ := lookup_zeroAmounts.mp hamount
      refine ⟨ceiling.maximum, ?_, Booked.zero quantum _⟩
      rw [ceiling?, hceiling]
      rfl
  · rintro (_ | owner) ceiling hceiling
    · exact ⟨_, rfl⟩
    · obtain ⟨stored, hstored, -⟩ := Option.map_eq_some_iff.mp hceiling
      exact ⟨BudgetAmount.zero, lookup_zeroAmounts.mpr ⟨rfl, stored, hstored⟩⟩

theorem vector_zero (ceilings : Dictionary String BudgetCeiling) :
    (Books.mk BudgetAmount.zero (BudgetLedger.zeroAmounts ceilings)).vector = 0 := by
  funext name dimension
  cases hamount :
      (Books.mk BudgetAmount.zero (BudgetLedger.zeroAmounts ceilings)).amount? name with
  | none => exact Books.vector_of_none hamount dimension
  | some amount =>
    have hzero : amount = BudgetAmount.zero := by
      cases name with
      | none => exact (Option.some.inj hamount).symm
      | some owner => exact (lookup_zeroAmounts.mp hamount).1
    rw [Books.vector_of_amount hamount, hzero, value_zero]
    rfl

theorem ceilingVector_nonneg (ledger : BudgetLedger) : 0 ≤ ceilingVector (ceiling? ledger) := by
  intro name dimension
  unfold ceilingVector
  cases ceiling? ledger name with
  | none => exact le_rfl
  | some ceiling => exact value_nonneg ceiling dimension

/-- A new ledger with bounded ceilings is accounted for. -/
theorem accounted_of_create
    (hcreate : BudgetLedger.create parentCeiling roleCeilings providerOperationCeilings =
      .ok ledger) (hbounded : CeilingsBounded quantum ledger) : Accounted quantum ledger := by
  obtain ⟨hreserved, hcommitted, hownerReserved, hownerCommitted, hreservations⟩ :=
    of_create hcreate
  have hreservedBooks : reservedBooks ledger =
      ⟨BudgetAmount.zero, BudgetLedger.zeroAmounts ledger.ownerCeilings⟩ := by
    rw [reservedBooks, hreserved, hownerReserved]
  have hcommittedBooks : committedBooks ledger =
      ⟨BudgetAmount.zero, BudgetLedger.zeroAmounts ledger.ownerCeilings⟩ := by
    rw [committedBooks, hcommitted, hownerCommitted]
  have hempty : ∀ reservationId, ledger.reservations.lookup reservationId = none := by
    intro reservationId
    rw [hreservations, AList.lookup_empty]
  constructor
  · exact hbounded.2
  · exact hreservedBooks ▸ booksBooked_zero quantum ledger
  · exact hcommittedBooks ▸ booksBooked_zero quantum ledger
  · intro reservationId reservation hlookup
    rw [hempty] at hlookup
    cases hlookup
  · intro reservationId reservation hlookup
    rw [hempty] at hlookup
    cases hlookup
  · rw [account, hreservedBooks, hcommittedBooks, vector_zero, hreservations]
    exact consistent_empty (ceilingVector_nonneg ledger)

end Create

/-! ### Runs -/

section Runs

variable {quantum : ℤ} {ledger : BudgetLedger}

/-- Every call on the quantum keeps the ledger accounted for and its ceilings as they are. -/
theorem accounted_after (haccounted : Accounted quantum ledger)
    (hadmits : pythonContext.Admits quantum) {call : Call} (hquantum : call.OnQuantum quantum) :
    Accounted quantum (after call.operation ledger) ∧
      ceiling? (after call.operation ledger) = ceiling? ledger := by
  rcases Call.simulates haccounted hadmits hquantum with ⟨failure, hrun⟩ | hnext
  · rw [after_of_error hrun]
    exact ⟨haccounted, rfl⟩
  · obtain ⟨next, hrun, hnextAccounted, -, hceilings⟩ := hnext
    rw [after_of_ok hrun]
    exact ⟨hnextAccounted, hceilings⟩

/-- Every run on the quantum keeps the ledger accounted for. -/
theorem accounted_run (haccounted : Accounted quantum ledger)
    (hadmits : pythonContext.Admits quantum) {calls : List Call}
    (hquantum : ∀ call ∈ calls, call.OnQuantum quantum) : Accounted quantum (run calls ledger) := by
  induction calls generalizing ledger with
  | nil => exact haccounted
  | cons call calls ih =>
    rw [List.forall_mem_cons] at hquantum
    exact ih (accounted_after haccounted hadmits hquantum.1).1 hquantum.2

end Runs

/-! ### Exact sums -/

section Sums

variable {quantum : ℤ} {ledger : BudgetLedger}

theorem sum_map_apply (reservations : List Reservation) (measure : Reservation → AmountVector)
    (name : AccountName) (dimension : Dimension) : (reservations.map measure).sum name dimension =
      (reservations.map fun reservation ↦ measure reservation name dimension).sum := by
  induction reservations with
  | nil => rfl
  | cons reservation reservations ih =>
    rw [List.map_cons, List.sum_cons, Pi.add_apply, Pi.add_apply, ih, List.map_cons, List.sum_cons]

theorem phase_eq_closed {reservation : Reservation} : phase reservation = .closed ↔
    ¬ (reservation.state = .reserved ∨ reservation.state = .unknown) := by
  unfold phase
  cases reservation.state <;> simp

/-- The backing amounts of reservations are the shares of the live ones. -/
theorem sum_backed (reservations : List Reservation) (name : AccountName) (dimension : Dimension) :
    (reservations.map fun reservation ↦
        backed LedgerChecks.amount phase reservation name dimension).sum =
      (((reservations.filter fun reservation ↦
        reservation.state = .reserved ∨ reservation.state = .unknown).filterMap fun reservation ↦
          (page reservation.request).amount? name).map fun share ↦ value share dimension).sum := by
  induction reservations with
  | nil => rfl
  | cons reservation reservations ih =>
    rw [List.map_cons, List.sum_cons, ih]
    by_cases hlive : reservation.state = .reserved ∨ reservation.state = .unknown
    · rw [List.filter_cons_of_pos (by simpa using hlive),
        backed_of_not_closed _ _ (fun hclosed ↦ phase_eq_closed.mp hclosed hlive)]
      cases hshare : (page reservation.request).amount? name with
      | none =>
        simp only [List.filterMap_cons, hshare]
        rw [LedgerChecks.amount, Books.vector_of_none hshare, zero_add]
      | some share =>
        simp only [List.filterMap_cons, hshare, List.map_cons, List.sum_cons]
        rw [LedgerChecks.amount, Books.vector_of_amount hshare]
    · rw [List.filter_cons_of_neg (by simpa using hlive),
        backed_of_closed _ _ (phase_eq_closed.mpr hlive)]
      exact zero_add _

theorem reserved_eq_sum (haccounted : Accounted quantum ledger) (name : AccountName)
    (dimension : Dimension) : (reservedBooks ledger).vector name dimension =
      ((liveShares ledger name).map fun share ↦ value share dimension).sum := by
  have hreserved := congrFun (congrFun haccounted.consistent.reserved_eq name) dimension
  have htotal := sum_backed (ledger.reservations.entries.map Sigma.snd) name dimension
  rw [← sum_map_apply, List.map_map] at htotal
  exact hreserved.trans htotal

theorem exists_booked_of_live (haccounted : Accounted quantum ledger) {name : AccountName}
    {share : BudgetAmount} (hshare : share ∈ liveShares ledger name) :
    ∃ ceiling, ceiling? ledger name = some ceiling ∧ Booked quantum ceiling share := by
  obtain ⟨reservation, hlive, hpage⟩ := List.mem_filterMap.mp hshare
  obtain ⟨entry, hentry, rfl⟩ := List.mem_map.mp (List.mem_filter.mp hlive).1
  exact haccounted.pages entry.1 entry.2 (AList.mem_lookup_iff.mpr hentry) name share hpage

theorem exactSum_of_values {bound : BudgetAmount} (hbounded : Bounded quantum bound)
    {shares : List BudgetAmount} (hfits : ∀ share ∈ shares, Fits share bound) {total : Decimal}
    {dimension : Dimension}
    (htotal : total = .finite (shares.map fun share ↦ value share dimension).sum) :
    ExactSum total (shares.map fun share ↦ share.amount dimension) := by
  refine ⟨shares.map fun share ↦ value share dimension, ?_, htotal⟩
  rw [List.map_map]
  exact List.map_congr_left fun share hmem ↦ amount_eq_value hbounded (hfits share hmem) dimension

/-- A ledger that is accounted for accounts exactly. -/
theorem accountsExactly_of_accounted (haccounted : Accounted quantum ledger)
    (hadmits : pythonContext.Admits quantum) : AccountsExactly ledger := by
  intro name ceiling hceiling
  obtain ⟨committed, reserved, total, hcommitted, hreserved, htotal, hbooked, hvalue⟩ :=
    haccounted.exists_add hadmits hceiling
  have hbounded := haccounted.bounded name ceiling hceiling
  have hfits : ∀ books, BooksBooked quantum (ceiling? ledger) books →
      ∀ stored, books.amount? name = some stored → Fits stored ceiling := by
    intro books hbooks stored hstored
    obtain ⟨found, hfound, hstoredBooked⟩ := hbooks.page name stored hstored
    rw [hceiling, Option.some.injEq] at hfound
    exact hfound ▸ hstoredBooked.fits
  have hcommittedFits := hfits _ haccounted.committed committed hcommitted
  have hreservedFits := hfits _ haccounted.reserved reserved hreserved
  refine ⟨reserved, committed, total, hreserved, hcommitted, htotal, hbooked.fits,
    fun dimension ↦ ?_, fun dimension ↦ ?_⟩
  · have hshares : ∀ share ∈ [committed, reserved], Fits share ceiling := by
      simp [hcommittedFits, hreservedFits]
    refine exactSum_of_values hbounded hshares ?_
    rw [amount_eq_value hbounded hbooked.fits, hvalue]
    simp
  · refine exactSum_of_values hbounded ?_ ?_
    · intro share hshare
      obtain ⟨found, hfound, hshareBooked⟩ := exists_booked_of_live haccounted hshare
      rw [hceiling, Option.some.injEq] at hfound
      exact hfound ▸ hshareBooked.fits
    · rw [amount_eq_value hbounded hreservedFits, ← reserved_eq_sum haccounted,
        Books.vector_of_amount hreserved]

end Sums

/-! ### Settled reservations -/

section Settled

variable {ledger : BudgetLedger} {reservationId : String} {reservation : Reservation}

/-- The record of a reservation that a call makes when it is accepted. -/
def Admits (ledger : BudgetLedger) (recordedId : String) (recorded : Reservation) : Call → Prop
  | .reserve request => recordedId = request.reservationId ∧ recorded = ⟨request, .reserved⟩ ∧
      recordedId ∉ ledger.reservations
  | .commit settledId _ _ => recordedId = settledId ∧ ∃ stored,
      active ledger settledId = .ok stored ∧ recorded = ⟨stored.request, .committed⟩
  | .cancelBeforeDispatch settledId => recordedId = settledId ∧ ∃ stored,
      active ledger settledId = .ok stored ∧ recorded = ⟨stored.request, .cancelled⟩
  | .markUnknown settledId => recordedId = settledId ∧ ∃ stored,
      active ledger settledId = .ok stored ∧ recorded = ⟨stored.request, .unknown⟩

/-- What a call leaves in the record of the reservations. -/
def Recorded (ledger : BudgetLedger) (call : Call) (operation : LedgerOperation Unit) : Prop :=
  match operation.run ledger with
  | .ok _ next => ∃ recordedId recorded, Admits ledger recordedId recorded call ∧
      next.reservations = ledger.reservations.insert recordedId recorded
  | .error _ next => next.reservations = ledger.reservations

/-- A checked operation records what its checks admit. -/
theorem recorded_of_checked {α : Type} {check : BudgetLedger → Except BudgetError α}
    {next : α → LedgerOperation Unit} {call : Call}
    (hnext : ∀ result, check ledger = .ok result → ∃ recordedId recorded,
      Admits ledger recordedId recorded call ∧ Records recordedId recorded (next result)) :
    Recorded ledger call
      (do let current ← get; let result ← evaluate (check current); next result) := by
  rw [Recorded]
  cases hcheck : check ledger with
  | error failure => simp only [EStateM.run_bind, EStateM.run_get, hcheck, run_evaluate_error]
  | ok result =>
    obtain ⟨recordedId, recorded, hadmits, hrecords⟩ := hnext result hcheck
    have hwritten := hrecords ledger
    simp only [EStateM.run_bind, EStateM.run_get, hcheck, run_evaluate_ok]
    cases hrun : (next result).run ledger with
    | ok _ written =>
      rw [hrun] at hwritten
      exact ⟨recordedId, recorded, hadmits, hwritten⟩
    | error failure written =>
      rw [hrun] at hwritten
      exact hwritten

theorem keepsReservations_commitOwner
    (observation : BudgetOwnerAllocation → Except BudgetError BudgetAmount)
    (allocation : BudgetOwnerAllocation) : KeepsReservations (commitOwner observation allocation) :=
  (keepsReservations_updateOwnerReserved _ _).bind fun _ ↦
    (keepsReservations_evaluate _).bind fun _ ↦ keepsReservations_updateOwnerCommitted _ _

/-- A call that returns records a new reservation or another state of a reserved one; a call that
raises records nothing. -/
theorem recorded_call (call : Call) (ledger : BudgetLedger) :
    Recorded ledger call call.operation := by
  cases call with
  | reserve request =>
    refine recorded_of_checked fun allocations hcheck ↦ ⟨request.reservationId,
      ⟨request, .reserved⟩, ⟨rfl, rfl, (checkReserve_eq_ok.mp hcheck).1.2⟩, ?_⟩
    exact Records.bind (keepsReservations_updateReserved _) fun _ ↦
      Records.bind (keepsReservations_forM _ fun _ ↦ keepsReservations_updateOwnerReserved _ _)
        fun _ ↦ records_setReservation _ _
  | commit reservationId observed ownerObserved =>
    refine recorded_of_checked fun checked hcheck ↦ ⟨reservationId,
      ⟨checked.1.request, .committed⟩, ⟨rfl, checked.1, (of_checkCommit hcheck).1, rfl⟩, ?_⟩
    exact Records.bind (keepsReservations_updateReserved _) fun _ ↦
      Records.bind (keepsReservations_updateCommitted _) fun _ ↦
      Records.bind (keepsReservations_evaluate _) fun _ ↦
      Records.bind (keepsReservations_forM _ (keepsReservations_commitOwner _)) fun _ ↦
        records_setReservation _ _
  | cancelBeforeDispatch reservationId =>
    refine recorded_of_checked fun stored hactive ↦ ⟨reservationId,
      ⟨stored.request, .cancelled⟩, ⟨rfl, stored, hactive, rfl⟩, ?_⟩
    exact Records.bind (keepsReservations_updateReserved _) fun _ ↦
      Records.bind (keepsReservations_evaluate _) fun _ ↦
      Records.bind (keepsReservations_forM _ fun _ ↦ keepsReservations_updateOwnerReserved _ _)
        fun _ ↦ records_setReservation _ _
  | markUnknown reservationId =>
    exact recorded_of_checked fun stored hactive ↦ ⟨reservationId, ⟨stored.request, .unknown⟩,
      ⟨rfl, stored, hactive, rfl⟩, records_setReservation _ _⟩

/-- A call leaves the record of the reservations alone or makes one that it admits. -/
theorem recorded_after (call : Call) (ledger : BudgetLedger) :
    (after call.operation ledger).reservations = ledger.reservations ∨
      ∃ recordedId recorded, Admits ledger recordedId recorded call ∧
        (after call.operation ledger).reservations =
          ledger.reservations.insert recordedId recorded := by
  have hrecorded := recorded_call call ledger
  rw [Recorded] at hrecorded
  rw [after]
  cases hrun : call.operation.run ledger with
  | ok _ next =>
    rw [hrun] at hrecorded
    exact Or.inr hrecorded
  | error failure next =>
    rw [hrun] at hrecorded
    exact Or.inl hrecorded

/-- No call forgets a reservation. -/
theorem mem_reservations_after (call : Call) (hmem : reservationId ∈ ledger.reservations) :
    reservationId ∈ (after call.operation ledger).reservations := by
  rcases recorded_after call ledger with hkept | ⟨recordedId, recorded, -, hinserted⟩
  · rwa [hkept]
  · rw [hinserted, AList.mem_insert]
    exact Or.inr hmem

/-- A reservation that is accepted was new, and it is recorded. -/
theorem of_run_reserve {request : ReservationRequest} {next : BudgetLedger}
    (hrun : (reserve request).run ledger = .ok () next) :
    request.reservationId ∉ ledger.reservations ∧ request.reservationId ∈ next.reservations := by
  have hrecorded := recorded_call (.reserve request) ledger
  rw [Recorded, Call.operation, hrun] at hrecorded
  obtain ⟨_, _, ⟨rfl, -, hfresh⟩, hinserted⟩ := hrecorded
  exact ⟨hfresh, hinserted ▸ (AList.mem_insert _).mpr (Or.inl rfl)⟩

/-- What a call records is not a reservation that was settled before. -/
theorem ne_of_admits {call : Call} {recordedId : String} {recorded : Reservation}
    (hadmits : Admits ledger recordedId recorded call)
    (hlookup : ledger.reservations.lookup reservationId = some reservation)
    (hstate : reservation.state ≠ .reserved) : reservationId ≠ recordedId := by
  have hactive {settledId : String} {stored : Reservation}
      (hstored : active ledger settledId = .ok stored) : reservationId ≠ settledId := by
    rintro rfl
    obtain ⟨hfound, hreserved⟩ := active_eq_ok.mp hstored
    rw [hlookup, Option.some.injEq] at hfound
    exact hstate (hfound ▸ hreserved)
  cases call with
  | reserve request =>
    rintro rfl
    exact hadmits.2.2 (AList.lookup_isSome.mp (Option.isSome_of_eq_some hlookup))
  | commit | cancelBeforeDispatch | markUnknown =>
    obtain ⟨rfl, stored, hstored, -⟩ := hadmits
    exact hactive hstored

/-- A call keeps a reservation that is not reserved as it is, also when the call raises. -/
theorem lookup_after (call : Call)
    (hlookup : ledger.reservations.lookup reservationId = some reservation)
    (hstate : reservation.state ≠ .reserved) :
    (after call.operation ledger).reservations.lookup reservationId = some reservation := by
  rcases recorded_after call ledger with hkept | ⟨recordedId, recorded, hadmits, hinserted⟩
  · rw [hkept, hlookup]
  · rw [hinserted, AList.lookup_insert_ne (ne_of_admits hadmits hlookup hstate), hlookup]

theorem lookup_run (calls : List Call)
    (hlookup : ledger.reservations.lookup reservationId = some reservation)
    (hstate : reservation.state ≠ .reserved) :
    (run calls ledger).reservations.lookup reservationId = some reservation := by
  induction calls generalizing ledger with
  | nil => exact hlookup
  | cons call calls ih => exact ih (lookup_after call hlookup hstate)

theorem settlesOnce (ledger : BudgetLedger) : SettlesOnce ledger := by
  intro calls later reservationId reservation hlookup hstate
  rw [run, List.foldl_append]
  exact lookup_run later hlookup hstate

end Settled

/-! ### Guarantees -/

/-- Every run of a new ledger settles every reservation at most once, and it accounts exactly when
its ceilings are bounded on the quantum of its calls. -/
theorem accountsExactly_of_calls {parentCeiling : BudgetCeiling}
    {roleCeilings providerOperationCeilings : Dictionary String BudgetCeiling}
    {ledger : BudgetLedger}
    (hcreate : BudgetLedger.create parentCeiling roleCeilings providerOperationCeilings =
      .ok ledger) (calls : List Call) :
    SettlesOnce ledger ∧ ∀ quantum, CeilingsBounded quantum ledger →
      (∀ call ∈ calls, call.OnQuantum quantum) → AccountsExactly (run calls ledger) := by
  refine ⟨settlesOnce ledger, fun quantum hbounded hquantum ↦ ?_⟩
  have haccounted := accounted_of_create hcreate hbounded
  exact accountsExactly_of_accounted (accounted_run haccounted hbounded.1 hquantum) hbounded.1

/-- A call that raises in a run whose amounts lie on a quantum that bounds the ceilings leaves the
ledger exactly as it was. -/
theorem unchanged_of_refused {parentCeiling : BudgetCeiling}
    {roleCeilings providerOperationCeilings : Dictionary String BudgetCeiling}
    {ledger : BudgetLedger}
    (hcreate : BudgetLedger.create parentCeiling roleCeilings providerOperationCeilings =
      .ok ledger) {quantum : ℤ} (hbounded : CeilingsBounded quantum ledger) {calls : List Call}
    (hcalls : ∀ call ∈ calls, call.OnQuantum quantum) {call : Call}
    (hcall : call.OnQuantum quantum) {failure : BudgetError} {next : BudgetLedger}
    (hraise : call.operation.run (run calls ledger) = .error failure next) :
    next = run calls ledger := by
  have haccounted := accounted_run (accounted_of_create hcreate hbounded) hbounded.1 hcalls
  rcases Call.simulates haccounted hbounded.1 hcall with ⟨refused, hrefused⟩ | hnext
  · rw [hrefused, EStateM.Result.error.injEq] at hraise
    exact hraise.2.symm
  · obtain ⟨accepted, hrun, -⟩ := hnext
    rw [hrun] at hraise
    cases hraise

/-- An amount of whole attempts and wall seconds. -/
def wallAmount (attempts seconds : ℕ) : BudgetAmount where
  attempts := attempts
  wallSeconds := .finite seconds
  valid := by
    refine ⟨⟨by simp, le_rfl, le_rfl, by simp, Decimal.zero_le_zero⟩, ?_, ?_, ?_, ?_, ?_, ?_⟩ <;> simp

/-- A ledger with one owner and the same ceiling for the parent and the owner. -/
def wallLedger (attempts seconds : ℕ) : BudgetLedger where
  parentCeiling := ⟨wallAmount attempts seconds, none⟩
  ownerCeilings := AList.singleton "answer" ⟨wallAmount attempts seconds, none⟩
  reserved := BudgetAmount.zero
  committed := BudgetAmount.zero
  ownerReserved := AList.singleton "answer" BudgetAmount.zero
  ownerCommitted := AList.singleton "answer" BudgetAmount.zero
  reservations := ∅

/-- A request of the owner. -/
def wallRequest (reservationId : String) (maximum : BudgetAmount) : ReservationRequest where
  reservationId := reservationId
  maximum := maximum
  roleBindingId := some "answer"
  valid := ⟨fun hne ↦ absurd rfl hne, fun _ ↦ by simp⟩

theorem create_wallLedger (attempts seconds : ℕ) :
    BudgetLedger.create ⟨wallAmount attempts seconds, none⟩
      (AList.singleton "answer" ⟨wallAmount attempts seconds, none⟩) ∅ =
        .ok (wallLedger attempts seconds) := by
  rfl

theorem admits_zero : pythonContext.Admits 0 := ⟨by decide, by decide⟩

theorem amount_wallAmount (attempts seconds : ℕ) (dimension : Dimension) :
    ∃ count : ℕ, (wallAmount attempts seconds).amount dimension = .finite count ∧
      (dimension.IsDecimal → count ≤ seconds) := by
  cases dimension with
  | attempts => exact ⟨attempts, by simp [BudgetAmount.amount, wallAmount], False.elim⟩
  | wallSeconds => exact ⟨seconds, rfl, fun _ ↦ le_rfl⟩
  | cost => exact ⟨0, rfl, fun _ ↦ Nat.zero_le _⟩
  | resource name => exact ⟨0, rfl, fun _ ↦ Nat.zero_le _⟩
  | _ => exact ⟨0, rfl, False.elim⟩

theorem onQuantum_wallAmount (attempts seconds : ℕ) :
    OnQuantum 0 (wallAmount attempts seconds) := by
  intro dimension number _ hamount
  obtain ⟨count, hcount, -⟩ := amount_wallAmount attempts seconds dimension
  rw [hcount, Decimal.finite.injEq] at hamount
  exact hamount ▸ onGrid_zero_intCast count

theorem bounded_wallAmount (attempts : ℕ) {seconds : ℕ} (hseconds : seconds < 10 ^ 28) :
    Bounded 0 (wallAmount attempts seconds) := by
  intro dimension
  obtain ⟨count, hcount, hle⟩ := amount_wallAmount attempts seconds dimension
  refine ⟨count, hcount, fun hdecimal ↦ ?_⟩
  have hlimit : pythonContext.limit 0 = ((10 ^ 28 : ℕ) : ℚ) := by
    norm_num [Context.limit, pythonContext]
  rw [hlimit]
  exact_mod_cast (hle hdecimal).trans_lt hseconds

theorem ceilingsBounded_wallLedger (attempts : ℕ) {seconds : ℕ} (hseconds : seconds < 10 ^ 28) :
    CeilingsBounded 0 (wallLedger attempts seconds) := by
  refine ⟨admits_zero, ?_⟩
  rintro (_ | owner) ceiling hceiling
  · exact Option.some.inj hceiling ▸ bounded_wallAmount attempts hseconds
  · obtain ⟨stored, hstored, rfl⟩ := Option.map_eq_some_iff.mp hceiling
    have hmem := AList.mem_lookup_iff.mp hstored
    rw [wallLedger, AList.singleton_entries, List.mem_singleton] at hmem
    cases hmem
    exact bounded_wallAmount attempts hseconds

/-- A run of the wall ledger in which an observation of seven out of ten seconds is committed. -/
theorem accountsExactly_of_commit : SettlesOnce (wallLedger 2 100) ∧
    AccountsExactly (run [.reserve (wallRequest "first" (wallAmount 1 10)),
      .commit "first" (wallAmount 1 7) none] (wallLedger 2 100)) := by
  have hguarantee := accountsExactly_of_calls (create_wallLedger 2 100)
    [.reserve (wallRequest "first" (wallAmount 1 10)), .commit "first" (wallAmount 1 7) none]
  refine ⟨hguarantee.1, hguarantee.2 0 (ceilingsBounded_wallLedger 2 (by norm_num)) ?_⟩
  rw [List.forall_mem_cons, List.forall_mem_singleton]
  exact ⟨⟨onQuantum_wallAmount 1 10, fun _ hmem ↦ absurd hmem List.not_mem_nil⟩,
    onQuantum_wallAmount 1 7, fun _ hnone ↦ absurd hnone (by simp)⟩

/-- A second reservation under the same identity is refused and changes nothing. -/
theorem unchanged_of_repeated_reservation : ∃ failure next,
    (reserve (wallRequest "first" (wallAmount 1 10))).run
        (run [.reserve (wallRequest "first" (wallAmount 1 10))] (wallLedger 2 100)) =
      .error failure next ∧
      next = run [.reserve (wallRequest "first" (wallAmount 1 10))] (wallLedger 2 100) := by
  have hquantum : (Call.reserve (wallRequest "first" (wallAmount 1 10))).OnQuantum 0 :=
    ⟨onQuantum_wallAmount 1 10, fun _ hmem ↦ absurd hmem List.not_mem_nil⟩
  have hcheck : checkReserve
      (run [.reserve (wallRequest "first" (wallAmount 1 10))] (wallLedger 2 100))
      (wallRequest "first" (wallAmount 1 10)) =
        .error (.reservationState "reservation identity is empty or already exists") := by
    decide +kernel
  have hraise := run_reserve_of_error hcheck
  exact ⟨_, _, hraise, unchanged_of_refused (create_wallLedger 2 100)
    (ceilingsBounded_wallLedger 2 (by norm_num)) (List.forall_mem_singleton.mpr hquantum)
    hquantum hraise⟩

/-- The second reservation asks for one second more than the first one books, and the sum is rounded
to the first amount: the reserved amount is not the sum of the reservations. -/
theorem rounded_sum_is_not_exact : ¬ ∀ parentCeiling roleCeilings providerOperationCeilings ledger,
    BudgetLedger.create parentCeiling roleCeilings providerOperationCeilings = .ok ledger →
      ∀ calls, SettlesOnce ledger ∧ AccountsExactly (run calls ledger) := by
  intro hclaim
  obtain ⟨-, hexact⟩ := hclaim _ _ _ _ (create_wallLedger 2 (2 * 10 ^ 28))
    [.reserve (wallRequest "first" (wallAmount 1 (10 ^ 28))),
      .reserve (wallRequest "second" (wallAmount 1 1))]
  obtain ⟨reserved, committed, total, hreserved, -, -, -, -, hsum⟩ := hexact none _ rfl
  obtain ⟨values, hparts, htotal⟩ := hsum .wallSeconds
  have hshares : (liveShares (run [.reserve (wallRequest "first" (wallAmount 1 (10 ^ 28))),
      .reserve (wallRequest "second" (wallAmount 1 1))] (wallLedger 2 (2 * 10 ^ 28))) none).map
        (fun share ↦ share.amount .wallSeconds) = [.finite 1, .finite (10 ^ 28)] := by
    decide +kernel
  have hrounded : (run [.reserve (wallRequest "first" (wallAmount 1 (10 ^ 28))),
      .reserve (wallRequest "second" (wallAmount 1 1))] (wallLedger 2 (2 * 10 ^ 28))).reserved.amount
        .wallSeconds = .finite (10 ^ 28) := by
    decide +kernel
  obtain rfl := Option.some.inj hreserved
  have hvalues : values = [1, 10 ^ 28] := by
    have hmap := (hshares.symm.trans hparts).symm
    exact List.map_injective_iff.mpr (fun _ _ heq ↦ Decimal.finite.inj heq) hmap
  rw [hvalues] at htotal
  have hequal := Decimal.finite.inj (hrounded.symm.trans htotal)
  norm_num at hequal

/-- A request that allocates wall seconds to the owner and only attempts to the parent. -/
def allocatedRequest (reservationId : String) (seconds : ℕ) : ReservationRequest where
  reservationId := reservationId
  maximum := wallAmount 1 0
  ownerAllocations := [⟨"answer", wallAmount 1 seconds, by decide⟩]
  valid := ⟨fun _ ↦ ⟨rfl, rfl, by simp⟩, fun hempty ↦ by simp at hempty⟩

/-- The owner's reserved seconds are rounded down by one second. After the first reservation is
committed they do not cover the second one, so its cancellation raises after the parent's amount was
already released. -/
theorem rounded_sum_breaks_cancellation :
    ¬ ∀ parentCeiling roleCeilings providerOperationCeilings ledger,
      BudgetLedger.create parentCeiling roleCeilings providerOperationCeilings = .ok ledger →
        ∀ (calls : List Call) (call : Call) failure next,
          call.operation.run (run calls ledger) = .error failure next → next = run calls ledger := by
  intro hclaim
  have hatomic := hclaim _ _ _ _ (create_wallLedger 2 (2 * 10 ^ 28))
    [.reserve (allocatedRequest "first" (10 ^ 28)), .reserve (allocatedRequest "second" 1),
      .commit "first" (wallAmount 1 0) none] (.cancelBeforeDispatch "second")
  have hbefore : (run [.reserve (allocatedRequest "first" (10 ^ 28)),
      .reserve (allocatedRequest "second" 1), .commit "first" (wallAmount 1 0) none]
        (wallLedger 2 (2 * 10 ^ 28))).reserved.attempts = 1 := by
    decide +kernel
  have hafter : (after (cancelBeforeDispatch "second")
      (run [.reserve (allocatedRequest "first" (10 ^ 28)),
        .reserve (allocatedRequest "second" 1), .commit "first" (wallAmount 1 0) none]
          (wallLedger 2 (2 * 10 ^ 28)))).reserved.attempts = 0 := by
    decide +kernel
  have hraises : returns (cancelBeforeDispatch "second")
      (run [.reserve (allocatedRequest "first" (10 ^ 28)),
        .reserve (allocatedRequest "second" 1), .commit "first" (wallAmount 1 0) none]
          (wallLedger 2 (2 * 10 ^ 28))) = false := by
    decide +kernel
  obtain ⟨failure, next, hraise⟩ := returns_eq_false_iff.mp hraises
  rw [after_of_error hraise, hatomic failure next hraise, hbefore] at hafter
  exact absurd hafter (by decide)

end Oamb.Runtime.LedgerGuarantees
