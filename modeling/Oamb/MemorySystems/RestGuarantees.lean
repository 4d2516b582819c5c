import Mathlib.Data.Finset.Card
import Oamb.Foundation.LabelledRuns
import Oamb.MemorySystems.RestClient

/-!
# Every started write is classified, but for the errors that are not caught

`Guaranteed` says of a run of a client what becomes of its requests: a write that was dispatched ends
as a sealed success, as a failure with the status and the sealed response, or with an unknown outcome;
no request is dispatched after the client stopped accepting them; and a close that finished finds every
request that was admitted released once. `guaranteed_iff` shows that it holds of a run exactly when the
transport answers no write with an error of a request that is not one of the transport.
-/

set_option autoImplicit false

namespace Oamb.MemorySystems.RestGuarantees

open Foundation Foundation.LabelledRuns RestClient

/-! ### One request -/

section Requests

variable {baseHeaderNames : List String} {client : Client} {request : RestRequest}
  {receipt : Except String String} {reference : Option String} {answer : RestClient.Answer}

/-- The status of a response that is sealed, and the reference of the sealed bytes. -/
def sealedResponse (request : RestRequest) : RestClient.Answer → Option (ℕ × String)
  | .response statusCode content (.ok reference) =>
    match sanitize request content with
    | .ok _ => some (statusCode, reference)
    | .error _ => none
  | _ => none

/-- The write ended as a sealed success, as a failure with the status and the reference of a sealed
response, or with an unknown outcome. -/
def Classified (request : RestRequest) (answer : RestClient.Answer) : Exit → Prop
  | .returned response => sealedResponse request answer =
    some (response.statusCode, response.rawReference) ∧
      200 ≤ response.statusCode ∧ response.statusCode < 300
  | .callFailure failure => ∃ statusCode reference,
    sealedResponse request answer = some (statusCode, reference) ∧
      failure.statusCode = some statusCode ∧ failure.rawReference = some reference
  | .unknownOutcome _ _ | .cancelledUnknownOutcome _ => True
  | .cancelledBeforeDispatch _ | .readCancelled _ | .raised _ => False

/-- The answer is none of the errors that are not caught. -/
def Caught : RestClient.Answer → Prop
  | .requestError error => error.isTransport = true
  | _ => True

/-- A write is classified exactly when its answer is caught. -/
theorem classified_finishRequest_iff (hwrite : request.writeIntent = true) :
    Classified request answer (finishRequest request reference answer) ↔ Caught answer := by
  cases answer with
  | cancelled | timedOut =>
    simp only [finishRequest, hwrite, if_true]
    exact Iff.rfl
  | requestError error =>
    cases error with
    | timeoutException | transportError =>
      simp only [finishRequest, hwrite, if_true]
      exact iff_of_true trivial rfl
    | decodingError | tooManyRedirects => exact iff_of_false id Bool.noConfusion
  | response statusCode content receipt =>
    refine iff_of_true ?_ trivial
    have hfailure : Classified request (.response statusCode content receipt)
        (sealingFailure request) := by
      rw [sealingFailure, if_pos hwrite]
      trivial
    rw [finishRequest]
    cases hbytes : sanitize request content with
    | error message => exact hfailure
    | ok bytes =>
      cases receipt with
      | error message => exact hfailure
      | ok reference =>
        have hsealed : sealedResponse request (.response statusCode content (.ok reference)) =
            some (statusCode, reference) := by
          rw [sealedResponse, hbytes]
        dsimp only
        split_ifs with hsuccess
        · exact ⟨hsealed, hsuccess⟩
        · exact ⟨statusCode, reference, hsealed, rfl, rfl⟩

/-- A request that is admitted comes to a client that accepts requests. -/
theorem accepting_of_startRequest {start : Start}
    (hstart : startRequest baseHeaderNames client request receipt = start)
    (hadmitted : ∀ exit, start ≠ .rejected exit) : client.acceptingOperations = true := by
  by_contra hstopped
  rw [Bool.not_eq_true] at hstopped
  have hrejected : ∃ exit, startRequest baseHeaderNames client request receipt = .rejected exit := by
    unfold startRequest
    rw [admitOperation, if_pos hstopped]
    split_ifs <;> exact ⟨_, rfl⟩
  obtain ⟨exit, hexit⟩ := hrejected
  exact hadmitted exit (hstart.symm.trans hexit)

end Requests

/-! ### What holds in every state -/

section Invariants

variable {ρ κ : Type} {baseHeaderNames : List String} {requestOf : ρ → RestRequest}
  {state next : State ρ κ} {event : Event ρ κ}

/-- How often a request in a phase was admitted and released. -/
def Counted : RequestPhase → ℕ → ℕ → Prop
  | .idle, admissions, releases => admissions = 0 ∧ releases = 0
  | .refused _, admissions, releases => admissions = releases ∧ releases ≤ 1
  | .dispatched _, admissions, releases => admissions = 1 ∧ releases = 0
  | .ended _ _, admissions, releases => admissions = 1 ∧ releases = 1

/-- The close does not wait for requests any more. -/
def Drained : ClosePhase → Prop
  | .draining true | .locking | .closing | .finished => True
  | _ => False

/-- What holds of a client in every reachable state. -/
structure Valid (state : State ρ κ) : Prop where
  balanced : ∃ pending : Finset ρ,
    (∀ index, index ∈ pending ↔ ∃ reference, state.requests index = .dispatched reference) ∧
      state.client.activeOperationCount = pending.card
  drained : state.client.activeOperationsDrained = true ↔ state.client.activeOperationCount = 0
  counted : ∀ index, Counted (state.requests index) (state.admissions index) (state.releases index)
  stopped : ∀ closer, state.closers closer ≠ .idle → state.client.acceptingOperations = false
  empty : ∀ closer, Drained (state.closers closer) → state.client.activeOperationCount = 0

theorem Valid.initial : Valid (State.initial : State ρ κ) := by
  refine ⟨⟨∅, fun index ↦ ?_, rfl⟩, iff_of_true rfl rfl, fun index ↦ ⟨rfl, rfl⟩,
    fun closer hclosing ↦ absurd rfl hclosing, fun closer hdrained ↦ hdrained.elim⟩
  refine iff_of_false (Finset.notMem_empty _) ?_
  rintro ⟨reference, hdispatched⟩
  cases hdispatched

/-- No close was called as long as requests are accepted. -/
theorem Valid.idle (hvalid : Valid state) (haccepting : state.client.acceptingOperations = true)
    (closer : κ) : state.closers closer = .idle := by
  by_contra hclosing
  rw [hvalid.stopped closer hclosing] at haccepting
  cases haccepting

variable [DecidableEq ρ]

/-- A request that was not dispatched and is not leaves the pending requests as they were. -/
theorem Valid.balanced_of_idle (hvalid : Valid state) {index : ρ} {exit : Exit}
    (hidle : state.requests index = .idle) : ∃ pending : Finset ρ,
      (∀ other, other ∈ pending ↔ ∃ reference,
        Function.update state.requests index (.refused exit) other = .dispatched reference) ∧
      state.client.activeOperationCount = pending.card := by
  obtain ⟨pending, hpending, hcount⟩ := hvalid.balanced
  refine ⟨pending, fun other ↦ ?_, hcount⟩
  rw [hpending]
  by_cases hother : other = index
  · subst hother
    rw [Function.update_self, hidle]
    simp
  · rw [Function.update_of_ne hother]

/-- The close that waits for requests is woken when there are none. -/
theorem drained_wake {client : Client} {closers : κ → ClosePhase} {closer : κ}
    (hdrained : Drained (wake client closers closer)) :
    Drained (closers closer) ∨ client.activeOperationCount = 0 := by
  rw [wake] at hdrained
  cases hphase : closers closer with
  | draining woken =>
    rw [hphase] at hdrained
    cases woken with
    | true => exact Or.inl trivial
    | false =>
      by_cases hcount : client.activeOperationCount = 0
      · exact Or.inr hcount
      · simp [hcount, Drained] at hdrained
  | _ =>
    rw [hphase] at hdrained
    exact Or.inl hdrained

theorem wake_eq_idle {client : Client} {closers : κ → ClosePhase} {closer : κ}
    (hidle : closers closer = .idle) : wake client closers closer = .idle := by
  rw [wake, hidle]

theorem ne_idle_of_wake {client : Client} {closers : κ → ClosePhase} {closer : κ}
    (hwake : wake client closers closer ≠ .idle) : closers closer ≠ .idle :=
  fun hidle ↦ hwake (wake_eq_idle hidle)

/-- The counts of the requests after a step that changes those of one. -/
theorem Valid.counted_update (hvalid : Valid state) (index : ρ) {phase : RequestPhase}
    {admissions releases : ℕ} (hcounted : Counted phase admissions releases) (other : ρ) :
    Counted (Function.update state.requests index phase other)
      (Function.update state.admissions index admissions other)
      (Function.update state.releases index releases other) := by
  by_cases hother : other = index
  · subst hother
    rwa [Function.update_self, Function.update_self, Function.update_self]
  · rw [Function.update_of_ne hother, Function.update_of_ne hother, Function.update_of_ne hother]
    exact hvalid.counted other

theorem Valid.dispatch (hvalid : Valid state) {index : ρ} {reference : Option String}
    (hidle : state.requests index = .idle)
    (haccepting : state.client.acceptingOperations = true) :
    Valid { state with
      client := state.client.admitted
      requests := Function.update state.requests index (.dispatched reference)
      admissions := Function.update state.admissions index (state.admissions index + 1) } := by
  obtain ⟨pending, hpending, hcount⟩ := hvalid.balanced
  have hclosers := hvalid.idle haccepting
  have hfresh : index ∉ pending := by
    rw [hpending, hidle]
    rintro ⟨other, hother⟩
    cases hother
  obtain ⟨hadmissions, hreleases⟩ : state.admissions index = 0 ∧ state.releases index = 0 := by
    have hcounted := hvalid.counted index
    rwa [hidle] at hcounted
  refine ⟨⟨insert index pending, fun other ↦ ?_, ?_⟩, ?_, fun other ↦ ?_,
    fun closer hclosing ↦ absurd (hclosers closer) hclosing, fun closer hdrained ↦ ?_⟩
  · dsimp only
    rw [Finset.mem_insert]
    by_cases hother : other = index
    · subst hother
      rw [Function.update_self]
      exact iff_of_true (Or.inl rfl) ⟨reference, rfl⟩
    · rw [Function.update_of_ne hother, ← hpending]
      exact or_iff_right hother
  · rw [Finset.card_insert_of_notMem hfresh, Client.admitted, hcount, Nat.cast_succ]
  · have hpositive : (0 : ℤ) ≤ pending.card := Int.natCast_nonneg _
    simp only [Client.admitted, hcount]
    split_ifs with hfirst
    · exact iff_of_false id (by omega)
    · rw [hvalid.drained, hcount]
      exact iff_of_false (by omega) (by omega)
  · have hcounted : Counted (.dispatched reference) (state.admissions index + 1)
        (state.releases index) := ⟨by rw [hadmissions], hreleases⟩
    have hupdated := hvalid.counted_update index hcounted other
    rwa [Function.update_eq_self index state.releases] at hupdated
  · rw [hclosers closer] at hdrained
    exact hdrained.elim

theorem Valid.answer (hvalid : Valid state) {index : ρ} {reference : Option String}
    {answer : RestClient.Answer} {exit : Exit}
    (hdispatched : state.requests index = .dispatched reference) :
    Valid { state with
      client := releaseOperation state.client
      requests := Function.update state.requests index (.ended answer exit)
      closers := wake (releaseOperation state.client) state.closers
      releases := Function.update state.releases index (state.releases index + 1) } := by
  obtain ⟨pending, hpending, hcount⟩ := hvalid.balanced
  have hmem : index ∈ pending := (hpending index).mpr ⟨reference, hdispatched⟩
  have hpositive : 0 < pending.card := Finset.card_pos.mpr ⟨index, hmem⟩
  obtain ⟨hadmissions, hreleases⟩ : state.admissions index = 1 ∧ state.releases index = 0 := by
    have hcounted := hvalid.counted index
    rwa [hdispatched] at hcounted
  refine ⟨⟨pending.erase index, fun other ↦ ?_, ?_⟩, ?_, fun other ↦ ?_, fun closer hclosing ↦ ?_,
    fun closer hdrained ↦ ?_⟩
  · dsimp only
    rw [Finset.mem_erase]
    by_cases hother : other = index
    · subst hother
      rw [Function.update_self]
      exact iff_of_false (fun hboth ↦ hboth.1 rfl) (fun ⟨_, hfalse⟩ ↦ by cases hfalse)
    · rw [Function.update_of_ne hother, ← hpending]
      exact and_iff_right hother
  · rw [Finset.card_erase_of_mem hmem, releaseOperation, hcount]
    push_cast [hpositive]
    rfl
  · simp only [releaseOperation]
    split_ifs with hlast
    · exact iff_of_true rfl hlast
    · rw [hvalid.drained]
      exact iff_of_false (by omega) hlast
  · have hcounted : Counted (.ended answer exit) (state.admissions index)
        (state.releases index + 1) := ⟨hadmissions, by rw [hreleases]⟩
    have hupdated := hvalid.counted_update index hcounted other
    rwa [Function.update_eq_self index state.admissions] at hupdated
  · exact hvalid.stopped closer (ne_idle_of_wake hclosing)
  · rcases drained_wake hdrained with hbefore | hcleared
    · have hempty := hvalid.empty closer hbefore
      omega
    · exact hcleared

theorem Valid.reject (hvalid : Valid state) {index : ρ} {exit : Exit}
    (hidle : state.requests index = .idle) :
    Valid { state with requests := Function.update state.requests index (.refused exit) } := by
  refine ⟨hvalid.balanced_of_idle hidle, hvalid.drained, fun other ↦ ?_, hvalid.stopped,
    hvalid.empty⟩
  have hcounted : Counted (.refused exit) (state.admissions index) (state.releases index) := by
    have hbefore := hvalid.counted index
    rw [hidle] at hbefore
    exact ⟨by rw [hbefore.1, hbefore.2], by rw [hbefore.2]; exact Nat.zero_le _⟩
  have hupdated := hvalid.counted_update index hcounted other
  rwa [Function.update_eq_self index state.releases, Function.update_eq_self index state.admissions]
    at hupdated

omit [DecidableEq ρ] in
/-- Releasing a request that was just admitted leaves the client as it was. -/
theorem Valid.release_admitted (hvalid : Valid state) :
    releaseOperation state.client.admitted = state.client := by
  have hdrained := hvalid.drained
  cases hclient : state.client with
  | mk acceptingOperations closed count drained =>
    rw [hclient] at hdrained
    simp only [releaseOperation, Client.admitted, Client.mk.injEq, add_sub_cancel_right, true_and]
    split_ifs with hzero hone
    · exact (hdrained.mpr hzero).symm
    · omega
    · rfl

theorem Valid.fail (hvalid : Valid state) {index : ρ} {exit : Exit}
    (hidle : state.requests index = .idle)
    (haccepting : state.client.acceptingOperations = true) :
    Valid { state with
      client := releaseOperation state.client.admitted
      requests := Function.update state.requests index (.refused exit)
      closers := wake (releaseOperation state.client.admitted) state.closers
      admissions := Function.update state.admissions index (state.admissions index + 1)
      releases := Function.update state.releases index (state.releases index + 1) } := by
  have hclosers := hvalid.idle haccepting
  rw [hvalid.release_admitted]
  refine ⟨hvalid.balanced_of_idle hidle, hvalid.drained, fun other ↦ ?_, fun closer hclosing ↦ ?_,
    fun closer hdrained ↦ ?_⟩
  · have hcounted : Counted (.refused exit) (state.admissions index + 1)
        (state.releases index + 1) := by
      have hbefore := hvalid.counted index
      rw [hidle] at hbefore
      exact ⟨by rw [hbefore.1, hbefore.2], by rw [hbefore.2]⟩
    exact hvalid.counted_update index hcounted other
  · exact absurd (wake_eq_idle (hclosers closer)) hclosing
  · exact (drained_wake hdrained).elim (hvalid.empty closer) id

variable [DecidableEq κ]

omit [DecidableEq ρ] in
/-- A close that comes to another phase, when requests are not accepted. -/
theorem Valid.move (hvalid : Valid state) {client : Client} {closer : κ} {phase : ClosePhase}
    {lock : Option κ} (hstopped : client.acceptingOperations = false)
    (hcount : client.activeOperationCount = state.client.activeOperationCount)
    (hflag : client.activeOperationsDrained = state.client.activeOperationsDrained)
    (hempty : Drained phase → state.client.activeOperationCount = 0) :
    Valid { state with
      client := client
      closers := Function.update state.closers closer phase
      closeLock := lock } := by
  refine ⟨?_, ?_, hvalid.counted, fun _ _ ↦ hstopped, fun other hdrained ↦ ?_⟩
  · dsimp only
    rw [hcount]
    exact hvalid.balanced
  · dsimp only
    rw [hcount, hflag]
    exact hvalid.drained
  · dsimp only at hdrained ⊢
    rw [hcount]
    by_cases hother : other = closer
    · subst hother
      rw [Function.update_self] at hdrained
      exact hempty hdrained
    · rw [Function.update_of_ne hother] at hdrained
      exact hvalid.empty other hdrained

theorem Valid.step (hvalid : Valid state)
    (hstep : Step baseHeaderNames requestOf state event next) : Valid next := by
  cases hstep with
  | reject hidle => exact hvalid.reject hidle
  | fail hidle hstart => exact hvalid.fail hidle (accepting_of_startRequest hstart nofun)
  | dispatch hidle hstart => exact hvalid.dispatch hidle (accepting_of_startRequest hstart nofun)
  | answer hdispatched => exact hvalid.answer hdispatched
  | stopAccepting =>
    exact ⟨hvalid.balanced, hvalid.drained, hvalid.counted, fun _ _ ↦ rfl, hvalid.empty⟩
  | close =>
    refine hvalid.move rfl rfl rfl fun hdrained ↦ ?_
    split_ifs at hdrained with hflag
    · exact hvalid.drained.mp hflag
    · exact hdrained.elim
  | @resume closer hphase | @acquireClosed closer hphase | @acquire closer hphase =>
    have hstopped := hvalid.stopped closer (by rw [hphase]; exact ClosePhase.noConfusion)
    exact hvalid.move hstopped rfl rfl fun _ ↦ hvalid.empty closer (by rw [hphase]; trivial)
  | @closed closer hphase =>
    have hstopped := hvalid.stopped closer (by rw [hphase]; exact ClosePhase.noConfusion)
    exact hvalid.move hstopped rfl rfl fun _ ↦ hvalid.empty closer (by rw [hphase]; trivial)
  | @interruptClose closer hwaits =>
    have hstopped := hvalid.stopped closer (by
      intro hidle
      rw [hidle] at hwaits
      cases hwaits)
    exact hvalid.move hstopped rfl rfl False.elim

/-! ### Runs -/

/-- The request was dispatched. -/
def Started : RequestPhase → Prop
  | .dispatched _ | .ended _ _ => True
  | _ => False

/-- A client that does not accept requests does not again, and no request is dispatched. -/
theorem stopped_of_step (hstep : Step baseHeaderNames requestOf state event next)
    (hstopped : state.client.acceptingOperations = false) :
    next.client.acceptingOperations = false ∧
      ∀ index, Started (next.requests index) → Started (state.requests index) := by
  have hupdate {index other : ρ} {phase : RequestPhase}
      (hphase : Started phase → Started (state.requests index))
      (hstarted : Started (Function.update state.requests index phase other)) :
      Started (state.requests other) := by
    by_cases hother : other = index
    · subst hother
      rw [Function.update_self] at hstarted
      exact hphase hstarted
    · rwa [Function.update_of_ne hother] at hstarted
  cases hstep with
  | reject => exact ⟨hstopped, fun _ hstarted ↦ hupdate False.elim hstarted⟩
  | fail => exact ⟨hstopped, fun _ hstarted ↦ hupdate False.elim hstarted⟩
  | dispatch hidle hstart =>
    rw [accepting_of_startRequest hstart nofun] at hstopped
    cases hstopped
  | answer hdispatched =>
    exact ⟨hstopped, fun _ hstarted ↦ hupdate (fun _ ↦ by rw [hdispatched]; trivial) hstarted⟩
  | stopAccepting | close => exact ⟨rfl, fun _ hstarted ↦ hstarted⟩
  | resume | acquireClosed | acquire | closed | interruptClose =>
    exact ⟨hstopped, fun _ hstarted ↦ hstarted⟩

theorem stopped_of_run {labels : List (Event ρ κ)}
    (hrun : Run (Step baseHeaderNames requestOf) state labels next)
    (hstopped : state.client.acceptingOperations = false) :
    next.client.acceptingOperations = false ∧
      ∀ index, Started (next.requests index) → Started (state.requests index) := by
  induction hrun with
  | nil => exact ⟨hstopped, fun _ hstarted ↦ hstarted⟩
  | snoc _ hstep ih =>
    obtain ⟨hlast, hrequests⟩ := stopped_of_step hstep ih.1
    exact ⟨hlast, fun index hstarted ↦ ih.2 index (hrequests index hstarted)⟩

/-- The answers of a run are those of the requests that ended. -/
structure Answered (requestOf : ρ → RestRequest) (labels : List (Event ρ κ)) (state : State ρ κ) :
    Prop where
  ended : ∀ index answer, .answer index answer ∈ labels → ∃ exit,
    state.requests index = .ended answer exit
  answered : ∀ index answer exit, state.requests index = .ended answer exit →
    .answer index answer ∈ labels ∧
      ∃ reference, exit = finishRequest (requestOf index) reference answer

omit [DecidableEq ρ] [DecidableEq κ] in
/-- An event that answers no request, and changes none that ended. -/
theorem Answered.frame {labels : List (Event ρ κ)} (hanswered : Answered requestOf labels state)
    (hevent : ∀ index answer, event ≠ .answer index answer)
    (hframe : ∀ index answer exit, next.requests index = .ended answer exit ↔
      state.requests index = .ended answer exit) : Answered requestOf (labels ++ [event]) next := by
  refine ⟨fun index answer hmem ↦ ?_, fun index answer exit hended ↦ ?_⟩
  · rcases List.mem_append.mp hmem with hbefore | hlast
    · obtain ⟨exit, hexit⟩ := hanswered.ended index answer hbefore
      exact ⟨exit, (hframe index answer exit).mpr hexit⟩
    · exact absurd (List.mem_singleton.mp hlast).symm (hevent index answer)
  · obtain ⟨hmem, hexit⟩ := hanswered.answered index answer exit ((hframe _ _ _).mp hended)
    exact ⟨List.mem_append_left _ hmem, hexit⟩

omit [DecidableEq κ] in
/-- A request in a phase that has not ended. -/
theorem ended_update_iff {index : ρ} {phase : RequestPhase} (hidle : state.requests index = .idle)
    (hphase : ∀ answer exit, phase ≠ .ended answer exit) (other : ρ) (answer : RestClient.Answer)
    (exit : Exit) :
    Function.update state.requests index phase other = .ended answer exit ↔
      state.requests other = .ended answer exit := by
  by_cases hother : other = index
  · subst hother
    rw [Function.update_self, hidle]
    exact iff_of_false (hphase answer exit) RequestPhase.noConfusion
  · rw [Function.update_of_ne hother]

theorem Answered.step {labels : List (Event ρ κ)} (hanswered : Answered requestOf labels state)
    (hstep : Step baseHeaderNames requestOf state event next) :
    Answered requestOf (labels ++ [event]) next := by
  cases hstep with
  | reject hidle | fail hidle | dispatch hidle =>
    exact hanswered.frame nofun (ended_update_iff hidle nofun)
  | stopAccepting | close | resume | acquireClosed | acquire | closed | interruptClose =>
    exact hanswered.frame nofun fun _ _ _ ↦ Iff.rfl
  | @answer index reference answer hdispatched =>
    refine ⟨fun other given hmem ↦ ?_, fun other given exit hended ↦ ?_⟩
    · by_cases hother : other = index
      · subst hother
        rcases List.mem_append.mp hmem with hbefore | hlast
        · obtain ⟨exit, hexit⟩ := hanswered.ended other given hbefore
          rw [hdispatched] at hexit
          cases hexit
        · cases List.mem_singleton.mp hlast
          exact ⟨_, Function.update_self _ _ _⟩
      · rcases List.mem_append.mp hmem with hbefore | hlast
        · obtain ⟨exit, hexit⟩ := hanswered.ended other given hbefore
          exact ⟨exit, (Function.update_of_ne hother _ _).trans hexit⟩
        · cases List.mem_singleton.mp hlast
          exact absurd rfl hother
    · dsimp only at hended
      by_cases hother : other = index
      · subst hother
        rw [Function.update_self] at hended
        cases hended
        exact ⟨List.mem_append_right _ (List.mem_singleton_self _), reference, rfl⟩
      · rw [Function.update_of_ne hother] at hended
        obtain ⟨hmem, hexit⟩ := hanswered.answered other given exit hended
        exact ⟨List.mem_append_left _ hmem, hexit⟩

omit [DecidableEq ρ] [DecidableEq κ] in
theorem Answered.initial :
    Answered requestOf ([] : List (Event ρ κ)) (State.initial : State ρ κ) :=
  ⟨nofun, fun _ _ _ hended ↦ RequestPhase.noConfusion hended⟩

/-- What a client guarantees about its requests in a run that leads to a state. -/
structure Guaranteed (baseHeaderNames : List String) (requestOf : ρ → RestRequest)
    (labels : List (Event ρ κ)) (state : State ρ κ) : Prop where
  /-- A write that was dispatched ends in one of the classes. -/
  classified : ∀ index answer exit, state.requests index = .ended answer exit →
    (requestOf index).writeIntent = true → Classified (requestOf index) answer exit
  /-- A request that was dispatched ends with any answer. -/
  answered : ∀ index reference answer, state.requests index = .dispatched reference →
    ∃ next exit, Step baseHeaderNames requestOf state (.answer index answer) next ∧
      next.requests index = .ended answer exit
  /-- No request is dispatched after the client stopped accepting them. -/
  stopped : (∃ event ∈ labels, event.stops = true) → ∀ more later,
    Run (Step baseHeaderNames requestOf) state more later →
      ∀ index, Started (later.requests index) → Started (state.requests index)
  /-- A close finishes after every request that was admitted is released, and released once. -/
  closed : ∀ closer, state.closers closer = .finished → ∀ index,
    state.releases index = state.admissions index ∧ state.releases index ≤ 1

/-- A run with an event that stops the acceptance of requests. -/
theorem stopped_of_event {start : State ρ κ} {labels : List (Event ρ κ)}
    (hrun : Run (Step baseHeaderNames requestOf) start labels state) {event : Event ρ κ}
    (hmem : event ∈ labels) (hstops : event.stops = true) :
    state.client.acceptingOperations = false := by
  induction hrun with
  | nil => exact absurd hmem List.not_mem_nil
  | snoc _ hstep ih =>
    rcases List.mem_append.mp hmem with hbefore | hlast
    · exact (stopped_of_step hstep (ih hbefore)).1
    · cases List.mem_singleton.mp hlast
      cases hstep with
      | stopAccepting | close => rfl
      | _ => cases hstops

omit [DecidableEq ρ] [DecidableEq κ] in
/-- A close that finished left no request behind. -/
theorem Valid.released (hvalid : Valid state) {closer : κ}
    (hfinished : state.closers closer = .finished) (index : ρ) :
    state.releases index = state.admissions index ∧ state.releases index ≤ 1 := by
  obtain ⟨pending, hpending, hcount⟩ := hvalid.balanced
  rw [hvalid.empty closer (by rw [hfinished]; trivial), eq_comm, Nat.cast_eq_zero,
    Finset.card_eq_zero] at hcount
  have hcounted := hvalid.counted index
  cases hphase : state.requests index with
  | idle =>
    rw [hphase] at hcounted
    exact ⟨by rw [hcounted.1, hcounted.2], by rw [hcounted.2]; exact Nat.zero_le _⟩
  | refused exit =>
    rw [hphase] at hcounted
    exact ⟨hcounted.1.symm, hcounted.2⟩
  | dispatched reference =>
    have hmem := (hpending index).mpr ⟨reference, hphase⟩
    rw [hcount] at hmem
    exact absurd hmem (Finset.notMem_empty _)
  | ended answer exit =>
    rw [hphase] at hcounted
    exact ⟨by rw [hcounted.1, hcounted.2], by rw [hcounted.2]⟩

/-- A run guarantees what becomes of its requests exactly when every answer of a write is caught. -/
theorem guaranteed_iff {labels : List (Event ρ κ)}
    (hrun : Run (Step baseHeaderNames requestOf) State.initial labels state) :
    Guaranteed baseHeaderNames requestOf labels state ↔
      ∀ index answer, .answer index answer ∈ labels → (requestOf index).writeIntent = true →
        Caught answer := by
  have hvalid : Valid state :=
    hrun.invariant Valid.initial fun _ _ _ hbefore hstep ↦ hbefore.step hstep
  have hanswered : Answered requestOf labels state :=
    hrun.history Answered.initial fun _ _ _ _ hbefore hstep ↦ hbefore.step hstep
  constructor
  · intro hguaranteed index answer hmem hwrite
    obtain ⟨exit, hended⟩ := hanswered.ended index answer hmem
    obtain ⟨-, reference, rfl⟩ := hanswered.answered index answer exit hended
    exact (classified_finishRequest_iff hwrite).mp
      (hguaranteed.classified index answer _ hended hwrite)
  · intro hcaught
    refine ⟨fun index answer exit hended hwrite ↦ ?_, fun index reference answer hdispatched ↦ ?_,
      fun ⟨event, hmem, hstops⟩ more later hmore ↦ ?_, fun closer hfinished ↦ ?_⟩
    · obtain ⟨hmem, reference, rfl⟩ := hanswered.answered index answer exit hended
      exact (classified_finishRequest_iff hwrite).mpr (hcaught index answer hmem hwrite)
    · exact ⟨_, _, .answer hdispatched, Function.update_self _ _ _⟩
    · exact (stopped_of_run hmore (stopped_of_event hrun hmem hstops)).2
    · exact hvalid.released hfinished

end Invariants

/-! ### A write with a response that cannot be decoded -/

/-- A write. -/
def sampleWrite : RestRequest where
  requestHeaderNames := ["Idempotency-Key"]
  writeIntent := true
  requestEvidence := false
  responseSanitizer := none
  totalTimeoutSeconds := some (some 30)

/-- A write that is answered, and then a close. -/
def answeredEvents (answer : RestClient.Answer) : List (Event Unit Unit) :=
  [.start () (.ok ""), .answer () answer, .close (), .acquire (), .closed ()]

/-- The write and the close come to an end with any answer. -/
theorem exists_run (answer : RestClient.Answer) : ∃ state : State Unit Unit,
    Run (Step ["authorization"] fun _ ↦ sampleWrite) State.initial (answeredEvents answer) state ∧
      state.requests () = .ended answer (finishRequest sampleWrite none answer) ∧
      state.closers () = .finished := by
  have hstart : startRequest ["authorization"] Client.initial sampleWrite (.ok "") =
      .dispatched none := by
    unfold startRequest
    rw [if_neg (by decide +kernel), if_neg (by decide +kernel)]
    rfl
  have hnil : Run (Step ["authorization"] fun _ : Unit ↦ sampleWrite)
    (State.initial : State Unit Unit) [] State.initial := .nil
  have hdispatched : Run (Step ["authorization"] fun _ : Unit ↦ sampleWrite) State.initial
    [.start () (.ok "")] _ := hnil.snoc (.dispatch rfl hstart)
  have hanswered : Run (Step ["authorization"] fun _ : Unit ↦ sampleWrite) State.initial
    [.start () (.ok ""), .answer () answer] _ := hdispatched.snoc (.answer rfl)
  have hclosing : Run (Step ["authorization"] fun _ : Unit ↦ sampleWrite) State.initial
    [.start () (.ok ""), .answer () answer, .close (), .acquire ()] _ :=
    (hanswered.snoc (.close rfl)).snoc (.acquire rfl rfl rfl)
  exact ⟨_, hclosing.snoc (.closed rfl), rfl, rfl⟩

/-- A response with the status 200 is sealed, and the close finishes. -/
theorem guaranteed_of_success : ∃ state : State Unit Unit,
    Run (Step ["authorization"] fun _ ↦ sampleWrite) State.initial
      (answeredEvents (.response 200 [] (.ok "reference"))) state ∧
    Guaranteed ["authorization"] (fun _ ↦ sampleWrite)
      (answeredEvents (.response 200 [] (.ok "reference"))) state := by
  obtain ⟨state, hrun, -, -⟩ := exists_run (.response 200 [] (.ok "reference"))
  refine ⟨state, hrun, (guaranteed_iff hrun).mpr fun index answer hmem _ ↦ ?_⟩
  simp only [answeredEvents, List.mem_cons, List.not_mem_nil, or_false, Event.answer.injEq,
    reduceCtorEq, false_or] at hmem
  rw [hmem.2]
  trivial

/-- A response that cannot be decoded is raised as it is. -/
theorem not_classified_of_decodingError : ∃ state : State Unit Unit,
    Run (Step ["authorization"] fun _ ↦ sampleWrite) State.initial
      (answeredEvents (.requestError .decodingError)) state ∧
    sampleWrite.writeIntent = true ∧
    ∃ answer exit, state.requests () = .ended answer exit ∧ ¬ Classified sampleWrite answer exit := by
  obtain ⟨state, hrun, hended, -⟩ := exists_run (.requestError .decodingError)
  exact ⟨state, hrun, rfl, _, _, hended, id⟩

end Oamb.MemorySystems.RestGuarantees
