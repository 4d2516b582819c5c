import Oamb.Foundation.ConcurrentCalls

/-!
# Retries that are ordered and at most once

The calls of a procedure work on batches, each of which has a position in the plan of a scope, and
number their attempts on it. `Retries` is how a procedure keeps book of them in its shared state: the
attempt that may come next, and the attempts that were made. Under the laws of `Retries.Lawful` a write
that is pending is orderly in every reachable state (`orderly_of_run`): no other call wrote for the
same attempt, an attempt after the first follows one that is settled, and the batch did not end
otherwise. Where a scope is also worked on in turn (`Turns`), every earlier batch of it is finished
(`inTurn_of_run`).
-/

set_option autoImplicit false

namespace Oamb.Foundation.RetryDiscipline

open Dialogue ConcurrentCalls LabelledRuns

variable {σ R Q ε α ι τ : Type} {A : Q → Type}

/-! ### The book of the attempts -/

/-- How a procedure keeps book of the attempts on its batches. A batch is a position of a scope. -/
structure Retries (σ R ε τ : Type) where
  batch : R → τ × ℕ
  ordinal : R → ℕ
  /-- The attempt that may come next. -/
  expected : σ → τ × ℕ → ℕ
  /-- The attempt was made. -/
  Attempted : σ → τ × ℕ → ℕ → Prop
  /-- A failure after which another attempt may come. -/
  Settled : ε → Prop
  /-- A failure after which the same attempt may come again. -/
  Withdrawn : ε → Prop

/-- The outcome is a settled failure. -/
def Retries.SettledOutcome (retries : Retries σ R ε τ) (outcome : Except ε α) : Prop :=
  ∃ error, outcome = .error error ∧ retries.Settled error

/-- The outcome is a failure after which the same attempt may come again. -/
def Retries.WithdrawnOutcome (retries : Retries σ R ε τ) (outcome : Except ε α) : Prop :=
  ∃ error, outcome = .error error ∧ retries.Withdrawn error

/-- The laws of the book. `Admissible` holds of the requests that may enter, and `Issues` of the
exchanges that are a write. -/
structure Retries.Lawful (retries : Retries σ R ε τ) (procedure : Procedure σ R Q A ε α)
    (initial : σ) (Admissible : R → Prop) (Issues : Exchange Q A → Prop) : Prop where
  ordinal_pos : ∀ {request}, Admissible request → 0 < retries.ordinal request
  expected_initial : ∀ batch, retries.expected initial batch ≤ 1
  admissible : ∀ {shared request shared'}, procedure.enter shared request = some (.ok shared') →
    Admissible request
  expected_of_enter : ∀ {shared request shared'},
    procedure.enter shared request = some (.ok shared') →
      retries.expected shared (retries.batch request) = retries.ordinal request
  not_attempted : ∀ {shared request shared'},
    procedure.enter shared request = some (.ok shared') →
      ¬ retries.Attempted shared (retries.batch request) (retries.ordinal request)
  attempted_of_enter : ∀ {shared request shared'},
    procedure.enter shared request = some (.ok shared') →
      retries.Attempted shared' (retries.batch request) (retries.ordinal request)
  expected_enter : ∀ {shared request shared'},
    procedure.enter shared request = some (.ok shared') →
      retries.expected shared' = retries.expected shared
  attempted_enter : ∀ {shared request shared' batch ordinal},
    procedure.enter shared request = some (.ok shared') →
      retries.Attempted shared batch ordinal → retries.Attempted shared' batch ordinal
  expected_leave_of_ne : ∀ {shared request outcome batch}, Admissible request →
    batch ≠ retries.batch request →
      retries.expected (procedure.leave shared request outcome) batch =
        retries.expected shared batch
  expected_settled : ∀ {shared request outcome}, Admissible request →
    retries.SettledOutcome outcome →
      retries.expected (procedure.leave shared request outcome) (retries.batch request) =
        retries.ordinal request + 1
  expected_leave : ∀ {shared request outcome}, Admissible request →
    ¬ retries.SettledOutcome outcome →
      retries.expected (procedure.leave shared request outcome) (retries.batch request) =
          retries.expected shared (retries.batch request) ∨
        retries.expected (procedure.leave shared request outcome) (retries.batch request) = 0
  attempted_leave : ∀ {shared request outcome batch ordinal}, Admissible request →
    retries.Attempted shared batch ordinal →
      ¬ (retries.WithdrawnOutcome outcome ∧ batch = retries.batch request ∧
          ordinal = retries.ordinal request) →
        retries.Attempted (procedure.leave shared request outcome) batch ordinal
  not_issues : ∀ {request trace error},
    Execution (procedure.body request) trace (.error error) → retries.Withdrawn error →
      ∀ exchange ∈ trace, ¬ Issues exchange

/-! ### What holds in every state -/

section Invariants

variable {retries : Retries σ R ε τ} {procedure : Procedure σ R Q A ε α} {start : σ}
  {Admissible : R → Prop} {Issues : Exchange Q A → Prop} {state next : State σ ι R Q A ε α}

/-- No other attempt may enter for the batch of a request. -/
def Closed (retries : Retries σ R ε τ) (shared : σ) (request : R) : Prop :=
  retries.expected shared (retries.batch request) = 0 ∨
    (retries.expected shared (retries.batch request) = retries.ordinal request ∧
      retries.Attempted shared (retries.batch request) (retries.ordinal request))

/-- What holds of the calls and of the book in every reachable state. -/
structure Kept (retries : Retries σ R ε τ) (Admissible : R → Prop)
    (state : State σ ι R Q A ε α) : Prop where
  admissible : ∀ {index request}, Running state index request → Admissible request
  expected : ∀ {index request}, Running state index request →
    retries.expected state.shared (retries.batch request) = retries.ordinal request
  attempted : ∀ {index request}, Running state index request →
    retries.Attempted state.shared (retries.batch request) (retries.ordinal request)
  exclusive : ∀ {index other request request'}, Running state index request →
    Running state other request' → retries.batch request = retries.batch request' → index = other
  settled : ∀ {index request trace outcome}, Ended state index request trace outcome →
    retries.SettledOutcome outcome →
      retries.ordinal request < retries.expected state.shared (retries.batch request) ∨
        retries.expected state.shared (retries.batch request) = 0
  closed : ∀ {index request trace outcome}, Ended state index request trace outcome →
    ¬ retries.SettledOutcome outcome → ¬ retries.WithdrawnOutcome outcome →
      Closed retries state.shared request ∧ ∀ other request', Running state other request' →
        retries.batch request' ≠ retries.batch request
  retried : ∀ {batch}, 1 < retries.expected state.shared batch →
    ∃ index request trace outcome, Ended state index request trace outcome ∧
      retries.batch request = batch ∧ retries.SettledOutcome outcome ∧
        retries.ordinal request + 1 = retries.expected state.shared batch

theorem Kept.initial (hlawful : retries.Lawful procedure start Admissible Issues) :
    Kept retries Admissible (State.initial start : State σ ι R Q A ε α) := by
  have hidle : ∀ {index : ι} {request : R},
      ¬ Running (State.initial start : State σ ι R Q A ε α) index request := by
    rintro index request ⟨trace, rest, hrunning⟩
    cases hrunning
  refine ⟨fun hrunning ↦ absurd hrunning hidle, fun hrunning ↦ absurd hrunning hidle,
    fun hrunning ↦ absurd hrunning hidle, fun hrunning ↦ absurd hrunning hidle,
    (fun hended ↦ nomatch hended), (fun hended ↦ nomatch hended), fun {batch} hexpected ↦ ?_⟩
  exact absurd (hlawful.expected_initial batch) (Nat.not_le.mpr hexpected)

theorem Kept.quiet (hkept : Kept retries Admissible state) (hquiet : Quiet state next) :
    Kept retries Admissible next := by
  refine ⟨?_, ?_, ?_, ?_, ?_, ?_, ?_⟩
  · intro index request hrunning
    exact hkept.admissible ((hquiet.running _ _).mp hrunning)
  · intro index request hrunning
    rw [hquiet.shared]
    exact hkept.expected ((hquiet.running _ _).mp hrunning)
  · intro index request hrunning
    rw [hquiet.shared]
    exact hkept.attempted ((hquiet.running _ _).mp hrunning)
  · intro index other request request' hrunning hother
    exact hkept.exclusive ((hquiet.running _ _).mp hrunning) ((hquiet.running _ _).mp hother)
  · intro index request trace outcome hended
    rw [hquiet.shared]
    exact hkept.settled ((hquiet.ended _ _ _ _).mp hended)
  · intro index request trace outcome hended hunsettled hkeeps
    obtain ⟨hclosed, hnone⟩ := hkept.closed ((hquiet.ended _ _ _ _).mp hended) hunsettled hkeeps
    rw [hquiet.shared]
    exact ⟨hclosed, fun other request' hrunning ↦ hnone other request'
      ((hquiet.running _ _).mp hrunning)⟩
  · intro batch hexpected
    rw [hquiet.shared] at hexpected ⊢
    obtain ⟨index, request, trace, outcome, hended, hrest⟩ := hkept.retried hexpected
    exact ⟨index, request, trace, outcome, (hquiet.ended _ _ _ _).mpr hended, hrest⟩

/-- A call enters only where no other call is, and where the batch is not closed. -/
theorem Kept.entered (hlawful : retries.Lawful procedure start Admissible Issues)
    (hkept : Kept retries Admissible state) {index : ι} {request : R}
    (hentered : Entered procedure state next index request) :
    Kept retries Admissible next := by
  have henter := hentered.enter
  have hexpected := hlawful.expected_of_enter henter
  have hsame := hlawful.expected_enter henter
  have halone : ∀ {other request'}, Running state other request' →
      retries.batch request' ≠ retries.batch request := by
    intro other request' hrunning hbatch
    have hattempted := hkept.attempted hrunning
    rw [hbatch, ← hkept.expected hrunning, hbatch, hexpected] at hattempted
    exact hlawful.not_attempted henter hattempted
  refine ⟨?_, ?_, ?_, ?_, ?_, ?_, ?_⟩
  · intro other request' hrunning
    rcases (hentered.running _ _).mp hrunning with ⟨-, rfl⟩ | ⟨-, hbefore⟩
    · exact hlawful.admissible henter
    · exact hkept.admissible hbefore
  · intro other request' hrunning
    rw [hsame]
    rcases (hentered.running _ _).mp hrunning with ⟨-, rfl⟩ | ⟨-, hbefore⟩
    · exact hexpected
    · exact hkept.expected hbefore
  · intro other request' hrunning
    rcases (hentered.running _ _).mp hrunning with ⟨-, rfl⟩ | ⟨-, hbefore⟩
    · exact hlawful.attempted_of_enter henter
    · exact hlawful.attempted_enter henter (hkept.attempted hbefore)
  · intro first second request' request'' hfirst hsecond hbatch
    rcases (hentered.running _ _).mp hfirst with ⟨rfl, rfl⟩ | ⟨-, hfirst⟩
    · rcases (hentered.running _ _).mp hsecond with ⟨rfl, -⟩ | ⟨-, hsecond⟩
      · rfl
      · exact absurd hbatch.symm (halone hsecond)
    · rcases (hentered.running _ _).mp hsecond with ⟨rfl, rfl⟩ | ⟨-, hsecond⟩
      · exact absurd hbatch (halone hfirst)
      · exact hkept.exclusive hfirst hsecond hbatch
  · intro other request' trace outcome hended
    rw [hsame]
    exact hkept.settled ((hentered.ended _ _ _ _).mp hended)
  · intro other request' trace outcome hended hunsettled hkeeps
    obtain ⟨hclosed, hnone⟩ := hkept.closed ((hentered.ended _ _ _ _).mp hended) hunsettled hkeeps
    have hopen : retries.batch request ≠ retries.batch request' := by
      intro hbatch
      have hpos := hlawful.ordinal_pos (hlawful.admissible henter)
      rcases hclosed with hzero | ⟨hordinal, hattempted⟩
      · rw [← hbatch, hexpected] at hzero
        exact Nat.ne_of_gt hpos hzero
      · rw [← hordinal, ← hbatch, hexpected] at hattempted
        exact hlawful.not_attempted henter hattempted
    refine ⟨?_, fun running request'' hrunning ↦ ?_⟩
    · rw [Closed, hsame]
      exact hclosed.imp id fun ⟨hordinal, hattempted⟩ ↦
        ⟨hordinal, hlawful.attempted_enter henter hattempted⟩
    · rcases (hentered.running _ _).mp hrunning with ⟨-, rfl⟩ | ⟨-, hbefore⟩
      · exact hopen
      · exact hnone running request'' hbefore
  · intro batch hbatch
    rw [hsame] at hbatch ⊢
    obtain ⟨other, request', trace, outcome, hended, hrest⟩ := hkept.retried hbatch
    exact ⟨other, request', trace, outcome, (hentered.ended _ _ _ _).mpr hended, hrest⟩

/-- A call that leaves settles its attempt, closes its batch, or withdraws. -/
theorem Kept.left (hlawful : retries.Lawful procedure start Admissible Issues)
    (hkept : Kept retries Admissible state) {index : ι} {request : R}
    {trace : List (Exchange Q A)} {outcome : Except ε α}
    (hleft : Left procedure state next index request trace outcome) :
    Kept retries Admissible next := by
  have hrunning : Running state index request := ⟨trace, _, hleft.was⟩
  have hadmissible := hkept.admissible hrunning
  have hexpected := hkept.expected hrunning
  have hshared := hleft.shared
  have halone : ∀ {other request'}, other ≠ index → Running state other request' →
      retries.batch request' ≠ retries.batch request :=
    fun hother hbefore hbatch ↦ hother (hkept.exclusive hbefore hrunning hbatch)
  have hkeep : ¬ retries.SettledOutcome outcome →
      retries.expected (procedure.leave state.shared request outcome) (retries.batch request) =
          retries.expected state.shared (retries.batch request) ∨
        retries.expected (procedure.leave state.shared request outcome) (retries.batch request) = 0 :=
    hlawful.expected_leave hadmissible
  refine ⟨?_, ?_, ?_, ?_, ?_, ?_, ?_⟩
  · intro other request' hother
    exact hkept.admissible ((hleft.running _ _).mp hother).2
  · intro other request' hother
    obtain ⟨hne, hbefore⟩ := (hleft.running _ _).mp hother
    rw [hshared, hlawful.expected_leave_of_ne hadmissible (halone hne hbefore)]
    exact hkept.expected hbefore
  · intro other request' hother
    obtain ⟨hne, hbefore⟩ := (hleft.running _ _).mp hother
    rw [hshared]
    exact hlawful.attempted_leave hadmissible (hkept.attempted hbefore)
      fun hboth ↦ halone hne hbefore hboth.2.1
  · intro first second request' request'' hfirst hsecond
    exact hkept.exclusive ((hleft.running _ _).mp hfirst).2 ((hleft.running _ _).mp hsecond).2
  · intro other request' trace' outcome' hended hsettled
    rw [hshared]
    rcases (hleft.ended _ _ _ _).mp hended with ⟨rfl, rfl, rfl, rfl⟩ | hbefore
    · rw [hlawful.expected_settled hadmissible hsettled]
      exact Or.inl (Nat.lt_succ_self _)
    · have hold := hkept.settled hbefore hsettled
      by_cases hbatch : retries.batch request' = retries.batch request
      · rw [hbatch, hexpected] at hold
        have hpos := hlawful.ordinal_pos hadmissible
        rw [hbatch]
        by_cases hnow : retries.SettledOutcome outcome
        · rw [hlawful.expected_settled hadmissible hnow]
          omega
        · rcases hkeep hnow with hsame | hzero
          · rw [hsame, hexpected]
            exact hold
          · exact Or.inr hzero
      · rw [hlawful.expected_leave_of_ne hadmissible hbatch]
        exact hold
  · intro other request' trace' outcome' hended hunsettled hkeeps
    rw [hshared]
    rcases (hleft.ended _ _ _ _).mp hended with ⟨rfl, rfl, rfl, rfl⟩ | hbefore
    · refine ⟨?_, fun running request'' hother ↦ ?_⟩
      · rcases hkeep hunsettled with hsame | hzero
        · refine Or.inr ⟨hsame.trans hexpected, ?_⟩
          exact hlawful.attempted_leave hadmissible (hkept.attempted hrunning)
            fun hboth ↦ hkeeps hboth.1
        · exact Or.inl hzero
      · obtain ⟨hne, hbefore⟩ := (hleft.running _ _).mp hother
        exact halone hne hbefore
    · obtain ⟨hclosed, hnone⟩ := hkept.closed hbefore hunsettled hkeeps
      have hbatch : retries.batch request' ≠ retries.batch request := (hnone _ _ hrunning).symm
      refine ⟨?_, fun running request'' hother ↦ hnone _ _ ((hleft.running _ _).mp hother).2⟩
      rw [Closed, hlawful.expected_leave_of_ne hadmissible hbatch]
      exact hclosed.imp id fun ⟨hordinal, hattempted⟩ ↦
        ⟨hordinal, hlawful.attempted_leave hadmissible hattempted fun hboth ↦ hbatch hboth.2.1⟩
  · intro batch hbatch
    rw [hshared] at hbatch ⊢
    by_cases hsame : batch = retries.batch request
    · subst hsame
      by_cases hnow : retries.SettledOutcome outcome
      · refine ⟨index, request, trace, outcome, (hleft.ended _ _ _ _).mpr (Or.inl ⟨rfl, rfl, rfl, rfl⟩),
          rfl, hnow, ?_⟩
        rw [hlawful.expected_settled hadmissible hnow]
      · rcases hkeep hnow with hsame | hzero
        · rw [hsame] at hbatch ⊢
          obtain ⟨other, request', trace', outcome', hended, hrest⟩ := hkept.retried hbatch
          exact ⟨other, request', trace', outcome', (hleft.ended _ _ _ _).mpr (Or.inr hended), hrest⟩
        · omega
    · rw [hlawful.expected_leave_of_ne hadmissible hsame] at hbatch ⊢
      obtain ⟨other, request', trace', outcome', hended, hrest⟩ := hkept.retried hbatch
      exact ⟨other, request', trace', outcome', (hleft.ended _ _ _ _).mpr (Or.inr hended), hrest⟩

/-- What holds of the calls and of the book in every state of a run. -/
theorem kept_of_run [DecidableEq ι] (hlawful : retries.Lawful procedure start Admissible Issues)
    {events : List (Event ι)}
    (hrun : Run (Step procedure) (State.initial start : State σ ι R Q A ε α) events state) :
    Kept retries Admissible state := by
  refine hrun.invariant (Kept.initial hlawful) fun state event next hkept hstep ↦ ?_
  rcases hstep.effect with hquiet | ⟨index, request, hentered⟩ |
    ⟨index, request, trace, outcome, hleft⟩
  · exact hkept.quiet hquiet
  · exact hkept.entered hlawful hentered
  · exact hkept.left hlawful hleft

/-- The outcome closes its batch. -/
def Closes (retries : Retries σ R ε τ) (outcome : Except ε α) : Prop :=
  ¬ retries.SettledOutcome outcome ∧ ¬ retries.WithdrawnOutcome outcome

/-- No two calls closed the same batch. -/
def ClosedOnce (retries : Retries σ R ε τ) (state : State σ ι R Q A ε α) : Prop :=
  ∀ {index other request request' trace trace' outcome outcome'},
    Ended state index request trace outcome → Closes retries outcome →
      Ended state other request' trace' outcome' → Closes retries outcome' →
        retries.batch request = retries.batch request' → index = other

/-- The calls of a run, and that they close a batch once. -/
structure KeptClosed (retries : Retries σ R ε τ) (Admissible : R → Prop)
    (state : State σ ι R Q A ε α) : Prop where
  kept : Kept retries Admissible state
  once : ClosedOnce retries state

/-- A call that leaves had entered, so that no call on its batch closed it before. -/
theorem KeptClosed.left (hlawful : retries.Lawful procedure start Admissible Issues)
    (hclosed : KeptClosed retries Admissible state) {index : ι} {request : R}
    {trace : List (Exchange Q A)} {outcome : Except ε α}
    (hleft : Left procedure state next index request trace outcome) :
    KeptClosed retries Admissible next := by
  refine ⟨hclosed.kept.left hlawful hleft, ?_⟩
  have hrunning : Running state index request := ⟨trace, _, hleft.was⟩
  have hfirst : ∀ {other request' trace' outcome'}, Ended state other request' trace' outcome' →
      Closes retries outcome' → retries.batch request ≠ retries.batch request' :=
    fun hended hcloses ↦ (hclosed.kept.closed hended hcloses.1 hcloses.2).2 index request hrunning
  intro one two request' request'' trace' trace'' outcome' outcome'' hone hcloses htwo hcloses'
    hbatch
  rcases (hleft.ended _ _ _ _).mp hone with ⟨rfl, rfl, rfl, rfl⟩ | hone
  · rcases (hleft.ended _ _ _ _).mp htwo with ⟨rfl, -⟩ | htwo
    · rfl
    · exact absurd hbatch (hfirst htwo hcloses')
  · rcases (hleft.ended _ _ _ _).mp htwo with ⟨rfl, rfl, rfl, rfl⟩ | htwo
    · exact absurd hbatch.symm (hfirst hone hcloses)
    · exact hclosed.once hone hcloses htwo hcloses' hbatch

/-- In every state of a run a batch was closed by one call at most. -/
theorem closedOnce_of_run [DecidableEq ι]
    (hlawful : retries.Lawful procedure start Admissible Issues) {events : List (Event ι)}
    (hrun : Run (Step procedure) (State.initial start : State σ ι R Q A ε α) events state) :
    ClosedOnce retries state := by
  have hclosed : KeptClosed retries Admissible state := by
    refine hrun.invariant ⟨Kept.initial hlawful, fun hended ↦ nomatch hended⟩ ?_
    rintro state event next ⟨hkept, honce⟩ hstep
    rcases hstep.effect with hquiet | ⟨index, request, hentered⟩ |
      ⟨index, request, trace, outcome, hleft⟩
    · exact ⟨hkept.quiet hquiet, fun hone hcloses htwo ↦ honce ((hquiet.ended _ _ _ _).mp hone)
        hcloses ((hquiet.ended _ _ _ _).mp htwo)⟩
    · exact ⟨hkept.entered hlawful hentered, fun hone hcloses htwo ↦
        honce ((hentered.ended _ _ _ _).mp hone) hcloses ((hentered.ended _ _ _ _).mp htwo)⟩
    · exact KeptClosed.left hlawful ⟨hkept, honce⟩ hleft
  intro _ _ _ _ _ _ _ _ hended
  exact hclosed.once hended

end Invariants

/-! ### Orderly writes -/

section Writes

variable {retries : Retries σ R ε τ} {procedure : Procedure σ R Q A ε α} {start : σ}
  {Admissible : R → Prop} {Issues : Exchange Q A → Prop} {write : Q → Prop} [DecidablePred write]
  {planned : R → List Q} {state : State σ ι R Q A ε α}

/-- A call for a request has written, or a write of it is pending. -/
def Wrote (Issues : Exchange Q A → Prop) (write : Q → Prop) (state : State σ ι R Q A ε α)
    (index : ι) (request : R) : Prop :=
  (∃ trace rest, state.calls index = .running request trace rest ∧
      ((∃ exchange ∈ trace, Issues exchange) ∨ ∃ query next, rest = .ask query next ∧ write query)) ∨
    ∃ trace outcome, Ended state index request trace outcome ∧ ∃ exchange ∈ trace, Issues exchange

/-- A pending write is orderly. -/
structure Orderly (retries : Retries σ R ε τ) (Issues : Exchange Q A → Prop) (write : Q → Prop)
    [DecidablePred write] (planned : R → List Q) (state : State σ ι R Q A ε α) (index : ι)
    (request : R) (trace : List (Exchange Q A)) (query : Q) : Prop where
  /-- No other call wrote for the same attempt. -/
  fresh : ∀ {other request'}, other ≠ index → retries.batch request' = retries.batch request →
    retries.ordinal request' = retries.ordinal request → ¬ Wrote Issues write state other request'
  /-- The call itself wrote what comes before the write in its plan, and no more. -/
  once : ∃ later, planned request = writesOf write trace ++ query :: later
  /-- The attempt before ended in a settled failure. -/
  retried : 1 < retries.ordinal request → ∃ other request' trace' outcome,
    Ended state other request' trace' outcome ∧ retries.batch request' = retries.batch request ∧
      retries.ordinal request' + 1 = retries.ordinal request ∧ retries.SettledOutcome outcome
  /-- No call on the batch ended otherwise than in a settled failure, unless it wrote nothing. -/
  opened : ∀ {other request' trace' outcome}, Ended state other request' trace' outcome →
    retries.batch request' = retries.batch request → retries.SettledOutcome outcome ∨
      (retries.WithdrawnOutcome outcome ∧ ∀ exchange ∈ trace', ¬ Issues exchange)

/-- Whatever calls are made, and in whatever order they go on, a write that is pending is orderly. -/
def OrderlyWrites (retries : Retries σ R ε τ) (procedure : Procedure σ R Q A ε α) (start : σ)
    (Issues : Exchange Q A → Prop) (write : Q → Prop) [DecidablePred write] (planned : R → List Q) :
    Prop :=
  ∀ (ι : Type) [DecidableEq ι] (events : List (Event ι)) (state : State σ ι R Q A ε α),
    Run (Step procedure) (State.initial start) events state →
      ∀ index request trace query next,
        state.calls index = .running request trace (.ask query next) → write query →
          Orderly retries Issues write planned state index request trace query

/-- In every state of a run, a write that is pending is orderly. -/
theorem orderly_of_run [DecidableEq ι] (hlawful : retries.Lawful procedure start Admissible Issues)
    (hplanned : ∀ request, WritesExactly write (planned request) (procedure.body request))
    {events : List (Event ι)}
    (hrun : Run (Step procedure) (State.initial start : State σ ι R Q A ε α) events state)
    {index : ι} {request : R} {trace : List (Exchange Q A)} {query : Q}
    {next : A query → Dialogue Q A ε α}
    (hpending : state.calls index = .running request trace (.ask query next))
    (hwrite : write query) :
    Orderly retries Issues write planned state index request trace query := by
  have hkept := kept_of_run hlawful hrun
  have htraced := traced_of_run hrun
  have hrunning : Running state index request := ⟨trace, _, hpending⟩
  have hopened : ∀ {other request' trace' outcome}, Ended state other request' trace' outcome →
      retries.batch request' = retries.batch request → ¬ retries.SettledOutcome outcome →
        retries.WithdrawnOutcome outcome := by
    intro other request' trace' outcome hended hbatch hunsettled
    by_contra hkeeps
    exact (hkept.closed hended hunsettled hkeeps).2 index request hrunning hbatch.symm
  have hunissued : ∀ {other request' trace' outcome}, Ended state other request' trace' outcome →
      retries.WithdrawnOutcome outcome → ∀ exchange ∈ trace', ¬ Issues exchange := by
    rintro other request' trace' outcome hended ⟨error, rfl, hwithdrawn⟩
    have hexecution := htraced other
    rw [hended] at hexecution
    exact hlawful.not_issues hexecution hwithdrawn
  refine ⟨?_, ?_, ?_, ?_⟩
  · rintro other request' hother hbatch hordinal
      (⟨trace', rest, hother', -⟩ | ⟨trace', outcome, hended, exchange, hmem, hissue⟩)
    · exact hother (hkept.exclusive ⟨trace', rest, hother'⟩ hrunning hbatch)
    · by_cases hsettled : retries.SettledOutcome outcome
      · have hpos := hlawful.ordinal_pos (hkept.admissible hrunning)
        have hlater := hkept.settled hended hsettled
        rw [hbatch, hkept.expected hrunning, hordinal] at hlater
        omega
      · exact hunissued hended (hopened hended hbatch hsettled) exchange hmem hissue
  · have hwritten := written_of_run hplanned hrun index
    rw [hpending] at hwritten
    obtain ⟨later, hlater, hexactly⟩ := hwritten
    rw [WritesExactly, if_pos hwrite] at hexactly
    obtain ⟨remaining, rfl, -⟩ := hexactly
    exact ⟨remaining, hlater⟩
  · intro hordinal
    rw [← hkept.expected hrunning] at hordinal ⊢
    obtain ⟨other, request', trace', outcome, hended, hbatch, hsettled, hnext⟩ :=
      hkept.retried hordinal
    exact ⟨other, request', trace', outcome, hended, hbatch, hnext, hsettled⟩
  · intro other request' trace' outcome hended hbatch
    by_cases hsettled : retries.SettledOutcome outcome
    · exact Or.inl hsettled
    · have hwithdrawn := hopened hended hbatch hsettled
      exact Or.inr ⟨hwithdrawn, hunissued hended hwithdrawn⟩

end Writes

/-! ### Scopes that are worked on in turn -/

section InTurn

variable {retries : Retries σ R ε τ} {procedure : Procedure σ R Q A ε α} {start : σ}
  {Admissible : R → Prop} {Issues : Exchange Q A → Prop} {state next : State σ ι R Q A ε α}

/-- The position of a scope whose turn it is, and the last attempt on a batch. `Valid` holds of every
shared state. -/
structure Turns (σ τ : Type) where
  turn : σ → τ → ℕ
  last : ℕ
  Valid : σ → Prop

/-- A call with this outcome finishes its batch. -/
def Finishes (retries : Retries σ R ε τ) (turns : Turns σ τ) (request : R) (outcome : Except ε α) :
    Prop :=
  (∃ value, outcome = .ok value) ∨
    (retries.SettledOutcome outcome ∧ retries.ordinal request = turns.last)

/-- Whatever calls are made, and in whatever order they go on, a call runs only when every earlier batch
of its scope is finished. -/
def RunsInTurn (retries : Retries σ R ε τ) (turns : Turns σ τ) (procedure : Procedure σ R Q A ε α)
    (start : σ) : Prop :=
  ∀ (ι : Type) [DecidableEq ι] (events : List (Event ι)) (state : State σ ι R Q A ε α),
    Run (Step procedure) (State.initial start) events state →
      ∀ index request, Running state index request →
        ∀ position, 0 < position → position < (retries.batch request).2 →
          ∃ other request' trace outcome, Ended state other request' trace outcome ∧
            retries.batch request' = ((retries.batch request).1, position) ∧
            Finishes retries turns request' outcome

/-- The laws of the turns. -/
structure Turns.Lawful (turns : Turns σ τ) (retries : Retries σ R ε τ)
    (procedure : Procedure σ R Q A ε α) (start : σ) (Admissible : R → Prop) : Prop where
  valid_start : turns.Valid start
  turn_start : ∀ scope, turns.turn start scope ≤ 1
  valid_enter : ∀ {shared request shared'}, procedure.enter shared request = some (.ok shared') →
    turns.Valid shared → turns.Valid shared'
  turn_of_enter : ∀ {shared request shared'},
    procedure.enter shared request = some (.ok shared') →
      turns.turn shared (retries.batch request).1 = (retries.batch request).2
  turn_enter : ∀ {shared request shared'}, procedure.enter shared request = some (.ok shared') →
    turns.turn shared' = turns.turn shared
  valid_leave : ∀ {shared request outcome}, Admissible request → turns.Valid shared →
    turns.turn shared (retries.batch request).1 = (retries.batch request).2 →
      turns.Valid (procedure.leave shared request outcome)
  turn_leave_of_ne : ∀ {shared request outcome scope}, Admissible request → turns.Valid shared →
    scope ≠ (retries.batch request).1 →
      turns.turn (procedure.leave shared request outcome) scope = turns.turn shared scope
  turn_finished : ∀ {shared request outcome}, Admissible request → turns.Valid shared →
    turns.turn shared (retries.batch request).1 = (retries.batch request).2 →
      Finishes retries turns request outcome →
        turns.turn (procedure.leave shared request outcome) (retries.batch request).1 =
          (retries.batch request).2 + 1
  turn_unfinished : ∀ {shared request outcome}, Admissible request → turns.Valid shared →
    turns.turn shared (retries.batch request).1 = (retries.batch request).2 →
      ¬ Finishes retries turns request outcome →
        turns.turn (procedure.leave shared request outcome) (retries.batch request).1 =
          (retries.batch request).2

/-- What holds of the turns in every reachable state. -/
structure KeptTurns (turns : Turns σ τ) (retries : Retries σ R ε τ)
    (state : State σ ι R Q A ε α) : Prop where
  valid : turns.Valid state.shared
  running : ∀ {index request}, Running state index request →
    turns.turn state.shared (retries.batch request).1 = (retries.batch request).2
  finished : ∀ {scope position}, 0 < position → position < turns.turn state.shared scope →
    ∃ index request trace outcome, Ended state index request trace outcome ∧
      retries.batch request = (scope, position) ∧ Finishes retries turns request outcome

variable {turns : Turns σ τ}

theorem KeptTurns.quiet (hturns : KeptTurns turns retries state) (hquiet : Quiet state next) :
    KeptTurns turns retries next := by
  refine ⟨?_, ?_, ?_⟩
  · rw [hquiet.shared]
    exact hturns.valid
  · intro index request hrunning
    rw [hquiet.shared]
    exact hturns.running ((hquiet.running _ _).mp hrunning)
  · intro scope position hpos hposition
    rw [hquiet.shared] at hposition
    obtain ⟨index, request, trace, outcome, hended, hrest⟩ := hturns.finished hpos hposition
    exact ⟨index, request, trace, outcome, (hquiet.ended _ _ _ _).mpr hended, hrest⟩

theorem KeptTurns.entered (hlawful : turns.Lawful retries procedure start Admissible)
    (hturns : KeptTurns turns retries state) {index : ι} {request : R}
    (hentered : Entered procedure state next index request) : KeptTurns turns retries next := by
  have hturn := hlawful.turn_enter hentered.enter
  refine ⟨hlawful.valid_enter hentered.enter hturns.valid, ?_, ?_⟩
  · intro other request' hrunning
    rw [hturn]
    rcases (hentered.running _ _).mp hrunning with ⟨-, rfl⟩ | ⟨-, hbefore⟩
    · exact hlawful.turn_of_enter hentered.enter
    · exact hturns.running hbefore
  · intro scope position hpos hposition
    rw [hturn] at hposition
    obtain ⟨other, request', trace, outcome, hended, hrest⟩ := hturns.finished hpos hposition
    exact ⟨other, request', trace, outcome, (hentered.ended _ _ _ _).mpr hended, hrest⟩

/-- Only one call of a scope runs, so that a call that leaves moves the turn by its own position. -/
theorem KeptTurns.left (hlawful : turns.Lawful retries procedure start Admissible)
    (hkept : Kept retries Admissible state) (hturns : KeptTurns turns retries state) {index : ι}
    {request : R} {trace : List (Exchange Q A)} {outcome : Except ε α}
    (hleft : Left procedure state next index request trace outcome) :
    KeptTurns turns retries next := by
  have hrunning : Running state index request := ⟨trace, _, hleft.was⟩
  have hadmissible := hkept.admissible hrunning
  have hturn := hturns.running hrunning
  refine ⟨?_, ?_, ?_⟩
  · rw [hleft.shared]
    exact hlawful.valid_leave hadmissible hturns.valid hturn
  · intro other request' hother
    obtain ⟨hne, hbefore⟩ := (hleft.running _ _).mp hother
    have hscope : (retries.batch request').1 ≠ (retries.batch request).1 := by
      intro hscope
      have hposition := hturns.running hbefore
      rw [hscope, hturn] at hposition
      exact hne (hkept.exclusive hbefore hrunning (Prod.ext hscope hposition.symm))
    rw [hleft.shared, hlawful.turn_leave_of_ne hadmissible hturns.valid hscope]
    exact hturns.running hbefore
  · intro scope position hpos hposition
    have hbefore : position < turns.turn state.shared scope →
        ∃ index request trace outcome, Ended next index request trace outcome ∧
          retries.batch request = (scope, position) ∧ Finishes retries turns request outcome := by
      intro hearlier
      obtain ⟨other, request', trace', outcome', hended, hrest⟩ := hturns.finished hpos hearlier
      exact ⟨other, request', trace', outcome', (hleft.ended _ _ _ _).mpr (Or.inr hended), hrest⟩
    rw [hleft.shared] at hposition
    by_cases hscope : scope = (retries.batch request).1
    · subst hscope
      by_cases hfinishes : Finishes retries turns request outcome
      · rw [hlawful.turn_finished hadmissible hturns.valid hturn hfinishes] at hposition
        by_cases hlast : position = (retries.batch request).2
        · subst hlast
          exact ⟨index, request, trace, outcome,
            (hleft.ended _ _ _ _).mpr (Or.inl ⟨rfl, rfl, rfl, rfl⟩), rfl, hfinishes⟩
        · exact hbefore (by omega)
      · rw [hlawful.turn_unfinished hadmissible hturns.valid hturn hfinishes, ← hturn] at hposition
        exact hbefore hposition
    · rw [hlawful.turn_leave_of_ne hadmissible hturns.valid hscope] at hposition
      exact hbefore hposition

/-- The calls and the turns of a run. -/
structure KeptBoth (turns : Turns σ τ) (retries : Retries σ R ε τ) (Admissible : R → Prop)
    (state : State σ ι R Q A ε α) : Prop where
  kept : Kept retries Admissible state
  turns : KeptTurns turns retries state

/-- In every state of a run, a call that runs comes after every earlier batch of its scope. -/
theorem inTurn_of_run [DecidableEq ι] (hlawful : retries.Lawful procedure start Admissible Issues)
    (hturns : turns.Lawful retries procedure start Admissible) {events : List (Event ι)}
    (hrun : Run (Step procedure) (State.initial start : State σ ι R Q A ε α) events state)
    {index : ι} {request : R} (hrunning : Running state index request) {position : ℕ}
    (hpos : 0 < position) (hposition : position < (retries.batch request).2) :
    ∃ other request' trace outcome, Ended state other request' trace outcome ∧
      retries.batch request' = ((retries.batch request).1, position) ∧
      Finishes retries turns request' outcome := by
  have hinitial : KeptTurns turns retries (State.initial start : State σ ι R Q A ε α) := by
    refine ⟨hturns.valid_start, ?_, fun {scope position} hpos hposition ↦ ?_⟩
    · rintro index request ⟨trace, rest, hrunning⟩
      cases hrunning
    · have hfirst := hturns.turn_start scope
      have hlater : position < turns.turn start scope := hposition
      omega
  have hboth : KeptBoth turns retries Admissible state := by
    refine hrun.invariant ⟨Kept.initial hlawful, hinitial⟩ ?_
    rintro state event next ⟨hkept, hbefore⟩ hstep
    rcases hstep.effect with hquiet | ⟨index, request, hentered⟩ |
      ⟨index, request, trace, outcome, hleft⟩
    · exact ⟨hkept.quiet hquiet, hbefore.quiet hquiet⟩
    · exact ⟨hkept.entered hlawful hentered, hbefore.entered hturns hentered⟩
    · exact ⟨hkept.left hlawful hleft, hbefore.left hturns hkept hleft⟩
  rw [← hboth.turns.running hrunning] at hposition
  exact hboth.turns.finished hpos hposition

end InTurn

end Oamb.Foundation.RetryDiscipline
