import Mathlib.Tactic.Linarith

/-!
# Recorded times

The state of a native run hands out the times that its records state. With live timing a time is the
reading of the wall clock, but at least a floor: the start of the run and one microsecond for each
time before. The floor does not follow the readings. A reading below an earlier one is handed out
when it lies above the floor, and a receipt, an attempt, a resource interval or a history attempt
that begins with the earlier one and ends with the later one is refused.

`timesHold_iff` is the exact condition on the readings of a run for which its times never decrease;
then no record is refused for its times.
-/

set_option autoImplicit false

namespace Oamb.Runtime.RecordedTimes

/-- A time in microseconds. -/
abbrev Instant := ℤ

/-- The part of the state of a native run that times depend on. -/
structure ExecutionClock where
  startedAt : Instant
  liveTiming : Bool
  sequence : ℕ
  deriving DecidableEq

/-- The next time, for a reading of the wall clock. -/
def timestamp (clock : ExecutionClock) (reading : Instant) : Instant × ExecutionClock :=
  let sequence := clock.sequence + 1
  let deterministicFloor := clock.startedAt + sequence
  (if clock.liveTiming then max reading deterministicFloor else deterministicFloor,
    { clock with sequence := sequence })

/-- The next monotonic time. Without live timing it is counted like the other times. -/
def monotonic (clock : ExecutionClock) : ExecutionClock :=
  if clock.liveTiming then clock else { clock with sequence := clock.sequence + 1 }

/-! ### The checks of the records -/

/-- The check that an interval does not end before it starts. -/
def intervalTimes (message : String) (startedAt endedAt : Instant) : Except String Unit :=
  if endedAt < startedAt then .error message else .ok ()

/-- A duration is stated in seconds, as a decimal that is not negative. -/
def elapsedSeconds (startedAt endedAt : Instant) : Except String Unit :=
  if endedAt - startedAt < 0 then .error "decimal must be non-negative" else .ok ()

def receiptTimes (dispatchStartedAt receiptObservedAt : Instant) : Except String Unit := do
  elapsedSeconds dispatchStartedAt receiptObservedAt
  intervalTimes "receipt observation precedes dispatch" dispatchStartedAt receiptObservedAt

def attemptTimes : Instant → Instant → Except String Unit :=
  intervalTimes "attempt end precedes start"

def resourceTimes (startedAt endedAt : Instant) : Except String Unit := do
  elapsedSeconds startedAt endedAt
  intervalTimes "resource interval end precedes start" startedAt endedAt

def historyTimes : Instant → Instant → Except String Unit :=
  intervalTimes "history attempt end precedes its start"

/-- The records of an attempt that ends: its receipt, its terminal record and its resource usage. -/
def sealAttempt (startedAt endedAt : Instant) : Except String Unit := do
  receiptTimes startedAt endedAt
  attemptTimes startedAt endedAt
  resourceTimes startedAt endedAt

/-! ### Runs -/

/-- What a run takes times for. A run starts and ends attempts and history attempts; all other
records state one time, and the record of the run states its start and a time without a check. -/
inductive TimedEvent (κ : Type)
  | stamp (reading : Instant)
  | monotonic
  | starts (interval : κ) (reading : Instant)
  | attemptEnds (interval : κ) (reading : Instant)
  | historyEnds (interval : κ) (reading : Instant)
  | runEnds (reading : Instant)

variable {κ : Type}

/-- The reading of the wall clock that an event takes. -/
def reading? : TimedEvent κ → Option Instant
  | .stamp reading => some reading
  | .monotonic => none
  | .starts _ reading => some reading
  | .attemptEnds _ reading => some reading
  | .historyEnds _ reading => some reading
  | .runEnds reading => some reading

/-- The times that a run has taken and the results of its sealings. -/
structure TimedRun (κ : Type) where
  clock : ExecutionClock
  started : κ → Option Instant
  stamps : List Instant
  sealings : List (Except String Unit)

/-- A run that has taken no time. -/
def TimedRun.initial (κ : Type) (clock : ExecutionClock) : TimedRun κ :=
  ⟨clock, fun _ ↦ none, [], []⟩

/-- The next time of a run. -/
def TimedRun.next (run : TimedRun κ) (reading : Instant) : Instant :=
  (timestamp run.clock reading).1

/-- The run after it took a time and sealed records. -/
def TimedRun.take (run : TimedRun κ) (reading : Instant) (sealings : List (Except String Unit)) :
    TimedRun κ :=
  { run with
    clock := (timestamp run.clock reading).2
    stamps := run.stamps ++ [run.next reading]
    sealings := run.sealings ++ sealings }

/-- One event of a run. Only an interval that has started ends. -/
def step [DecidableEq κ] (run : TimedRun κ) : TimedEvent κ → Option (TimedRun κ)
  | .stamp reading => some (run.take reading [])
  | .monotonic => some { run with clock := monotonic run.clock }
  | .starts interval reading =>
    some { run.take reading [] with
      started := Function.update run.started interval (some (run.next reading)) }
  | .attemptEnds interval reading =>
    (run.started interval).map fun startedAt ↦
      run.take reading [sealAttempt startedAt (run.next reading)]
  | .historyEnds interval reading =>
    (run.started interval).map fun startedAt ↦
      run.take reading [historyTimes startedAt (run.next reading)]
  | .runEnds reading => some (run.take reading [.ok ()])

/-- The times never decrease, and no sealing is refused for its times. -/
structure TimesHold (run : TimedRun κ) : Prop where
  ordered : run.stamps.Pairwise fun earlier later ↦ earlier ≤ later
  accepted : ∀ sealing ∈ run.sealings, sealing = .ok ()

/-- No reading of a live run is below an earlier one, unless its own floor reaches the earlier
one. -/
def ReadingsHold (clock : ExecutionClock) (events : List (TimedEvent κ)) : Prop :=
  clock.liveTiming = true →
    ((events.filterMap reading?).zipIdx (clock.sequence + 1)).Pairwise fun earlier later ↦
      earlier.1 ≤ max later.1 (clock.startedAt + later.2)

/-! ### The records of ordered times -/

theorem intervalTimes_eq_ok {message : String} {startedAt endedAt : Instant}
    (horder : startedAt ≤ endedAt) : intervalTimes message startedAt endedAt = .ok () :=
  if_neg (not_lt.mpr horder)

theorem elapsedSeconds_eq_ok {startedAt endedAt : Instant} (horder : startedAt ≤ endedAt) :
    elapsedSeconds startedAt endedAt = .ok () :=
  if_neg (not_lt.mpr (sub_nonneg.mpr horder))

theorem sealAttempt_eq_ok {startedAt endedAt : Instant} (horder : startedAt ≤ endedAt) :
    sealAttempt startedAt endedAt = .ok () := by
  simp only [sealAttempt, receiptTimes, attemptTimes, resourceTimes,
    elapsedSeconds_eq_ok horder, intervalTimes_eq_ok horder]
  rfl

/-- Intervals start with times of the run, and sealings are accepted while the times are ordered. -/
structure Recorded (run : TimedRun κ) : Prop where
  started : ∀ interval startedAt, run.started interval = some startedAt → startedAt ∈ run.stamps
  accepted : (run.stamps.Pairwise fun earlier later ↦ earlier ≤ later) →
    ∀ sealing ∈ run.sealings, sealing = .ok ()

theorem Recorded.take {run : TimedRun κ} (hrecorded : Recorded run) (reading : Instant)
    {sealings : List (Except String Unit)}
    (haccepted : (∀ stamp ∈ run.stamps, stamp ≤ run.next reading) →
      ∀ sealing ∈ sealings, sealing = .ok ()) : Recorded (run.take reading sealings) := by
  constructor
  · intro interval startedAt hstarted
    exact List.mem_append_left _ (hrecorded.started interval startedAt hstarted)
  · intro hordered sealing hsealing
    obtain ⟨hearlier, _, hlast⟩ := List.pairwise_append.mp hordered
    rcases List.mem_append.mp hsealing with hold | hnew
    · exact hrecorded.accepted hearlier sealing hold
    · exact haccepted (fun stamp hstamp ↦ hlast stamp hstamp _ (List.mem_singleton_self _))
        sealing hnew

theorem Recorded.step [DecidableEq κ] {run next : TimedRun κ} {event : TimedEvent κ} (hrecorded : Recorded run)
    (hstep : step run event = some next) : Recorded next := by
  cases event with
  | stamp reading =>
    cases hstep
    exact hrecorded.take reading fun _ _ hnone ↦ absurd hnone List.not_mem_nil
  | monotonic =>
    cases hstep
    exact ⟨hrecorded.started, hrecorded.accepted⟩
  | starts interval reading =>
    cases hstep
    have htaken : Recorded (run.take reading []) :=
      hrecorded.take reading fun _ _ hnone ↦ absurd hnone List.not_mem_nil
    refine ⟨fun other startedAt hstarted ↦ ?_, htaken.accepted⟩
    by_cases hother : other = interval
    · subst hother
      have hnew : some (run.next reading) = some startedAt := by
        simpa only [Function.update_self] using hstarted
      rw [← Option.some.inj hnew]
      exact List.mem_append_right _ (List.mem_singleton_self _)
    · exact htaken.started other startedAt
        ((Function.update_of_ne hother _ _).symm.trans hstarted)
  | attemptEnds interval reading =>
    obtain ⟨startedAt, hstarted, rfl⟩ := Option.map_eq_some_iff.mp hstep
    refine hrecorded.take reading fun hlast sealing hsealing ↦ ?_
    rw [List.mem_singleton.mp hsealing]
    exact sealAttempt_eq_ok (hlast startedAt (hrecorded.started interval startedAt hstarted))
  | historyEnds interval reading =>
    obtain ⟨startedAt, hstarted, rfl⟩ := Option.map_eq_some_iff.mp hstep
    refine hrecorded.take reading fun hlast sealing hsealing ↦ ?_
    rw [List.mem_singleton.mp hsealing]
    exact intervalTimes_eq_ok (hlast startedAt (hrecorded.started interval startedAt hstarted))
  | runEnds reading =>
    cases hstep
    exact hrecorded.take reading fun _ sealing hsealing ↦ List.mem_singleton.mp hsealing

theorem recorded_initial (clock : ExecutionClock) : Recorded (TimedRun.initial κ clock) :=
  ⟨fun _ _ hstarted ↦ absurd hstarted (Option.some_ne_none _).symm,
    fun _ _ hsealing ↦ absurd hsealing List.not_mem_nil⟩

/-- What a run records, it records with its own times. -/
theorem recorded_of_run [DecidableEq κ] (events : List (TimedEvent κ)) :
    ∀ {run final : TimedRun κ}, Recorded run → events.foldlM step run = some final →
      Recorded final := by
  induction events with
  | nil =>
    intro run final hrecorded hrun
    cases hrun
    exact hrecorded
  | cons event events hind =>
    intro run final hrecorded hrun
    obtain ⟨next, hstep, hrest⟩ := Option.bind_eq_some_iff.mp hrun
    exact hind (hrecorded.step hstep) hrest

/-! ### The times of a run -/

/-- The time and the clock that an event leaves, when it reads the wall clock. -/
theorem stamps_of_step [DecidableEq κ] {run next : TimedRun κ} {event : TimedEvent κ}
    (hstep : step run event = some next) :
    (∃ reading, reading? event = some reading ∧
      next.stamps = run.stamps ++ [run.next reading] ∧
      next.clock = { run.clock with sequence := run.clock.sequence + 1 }) ∨
    (reading? event = none ∧ next.stamps = run.stamps ∧ next.clock = monotonic run.clock) := by
  cases event with
  | stamp reading =>
    cases hstep
    exact Or.inl ⟨reading, rfl, rfl, rfl⟩
  | monotonic =>
    cases hstep
    exact Or.inr ⟨rfl, rfl, rfl⟩
  | starts interval reading =>
    cases hstep
    exact Or.inl ⟨reading, rfl, rfl, rfl⟩
  | attemptEnds interval reading =>
    obtain ⟨startedAt, _, rfl⟩ := Option.map_eq_some_iff.mp hstep
    exact Or.inl ⟨reading, rfl, rfl, rfl⟩
  | historyEnds interval reading =>
    obtain ⟨startedAt, _, rfl⟩ := Option.map_eq_some_iff.mp hstep
    exact Or.inl ⟨reading, rfl, rfl, rfl⟩
  | runEnds reading =>
    cases hstep
    exact Or.inl ⟨reading, rfl, rfl, rfl⟩

/-- With live timing the times are the readings, each raised to its own floor. -/
theorem stamps_of_live [DecidableEq κ] (events : List (TimedEvent κ)) :
    ∀ {run final : TimedRun κ}, run.clock.liveTiming = true →
      events.foldlM step run = some final →
      final.stamps = run.stamps ++
        ((events.filterMap reading?).zipIdx (run.clock.sequence + 1)).map fun drawn ↦
          max drawn.1 (run.clock.startedAt + drawn.2) := by
  induction events with
  | nil =>
    intro run final _ hrun
    cases hrun
    simp
  | cons event events hind =>
    intro run final hlive hrun
    obtain ⟨next, hstep, hrest⟩ := Option.bind_eq_some_iff.mp hrun
    rcases stamps_of_step hstep with ⟨reading, hreading, hstamps, hclock⟩ |
      ⟨hreading, hstamps, hclock⟩
    · have hnext : run.next reading =
          max reading (run.clock.startedAt + ((run.clock.sequence + 1 : ℕ) : ℤ)) := by
        simp only [TimedRun.next, timestamp, hlive, if_true]
      rw [hind (by rw [hclock]; exact hlive) hrest, hstamps, hclock, hnext,
        List.filterMap_cons_some hreading, List.zipIdx_cons, List.map_cons, List.append_assoc]
      rfl
    · have hsame : next.clock = run.clock := by
        rw [hclock, monotonic, if_pos hlive]
      rw [hind (by rw [hsame]; exact hlive) hrest, hstamps, hsame,
        List.filterMap_cons_none hreading]

/-- Without live timing the times are counted. -/
theorem ordered_of_counted [DecidableEq κ] (events : List (TimedEvent κ)) :
    ∀ {run final : TimedRun κ}, run.clock.liveTiming = false →
      (run.stamps.Pairwise fun earlier later ↦ earlier ≤ later) →
      (∀ stamp ∈ run.stamps, stamp ≤ run.clock.startedAt + run.clock.sequence) →
      events.foldlM step run = some final →
      final.stamps.Pairwise fun earlier later ↦ earlier ≤ later := by
  induction events with
  | nil =>
    intro run final _ hordered _ hrun
    cases hrun
    exact hordered
  | cons event events hind =>
    intro run final hcounted hordered hbound hrun
    obtain ⟨next, hstep, hrest⟩ := Option.bind_eq_some_iff.mp hrun
    rcases stamps_of_step hstep with ⟨reading, _, hstamps, hclock⟩ | ⟨_, hstamps, hclock⟩
    · have hnext : run.next reading =
          run.clock.startedAt + ((run.clock.sequence + 1 : ℕ) : ℤ) := by
        simp only [TimedRun.next, timestamp, hcounted, Bool.false_eq_true, if_false]
      refine hind (by rw [hclock]; exact hcounted) ?_ ?_ hrest
      · rw [hstamps, hnext]
        refine List.pairwise_append.mpr ⟨hordered, List.pairwise_singleton _ _, ?_⟩
        intro stamp hstamp last hlast
        have hearlier := hbound stamp hstamp
        rw [List.mem_singleton.mp hlast]
        push_cast
        linarith
      · intro stamp hstamp
        rw [hstamps, hnext] at hstamp
        rw [hclock]
        push_cast at hstamp ⊢
        rcases List.mem_append.mp hstamp with hold | hnew
        · have hearlier := hbound stamp hold
          linarith
        · rw [List.mem_singleton.mp hnew]
    · have hsequence : run.clock.startedAt = next.clock.startedAt ∧
          run.clock.sequence ≤ next.clock.sequence ∧ next.clock.liveTiming = false := by
        rw [hclock, monotonic, if_neg (by simp [hcounted])]
        exact ⟨rfl, Nat.le_succ _, hcounted⟩
      refine hind hsequence.2.2 (hstamps ▸ hordered) ?_ hrest
      intro stamp hstamp
      have hearlier := hbound stamp (hstamps ▸ hstamp)
      have hmore : (run.clock.sequence : ℤ) ≤ next.clock.sequence := Int.ofNat_le.mpr hsequence.2.1
      rw [← hsequence.1]
      linarith

/-- The floors of later times are higher, so only the readings decide on the order. -/
theorem pairwise_floored_iff (startedAt : Instant) (readings : List Instant) :
    ∀ first : ℕ, (((readings.zipIdx first).map fun drawn ↦
        max drawn.1 (startedAt + drawn.2)).Pairwise fun earlier later ↦ earlier ≤ later) ↔
      (readings.zipIdx first).Pairwise fun earlier later ↦
        earlier.1 ≤ max later.1 (startedAt + later.2) := by
  induction readings with
  | nil =>
    intro first
    simp
  | cons reading readings hind =>
    intro first
    rw [List.zipIdx_cons, List.map_cons, List.pairwise_cons, List.pairwise_cons, hind]
    refine and_congr_left fun _ ↦ ?_
    rw [List.forall_mem_map]
    refine forall₂_congr fun drawn hdrawn ↦ ?_
    have hlater : first + 1 ≤ drawn.2 := List.le_snd_of_mem_zipIdx hdrawn
    constructor
    · intro hle
      exact (le_max_left _ _).trans hle
    · intro hle
      have hhigher : (first : ℤ) ≤ drawn.2 := by omega
      refine max_le hle (le_max_of_le_right ?_)
      linarith

/-- The times of a run never decrease and are accepted by its records exactly when no reading of a
live run is below an earlier one without its own floor reaching the earlier one. -/
theorem timesHold_iff [DecidableEq κ] (clock : ExecutionClock) (events : List (TimedEvent κ))
    (run : TimedRun κ) (hrun : events.foldlM step (TimedRun.initial κ clock) = some run) :
    TimesHold run ↔ ReadingsHold clock events := by
  have hrecorded := recorded_of_run events (recorded_initial clock) hrun
  have hordered : (run.stamps.Pairwise fun earlier later ↦ earlier ≤ later) ↔
      ReadingsHold clock events := by
    cases htiming : clock.liveTiming with
    | true =>
      rw [stamps_of_live events htiming hrun]
      refine (pairwise_floored_iff clock.startedAt _ _).trans ?_
      exact ⟨fun hreadings _ ↦ hreadings, fun hreadings ↦ hreadings htiming⟩
    | false =>
      refine ⟨fun _ hlive ↦ ?_, fun _ ↦ ?_⟩
      · rw [htiming] at hlive
        cases hlive
      · exact ordered_of_counted events htiming List.Pairwise.nil
          (fun _ hstamp ↦ absurd hstamp List.not_mem_nil) hrun
  exact ⟨fun hholds ↦ hordered.mp hholds.ordered, fun hreadings ↦
    ⟨hordered.mpr hreadings, hrecorded.accepted (hordered.mpr hreadings)⟩⟩

/-! ### A clock that is set back -/

/-- An attempt that starts ten seconds after its run and whose receipt is observed when the wall
clock reads one second less. -/
def setBackEvents : List (TimedEvent Unit) := [.starts () 10000000, .attemptEnds () 9000000]

/-- An attempt whose readings are in order. -/
def orderedEvents : List (TimedEvent Unit) := [.starts () 10000000, .attemptEnds () 10250000]

def liveClock : ExecutionClock := ⟨0, true, 0⟩

theorem timesHold_of_orderedEvents :
    ∃ run, orderedEvents.foldlM step (TimedRun.initial Unit liveClock) = some run ∧
      TimesHold run := by
  refine ⟨_, rfl, (timesHold_iff liveClock orderedEvents _ rfl).mpr ?_⟩
  intro _
  decide

theorem receipt_refused_of_setBackEvents :
    ∃ run, setBackEvents.foldlM step (TimedRun.initial Unit liveClock) = some run ∧
      run.stamps = [10000000, 9000000] ∧
      run.sealings = [.error "decimal must be non-negative"] ∧ ¬ TimesHold run := by
  refine ⟨_, rfl, rfl, rfl, fun hholds ↦ ?_⟩
  have hrefused := hholds.accepted (.error "decimal must be non-negative") (by decide)
  cases hrefused

end Oamb.Runtime.RecordedTimes
