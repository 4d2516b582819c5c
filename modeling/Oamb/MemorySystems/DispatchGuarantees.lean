import Oamb.MemorySystems.HindsightIngest
import Oamb.MemorySystems.Mem0Ingest
import Oamb.MemorySystems.OpenVikingSessions

/-!
# Dispatches are at most once and ordered

However the calls of an adapter interleave, a write that is pending is the only one of its attempt; an
attempt after the first follows a settled failure of the one before; and no attempt on the dispatch
ended otherwise, unless it wrote nothing. In Mem0 and in OpenViking every earlier source of the plan is
accepted or skipped by then (`ingestionWrites_orderly`). In OpenViking this rests on the digests of the
sessions, which are assumed to be distinct.
-/

set_option autoImplicit false

namespace Oamb.MemorySystems.DispatchGuarantees

open Foundation Foundation.Dialogue Foundation.ConcurrentCalls Foundation.RetryDiscipline
open Foundation.LabelledRuns RestClient OpenVikingIngest

/-- In every run of an adapter its writes are orderly, and Mem0 and OpenViking go on to a source only
after all earlier ones. -/
theorem ingestionWrites_orderly (mem0 : Mem0Ingest.Settings) (hindsight : HindsightIngest.Settings)
    (openviking : OpenVikingSessions.AdapterSettings)
    (hdigest : Function.Injective openviking.digest) :
    (OrderlyWrites (bookRetries mem0.scopes Mem0Ingest.Adapter.book) (Mem0Ingest.procedure mem0)
        Mem0Ingest.Adapter.initial Issues IsWrite (Mem0Ingest.plannedWrites mem0) ∧
      RunsInTurn (bookRetries mem0.scopes Mem0Ingest.Adapter.book) Mem0Ingest.turns
        (Mem0Ingest.procedure mem0) Mem0Ingest.Adapter.initial) ∧
    OrderlyWrites (bookRetries hindsight.scopes id) (HindsightIngest.procedure hindsight)
      AttemptBook.initial Issues IsWrite (HindsightIngest.plannedWrites hindsight) ∧
    (OrderlyWrites (OpenVikingSessions.retries openviking) (OpenVikingSessions.procedure openviking)
        OpenVikingSessions.Adapter.initial Issues IsWrite
        (OpenVikingSessions.plannedWrites openviking) ∧
      RunsInTurn (OpenVikingSessions.retries openviking) (OpenVikingSessions.turns openviking)
        (OpenVikingSessions.procedure openviking) OpenVikingSessions.Adapter.initial) := by
  refine ⟨⟨?_, ?_⟩, ?_, ?_, ?_⟩
  · intro ι _ events state hrun index request trace query next hpending hwrite
    exact orderly_of_run Mem0Ingest.retries_lawful (fun _ ↦ Mem0Ingest.writesExactly_body) hrun
      hpending hwrite
  · intro ι _ events state hrun index request hrunning position hpos hposition
    exact inTurn_of_run Mem0Ingest.retries_lawful Mem0Ingest.turns_lawful hrun hrunning hpos
      hposition
  · intro ι _ events state hrun index request trace query next hpending hwrite
    exact orderly_of_run HindsightIngest.retries_lawful
      (fun _ ↦ HindsightIngest.writesExactly_body) hrun hpending hwrite
  · intro ι _ events state hrun index request trace query next hpending hwrite
    exact orderly_of_run (OpenVikingSessions.retries_lawful hdigest)
      (fun _ ↦ OpenVikingSessions.writesExactly_body) hrun hpending hwrite
  · intro ι _ events state hrun index request hrunning position hpos hposition
    exact inTurn_of_run (OpenVikingSessions.retries_lawful hdigest)
      (OpenVikingSessions.turns_lawful hdigest) hrun hrunning hpos hposition

/-! ### A sample -/

/-- A text of which no other text is the beginning. -/
def delimited : List Char → List Char
  | [] => ['|']
  | character :: rest => '.' :: character :: delimited rest

theorem delimited_append_inj {text other rest rest' : List Char}
    (hsame : delimited text ++ rest = delimited other ++ rest') : text = other ∧ rest = rest' := by
  induction text generalizing other with
  | nil =>
    cases other with
    | nil => exact ⟨rfl, List.append_cancel_left hsame⟩
    | cons character later => cases (List.cons.inj hsame).1
  | cons character later ih =>
    cases other with
    | nil => cases (List.cons.inj hsame).1
    | cons character' later' =>
      simp only [delimited, List.cons_append, List.cons.injEq, true_and] at hsame
      obtain ⟨rfl, hlater⟩ := hsame
      obtain ⟨rfl, hrest⟩ := ih hlater
      exact ⟨rfl, hrest⟩

theorem delimited_append_ne_nil (text rest : List Char) : delimited text ++ rest ≠ [] := by
  cases text with
  | nil => exact List.cons_ne_nil _ _
  | cons character later => exact List.cons_ne_nil _ _

theorem flatMap_delimited_injective :
    Function.Injective fun parts : List String ↦ parts.flatMap fun part ↦ delimited part.toList := by
  intro parts
  induction parts with
  | nil =>
    rintro (_ | ⟨part, rest⟩) hsame
    · rfl
    · exact absurd hsame.symm (delimited_append_ne_nil _ _)
  | cons part rest ih =>
    rintro (_ | ⟨part', rest'⟩) hsame
    · exact absurd hsame (delimited_append_ne_nil _ _)
    · obtain ⟨hpart, hrest⟩ := delimited_append_inj hsame
      rw [String.toList_inj.mp hpart, ih hrest]

/-- The parts of the identity of the sample's session. -/
def sampleParts : List String := ["oamb-openviking-native-session-v2", "occurrence", "source"]

/-- The digest of the sample's parts. -/
def sampleHex : String := "749118dda2b229d8d2e548bfff99597b7f211cdaa6bedd1917ddaf2d4389f9d0"

/-- The digest of the sample's parts, and texts of other parts. -/
def sampleDigest (parts : List String) : String :=
  if parts = sampleParts then sampleHex
  else String.ofList (parts.flatMap fun part ↦ delimited part.toList)

theorem flatMap_delimited_ne (parts : List String) :
    (parts.flatMap fun part ↦ delimited part.toList) ≠ sampleHex.toList := by
  have hhex : sampleHex.toList.head? = some '7' := rfl
  intro hsame
  rw [← hsame] at hhex
  rcases parts with _ | ⟨part, rest⟩
  · cases hhex
  · rw [List.flatMap_cons] at hhex
    cases hpart : part.toList with
    | nil =>
      simp only [hpart, delimited, List.cons_append, List.head?_cons, Option.some.injEq] at hhex
      exact absurd hhex (by decide)
    | cons character later =>
      simp only [hpart, delimited, List.cons_append, List.head?_cons, Option.some.injEq] at hhex
      exact absurd hhex (by decide)

theorem sampleDigest_ne {parts : List String} (hparts : parts ≠ sampleParts) :
    sampleDigest parts ≠ sampleDigest sampleParts := by
  intro hsame
  rw [sampleDigest, sampleDigest, if_neg hparts, if_pos rfl] at hsame
  refine flatMap_delimited_ne parts ?_
  rw [← hsame, String.toList_ofList]

theorem sampleDigest_injective : Function.Injective sampleDigest := by
  intro parts parts' hsame
  by_cases hparts : parts = sampleParts
  · by_contra hne
    rw [hparts] at hsame hne
    exact sampleDigest_ne (Ne.symm hne) hsame.symm
  · by_cases hparts' : parts' = sampleParts
    · rw [hparts'] at hsame
      exact absurd hsame (sampleDigest_ne hparts)
    · rw [sampleDigest, sampleDigest, if_neg hparts, if_neg hparts'] at hsame
      exact flatMap_delimited_injective (String.ofList_injective hsame)

def sampleSource : SourceUnit := ⟨"source", 1, [], none, none, []⟩

def sampleDispatch : IngestionDispatch :=
  ⟨1, "openviking_session_commit", "fingerprint", [sampleSource]⟩

def samplePlan : OpenVikingSessions.SessionPlan sampleDigest "occurrence" :=
  OpenVikingSessions.planSources sampleDigest (fun _ _ ↦ "fingerprint") (fun _ ↦ []) "occurrence"
    [sampleSource] (List.nodup_singleton _)

/-- Where the memory of an occurrence is. -/
def sampleRoot (ingestionOccurrenceId : String) : String :=
  "viking://user/" ++ ingestionOccurrenceId ++ "/memories"

/-- The sample's scope is that of its occurrence. -/
def sampleScopes (scopeId : String) : Option (OpenVikingSessions.SessionScope sampleDigest) :=
  if scopeId = sampleRoot "occurrence" then some ⟨"occurrence", some samplePlan⟩ else none

theorem sampleRoot_of_scope (scopeId : String)
    (scope : OpenVikingSessions.SessionScope sampleDigest)
    (hscope : sampleScopes scopeId = some scope) :
    scopeId = sampleRoot scope.ingestionOccurrenceId := by
  unfold sampleScopes at hscope
  split_ifs at hscope with hsame
  cases hscope
  exact hsame

/-- The identity of the sample's session. -/
def sampleSessionId : String := "oamb-" ++ sampleHex

/-- The document that there is no session yet. -/
def sampleAbsence : Json := .object
  [("status", .string "error"),
    ("error", .object
      [("code", .string "NOT_FOUND"),
        ("message", .string ("Session " ++ sampleSessionId ++ " not found")), ("details", .null)])]

/-- An adapter with one scope, whose sessions do not exist yet. -/
def sampleAdapter : OpenVikingSessions.AdapterSettings where
  digest := sampleDigest
  memoryRoot := sampleRoot
  scopes := sampleScopes
  roots := sampleRoot_of_scope
  parse := fun _ ↦ some sampleAbsence
  canonicalTimestamp := fun _ ↦ .ok "2026-01-01T00:00:00Z"
  polling := ⟨3, 1, 60, some 10⟩

/-- The first attempt on the sample's source. -/
def sampleRequest : IngestionDispatchRequest :=
  ⟨sampleRoot "occurrence", "occurrence", "attempt", sampleDispatch, 1, by decide⟩

/-- The answer that there is no session yet. -/
def sampleExit : Exit :=
  .callFailure ⟨"memory-system returned HTTP 404", "http_status", some "absence", some [], some 404⟩

/-- Adapters of the other systems that have no scope. -/
def sampleMem0 : Mem0Ingest.Settings :=
  ⟨fun _ ↦ none, fun _ _ ↦ [], fun _ ↦ false, fun _ _ _ ↦ none, some 0⟩

def sampleHindsight : HindsightIngest.Settings :=
  ⟨fun _ ↦ none, fun _ _ _ ↦ "fingerprint", fun _ ↦ none, fun _ _ _ ↦ false, fun _ _ _ ↦ none,
    some 0⟩

/-- In the run that looks for the sample's session, the write that creates it is orderly. -/
theorem ingestionWrites_orderly_of_create : ∃ state next,
    Run (Step (OpenVikingSessions.procedure sampleAdapter))
        (State.initial OpenVikingSessions.Adapter.initial : State _ ℕ _ _ _ _ _)
        [.start 0, .answer 0] state ∧
      state.calls 0 = .running sampleRequest [⟨.request (sessionCall sampleSessionId), sampleExit⟩]
        (.ask (.request (createCall sampleSessionId)) next) ∧
      Orderly (OpenVikingSessions.retries sampleAdapter) Issues IsWrite
        (OpenVikingSessions.plannedWrites sampleAdapter) state 0 sampleRequest
        [⟨.request (sessionCall sampleSessionId), sampleExit⟩]
        (.request (createCall sampleSessionId)) := by
  have henter : ∃ adapter, (OpenVikingSessions.procedure sampleAdapter).enter
      (State.initial OpenVikingSessions.Adapter.initial : State _ ℕ IngestionDispatchRequest Query
        Answer IngestError CompletedSession).shared sampleRequest = some (.ok adapter) :=
    ⟨_, rfl⟩
  obtain ⟨adapter, henter⟩ := henter
  have hidle : (State.initial OpenVikingSessions.Adapter.initial : State _ ℕ
      IngestionDispatchRequest Query Answer IngestError CompletedSession).calls 0 = .idle :=
    rfl
  have hfirst := Run.nil.snoc (Step.start hidle henter)
  have hsecond := hfirst.snoc (.answer sampleExit (State.moved_self 0 _))
  refine ⟨_, _, hsecond, rfl, ?_⟩
  exact (ingestionWrites_orderly sampleMem0 sampleHindsight sampleAdapter
    sampleDigest_injective).2.2.1 ℕ _ _ hsecond 0 _ _ _ _ rfl rfl

end Oamb.MemorySystems.DispatchGuarantees
