import Mathlib.Data.List.Dedup
import Oamb.Artifacts.OpenVikingTraces

/-!
# Reading the evidence of sessions

What a reference adds to what was shown does not depend on what was shown before, as long as no
session and no task is shown twice. `Readable` says so of a reference and of what it adds, and
`foldlM_readReference` reads a list of such references.
-/

set_option autoImplicit false

namespace Oamb.Artifacts.OpenVikingReadings

open Foundation MemorySystems
open OpenVikingIngest OpenVikingGuarantees OpenVikingEvidence OpenVikingTraces

/-! ### Lists -/

@[simp]
theorem mem_fromKeys {texts : List String} {text : String} :
    text ∈ fromKeys texts ↔ text ∈ texts := by
  rw [fromKeys, List.mem_reverse, List.mem_dedup, List.mem_reverse]

theorem nodup_fromKeys (texts : List String) : (fromKeys texts).Nodup :=
  List.nodup_reverse.mpr (List.nodup_dedup _)

/-- The attempt on a session that stands once. -/
theorem attempt_eq_some {expected : Expected} {sessionId attemptId : String}
    (hunique : (expected.map Prod.fst).Nodup) (hmem : (sessionId, attemptId) ∈ expected) :
    expected.attempt sessionId = some attemptId := by
  unfold Expected.attempt
  cases hfind : expected.reverse.find? fun entry ↦ entry.1 = sessionId with
  | none =>
    have hnone := List.find?_eq_none.mp hfind _ (List.mem_reverse.mpr hmem)
    simp only [decide_true, not_true_eq_false] at hnone
  | some entry =>
    have hentry := List.mem_reverse.mp (List.mem_of_find?_eq_some hfind)
    have hname : entry.1 = sessionId := by
      simpa only [decide_eq_true_eq] using List.find?_some hfind
    have hsame := List.inj_on_of_nodup_map hunique hentry hmem hname
    rw [hsame, Option.map_some]

theorem attempt_eq_none {expected : Expected} {sessionId : String}
    (hnone : sessionId ∉ expected.map Prod.fst) : expected.attempt sessionId = none := by
  unfold Expected.attempt
  rw [Option.map_eq_none_iff, List.find?_eq_none]
  intro entry hentry hsame
  refine hnone (List.mem_map.mpr ⟨entry, List.mem_reverse.mp hentry, ?_⟩)
  simpa only [decide_eq_true_eq] using hsame

/-! ### One reference -/

section Reference

variable {parse : Bytes → Option Json} {sha256 : Bytes → String}
  {rawPayloads : String → Option Bytes} {expected : Expected} {reference : String}

/-- What was shown, and more. -/
def add (state added : UsageState) : UsageState :=
  ⟨added.accepted ++ state.accepted, state.completed ++ added.completed,
    added.taskIds ++ state.taskIds⟩

/-- No session and no task of the one was shown by the other. -/
def Fresh (state added : UsageState) : Prop :=
  (∀ taskId ∈ added.taskIds, taskId ∉ state.taskIds) ∧
    ∀ sessionId ∈ added.completed.map Prod.fst, sessionId ∉ state.completed.map Prod.fst

/-- Reading the reference adds this. -/
def Readable (parse : Bytes → Option Json) (sha256 : Bytes → String)
    (rawPayloads : String → Option Bytes) (expected : Expected) (reference : String)
    (added : UsageState) : Prop :=
  ∀ state, Fresh state added →
    readReference parse sha256 rawPayloads expected state reference = .ok (add state added)

theorem add_initial (state : UsageState) : add state .initial = state := by
  simp only [add, UsageState.initial, List.nil_append, List.append_nil]

theorem readReference_of_document {content : Bytes} {document : Json} {state : UsageState}
    (hstored : Stored sha256 rawPayloads reference content)
    (hparse : parse content = some document) (hobject : document.isObject = true) :
    readReference parse sha256 rawPayloads expected state reference =
      readDocument expected state reference document := by
  rw [readReference, hstored.1]
  dsimp only
  rw [if_neg (not_not.mpr hstored.2), hparse]
  dsimp only
  rw [if_pos hobject]

theorem readable_of_silent (hsilent : SilentReference parse sha256 rawPayloads reference) :
    Readable parse sha256 rawPayloads expected reference .initial := by
  intro state _
  obtain ⟨content, hstored, hcontent⟩ := hsilent
  rw [add_initial]
  cases hparse : parse content with
  | none =>
    rw [readReference, hstored.1]
    dsimp only
    rw [if_neg (not_not.mpr hstored.2), hparse]
  | some document =>
    by_cases hobject : document.isObject = true
    · obtain ⟨haccepted, hcompleted⟩ := hcontent document hparse
      rw [readReference_of_document hstored hparse hobject, readDocument, haccepted, hcompleted]
      rfl
    · rw [readReference, hstored.1]
      dsimp only
      rw [if_neg (not_not.mpr hstored.2), hparse]
      dsimp only
      rw [if_neg hobject]

theorem isObject_of_asText {value : Json} {name text : String}
    (htext : (value.get name).asText = some text) : value.isObject = true := by
  cases value with
  | object members => rfl
  | _ => cases htext

theorem asText_of_asNonEmptyText {value : Json} {text : String}
    (htext : value.asNonEmptyText = some text) : value.asText = some text ∧ text ≠ "" := by
  obtain ⟨hsome, hne⟩ := Option.filter_eq_some_iff.mp htext
  exact ⟨hsome, by simpa only [ne_eq, decide_not, Bool.not_eq_true', decide_eq_false_iff_not]
    using hne⟩

theorem asNonEmptyText_of_asText {value : Json} {text : String} (htext : value.asText = some text)
    (hne : text ≠ "") : value.asNonEmptyText = some text :=
  Option.filter_eq_some_iff.mpr ⟨htext, decide_eq_true hne⟩

/-- What a commit of a session adds. -/
def acceptedCommit (expected : Expected) (sessionId taskId archiveUri : String) : UsageState :=
  match expected.attempt sessionId with
  | none => .initial
  | some _ => ⟨[(sessionId, taskId, archiveUri)], [], []⟩

theorem commitIdentity_eq_ok {result : Json} {sessionId taskId archiveUri : String}
    (hidentity : commitIdentity result sessionId = .ok (taskId, archiveUri)) :
    (result.get "task_id").asNonEmptyText = some taskId ∧
      (result.get "archive_uri").asNonEmptyText = some archiveUri ∧
      (result.get "session_id").asText = some sessionId ∧
      (result.get "status").isText "accepted" = true ∧
      (result.get "archived").isTrue = true := by
  unfold commitIdentity at hidentity
  split at hidentity
  · next taskId' archiveUri' htask harchive =>
    split_ifs at hidentity with hclosed
    cases hidentity
    exact ⟨htask, harchive, asText_of_isText hclosed.1, hclosed.2⟩
  · cases hidentity

theorem readable_of_commit {content : Bytes} {sessionId taskId archiveUri : String}
    (hstored : Stored sha256 rawPayloads reference content)
    (hshows : ShowsCommit parse sessionId taskId archiveUri content) :
    Readable parse sha256 rawPayloads expected reference
      (acceptedCommit expected sessionId taskId archiveUri) := by
  intro state _
  obtain ⟨document, hparse, hobject, hclean, hidentity⟩ := hshows
  obtain ⟨htask, harchive, hsession, hstatus, harchived⟩ := commitIdentity_eq_ok hidentity
  have haccepted : isAccepted (document.get "result") = true := by
    rw [isAccepted, isObject_of_asText hsession, hstatus]
    rfl
  have hhashable : isHashable ((document.get "result").get "session_id") = true := by
    cases hvalue : (document.get "result").get "session_id" with
    | string text => rfl
    | _ =>
      rw [hvalue] at hsession
      cases hsession
  rw [readReference_of_document hstored hparse hobject, readDocument, if_pos haccepted, readCommit,
    if_neg (fun hnot ↦ Bool.noConfusion (hhashable.symm.trans hnot)), hsession, acceptedCommit,
    Option.bind_some]
  cases hattempt : expected.attempt sessionId with
  | none =>
    rw [Option.map_none, add_initial]
  | some attemptId =>
    rw [Option.map_some, htask, harchive]
    dsimp only
    rw [if_pos ⟨hclean, harchived⟩]
    simp only [add, List.singleton_append, List.append_nil, List.nil_append]

/-- The usage of a document of a task. -/
def tokenUsage (document : Json) : Json :=
  ((document.get "result").get "result").get "token_usage"

/-- What a task of a session adds. -/
def completedTask (sessionId taskId archiveUri : String) (usage : IndexingUsage) : UsageState :=
  ⟨[], [(sessionId, usage, taskId, archiveUri)], [taskId]⟩

theorem not_accepted_of_completed {result : Json} (hcompleted : isCompletedTask result = true) :
    isAccepted result = false := by
  rw [isCompletedTask, Bool.and_eq_true] at hcompleted
  have hstatus := asText_of_isText hcompleted.2
  have hnot : (result.get "status").isText "accepted" = false := by
    rw [Json.isText, hstatus]
    rfl
  rw [isAccepted, hnot, Bool.and_false]

section Tasks

variable {content : Bytes} {document : Json} {sessionId taskId archiveUri : String}

/-- The document of a task that completed is read as one. -/
theorem readReference_of_task {state : UsageState}
    (hstored : Stored sha256 rawPayloads reference content)
    (hparse : parse content = some document) (hobject : document.isObject = true)
    (hcompleted : isCompletedTask (document.get "result") = true) :
    readReference parse sha256 rawPayloads expected state reference =
      OpenVikingEvidence.readTask expected state reference document := by
  rw [readReference_of_document hstored hparse hobject, readDocument,
    if_neg (fun haccepted ↦ Bool.noConfusion
      ((not_accepted_of_completed hcompleted).symm.trans haccepted)), if_pos hcompleted]

/-- A task of a session that is not expected adds nothing. -/
theorem readable_of_unexpectedTask (hstored : Stored sha256 rawPayloads reference content)
    (hshows : ShowsTask parse sessionId taskId archiveUri content)
    (hnone : expected.attempt sessionId = none) :
    Readable parse sha256 rawPayloads expected reference .initial := by
  intro state _
  obtain ⟨document, hparse, hobject, -, hcompleted, -, hresource, -⟩ := hshows
  rw [readReference_of_task hstored hparse hobject hcompleted, OpenVikingEvidence.readTask,
    hresource]
  dsimp only
  rw [hnone, add_initial]

/-- A task of a session that is expected adds its usage. -/
theorem readable_of_task {attemptId : String} {usage : IndexingUsage}
    (hstored : Stored sha256 rawPayloads reference content)
    (hshows : ShowsTask parse sessionId taskId archiveUri content) (htaskId : taskId ≠ "")
    (harchiveUri : archiveUri ≠ "") (hattempt : expected.attempt sessionId = some attemptId)
    (husage : ∀ document, parse content = some document →
      taskIndexingUsage (tokenUsage document) attemptId reference = .ok usage) :
    Readable parse sha256 rawPayloads expected reference
      (completedTask sessionId taskId archiveUri usage) := by
  intro state hfresh
  obtain ⟨document, hparse, hobject, hclean, hcompleted, htask, hresource, hresult, hsession,
    harchive⟩ := hshows
  have hnew : ¬ (taskId ∈ state.taskIds ∨ sessionId ∈ state.completed.map Prod.fst) :=
    not_or.mpr ⟨hfresh.1 taskId List.mem_cons_self, hfresh.2 sessionId List.mem_cons_self⟩
  have husages := husage document hparse
  rw [tokenUsage] at husages
  rw [readReference_of_task hstored hparse hobject hcompleted, OpenVikingEvidence.readTask,
    hresource]
  dsimp only
  rw [hattempt]
  dsimp only
  rw [asNonEmptyText_of_asText htask htaskId, asNonEmptyText_of_asText harchive harchiveUri]
  dsimp only
  rw [if_pos ⟨hclean, hresult, decide_eq_true hsession⟩, if_neg hnew, husages]
  rfl

end Tasks

end Reference

/-! ### The references of a plan -/

section References

variable {parse : Bytes → Option Json} {sha256 : Bytes → String}
  {rawPayloads : String → Option Bytes} {expected : Expected} {added : String → UsageState}
  {references : List String}

/-- What some references add. -/
def total (added : String → UsageState) (references : List String) : UsageState :=
  ⟨(references.reverse.flatMap fun reference ↦ (added reference).accepted),
    references.flatMap fun reference ↦ (added reference).completed,
    references.reverse.flatMap fun reference ↦ (added reference).taskIds⟩

theorem total_append (before after : List String) :
    total added (before ++ after) = add (total added before) (total added after) := by
  simp only [total, add, List.reverse_append, List.flatMap_append]

theorem total_singleton (reference : String) : total added [reference] = added reference := by
  simp only [total, List.reverse_singleton, List.flatMap_singleton]

/-- References of which no two show the same session or the same task are read one after another. -/
theorem foldlM_readReference
    (hreadable : ∀ reference ∈ references,
      Readable parse sha256 rawPayloads expected reference (added reference))
    (hnew : ∀ before reference after, references = before ++ reference :: after →
      Fresh (total added before) (added reference)) :
    references.foldlM (readReference parse sha256 rawPayloads expected) .initial =
      .ok (total added references) := by
  induction references using List.reverseRecOn with
  | nil => rfl
  | append_singleton before reference ih =>
    have hbefore := ih (fun other hother ↦ hreadable other (List.mem_append_left _ hother))
      fun first other later hsame ↦ hnew first other (later ++ [reference]) (by
        rw [hsame, List.append_assoc, List.cons_append])
    have hlast : readReference parse sha256 rawPayloads expected (total added before) reference =
        .ok (total added (before ++ [reference])) := by
      rw [hreadable reference (List.mem_append_right _ List.mem_cons_self) _
        (hnew before reference [] rfl), total_append, total_singleton]
    rw [List.foldlM_append, hbefore]
    exact (bind_pure (readReference parse sha256 rawPayloads expected _ reference)).trans hlast

/-- What a reference adds on its own. -/
def shown (parse : Bytes → Option Json) (sha256 : Bytes → String)
    (rawPayloads : String → Option Bytes) (expected : Expected) (reference : String) : UsageState :=
  ((readReference parse sha256 rawPayloads expected .initial reference).toOption).getD .initial

theorem shown_eq {reference : String} {only : UsageState}
    (hreadable : Readable parse sha256 rawPayloads expected reference only) :
    shown parse sha256 rawPayloads expected reference = only := by
  have hfresh : Fresh .initial only := ⟨fun _ _ ↦ List.not_mem_nil, fun _ _ ↦ List.not_mem_nil⟩
  rw [shown, hreadable _ hfresh]
  simp only [add, UsageState.initial, Except.toOption, Option.getD_some, List.append_nil,
    List.nil_append]

theorem fresh_of_distinct (hnodup : references.Nodup)
    (hdistinct : ∀ first ∈ references, ∀ second ∈ references, first ≠ second →
      Fresh (added first) (added second)) (before : List String) (reference : String)
    (after : List String) (hsame : references = before ++ reference :: after) :
    Fresh (total added before) (added reference) := by
  have hmem : reference ∈ references :=
    hsame ▸ List.mem_append_right _ List.mem_cons_self
  have hearlier : ∀ other ∈ before, Fresh (added other) (added reference) := by
    intro other hother
    refine hdistinct other (hsame ▸ List.mem_append_left _ hother) reference hmem ?_
    rintro rfl
    rw [hsame] at hnodup
    exact (List.nodup_append.mp hnodup).2.2 _ hother _ List.mem_cons_self rfl
  refine ⟨fun taskId htask hbefore ↦ ?_, fun sessionId hsession hbefore ↦ ?_⟩
  · obtain ⟨other, hother, hsame⟩ := List.mem_flatMap.mp hbefore
    exact (hearlier other (List.mem_reverse.mp hother)).1 taskId htask hsame
  · obtain ⟨entry, hentry, rfl⟩ := List.mem_map.mp hbefore
    obtain ⟨other, hother, hsame⟩ := List.mem_flatMap.mp hentry
    exact (hearlier other hother).2 _ hsession (List.mem_map_of_mem hsame)

end References

/-! ### Usage -/

/-- The document of a task carries a usage whose counts agree. -/
def CarriesUsage (document : Json) : Prop :=
  ∃ usage, taskIndexingUsage (tokenUsage document) "" "" = .ok usage

/-- The attempt and the reference only go into the usage. -/
theorem taskIndexingUsage_eq (value : Json) (attemptId reference : String) :
    taskIndexingUsage value attemptId reference = (taskIndexingUsage value "" "").map fun usage ↦
      { usage with attemptId := attemptId, rawResponseRef := reference } := by
  unfold taskIndexingUsage
  dsimp only
  split_ifs
  · rfl
  · rfl
  · change _ = Functor.map _ (_ >>= _)
    simp only [map_bind]
    -- One step for each count that is read.
    iterate 9 refine bind_congr fun _ ↦ ?_
    split_ifs
    · rfl
    · rfl

theorem taskIndexingUsage_of_carriesUsage {document : Json} (hcarries : CarriesUsage document)
    (attemptId reference : String) :
    ∃ usage, taskIndexingUsage (tokenUsage document) attemptId reference = .ok usage := by
  obtain ⟨usage, husage⟩ := hcarries
  rw [taskIndexingUsage_eq, husage]
  exact ⟨_, rfl⟩

end Oamb.Artifacts.OpenVikingReadings
