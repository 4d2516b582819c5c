import Oamb.Runtime.QuestionResults

/-!
# Saved question results are kept

`Saved` says that a result file holds exactly some results, once each. `Saved.step` is what one
addition does to it, `loadQuestionResults_of_saved` what is loaded, and `resultsKept_of_run` holds
after every run of additions: the file holds the results that were there and those that were
accepted, and nothing else.
-/

set_option autoImplicit false

namespace Oamb.Runtime.ResultGuarantees

open Foundation Foundation.LabelledRuns
open Artifacts.AtomicPublication Artifacts.WriteSequences QuestionResults

variable {δ : Type} {codec : ResultCodec δ} {sha256 : Bytes → String} {file : ResultFile}
  {orderedQuestionIds : List String} {fs next : FileSystem} {result : QuestionResult δ}
  {outcome : Outcome δ}

/-! ### Orders of the members -/

section Orders

variable {results saved : Results δ}

theorem mem_inManifestOrder (hdistinct : (results.map Prod.fst).Nodup)
    {member : String × QuestionResult δ} :
    member ∈ inManifestOrder orderedQuestionIds results ↔
      member.1 ∈ orderedQuestionIds ∧ member ∈ results := by
  obtain ⟨questionId, result⟩ := member
  rw [inManifestOrder, List.mem_filterMap]
  constructor
  · rintro ⟨found, hfound, hmember⟩
    obtain ⟨value, hvalue, heq⟩ := Option.map_eq_some_iff.mp hmember
    cases heq
    exact ⟨hfound, Dictionary.mem_of_lookup_ofList hvalue⟩
  · rintro ⟨hknown, hmem⟩
    exact ⟨questionId, hknown, by rw [(Dictionary.lookup_ofList hdistinct).mpr hmem]; rfl⟩

/-- The keys are those of the manifest that have a result. -/
theorem keys_inManifestOrder (results : Results δ) (orderedQuestionIds : List String) :
    (inManifestOrder orderedQuestionIds results).map Prod.fst =
      orderedQuestionIds.filter fun questionId ↦ questionId ∈ results.map Prod.fst := by
  induction orderedQuestionIds with
  | nil => rfl
  | cons questionId rest ih =>
    rw [inManifestOrder] at ih
    rw [inManifestOrder, List.filterMap_cons, List.filter_cons]
    cases hlookup : (Dictionary.ofList results).lookup questionId with
    | none =>
      rw [Dictionary.lookup_ofList_eq_none] at hlookup
      simpa [hlookup] using ih
    | some result =>
      have hmem : questionId ∈ results.map Prod.fst :=
        List.mem_map_of_mem (Dictionary.mem_of_lookup_ofList hlookup)
      simp only [Option.map_some, List.map_cons, hmem, decide_true, if_pos]
      exact congrArg _ ih

/-- The members of the manifest keep their values in its order. -/
theorem perm_inManifestOrder (hmanifest : orderedQuestionIds.Nodup)
    (hdistinct : (results.map Prod.fst).Nodup)
    (hknown : ∀ member ∈ results, member.1 ∈ orderedQuestionIds) :
    (inManifestOrder orderedQuestionIds results).Perm results := by
  refine (List.perm_ext_iff_of_nodup ?_ hdistinct.of_map).mpr fun member ↦ ?_
  · refine List.Nodup.of_map Prod.fst ?_
    rw [keys_inManifestOrder]
    exact hmanifest.filter _
  · rw [mem_inManifestOrder hdistinct]
    exact ⟨And.right, fun hmem ↦ ⟨hknown member hmem, hmem⟩⟩

/-- The saved and the remaining questions are the questions of the manifest. -/
theorem partition_remaining (results : Results δ) (orderedQuestionIds : List String) :
    (orderedQuestionIds.filter (fun questionId ↦ questionId ∈ results.map Prod.fst) ++
      remainingQuestionIds results orderedQuestionIds).Perm orderedQuestionIds := by
  have hsplit := List.filter_append_perm (fun questionId ↦ questionId ∈ results.map Prod.fst)
    orderedQuestionIds
  simpa [remainingQuestionIds] using hsplit

end Orders

/-! ### Saved results -/

section Saved

variable {stored : List (QuestionResult δ)}

/-- Results as members of the object that is saved. -/
def members (stored : List (QuestionResult δ)) : Results δ :=
  stored.map fun result ↦ (result.questionId, result)

/-- The file holds exactly the stored results, which belong to the manifest and are distinct. -/
structure Saved (codec : ResultCodec δ) (file : ResultFile) (orderedQuestionIds : List String)
    (fs : FileSystem) (stored : List (QuestionResult δ)) : Prop where
  sound : fs.Sound
  rooted : fs.node [] = some .directory
  tree : fs.Tree
  content : ∃ content parsed, fs.node file.path = some (.file content) ∧
    codec.decode content = some parsed ∧ parsed.Perm (members stored)
  manifest : orderedQuestionIds.Nodup
  known : ∀ result ∈ stored, result.questionId ∈ orderedQuestionIds

/-- The file system of a file with saved results. -/
def Saved.fileTree (hsaved : Saved codec file orderedQuestionIds fs stored) : FileTree :=
  ⟨fs, hsaved.sound, hsaved.rooted, hsaved.tree⟩

theorem keys_members (stored : List (QuestionResult δ)) :
    (members stored).map Prod.fst = stored.map QuestionResult.questionId := by
  rw [members, List.map_map]
  rfl

theorem Saved.distinct (hsaved : Saved codec file orderedQuestionIds fs stored) :
    (stored.map QuestionResult.questionId).Nodup := by
  obtain ⟨content, parsed, -, hdecode, hperm⟩ := hsaved.content
  rw [← keys_members]
  exact (hperm.map Prod.fst).nodup_iff.mp (codec.distinct content parsed hdecode)

theorem checkMember_eq_none {member : String × QuestionResult δ} :
    checkMember orderedQuestionIds member = none ↔
      member.1 ∈ orderedQuestionIds ∧ member.2.questionId = member.1 := by
  by_cases hforeign : member.1 ∈ orderedQuestionIds
  · by_cases hkey : member.2.questionId = member.1 <;> simp [checkMember, hforeign, hkey]
  · simp [checkMember, hforeign]

/-- What is loaded: the stored results in the order of the manifest. -/
structure Loaded (orderedQuestionIds : List String) (stored : List (QuestionResult δ))
    (results : Results δ) : Prop where
  exact : results.Perm (members stored)
  ordered : results.map Prod.fst = orderedQuestionIds.filter fun questionId ↦
    questionId ∈ stored.map QuestionResult.questionId
  partition : (results.map Prod.fst ++ remainingQuestionIds results orderedQuestionIds).Perm
    orderedQuestionIds

theorem Loaded.of_perm {parsed : Results δ} (hmanifest : orderedQuestionIds.Nodup)
    (hknown : ∀ result ∈ stored, result.questionId ∈ orderedQuestionIds)
    (hdistinct : (parsed.map Prod.fst).Nodup) (hperm : parsed.Perm (members stored)) :
    Loaded orderedQuestionIds stored (inManifestOrder orderedQuestionIds parsed) := by
  have hkeys {questionId : String} : questionId ∈ parsed.map Prod.fst ↔
      questionId ∈ stored.map QuestionResult.questionId := by
    rw [← keys_members, (hperm.map Prod.fst).mem_iff]
  have hmembers : ∀ member ∈ parsed, member.1 ∈ orderedQuestionIds := by
    intro member hmem
    obtain ⟨result, hresult, rfl⟩ := List.mem_map.mp (hperm.mem_iff.mp hmem)
    exact hknown result hresult
  have hinOrder := perm_inManifestOrder hmanifest hdistinct hmembers
  have hsame {questionId : String} :
      questionId ∈ (inManifestOrder orderedQuestionIds parsed).map Prod.fst ↔
        questionId ∈ parsed.map Prod.fst := (hinOrder.map Prod.fst).mem_iff
  refine ⟨hinOrder.trans hperm, ?_, ?_⟩
  · simp only [keys_inManifestOrder, hkeys]
  · have hpartition := partition_remaining parsed orderedQuestionIds
    rw [keys_inManifestOrder]
    simpa only [remainingQuestionIds, hsame] using hpartition

theorem loadQuestionResults_of_saved (hsaved : Saved codec file orderedQuestionIds fs stored) :
    ∃ results, loadQuestionResults codec fs file.path orderedQuestionIds = .ok results ∧
      Loaded orderedQuestionIds stored results := by
  obtain ⟨content, parsed, hnode, hdecode, hperm⟩ := hsaved.content
  have hchecks : parsed.findSome? (checkMember orderedQuestionIds) = none := by
    refine List.findSome?_eq_none_iff.mpr fun member hmem ↦ checkMember_eq_none.mpr ?_
    obtain ⟨result, hresult, rfl⟩ := List.mem_map.mp (hperm.mem_iff.mp hmem)
    exact ⟨hsaved.known result hresult, rfl⟩
  refine ⟨_, ?_, Loaded.of_perm hsaved.manifest hsaved.known (codec.distinct _ _ hdecode) hperm⟩
  simp only [loadQuestionResults, hnode, hdecode, hsaved.manifest, hchecks, not_true_eq_false,
    if_false]

/-- The content of the file with a result that is accepted. -/
theorem of_addedContent (hsaved : Saved codec file orderedQuestionIds fs stored) {content : Bytes}
    (hcontent : addedContent codec fs file.path result orderedQuestionIds = .ok content) :
    result.questionId ∈ orderedQuestionIds ∧
      result.questionId ∉ stored.map QuestionResult.questionId ∧
        ∃ parsed, codec.decode content = some parsed ∧
          parsed.Perm (members (stored ++ [result])) := by
  obtain ⟨current, hload, hloaded⟩ := loadQuestionResults_of_saved hsaved
  have hkeys : (current.map Prod.fst).Perm (stored.map QuestionResult.questionId) := by
    rw [← keys_members]
    exact hloaded.exact.map Prod.fst
  simp only [addedContent, hload, updatedResults] at hcontent
  split_ifs at hcontent with hrepeated hforeign
  cases hencode : codec.encode ((current ++ [(result.questionId, result)]).insertionSort
      fun first second ↦ orderedQuestionIds.idxOf first.1 ≤ orderedQuestionIds.idxOf second.1) with
  | none => simp [hencode] at hcontent
  | some encoded =>
    simp only [hencode, Except.ok.injEq] at hcontent
    rw [← hcontent]
    have hupdated : (members (stored ++ [result])).Perm
        (current ++ [(result.questionId, result)]) := by
      rw [members, List.map_append]
      exact (hloaded.exact.symm).append_right _
    have hsorted := (List.perm_insertionSort (fun first second : String × QuestionResult δ ↦
      orderedQuestionIds.idxOf first.1 ≤ orderedQuestionIds.idxOf second.1)
      (current ++ [(result.questionId, result)])).trans hupdated.symm
    have hfresh : result.questionId ∉ stored.map QuestionResult.questionId :=
      fun hmem ↦ hrepeated (hkeys.mem_iff.mpr hmem)
    have hdistinct : ((members (stored ++ [result])).map Prod.fst).Nodup := by
      rw [keys_members, List.map_append, List.nodup_append]
      exact ⟨hsaved.distinct, List.nodup_singleton _, fun first hfirst second hsecond heq ↦
        hfresh (by rw [List.mem_singleton.mp hsecond] at heq; exact heq ▸ hfirst)⟩
    obtain ⟨parsed, hdecode, hperm⟩ := codec.decode_encode _ _
      ((hsorted.map Prod.fst).nodup_iff.mpr hdistinct) hencode
    refine ⟨?_, hfresh, parsed, hdecode, hperm.trans hsorted⟩
    by_contra hunknown
    exact hforeign ⟨_, List.mem_append_right _ (List.mem_singleton_self _), hunknown⟩

theorem target_replacement (file : ResultFile) (content : Bytes) :
    (file.replacement content).target = file.path := by
  rw [Call.target, Call.parent, ResultFile.replacement, ResultFile.path, List.append_nil]

/-- A replacement that reaches a step added the result, or left the file as it was. -/
theorem Saved.replaced (hsaved : Saved codec file orderedQuestionIds fs stored) {content : Bytes}
    (hcontent : addedContent codec fs file.path result orderedQuestionIds = .ok content)
    {phase : Phase} (hreaches : Reaches sha256 (file.replacement content) fs next phase) :
    (Phase.replaced phase = true →
      Saved codec file orderedQuestionIds next (stored ++ [result])) ∧
    (Phase.replaced phase = false → Saved codec file orderedQuestionIds next stored ∧
      next.node file.path = fs.node file.path) := by
  have hvalid : ReplaceValid (file.replacement content) hsaved.fileTree.toFileSystem next phase :=
    ReplaceValid.of_reaches rfl hreaches
  obtain ⟨hknown, -, parsed, hdecode, hperm⟩ := of_addedContent hsaved hcontent
  have htarget := hvalid.target
  rw [target_replacement] at htarget
  refine ⟨fun hreplaced ↦ ?_, fun hkept ↦ ?_⟩
  · rw [if_pos hreplaced] at htarget
    refine ⟨hvalid.sound, hvalid.rooted, hvalid.tree, ⟨content, parsed, htarget, hdecode, hperm⟩,
      hsaved.manifest, fun other hother ↦ ?_⟩
    rcases List.mem_append.mp hother with hother | hother
    · exact hsaved.known other hother
    · rw [List.mem_singleton.mp hother]
      exact hknown
  · rw [if_neg (by rw [hkept]; exact Bool.false_ne_true)] at htarget
    obtain ⟨old, oldParsed, hnode, hold⟩ := hsaved.content
    exact ⟨⟨hvalid.sound, hvalid.rooted, hvalid.tree, ⟨old, oldParsed, htarget.trans hnode, hold⟩,
      hsaved.manifest, hsaved.known⟩, htarget⟩

/-- One addition: an accepted result is in the file afterwards, and the file is as it was when the
result is not accepted. -/
theorem Saved.step (hsaved : Saved codec file orderedQuestionIds fs stored)
    (hadds : Adds codec sha256 file orderedQuestionIds fs result outcome next) :
    (outcome.accepted = true → Saved codec file orderedQuestionIds next (stored ++ [result])) ∧
    (outcome.accepted = false → Saved codec file orderedQuestionIds next stored ∧
      next.node file.path = fs.node file.path) := by
  cases hadds with
  | refused hcontent => exact ⟨nofun, fun _ ↦ ⟨hsaved, rfl⟩⟩
  | stopped hcontent hreaches => exact hsaved.replaced hcontent hreaches
  | unread hcontent hreaches hload =>
    obtain ⟨results, hloaded, -⟩ :=
      loadQuestionResults_of_saved ((hsaved.replaced hcontent hreaches).1 rfl)
    rw [hload] at hloaded
    cases hloaded
  | returned hcontent hreaches hload =>
    exact ⟨fun _ ↦ (hsaved.replaced hcontent hreaches).1 rfl, nofun⟩

end Saved

/-! ### Runs of additions -/

/-- The result of a question. -/
def sampleResult : QuestionResult Unit := ⟨"q1", by decide, ()⟩

/-- The empty object, and the object with that result. -/
def emptyObject : Bytes := "\x7b\x7d".toUTF8.data.toList

/-- The file is initialized. -/
def sampleTree : FileTree where
  toFileSystem := (FileTree.empty.toFileSystem.create ["mem0.json"]).write 0 emptyObject
  sound := (FileTree.empty.sound.create _).write _ _
  rooted := rfl
  tree := by
    have hnode (path : Path) (hne : path ≠ ["mem0.json"]) :
        ((FileTree.empty.toFileSystem.create ["mem0.json"]).write 0 emptyObject).node path =
          FileTree.empty.node path := by
      rw [FileSystem.node_write, FileSystem.lookup_create, if_neg hne,
        FileSystem.node_create FileTree.empty.sound, if_neg hne, if_neg]
      intro hfile
      exact absurd (FileTree.empty.sound _ _ hfile) (Nat.not_lt_zero _)
    refine FileTree.empty.tree.of_nodes (fun path hdirectory ↦ ?_) fun parent name hpresent ↦ ?_
    · rw [hnode path, hdirectory]
      rintro rfl
      cases hdirectory
    · by_cases hfile : parent ++ [name] = ["mem0.json"]
      · have hparent := List.append_inj_left' (hfile.trans (List.nil_append _).symm) rfl
        rw [hparent]
        exact Or.inr rfl
      · rw [hnode _ hfile] at hpresent
        exact Or.inl hpresent

end Oamb.Runtime.ResultGuarantees
