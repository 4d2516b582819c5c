import Oamb.Scripts.MigrationSteps

/-!
# Safety of a migration

`Safe` is what a migration may have done at any step of it, however it ends: the directory of its
run is as before, or it is complete; the selector names what it named before, or the complete run.
Outside of the places of a migration, everything is as before (`guarantees_migrate`).
-/

set_option autoImplicit false

namespace Oamb.Scripts.MigrationSafety

open Foundation Foundation.Dialogue Foundation.CrashLogic Foundation.FileCalls
open ResumeMigration MigrationSteps

variable {library : Library} {request : Request} {names : TemporaryNames}
  {old tree now : FileTree}

/-! ### Readings -/

theorem answered_readRegular {answers : Path → Option Node} {path : Path} {content : Bytes} :
    (readRegular path).answered answers = .ok content ↔ answers path = some (.file content) := by
  rw [readRegular, Dialogue.answered]
  cases hnode : answers path with
  | none => exact iff_of_false (by simp) (by simp)
  | some node =>
    cases node with
    | file other =>
      rw [Option.some_inj, Node.file.injEq]
      exact ⟨Except.ok.inj, congrArg Except.ok⟩
    | directory | symlink => exact iff_of_false (by simp) (by simp)

theorem answered_refuseIf {answers : Path → Option Node} {refused : Prop} [Decidable refused]
    {error : MigrationError} :
    (refuseIf refused error).answered answers = .ok () ↔ ¬ refused := by
  rw [refuseIf]
  by_cases hrefused : refused
  · rw [if_pos hrefused]
    exact iff_of_false (by simp) (not_not_intro hrefused)
  · rw [if_neg hrefused]
    exact iff_of_true rfl hrefused

theorem answered_requireAbsent {answers : Path → Option Node} :
    (requireAbsent request).answered answers = .ok () ↔ answers request.targetFullRoot = none := by
  rw [requireAbsent, Dialogue.answered]
  cases answers request.targetFullRoot with
  | none => exact iff_of_true rfl rfl
  | some node => exact iff_of_false (by simp) (by simp)

theorem answered_loadJsonObject {answers : Path → Option Node} {path : Path} {content : Bytes}
    {document : Json}
    (hload : (loadJsonObject library path).answered answers = .ok (content, document)) :
    answers path = some (.file content) := by
  obtain ⟨bytes, hbytes, hload⟩ := answered_bind_eq_ok.mp hload
  obtain ⟨value, -, hload⟩ := answered_bind_eq_ok.mp hload
  obtain ⟨_, -, hload⟩ := answered_bind_eq_ok.mp hload
  cases hload
  exact answered_readRegular.mp hbytes

/-- What the check of the target found. -/
structure TargetChecked (request : Request) (plan : ResolvedPlan) (stateBytes : Bytes)
    (planPath : Path) (tree : FileTree) : Prop where
  state : tree.node request.targetStatePath = some (.file stateBytes)
  path : ∃ label, planPath = request.targetTmp ++ ["precheck", label, "plan", "resolved-plan.json"]
  plan : tree.node planPath = some (.file plan.bytes)

theorem targetChecked {plan : ResolvedPlan} {stateBytes : Bytes} {planPath : Path}
    (hchecked : (checkTarget library request plan).answered tree.node =
      .ok (stateBytes, planPath)) :
    TargetChecked request plan stateBytes planPath tree := by
  obtain ⟨⟨bytes, document⟩, hstate, hchecked⟩ := answered_bind_eq_ok.mp hchecked
  obtain ⟨label, -, hchecked⟩ := answered_bind_eq_ok.mp hchecked
  obtain ⟨_, -, hchecked⟩ := answered_bind_eq_ok.mp hchecked
  obtain ⟨workDir, -, hchecked⟩ := answered_bind_eq_ok.mp hchecked
  obtain ⟨_, hworkDir, hchecked⟩ := answered_bind_eq_ok.mp hchecked
  obtain ⟨path, -, hchecked⟩ := answered_bind_eq_ok.mp hchecked
  obtain ⟨_, hpath, hchecked⟩ := answered_bind_eq_ok.mp hchecked
  obtain ⟨planBytes, hplanBytes, hchecked⟩ := answered_bind_eq_ok.mp hchecked
  obtain ⟨_, hplan, hchecked⟩ := answered_bind_eq_ok.mp hchecked
  obtain ⟨dataset, -, hchecked⟩ := answered_bind_eq_ok.mp hchecked
  obtain ⟨datasetBytes, -, hchecked⟩ := answered_bind_eq_ok.mp hchecked
  obtain ⟨_, -, hchecked⟩ := answered_bind_eq_ok.mp hchecked
  obtain ⟨_, -, hchecked⟩ := answered_bind_eq_ok.mp hchecked
  obtain ⟨_, -, hchecked⟩ := answered_bind_eq_ok.mp hchecked
  cases hchecked
  rw [answered_refuseIf, not_ne_iff] at hworkDir hpath hplan
  subst hworkDir hpath hplan
  exact ⟨answered_loadJsonObject hstate, ⟨label, by simp⟩, answered_readRegular.mp hplanBytes⟩

theorem TargetChecked.targetTmp {plan : ResolvedPlan} {stateBytes : Bytes} {planPath : Path}
    (hchecked : TargetChecked request plan stateBytes planPath tree) :
    tree.node request.targetTmp = some .directory := by
  refine tree.tree request.targetTmp "quick-start-current.json" ?_
  exact hchecked.state ▸ Option.some_ne_none _

/-- What is known of a result that was read. -/
structure ResultRead (library : Library) (answers : Path → Option Node) (root : Path)
    (orderedQuestionIds : List String) (provider : String) (result : ProviderResult) : Prop where
  named : result.provider = provider
  file : answers (root ++ ["results", resultName provider]) = some (.file result.bytes)
  digest : result.resultSha256 = library.sha256 result.bytes
  remaining : ∃ results, library.loadQuestionResults result.bytes orderedQuestionIds = .ok results ∧
    result.remainingCount = remainingCount results orderedQuestionIds

/-- The results of a source are those of the run that its selector names. -/
def SourceRead (library : Library) (request : Request) (answers : Path → Option Node)
    (source : Source) (label : String) : Prop :=
  List.Forall₂ (ResultRead library answers (sourceFullRoot request label)
    source.orderedQuestionIds) providers source.results

theorem call_eq_ok {α : Type} {outcome : Except String α} {value : α}
    (hcall : call outcome = .ok value) : outcome = .ok value := by
  cases outcome with
  | error error => cases hcall
  | ok other =>
    cases hcall
    rfl

theorem resultRead {answers : Path → Option Node} {root : Path} {legacyPlanHash : String}
    {plan : ResolvedPlan} {orderedQuestionIds : List String} {provider : String}
    {result : ProviderResult}
    (hread : (readProviderResult library root legacyPlanHash plan orderedQuestionIds
      provider).answered answers = .ok result) :
    ResultRead library answers root orderedQuestionIds provider result := by
  obtain ⟨resultBytes, hbytes, hread⟩ := answered_bind_eq_ok.mp hread
  obtain ⟨results, hresults, hread⟩ := answered_bind_eq_ok.mp hread
  obtain ⟨⟨progressBytes, progress⟩, -, hread⟩ := answered_bind_eq_ok.mp hread
  obtain ⟨ordinaryDocument, -, hread⟩ := answered_bind_eq_ok.mp hread
  obtain ⟨cellId, -, hread⟩ := answered_bind_eq_ok.mp hread
  obtain ⟨_, -, hread⟩ := answered_bind_eq_ok.mp hread
  cases hread
  exact ⟨rfl, answered_readRegular.mp hbytes, rfl, results, call_eq_ok hresults, rfl⟩

theorem sourceRead {answers : Path → Option Node} {source : Source}
    (hread : (readSource library request).answered answers = .ok source) :
    ∃ label, (readSourceLabel request).answered answers = .ok label ∧
      SourceRead library request answers source label := by
  obtain ⟨⟨stateBytes, state⟩, -, hread⟩ := answered_bind_eq_ok.mp hread
  obtain ⟨label, hlabel, hread⟩ := answered_bind_eq_ok.mp hread
  obtain ⟨⟨legacyPlanBytes, legacyPlanHash, plan, orderedQuestionIds⟩, -, hread⟩ :=
    answered_bind_eq_ok.mp hread
  obtain ⟨results, hresults, hread⟩ := answered_bind_eq_ok.mp hread
  cases hread
  exact ⟨label, hlabel, (forall_of_answered_mapM hresults).imp fun _ _ hresult ↦ resultRead hresult⟩

/-! ### What a run may have done -/

/-- The content of a selector that names the run. -/
def labelBytes (request : Request) : Bytes := JsonText.utf8 (request.targetLabel.toList ++ ['\n'])

/-- The directory of the run has the plan, the receipt and the results of the source, and nothing
else. -/
def Complete (library : Library) (request : Request) (old now : FileTree) : Prop :=
  ∃ source stateBytes planPath, (readSource library request).answered old.node = .ok source ∧
    (checkTarget library request source.plan).answered old.node = .ok (stateBytes, planPath) ∧
    Layout request.targetFullRoot (publishedFiles library source stateBytes) now

/-- What a migration may have done at any step of it. -/
structure Safe (library : Library) (request : Request) (old now : FileTree) : Prop where
  frame : ∀ path, isWritten request.targetRepository path = false → now.node path = old.node path
  runs : ∀ path, request.fullTest <+: path → path ≠ request.fullTest →
    ¬ request.targetFullRoot <+: path → now.node path = old.node path
  fullTest : now.node request.fullTest = old.node request.fullTest ∨
    old.node request.fullTest = none ∧ now.node request.fullTest = some .directory
  published : (∀ path, request.targetFullRoot <+: path → now.node path = old.node path) ∨
    old.node request.targetFullRoot = none ∧ Complete library request old now
  selected : now.node request.selector = old.node request.selector ∨
    now.node request.selector = some (.file (labelBytes request)) ∧
      Complete library request old now

theorem Safe.of_same (hsame : ∀ path, now.node path = old.node path) :
    Safe library request old now :=
  ⟨fun path _ ↦ hsame path, fun path _ _ _ ↦ hsame path, Or.inl (hsame _),
    Or.inl fun path _ ↦ hsame path, Or.inl (hsame _)⟩

theorem selector_not_staging {staging : Path} (hstaging : IsStaging request staging) :
    ¬ staging <+: request.selector := by
  obtain ⟨suffix, rfl⟩ := hstaging
  exact fun hbelow ↦ selector_ne_staging suffix
    (eq_of_prefixes (List.prefix_rfl : request.targetTmp ++ ["full-test-current"] <+: _) hbelow)

theorem not_fullTest_selector : ¬ request.fullTest <+: request.selector :=
  not_prefix_fullTest (List.prefix_rfl : request.targetTmp ++ ["full-test-current"] <+: _)

theorem Safe.of_moving {staging : Path} {files : List (Path × Bytes)}
    (hstaging : IsStaging request staging) (hmoving : Moving request old staging files now)
    (hunused : old.node request.targetFullRoot = none)
    (hcomplete : Layout request.targetFullRoot files now → Complete library request old now) :
    Safe library request old now where
  frame path hpath := by
    obtain ⟨suffix, rfl⟩ := hstaging
    refine hmoving.outside path (fun hbelow ↦ ?_) fun hbelow ↦ ?_
    · rw [isWritten_of_workName (isWorkName_staging suffix) hbelow] at hpath
      cases hpath
    · rw [isWritten_of_fullTest hbelow] at hpath
      cases hpath
  runs := hmoving.runs
  fullTest := hmoving.fullTest
  published := hmoving.published.imp_right fun hfiles ↦ ⟨hunused, hcomplete hfiles⟩
  selected := Or.inl (hmoving.outside _ (selector_not_staging hstaging) not_fullTest_selector)

/-! ### Selecting the run -/

/-- What the selection of a run may have done. -/
structure Selecting (request : Request) (tree now : FileTree) : Prop where
  others : ∀ path, path ≠ request.pointer → path ≠ request.selector →
    now.node path = tree.node path
  selected : now.node request.selector = tree.node request.selector ∨
    now.node request.selector = some (.file (labelBytes request))

theorem selector_ne_pointer_path : request.selector ≠ request.pointer := by
  intro hsame
  exact selector_ne_pointer request.processId
    (List.cons.inj (List.append_cancel_left hsame)).1

theorem guarantees_select {planPath : Path}
    (htmp : tree.node request.targetTmp = some .directory) :
    Guarantees (Serve names) (Selecting request tree)
      (fun outcome now ↦ outcome = .ok () →
        now.node request.selector = some (.file (labelBytes request)))
      (select request planPath) tree := by
  have hstart : ∀ now, (∀ path, now.node path = tree.node path) → Selecting request tree now :=
    fun now hsame ↦ ⟨fun path _ _ ↦ hsame path, Or.inl (hsame _)⟩
  rw [select, replacePointer]
  refine (guarantees_reads.mono (fun next hnext ↦ hstart next fun _ ↦ hnext ▸ rfl)
    fun outcome next hnext _ ↦ hnext).bind (fun _ next hnext _ ↦ ?_) fun _ _ _ ↦ nofun
  subst hnext
  have hparent : request.selector.dropLast = request.targetTmp := by
    rw [Request.selector, List.dropLast_concat]
  rw [hparent]
  refine ((guarantees_makeDirectories request.targetTmp).mono
    (fun later hadds ↦ hstart later (hadds.same htmp))
    fun outcome later hadds _ ↦ hadds.same htmp).bind (fun _ later hlater _ ↦ ?_) fun _ _ _ ↦ nofun
  have hbeside : ∀ now, Adds later request.pointer now → Beside next request.pointer now := by
    intro now hadds path hpath
    rw [(hadds path).resolve_right fun hnew ↦ ?_, hlater path]
    have hshort := prefix_dropLast hnew.1 hpath
    rw [Request.pointer, List.dropLast_concat] at hshort
    rw [hlater path, FileTree.directory_of_prefix htmp hshort] at hnew
    exact Option.some_ne_none _ hnew.2
  have hpointer : ∀ now, Beside next request.pointer now → Selecting request next now :=
    fun now hnow ↦ ⟨fun path hpath _ ↦ hnow path hpath, Or.inl (hnow _ selector_ne_pointer_path)⟩
  refine ((guarantees_writeCreateOnly (by simp [Request.pointer])).mono
    (fun now hadds ↦ hpointer now (hbeside now hadds))
    fun outcome now hadds hwrites houtcome ↦ And.intro (hwrites houtcome).2.1
      (hbeside now hadds)).bind (fun _ now hwritten _ ↦ ?_) fun _ _ _ ↦ nofun
  obtain ⟨hfile, hnow⟩ := hwritten rfl
  refine guarantees_act (hpointer now hnow) fun result last hserve ↦
    ⟨⟨fun path hpath hselector ↦ ?_, ?_⟩, fun hresult ↦ ?_⟩
  · rw [serve_frame hserve fun htouches ↦ htouches.elim hpath hselector, hnow path hpath]
  · rcases serve_replaceFile hserve with hsame | hmoved
    · rw [hsame]
      exact Or.inl (hnow _ selector_ne_pointer_path)
    · rw [hmoved]
      exact Or.inr hfile
  · cases result with
    | error error => cases hresult
    | ok value => exact node_replaceFile hfile (answer_of_serve hserve (fun _ ↦ nofun) rfl)

/-! ### A run -/

theorem not_fullTest_pointer : ¬ request.fullTest <+: request.pointer :=
  not_prefix_fullTest
    (List.prefix_rfl : request.targetTmp ++ [pointerName request.processId] <+: _)

theorem isWritten_pointer : isWritten request.targetRepository request.pointer = true :=
  isWritten_of_workName (isWorkName_pointer request.processId) List.prefix_rfl

theorem isWritten_selector : isWritten request.targetRepository request.selector = true :=
  isWritten_of_workName isWorkName_selector List.prefix_rfl

/-- A run that is selected is complete. -/
theorem Safe.select {staging : Path} {files : List (Path × Bytes)} {later : FileTree}
    (hstaging : IsStaging request staging) (hmoving : Moving request old staging files now)
    (hfiles : Layout request.targetFullRoot files now)
    (hunused : old.node request.targetFullRoot = none)
    (hcomplete : ∀ tree, Layout request.targetFullRoot files tree →
      Complete library request old tree)
    (hselecting : Selecting request now later) :
    Safe library request old later ∧ Complete library request old later := by
  have hsafe := Safe.of_moving hstaging hmoving hunused (hcomplete now)
  have hruns : ∀ path, request.fullTest <+: path → later.node path = now.node path :=
    fun path hpath ↦ hselecting.others path (fun hsame ↦ not_fullTest_pointer (hsame ▸ hpath))
      fun hsame ↦ not_fullTest_selector (hsame ▸ hpath)
  have hlast : Complete library request old later := hcomplete later fun rest ↦ by
    rw [hruns _ (fullTest_prefix_targetFullRoot.trans (List.prefix_append _ _)), hfiles rest]
  refine ⟨⟨fun path hpath ↦ ?_, fun path hpath hne hroot ↦ ?_, ?_, Or.inr ⟨hunused, hlast⟩, ?_⟩,
    hlast⟩
  · rw [hselecting.others path, hsafe.frame path hpath]
    · rintro rfl
      rw [isWritten_pointer] at hpath
      cases hpath
    · rintro rfl
      rw [isWritten_selector] at hpath
      cases hpath
  · rw [hruns path hpath, hsafe.runs path hpath hne hroot]
  · rw [hruns _ List.prefix_rfl]
    exact hsafe.fullTest
  · rcases hselecting.selected with hsame | hselected
    · rw [hsame]
      exact Or.inl (hmoving.outside _ (selector_not_staging hstaging) not_fullTest_selector)
    · exact Or.inr ⟨hselected, hlast⟩

/-- A migration that failed to stage its run removes what it staged. -/
theorem guarantees_cleanup {source : Source} {stateBytes : Bytes} {staging : Path}
    (hstaging : IsStaging request staging) (habsent : old.node staging = none)
    (htmp : old.node request.targetTmp = some .directory)
    (hmade : tree.node staging = some .directory)
    (hsame : ∀ path, path ≠ staging → tree.node path = old.node path) :
    Guarantees (Serve names) (Moving request old staging (publishedFiles library source stateBytes))
      (fun outcome now ↦ outcome = .ok () →
        Layout request.targetFullRoot (publishedFiles library source stateBytes) now)
      (handle (fun error ↦ do
          act .raised (.removeTree staging)
          fail error) (stageAndPublish library request source stateBytes staging) :
        Migration Unit) tree := by
  refine (guarantees_stageAndPublish hstaging habsent htmp hmade hsame).handle
    (fun _ _ hpost ↦ hpost) fun error now _ hmoving ↦ ?_
  have hremove : Guarantees (Serve names)
      (Moving request old staging (publishedFiles library source stateBytes)) (fun _ _ ↦ True)
      (act .raised (.removeTree staging) : Migration Unit) now :=
    guarantees_act hmoving fun result later hserve ↦
      ⟨hmoving.within hstaging fun path hpath ↦ serve_frame hserve hpath, trivial⟩
  exact hremove.bind (fun _ later _ hlater ↦ guarantees_fail hlater nofun) fun _ _ _ ↦ nofun

/-- A migration is safe at every step, and a run that returns is complete and selected. -/
theorem guarantees_migrate : Guarantees (Serve names) (Safe library request old)
    (fun outcome now ↦ ∀ document, outcome = .ok document → Complete library request old now ∧
      now.node request.selector = some (.file (labelBytes request)))
    (migrateResumeData library request) old := by
  have hstart : ∀ now, now = old → Safe library request old now :=
    fun now hnow ↦ Safe.of_same fun _ ↦ hnow ▸ rfl
  have hreads : ∀ {α : Type} (reading : MigrationReading α), Guarantees (Serve names)
      (Safe library request old) (fun outcome now ↦ now = old ∧
        ∀ value, outcome = .ok value → reading.answered old.node = .ok value)
      (reads .raised reading) old :=
    fun reading ↦ guarantees_reads.mono hstart fun _ now hnow hpost ↦ ⟨hnow, hpost⟩
  have hlabel : Guarantees (Serve names) (Safe library request old) (fun _ now ↦ now = old)
      (ofExcept (validateLabel request.targetLabel) : Migration Unit) old :=
    ⟨hstart old rfl, rfl⟩
  rw [migrateResumeData]
  refine hlabel.bind (fun _ now hnow _ ↦ ?_) fun _ _ _ _ ↦ nofun
  subst hnow
  refine (hreads _).bind (fun source now hpost _ ↦ ?_) fun _ _ _ _ ↦ nofun
  obtain ⟨rfl, hsource⟩ := hpost
  refine (hreads _).bind (fun _ next hpost _ ↦ ?_) fun _ _ _ _ ↦ nofun
  obtain ⟨rfl, habsent⟩ := hpost
  have hunused := answered_requireAbsent.mp (habsent _ rfl)
  refine (hreads _).bind (fun target last hpost _ ↦ ?_) fun _ _ _ _ ↦ nofun
  obtain ⟨rfl, htarget⟩ := hpost
  obtain ⟨stateBytes, planPath⟩ := target
  have hchecked := targetChecked (htarget _ rfl)
  have htmp := hchecked.targetTmp
  have hcomplete : ∀ tree, Layout request.targetFullRoot
      (publishedFiles library source stateBytes) tree → Complete library request last tree :=
    fun tree hlayout ↦ ⟨source, stateBytes, planPath, hsource _ rfl, htarget _ rfl, hlayout⟩
  refine ((guarantees_makeDirectories request.targetTmp).mono
    (fun later hadds ↦ Safe.of_same (hadds.same htmp))
    fun outcome later hadds _ ↦ hadds.same htmp).bind (fun _ middle hmiddle _ ↦ ?_)
    fun _ _ _ _ ↦ nofun
  have hsame : ∀ path, middle.node path = last.node path := hmiddle
  have hmake : Guarantees (Serve names) (Safe library request last)
      (fun outcome later ↦ ∀ staging, outcome = .ok staging → IsStaging request staging ∧
        last.node staging = none ∧ later.node staging = some .directory ∧
        ∀ path, path ≠ staging → later.node path = last.node path)
      (act .raised (.makeTemporaryDirectory request.targetTmp stagingStart) : Migration Path)
      middle := by
    refine guarantees_act (Safe.of_same hsame) fun result later hserve ↦ ?_
    have hframe : ∀ path, path ≠ request.targetTmp ++
        [stagingStart ++ names.suffix middle request.targetTmp stagingStart] →
        later.node path = last.node path :=
      fun path hpath ↦ (serve_frame hserve hpath).trans (hsame path)
    have hplace : IsStaging request (request.targetTmp ++
        [stagingStart ++ names.suffix middle request.targetTmp stagingStart]) := ⟨_, rfl⟩
    refine ⟨Safe.of_moving hplace (Moving.of_same hplace fun path hpath ↦
      hframe path fun heq ↦ hpath (heq ▸ List.prefix_rfl)) hunused (hcomplete later), ?_⟩
    intro staging hresult
    cases result with
    | error error => cases hresult
    | ok value =>
      cases hresult
      obtain ⟨rfl, hnone, hmade⟩ :=
        makeTemporaryDirectory_ok (answer_of_serve hserve (fun _ ↦ nofun) rfl)
      exact ⟨hplace, (hsame _).symm.trans hnone, hmade, hframe⟩
  refine hmake.bind (fun staging made hpost _ ↦ ?_) fun _ _ _ _ ↦ nofun
  obtain ⟨hstaging, habsent, hmade, hbeside⟩ := hpost staging rfl
  refine ((guarantees_cleanup hstaging habsent htmp hmade hbeside).mono
    (fun later hmoving ↦ Safe.of_moving hstaging hmoving hunused (hcomplete later))
    fun outcome later hmoving hfiles houtcome ↦ And.intro (hfiles houtcome) hmoving).bind
    (fun _ staged hpost _ ↦ ?_) fun _ _ _ _ ↦ nofun
  obtain ⟨hfiles, hmoving⟩ := hpost rfl
  have hstagedTmp : staged.node request.targetTmp = some .directory := by
    rw [hmoving.outside _ ?_ ?_, htmp]
    · obtain ⟨suffix, rfl⟩ := hstaging
      intro hbelow
      have hlength := hbelow.length_le
      rw [List.length_append, List.length_singleton] at hlength
      omega
    · intro hbelow
      exact absurd (eq_of_prefixes (hbelow.trans List.prefix_rfl)
        (List.prefix_rfl : request.targetOutputs ++ ["tmp"] <+: _)) (by decide)
  have hsafe : ∀ later, Selecting request staged later →
      Safe library request last later ∧ Complete library request last later :=
    fun later ↦ Safe.select hstaging hmoving hfiles hunused hcomplete
  refine ((guarantees_select hstagedTmp).mono (fun later hselecting ↦ (hsafe later hselecting).1)
    fun outcome later hselecting hselected houtcome ↦ And.intro (hsafe later hselecting).2
      (hselected houtcome)).bind (fun _ later hpost hlater ↦ ?_) fun _ _ _ _ ↦ nofun
  exact guarantees_pure hlater fun document _ ↦ hpost rfl

end Oamb.Scripts.MigrationSafety
