import Oamb.Scripts.MigrationRuns

/-!
# What a migration guarantees

`Attempts` are calls of the migration to a repository one after the other, each of which ended at
some step of it. They leave the source as it was, every run is as before or complete, and the
selector names what it named before or a complete run (`Attempts.history`). A later call that is
accepted selects its run when nothing obstructs the temporary file of the selector
(`migrations_allOrNothing`), which an earlier call may have left behind (`migration_obstructed`).
-/

set_option autoImplicit false

namespace Oamb.Scripts.ResumeMigrationGuarantees

open Foundation Foundation.Dialogue Foundation.CrashLogic Foundation.FileCalls
open ResumeMigration MigrationSteps MigrationSafety MigrationRuns

variable {library : Library} {request : Request} {old middle now : FileTree}

/-! ### Calls one after the other -/

/-- A migration writes nothing into its source, and nothing that it reads. -/
structure Separate (library : Library) (request : Request) (tree : FileTree) : Prop where
  source : ∀ path, request.sourceRepository <+: path →
    isWritten request.targetRepository path = false
  read : ∀ path ∈ (readSource library request).asked tree.node,
    isWritten request.targetRepository path = false
  checked : ∀ source, (readSource library request).answered tree.node = .ok source →
    ∀ path ∈ (checkTarget library request source.plan).asked tree.node,
      isWritten request.targetRepository path = false

/-- Calls of the migration, the last one first, each of which ended at some step of it. -/
inductive Attempts (library : Library) (source target : Path) (old : FileTree) :
    List Request → FileTree → Prop
  | start : Attempts library source target old [] old
  | call {requests : List Request} {middle now : FileTree} {request : Request}
    {names : TemporaryNames} {rest : Migration Json}
    (hattempts : Attempts library source target old requests middle)
    (hsource : request.sourceRepository = source) (htarget : request.targetRepository = target)
    (hseparate : Separate library request old)
    (hreaches : Reaches (Serve names) (migrateResumeData library request) middle rest now) :
    Attempts library source target old (request :: requests) now

/-- The directory of a run. -/
def runRoot (target : Path) (label : String) : Path := target ++ ["outputs", "full-test", label]

/-- The selector of a repository. -/
def selectorPath (target : Path) : Path := target ++ ["outputs", "tmp", "full-test-current"]

theorem runRoot_eq : runRoot request.targetRepository request.targetLabel =
    request.targetFullRoot := by
  simp [runRoot, Request.targetFullRoot, Request.fullTest, Request.targetOutputs]

theorem selectorPath_eq : selectorPath request.targetRepository = request.selector := by
  simp [selectorPath, Request.selector, Request.targetTmp, Request.targetOutputs]

theorem fullTest_prefix_runRoot {label : String} :
    request.fullTest <+: runRoot request.targetRepository label := by
  refine ⟨[label], ?_⟩
  simp [runRoot, Request.fullTest, Request.targetOutputs]

/-- Runs of different labels lie beside each other. -/
theorem targetFullRoot_not_above {label : String} (hlabel : label ≠ request.targetLabel)
    {path : Path} (hpath : runRoot request.targetRepository label <+: path) :
    ¬ request.targetFullRoot <+: path := by
  intro hbelow
  rw [← runRoot_eq] at hbelow
  have hsplit : ∀ name, runRoot request.targetRepository name =
      (request.targetRepository ++ ["outputs", "full-test"]) ++ name :: [] := by
    intro name
    simp [runRoot]
  rw [hsplit] at hpath hbelow
  exact hlabel (eq_of_prefixes hpath hbelow)

/-! ### Complete runs -/

theorem Complete.of_same (hcomplete : Complete library request old middle)
    (hsame : ∀ path, request.targetFullRoot <+: path → now.node path = middle.node path) :
    Complete library request old now := by
  obtain ⟨source, stateBytes, planPath, hsource, htarget, hfiles⟩ := hcomplete
  exact ⟨source, stateBytes, planPath, hsource, htarget, fun rest ↦
    (hsame _ (List.prefix_append _ _)).trans (hfiles rest)⟩

theorem Complete.node (hcomplete : Complete library request old now) :
    now.node request.targetFullRoot = some .directory := by
  obtain ⟨source, stateBytes, planPath, -, -, hfiles⟩ := hcomplete
  have hroot := hfiles []
  rwa [List.append_nil, layout_nil_publishedFiles] at hroot

section Readings

variable (hseparate : Separate library request old)
  (hframe : ∀ path, isWritten request.targetRepository path = false →
    middle.node path = old.node path)

include hseparate hframe

/-- What a migration reads is the same after other ones. -/
theorem Separate.readSource :
    (readSource library request).answered middle.node =
      (readSource library request).answered old.node :=
  answered_congr fun path hpath ↦ hframe path (hseparate.read path hpath)

theorem Separate.checkTarget {source : Source}
    (hsource : (ResumeMigration.readSource library request).answered old.node = .ok source) :
    (checkTarget library request source.plan).answered middle.node =
      (checkTarget library request source.plan).answered old.node :=
  answered_congr fun path hpath ↦ hframe path (hseparate.checked source hsource path hpath)

theorem Separate.complete (hcomplete : Complete library request middle now) :
    Complete library request old now := by
  obtain ⟨source, stateBytes, planPath, hsource, htarget, hfiles⟩ := hcomplete
  rw [hseparate.readSource hframe] at hsource
  rw [hseparate.checkTarget hframe hsource] at htarget
  exact ⟨source, stateBytes, planPath, hsource, htarget, hfiles⟩

theorem Separate.accepted {source : Source} {stateBytes : Bytes} {planPath : Path}
    (haccepted : Accepted library request old source stateBytes planPath) :
    Accepted library request middle source stateBytes planPath :=
  ⟨haccepted.valid, (hseparate.readSource hframe).trans haccepted.read,
    (hseparate.checkTarget hframe haccepted.read).trans haccepted.checked⟩

end Readings

/-! ### The invariant of the attempts -/

/-- What calls of the migration may have done. -/
structure History (library : Library) (source target : Path) (requests : List Request)
    (old now : FileTree) : Prop where
  targets : ∀ request ∈ requests, request.targetRepository = target
  source : ∀ path, source <+: path → now.node path = old.node path
  frame : ∀ path, isWritten target path = false → now.node path = old.node path
  runs : ∀ label, (∀ path, runRoot target label <+: path → now.node path = old.node path) ∨
    ∃ request ∈ requests, request.targetLabel = label ∧ Complete library request old now
  selected : now.node (selectorPath target) = old.node (selectorPath target) ∨
    ∃ request ∈ requests, now.node (selectorPath target) = some (.file (labelBytes request)) ∧
      Complete library request old now

/-- A call keeps what is found in the directory of another run. -/
theorem Safe.kept (hsafe : Safe library request middle now) {label : String}
    (hlabel : label ≠ request.targetLabel) {path : Path}
    (hpath : runRoot request.targetRepository label <+: path) :
    now.node path = middle.node path := by
  refine hsafe.runs path (fullTest_prefix_runRoot.trans hpath) ?_
    (targetFullRoot_not_above hlabel hpath)
  rintro rfl
  have hlength := hpath.length_le
  simp [runRoot, Request.fullTest, Request.targetOutputs] at hlength

/-- A call keeps a complete run. -/
theorem Safe.complete (hsafe : Safe library request middle now) {other : Request}
    (htarget : other.targetRepository = request.targetRepository)
    (hcomplete : Complete library other old middle) : Complete library other old now := by
  refine Complete.of_same hcomplete fun path hpath ↦ ?_
  rw [← runRoot_eq, htarget] at hpath
  by_cases hlabel : other.targetLabel = request.targetLabel
  · rw [hlabel, runRoot_eq] at hpath
    refine hsafe.published.elim (fun hsame ↦ hsame path hpath) fun ⟨habsent, _⟩ ↦ ?_
    have hnode := Complete.node hcomplete
    rw [← runRoot_eq, htarget, hlabel, runRoot_eq, habsent] at hnode
    cases hnode
  · exact Safe.kept hsafe hlabel hpath

/-- A call after others. -/
theorem History.call {source target : Path} {requests : List Request}
    (hhistory : History library source target requests old middle)
    (hsource : request.sourceRepository = source) (htarget : request.targetRepository = target)
    (hseparate : Separate library request old) (hsafe : Safe library request middle now) :
    History library source target (request :: requests) old now := by
  subst hsource htarget
  have hkept : ∀ other ∈ requests, Complete library other old middle →
      Complete library other old now := fun other hother hcomplete ↦
    Safe.complete hsafe (hhistory.targets other hother) hcomplete
  refine ⟨List.forall_mem_cons.mpr ⟨rfl, hhistory.targets⟩, fun path hpath ↦ ?_,
    fun path hpath ↦ ?_, fun label ↦ ?_, ?_⟩
  · rw [hsafe.frame path (hseparate.source path hpath), hhistory.source path hpath]
  · rw [hsafe.frame path hpath, hhistory.frame path hpath]
  · rcases hhistory.runs label with hold | ⟨other, hother, hlabel, hcomplete⟩
    · by_cases hlabel : label = request.targetLabel
      · subst hlabel
        rcases hsafe.published with hsame | ⟨-, hcomplete⟩
        · refine Or.inl fun path hpath ↦ ?_
          rw [hsame path (runRoot_eq ▸ hpath), hold path hpath]
        · exact Or.inr ⟨request, List.mem_cons_self, rfl,
            hseparate.complete hhistory.frame hcomplete⟩
      · exact Or.inl fun path hpath ↦ (Safe.kept hsafe hlabel hpath).trans (hold path hpath)
    · exact Or.inr ⟨other, List.mem_cons_of_mem _ hother, hlabel, hkept other hother hcomplete⟩
  · rw [selectorPath_eq]
    rcases hsafe.selected with hsame | ⟨hnode, hcomplete⟩
    · rw [hsame, ← selectorPath_eq]
      refine hhistory.selected.imp_right fun ⟨other, hother, hnode, hcomplete⟩ ↦ ?_
      exact ⟨other, List.mem_cons_of_mem _ hother, hnode, hkept other hother hcomplete⟩
    · exact Or.inr ⟨request, List.mem_cons_self, hnode,
        hseparate.complete hhistory.frame hcomplete⟩

/-- Calls of the migration are safe, wherever each of them ended. -/
theorem Attempts.history {source target : Path} {requests : List Request}
    (hattempts : Attempts library source target old requests now) :
    History library source target requests old now := by
  induction hattempts with
  | start =>
    exact ⟨fun _ ↦ nofun, fun _ _ ↦ rfl, fun _ _ ↦ rfl, fun _ ↦ Or.inl fun _ _ ↦ rfl, Or.inl rfl⟩
  | call _ hsource htarget hseparate hreaches ih =>
    exact ih.call hsource htarget hseparate (guarantees_migrate.of_reaches hreaches).holds

/-! ### The theorem -/

/-- Nothing obstructs the selection of a run. -/
structure Unobstructed (request : Request) (tree : FileTree) : Prop where
  pointer : tree.node request.pointer = none
  selector : tree.node request.selector ≠ some .directory
  fullTest : tree.node request.fullTest = none ∨ tree.node request.fullTest = some .directory

/-- The directory of a run has the plan of the configuration, the receipt, and the results of every
provider as the source has them. -/
def Holds (library : Library) (request : Request) (old now : FileTree) : Prop :=
  ∃ source label stateBytes,
    (readSource library request).answered old.node = .ok source ∧
    (readSourceLabel request).answered old.node = .ok label ∧
    old.node request.targetStatePath = some (.file stateBytes) ∧
    now.node (request.targetFullRoot ++ ["resolved-plan.json"]) =
      some (.file source.plan.bytes) ∧
    now.node (request.targetFullRoot ++ ["migration-receipt.json"]) =
      some (.file (library.canonicalJsonBytes (receipt library source stateBytes))) ∧
    ∀ provider ∈ providers, ∃ content,
      old.node (sourceFullRoot request label ++ ["results", resultName provider]) =
        some (.file content) ∧
      now.node (request.targetFullRoot ++ ["results", resultName provider]) =
        some (.file content)

theorem exists_resultRead {answers : Path → Option Node} {root : Path}
    {orderedQuestionIds selected : List String} {results : List ProviderResult}
    (hresults : List.Forall₂ (ResultRead library answers root orderedQuestionIds) selected results)
    {provider : String} (hprovider : provider ∈ selected) :
    ∃ result ∈ results, ResultRead library answers root orderedQuestionIds provider result := by
  induction hresults with
  | nil => cases hprovider
  | cons hfirst _ ih =>
    rcases List.mem_cons.mp hprovider with rfl | hlater
    · exact ⟨_, List.mem_cons_self, hfirst⟩
    · obtain ⟨result, hresult, hread⟩ := ih hlater
      exact ⟨result, List.mem_cons_of_mem _ hresult, hread⟩

theorem Complete.holds (hcomplete : Complete library request old now) :
    Holds library request old now := by
  obtain ⟨source, stateBytes, planPath, hsource, htarget, hfiles⟩ := hcomplete
  obtain ⟨label, hlabel, hread⟩ := sourceRead hsource
  refine ⟨source, label, stateBytes, hsource, hlabel, (targetChecked htarget).state,
    node_of_published hread hfiles mem_publishedFiles_plan,
    node_of_published hread hfiles mem_publishedFiles_receipt, fun provider hprovider ↦ ?_⟩
  obtain ⟨result, hresult, hresultRead⟩ := exists_resultRead hread hprovider
  have hfile := node_of_published hread hfiles (mem_publishedFiles_result hresult)
  rw [hresultRead.named] at hfile
  exact ⟨result.bytes, hresultRead.file, hfile⟩

/-- A migration that is accepted and not obstructed returns its receipt. -/
theorem perform_migrate (names : TemporaryNames) {source : Source} {stateBytes : Bytes}
    {planPath : Path} (haccepted : Accepted library request old source stateBytes planPath)
    (hunused : old.node request.targetFullRoot = none)
    (hunobstructed : Unobstructed request old) :
    ∃ last, perform (answer names) (migrateResumeData library request) old =
      (.ok (receipt library source stateBytes), last) := by
  obtain ⟨staged, hreaches, hstaged⟩ :=
    reaches_select names haccepted hunused hunobstructed.fullTest
  obtain ⟨last, hlast⟩ := perform_select names hstaged haccepted hunobstructed.pointer
    hunobstructed.selector
  exact ⟨last, (perform_of_reaches hreaches).trans (perform_bind_of_ok hlast)⟩

/-- Wherever the calls of the migration ended, the source is as it was, every run is as it was or
complete, and the selector names what it named or a complete run. A later call to a run that does
not exist succeeds, and selects its run, when nothing obstructs it. -/
theorem migrations_allOrNothing {source target : Path} {requests : List Request}
    (hattempts : Attempts library source target old requests now) :
    (∀ path, source <+: path → now.node path = old.node path) ∧
    (∀ label, (∀ path, runRoot target label <+: path → now.node path = old.node path) ∨
      ∃ request ∈ requests, request.targetLabel = label ∧ Holds library request old now) ∧
    (now.node (selectorPath target) = old.node (selectorPath target) ∨
      ∃ request ∈ requests, now.node (selectorPath target) = some (.file (labelBytes request)) ∧
        Holds library request old now) ∧
    ∀ (names : TemporaryNames) (request : Request) (read : Source) (stateBytes : Bytes)
      (planPath : Path), request.sourceRepository = source → request.targetRepository = target →
      Separate library request old → Accepted library request old read stateBytes planPath →
      now.node request.targetFullRoot = none → Unobstructed request now →
      ∃ last, perform (answer names) (migrateResumeData library request) now =
          (.ok (receipt library read stateBytes), last) ∧
        last.node (selectorPath target) = some (.file (labelBytes request)) ∧
        Holds library request old last := by
  have hhistory := Attempts.history hattempts
  refine ⟨hhistory.source, fun label ↦ ?_, ?_, ?_⟩
  · exact (hhistory.runs label).imp_right fun ⟨request, hrequest, hlabel, hcomplete⟩ ↦
      ⟨request, hrequest, hlabel, Complete.holds hcomplete⟩
  · exact hhistory.selected.imp_right fun ⟨request, hrequest, hnode, hcomplete⟩ ↦
      ⟨request, hrequest, hnode, Complete.holds hcomplete⟩
  · rintro names request read stateBytes planPath rfl rfl hseparate haccepted hunused hunobstructed
    obtain ⟨last, hlast⟩ := perform_migrate names
      (hseparate.accepted hhistory.frame haccepted) hunused hunobstructed
    obtain ⟨hcomplete, hselected⟩ := (guarantees_migrate.of_perform serve_answer hlast).2 _ rfl
    refine ⟨last, hlast, selectorPath_eq ▸ hselected, ?_⟩
    exact Complete.holds (hseparate.complete hhistory.frame hcomplete)

/-! ### A call that obstructs later ones -/

/-- A call that is stopped before it replaces the selector leaves its temporary file behind. -/
theorem exists_obstruction (names : TemporaryNames) {source : Source} {stateBytes : Bytes}
    {planPath : Path} (haccepted : Accepted library request old source stateBytes planPath)
    (hunused : old.node request.targetFullRoot = none)
    (hunobstructed : Unobstructed request old) :
    ∃ rest middle, Reaches (Serve names) (migrateResumeData library request) old rest middle ∧
      middle.node request.pointer ≠ none ∧
      ∀ name, name ≠ pointerName request.processId → (∀ suffix, name ≠ stagingStart ++ suffix) →
        middle.node (request.targetTmp ++ [name]) = old.node (request.targetTmp ++ [name]) := by
  obtain ⟨staged, hreaches, hstaged⟩ :=
    reaches_select names haccepted hunused hunobstructed.fullTest
  obtain ⟨written, hwritten, hnode, hsame⟩ := reaches_replace names hstaged haccepted
    (hstaged.pointer.trans hunobstructed.pointer)
  refine ⟨_, written, (hreaches.trans (hwritten.bind _)).mono ?_, by simp [hnode], ?_⟩
  · intro state query result later hanswer
    have hserve := @serve_answer names state query
    rwa [hanswer] at hserve
  · intro name hname hstaging
    rw [hsame _ fun hpath ↦ hname (List.cons.inj (List.append_cancel_left hpath)).1,
      hstaged.kept hstaging List.prefix_rfl]

/-- A call fails when the temporary file of its selector is there. -/
theorem perform_migrate_of_pointer (names : TemporaryNames) {source : Source} {stateBytes : Bytes}
    {planPath : Path} (haccepted : Accepted library request old source stateBytes planPath)
    (hunused : old.node request.targetFullRoot = none)
    (hruns : old.node request.fullTest = none ∨ old.node request.fullTest = some .directory)
    (hpointer : old.node request.pointer ≠ none) :
    ∃ error last, perform (answer names) (migrateResumeData library request) old =
      (.error error, last) := by
  obtain ⟨staged, hreaches, hstaged⟩ := reaches_select names haccepted hunused hruns
  obtain ⟨error, last, hlast⟩ := perform_select_of_pointer names hstaged haccepted hpointer
  exact ⟨error, last, (perform_of_reaches hreaches).trans (perform_bind_of_error hlast)⟩

/-! ### An example -/

section Example

/-- A temporary directory with a name that is longer than every other one. -/
def sampleSuffix (tree : FileTree) (_ : Path) (_ : String) : String :=
  String.ofList
    (List.replicate ((tree.paths.flatten.map String.length).max?.getD 0 + 1) 'a')

theorem sampleSuffix_fresh (tree : FileTree) (parent : Path) (start : String) :
    tree.node (parent ++ [start ++ sampleSuffix tree parent start]) = none := by
  by_contra hpresent
  have hname : (start ++ sampleSuffix tree parent start).length ∈
      tree.paths.flatten.map String.length :=
    List.mem_map_of_mem (List.mem_flatten.mpr
      ⟨_, FileSystem.mem_paths.mpr hpresent, List.mem_append_right _ List.mem_cons_self⟩)
  have hbound := @List.le_max?_getD_of_mem _ _ 0 hname
  rw [String.length_append, sampleSuffix, String.length_ofList, List.length_replicate] at hbound
  omega

def sampleNames : TemporaryNames := ⟨sampleSuffix, sampleSuffix_fresh⟩

/-- The bytes of a document that has its members in order, and only ASCII characters. -/
def sampleBytes (document : Json) : Bytes :=
  (JsonText.write false document).map fun char ↦ char.toNat.toUInt8

def samplePlanMembers (hash : List (String × Json)) (endpoint : List (String × Json)) : Json :=
  .object ([("cells", .array []), ("comparison_id", .string "lme"), ("dataset", .string "lme-s"),
    ("decision", .string "paired")] ++ endpoint ++
    [("execution", .string "serial"), ("model_roles", .array [])] ++ hash ++
    [("retrieval", .string "top-k"), ("schema_name", .string "resolved_plan"),
      ("schema_version", .integer 1)])

def sampleLegacyHash : String :=
  "212bacb39c99464a30487da02e531f47df24d5a5639f2b2b9406bd3a9b9fea32"

def samplePlanHash : String :=
  "cd0bc56098f7301360547d8a3acab682b568f2f693b007f95bbb8c02e0157d29"

def sampleLegacyPlan : Json :=
  samplePlanMembers [("resolved_plan_hash", .string sampleLegacyHash)] []

def samplePlanDocument : Json :=
  samplePlanMembers [("resolved_plan_hash", .string samplePlanHash)]
    [("embedding_endpoint", .string "local")]

def sampleDataset : Json := .array [.object [("question_id", .string "q1")]]

def sampleDatasetHash : String :=
  "2f7d977bec4135d5cdc707feb42ab91334027fdc0a9b477a335af9b7b4b4f3fe"

def samplePlan : ResolvedPlan where
  bytes := sampleBytes samplePlanDocument
  resolvedPlanHash := samplePlanHash
  datasetSourceSha256 := sampleDatasetHash
  datasetWorkloadId := "lme-s"
  datasetCaseManifestHash := "manifest"
  cellByProvider := providers.map fun provider ↦ (provider, provider ++ "-cell")

def sampleProgress (provider : String) : Json :=
  .object [("case_manifest_hash", .string "manifest"), ("cell_id", .string (provider ++ "-cell")),
    ("ordered_question_ids", .array [.string "q1"]), ("provider_id", .string provider),
    ("resolved_plan_hash", .string sampleLegacyHash), ("results", .array []),
    ("schema_name", .string "full_progress"), ("schema_version", .integer 1),
    ("workload_id", .string "lme-s")]

def sampleSourceState : Json :=
  .object [("dataset_source", .string "data.json"), ("resolved_plan", .string "plan.json")]

def sampleTargetState : Json :=
  .object [("dataset_source", .string "data.json"),
    ("embedding_ownership", .string "embedding_local_fallback"),
    ("resolved_plan", .string "outputs/tmp/precheck/pre/plan/resolved-plan.json"),
    ("run_label", .string "pre"), ("work_dir", .string "outputs/tmp/precheck/pre")]

/-- The digests of the documents of the example. -/
def sampleDigests : List (Json × String) :=
  [(sampleDataset, sampleDatasetHash),
    (.array [.string "oamb-resolved-plan-initial-v1", samplePlanMembers [] []], sampleLegacyHash),
    (sampleLegacyPlan, "d657f1ca8c19bdeda8a38c11047c9d41c58d4f697904c2ee6a5c7cd2606fc563"),
    (.object [], "44136fa355b3678a1146ad16f7e8649e94fb4fc21fe77e8310c060f61caaff8a"),
    (sampleProgress "hindsight",
      "4daeef94d1457f09848c87e88a98708a80ba219523de0b8268ce6f84bb2ed581"),
    (sampleProgress "mem0", "52cba02126f7a5dfcf4dd78c9ed8b12d0f8eb319c04f5c2f7ccb7d5d967b51d6"),
    (sampleProgress "openviking",
      "79b907f21d66dfac72327b5088c3252894fab68f6ba6d07aab2b093d1d66d98f"),
    (sampleTargetState, "938795c9c61c480f92eff968b7d3eb55a74f8cad4a3df8edc599efa5f10299e6")]

def sampleSha256 (content : Bytes) : String :=
  ((sampleDigests.find? fun entry ↦ sampleBytes entry.1 = content).map Prod.snd).getD ""

/-- The documents of the example. -/
def sampleDocuments : List Json :=
  [sampleSourceState, sampleTargetState, sampleLegacyPlan, samplePlanDocument, .object []] ++
    providers.map sampleProgress

def sampleLibrary : Library where
  sha256 := sampleSha256
  canonicalSha256 document := sampleSha256 (sampleBytes document)
  canonicalJsonBytes := sampleBytes
  loadJson content := sampleDocuments.find? fun document ↦ sampleBytes document = content
  equal first second := decide (sampleBytes first = sampleBytes second)
  resolvePlan _ _ := .ok samplePlan
  buildCaseManifest _ := .ok ⟨"manifest", ["q1"]⟩
  loadQuestionResults _ _ := .ok []
  checkReadiness _ _ := pure ()

def sampleRequest (label : String) (processId : ℕ) : Request where
  sourceRepository := ["old"]
  targetRepository := ["new"]
  benchmarkConfig := ["new", "benchmark.yaml"]
  datasetSource := ["new", "data.json"]
  targetLabel := label
  modelEnvironment := []
  processId := processId

/-- The files of the two repositories. -/
def sampleFiles : List (Path × Bytes) :=
  [(["old", "outputs", "tmp", "quick-start-current.json"], sampleBytes sampleSourceState),
    (["old", "outputs", "tmp", "full-test-current"], JsonText.utf8 "run\n".toList),
    (["old", "plan.json"], sampleBytes sampleLegacyPlan),
    (["old", "data.json"], sampleBytes sampleDataset),
    (["old", "outputs", "full-test", "run", "resolved-plan.json"], sampleBytes sampleLegacyPlan)] ++
  providers.flatMap (fun provider ↦
    [(["old", "outputs", "full-test", "run", "results", resultName provider],
        sampleBytes (.object [])),
      (["old", "outputs", "full-test", "run", "results", s!"progress-{provider}.json"],
        sampleBytes (sampleProgress provider))]) ++
  [(["new", "benchmark.yaml"], JsonText.utf8 "comparison: lme\n".toList),
    (["new", "data.json"], sampleBytes sampleDataset),
    (["new", "outputs", "tmp", "quick-start-current.json"], sampleBytes sampleTargetState),
    (["new", "outputs", "tmp", "precheck", "pre", "plan", "resolved-plan.json"],
      sampleBytes samplePlanDocument)]

def sampleTree : FileTree :=
  (perform (answer sampleNames) (writeFiles [] sampleFiles) FileTree.empty).2

/-- What a migration of the example reads. -/
def sampleSource : Source where
  legacyPlanBytes := sampleBytes sampleLegacyPlan
  legacyPlanHash := sampleLegacyHash
  plan := samplePlan
  orderedQuestionIds := ["q1"]
  results := providers.map fun provider ↦
    ⟨provider, sampleBytes (.object []), 0, 1, sampleSha256 (sampleBytes (.object [])),
      sampleSha256 (sampleBytes (sampleProgress provider))⟩

section Requests

variable (label : String) (processId : ℕ)

theorem sample_readSource :
    (readSource sampleLibrary (sampleRequest label processId)).answered sampleTree.node =
      .ok sampleSource := by
  have hfirst : (readSource sampleLibrary (sampleRequest "first" 0)).answered sampleTree.node =
      .ok sampleSource := by decide +kernel
  exact hfirst

def samplePlanPath : Path :=
  ["new", "outputs", "tmp", "precheck", "pre", "plan", "resolved-plan.json"]

theorem sample_accepted (hlabel : validateLabel label = .ok ()) :
    Accepted sampleLibrary (sampleRequest label processId) sampleTree sampleSource
      (sampleBytes sampleTargetState) samplePlanPath := by
  have hfirst : (checkTarget sampleLibrary (sampleRequest "first" 0) samplePlan).answered
      sampleTree.node = .ok (sampleBytes sampleTargetState, samplePlanPath) := by decide +kernel
  exact ⟨hlabel, sample_readSource label processId, hfirst⟩

theorem isWritten_of_other {target path : Path} (hother : ¬ target <+: path) :
    isWritten target path = false := by
  rw [isWritten, decide_eq_false fun hbelow ↦ hother ((List.prefix_append _ _).trans hbelow),
    decide_eq_false fun hbelow ↦ hother ((List.prefix_append _ _).trans hbelow)]
  rfl

theorem sample_separate :
    Separate sampleLibrary (sampleRequest label processId) sampleTree := by
  have hread : ∀ path ∈ (readSource sampleLibrary (sampleRequest "first" 0)).asked
      sampleTree.node, isWritten ["new"] path = false := by decide +kernel
  have hchecked : ∀ path ∈ (checkTarget sampleLibrary (sampleRequest "first" 0) samplePlan).asked
      sampleTree.node, isWritten ["new"] path = false := by decide +kernel
  refine ⟨fun path hpath ↦ isWritten_of_other fun hbelow ↦ ?_, hread, fun source hsource ↦ ?_⟩
  · exact absurd (@eq_of_prefixes [] [] [] path "old" "new" hpath hbelow) (by decide)
  · have hplan := Except.ok.inj ((sample_readSource label processId).symm.trans hsource)
    subst hplan
    exact hchecked

theorem sample_fullTest :
    sampleTree.node (sampleRequest label processId).fullTest = none := by
  have hfirst : sampleTree.node (sampleRequest "first" 0).fullTest = none := by decide +kernel
  exact hfirst

theorem sample_unused :
    sampleTree.node (sampleRequest label processId).targetFullRoot = none :=
  FileTree.node_eq_none_of_prefix (sample_fullTest label processId) fullTest_prefix_targetFullRoot

end Requests

theorem sample_unobstructed : Unobstructed (sampleRequest "first" 7) sampleTree := by
  have hnodes : sampleTree.node (sampleRequest "first" 7).pointer = none ∧
      sampleTree.node (sampleRequest "first" 7).selector ≠ some .directory := by decide +kernel
  exact ⟨hnodes.1, hnodes.2, Or.inl (sample_fullTest "first" 7)⟩

/-- A call that ended before it replaced the selector, and what later calls find. -/
theorem sample_attempt : ∃ now,
    Attempts sampleLibrary ["old"] ["new"] sampleTree [sampleRequest "first" 7] now ∧
    (∀ processId, now.node (sampleRequest "second" processId).targetFullRoot = none) ∧
    (now.node (sampleRequest "first" 7).fullTest = none ∨
      now.node (sampleRequest "first" 7).fullTest = some .directory) ∧
    now.node (sampleRequest "first" 7).pointer ≠ none ∧
    now.node (sampleRequest "first" 8).pointer = none ∧
    now.node (sampleRequest "first" 8).selector ≠ some .directory := by
  obtain ⟨rest, now, hreaches, hpointer, hothers⟩ := exists_obstruction sampleNames
    (sample_accepted "first" 7 rfl) (sample_unused "first" 7) sample_unobstructed
  have hattempts :
      Attempts sampleLibrary ["old"] ["new"] sampleTree [sampleRequest "first" 7] now :=
    .call .start rfl rfl (sample_separate "first" 7) hreaches
  refine ⟨now, hattempts, fun processId ↦ ?_, ?_, hpointer, ?_, ?_⟩
  · rw [← runRoot_eq]
    refine ((Attempts.history hattempts).runs "second").elim (fun hsame ↦ ?_)
      fun ⟨other, hother, hlabel, _⟩ ↦ ?_
    · exact (hsame _ List.prefix_rfl).trans (sample_unused "second" processId)
    · rw [List.mem_singleton.mp hother] at hlabel
      exact absurd hlabel (by decide)
  · exact (guarantees_migrate.of_reaches hreaches).holds.fullTest.imp
      (fun hsame ↦ hsame.trans (sample_fullTest "first" 7)) And.right
  · have hnode : sampleTree.node (sampleRequest "first" 8).pointer = none := by decide +kernel
    exact (hothers _ (by decide) (pointer_ne_staging 8)).trans hnode
  · have hsame := hothers _ (selector_ne_pointer 7) selector_ne_staging
    exact fun hnode ↦ sample_unobstructed.selector (hsame.symm.trans hnode)

/-- After a call that ended before it replaced the selector, a call of another process selects its
own run. -/
theorem migrations_allOrNothing_sample : ∃ now last,
    Attempts sampleLibrary ["old"] ["new"] sampleTree [sampleRequest "first" 7] now ∧
    perform (answer sampleNames) (migrateResumeData sampleLibrary (sampleRequest "second" 8)) now =
      (.ok (receipt sampleLibrary sampleSource (sampleBytes sampleTargetState)), last) ∧
    last.node (selectorPath ["new"]) = some (.file (labelBytes (sampleRequest "second" 8))) ∧
    Holds sampleLibrary (sampleRequest "second" 8) sampleTree last := by
  obtain ⟨now, hattempts, hunused, hruns, -, hpointer, hselector⟩ := sample_attempt
  obtain ⟨last, hlast⟩ := (migrations_allOrNothing hattempts).2.2.2 sampleNames
    (sampleRequest "second" 8) sampleSource (sampleBytes sampleTargetState) samplePlanPath rfl rfl
    (sample_separate "second" 8) (sample_accepted "second" 8 rfl) (hunused 8)
    ⟨hpointer, hselector, hruns⟩
  exact ⟨now, last, hattempts, hlast⟩

/-- After a call that ended before it replaced the selector, a call of the same process to another
run fails. -/
theorem migration_obstructed : ∃ now,
    Attempts sampleLibrary ["old"] ["new"] sampleTree [sampleRequest "first" 7] now ∧
    Separate sampleLibrary (sampleRequest "second" 7) sampleTree ∧
    Accepted sampleLibrary (sampleRequest "second" 7) sampleTree sampleSource
      (sampleBytes sampleTargetState) samplePlanPath ∧
    now.node (sampleRequest "second" 7).targetFullRoot = none ∧
    ∀ names, ∃ error last, perform (answer names)
      (migrateResumeData sampleLibrary (sampleRequest "second" 7)) now = (.error error, last) := by
  obtain ⟨now, hattempts, hunused, hruns, hpointer, -⟩ := sample_attempt
  have haccepted := sample_accepted "second" 7 rfl
  have hseparate := sample_separate "second" 7
  refine ⟨now, hattempts, hseparate, haccepted, hunused 7, fun names ↦ ?_⟩
  exact perform_migrate_of_pointer names
    (hseparate.accepted (Attempts.history hattempts).frame haccepted) (hunused 7) hruns hpointer

end Example

end Oamb.Scripts.ResumeMigrationGuarantees
