import Oamb.Scripts.MigrationSafety

/-!
# Migrations that are not disturbed

A migration comes to the selection of its run when its inputs are accepted and its run does not
exist (`reaches_select`). The selection is made when nothing stands where the temporary file of the
selector is written (`perform_select`), and fails when something does (`perform_select_of_pointer`).
-/

set_option autoImplicit false

namespace Oamb.Scripts.MigrationRuns

open Foundation Foundation.Dialogue Foundation.CrashLogic Foundation.FileCalls
open ResumeMigration MigrationSteps MigrationSafety

variable {library : Library} {request : Request} {names : TemporaryNames}
  {old tree : FileTree}

/-! ### Files that can be written -/

theorem serve_answer (state : FileTree) (query : FileQuery) :
    Serve names state query (answer names state query).1 (answer names state query).2 :=
  .regular query

/-- A file is written when nothing is at its path and there are only directories on the way. -/
theorem perform_writeCreateOnly (names : TemporaryNames) (content : Bytes) {path : Path}
    (hpath : path ≠ [])
    (hnone : tree.node path = none)
    (hfree : ∀ other, other <+: path.dropLast → tree.node other = none ∨
      tree.node other = some .directory) :
    ∃ next, perform (answer names) (writeCreateOnly path content) tree = (.ok (), next) := by
  obtain ⟨middle, hmiddle⟩ :
      ∃ middle, perform (answer names) (makeDirectories .raised path.dropLast : Migration Unit)
        tree = (.ok (), middle) := perform_makeDirectories hfree
  have hpost := ((guarantees_makeDirectories path.dropLast).of_perform serve_answer hmiddle).2
  obtain ⟨hdirectories, hothers⟩ := hpost rfl
  have habsent : middle.node path = none := by
    rw [hothers path fun hlong ↦ ?_, hnone]
    have hlength := hlong.length_le
    rw [List.length_dropLast] at hlength
    have hpositive := List.length_pos_iff.mpr hpath
    omega
  have hcreate : answer names middle (.createExclusive path) =
      (.ok middle.inodes, middle.addFile path habsent (hdirectories _ List.prefix_rfl)) := by
    rw [answer, dif_pos ⟨habsent, hdirectories _ List.prefix_rfl⟩]
  obtain ⟨next, hwrite⟩ : ∃ next, perform (answer names) (do
      act .raised (.write middle.inodes content)
      act .raised (.sync middle.inodes) : Migration Unit)
      (middle.addFile path habsent (hdirectories _ List.prefix_rfl)) = (.ok (), next) :=
    ⟨_, rfl⟩
  exact ⟨next, (perform_bind_of_ok hmiddle).trans
    ((perform_bind_of_ok (perform_act_of_ok _ hcreate)).trans (perform_handle_of_ok hwrite))⟩

/-- No path is on the way to another one. -/
def Incomparable (first second : Path) : Prop := ¬ first <+: second ∧ ¬ second <+: first

theorem layout_of_incomparable {files : List (Path × Bytes)} {path rest : Path}
    (hfiles : ∀ file ∈ files, Incomparable file.1 path) (hbelow : rest <+: path) :
    layout files rest = none ∨ layout files rest = some .directory := by
  have hlookup : files.lookup rest = none := by
    rw [List.lookup_eq_none_iff]
    intro file hfile
    refine bne_iff_ne.mpr ?_
    rintro rfl
    exact (hfiles file hfile).1 hbelow
  rw [layout, hlookup]
  by_cases hany : (files.any fun file ↦ decide (rest <+: file.1)) = true
  · exact Or.inr (if_pos hany)
  · exact Or.inl (if_neg hany)

theorem layout_eq_none {files : List (Path × Bytes)} {path : Path}
    (hfiles : ∀ file ∈ files, Incomparable file.1 path) : layout files path = none := by
  refine (layout_of_incomparable hfiles List.prefix_rfl).resolve_right fun hdirectory ↦ ?_
  rw [layout] at hdirectory
  cases hlookup : files.lookup path with
  | some content =>
    rw [hlookup] at hdirectory
    cases hdirectory
  | none =>
    rw [hlookup] at hdirectory
    by_cases hany : (files.any fun file ↦ decide (path <+: file.1)) = true
    · obtain ⟨file, hfile, hbelow⟩ := List.any_eq_true.mp hany
      exact (hfiles file hfile).2 (of_decide_eq_true hbelow)
    · rw [if_neg hany] at hdirectory
      cases hdirectory

/-- Files are written below a directory, where no one is on the way to another one. -/
theorem perform_writeFiles {root : Path} (hroot : root ≠ []) {files written : List (Path × Bytes)}
    (hlayout : Layout root written tree) (hrooted : Rooted tree root)
    (hfiles : (written ++ files).Pairwise fun file other ↦ Incomparable file.1 other.1)
    (hpaths : ∀ file ∈ files, file.1 ≠ []) :
    ∃ next, perform (answer names) (writeFiles root files) tree = (.ok (), next) := by
  induction files generalizing tree written with
  | nil => exact ⟨tree, rfl⟩
  | cons file files ih =>
    obtain ⟨path, content⟩ := file
    rw [List.forall_mem_cons] at hpaths
    have hbefore : ∀ other ∈ written, Incomparable other.1 path := fun other hother ↦
      (List.pairwise_append.mp hfiles).2.2 other hother _ List.mem_cons_self
    have hnone : tree.node (root ++ path) = none := by
      rw [hlayout path, layout_eq_none hbefore]
    have hpath : root ++ path ≠ [] := List.append_ne_nil_of_left_ne_nil hroot path
    obtain ⟨next, hnext⟩ := perform_writeCreateOnly names content hpath hnone
      fun other hother ↦ by
        rw [List.dropLast_append_of_ne_nil hpaths.1] at hother
        rcases List.prefix_or_prefix_of_prefix hother (List.prefix_append root _) with
          habove | hwithin
        · by_cases hsame : other = root
          · obtain rfl := hsame
            have hempty := hlayout []
            rw [List.append_nil] at hempty
            rw [hempty]
            exact layout_of_incomparable hbefore List.nil_prefix
          · exact Or.inr (hrooted other habove hsame)
        · obtain ⟨rest, rfl⟩ := hwithin
          rw [hlayout rest]
          refine layout_of_incomparable hbefore ?_
          exact ((List.prefix_append_right_inj root).mp hother).trans (List.dropLast_prefix path)
    obtain ⟨hadds, hwrites⟩ := (guarantees_writeCreateOnly hpath).of_perform serve_answer hnext
    obtain ⟨last, hlast⟩ := ih (hlayout.write (hwrites rfl) hadds)
      ((Outside.of_adds hrooted hadds).rooted hrooted)
      (by rwa [List.append_assoc]) hpaths.2
    exact ⟨last, (perform_bind_of_ok hnext).trans hlast⟩

/-! ### The published files -/

section Published

variable {source : Source} {answers : Path → Option Node} {label : String} {stateBytes : Bytes}

/-- The paths of the published files. -/
def publishedPaths : List Path :=
  ["resolved-plan.json"] :: providers.map (fun provider ↦ ["results", resultName provider]) ++
    [["migration-receipt.json"]]

/-- The results that were read, with their providers. -/
theorem map_provider {root : Path} {orderedQuestionIds selected : List String}
    {results : List ProviderResult}
    (hresults : List.Forall₂ (ResultRead library answers root orderedQuestionIds) selected
      results) : results.map ProviderResult.provider = selected := by
  induction hresults with
  | nil => rfl
  | cons hresult _ ih => rw [List.map_cons, ih, hresult.named]

theorem resultRead_of_mem {root : Path} {orderedQuestionIds selected : List String}
    {results : List ProviderResult}
    (hresults : List.Forall₂ (ResultRead library answers root orderedQuestionIds) selected
      results) {result : ProviderResult} (hresult : result ∈ results) :
    ResultRead library answers root orderedQuestionIds result.provider result := by
  induction hresults with
  | nil => cases hresult
  | cons hfirst _ ih =>
    rcases List.mem_cons.mp hresult with rfl | hlater
    · exact hfirst.named.symm ▸ hfirst
    · exact ih hlater

theorem map_publishedFiles (hsource : SourceRead library request answers source label) :
    (publishedFiles library source stateBytes).map Prod.fst = publishedPaths := by
  have hnames : source.results.map ProviderResult.provider = providers := map_provider hsource
  rw [publishedFiles, publishedPaths, ← hnames, List.map_append, List.map_cons, List.map_map,
    List.map_map]
  rfl

theorem pairwise_publishedFiles (hsource : SourceRead library request answers source label) :
    (publishedFiles library source stateBytes).Pairwise
      fun file other ↦ Incomparable file.1 other.1 := by
  have hpaths : publishedPaths.Pairwise Incomparable := by
    unfold Incomparable
    decide
  rw [← map_publishedFiles hsource] at hpaths
  exact List.pairwise_map.mp hpaths

theorem ne_nil_of_mem_publishedFiles (hsource : SourceRead library request answers source label)
    {file : Path × Bytes} (hfile : file ∈ publishedFiles library source stateBytes) :
    file.1 ≠ [] := by
  have hpath : file.1 ∈ publishedPaths := by
    rw [← map_publishedFiles hsource]
    exact List.mem_map_of_mem hfile
  have hall : ∀ path ∈ publishedPaths, path ≠ [] := by decide
  exact hall _ hpath

theorem lookup_of_pairwise {files : List (Path × Bytes)} {file : Path × Bytes}
    (hfiles : files.Pairwise fun file other ↦ Incomparable file.1 other.1) (hfile : file ∈ files) :
    files.lookup file.1 = some file.2 := by
  induction files with
  | nil => cases hfile
  | cons first files ih =>
    obtain ⟨hfirst, hrest⟩ := List.pairwise_cons.mp hfiles
    rcases List.mem_cons.mp hfile with rfl | hlater
    · exact List.lookup_cons_self
    · have hne : file.1 ≠ first.1 := fun hsame ↦
        (hfirst file hlater).1 (hsame ▸ List.prefix_rfl)
      rw [List.lookup_cons, beq_false_of_ne hne]
      exact ih hrest hlater

theorem node_of_published (hsource : SourceRead library request answers source label) {root : Path}
    (hlayout : Layout root (publishedFiles library source stateBytes) tree) {file : Path × Bytes}
    (hfile : file ∈ publishedFiles library source stateBytes) :
    tree.node (root ++ file.1) = some (.file file.2) := by
  rw [hlayout, layout_of_lookup (lookup_of_pairwise (pairwise_publishedFiles hsource) hfile)]

theorem mem_publishedFiles_plan :
    (["resolved-plan.json"], source.plan.bytes) ∈ publishedFiles library source stateBytes :=
  List.mem_cons_self

theorem mem_publishedFiles_result {result : ProviderResult} (hresult : result ∈ source.results) :
    (["results", resultName result.provider], result.bytes) ∈
      publishedFiles library source stateBytes :=
  List.mem_append_left _ (List.mem_cons_of_mem _
    (List.mem_map_of_mem (f := fun result : ProviderResult ↦
      (["results", resultName result.provider], result.bytes)) hresult))

theorem mem_publishedFiles_receipt :
    (["migration-receipt.json"], library.canonicalJsonBytes (receipt library source stateBytes)) ∈
      publishedFiles library source stateBytes :=
  List.mem_append_right _ List.mem_cons_self

theorem answered_forM {items : List ProviderResult} {check : ProviderResult → MigrationReading Unit}
    (hall : ∀ item ∈ items, (check item).answered answers = .ok ()) :
    (items.forM check).answered answers = .ok () := by
  induction items with
  | nil => rfl
  | cons item items ih =>
    rw [List.forall_mem_cons] at hall
    exact answered_bind_eq_ok.mpr ⟨(), hall.1, ih hall.2⟩

/-- The staged results pass the rehearsal. -/
theorem answered_rehearse (hsource : SourceRead library request answers source label) {root : Path}
    (hlayout : Layout root (publishedFiles library source stateBytes) tree) :
    (source.results.forM (rehearse library source root)).answered tree.node = .ok () := by
  refine answered_forM fun result hresult ↦ ?_
  have hread := resultRead_of_mem hsource hresult
  have hfile : tree.node (root ++ ["results", resultName result.provider]) =
      some (.file result.bytes) := node_of_published hsource hlayout
    (mem_publishedFiles_result hresult)
  obtain ⟨results, hload, hremaining⟩ := hread.remaining
  refine answered_bind_eq_ok.mpr ⟨result.bytes, answered_readRegular.mpr hfile, ?_⟩
  refine answered_bind_eq_ok.mpr
    ⟨(), answered_refuseIf.mpr (not_not_intro hread.digest.symm), ?_⟩
  refine answered_bind_eq_ok.mpr ⟨results, ?_, ?_⟩
  · rw [hload]
    rfl
  · exact answered_refuseIf.mpr (not_not_intro hremaining.symm)

end Published

/-! ### The staged run -/

section Staging

variable {source : Source} {label : String} {stateBytes : Bytes} {staging : Path}

theorem layout_nil_publishedFiles :
    layout (publishedFiles library source stateBytes) [] = some .directory := by
  have hlookup : (publishedFiles library source stateBytes).lookup [] = none := by
    rw [List.lookup_eq_none_iff]
    intro file hfile
    simp only [publishedFiles, List.cons_append, List.mem_cons, List.mem_append, List.mem_map,
      List.not_mem_nil, or_false] at hfile
    rcases hfile with rfl | ⟨result, -, rfl⟩ | rfl <;> rfl
  rw [layout, hlookup]
  rfl

/-- The staged run is moved to a place at which nothing is. -/
theorem answer_renameStaged (hstaging : IsStaging request staging)
    (hfull : tree.node (staging ++ ["full"]) = some .directory)
    (hparent : tree.node request.fullTest = some .directory)
    (habsent : tree.node request.targetFullRoot = none) :
    ∃ next, answer names tree (.renameDirectory (staging ++ ["full"]) request.targetFullRoot) =
      (.ok (), next) := by
  have hdropped : request.targetFullRoot.dropLast = request.fullTest := by
    rw [Request.targetFullRoot, List.dropLast_concat]
  have hbelow : ¬ staging ++ ["full"] <+: request.targetFullRoot.dropLast := by
    rw [hdropped]
    exact fun hwithin ↦ hstaging.not_fullTest List.prefix_rfl
      ((List.prefix_append _ _).trans hwithin)
  have hne : request.targetFullRoot ≠ [] := by simp [Request.targetFullRoot]
  rw [answer, dif_pos ⟨⟨by simp, hne⟩, hdropped.symm ▸ hparent, hbelow⟩,
    if_pos ⟨hfull, Or.inl habsent⟩]
  exact ⟨_, rfl⟩

/-- The staging directory is removed when nothing is left in it. -/
theorem answer_removeStaging (hstaging : IsStaging request staging)
    (hnode : tree.node staging = some .directory)
    (hempty : ∀ other, staging <+: other → other ≠ staging → tree.node other = none) :
    ∃ next, answer names tree (.removeDirectory staging) = (.ok (), next) := by
  have hne : staging ≠ [] := by
    obtain ⟨suffix, rfl⟩ := hstaging
    simp
  rw [answer, dif_pos ⟨hne, hnode, isVacant_iff.mpr hempty⟩]
  exact ⟨_, rfl⟩

theorem perform_stageAndPublish (names : TemporaryNames) (stateBytes : Bytes)
    (hsource : SourceRead library request old.node source label)
    (hstaging : IsStaging request staging) (habsent : old.node staging = none)
    (htmp : old.node request.targetTmp = some .directory)
    (hmade : tree.node staging = some .directory)
    (hsame : ∀ path, path ≠ staging → tree.node path = old.node path)
    (hunused : old.node request.targetFullRoot = none)
    (hruns : old.node request.fullTest = none ∨ old.node request.fullTest = some .directory) :
    ∃ next, perform (answer names) (stageAndPublish library request source stateBytes staging)
      tree = (.ok (), next) := by
  have hnested : ∀ path, staging ++ ["full"] <+: path → staging <+: path := fun path hpath ↦
    (List.prefix_append _ _).trans hpath
  have hinside : ∀ path, staging <+: path → path ≠ staging → tree.node path = none :=
    fun path hpath hne ↦ (hsame path hne).trans (FileTree.node_eq_none_of_prefix habsent hpath)
  have hempty : Layout (staging ++ ["full"]) [] tree := fun rest ↦
    hinside _ (hnested _ (List.prefix_append _ _)) (by simp)
  have hrooted : Rooted tree (staging ++ ["full"]) := by
    intro other hbelow hne
    have hshort := prefix_dropLast hbelow hne
    rw [List.dropLast_concat] at hshort
    exact FileTree.directory_of_prefix hmade hshort
  -- The files are written.
  obtain ⟨written, hwritten⟩ : ∃ written, perform (answer names)
      (writeFiles (staging ++ ["full"]) (publishedFiles library source stateBytes)) tree =
        (.ok (), written) :=
    perform_writeFiles (by simp) hempty hrooted (pairwise_publishedFiles hsource)
      fun file hfile ↦ ne_nil_of_mem_publishedFiles hsource hfile
  obtain ⟨houtside, hfiles⟩ :=
    (guarantees_writeFiles (by simp) hempty hrooted).of_perform serve_answer hwritten
  have hlayout := hfiles rfl
  rw [List.nil_append] at hlayout
  have houtsideOld : ∀ path, ¬ staging <+: path → written.node path = old.node path := by
    intro path hpath
    rw [houtside path fun hbelow ↦ hpath (hnested path hbelow),
      hsame path fun heq ↦ hpath (heq ▸ List.prefix_rfl)]
  have hrehearsed : perform (answer names)
      (reads .raised (source.results.forM (rehearse library source (staging ++ ["full"]))) :
        Migration Unit) written = (.ok (), written) := by
    rw [perform_reads, answered_rehearse hsource hlayout]
  -- The directory of the runs is made.
  have hparent : request.targetFullRoot.dropLast = request.fullTest := by
    rw [Request.targetFullRoot, List.dropLast_concat]
  obtain ⟨led, hled⟩ : ∃ led, perform (answer names)
      (makeDirectories .raised request.fullTest : Migration Unit) written = (.ok (), led) := by
    refine perform_makeDirectories fun other hother ↦ ?_
    rw [houtsideOld other fun hbelow ↦
      hstaging.not_fullTest List.prefix_rfl (hbelow.trans hother)]
    rcases List.prefix_concat_iff.mp hother with rfl | hshort
    · exact hruns
    · exact Or.inr (FileTree.directory_of_prefix htmp (hshort.trans (List.prefix_append _ _)))
  obtain ⟨hdirectories, hothers⟩ :=
    ((guarantees_makeDirectories request.fullTest).of_perform serve_answer hled).2 rfl
  have hkept : ∀ path, staging <+: path → led.node path = written.node path :=
    fun path hpath ↦ hothers path fun hbelow ↦
      hstaging.not_fullTest List.prefix_rfl (hpath.trans hbelow)
  -- The run is moved to its place.
  have hfull : led.node (staging ++ ["full"]) = some .directory := by
    have hroot := hlayout []
    rw [List.append_nil, layout_nil_publishedFiles] at hroot
    rw [hkept _ (List.prefix_append _ _), hroot]
  have hfree : led.node request.targetFullRoot = none := by
    rw [hothers _ not_targetFullRoot_prefix_fullTest,
      houtsideOld _ (hstaging.not_fullTest fullTest_prefix_targetFullRoot), hunused]
  obtain ⟨moved, hmoved⟩ : ∃ moved, answer names led
      (.renameDirectory (staging ++ ["full"]) request.targetFullRoot) = (.ok (), moved) :=
    answer_renameStaged hstaging hfull (hdirectories _ List.prefix_rfl) hfree
  have hafter : ∀ path, ¬ staging ++ ["full"] <+: path → ¬ request.targetFullRoot <+: path →
      moved.node path = led.node path := by
    intro path hstaged hroot
    have hserve := @serve_answer names led
      (.renameDirectory (staging ++ ["full"]) request.targetFullRoot)
    rw [hmoved] at hserve
    exact serve_frame hserve fun htouches ↦ htouches.elim hstaged hroot
  have hwithin : ∀ path, staging <+: path → ¬ request.targetFullRoot <+: path :=
    fun path hpath hroot ↦
      hstaging.not_fullTest (fullTest_prefix_targetFullRoot.trans hroot) hpath
  have hshort : ¬ staging ++ ["full"] <+: staging := fun hlong ↦ by
    have hlength := hlong.length_le
    rw [List.length_append, List.length_singleton] at hlength
    omega
  -- Nothing is left in the staging directory.
  have hleft : moved.node staging = some .directory := by
    rw [hafter _ hshort (hwithin _ List.prefix_rfl), hkept _ List.prefix_rfl, houtside _ hshort,
      hmade]
  have hnothing : ∀ other, staging <+: other → other ≠ staging → moved.node other = none := by
    intro other hother hne
    by_cases hstaged : staging ++ ["full"] <+: other
    · exact node_renameDirectory_source hmoved (hwithin _ hother) hstaged
    · rw [hafter _ hstaged (hwithin _ hother), hkept _ hother, houtside _ hstaged,
        hinside _ hother hne]
  obtain ⟨last, hlast⟩ : ∃ last, answer names moved (.removeDirectory staging) = (.ok (), last) :=
    answer_removeStaging hstaging hleft hnothing
  refine ⟨last, ?_⟩
  rw [stageAndPublish, hparent]
  exact (perform_bind_of_ok hwritten).trans ((perform_bind_of_ok hrehearsed).trans
    ((perform_bind_of_ok hled).trans ((perform_bind_of_ok (perform_act_of_ok _ hmoved)).trans
      (perform_act_of_ok _ hlast))))

end Staging

/-! ### Accepted inputs -/

/-- The inputs of a migration are accepted: its source is read, and the check of its target
passes. -/
structure Accepted (library : Library) (request : Request) (tree : FileTree) (source : Source)
    (stateBytes : Bytes) (planPath : Path) : Prop where
  valid : validateLabel request.targetLabel = .ok ()
  read : (readSource library request).answered tree.node = .ok source
  checked : (checkTarget library request source.plan).answered tree.node =
    .ok (stateBytes, planPath)

/-- The run of a migration is at its place. -/
structure Staged (library : Library) (request : Request) (old : FileTree) (source : Source)
    (stateBytes : Bytes) (staged : FileTree) : Prop where
  moving : ∃ staging, IsStaging request staging ∧
    Moving request old staging (publishedFiles library source stateBytes) staged
  files : Layout request.targetFullRoot (publishedFiles library source stateBytes) staged

section Selection

variable {source : Source} {stateBytes : Bytes} {planPath : Path} {staged : FileTree}

/-- A migration of accepted inputs comes to the selection of its run. -/
theorem reaches_select (names : TemporaryNames)
    (haccepted : Accepted library request old source stateBytes planPath)
    (hunused : old.node request.targetFullRoot = none)
    (hruns : old.node request.fullTest = none ∨ old.node request.fullTest = some .directory) :
    ∃ staged, Reaches (Regular (answer names)) (migrateResumeData library request) old
        (select request planPath >>= fun _ ↦ pure (receipt library source stateBytes)) staged ∧
      Staged library request old source stateBytes staged := by
  obtain ⟨hlabel, hsource, htarget⟩ := haccepted
  obtain ⟨label, -, hread⟩ := sourceRead hsource
  have htmp := (targetChecked htarget).targetTmp
  have hvalid : perform (answer names) (ofExcept (validateLabel request.targetLabel) :
      Migration Unit) old = (.ok (), old) := by
    rw [hlabel]
    rfl
  have hreads : ∀ {α : Type} {reading : MigrationReading α} {value : α},
      reading.answered old.node = .ok value →
      perform (answer names) (reads .raised reading) old = (.ok value, old) := by
    intro α reading value hvalue
    rw [perform_reads, hvalue]
  obtain ⟨led, hled⟩ : ∃ led, perform (answer names)
      (makeDirectories .raised request.targetTmp : Migration Unit) old = (.ok (), led) :=
    perform_makeDirectories fun other hother ↦ Or.inr (FileTree.directory_of_prefix htmp hother)
  have hsame : ∀ path, led.node path = old.node path :=
    ((guarantees_makeDirectories request.targetTmp).of_perform serve_answer hled).1.same htmp
  obtain ⟨staging, made, hmake⟩ : ∃ staging made, answer names led
      (.makeTemporaryDirectory request.targetTmp stagingStart) = (.ok staging, made) := by
    rw [answer]
    split_ifs with hparent
    · exact ⟨_, _, rfl⟩
    · rw [List.dropLast_concat, hsame] at hparent
      exact absurd htmp hparent
  obtain ⟨hname, hnone, hmade⟩ := makeTemporaryDirectory_ok hmake
  have hstaging : IsStaging request staging := ⟨_, hname⟩
  have habsent : old.node staging = none := (hsame staging).symm.trans hnone
  have hbeside : ∀ path, path ≠ staging → made.node path = old.node path := by
    intro path hpath
    have hserve := @serve_answer names led
      (.makeTemporaryDirectory request.targetTmp stagingStart)
    rw [hmake] at hserve
    rw [serve_frame hserve fun htouches ↦ hpath (htouches.trans hname.symm), hsame path]
  obtain ⟨staged, hstaged⟩ := perform_stageAndPublish names stateBytes
    hread hstaging habsent htmp hmade hbeside hunused hruns
  obtain ⟨hmoving, hfiles⟩ :=
    (guarantees_cleanup hstaging habsent htmp hmade hbeside).of_perform serve_answer
      (perform_handle_of_ok hstaged)
  refine ⟨staged, ?_, ⟨staging, hstaging, hmoving⟩, hfiles rfl⟩
  rw [migrateResumeData]
  refine (reaches_of_perform _ hvalid).trans ((reaches_of_perform _ (hreads hsource)).trans ?_)
  refine (reaches_of_perform _ (hreads (answered_requireAbsent.mpr hunused))).trans ?_
  refine (reaches_of_perform _ (hreads htarget)).trans ((reaches_of_perform _ hled).trans ?_)
  refine (reaches_of_perform _ (perform_act_of_ok _ hmake)).trans ?_
  exact reaches_of_perform _ (perform_handle_of_ok hstaged)

/-- Beside the state of the target, only the staging directory has changed. -/
theorem Staged.kept (hstaged : Staged library request old source stateBytes staged) {name : String}
    {path : Path} (hname : ∀ suffix, name ≠ stagingStart ++ suffix)
    (hpath : request.targetTmp ++ [name] <+: path) : staged.node path = old.node path := by
  obtain ⟨_, ⟨suffix, rfl⟩, hmoving⟩ := hstaged.moving
  exact hmoving.outside path (fun hbelow ↦ hname suffix (eq_of_prefixes hpath hbelow))
    (not_prefix_fullTest hpath)

theorem Staged.pointer (hstaged : Staged library request old source stateBytes staged) :
    staged.node request.pointer = old.node request.pointer :=
  hstaged.kept (pointer_ne_staging request.processId) List.prefix_rfl

theorem Staged.selector (hstaged : Staged library request old source stateBytes staged) :
    staged.node request.selector = old.node request.selector :=
  hstaged.kept selector_ne_staging List.prefix_rfl

theorem Staged.targetTmp (hstaged : Staged library request old source stateBytes staged)
    (htmp : old.node request.targetTmp = some .directory) :
    staged.node request.targetTmp = some .directory := by
  obtain ⟨_, ⟨suffix, rfl⟩, hmoving⟩ := hstaged.moving
  rw [hmoving.outside _ ?_ ?_, htmp]
  · intro hbelow
    have hlength := hbelow.length_le
    rw [List.length_append, List.length_singleton] at hlength
    omega
  · intro hbelow
    exact absurd (eq_of_prefixes hbelow
      (List.prefix_rfl : request.targetOutputs ++ ["tmp"] <+: _)) (by decide)

theorem precheck_ne_staging (suffix : String) : "precheck" ≠ stagingStart ++ suffix := by
  intro hsame
  have hchars := congrArg String.toList hsame
  rw [String.toList_append] at hchars
  exact absurd (congrArg List.head? hchars) (by simp [stagingStart])

/-- The plan of the run is that of the precheck. -/
theorem Staged.checkPublished (hstaged : Staged library request old source stateBytes staged)
    (haccepted : Accepted library request old source stateBytes planPath) :
    (checkPublished request planPath).answered staged.node = .ok () := by
  obtain ⟨label, -, hread⟩ := sourceRead haccepted.read
  have hchecked := targetChecked haccepted.checked
  obtain ⟨precheck, hpath⟩ := hchecked.path
  have hplan : staged.node planPath = some (.file source.plan.bytes) := by
    rw [hstaged.kept precheck_ne_staging ?_, hchecked.plan]
    rw [hpath]
    exact (List.prefix_append_right_inj _).mpr ⟨_, rfl⟩
  have hpublished := node_of_published hread hstaged.files mem_publishedFiles_plan
  refine answered_bind_eq_ok.mpr ⟨_, answered_readRegular.mpr hpublished, ?_⟩
  refine answered_bind_eq_ok.mpr ⟨_, answered_readRegular.mpr hplan, ?_⟩
  exact answered_refuseIf.mpr (not_not_intro rfl)

/-- What the selection does before it writes the temporary selector. -/
theorem reaches_writePointer (names : TemporaryNames)
    (hstaged : Staged library request old source stateBytes staged)
    (haccepted : Accepted library request old source stateBytes planPath) :
    ∃ led, Reaches (Regular (answer names)) (select request planPath) staged (do
        writeCreateOnly request.pointer (labelBytes request)
        act .raised (.replaceFile request.pointer request.selector)) led ∧
      led.node request.targetTmp = some .directory ∧
      ∀ path, led.node path = staged.node path := by
  have htmp := hstaged.targetTmp (targetChecked haccepted.checked).targetTmp
  obtain ⟨led, hled⟩ : ∃ led, perform (answer names)
      (makeDirectories .raised request.targetTmp : Migration Unit) staged = (.ok (), led) :=
    perform_makeDirectories fun other hother ↦ Or.inr (FileTree.directory_of_prefix htmp hother)
  have hsame : ∀ path, led.node path = staged.node path :=
    ((guarantees_makeDirectories request.targetTmp).of_perform serve_answer hled).1.same htmp
  have hchecked : perform (answer names) (reads .raised (checkPublished request planPath) :
      Migration Unit) staged = (.ok (), staged) := by
    rw [perform_reads, hstaged.checkPublished haccepted]
  refine ⟨led, ?_, (hsame _).trans htmp, hsame⟩
  rw [select, replacePointer, Request.selector, List.dropLast_concat]
  exact (reaches_of_perform _ hchecked).trans (reaches_of_perform _ hled)

/-- The temporary selector is written before it replaces the selector. -/
theorem reaches_replace (names : TemporaryNames)
    (hstaged : Staged library request old source stateBytes staged)
    (haccepted : Accepted library request old source stateBytes planPath)
    (hpointer : staged.node request.pointer = none) :
    ∃ written, Reaches (Regular (answer names)) (select request planPath) staged
        (act .raised (.replaceFile request.pointer request.selector)) written ∧
      written.node request.pointer = some (.file (labelBytes request)) ∧
      ∀ path, path ≠ request.pointer → written.node path = staged.node path := by
  obtain ⟨led, hled, htmp, hsame⟩ := reaches_writePointer names hstaged haccepted
  have hparent : request.pointer.dropLast = request.targetTmp := by
    rw [Request.pointer, List.dropLast_concat]
  obtain ⟨written, hwritten⟩ : ∃ written, perform (answer names)
      (writeCreateOnly request.pointer (labelBytes request)) led = (.ok (), written) := by
    refine perform_writeCreateOnly names _ (by simp [Request.pointer]) ((hsame _).trans hpointer)
      fun other hother ↦ ?_
    rw [hparent] at hother
    exact Or.inr (FileTree.directory_of_prefix htmp hother)
  obtain ⟨hadds, hwrites⟩ :=
    (guarantees_writeCreateOnly (by simp [Request.pointer])).of_perform serve_answer hwritten
  refine ⟨written, hled.trans (reaches_of_perform _ hwritten), (hwrites rfl).2.1, ?_⟩
  intro path hpath
  rw [(hadds path).resolve_right fun hnew ↦ ?_, hsame path]
  have hshort := prefix_dropLast hnew.1 hpath
  rw [hparent] at hshort
  rw [FileTree.directory_of_prefix htmp hshort] at hnew
  exact Option.some_ne_none _ hnew.2

/-- A run is selected when nothing is at the place of the temporary selector. -/
theorem perform_select (names : TemporaryNames)
    (hstaged : Staged library request old source stateBytes staged)
    (haccepted : Accepted library request old source stateBytes planPath)
    (hpointer : old.node request.pointer = none)
    (hselector : old.node request.selector ≠ some .directory) :
    ∃ last, perform (answer names) (select request planPath) staged = (.ok (), last) := by
  have hfree : staged.node request.pointer = none := by
    rw [hstaged.pointer, hpointer]
  obtain ⟨written, hreaches, hfile, hsame⟩ := reaches_replace names hstaged haccepted hfree
  have hnode : written.node request.selector ≠ some .directory := by
    rwa [hsame _ selector_ne_pointer_path, hstaged.selector]
  have hparent : written.node request.selector.dropLast = some .directory := by
    rw [Request.selector, List.dropLast_concat, hsame _ (by simp [Request.pointer]),
      hstaged.targetTmp (targetChecked haccepted.checked).targetTmp]
  have hreplace : ∃ last, answer names written (.replaceFile request.pointer request.selector) =
      (.ok (), last) := by
    rw [answer, dif_pos ⟨⟨by simp [hfile], by simp [hfile]⟩, hnode, hparent,
      selector_ne_pointer_path.symm⟩]
    exact ⟨_, rfl⟩
  obtain ⟨last, hlast⟩ := hreplace
  exact ⟨last, (perform_of_reaches hreaches).trans (perform_act_of_ok _ hlast)⟩

/-- No run is selected when something is at the place of the temporary selector. -/
theorem perform_select_of_pointer (names : TemporaryNames)
    (hstaged : Staged library request old source stateBytes staged)
    (haccepted : Accepted library request old source stateBytes planPath)
    (hpointer : old.node request.pointer ≠ none) :
    ∃ error last, perform (answer names) (select request planPath) staged =
      (.error error, last) := by
  obtain ⟨led, hled, htmp, hsame⟩ := reaches_writePointer names hstaged haccepted
  have hparent : request.pointer.dropLast = request.targetTmp := by
    rw [Request.pointer, List.dropLast_concat]
  obtain ⟨made, hmade⟩ : ∃ made, perform (answer names)
      (makeDirectories .raised request.pointer.dropLast : Migration Unit) led = (.ok (), made) := by
    rw [hparent]
    exact perform_makeDirectories fun other hother ↦
      Or.inr (FileTree.directory_of_prefix htmp hother)
  have hkept : made.node request.pointer ≠ none := by
    have hadds := ((guarantees_makeDirectories request.pointer.dropLast).of_perform
      serve_answer hmade).1
    rwa [hadds.same (by rwa [hparent]), hsame, hstaged.pointer]
  have hcreate : answer names made (.createExclusive request.pointer) =
      (.error "File exists", made) := by
    rw [answer, dif_neg fun habsent ↦ hkept habsent.1]
  refine ⟨.raised "File exists", made, (perform_of_reaches hled).trans ?_⟩
  refine perform_bind_of_error ((perform_bind_of_ok hmade).trans ?_)
  exact perform_bind_of_error (perform_act_of_error _ hcreate)

end Selection

end Oamb.Scripts.MigrationRuns
