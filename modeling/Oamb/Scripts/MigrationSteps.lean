import Oamb.Scripts.ResumeMigration

/-!
# Steps of a migration

What the parts of a migration do to a tree of files, however they end. `guarantees_writeCreateOnly`
and `guarantees_writeFiles` are about the files that it writes, and `Layout` is what is found below
a directory then.
-/

set_option autoImplicit false

namespace Oamb.Scripts.MigrationSteps

open Foundation Foundation.Dialogue Foundation.CrashLogic Foundation.FileCalls ResumeMigration

variable {names : TemporaryNames} {tree : FileTree}

/-! ### One file -/

/-- A file was written: its content, the directories on the way to it, and nothing else. -/
def Writes (tree : FileTree) (path : Path) (content : Bytes) (next : FileTree) : Prop :=
  tree.node path = none ∧ next.node path = some (.file content) ∧
    (∀ other, other <+: path → other ≠ path → next.node other = some .directory) ∧
    ∀ other, ¬ other <+: path → next.node other = tree.node other

/-- Nothing changed but what is at a path. -/
def Beside (tree : FileTree) (path : Path) (next : FileTree) : Prop :=
  ∀ other, other ≠ path → next.node other = tree.node other

theorem Beside.adds {path : Path} {next : FileTree} (hnone : tree.node path = none)
    (hbeside : Beside tree path next) : Adds tree path next := by
  intro other
  by_cases hother : other = path
  · subst hother
    exact Or.inr ⟨List.prefix_rfl, hnone⟩
  · exact Or.inl (hbeside other hother)

/-- The file is written in full, or it is removed again. -/
theorem guarantees_writeContent {path : Path} {content : Bytes} {descriptor : ℕ}
    (hempty : tree.contents descriptor = [])
    (hentry : ∀ other, tree.entries.lookup other = some (.file descriptor) ↔ other = path) :
    Guarantees (Serve names) (Beside tree path)
      (fun outcome next ↦ outcome = .ok () → next.node path = some (.file content))
      (handle (fun error ↦ do
          act .raised (.unlink path)
          fail error) (do
        act .raised (.write descriptor content)
        act .raised (.sync descriptor)) : Migration Unit) tree := by
  have hwrite : Guarantees (Serve names) (Beside tree path)
      (fun outcome next ↦ outcome = .ok () → next.node path = some (.file content))
      (do act .raised (.write descriptor content)
          act .raised (.sync descriptor) : Migration Unit) tree := by
    have hfirst : Guarantees (Serve names) (Beside tree path)
        (fun outcome next ↦ outcome = .ok () → next.node path = some (.file content))
        (act .raised (.write descriptor content) : Migration Unit) tree := by
      refine guarantees_act (fun _ _ ↦ rfl) fun result next hserve ↦ ⟨fun other hother ↦ ?_, ?_⟩
      · exact serve_frame hserve fun htouches ↦ hother ((hentry other).mp htouches)
      · intro hresult
        cases result with
        | error error => cases hresult
        | ok value =>
          have hnext : (answer names tree (.write descriptor content)).2 = next :=
            congrArg Prod.snd (answer_of_serve hserve (fun _ ↦ nofun) rfl)
          rw [← hnext]
          exact node_write hempty ((hentry path).mpr rfl)
    refine hfirst.bind (fun _ next hnode hframe ↦ ?_) fun _ _ _ ↦ nofun
    refine guarantees_act hframe fun result later hserve ↦ ⟨fun other hother ↦ ?_, ?_⟩
    · rw [serve_frame hserve id, hframe other hother]
    · intro _
      rw [serve_frame hserve id, hnode rfl]
  refine hwrite.handle (fun _ next hnode _ ↦ hnode rfl) fun error next _ hframe ↦ ?_
  have hunlink : Guarantees (Serve names) (Beside tree path) (fun _ _ ↦ True)
      (act .raised (.unlink path) : Migration Unit) next := by
    refine guarantees_act hframe fun result later hserve ↦ ⟨fun other hother ↦ ?_, trivial⟩
    rw [serve_frame hserve fun htouches ↦ hother htouches, hframe other hother]
  exact hunlink.bind (fun _ later _ hlater ↦ guarantees_fail hlater nofun) fun _ _ _ ↦ nofun

theorem prefix_dropLast {path other : Path} (hbelow : other <+: path) (hne : other ≠ path) :
    other <+: path.dropLast := by
  obtain ⟨rest, rfl⟩ := hbelow
  have hrest : rest ≠ [] := fun hnil ↦ hne (by rw [hnil, List.append_nil])
  rw [List.dropLast_append_of_ne_nil hrest]
  exact List.prefix_append _ _

theorem guarantees_writeCreateOnly {path : Path} {content : Bytes} (hpath : path ≠ []) :
    Guarantees (Serve names) (Adds tree path)
      (fun outcome next ↦ outcome = .ok () → Writes tree path content next)
      (writeCreateOnly path content) tree := by
  have hdropped : path.dropLast <+: path := List.dropLast_prefix path
  have hshort : ¬ path <+: path.dropLast := fun hlong ↦ by
    have hlength := hlong.length_le
    rw [List.length_dropLast] at hlength
    have hpositive := List.length_pos_iff.mpr hpath
    omega
  refine ((guarantees_makeDirectories path.dropLast).mono (fun next hadds ↦ hadds.adds hdropped)
    fun _ _ _ hpost ↦ hpost).bind (fun _ middle hleads hadds ↦ ?_) fun _ _ _ ↦ nofun
  obtain ⟨hdirectories, hothers⟩ := hleads rfl
  have hcreate : Guarantees (Serve names) (Adds tree path)
      (fun outcome next ↦ ∀ descriptor, outcome = .ok descriptor → middle.node path = none ∧
        Beside middle path next ∧ next.contents descriptor = [] ∧
          ∀ other, next.entries.lookup other = some (.file descriptor) ↔ other = path)
      (act .raised (.createExclusive path) : Migration ℕ) middle := by
    refine guarantees_act hadds fun result next hserve ↦ ⟨hadds.trans fun other ↦ ?_, ?_⟩
    · by_cases htouches : Touches names middle (.createExclusive path) other
      · exact Or.inr ⟨htouches.1 ▸ List.prefix_rfl, htouches.2⟩
      · exact Or.inl (serve_frame hserve htouches)
    · intro descriptor hresult
      cases result with
      | error error => cases hresult
      | ok value =>
        cases hresult
        obtain ⟨hnone, hempty, hentry⟩ :=
          createExclusive_ok (answer_of_serve hserve (fun _ ↦ nofun) rfl)
        exact ⟨hnone, fun other hother ↦ serve_frame hserve fun htouches ↦ hother htouches.1,
          hempty, hentry⟩
  refine hcreate.bind (fun descriptor next hpost hnext ↦ ?_) fun _ _ _ ↦ nofun
  obtain ⟨hnone, hframe, hempty, hentry⟩ := hpost descriptor rfl
  have hbeside : ∀ later, Beside next path later → Beside middle path later :=
    fun later hlater other hother ↦ (hlater other hother).trans (hframe other hother)
  refine (guarantees_writeContent hempty hentry).mono
    (fun later hlater ↦ hadds.trans ((hbeside later hlater).adds hnone))
    fun outcome later hlater hnode houtcome ↦ ?_
  refine ⟨?_, hnode houtcome, fun other hbelow hne ↦ ?_, fun other hbelow ↦ ?_⟩
  · rw [← hothers path hshort, hnone]
  · rw [hbeside later hlater other hne, hdirectories other (prefix_dropLast hbelow hne)]
  · rw [hbeside later hlater other fun hsame ↦ hbelow (hsame ▸ List.prefix_rfl),
      hothers other fun habove ↦ hbelow (habove.trans hdropped)]

/-! ### Files below a directory -/

/-- What is at a path below a directory in which some files were written. -/
def layout (files : List (Path × Bytes)) (rest : Path) : Option Node :=
  match files.lookup rest with
  | some content => some (.file content)
  | none => if files.any fun file ↦ decide (rest <+: file.1) then some .directory else none

/-- There is nothing below a directory but some files and the directories that they need. -/
def Layout (root : Path) (files : List (Path × Bytes)) (tree : FileTree) : Prop :=
  ∀ rest, tree.node (root ++ rest) = layout files rest

/-- Nothing changed but what is below a directory. -/
def Outside (root : Path) (tree next : FileTree) : Prop :=
  ∀ other, ¬ root <+: other → next.node other = tree.node other

/-- The directories above a path are there. -/
def Rooted (tree : FileTree) (root : Path) : Prop :=
  ∀ other, other <+: root → other ≠ root → tree.node other = some .directory

theorem Outside.rooted {root : Path} {next : FileTree} (houtside : Outside root tree next)
    (hrooted : Rooted tree root) : Rooted next root := by
  intro other hbelow hne
  rw [houtside other fun habove ↦ hne (hbelow.eq_of_length_le habove.length_le),
    hrooted other hbelow hne]

theorem Outside.of_adds {root path : Path} {next : FileTree} (hrooted : Rooted tree root)
    (hadds : Adds tree (root ++ path) next) : Outside root tree next := by
  intro other hother
  refine (hadds other).resolve_right fun ⟨hbelow, hnone⟩ ↦ ?_
  rcases List.prefix_or_prefix_of_prefix hbelow (List.prefix_append root path) with
    habove | hwithin
  · rw [hrooted other habove fun hsame ↦ hother (hsame ▸ List.prefix_rfl)] at hnone
    cases hnone
  · exact hother hwithin

theorem lookup_of_layout_eq_none {files : List (Path × Bytes)} {rest : Path}
    (hnone : layout files rest = none) : files.lookup rest = none := by
  rw [layout] at hnone
  cases hlookup : files.lookup rest with
  | none => rfl
  | some content =>
    rw [hlookup] at hnone
    cases hnone

theorem layout_of_lookup {files : List (Path × Bytes)} {rest : Path} {content : Bytes}
    (hlookup : files.lookup rest = some content) : layout files rest = some (.file content) := by
  rw [layout, hlookup]

/-- One more file below a directory. -/
theorem Layout.write {root path : Path} {files : List (Path × Bytes)} {content : Bytes}
    {next : FileTree} (hlayout : Layout root files tree)
    (hwrites : Writes tree (root ++ path) content next) (hadds : Adds tree (root ++ path) next) :
    Layout root (files ++ [(path, content)]) next := by
  intro rest
  obtain ⟨hnone, hfile, hdirectories, hothers⟩ := hwrites
  by_cases hpath : rest = path
  · subst hpath
    rw [hlayout rest] at hnone
    rw [hfile, layout_of_lookup]
    rw [List.lookup_append, lookup_of_layout_eq_none hnone, Option.none_or, List.lookup_cons_self]
  · have hlookup : (files ++ [(path, content)]).lookup rest = files.lookup rest := by
      rw [List.lookup_append, List.lookup_cons, beq_false_of_ne hpath, List.lookup_nil,
        Option.or_none]
    rw [layout, hlookup, List.any_append, List.any_cons, List.any_nil, Bool.or_false]
    by_cases hbelow : rest <+: path
    · have hdirectory := hdirectories (root ++ rest)
        ((List.prefix_append_right_inj root).mpr hbelow)
        fun hsame ↦ hpath (List.append_cancel_left hsame)
      have hfree : files.lookup rest = none := by
        cases hentry : files.lookup rest with
        | none => rfl
        | some other =>
          have hold : tree.node (root ++ rest) = some (.file other) := by
            rw [hlayout rest, layout_of_lookup hentry]
          rcases hadds (root ++ rest) with hsame | ⟨-, hempty⟩
          · rw [hdirectory, hold] at hsame
            cases hsame
          · rw [hold] at hempty
            cases hempty
      rw [hfree, decide_eq_true hbelow, Bool.or_true, if_pos rfl, hdirectory]
    · rw [hothers (root ++ rest) fun habove ↦
          hbelow ((List.prefix_append_right_inj root).mp habove), hlayout rest, layout,
        decide_eq_false hbelow, Bool.or_false]

theorem guarantees_writeFiles {root : Path} (hroot : root ≠ [])
    {files written : List (Path × Bytes)}
    (hlayout : Layout root written tree) (hrooted : Rooted tree root) :
    Guarantees (Serve names) (Outside root tree)
      (fun outcome next ↦ outcome = .ok () → Layout root (written ++ files) next)
      (writeFiles root files) tree := by
  induction files generalizing tree written with
  | nil =>
    refine guarantees_pure (fun _ _ ↦ rfl) fun _ ↦ ?_
    rw [List.append_nil]
    exact hlayout
  | cons file files ih =>
    obtain ⟨path, content⟩ := file
    rw [writeFiles]
    have hwrite : Guarantees (Serve names) (Adds tree (root ++ path))
        (fun outcome next ↦ outcome = .ok () → Writes tree (root ++ path) content next)
        (writeCreateOnly (root ++ path) content) tree :=
      guarantees_writeCreateOnly (List.append_ne_nil_of_left_ne_nil hroot path)
    refine (hwrite.mono (fun next hadds ↦ Outside.of_adds hrooted hadds)
      fun outcome next hadds hpost houtcome ↦ And.intro (hpost houtcome) hadds).bind
      (fun _ next hpost houtside ↦ ?_) fun _ _ _ ↦ nofun
    obtain ⟨hwrites, hadds⟩ := hpost rfl
    refine (ih (hlayout.write hwrites hadds) (houtside.rooted hrooted)).mono
      (fun later hlater other hother ↦ ?_) fun outcome later _ hlast houtcome ↦ ?_
    · rw [hlater other hother, houtside other hother]
    · have hfiles := hlast houtcome
      rwa [List.append_assoc] at hfiles

/-! ### The places of a migration -/

/-- The start of the name of a staging directory. -/
def stagingStart : String := ".managed-local-migration-"

/-- The name of an entry that a migration makes beside the state of the target. -/
def isWorkName (name : String) : Bool :=
  decide (name = "full-test-current") ||
    decide (pointerStart.toList <+: name.toList) ||
    decide (stagingStart.toList <+: name.toList)

/-- A migration to a repository may change what is at the path. -/
def isWritten (target path : Path) : Bool :=
  decide (target ++ ["outputs", "full-test"] <+: path) ||
    decide (target ++ ["outputs", "tmp"] <+: path) &&
      (path.drop (target.length + 2)).head?.any isWorkName

section Places

variable {request : Request}

theorem eq_of_prefixes {base first second path : Path} {name other : String}
    (hfirst : base ++ name :: first <+: path) (hsecond : base ++ other :: second <+: path) :
    name = other := by
  obtain ⟨rest, rfl⟩ := hfirst
  obtain ⟨more, hmore⟩ := hsecond
  rw [List.append_assoc, List.append_assoc, List.append_cancel_left_eq] at hmore
  exact (List.cons.inj hmore).1.symm

theorem isWritten_of_fullTest {path : Path} (hbelow : request.fullTest <+: path) :
    isWritten request.targetRepository path = true := by
  have hpath : request.targetRepository ++ ["outputs", "full-test"] <+: path := by
    rwa [Request.fullTest, Request.targetOutputs, List.append_assoc] at hbelow
  rw [isWritten, decide_eq_true hpath, Bool.true_or]

theorem isWritten_of_workName {path : Path} {name : String} (hname : isWorkName name = true)
    (hbelow : request.targetTmp ++ [name] <+: path) :
    isWritten request.targetRepository path = true := by
  obtain ⟨rest, rfl⟩ := hbelow
  have hpath : request.targetTmp ++ [name] ++ rest =
      request.targetRepository ++ (["outputs", "tmp"] ++ name :: rest) := by
    simp [Request.targetTmp, Request.targetOutputs]
  rw [hpath, isWritten, ← List.append_assoc, decide_eq_true (List.prefix_append _ _)]
  rw [List.drop_append_of_le_length (by simp), List.drop_of_length_le (by simp), List.nil_append,
    List.head?_cons, Option.any_some, hname, Bool.and_true, Bool.or_true]

theorem isWorkName_staging (suffix : String) : isWorkName (stagingStart ++ suffix) = true := by
  have hprefix : stagingStart.toList <+: (stagingStart ++ suffix).toList := by
    rw [String.toList_append]
    exact List.prefix_append _ _
  rw [isWorkName, decide_eq_true hprefix, Bool.or_true]

theorem isWorkName_pointer (processId : ℕ) :
    isWorkName (pointerName processId) = true := by
  have hprefix : pointerStart.toList <+: (pointerName processId).toList := by
    rw [pointerName, String.toList_append]
    exact List.prefix_append _ _
  rw [isWorkName, decide_eq_true hprefix, Bool.or_true, Bool.true_or]

theorem isWorkName_selector : isWorkName "full-test-current" = true := by
  rw [isWorkName, decide_eq_true rfl]
  rfl

theorem selector_ne_staging (suffix : String) : "full-test-current" ≠ stagingStart ++ suffix := by
  intro hsame
  have hchars := congrArg String.toList hsame
  rw [String.toList_append] at hchars
  exact absurd (congrArg List.head? hchars) (by simp [stagingStart])

theorem pointer_ne_staging (processId : ℕ) (suffix : String) :
    pointerName processId ≠ stagingStart ++ suffix := by
  intro hsame
  have hchars := congrArg (fun name ↦ (name.toList.drop 1).head?) hsame
  simp [pointerName, pointerStart, stagingStart, String.toList_append] at hchars

theorem selector_ne_pointer (processId : ℕ) :
    "full-test-current" ≠ pointerName processId := by
  intro hsame
  have hchars := congrArg (fun name ↦ name.toList.head?) hsame
  simp [pointerName, pointerStart, String.toList_append] at hchars

/-- Nothing is below two directories that lie beside each other. -/
theorem not_prefix_fullTest {path : Path} {name : String} {rest : Path}
    (hbelow : request.targetTmp ++ name :: rest <+: path) : ¬ request.fullTest <+: path := by
  intro hfull
  have hnames := @eq_of_prefixes request.targetOutputs (name :: rest) [] path "tmp" "full-test"
    (by rwa [Request.targetTmp, List.append_assoc] at hbelow) hfull
  exact absurd hnames (by decide)

end Places

/-! ### Staging -/

section Staging

variable {library : Library} {request : Request} {old middle next : FileTree} {staging : Path}
  {files : List (Path × Bytes)}

/-- What a migration may have done before it selects its run: it works in its staging directory, and
the run is moved to its place as a whole. -/
structure Moving (request : Request) (old : FileTree) (staging : Path)
    (files : List (Path × Bytes)) (now : FileTree) : Prop where
  outside : ∀ path, ¬ staging <+: path → ¬ request.fullTest <+: path →
    now.node path = old.node path
  runs : ∀ path, request.fullTest <+: path → path ≠ request.fullTest →
    ¬ request.targetFullRoot <+: path → now.node path = old.node path
  fullTest : now.node request.fullTest = old.node request.fullTest ∨
    old.node request.fullTest = none ∧ now.node request.fullTest = some .directory
  published : (∀ path, request.targetFullRoot <+: path → now.node path = old.node path) ∨
    Layout request.targetFullRoot files now

theorem fullTest_prefix_targetFullRoot : request.fullTest <+: request.targetFullRoot :=
  List.prefix_append _ _

theorem not_targetFullRoot_prefix_fullTest : ¬ request.targetFullRoot <+: request.fullTest := by
  intro hprefix
  have hlength := hprefix.length_le
  rw [Request.targetFullRoot, List.length_append, List.length_singleton] at hlength
  omega

/-- The staging directory of a migration. -/
def IsStaging (request : Request) (staging : Path) : Prop :=
  ∃ suffix, staging = request.targetTmp ++ [stagingStart ++ suffix]

theorem IsStaging.not_fullTest (hstaging : IsStaging request staging) {path : Path}
    (hbelow : request.fullTest <+: path) : ¬ staging <+: path := by
  obtain ⟨suffix, rfl⟩ := hstaging
  exact fun hwithin ↦ not_prefix_fullTest hwithin hbelow

theorem Moving.of_same (hstaging : IsStaging request staging) {now : FileTree}
    (hsame : ∀ path, ¬ staging <+: path → now.node path = old.node path) :
    Moving request old staging files now where
  outside path hpath _ := hsame path hpath
  runs path hpath _ _ := hsame path (hstaging.not_fullTest hpath)
  fullTest := Or.inl (hsame _ (hstaging.not_fullTest List.prefix_rfl))
  published := Or.inl fun path hpath ↦
    hsame path (hstaging.not_fullTest (fullTest_prefix_targetFullRoot.trans hpath))

/-- Changes in the staging directory keep what a migration did. -/
theorem Moving.within (hmoving : Moving request old staging files middle)
    (hstaging : IsStaging request staging)
    (hsame : ∀ path, ¬ staging <+: path → next.node path = middle.node path) :
    Moving request old staging files next where
  outside path hpath hfull := by rw [hsame path hpath, hmoving.outside path hpath hfull]
  runs path hpath hne hroot := by
    rw [hsame path (hstaging.not_fullTest hpath), hmoving.runs path hpath hne hroot]
  fullTest := by
    rw [hsame _ (hstaging.not_fullTest List.prefix_rfl)]
    exact hmoving.fullTest
  published := by
    refine hmoving.published.imp (fun hkept path hpath ↦ ?_) fun hlayout rest ↦ ?_
    · rw [hsame path (hstaging.not_fullTest (fullTest_prefix_targetFullRoot.trans hpath)),
        hkept path hpath]
    · rw [hsame _ (hstaging.not_fullTest
        (fullTest_prefix_targetFullRoot.trans (List.prefix_append _ _))), hlayout rest]

/-- The directory of the runs may be made. -/
theorem Moving.makeFullTest (hmoving : Moving request old staging files middle)
    (houtputs : middle.node request.targetOutputs = some .directory)
    (hadds : AddsDirectories middle request.fullTest next) :
    Moving request old staging files next := by
  have hbeside : ∀ path, path ≠ request.fullTest → next.node path = middle.node path := by
    intro path hne
    rcases hadds path with hsame | ⟨hbelow, hnone, -⟩
    · exact hsame
    · rw [FileTree.directory_of_prefix houtputs ?_] at hnone
      · cases hnone
      · have hshort := prefix_dropLast hbelow hne
        rwa [Request.fullTest, List.dropLast_concat] at hshort
  constructor
  · intro path hpath hfull
    rw [hbeside path fun hsame ↦ hfull (hsame ▸ List.prefix_rfl), hmoving.outside path hpath hfull]
  · intro path hpath hne hroot
    rw [hbeside path hne, hmoving.runs path hpath hne hroot]
  · rcases hadds request.fullTest with hsame | ⟨-, hnone, hdirectory⟩
    · rw [hsame]
      exact hmoving.fullTest
    · rcases hmoving.fullTest with hold | ⟨hold, -⟩
      · exact Or.inr ⟨hold ▸ hnone, hdirectory⟩
      · exact Or.inr ⟨hold, hdirectory⟩
  · have hne : ∀ rest, request.targetFullRoot ++ rest ≠ request.fullTest := fun rest hsame ↦
      not_targetFullRoot_prefix_fullTest (hsame ▸ List.prefix_append _ _)
    refine hmoving.published.imp (fun hkept path hpath ↦ ?_) fun hlayout rest ↦ ?_
    · obtain ⟨rest, rfl⟩ := hpath
      rw [hbeside _ (hne rest), hkept _ (List.prefix_append _ _)]
    · rw [hbeside _ (hne rest), hlayout rest]

/-- The staged run is moved to its place, or not. -/
theorem Moving.rename (hmoving : Moving request old staging files middle)
    (hfiles : Layout (staging ++ ["full"]) files middle)
    {result : Answer (.renameDirectory (staging ++ ["full"]) request.targetFullRoot)}
    (hserve : Serve names middle (.renameDirectory (staging ++ ["full"]) request.targetFullRoot)
      result next) (hstaging : IsStaging request staging) :
    Moving request old staging files next := by
  have hframe : ∀ path, ¬ staging <+: path → ¬ request.targetFullRoot <+: path →
      next.node path = middle.node path := by
    intro path hpath hroot
    refine serve_frame hserve fun htouches ↦ htouches.elim (fun hbelow ↦ ?_) hroot
    exact hpath ((List.prefix_append _ _).trans hbelow)
  constructor
  · intro path hpath hfull
    rw [hframe path hpath fun hbelow ↦ hfull (fullTest_prefix_targetFullRoot.trans hbelow),
      hmoving.outside path hpath hfull]
  · intro path hpath hne hroot
    rw [hframe path (hstaging.not_fullTest hpath) hroot, hmoving.runs path hpath hne hroot]
  · rw [hframe _ (hstaging.not_fullTest List.prefix_rfl) not_targetFullRoot_prefix_fullTest]
    exact hmoving.fullTest
  · rcases serve_renameDirectory hserve with hsame | hmoved
    · refine hmoving.published.imp (fun hkept path hpath ↦ ?_) fun hlayout rest ↦ ?_
      · rw [hsame path, hkept path hpath]
      · rw [hsame _, hlayout rest]
    · refine Or.inr fun rest ↦ ?_
      rw [hmoved rest, hfiles rest]

/-- A migration that stages its run publishes the files of it as a whole. -/
theorem guarantees_stageAndPublish {source : Source} {targetStateBytes : Bytes}
    (hstaging : IsStaging request staging) (habsent : old.node staging = none)
    (htmp : old.node request.targetTmp = some .directory)
    (hmade : tree.node staging = some .directory)
    (hsame : ∀ path, path ≠ staging → tree.node path = old.node path) :
    Guarantees (Serve names)
      (Moving request old staging (publishedFiles library source targetStateBytes))
      (fun outcome now ↦ outcome = .ok () →
        Layout request.targetFullRoot (publishedFiles library source targetStateBytes) now)
      (stageAndPublish library request source targetStateBytes staging) tree := by
  have hnested : ∀ path, staging ++ ["full"] <+: path → staging <+: path := fun path hpath ↦
    (List.prefix_append _ _).trans hpath
  have hempty : Layout (staging ++ ["full"]) [] tree := by
    intro rest
    rw [hsame _ (by simp), FileTree.node_eq_none_of_prefix habsent
      (hnested _ (List.prefix_append _ _))]
    rfl
  have hrooted : Rooted tree (staging ++ ["full"]) := by
    intro other hbelow hne
    have hshort := prefix_dropLast hbelow hne
    rw [List.dropLast_concat] at hshort
    exact FileTree.directory_of_prefix hmade hshort
  have hwrite : Guarantees (Serve names) (Outside (staging ++ ["full"]) tree)
      (fun outcome next ↦ outcome = .ok () → Layout (staging ++ ["full"])
        ([] ++ publishedFiles library source targetStateBytes) next)
      (writeFiles (staging ++ ["full"]) (publishedFiles library source targetStateBytes)) tree :=
    guarantees_writeFiles (by simp) hempty hrooted
  have hunchanged : ∀ next, Outside (staging ++ ["full"]) tree next → ∀ path, ¬ staging <+: path →
      next.node path = old.node path := by
    intro next houtside path hpath
    rw [houtside path fun hbelow ↦ hpath (hnested path hbelow),
      hsame path fun heq ↦ hpath (heq ▸ List.prefix_rfl)]
  rw [stageAndPublish]
  refine (hwrite.mono (fun next houtside ↦ Moving.of_same hstaging (hunchanged next houtside))
    fun outcome next houtside hpost houtcome ↦ And.intro (hpost houtcome) houtside).bind
    (fun _ written hpost hmoving ↦ ?_) fun _ _ _ ↦ nofun
  obtain ⟨hfiles, houtside⟩ := hpost rfl
  rw [List.nil_append] at hfiles
  refine (guarantees_reads.mono (fun next hnext ↦ hnext ▸ hmoving)
    fun outcome next hnext _ ↦ hnext).bind (fun _ next hnext _ ↦ ?_) fun _ _ _ ↦ nofun
  subst hnext
  have houtputs : next.node request.targetOutputs = some .directory := by
    rw [hunchanged next houtside]
    · exact FileTree.directory_of_prefix htmp (List.prefix_append _ _)
    · obtain ⟨suffix, rfl⟩ := hstaging
      intro hbelow
      have hlength := hbelow.length_le
      simp only [Request.targetTmp, List.length_append, List.length_singleton] at hlength
      omega
  have hparent : request.targetFullRoot.dropLast = request.fullTest := by
    rw [Request.targetFullRoot, List.dropLast_concat]
  rw [hparent]
  have hkept : ∀ later, AddsDirectories next request.fullTest later →
      Layout (staging ++ ["full"]) (publishedFiles library source targetStateBytes) later := by
    intro later hadds rest
    rw [(hadds _).resolve_right fun hnew ↦ ?_, hfiles rest]
    exact hstaging.not_fullTest List.prefix_rfl
      ((hnested _ (List.prefix_append _ _)).trans hnew.1)
  refine ((guarantees_makeDirectories request.fullTest).mono
    (fun later hadds ↦ hmoving.makeFullTest houtputs hadds)
    fun outcome later hadds _ ↦ hkept later hadds).bind (fun _ later hstaged hlater ↦ ?_)
    fun _ _ _ ↦ nofun
  have hrename : Guarantees (Serve names)
      (Moving request old staging (publishedFiles library source targetStateBytes))
      (fun outcome now ↦ outcome = .ok () →
        Layout request.targetFullRoot (publishedFiles library source targetStateBytes) now)
      (act .raised (.renameDirectory (staging ++ ["full"]) request.targetFullRoot) : Migration Unit)
      later := by
    refine guarantees_act hlater fun result now hserve ↦ ⟨hlater.rename hstaged hserve hstaging, ?_⟩
    intro hresult rest
    cases result with
    | error error => cases hresult
    | ok value =>
      rw [node_renameDirectory (answer_of_serve hserve (fun _ ↦ nofun) rfl), hstaged rest]
  refine hrename.bind (fun _ now hpublished hnow ↦ ?_) fun _ _ _ ↦ nofun
  refine guarantees_act hnow fun result last hserve ↦ ?_
  have hframe : ∀ path, ¬ staging <+: path → last.node path = now.node path :=
    fun path hpath ↦ serve_frame hserve hpath
  refine ⟨hnow.within hstaging hframe, fun _ rest ↦ ?_⟩
  rw [hframe _ (hstaging.not_fullTest
    (fullTest_prefix_targetFullRoot.trans (List.prefix_append _ _))), hpublished rfl rest]

end Staging

end Oamb.Scripts.MigrationSteps
