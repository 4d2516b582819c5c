import Oamb.Artifacts.AtomicGuarantees

/-!
# Sequences of atomic writes

A process that publishes files writes one after the other, and it may end at any step. `Reaches` is
a write up to one of its steps, with the file system for itself. `WriteValid` is what the write
changed until then: its target, the directories on the way to it, and the temporary file that it has
at this step. `Unobstructed` says when a write that is not interrupted returns, and `Failing` how it
comes to an error. `Writes` is a sequence of writes that all returned, and `Stops` one that ended in
the middle of a write or between two. `ReplaceValid` is what a replacement changed: its target has the
content that it had, or the new one.
-/

set_option autoImplicit false

namespace Oamb.Artifacts.WriteSequences

open Foundation Foundation.FileSystem
open AtomicPublication AtomicGuarantees

section Single

variable {sha256 : Bytes → String} {call : Call} {old : FileTree} {fs next : FileSystem}
  {phase phase' : Phase}

/-- A write that starts in a file system leads to another one at some step. -/
inductive Reaches (sha256 : Bytes → String) (call : Call) (old : FileSystem) :
    FileSystem → Phase → Prop
  | start : Reaches sha256 call old old .checking
  | step {fs next : FileSystem} {phase phase' : Phase} (hreaches : Reaches sha256 call old fs phase)
    (hstep : CallStep sha256 call fs phase next phase') : Reaches sha256 call old next phase'

/-- The target holds the content of the call, or one with its digest and length. -/
def Landed (sha256 : Bytes → String) (call : Call) (fs : FileSystem) : Prop :=
  ∃ content, fs.node call.target = some (.file content) ∧ sha256 content = sha256 call.content ∧
    content.length = call.content.length

theorem Landed.ne_none {call : Call} (hlanded : Landed sha256 call fs) :
    fs.node call.target ≠ none := by
  obtain ⟨content, hnode, -⟩ := hlanded
  rw [hnode]
  exact Option.some_ne_none _

theorem Landed.not_directory {call : Call} (hlanded : Landed sha256 call fs) :
    fs.node call.target ≠ some .directory := by
  obtain ⟨content, hnode, -⟩ := hlanded
  rw [hnode]
  nofun

/-- The write found or made its target. -/
def Phase.landed : Phase → Bool
  | .cleaning _ _ | .finishing (.ok _) | .returned _ => true
  | _ => false

/-- What a write changed when it reaches a step. -/
structure WriteValid (sha256 : Bytes → String) (call : Call) (old : FileSystem) (fs : FileSystem)
    (phase : Phase) : Prop where
  sound : fs.Sound
  rooted : fs.node [] = some .directory
  tree : fs.Tree
  valid : CallValid call fs phase
  /-- A path is as it was, or it was not there, and is now the target, a directory on the way to it,
  or the temporary file. -/
  nodes : ∀ path, fs.node path = old.node path ∨ (old.node path = none ∧
    ((path = call.target ∧ fs.node path = some (.file call.content)) ∨
      (path <+: call.parent ∧ fs.node path = some .directory) ∨ phase.temporary = some path))
  /-- The temporary file was not there before. -/
  temporary : ∀ path, phase.temporary = some path → old.node path = none
  landed : Phase.landed phase = true → Landed sha256 call fs

/-- The file system when a write reaches a step. -/
def WriteValid.fileTree {start : FileSystem} (hvalid : WriteValid sha256 call start fs phase) :
    FileTree :=
  ⟨fs, hvalid.sound, hvalid.rooted, hvalid.tree⟩

/-- A write that gives its temporary file up has removed it. -/
theorem removed_of_step (hwrite : call.operation = .write) (hvalid : CallValid call fs phase)
    (hstep : CallStep sha256 call fs phase next phase') {path : Path}
    (hbefore : phase.temporary = some path) :
    phase'.temporary = some path ∨ next.node path = none := by
  cases hstep with
  | write | close | link | linkExists | same | different => exact Or.inl hbefore
  | rename hreplace | renameRefused hreplace =>
    rw [hwrite] at hreplace
    cases hreplace
  | abandon | clean =>
    cases hbefore
    exact Or.inr (by rw [node_unlink, if_pos rfl])
  | _ => cases hbefore

theorem landed_of_step (hvalid : CallValid call fs phase)
    (hbefore : Phase.landed phase = true → Landed sha256 call fs)
    (hstep : CallStep sha256 call fs phase next phase') (hlanded : Phase.landed phase' = true) :
    Landed sha256 call next := by
  cases hstep with
  | link => exact ⟨call.content, by rw [node_link hvalid.2.2, if_pos rfl], rfl, rfl⟩
  | rename =>
    refine ⟨call.content, ?_, rfl, rfl⟩
    rw [node_rename hvalid.2.2 (ne_target_of_isTemporary hvalid.2.1), if_pos rfl]
  | same hcompare =>
    rw [compareTarget] at hcompare
    cases hnode : fs.node call.target with
    | none =>
      rw [hnode] at hcompare
      cases hcompare
    | some node =>
      cases node with
      | directory | symlink =>
        rw [hnode] at hcompare
        cases hcompare
      | file content =>
        rw [hnode] at hcompare
        dsimp only at hcompare
        split_ifs at hcompare with hdifferent
        rw [not_or, not_not, not_not] at hdifferent
        exact ⟨content, hnode, hdifferent⟩
  | clean =>
    obtain ⟨content, hnode, hdigest⟩ := hbefore rfl
    refine ⟨content, ?_, hdigest⟩
    rw [node_unlink, if_neg (ne_target_of_isTemporary hvalid.2.1).symm]
    exact hnode
  | finish =>
    rename_i outcome
    cases outcome with
    | ok created => exact hbefore rfl
    | error error => cases hlanded
  | _ => cases hlanded

theorem WriteValid.step (hwrite : call.operation = .write)
    (hvalid : WriteValid sha256 call old.toFileSystem fs phase)
    (hstep : CallStep sha256 call fs phase next phase') :
    WriteValid sha256 call old.toFileSystem next phase' := by
  have hnone {path : Path} (habsent : fs.node path = none) : old.node path = none := by
    rcases hvalid.nodes path with hsame | ⟨hold, -⟩
    · exact hsame.symm.trans habsent
    · exact hold
  have htemporary : ∀ path, phase'.temporary = some path → old.node path = none := by
    intro path hpath
    rcases temporary_of_step hstep hpath with hbefore | habsent
    · exact hvalid.temporary path hbefore
    · exact hnone habsent
  refine ⟨sound_of_step hvalid.sound hstep, ?_, tree_of_step hvalid.sound hvalid.tree hvalid.valid
    hstep, hvalid.valid.step hvalid.sound hstep, fun path ↦ ?_, htemporary,
    landed_of_step hvalid.valid hvalid.landed hstep⟩
  · exact (Frame.of_step hvalid.sound hvalid.valid hstep).directories _ hvalid.rooted
  · by_cases hnew : phase'.temporary = some path
    · exact Or.inr ⟨htemporary path hnew, Or.inr (Or.inr hnew)⟩
    · have hremoved (hbefore : phase.temporary = some path) : next.node path = old.node path := by
        rw [(removed_of_step hwrite hvalid.valid hstep hbefore).resolve_left hnew,
          hvalid.temporary path hbefore]
      rcases node_of_step hvalid.sound hvalid.valid hstep path with hsame | hbefore |
        ⟨-, hcreated, -⟩ | ⟨habsent, hnode, hleading, -⟩ | ⟨htarget, hnode, -, hwhen⟩
      · rcases hvalid.nodes path with hold | ⟨hold, htarget | hdirectory | hbefore⟩
        · exact Or.inl (hsame.trans hold)
        · exact Or.inr ⟨hold, Or.inl ⟨htarget.1, hsame.trans htarget.2⟩⟩
        · exact Or.inr ⟨hold, Or.inr (Or.inl ⟨hdirectory.1, hsame.trans hdirectory.2⟩)⟩
        · exact Or.inl (hremoved hbefore)
      · exact Or.inl (hremoved hbefore)
      · exact absurd hcreated hnew
      · exact Or.inr ⟨hnone habsent, Or.inr (Or.inl ⟨hleading, hnode⟩)⟩
      · refine Or.inr ⟨hnone (hwhen.resolve_right ?_), Or.inl ⟨htarget, hnode⟩⟩
        rw [hwrite]
        nofun

theorem WriteValid.of_reaches (hwrite : call.operation = .write)
    (hreaches : Reaches sha256 call old.toFileSystem fs phase) :
    WriteValid sha256 call old.toFileSystem fs phase := by
  induction hreaches with
  | start => exact ⟨old.sound, old.rooted, old.tree, trivial, fun _ ↦ Or.inl rfl, nofun, nofun⟩
  | step _ hstep ih => exact ih.step hwrite hstep

/-! ### Writes that return -/

/-- Nothing is in the way of the write: every path to its directory is one or is free, and its target
is free or has its content. -/
structure Unobstructed (sha256 : Bytes → String) (call : Call) (fs : FileSystem) : Prop where
  write : call.operation = .write
  directories : ∀ base, base <+: call.parent →
    fs.node base = none ∨ fs.node base = some .directory
  target : fs.node call.target = none ∨ Landed sha256 call fs

theorem not_prefix_of_length {path : Path} (hlength : path.length = call.parent.length + 1) :
    ¬ path <+: call.parent := by
  intro hleading
  have hle := hleading.length_le
  omega

theorem length_of_isTemporary {path : Path} (hname : call.IsTemporary path) :
    path.length = call.parent.length + 1 := by
  obtain ⟨suffix, -, rfl⟩ := hname
  rw [List.length_append, List.length_singleton]

theorem length_target : call.target.length = call.parent.length + 1 := by
  rw [Call.target, List.length_append, List.length_singleton]

/-- A write does not get in its own way. -/
theorem Unobstructed.of_valid (hunobstructed : Unobstructed sha256 call old.toFileSystem)
    (hvalid : WriteValid sha256 call old.toFileSystem fs phase) : Unobstructed sha256 call fs := by
  refine ⟨hunobstructed.write, fun base hbase ↦ ?_, ?_⟩
  · rcases hvalid.nodes base with hsame | ⟨hnone, ⟨rfl, -⟩ | ⟨-, hdirectory⟩ | htemporary⟩
    · rw [hsame]
      exact hunobstructed.directories base hbase
    · exact absurd hbase (not_prefix_of_length length_target)
    · exact Or.inr hdirectory
    · exact absurd hbase
        (not_prefix_of_length (length_of_isTemporary (hvalid.valid.temporary htemporary).1))
  · rcases hvalid.nodes call.target with hsame | ⟨hnone, ⟨-, hcontent⟩ | ⟨hleading, -⟩ | htemporary⟩
    · rw [Landed, hsame]
      exact hunobstructed.target
    · exact Or.inr ⟨_, hcontent, rfl, rfl⟩
    · exact absurd hleading (not_prefix_of_length length_target)
    · exact absurd rfl (ne_target_of_isTemporary (hvalid.valid.temporary htemporary).1)

/-- The write raises nothing, and compares its content with a target that exists. -/
def Smooth (call : Call) (fs : FileSystem) : Phase → Prop
  | .comparing _ => fs.node call.target ≠ none
  | .abandoning _ _ | .finishing (.error _) | .raised _ => False
  | _ => True

theorem checkDirectories_of_unobstructed (hunobstructed : Unobstructed sha256 call fs)
    (hrooted : fs.node [] = some .directory) {error : AtomicError} :
    checkDirectories fs call ≠ .error error := by
  intro hcheck
  have hlexical : requireLexicalContainment fs call = .ok () := by
    rw [requireLexicalContainment, List.find?_eq_none.mpr]
    intro path hmem
    obtain ⟨below, hbelow, rfl⟩ := List.mem_map.mp hmem
    have hleading : call.root ++ below <+: call.parent :=
      (List.prefix_append_right_inj _).mpr ((List.mem_inits _ _).mp hbelow)
    rcases hunobstructed.directories _ hleading with hnode | hnode <;> simp [hnode]
  have hancestor : fs.node (existingAncestor fs call.parent).1 = some .directory := by
    rw [existingAncestor]
    cases hfind : (ancestors call.parent).find? fun path ↦ fs.node path ≠ none with
    | none => exact hrooted
    | some base =>
      have hpresent := List.find?_some hfind
      have hleading := prefix_of_mem_ancestors (List.mem_of_find?_eq_some hfind)
      exact (hunobstructed.directories base hleading).resolve_left (by simpa using hpresent)
  simp only [checkDirectories, hlexical, hancestor] at hcheck
  cases hcheck

theorem Smooth.step (hunobstructed : Unobstructed sha256 call fs)
    (hrooted : fs.node [] = some .directory) (hvalid : CallValid call fs phase)
    (hsmooth : Smooth call fs phase) (hstep : CallStep sha256 call fs phase next phase') :
    Smooth call next phase' := by
  cases hstep with
  | refuse hcheck => exact checkDirectories_of_unobstructed hunobstructed hrooted hcheck
  | @directoryRefused base missing name node hnode hdirectory =>
    have hleading : base ++ [name] <+: call.parent := by
      rw [← hvalid.1, List.prefix_append_right_inj]
      exact ⟨missing, rfl⟩
    rcases hunobstructed.directories _ hleading with hnone | hsome
    · rw [hnode] at hnone
      cases hnone
    · rw [hnode, Option.some.injEq] at hsome
      exact hdirectory hsome
  | targetRefused hcheck =>
    rw [checkTarget, hunobstructed.write] at hcheck
    cases hcheck
  | renameRefused hreplace =>
    rw [hunobstructed.write] at hreplace
    cases hreplace
  | linkExists _ hpresent => exact hpresent
  | different hcompare =>
    obtain ⟨content, hnode, hdigest, hlength⟩ := hunobstructed.target.resolve_left hsmooth
    rw [compareTarget, hnode] at hcompare
    dsimp only at hcompare
    rw [if_neg (by simp [hdigest, hlength])] at hcompare
    cases hcompare
  | abandon => exact hsmooth
  | finish =>
    rename_i outcome
    cases outcome with
    | ok created => trivial
    | error error => exact hsmooth
  | check | makeDirectory | directoryExists | targetChecked | create | write | close | link | rename
  | same | clean => trivial

theorem smooth_of_reaches (hunobstructed : Unobstructed sha256 call old.toFileSystem)
    (hreaches : Reaches sha256 call old.toFileSystem fs phase) : Smooth call fs phase := by
  induction hreaches with
  | start => trivial
  | step hreaches hstep ih =>
    have hvalid := WriteValid.of_reaches hunobstructed.write hreaches
    exact ih.step (hunobstructed.of_valid hvalid) hvalid.rooted hvalid.valid hstep

/-- The write returns when it is not interrupted: it comes to an end, and every end is a return. -/
def Succeeds (sha256 : Bytes → String) (call : Call) (fs : FileSystem) : Prop :=
  (∃ next phase, Reaches sha256 call fs next phase ∧ phase.ended = true) ∧
    ∀ next phase, Reaches sha256 call fs next phase → phase.ended = true →
      ∃ result, phase = .returned result

theorem exists_ended (hwrite : call.operation = .write) (bound : ℕ)
    (hreaches : Reaches sha256 call old.toFileSystem fs phase) (hrank : rank call phase < bound) :
    ∃ next phase', Reaches sha256 call old.toFileSystem next phase' ∧ phase'.ended = true := by
  induction bound generalizing fs phase with
  | zero => exact absurd hrank (Nat.not_lt_zero _)
  | succ bound ih =>
    cases hended : phase.ended with
    | true => exact ⟨fs, phase, hreaches, hended⟩
    | false =>
      have hvalid := (WriteValid.of_reaches hwrite hreaches).valid
      obtain ⟨next, phase', hstep⟩ := progress_of_valid sha256 hvalid hended
      have hless := rank_of_step hstep
      exact ih (hreaches.step hstep) (by omega)

theorem succeeds_of_unobstructed (hunobstructed : Unobstructed sha256 call old.toFileSystem) :
    Succeeds sha256 call old.toFileSystem := by
  refine ⟨exists_ended hunobstructed.write _ .start (Nat.lt_succ_self _),
    fun next phase hreaches hended ↦ ?_⟩
  have hsmooth := smooth_of_reaches hunobstructed hreaches
  cases phase with
  | returned result => exact ⟨result, rfl⟩
  | raised error => exact hsmooth.elim
  | _ => cases hended

/-! ### Writes that raise -/

/-- The ancestors of a path stand in the order of their lengths. -/
theorem pairwise_ancestors (path : Path) :
    (ancestors path).Pairwise fun first second ↦ second.length < first.length := by
  rw [ancestors, List.pairwise_map]
  generalize path.reverse = reversed
  induction reversed with
  | nil => simp
  | cons last rest ih =>
    rw [List.tails_cons, List.pairwise_cons]
    refine ⟨fun shorter hshorter ↦ ?_, ih⟩
    have hle := ((List.mem_tails _ _).mp hshorter).length_le
    rw [List.length_reverse, List.length_reverse, List.length_cons]
    omega

theorem mem_ancestors {path base : Path} (hleading : base <+: path) : base ∈ ancestors path := by
  refine List.mem_map.mpr ⟨base.reverse, ?_, List.reverse_reverse base⟩
  rwa [List.mem_tails, List.reverse_suffix]

/-- The first missing directory below the lowest one that exists is not there. -/
theorem absent_of_checkDirectories {base missing rest : Path} {name : String}
    (hrooted : fs.node [] = some .directory)
    (hcheck : checkDirectories fs call = .ok (base, missing)) (hmissing : missing = name :: rest) :
    fs.node (base ++ [name]) = none := by
  have hparent := (of_checkDirectories hcheck).1
  have hbelow : base ++ [name] ∈ ancestors call.parent := by
    refine mem_ancestors ⟨rest, ?_⟩
    rw [← hparent, hmissing, List.append_assoc, List.singleton_append]
  have hancestor : existingAncestor fs call.parent = (base, missing) := by
    rw [checkDirectories] at hcheck
    cases hlexical : requireLexicalContainment fs call with
    | error error => simp [hlexical, bind, Except.bind] at hcheck
    | ok value =>
      simp only [hlexical, bind, Except.bind, pure, Except.pure, throw, throwThe,
        MonadExceptOf.throw] at hcheck
      split_ifs at hcheck
      exact Except.ok.inj hcheck
  rw [existingAncestor] at hancestor
  cases hfind : (ancestors call.parent).find? fun path ↦ fs.node path ≠ none with
  | none =>
    have habsent := List.find?_eq_none.mp hfind _ (mem_ancestors List.nil_prefix)
    simp [hrooted] at habsent
  | some found =>
    rw [hfind] at hancestor
    cases hancestor
    obtain ⟨-, before, after, hsplit, habsent⟩ := List.find?_eq_some_iff_append.mp hfind
    have hordered := pairwise_ancestors call.parent
    rw [hsplit, List.pairwise_append, List.pairwise_cons] at hordered
    rw [hsplit, List.mem_append, List.mem_cons] at hbelow
    rcases hbelow with hbefore | hsame | hafter
    · simpa using habsent _ hbefore
    · exact absurd hsame (by simp)
    · have hlength := hordered.2.1.1 _ hafter
      rw [List.length_append, List.length_singleton] at hlength
      omega

/-- How a write comes to an error: at once, or at a target that it did not make. -/
def Failing (call : Call) (old fs : FileSystem) : Phase → Prop
  | .checking => fs = old
  | .directories base missing => fs.node call.target = old.node call.target ∧
    ∀ name rest, missing = name :: rest → fs.node (base ++ [name]) = none
  | .creating _ | .writing _ _ _ _ | .closed _ _ => fs.node call.target = old.node call.target
  | .comparing _ | .abandoning _ _ | .finishing (.error _) => old.node call.target ≠ none
  | .raised _ => ∀ path, fs.node path = old.node path
  | _ => True

/-- A write whose target exists leaves everything as it was, but for its temporary file. -/
theorem node_of_present (hvalid : WriteValid sha256 call old.toFileSystem fs phase)
    (hpresent : old.node call.target ≠ none) {path : Path} (hpath : phase.temporary ≠ some path) :
    fs.node path = old.node path := by
  rcases hvalid.nodes path with hsame | ⟨hnone, ⟨rfl, -⟩ | ⟨⟨rest, hrest⟩, -⟩ | htemporary⟩
  · exact hsame
  · exact absurd hnone hpresent
  · have hbelow : old.node (path ++ (rest ++ [call.name])) ≠ none := by
      rwa [← List.append_assoc, hrest]
    rw [old.tree.directory (by simp) hbelow] at hnone
    cases hnone
  · exact absurd htemporary hpath

theorem Failing.step (hwrite : call.operation = .write)
    (hvalid : WriteValid sha256 call old.toFileSystem fs phase)
    (hfailing : Failing call old.toFileSystem fs phase)
    (hstep : CallStep sha256 call fs phase next phase') :
    Failing call old.toFileSystem next phase' := by
  cases hstep with
  | refuse =>
    obtain rfl : fs = old.toFileSystem := hfailing
    exact fun _ ↦ rfl
  | check hcheck =>
    obtain rfl : fs = old.toFileSystem := hfailing
    exact ⟨rfl, fun name rest hmissing ↦ absent_of_checkDirectories old.rooted hcheck hmissing⟩
  | @makeDirectory base missing name hparent habsent =>
    have hbelow : base ++ [name] <+: call.parent := by
      rw [← hvalid.valid.1, List.prefix_append_right_inj]
      exact ⟨missing, rfl⟩
    refine ⟨?_, fun other rest hmissing ↦ ?_⟩
    · rw [node_makeDirectory, if_neg, hfailing.1]
      intro heq
      rw [← heq] at hbelow
      exact not_prefix_of_length length_target hbelow
    · rw [node_makeDirectory, if_neg (by simp)]
      by_contra hpresent
      have hdirectory := hvalid.tree _ _ hpresent
      rw [habsent] at hdirectory
      cases hdirectory
  | directoryExists hnode | directoryRefused hnode =>
    rw [hfailing.2 _ _ rfl] at hnode
    cases hnode
  | targetChecked => exact hfailing.1
  | targetRefused hcheck =>
    rw [checkTarget, hwrite] at hcheck
    cases hcheck
  | create hparent hname habsent =>
    rw [Failing, node_create hvalid.sound, if_neg (ne_target_of_isTemporary hname).symm]
    exact hfailing
  | write =>
    rw [Failing, node_write, if_neg]
    · exact hfailing
    · intro hlookup
      exact ne_target_of_isTemporary hvalid.valid.2.1 (hvalid.valid.2.2.2.1 _ hlookup).symm
  | close => exact hfailing
  | linkExists _ htarget =>
    have hsame : fs.node call.target = old.node call.target := hfailing
    rw [hsame] at htarget
    exact htarget
  | rename hreplace | renameRefused hreplace =>
    rw [hwrite] at hreplace
    cases hreplace
  | different => exact hfailing
  | abandon => exact hfailing
  | finish =>
    rename_i outcome
    cases outcome with
    | ok created => trivial
    | error error => exact fun path ↦ node_of_present hvalid hfailing (Option.some_ne_none path).symm
  | link | same | clean => trivial

/-- A write that raises an error leaves everything as it was. -/
theorem node_of_raised (hwrite : call.operation = .write) {error : AtomicError}
    (hreaches : Reaches sha256 call old.toFileSystem fs (.raised error)) (path : Path) :
    fs.node path = old.node path := by
  have hfailing : ∀ {fs : FileSystem} {phase : Phase},
      Reaches sha256 call old.toFileSystem fs phase → Failing call old.toFileSystem fs phase := by
    intro fs phase hreaches
    induction hreaches with
    | start => rfl
    | step hreaches hstep ih => exact ih.step hwrite (WriteValid.of_reaches hwrite hreaches) hstep
  exact hfailing hreaches path

/-- What a write says that creates nothing. -/
def Phase.foundTarget : Phase → Prop
  | .cleaning _ created | .finishing (.ok created) => created = false
  | .returned result => result.created = false
  | _ => True

/-- A write whose target exists does not say that it created it. -/
theorem created_of_present (hwrite : call.operation = .write)
    (hpresent : old.node call.target ≠ none)
    (hreaches : Reaches sha256 call old.toFileSystem fs phase) : Phase.foundTarget phase := by
  induction hreaches with
  | start => trivial
  | @step fs next phase phase' hreaches hstep ih =>
    cases hstep with
    | link _ _ habsent =>
      have hvalid := WriteValid.of_reaches hwrite hreaches
      rw [node_of_present hvalid hpresent] at habsent
      · exact absurd habsent hpresent
      · exact fun htemporary ↦ ne_target_of_isTemporary hvalid.valid.2.1 (Option.some.inj htemporary)
    | rename hreplace =>
      rw [hwrite] at hreplace
      cases hreplace
    | same => rfl
    | clean => exact ih
    | finish =>
      rename_i outcome
      cases outcome with
      | ok created => exact ih
      | error error => trivial
    | _ => trivial

end Single

/-! ### Replacements -/

section Replacement

variable {sha256 : Bytes → String} {call : Call} {old : FileTree} {fs next : FileSystem}
  {phase phase' : Phase}

/-- The target of a replacement was replaced. -/
def Phase.replaced : Phase → Bool
  | .finishing (.ok _) | .returned _ => true
  | _ => false

/-- Only a write comes to the phase: it compares or removes its temporary file. -/
def Phase.ofWrite : Phase → Bool
  | .comparing _ | .abandoning _ _ | .cleaning _ _ => true
  | _ => false

/-- What a replacement changed when it reaches a step. -/
structure ReplaceValid (call : Call) (old fs : FileSystem) (phase : Phase) : Prop where
  sound : fs.Sound
  rooted : fs.node [] = some .directory
  tree : fs.Tree
  valid : CallValid call fs phase
  phases : Phase.ofWrite phase = false
  target : fs.node call.target =
    if Phase.replaced phase = true then some (.file call.content) else old.node call.target

theorem ofWrite_of_step (hreplace : call.operation = .replace) (hphases : Phase.ofWrite phase = false)
    (hstep : CallStep sha256 call fs phase next phase') : Phase.ofWrite phase' = false := by
  cases hstep with
  | link hwrite | linkExists hwrite =>
    rw [hreplace] at hwrite
    cases hwrite
  | same | different | abandon | clean => cases hphases
  | finish =>
    rename_i outcome
    cases outcome <;> rfl
  | _ => rfl

/-- Only the renaming changes the target of a replacement. -/
theorem target_of_step (hsound : fs.Sound) (hvalid : CallValid call fs phase)
    (hreplace : call.operation = .replace) (hphases : Phase.ofWrite phase = false)
    (hstep : CallStep sha256 call fs phase next phase') :
    (next.node call.target = fs.node call.target ∧ Phase.replaced phase' = Phase.replaced phase) ∨
      (next.node call.target = some (.file call.content) ∧ Phase.replaced phase' = true) := by
  cases hstep with
  | rename =>
    refine Or.inr ⟨?_, rfl⟩
    rw [node_rename hvalid.2.2 (ne_target_of_isTemporary hvalid.2.1), if_pos rfl]
  | link hwrite | linkExists hwrite =>
    rw [hreplace] at hwrite
    cases hwrite
  | same | different | abandon | clean => cases hphases
  | @makeDirectory base missing name hparent habsent =>
    refine Or.inl ⟨?_, rfl⟩
    rw [node_makeDirectory, if_neg]
    intro heq
    have hbelow : base ++ [name] <+: call.parent := by
      rw [← hvalid.1, List.prefix_append_right_inj]
      exact ⟨missing, rfl⟩
    rw [← heq] at hbelow
    exact not_prefix_of_length length_target hbelow
  | create hparent hname habsent =>
    refine Or.inl ⟨?_, rfl⟩
    rw [node_create hsound, if_neg (ne_target_of_isTemporary hname).symm]
  | write =>
    refine Or.inl ⟨?_, rfl⟩
    rw [node_write, if_neg]
    exact fun hlookup ↦ ne_target_of_isTemporary hvalid.2.1 (hvalid.2.2.2.1 _ hlookup).symm
  | finish =>
    rename_i outcome
    cases outcome <;> exact Or.inl ⟨rfl, rfl⟩
  | _ => exact Or.inl ⟨rfl, rfl⟩

theorem ReplaceValid.step (hreplace : call.operation = .replace)
    (hvalid : ReplaceValid call old.toFileSystem fs phase)
    (hstep : CallStep sha256 call fs phase next phase') :
    ReplaceValid call old.toFileSystem next phase' := by
  refine ⟨sound_of_step hvalid.sound hstep,
    (Frame.of_step hvalid.sound hvalid.valid hstep).directories _ hvalid.rooted,
    tree_of_step hvalid.sound hvalid.tree hvalid.valid hstep, hvalid.valid.step hvalid.sound hstep,
    ofWrite_of_step hreplace hvalid.phases hstep, ?_⟩
  rcases target_of_step hvalid.sound hvalid.valid hreplace hvalid.phases hstep with
    ⟨hnode, hreplaced⟩ | ⟨hnode, hreplaced⟩
  · rw [hnode, hreplaced, hvalid.target]
  · rw [hnode, hreplaced, if_pos rfl]

theorem ReplaceValid.of_reaches (hreplace : call.operation = .replace)
    (hreaches : Reaches sha256 call old.toFileSystem fs phase) :
    ReplaceValid call old.toFileSystem fs phase := by
  induction hreaches with
  | start => exact ⟨old.sound, old.rooted, old.tree, trivial, rfl, rfl⟩
  | step _ hstep ih => exact ih.step hreplace hstep

end Replacement

/-! ### Sequences -/

section Sequences

variable {sha256 : Bytes → String} {fs : FileSystem} {calls rest : List Call}
  {stops more : List (Option Path)}

/-- The calls of a sequence, each of which returned. -/
inductive Writes (sha256 : Bytes → String) : FileSystem → List Call → FileSystem → Prop
  | nil {fs : FileSystem} : Writes sha256 fs [] fs
  | cons {fs middle next : FileSystem} {call : Call} {rest : List Call} {result : AtomicWriteResult}
    (hreaches : Reaches sha256 call fs middle (.returned result))
    (hrest : Writes sha256 middle rest next) : Writes sha256 fs (call :: rest) next

/-- The calls return one after the other when they are not interrupted. -/
def Completes (sha256 : Bytes → String) : FileSystem → List Call → Prop
  | _, [] => True
  | fs, call :: rest => Succeeds sha256 call fs ∧ ∀ next result,
      Reaches sha256 call fs next (.returned result) → Completes sha256 next rest

theorem Completes.exists_writes (hcompletes : Completes sha256 fs calls) :
    ∃ next, Writes sha256 fs calls next := by
  induction calls generalizing fs with
  | nil => exact ⟨fs, .nil⟩
  | cons call rest ih =>
    obtain ⟨⟨⟨next, phase, hreaches, hended⟩, hreturns⟩, hrest⟩ := hcompletes
    obtain ⟨result, rfl⟩ := hreturns next phase hreaches hended
    obtain ⟨final, hfinal⟩ := ih (hrest next result hreaches)
    exact ⟨final, .cons hreaches hfinal⟩

/-- A sequence of calls that ended at some step of one of them, or between two, with the temporary
file that this left. -/
inductive Stops (sha256 : Bytes → String) :
    FileSystem → List Call → FileSystem → Option Path → Prop
  | between {fs : FileSystem} {calls : List Call} : Stops sha256 fs calls fs none
  | during {fs next : FileSystem} {call : Call} {rest : List Call} {phase : Phase}
    (hreaches : Reaches sha256 call fs next phase) :
    Stops sha256 fs (call :: rest) next phase.temporary
  | later {fs middle next : FileSystem} {call : Call} {rest : List Call} {result : AtomicWriteResult}
    {stop : Option Path} (hreaches : Reaches sha256 call fs middle (.returned result))
    (hrest : Stops sha256 middle rest next stop) : Stops sha256 fs (call :: rest) next stop

/-- What calls change that leave some temporary files. -/
structure Changed (calls : List Call) (stops : List (Option Path)) (old fs : FileSystem) : Prop where
  sound : fs.Sound
  rooted : fs.node [] = some .directory
  tree : fs.Tree
  nodes : ∀ path, fs.node path = old.node path ∨ (old.node path = none ∧
    ((∃ call ∈ calls, path = call.target ∧ fs.node path = some (.file call.content)) ∨
      (∃ call ∈ calls, path <+: call.parent ∧ fs.node path = some .directory) ∨
      some path ∈ stops))
  left : ∀ path, some path ∈ stops → (∃ call ∈ calls, call.IsTemporary path) ∧
    ∃ content, fs.node path = some (.file content)

/-- The file system after some calls. -/
def Changed.fileTree {old fs : FileSystem} (hchanged : Changed calls stops old fs) : FileTree :=
  ⟨fs, hchanged.sound, hchanged.rooted, hchanged.tree⟩

/-- What was there is kept. -/
theorem Changed.kept {old fs : FileSystem} (hchanged : Changed calls stops old fs) {path : Path}
    (hpresent : old.node path ≠ none) : fs.node path = old.node path := by
  rcases hchanged.nodes path with hsame | ⟨hnone, -⟩
  · exact hsame
  · exact absurd hnone hpresent

theorem Changed.refl (fs : FileTree) (calls : List Call) :
    Changed calls [] fs.toFileSystem fs.toFileSystem :=
  ⟨fs.sound, fs.rooted, fs.tree, fun _ ↦ Or.inl rfl, nofun⟩

theorem Changed.trans {old middle fs : FileSystem} (hfirst : Changed calls stops old middle)
    (hsecond : Changed rest more middle fs) :
    Changed (calls ++ rest) (stops ++ more) old fs := by
  refine ⟨hsecond.sound, hsecond.rooted, hsecond.tree, fun path ↦ ?_, fun path hpath ↦ ?_⟩
  · rcases hsecond.nodes path with hsame | ⟨hnone, hnew⟩
    · rw [hsame]
      rcases hfirst.nodes path with hold | ⟨hold, ⟨call, hmem, htarget⟩ | ⟨call, hmem, hleading⟩ | hleft⟩
      · exact Or.inl hold
      · exact Or.inr ⟨hold, Or.inl ⟨call, List.mem_append_left _ hmem, htarget⟩⟩
      · exact Or.inr ⟨hold, Or.inr (Or.inl ⟨call, List.mem_append_left _ hmem, hleading⟩)⟩
      · exact Or.inr ⟨hold, Or.inr (Or.inr (List.mem_append_left _ hleft))⟩
    · have hold : old.node path = none := by
        by_contra hpresent
        rw [← hfirst.kept hpresent] at hpresent
        exact hpresent hnone
      rcases hnew with ⟨call, hmem, htarget⟩ | ⟨call, hmem, hleading⟩ | hleft
      · exact Or.inr ⟨hold, Or.inl ⟨call, List.mem_append_right _ hmem, htarget⟩⟩
      · exact Or.inr ⟨hold, Or.inr (Or.inl ⟨call, List.mem_append_right _ hmem, hleading⟩)⟩
      · exact Or.inr ⟨hold, Or.inr (Or.inr (List.mem_append_right _ hleft))⟩
  · rcases List.mem_append.mp hpath with hleft | hleft
    · obtain ⟨⟨call, hmem, hname⟩, content, hnode⟩ := hfirst.left path hleft
      refine ⟨⟨call, List.mem_append_left _ hmem, hname⟩, content, ?_⟩
      rw [hsecond.kept (by rw [hnode]; exact Option.some_ne_none _), hnode]
    · obtain ⟨⟨call, hmem, hname⟩, hnode⟩ := hsecond.left path hleft
      exact ⟨⟨call, List.mem_append_right _ hmem, hname⟩, hnode⟩

theorem Changed.mono {old fs : FileSystem} (hchanged : Changed calls stops old fs)
    (hcalls : ∀ call ∈ calls, call ∈ rest) (hstops : ∀ path, some path ∈ stops ↔ some path ∈ more) :
    Changed rest more old fs := by
  refine ⟨hchanged.sound, hchanged.rooted, hchanged.tree, fun path ↦ ?_, fun path hpath ↦ ?_⟩
  · refine (hchanged.nodes path).imp_right (And.imp_right ?_)
    rintro (⟨call, hmem, htarget⟩ | ⟨call, hmem, hleading⟩ | hleft)
    · exact Or.inl ⟨call, hcalls call hmem, htarget⟩
    · exact Or.inr (Or.inl ⟨call, hcalls call hmem, hleading⟩)
    · exact Or.inr (Or.inr ((hstops path).mp hleft))
  · obtain ⟨⟨call, hmem, hname⟩, hnode⟩ := hchanged.left path ((hstops path).mpr hpath)
    exact ⟨⟨call, hcalls call hmem, hname⟩, hnode⟩

/-- What one call changes that ends at a step. -/
theorem Changed.of_reaches {call : Call} {old : FileTree} {fs : FileSystem} {phase : Phase}
    (hwrite : call.operation = .write) (hreaches : Reaches sha256 call old.toFileSystem fs phase) :
    Changed [call] [phase.temporary] old.toFileSystem fs := by
  have hvalid := WriteValid.of_reaches hwrite hreaches
  refine ⟨hvalid.sound, hvalid.rooted, hvalid.tree, fun path ↦ ?_, fun path hpath ↦ ?_⟩
  · refine (hvalid.nodes path).imp_right (And.imp_right ?_)
    rintro (htarget | hleading | htemporary)
    · exact Or.inl ⟨call, List.mem_singleton_self _, htarget⟩
    · exact Or.inr (Or.inl ⟨call, List.mem_singleton_self _, hleading⟩)
    · exact Or.inr (Or.inr (List.mem_singleton.mpr htemporary.symm))
  · obtain ⟨hname, hnode⟩ := hvalid.valid.temporary (List.mem_singleton.mp hpath).symm
    exact ⟨⟨call, List.mem_singleton_self _, hname⟩, hnode⟩

/-- A target that a write found or made stays. -/
theorem Landed.kept {call : Call} {middle fs : FileSystem} (hlanded : Landed sha256 call middle)
    (hchanged : Changed calls stops middle fs) : Landed sha256 call fs := by
  obtain ⟨content, hnode, hdigest⟩ := hlanded
  refine ⟨content, ?_, hdigest⟩
  rw [hchanged.kept (by rw [hnode]; exact Option.some_ne_none _), hnode]

/-- What a call changes that returned. -/
theorem Changed.of_returned {call : Call} {old : FileTree} {fs : FileSystem}
    {result : AtomicWriteResult} (hwrite : call.operation = .write)
    (hreaches : Reaches sha256 call old.toFileSystem fs (.returned result)) :
    Changed [call] [] old.toFileSystem fs ∧ Landed sha256 call fs := by
  refine ⟨(Changed.of_reaches hwrite hreaches).mono (fun _ hmem ↦ hmem) fun path ↦ ?_,
    (WriteValid.of_reaches hwrite hreaches).landed rfl⟩
  simp [Phase.temporary]

theorem Changed.of_writes {start : FileSystem} (old : FileTree)
    (hstart : old.toFileSystem = start) (hwrite : ∀ call ∈ calls, call.operation = .write)
    (hwrites : Writes sha256 start calls fs) :
    Changed calls [] start fs ∧ ∀ call ∈ calls, Landed sha256 call fs := by
  induction hwrites generalizing old with
  | nil => exact ⟨hstart ▸ Changed.refl old [], nofun⟩
  | @cons start middle next call rest result hreaches hrest ih =>
    subst hstart
    rw [List.forall_mem_cons] at hwrite
    obtain ⟨hfirst, hlanded⟩ := Changed.of_returned hwrite.1 hreaches
    obtain ⟨hsecond, hlater⟩ := ih hfirst.fileTree rfl hwrite.2
    refine ⟨hfirst.trans hsecond, List.forall_mem_cons.mpr ⟨hlanded.kept hsecond, hlater⟩⟩

theorem Changed.of_stops {start : FileSystem} {stop : Option Path} (old : FileTree)
    (hstart : old.toFileSystem = start) (hwrite : ∀ call ∈ calls, call.operation = .write)
    (hstops : Stops sha256 start calls fs stop) : Changed calls [stop] start fs := by
  induction hstops generalizing old with
  | between =>
    subst hstart
    exact (Changed.refl old _).mono (fun _ hmem ↦ hmem) (by simp)
  | during hreaches =>
    subst hstart
    rw [List.forall_mem_cons] at hwrite
    refine (Changed.of_reaches hwrite.1 hreaches).mono (fun call hmem ↦ ?_) fun _ ↦ Iff.rfl
    rw [List.mem_singleton.mp hmem]
    exact List.mem_cons_self
  | later hreaches hrest ih =>
    subst hstart
    rw [List.forall_mem_cons] at hwrite
    have hfirst := (Changed.of_returned hwrite.1 hreaches).1
    exact hfirst.trans (ih hfirst.fileTree rfl hwrite.2)

/-- Attempts at a sequence of calls, each of which ended at some step. -/
inductive Attempts (sha256 : Bytes → String) (calls : List Call) (old : FileSystem) :
    List (Option Path) → FileSystem → Prop
  | nil : Attempts sha256 calls old [] old
  | snoc {middle fs : FileSystem} {stops : List (Option Path)} {stop : Option Path}
    (hattempts : Attempts sha256 calls old stops middle) (hstop : Stops sha256 middle calls fs stop) :
    Attempts sha256 calls old (stops ++ [stop]) fs

theorem Changed.of_attempts {old : FileTree}
    (hwrite : ∀ call ∈ calls, call.operation = .write)
    (hattempts : Attempts sha256 calls old.toFileSystem stops fs) :
    Changed calls stops old.toFileSystem fs := by
  induction hattempts with
  | nil => exact Changed.refl old calls
  | snoc hattempts hstop ih =>
    refine (ih.trans (Changed.of_stops ih.fileTree rfl hwrite hstop)).mono (fun call hmem ↦ ?_)
      fun _ ↦ Iff.rfl
    exact (List.mem_append.mp hmem).elim id id

/-- Calls one after the other, each of which is repeated after an interruption until it returns. -/
inductive Retries (sha256 : Bytes → String) :
    FileSystem → List Call → List (Option Path) → FileSystem → Prop
  | nil {fs : FileSystem} : Retries sha256 fs [] [] fs
  | interrupted {fs middle next : FileSystem} {call : Call} {rest : List Call} {phase : Phase}
    {stops : List (Option Path)} (hreaches : Reaches sha256 call fs middle phase)
    (hrest : Retries sha256 middle (call :: rest) stops next) :
    Retries sha256 fs (call :: rest) (phase.temporary :: stops) next
  | published {fs middle next : FileSystem} {call : Call} {rest : List Call}
    {stops : List (Option Path)} {result : AtomicWriteResult}
    (hreaches : Reaches sha256 call fs middle (.returned result))
    (hrest : Retries sha256 middle rest stops next) : Retries sha256 fs (call :: rest) stops next

theorem Changed.of_retries {start : FileSystem} (old : FileTree)
    (hstart : old.toFileSystem = start) (hwrite : ∀ call ∈ calls, call.operation = .write)
    (hretries : Retries sha256 start calls stops fs) :
    Changed calls stops start fs ∧ ∀ call ∈ calls, Landed sha256 call fs := by
  induction hretries generalizing old with
  | nil => exact ⟨hstart ▸ Changed.refl old [], nofun⟩
  | @interrupted start middle next call rest phase stops hreaches hrest ih =>
    subst hstart
    have hfirst := Changed.of_reaches (hwrite call List.mem_cons_self) hreaches
    obtain ⟨hsecond, hlanded⟩ := ih hfirst.fileTree rfl hwrite
    refine ⟨(hfirst.trans hsecond).mono (fun other hmem ↦ ?_) fun _ ↦ Iff.rfl, hlanded⟩
    rcases List.mem_append.mp hmem with hmem | hmem
    · exact List.mem_cons.mpr (Or.inl (List.mem_singleton.mp hmem))
    · exact hmem
  | @published start middle next call rest stops result hreaches hrest ih =>
    subst hstart
    rw [List.forall_mem_cons] at hwrite
    obtain ⟨hfirst, hlanded⟩ := Changed.of_returned hwrite.1 hreaches
    obtain ⟨hsecond, hlater⟩ := ih hfirst.fileTree rfl hwrite.2
    exact ⟨hfirst.trans hsecond, List.forall_mem_cons.mpr ⟨hlanded.kept hsecond, hlater⟩⟩

end Sequences

end Oamb.Artifacts.WriteSequences
