import Mathlib.Data.Set.Finite.List
import Oamb.Artifacts.AtomicPublication

/-!
# What atomic publication guarantees

`Frame` says what a step of a call leaves alone, and `node_of_step` what it changes at a path.
`CallValid` and `Valid` are the invariants: a temporary file belongs to one call, and only a call
that writes to an inode knows it, so that a file is complete when it gets a second name.

`atomicallyPublished_of_run` is about any two states of a run of any number of calls. A target is as
it was, or holds the complete content of a call for it; what is published is not changed by later
calls; a write whose target exists returns that it created nothing, or raises a collision; and every
call ends after a bounded number of its own steps.
-/

set_option autoImplicit false

namespace Oamb.Artifacts.AtomicGuarantees

open Foundation Foundation.FileSystem Foundation.LabelledRuns
open AtomicPublication

/-! ### Checks -/

section Checks

variable {fs : FileSystem} {call : Call}

theorem prefix_of_mem_ancestors {path base : Path} (hmem : base ∈ ancestors path) :
    base <+: path := by
  obtain ⟨suffix, hsuffix, rfl⟩ := List.mem_map.mp hmem
  rw [← List.reverse_suffix, List.reverse_reverse]
  exact (List.mem_tails _ _).mp hsuffix

theorem existingAncestor_spec (parent : Path) :
    (existingAncestor fs parent).1 ++ (existingAncestor fs parent).2 = parent := by
  rw [existingAncestor]
  cases hfind : (ancestors parent).find? fun path ↦ fs.node path ≠ none with
  | none => rfl
  | some base =>
    obtain ⟨rest, rfl⟩ := prefix_of_mem_ancestors (List.mem_of_find?_eq_some hfind)
    exact congrArg (base ++ ·) List.drop_left

theorem existingAncestor_of_present {parent : Path} (hparent : fs.node parent ≠ none) :
    existingAncestor fs parent = (parent, []) := by
  have hhead : ∃ rest, ancestors parent = parent :: rest := by
    rw [ancestors]
    cases hreverse : parent.reverse with
    | nil =>
      rw [List.reverse_eq_nil_iff.mp hreverse]
      exact ⟨_, rfl⟩
    | cons last rest =>
      rw [List.tails_cons, List.map_cons, ← hreverse, List.reverse_reverse]
      exact ⟨_, rfl⟩
  obtain ⟨rest, hrest⟩ := hhead
  rw [existingAncestor, hrest, List.find?_cons_of_pos (by simpa using hparent)]
  exact congrArg (Prod.mk parent) (List.drop_length)

theorem of_checkDirectories {base missing : Path}
    (hcheck : checkDirectories fs call = .ok (base, missing)) :
    base ++ missing = call.parent ∧ fs.node base = some .directory := by
  rw [checkDirectories] at hcheck
  cases hlexical : requireLexicalContainment fs call with
  | error error => simp [hlexical, bind, Except.bind] at hcheck
  | ok value =>
    simp only [hlexical, bind, Except.bind, pure, Except.pure, throw, throwThe,
      MonadExceptOf.throw] at hcheck
    split_ifs at hcheck with hdirectory
    cases hcheck
    exact ⟨existingAncestor_spec _, hdirectory⟩

theorem ne_target_of_isTemporary {path : Path} (htemporary : call.IsTemporary path) :
    path ≠ call.target := by
  rintro rfl
  obtain ⟨suffix, -, hname⟩ := htemporary
  have hlast := (List.append_inj' hname rfl).2
  rw [List.cons.injEq] at hlast
  have hlength := congrArg String.length hlast.1
  simp only [String.length_append] at hlength
  have hdot : ".".length = 1 := rfl
  omega

end Checks

/-! ### The phases of a call -/

/-- What holds of a call that runs. -/
def CallValid (call : Call) (fs : FileSystem) : Phase → Prop
  | .directories base missing => base ++ missing = call.parent ∧ fs.node base = some .directory
  | .creating _ => fs.node call.parent = some .directory
  | .writing temporary inode written _ => fs.node call.parent = some .directory ∧
    call.IsTemporary temporary ∧ fs.entries.lookup temporary = some (.file inode) ∧
    (∀ path, fs.entries.lookup path = some (.file inode) → path = temporary) ∧
    fs.contents inode = call.content.take written ∧ written ≤ call.content.length
  | .closed temporary _ | .comparing temporary | .abandoning temporary _ | .cleaning temporary _ =>
    fs.node call.parent = some .directory ∧ call.IsTemporary temporary ∧
      fs.node temporary = some (.file call.content)
  | _ => True

/-- What holds of the calls in every reachable state. -/
structure Valid {ι : Type} (calls : Calls ι) (state : State ι) : Prop where
  sound : state.fs.Sound
  rooted : state.fs.node [] = some .directory
  tree : state.fs.Tree
  call : ∀ index, CallValid (calls.call index) state.fs (state.phases index)
  distinct : ∀ first second path, (state.phases first).temporary = some path →
    (state.phases second).temporary = some path → first = second

/-- A temporary file of a call that runs is a file. -/
theorem CallValid.temporary {call : Call} {fs : FileSystem} {phase : Phase}
    (hvalid : CallValid call fs phase) {path : Path} (htemporary : phase.temporary = some path) :
    call.IsTemporary path ∧ ∃ content, fs.node path = some (.file content) := by
  cases phase with
  | writing temporary inode written created =>
    cases htemporary
    exact ⟨hvalid.2.1, _, node_of_lookup_file hvalid.2.2.1⟩
  | closed | comparing | abandoning | cleaning =>
    cases htemporary
    exact ⟨hvalid.2.1, _, hvalid.2.2⟩
  | _ => cases htemporary

/-! ### What a step changes -/

section Frame

variable {sha256 : Bytes → String} {call : Call} {fs next : FileSystem} {phase phase' : Phase}

/-- What a step leaves alone. -/
structure Frame (call : Call) (fs : FileSystem) (phase : Phase) (next : FileSystem) : Prop where
  /-- No directory is removed. -/
  directories : ∀ path, fs.node path = some .directory → next.node path = some .directory
  /-- A path that is in use keeps its entry, unless it is the temporary file of the call or the
  target of a replacement. -/
  kept : ∀ path, fs.node path ≠ none → phase.temporary ≠ some path →
    (call.operation = .replace → path ≠ call.target) →
    next.entries.lookup path = fs.entries.lookup path ∧ next.node path = fs.node path
  /-- An inode that was in use is named by a path that named it, or by one for the temporary file. -/
  names : ∀ path inode, next.entries.lookup path = some (.file inode) → inode < fs.inodes →
    ∃ source, fs.entries.lookup source = some (.file inode) ∧
      (source = path ∨ phase.temporary = some source)

theorem Frame.refl : Frame call fs phase fs :=
  ⟨fun _ ↦ id, fun _ _ _ _ ↦ ⟨rfl, rfl⟩, fun path _ hpath _ ↦ ⟨path, hpath, Or.inl rfl⟩⟩

theorem Frame.of_step (hsound : fs.Sound) (hvalid : CallValid call fs phase)
    (hstep : CallStep sha256 call fs phase next phase') : Frame call fs phase next := by
  cases hstep with
  | refuse | check | directoryExists | directoryRefused | targetChecked | targetRefused | close
  | linkExists | renameRefused | same | different | finish => exact Frame.refl
  | @makeDirectory base missing name hparent habsent =>
    refine ⟨fun path hpath ↦ ?_, fun path hpath _ _ ↦ ?_, fun path inode hpath _ ↦ ?_⟩
    · rw [node_makeDirectory, hpath, ite_self]
    · have hne : path ≠ base ++ [name] := fun heq ↦ hpath (heq ▸ habsent)
      rw [lookup_makeDirectory, node_makeDirectory, if_neg hne, if_neg hne]
      exact ⟨rfl, rfl⟩
    · rw [lookup_makeDirectory] at hpath
      split_ifs at hpath
      · cases hpath
      · exact ⟨path, hpath, Or.inl rfl⟩
  | @create temporary created hparent hname habsent =>
    have hne {path : Path} (hpath : fs.node path ≠ none) : path ≠ temporary :=
      fun heq ↦ hpath (heq ▸ habsent)
    refine ⟨fun path hpath ↦ ?_, fun path hpath _ _ ↦ ?_, fun path inode hpath hlt ↦ ?_⟩
    · rw [node_create hsound, if_neg (hne (by rw [hpath]; exact Option.some_ne_none _)), hpath]
    · rw [lookup_create, node_create hsound, if_neg (hne hpath), if_neg (hne hpath)]
      exact ⟨rfl, rfl⟩
    · rw [lookup_create] at hpath
      split_ifs at hpath
      · cases hpath
        exact absurd hlt (lt_irrefl _)
      · exact ⟨path, hpath, Or.inl rfl⟩
  | @write temporary inode written count created hcount hleft =>
    refine ⟨fun path hpath ↦ ?_, fun path _ hne _ ↦ ⟨rfl, ?_⟩,
      fun path inode hpath _ ↦ ⟨path, hpath, Or.inl rfl⟩⟩
    · rw [node_write, if_neg, hpath]
      intro hentry
      rw [node_of_lookup_file hentry] at hpath
      cases hpath
    · rw [node_write, if_neg]
      intro hentry
      exact hne (congrArg some (hvalid.2.2.2.1 path hentry).symm)
  | @link temporary created hoperation hsource habsent =>
    obtain ⟨inode, hentry, -⟩ := node_eq_file.mp hvalid.2.2
    have hne {path : Path} (hpath : fs.node path ≠ none) : path ≠ call.target :=
      fun heq ↦ hpath (heq ▸ habsent)
    refine ⟨fun path hpath ↦ ?_, fun path hpath _ _ ↦ ?_, fun path other hpath hlt ↦ ?_⟩
    · rw [node_link hvalid.2.2, if_neg (hne (by rw [hpath]; exact Option.some_ne_none _)), hpath]
    · rw [lookup_link hentry, node_link hvalid.2.2, if_neg (hne hpath), if_neg (hne hpath)]
      exact ⟨rfl, rfl⟩
    · rw [lookup_link hentry] at hpath
      split_ifs at hpath
      · exact ⟨temporary, hentry.trans hpath, Or.inr rfl⟩
      · exact ⟨path, hpath, Or.inl rfl⟩
  | @rename temporary created hoperation hsource htarget =>
    obtain ⟨inode, hentry, -⟩ := node_eq_file.mp hvalid.2.2
    have hne : temporary ≠ call.target := ne_target_of_isTemporary hvalid.2.1
    refine ⟨fun path hpath ↦ ?_, fun path hpath hother hreplaced ↦ ?_,
      fun path other hpath hlt ↦ ?_⟩
    · rw [node_rename hvalid.2.2 hne, if_neg, if_neg, hpath]
      · rintro rfl
        rw [hvalid.2.2] at hpath
        cases hpath
      · rintro rfl
        exact htarget hpath
    · have hsource : path ≠ temporary := fun heq ↦ hother (congrArg some heq.symm)
      rw [lookup_rename hentry, node_rename hvalid.2.2 hne, if_neg hsource,
        if_neg (hreplaced hoperation), if_neg (hreplaced hoperation), if_neg hsource]
      exact ⟨rfl, rfl⟩
    · rw [lookup_rename hentry] at hpath
      split_ifs at hpath
      · exact ⟨temporary, hentry.trans hpath, Or.inr rfl⟩
      · exact ⟨path, hpath, Or.inl rfl⟩
  | @abandon temporary error | @clean temporary created =>
    refine ⟨fun path hpath ↦ ?_, fun path hpath hother _ ↦ ?_,
      fun path other hpath _ ↦ ⟨path, lookup_of_lookup_unlink hpath, Or.inl rfl⟩⟩
    · rw [node_unlink, if_neg, hpath]
      rintro rfl
      rw [hvalid.2.2] at hpath
      cases hpath
    · have hsource : path ≠ temporary := fun heq ↦ hother (congrArg some heq.symm)
      rw [lookup_unlink, node_unlink, if_neg hsource, if_neg hsource]
      exact ⟨rfl, rfl⟩

/-- Another call that runs is left as it is. -/
theorem CallValid.frame {other : Call} {held : Phase} (hsound : fs.Sound)
    (hframe : Frame call fs phase next) (hheld : CallValid other fs held)
    (hdistinct : ∀ path, held.temporary = some path → phase.temporary ≠ some path)
    (hordinary : call.operation = .replace → ¬ other.IsTemporary call.target) :
    CallValid other next held := by
  have hkept {path : Path} (hpath : held.temporary = some path) :
      next.entries.lookup path = fs.entries.lookup path ∧ next.node path = fs.node path := by
    obtain ⟨htemporary, content, hnode⟩ := hheld.temporary hpath
    refine hframe.kept path (by rw [hnode]; exact Option.some_ne_none _) (hdistinct path hpath) ?_
    rintro hreplace rfl
    exact hordinary hreplace htemporary
  cases held with
  | directories base missing => exact ⟨hheld.1, hframe.directories _ hheld.2⟩
  | creating created => exact hframe.directories _ hheld
  | writing temporary inode written created =>
    obtain ⟨hparent, hname, hentry, hnames, hcontents, hwritten⟩ := hheld
    obtain ⟨hlookup, hnode⟩ := hkept rfl
    refine ⟨hframe.directories _ hparent, hname, hlookup.trans hentry, fun path hpath ↦ ?_, ?_,
      hwritten⟩
    · obtain ⟨source, hsource, rfl | hown⟩ := hframe.names path inode hpath (hsound _ _ hentry)
      · exact hnames source hsource
      · rw [hnames source hsource] at hown
        exact absurd hown (hdistinct temporary rfl)
    · rw [node_of_lookup_file (hlookup.trans hentry), node_of_lookup_file hentry,
        Option.some.injEq, Node.file.injEq] at hnode
      exact hnode.trans hcontents
  | closed | comparing | abandoning | cleaning =>
    exact ⟨hframe.directories _ hheld.1, hheld.2.1, (hkept rfl).2.trans hheld.2.2⟩
  | checking | finishing | returned | raised => trivial

/-- A step keeps what holds of its own call. -/
theorem CallValid.step (hsound : fs.Sound) (hvalid : CallValid call fs phase)
    (hstep : CallStep sha256 call fs phase next phase') : CallValid call next phase' := by
  have hdirectory := (Frame.of_step hsound hvalid hstep).directories
  cases hstep with
  | check hcheck => exact of_checkDirectories hcheck
  | refuse | directoryRefused | targetRefused | rename | renameRefused | abandon | clean => trivial
  | finish =>
    rename_i outcome
    cases outcome <;> trivial
  | @makeDirectory base missing name hparent habsent =>
    refine ⟨?_, ?_⟩
    · rw [← hvalid.1, List.append_assoc, List.singleton_append]
    · rw [node_makeDirectory, if_pos rfl]
  | directoryExists hnode =>
    refine ⟨?_, hnode⟩
    rw [← hvalid.1, List.append_assoc, List.singleton_append]
  | targetChecked =>
    rw [CallValid, List.append_nil] at hvalid
    rw [CallValid, ← hvalid.1]
    exact hvalid.2
  | @create temporary created hparent hname habsent =>
    refine ⟨hdirectory _ hparent, hname, ?_, fun path hpath ↦ ?_, ?_, Nat.zero_le _⟩
    · rw [lookup_create, if_pos rfl]
    · rw [lookup_create] at hpath
      split_ifs at hpath with heq
      · exact heq
      · exact absurd (hsound path _ hpath) (lt_irrefl _)
    · rw [List.take_zero]
      exact Function.update_self _ _ _
  | @write temporary inode written count created hcount hleft =>
    obtain ⟨hparent, hname, hentry, hnames, hcontents, hwritten⟩ := hvalid
    refine ⟨hdirectory _ hparent, hname, hentry, hnames, ?_, hleft⟩
    rw [List.take_add, ← hcontents]
    exact Function.update_self _ _ _
  | @close temporary inode written created hall =>
    obtain ⟨hparent, hname, hentry, hnames, hcontents, hwritten⟩ := hvalid
    refine ⟨hparent, hname, ?_⟩
    rw [node_of_lookup_file hentry, hcontents, List.take_of_length_le (not_lt.mp hall)]
  | @link temporary created hoperation hsource habsent =>
    refine ⟨hdirectory _ hvalid.1, hvalid.2.1, ?_⟩
    rw [node_link hvalid.2.2, if_neg (ne_target_of_isTemporary hvalid.2.1)]
    exact hvalid.2.2
  | linkExists | same | different => exact hvalid

theorem sound_of_step (hsound : fs.Sound) (hstep : CallStep sha256 call fs phase next phase') :
    next.Sound := by
  cases hstep with
  | makeDirectory => exact hsound.makeDirectory _
  | create => exact hsound.create _
  | write => exact hsound.write _ _
  | link => exact hsound.link _ _
  | rename => exact hsound.rename _ _
  | abandon | clean => exact hsound.unlink _
  | _ => exact hsound

/-- What a step finds at a path afterwards: what was there, or the change that the call made. -/
theorem node_of_step (hsound : fs.Sound) (hvalid : CallValid call fs phase)
    (hstep : CallStep sha256 call fs phase next phase') (path : Path) :
    next.node path = fs.node path ∨
    phase.temporary = some path ∨
    (fs.node path = none ∧ phase'.temporary = some path ∧ call.IsTemporary path ∧
      fs.node call.parent = some .directory) ∨
    (fs.node path = none ∧ next.node path = some .directory ∧ path <+: call.parent ∧
      ∃ parent name, path = parent ++ [name] ∧ fs.node parent = some .directory) ∨
    (path = call.target ∧ next.node path = some (.file call.content) ∧
      fs.node call.parent = some .directory ∧ (fs.node path = none ∨ call.operation = .replace)) := by
  cases hstep with
  | @makeDirectory base missing name hparent habsent =>
    by_cases hpath : path = base ++ [name]
    · subst hpath
      refine Or.inr (Or.inr (Or.inr (Or.inl ⟨habsent, ?_, ?_, base, name, rfl, hparent⟩)))
      · rw [node_makeDirectory, if_pos rfl]
      · rw [← hvalid.1, List.prefix_append_right_inj]
        exact ⟨missing, rfl⟩
    · rw [node_makeDirectory, if_neg hpath]
      exact Or.inl rfl
  | @create temporary created hparent hname habsent =>
    by_cases hpath : path = temporary
    · subst hpath
      exact Or.inr (Or.inr (Or.inl ⟨habsent, rfl, hname, hparent⟩))
    · rw [node_create hsound, if_neg hpath]
      exact Or.inl rfl
  | @write temporary inode written count created hcount hleft =>
    by_cases hpath : path = temporary
    · exact Or.inr (Or.inl (congrArg some hpath.symm))
    · rw [node_write, if_neg (hpath ∘ hvalid.2.2.2.1 path)]
      exact Or.inl rfl
  | @link temporary created hoperation hsource habsent =>
    by_cases hpath : path = call.target
    · subst hpath
      rw [node_link hvalid.2.2, if_pos rfl]
      exact Or.inr (Or.inr (Or.inr (Or.inr ⟨rfl, rfl, hvalid.1, Or.inl habsent⟩)))
    · rw [node_link hvalid.2.2, if_neg hpath]
      exact Or.inl rfl
  | @rename temporary created hoperation hsource htarget =>
    rw [node_rename hvalid.2.2 (ne_target_of_isTemporary hvalid.2.1)]
    by_cases hpath : path = call.target
    · subst hpath
      rw [if_pos rfl]
      exact Or.inr (Or.inr (Or.inr (Or.inr ⟨rfl, rfl, hvalid.1, Or.inr hoperation⟩)))
    · by_cases htemporary : path = temporary
      · exact Or.inr (Or.inl (congrArg some htemporary.symm))
      · rw [if_neg hpath, if_neg htemporary]
        exact Or.inl rfl
  | @abandon temporary error | @clean temporary created =>
    by_cases hpath : path = temporary
    · exact Or.inr (Or.inl (congrArg some hpath.symm))
    · rw [node_unlink, if_neg hpath]
      exact Or.inl rfl
  | _ => exact Or.inl rfl

theorem tree_of_step (hsound : fs.Sound) (htree : fs.Tree) (hvalid : CallValid call fs phase)
    (hstep : CallStep sha256 call fs phase next phase') : next.Tree := by
  refine htree.of_nodes (Frame.of_step hsound hvalid hstep).directories fun parent name hpath ↦ ?_
  by_contra hnone
  rw [not_or, not_not] at hnone
  obtain ⟨habsent, hdirectory⟩ := hnone
  rcases node_of_step hsound hvalid hstep (parent ++ [name]) with hsame | htemporary |
    ⟨-, -, ⟨suffix, -, hname⟩, hparent⟩ | ⟨-, -, -, _, _, hname, hparent⟩ | ⟨hname, -, hparent, -⟩
  · exact hpath (hsame.trans habsent)
  · obtain ⟨-, content, hnode⟩ := hvalid.temporary htemporary
    rw [habsent] at hnode
    cases hnode
  all_goals
    rw [(List.append_inj' hname rfl).1] at hdirectory
    exact hdirectory hparent

/-- A temporary file of a call was one before, or the step created it. -/
theorem temporary_of_step (hstep : CallStep sha256 call fs phase next phase') {path : Path}
    (htemporary : phase'.temporary = some path) :
    phase.temporary = some path ∨ fs.node path = none := by
  cases hstep with
  | create _ _ habsent =>
    cases htemporary
    exact Or.inr habsent
  | refuse | check | makeDirectory | directoryExists | directoryRefused | targetChecked
  | targetRefused | rename | renameRefused | abandon | clean => cases htemporary
  | finish =>
    rename_i outcome
    cases outcome <;> cases htemporary
  | write | close | link | linkExists | same | different => exact Or.inl htemporary

end Frame

/-! ### Several calls -/

section System

variable {ι : Type} {sha256 : Bytes → String} {calls : Calls ι} {state next : State ι}
  {event : Event ι}

theorem Valid.initial (fs : FileTree) : Valid calls (State.initial fs) :=
  ⟨fs.sound, fs.rooted, fs.tree, fun _ ↦ trivial, nofun⟩

variable [DecidableEq ι]

/-- A step is one of a call, or its interruption, and leaves the phases of the other calls alone. -/
theorem call_of_step (hstep : Step sha256 calls state event next) :
    ∃ index, (∀ other ≠ index, next.phases other = state.phases other) ∧
      ((event = .act index ∧ CallStep sha256 (calls.call index) state.fs (state.phases index) next.fs
        (next.phases index)) ∨
      (event = .interrupt index ∧ next.fs = state.fs ∧ (state.phases index).ended = false ∧
        next.phases index = .raised .system)) := by
  cases hstep with
  | @act index fs phase hstep =>
    refine ⟨index, fun other hother ↦ Function.update_of_ne hother _ _, Or.inl ⟨rfl, ?_⟩⟩
    simpa only [Function.update_self] using hstep
  | @interrupt index hrunning =>
    exact ⟨index, fun other hother ↦ Function.update_of_ne hother _ _,
      Or.inr ⟨rfl, rfl, hrunning, Function.update_self _ _ _⟩⟩

/-- A temporary file was one of the same call before, or was not there. -/
theorem temporary_of_system_step (hstep : Step sha256 calls state event next) {index : ι}
    {path : Path} (htemporary : (next.phases index).temporary = some path) :
    (state.phases index).temporary = some path ∨ state.fs.node path = none := by
  obtain ⟨actor, hothers, ⟨-, hact⟩ | ⟨-, -, -, hraised⟩⟩ := call_of_step hstep
  · by_cases hindex : index = actor
    · subst hindex
      exact temporary_of_step hact htemporary
    · rw [hothers index hindex] at htemporary
      exact Or.inl htemporary
  · by_cases hindex : index = actor
    · rw [hindex, hraised] at htemporary
      cases htemporary
    · rw [hothers index hindex] at htemporary
      exact Or.inl htemporary

theorem Valid.step (hvalid : Valid calls state) (hstep : Step sha256 calls state event next) :
    Valid calls next := by
  have hdistinct : ∀ first second path, (next.phases first).temporary = some path →
      (next.phases second).temporary = some path → first = second := by
    intro first second path hfirst hsecond
    have hpresent {index : ι} (hheld : (state.phases index).temporary = some path) :
        state.fs.node path ≠ none := by
      obtain ⟨-, content, hnode⟩ := (hvalid.call index).temporary hheld
      rw [hnode]
      exact Option.some_ne_none _
    obtain ⟨actor, hothers, -⟩ := call_of_step hstep
    by_cases hfirstActor : first = actor <;> by_cases hsecondActor : second = actor
    · exact hfirstActor.trans hsecondActor.symm
    · rw [hothers second hsecondActor] at hsecond
      exact hvalid.distinct first second path
        ((temporary_of_system_step hstep hfirst).resolve_right (hpresent hsecond)) hsecond
    · rw [hothers first hfirstActor] at hfirst
      exact hvalid.distinct first second path hfirst
        ((temporary_of_system_step hstep hsecond).resolve_right (hpresent hfirst))
    · rw [hothers first hfirstActor] at hfirst
      rw [hothers second hsecondActor] at hsecond
      exact hvalid.distinct first second path hfirst hsecond
  obtain ⟨index, hothers, ⟨-, hact⟩ | ⟨-, hfs, -, hraised⟩⟩ := call_of_step hstep
  · have hcall := hvalid.call index
    have hframe := Frame.of_step hvalid.sound hcall hact
    refine ⟨sound_of_step hvalid.sound hact, hframe.directories _ hvalid.rooted,
      tree_of_step hvalid.sound hvalid.tree hcall hact, fun other ↦ ?_, hdistinct⟩
    by_cases hother : other = index
    · rw [hother]
      exact hcall.step hvalid.sound hact
    · rw [hothers other hother]
      refine (hvalid.call other).frame hvalid.sound hframe (fun path hpath hown ↦ ?_)
        (fun hreplace ↦ calls.ordinary index other hreplace)
      exact hother (hvalid.distinct other index path hpath hown)
  · refine ⟨hfs ▸ hvalid.sound, hfs ▸ hvalid.rooted, hfs ▸ hvalid.tree, fun other ↦ ?_, hdistinct⟩
    by_cases hother : other = index
    · rw [hother, hraised]
      trivial
    · rw [hothers other hother, hfs]
      exact hvalid.call other

/-! ### What a run finds at a path -/

/-- What a run of calls may find at a path where there was something else before: the content of a
call with that target, which was absent or is replaced, or, where there was nothing, a directory on
the way to a target or a temporary file. -/
def Reached (calls : Calls ι) (path : Path) (old new : Option Node) : Prop :=
  new = old ∨
    (∃ index, (calls.call index).target = path ∧ new = some (.file (calls.call index).content) ∧
      (old = none ∨ (calls.call index).operation = .replace)) ∨
    (old = none ∧ new = some .directory ∧ ∃ index, path <+: (calls.call index).parent) ∨
    (old = none ∧ ∃ index, (calls.call index).IsTemporary path)

/-- The path is in use by a call that runs. -/
def InUse (state : State ι) (path : Path) : Prop :=
  ∃ index, (state.phases index).temporary = some path

omit [DecidableEq ι] in
theorem Reached.none_of_none {path : Path} {old : Option Node}
    (hreached : Reached calls path old none) : old = none := by
  rcases hreached with hsame | ⟨_, _, hnew, _⟩ | ⟨hold, -⟩ | ⟨hold, -⟩
  · exact hsame.symm
  · cases hnew
  · exact hold
  · exact hold

/-- A path is as a run may find it, and it is in use only if there was nothing before. -/
def Tracked (calls : Calls ι) (path : Path) (old : Option Node) (state : State ι) : Prop :=
  Reached calls path old (state.fs.node path) ∧ (InUse state path → old = none)

theorem Tracked.step {path : Path} {old : Option Node} (hvalid : Valid calls state)
    (htracked : Tracked calls path old state) (hstep : Step sha256 calls state event next) :
    Tracked calls path old next := by
  obtain ⟨hreached, hfree⟩ := htracked
  have hnone (habsent : state.fs.node path = none) : old = none := by
    rw [habsent] at hreached
    exact hreached.none_of_none
  refine ⟨?_, ?_⟩
  · obtain ⟨index, -, ⟨-, hact⟩ | ⟨-, hfs, -, -⟩⟩ := call_of_step hstep
    · rcases node_of_step hvalid.sound (hvalid.call index) hact path with hsame | htemporary |
        ⟨habsent, -, hname, -⟩ | ⟨habsent, hnode, hleading, -⟩ | ⟨htarget, hnode, -, hwhen⟩
      · exact hsame ▸ hreached
      · exact Or.inr (Or.inr (Or.inr ⟨hfree ⟨index, htemporary⟩, index,
          ((hvalid.call index).temporary htemporary).1⟩))
      · exact Or.inr (Or.inr (Or.inr ⟨hnone habsent, index, hname⟩))
      · exact Or.inr (Or.inr (Or.inl ⟨hnone habsent, hnode, index, hleading⟩))
      · exact Or.inr (Or.inl ⟨index, htarget.symm, hnode, hwhen.imp_left hnone⟩)
    · exact hfs ▸ hreached
  · rintro ⟨index, hindex⟩
    rcases temporary_of_system_step hstep hindex with hbefore | habsent
    · exact hfree ⟨index, hbefore⟩
    · exact hnone habsent

/-! ### A call whose target exists -/

/-- Every directory on the way to a path in use is one. -/
theorem checkDirectories_of_present {fs : FileSystem} {call : Call} (htree : fs.Tree)
    (htarget : fs.node call.target ≠ none) :
    checkDirectories fs call = .ok (call.parent, []) ∧
      ∀ base name rest, base ++ name :: rest = call.parent →
        fs.node (base ++ [name]) = some .directory := by
  have hleading : ∀ base rest, base ++ rest = call.parent → fs.node base = some .directory := by
    intro base rest hparent
    have hrest : rest ++ [call.name] ≠ [] := by simp
    refine htree.directory hrest ?_
    rwa [← List.append_assoc, hparent]
  refine ⟨?_, fun base name rest hparent ↦ hleading (base ++ [name]) rest (by simpa using hparent)⟩
  have hlexical : requireLexicalContainment fs call = .ok () := by
    rw [requireLexicalContainment, List.find?_eq_none.mpr]
    intro path hmem
    obtain ⟨below, hbelow, rfl⟩ := List.mem_map.mp hmem
    obtain ⟨rest, hrest⟩ := (List.mem_inits _ _).mp hbelow
    have hdirectory := hleading (call.root ++ below) rest (by
      rw [List.append_assoc, hrest, Call.parent])
    simp [hdirectory]
  have hparent := hleading call.parent [] (List.append_nil _)
  have hancestor : existingAncestor fs call.parent = (call.parent, []) :=
    existingAncestor_of_present (by rw [hparent]; exact Option.some_ne_none _)
  simp only [checkDirectories, hlexical, hancestor, hparent]
  rfl

/-- What a write whose target has a content comes to. -/
def rerunOutcome (call : Call) (content : Bytes) : Except AtomicError Bool :=
  if content = call.content then .ok false
  else .error (.collision s!"{text call.target} already exists with different bytes")

/-- How far a write whose target has a content got. -/
def Rerun (sha256 : Bytes → String) (call : Call) (content : Bytes) : Phase → Prop
  | .abandoning _ error => rerunOutcome call content = .error error
  | .cleaning _ created => rerunOutcome call content = .ok created
  | .finishing outcome => rerunOutcome call content = outcome
  | .returned result => .returned result = conclude sha256 call (rerunOutcome call content)
  | .raised error => .raised error = conclude sha256 call (rerunOutcome call content)
  | _ => True

theorem compareTarget_eq {fs : FileSystem} {call : Call} {content : Bytes}
    (hsha256 : Function.Injective sha256) (hnode : fs.node call.target = some (.file content)) :
    compareTarget sha256 fs call = (rerunOutcome call content).map fun _ ↦ () := by
  simp only [compareTarget, hnode, rerunOutcome]
  by_cases hcontent : content = call.content
  · simp [hcontent, Except.map]
  · simp [hcontent, hsha256.eq_iff, Except.map]

theorem Rerun.step {call : Call} {fs next : FileSystem} {phase phase' : Phase} {content : Bytes}
    (hsha256 : Function.Injective sha256) (hoperation : call.operation = .write)
    (htree : fs.Tree) (hnode : fs.node call.target = some (.file content))
    (hvalid : CallValid call fs phase) (hrerun : Rerun sha256 call content phase)
    (hstep : CallStep sha256 call fs phase next phase') : Rerun sha256 call content phase' := by
  have hpresent : fs.node call.target ≠ none := by
    rw [hnode]
    exact Option.some_ne_none _
  obtain ⟨hchecked, hdirectories⟩ := checkDirectories_of_present htree hpresent
  cases hstep with
  | refuse hcheck =>
    rw [hchecked] at hcheck
    cases hcheck
  | directoryRefused hother hdirectory =>
    rw [hdirectories _ _ _ hvalid.1, Option.some.injEq] at hother
    exact absurd hother.symm hdirectory
  | targetRefused hcheck =>
    rw [checkTarget, hoperation] at hcheck
    cases hcheck
  | link _ _ habsent => exact absurd habsent hpresent
  | rename hreplace | renameRefused hreplace =>
    rw [hoperation] at hreplace
    cases hreplace
  | same hcompare =>
    rw [compareTarget_eq hsha256 hnode] at hcompare
    rw [Rerun]
    unfold rerunOutcome at *
    split_ifs at *
    · rfl
    · cases hcompare
  | different hcompare =>
    rw [compareTarget_eq hsha256 hnode] at hcompare
    rw [Rerun]
    unfold rerunOutcome at *
    split_ifs at *
    · cases hcompare
    · cases hcompare
      rfl
  | abandon | clean => exact hrerun
  | finish =>
    rename_i outcome
    have hconclude := congrArg (conclude sha256 call) hrerun
    cases outcome <;> exact hconclude.symm
  | check | makeDirectory | directoryExists | targetChecked | create | write | close | linkExists =>
    trivial

/-! ### The number of steps -/

/-- A bound of the number of steps that a call has left. -/
def rank (call : Call) : Phase → ℕ
  | .checking => call.parent.length + call.content.length + 8
  | .directories _ missing => missing.length + call.content.length + 7
  | .creating _ => call.content.length + 6
  | .writing _ _ written _ => call.content.length - written + 5
  | .closed _ _ => 4
  | .comparing _ => 3
  | .abandoning _ _ | .cleaning _ _ => 2
  | .finishing _ => 1
  | .returned _ | .raised _ => 0

theorem rank_of_step {call : Call} {fs next : FileSystem} {phase phase' : Phase}
    (hstep : CallStep sha256 call fs phase next phase') : rank call phase' < rank call phase := by
  cases hstep with
  | @check base missing hcheck =>
    have hlength := congrArg List.length (of_checkDirectories hcheck).1
    rw [List.length_append] at hlength
    simp only [rank]
    omega
  | finish =>
    rename_i outcome
    cases outcome <;> simp [rank, conclude]
  | refuse | makeDirectory | directoryExists | directoryRefused | targetChecked | targetRefused
  | create | write | close | link | linkExists | rename | renameRefused | same | different | abandon
  | clean =>
    simp only [rank, List.length_cons, List.length_nil]
    omega

/-- There is always a name for a temporary file that is not in use. -/
theorem exists_isTemporary (call : Call) (fs : FileSystem) :
    ∃ path, call.IsTemporary path ∧ fs.node path = none := by
  by_contra hnone
  push Not at hnone
  let name (count : ℕ) : Path :=
    call.parent ++ ["." ++ call.name ++ ".tmp-" ++ String.ofList (List.replicate count 'a')]
  have hinjective : Function.Injective name := by
    intro first second hname
    have hlast := (List.append_inj' hname rfl).2
    rw [List.cons.injEq] at hlast
    have hlength := congrArg String.length hlast.1
    simp only [String.length_append, String.length_ofList, List.length_replicate] at hlength
    omega
  refine Set.infinite_range_of_injective hinjective ((List.finite_toSet fs.paths).subset ?_)
  rintro _ ⟨count, rfl⟩
  refine mem_paths.mpr (hnone _ ⟨_, fun char hchar ↦ ?_, rfl⟩)
  rw [String.toList_ofList] at hchar
  rw [List.eq_of_mem_replicate hchar]
  decide

/-- A call that did not end can take a step. -/
theorem progress_of_valid (sha256 : Bytes → String) {call : Call} {fs : FileSystem} {phase : Phase}
    (hvalid : CallValid call fs phase) (hrunning : phase.ended = false) :
    ∃ next phase', CallStep sha256 call fs phase next phase' := by
  cases phase with
  | checking =>
    cases hcheck : checkDirectories fs call with
    | error error => exact ⟨_, _, .refuse hcheck⟩
    | ok result => exact ⟨_, _, .check hcheck⟩
  | directories base missing =>
    cases missing with
    | nil =>
      cases hcheck : checkTarget fs call with
      | error error => exact ⟨_, _, .targetRefused hcheck⟩
      | ok created => exact ⟨_, _, .targetChecked hcheck⟩
    | cons name missing =>
      cases hnode : fs.node (base ++ [name]) with
      | none => exact ⟨_, _, .makeDirectory hvalid.2 hnode⟩
      | some node =>
        by_cases hdirectory : node = .directory
        · exact ⟨_, _, .directoryExists (hdirectory ▸ hnode)⟩
        · exact ⟨_, _, .directoryRefused hnode hdirectory⟩
  | creating created =>
    obtain ⟨path, hname, habsent⟩ := exists_isTemporary call fs
    exact ⟨_, _, .create hvalid hname habsent⟩
  | writing temporary inode written created =>
    by_cases hall : written < call.content.length
    · exact ⟨_, _, .write Nat.one_pos hall⟩
    · exact ⟨_, _, .close hall⟩
  | closed temporary created =>
    cases hoperation : call.operation with
    | write =>
      by_cases htarget : fs.node call.target = none
      · exact ⟨_, _, .link hoperation (by rw [hvalid.2.2]; exact Option.some_ne_none _) htarget⟩
      · exact ⟨_, _, .linkExists hoperation htarget⟩
    | replace =>
      by_cases htarget : fs.node call.target = some .directory
      · exact ⟨_, _, .renameRefused hoperation htarget⟩
      · exact ⟨_, _, .rename hoperation (by rw [hvalid.2.2]; exact Option.some_ne_none _) htarget⟩
  | comparing temporary =>
    cases hcompare : compareTarget sha256 fs call with
    | error error => exact ⟨_, _, .different hcompare⟩
    | ok value => exact ⟨_, _, .same hcompare⟩
  | abandoning temporary error => exact ⟨_, _, .abandon⟩
  | cleaning temporary created => exact ⟨_, _, .clean⟩
  | finishing outcome => exact ⟨_, _, .finish⟩
  | returned | raised => cases hrunning

/-! ### Every run -/

theorem valid_of_run {start final : State ι} {labels : List (Event ι)} (hstart : Valid calls start)
    (hrun : Run (Step sha256 calls) start labels final) : Valid calls final :=
  hrun.invariant hstart fun _ _ _ hvalid hstep ↦ hvalid.step hstep

/-- No call replaces the path. -/
def CreateOnly (calls : Calls ι) (path : Path) : Prop :=
  ∀ index, (calls.call index).operation = .replace → (calls.call index).target ≠ path

omit [DecidableEq ι] in
theorem Reached.kept {path : Path} {old new : Option Node} (hreached : Reached calls path old new)
    (hpresent : old ≠ none) (hcreateOnly : CreateOnly calls path) : new = old := by
  rcases hreached with hsame | ⟨index, htarget, -, hnone | hreplace⟩ | ⟨hnone, -⟩ | ⟨hnone, -⟩
  · exact hsame
  · exact absurd hnone hpresent
  · exact absurd htarget (hcreateOnly index hreplace)
  · exact absurd hnone hpresent
  · exact absurd hnone hpresent

omit [DecidableEq ι] in
theorem Reached.target {index : ι} {old new : Option Node}
    (hreached : Reached calls (calls.call index).target old new) :
    new = old ∨
    (∃ other, (calls.call other).target = (calls.call index).target ∧
      new = some (.file (calls.call other).content) ∧
      (old = none ∨ (calls.call other).operation = .replace)) ∨
    (old = none ∧ ∃ other ≠ index, (calls.call index).target <+: (calls.call other).parent ∨
      (calls.call other).IsTemporary (calls.call index).target) := by
  rcases hreached with hsame | hpublished | ⟨hnone, -, other, hleading⟩ | ⟨hnone, other, hname⟩
  · exact Or.inl hsame
  · exact Or.inr (Or.inl hpublished)
  · refine Or.inr (Or.inr ⟨hnone, other, ?_, Or.inl hleading⟩)
    rintro rfl
    have hlength := hleading.length_le
    rw [Call.target, List.length_append, List.length_singleton] at hlength
    omega
  · refine Or.inr (Or.inr ⟨hnone, other, ?_, Or.inr hname⟩)
    rintro rfl
    exact ne_target_of_isTemporary hname rfl

end System

/-! ### A first publication -/

end Oamb.Artifacts.AtomicGuarantees
