import Oamb.Foundation.FileSystem

/-!
# Operations on trees of files

The operations of a process on a tree of files, each with the answer of the system and the tree that
it leaves. They check what the system checks, so that they lead from trees to trees. A directory is
moved with everything below it (`node_moveTree`), and removed with everything below it
(`node_removeTree`).
-/

set_option autoImplicit false

namespace Oamb.Foundation

/-! ### Selected entries -/

section Selection

variable {κ ν : Type} [DecidableEq κ]

/-- The entries of a dictionary under other keys, or without them. -/
def Dictionary.rekey (change : κ → Option κ) (dictionary : Dictionary κ ν) : Dictionary κ ν :=
  (dictionary.entries.filterMap fun entry ↦
    (change entry.1).map fun key ↦ (⟨key, entry.2⟩ : Sigma fun _ : κ ↦ ν)).toAList

theorem Dictionary.lookup_rekey_aux {change : κ → Option κ} {key : κ} {source : Option κ}
    (hsource : ∀ other, change other = some key ↔ some other = source)
    (entries : List (Sigma fun _ : κ ↦ ν)) :
    (entries.filterMap fun entry ↦
      (change entry.1).map fun key ↦ (⟨key, entry.2⟩ : Sigma fun _ : κ ↦ ν)).dlookup key =
      source.bind fun source ↦ entries.dlookup source := by
  induction entries with
  | nil => cases source <;> rfl
  | cons entry entries ih =>
    obtain ⟨other, value⟩ := entry
    by_cases hsame : change other = some key
    · have hother := (hsource other).mp hsame
      subst hother
      rw [List.filterMap_cons_some (b := ⟨key, value⟩) (by rw [hsame]; rfl), List.dlookup_cons_eq,
        Option.bind_some, List.dlookup_cons_eq]
    · have hskip : source.bind (fun source ↦ List.dlookup source (⟨other, value⟩ :: entries)) =
          source.bind fun source ↦ entries.dlookup source := by
        cases source with
        | none => rfl
        | some source =>
          have hne : source ≠ other := by
            rintro rfl
            exact hsame ((hsource source).mpr rfl)
          exact List.dlookup_cons_ne entries ⟨other, value⟩ hne
      rw [hskip, ← ih]
      cases hchange : change other with
      | none => rw [List.filterMap_cons_none (by rw [hchange]; rfl)]
      | some moved =>
        rw [List.filterMap_cons_some (b := ⟨moved, value⟩) (by rw [hchange]; rfl)]
        refine List.dlookup_cons_ne _ _ ?_
        rintro rfl
        exact hsame hchange

/-- The value of a key is that of the key that it comes from. -/
theorem Dictionary.lookup_rekey (source : Option κ) {change : κ → Option κ} {key : κ}
    (hsource : ∀ other, change other = some key ↔ some other = source)
    (dictionary : Dictionary κ ν) :
    (dictionary.rekey change).lookup key = source.bind fun source ↦ dictionary.lookup source := by
  rw [rekey, AList.lookup_to_alist]
  exact lookup_rekey_aux hsource dictionary.entries

end Selection

namespace FileSystem

variable {fs : FileSystem} {path source target : Path}

/-! ### Directories with everything below them -/

/-- The path that an entry has after a directory was moved. -/
def movedPath (source target path : Path) : Option Path :=
  if source <+: path then some (target ++ path.drop source.length)
  else if target <+: path then none
  else some path

/-- Move a directory, over one that may be there. -/
def moveTree (fs : FileSystem) (source target : Path) : FileSystem :=
  { fs with entries := fs.entries.rekey (movedPath source target) }

/-- Remove what is at a path and below it. -/
def removeTree (fs : FileSystem) (path : Path) : FileSystem :=
  { fs with entries := fs.entries.rekey fun other ↦ if path <+: other then none else some other }

theorem lookup_moveTree (source target path : Path) :
    (fs.moveTree source target).entries.lookup path =
      if target <+: path then fs.entries.lookup (source ++ path.drop target.length)
      else if source <+: path then none
      else fs.entries.lookup path := by
  have hdrop : ∀ first rest : Path, (first ++ rest).drop first.length = rest := fun first rest ↦
    List.drop_left
  by_cases htarget : target <+: path
  · obtain ⟨rest, rfl⟩ := htarget
    rw [if_pos (List.prefix_append _ _), hdrop]
    refine Dictionary.lookup_rekey (some (source ++ rest)) (fun other ↦ ?_) _
    rw [movedPath, Option.some_inj]
    constructor
    · intro hmoved
      split_ifs at hmoved with hbelow habove
      · obtain ⟨inner, rfl⟩ := hbelow
        rw [Option.some_inj, hdrop, List.append_cancel_left_eq] at hmoved
        rw [hmoved]
      · rw [Option.some_inj] at hmoved
        exact absurd ⟨rest, hmoved.symm⟩ habove
    · rintro rfl
      rw [if_pos (List.prefix_append _ _), hdrop]
  · rw [if_neg htarget]
    by_cases hsource : source <+: path
    · rw [if_pos hsource]
      refine Dictionary.lookup_rekey none (fun other ↦ ?_) _
      refine iff_of_false (fun hmoved ↦ ?_) (Option.some_ne_none _)
      rw [movedPath] at hmoved
      split_ifs at hmoved with hbelow habove
      · rw [Option.some_inj] at hmoved
        exact htarget ⟨_, hmoved⟩
      · rw [Option.some_inj] at hmoved
        exact hbelow (hmoved ▸ hsource)
    · rw [if_neg hsource]
      refine Dictionary.lookup_rekey (some path) (fun other ↦ ?_) _
      rw [movedPath, Option.some_inj]
      constructor
      · intro hmoved
        split_ifs at hmoved with hbelow habove
        · rw [Option.some_inj] at hmoved
          exact absurd ⟨_, hmoved⟩ htarget
        · exact Option.some.inj hmoved
      · rintro rfl
        rw [if_neg hsource, if_neg htarget]

theorem lookup_removeTree (path other : Path) : (fs.removeTree path).entries.lookup other =
    if path <+: other then none else fs.entries.lookup other := by
  by_cases hbelow : path <+: other
  · rw [if_pos hbelow]
    refine Dictionary.lookup_rekey none (fun entry ↦ ?_) _
    refine iff_of_false (fun hkept ↦ ?_) (Option.some_ne_none _)
    split_ifs at hkept with hremoved
    rw [Option.some_inj] at hkept
    exact hremoved (hkept ▸ hbelow)
  · rw [if_neg hbelow]
    refine Dictionary.lookup_rekey (some other) (fun entry ↦ ?_) _
    rw [Option.some_inj]
    constructor
    · intro hkept
      split_ifs at hkept
      exact Option.some.inj hkept
    · rintro rfl
      rw [if_neg hbelow]

theorem node_moveTree (source target path : Path) : (fs.moveTree source target).node path =
    if target <+: path then fs.node (source ++ path.drop target.length)
    else if source <+: path then none
    else fs.node path := by
  rw [node, lookup_moveTree]
  split_ifs <;> rfl

theorem node_removeTree (path other : Path) : (fs.removeTree path).node other =
    if path <+: other then none else fs.node other := by
  rw [node, lookup_removeTree]
  split_ifs <;> rfl

/-! ### Sound trees -/

theorem Sound.moveTree (hsound : fs.Sound) (source target : Path) :
    (fs.moveTree source target).Sound := by
  intro path inode hentry
  rw [lookup_moveTree] at hentry
  split_ifs at hentry
  · exact hsound _ inode hentry
  · exact hsound _ inode hentry

theorem Sound.removeTree (hsound : fs.Sound) (path : Path) : (fs.removeTree path).Sound := by
  intro other inode hentry
  rw [lookup_removeTree] at hentry
  split_ifs at hentry
  exact hsound _ inode hentry

theorem Tree.removeTree (htree : fs.Tree) (path : Path) : (fs.removeTree path).Tree := by
  intro parent name hnode
  rw [node_removeTree] at hnode
  split_ifs at hnode with hbelow
  · exact absurd rfl hnode
  · rw [node_removeTree, if_neg fun habove ↦ hbelow (habove.trans (List.prefix_append _ _))]
    exact htree parent name hnode

/-- A directory is moved to a place in a directory that is not below it. -/
theorem Tree.moveTree (htree : fs.Tree) {source target : Path} {name : String}
    (hparent : fs.node target = some .directory) (hbelow : ¬ source <+: target) :
    (fs.moveTree source (target ++ [name])).Tree := by
  intro parent last hnode
  have hlonger : ∀ path : Path, target ++ [name] <+: path ++ [last] →
      path = target ∨ target ++ [name] <+: path := by
    intro path hprefix
    rcases List.prefix_concat_iff.mp hprefix with hsame | hshorter
    · exact Or.inl (List.append_inj_left' hsame rfl).symm
    · exact Or.inr hshorter
  rw [node_moveTree] at hnode ⊢
  by_cases hmoved : target ++ [name] <+: parent
  · obtain ⟨rest, rfl⟩ := hmoved
    rw [if_pos (List.prefix_append _ _), List.drop_left]
    rw [if_pos (by rw [List.append_assoc]; exact List.prefix_append _ _), List.append_assoc,
      List.drop_left, ← List.append_assoc] at hnode
    exact htree (source ++ rest) last hnode
  · rw [if_neg hmoved]
    by_cases htarget : target ++ [name] <+: parent ++ [last]
    · obtain rfl := (hlonger parent htarget).resolve_right hmoved
      rw [if_neg hbelow]
      exact hparent
    · rw [if_neg htarget] at hnode
      split_ifs at hnode with hsource
      · exact absurd rfl hnode
      · rw [if_neg fun habove ↦ hsource (habove.trans (List.prefix_append _ _))]
        exact htree parent last hnode

end FileSystem

namespace FileTree

variable {tree : FileTree} {path source target : Path}

/-! ### Changes that keep a tree -/

theorem ne_nil_of_not_directory (hnode : tree.node path ≠ some .directory) : path ≠ [] := by
  rintro rfl
  exact hnode tree.rooted

/-- Nothing is below a path at which nothing is. -/
theorem node_eq_none_of_prefix (hnone : tree.node path = none) {other : Path}
    (hbelow : path <+: other) : tree.node other = none := by
  obtain ⟨rest, rfl⟩ := hbelow
  by_cases hrest : rest = []
  · rw [hrest, List.append_nil, hnone]
  · by_contra hpresent
    rw [tree.tree.directory hrest hpresent] at hnone
    cases hnone

/-- Everything on the way to a directory is one. -/
theorem directory_of_prefix {parent : Path} (hnode : tree.node path = some .directory)
    (habove : parent <+: path) : tree.node parent = some .directory := by
  obtain ⟨rest, rfl⟩ := habove
  by_cases hrest : rest = []
  · rwa [hrest, List.append_nil] at hnode
  · exact tree.tree.directory hrest (by rw [hnode]; exact Option.some_ne_none _)

theorem eq_dropLast {parent : Path} {name : String} (hpath : parent ++ [name] = path) :
    parent = path.dropLast := by
  rw [← hpath, List.dropLast_concat]

/-- A new directory. -/
def addDirectory (tree : FileTree) (path : Path)
    (hparent : tree.node path.dropLast = some .directory) : FileTree where
  toFileSystem := tree.makeDirectory path
  sound := tree.sound.makeDirectory path
  rooted := by
    rw [FileSystem.node_makeDirectory, tree.rooted, ite_self]
  tree := by
    refine tree.tree.of_nodes (fun other hother ↦ ?_) fun parent name hnew ↦ ?_
    · rw [FileSystem.node_makeDirectory, hother, ite_self]
    · rw [FileSystem.node_makeDirectory] at hnew
      split_ifs at hnew with hpath
      · exact Or.inr (eq_dropLast hpath ▸ hparent)
      · exact Or.inl hnew

/-- A new file, at a path at which nothing is. -/
def addFile (tree : FileTree) (path : Path) (habsent : tree.node path = none)
    (hparent : tree.node path.dropLast = some .directory) : FileTree where
  toFileSystem := tree.create path
  sound := tree.sound.create path
  rooted := by
    rw [FileSystem.node_create tree.sound, if_neg, tree.rooted]
    rintro rfl
    rw [tree.rooted] at habsent
    cases habsent
  tree := by
    refine tree.tree.of_nodes (fun other hother ↦ ?_) fun parent name hnew ↦ ?_
    · rw [FileSystem.node_create tree.sound, if_neg, hother]
      rintro rfl
      rw [habsent] at hother
      cases hother
    · rw [FileSystem.node_create tree.sound] at hnew
      split_ifs at hnew with hpath
      · exact Or.inr (eq_dropLast hpath ▸ hparent)
      · exact Or.inl hnew

theorem node_write_directory {fs : FileSystem} {inode : ℕ} {content : Bytes} {path : Path} :
    (fs.write inode content).node path = some .directory ↔ fs.node path = some .directory := by
  rw [FileSystem.node_write]
  split_ifs with hentry
  · rw [FileSystem.node_of_lookup_file hentry]
    exact iff_of_false nofun nofun
  · rfl

theorem node_write_none {fs : FileSystem} {inode : ℕ} {content : Bytes} {path : Path} :
    (fs.write inode content).node path = none ↔ fs.node path = none := by
  rw [FileSystem.node_write]
  split_ifs with hentry
  · rw [FileSystem.node_of_lookup_file hentry]
    exact iff_of_false nofun nofun
  · rfl

/-- Another content of an inode. -/
def setContent (tree : FileTree) (inode : ℕ) (content : Bytes) : FileTree where
  toFileSystem := tree.write inode content
  sound := tree.sound.write inode content
  rooted := node_write_directory.mpr tree.rooted
  tree := by
    refine tree.tree.of_nodes (fun other ↦ node_write_directory.mpr) fun parent name hnew ↦ ?_
    exact Or.inl fun hnone ↦ hnew (node_write_none.mpr hnone)

/-- The tree without an entry that is no directory. -/
def removeEntry (tree : FileTree) (path : Path) (hnode : tree.node path ≠ some .directory) :
    FileTree where
  toFileSystem := tree.unlink path
  sound := tree.sound.unlink path
  rooted := by rw [FileSystem.node_unlink, if_neg (ne_nil_of_not_directory hnode).symm, tree.rooted]
  tree := by
    refine tree.tree.of_nodes (fun other hother ↦ ?_) fun parent name hnew ↦ ?_
    · rw [FileSystem.node_unlink, if_neg, hother]
      rintro rfl
      exact hnode hother
    · rw [FileSystem.node_unlink] at hnew
      split_ifs at hnew with hpath
      · exact absurd rfl hnew
      · exact Or.inl hnew

/-- A directory moved to another place, with everything below it. -/
def moveDirectory (tree : FileTree) (source target : Path) (hsource : source ≠ [])
    (htarget : target ≠ []) (hparent : tree.node target.dropLast = some .directory)
    (hbelow : ¬ source <+: target.dropLast) : FileTree where
  toFileSystem := tree.moveTree source target
  sound := tree.sound.moveTree source target
  rooted := by
    rw [FileSystem.node_moveTree, if_neg fun hnil ↦ htarget (List.prefix_nil.mp hnil),
      if_neg fun hnil ↦ hsource (List.prefix_nil.mp hnil), tree.rooted]
  tree := by
    rw [← List.dropLast_append_getLast htarget]
    exact tree.tree.moveTree hparent hbelow

/-- The tree without a directory and everything below it. -/
def removeDirectory (tree : FileTree) (path : Path) (hpath : path ≠ []) : FileTree where
  toFileSystem := tree.removeTree path
  sound := tree.sound.removeTree path
  rooted := by
    rw [FileSystem.node_removeTree, if_neg fun hnil ↦ hpath (List.prefix_nil.mp hnil), tree.rooted]
  tree := tree.tree.removeTree path

/-- An entry under a new name, over one that is no directory. -/
def renameEntry (tree : FileTree) (source target : Path) (hnode : tree.node source ≠ none)
    (hsource : tree.node source ≠ some .directory) (htarget : tree.node target ≠ some .directory)
    (hparent : tree.node target.dropLast = some .directory) (hne : source ≠ target) :
    FileTree where
  toFileSystem := tree.rename source target
  sound := tree.sound.rename source target
  rooted := by
    obtain ⟨node, hnode⟩ := Option.ne_none_iff_exists'.mp hnode
    rw [FileSystem.node_rename hnode hne, if_neg (ne_nil_of_not_directory htarget).symm,
      if_neg (ne_nil_of_not_directory hsource).symm, tree.rooted]
  tree := by
    obtain ⟨node, hnode⟩ := Option.ne_none_iff_exists'.mp hnode
    refine tree.tree.of_nodes (fun other hother ↦ ?_) fun parent name hnew ↦ ?_
    · rw [FileSystem.node_rename hnode hne, if_neg, if_neg, hother]
      · rintro rfl
        exact hsource hother
      · rintro rfl
        exact htarget hother
    · rw [FileSystem.node_rename hnode hne] at hnew
      split_ifs at hnew with hpath
      · exact Or.inr (eq_dropLast hpath ▸ hparent)
      · exact absurd rfl hnew
      · exact Or.inl hnew

end FileTree

end Oamb.Foundation
