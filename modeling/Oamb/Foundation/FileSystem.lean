import Oamb.Foundation.Dictionary

/-!
# File systems

A file system is a finite map from paths to entries: directories, symbolic links, and files, which
are names of an inode. Several names may share an inode, as `link` makes them. `node` is what is
found at a path; there is one lemma on it for every operation. `Sound` says that every file has an
inode that was handed out, and `Tree` that every path lies in a directory.
-/

set_option autoImplicit false

namespace Oamb.Foundation

/-- The components of a path below the root. -/
abbrev Path := List String

/-- The content of a file. -/
abbrev Bytes := List UInt8

/-- An entry of a directory. -/
inductive Entry
  | directory
  | symlink
  | file (inode : ℕ)
  deriving DecidableEq

/-- What is found at a path. -/
inductive Node
  | directory
  | symlink
  | file (content : Bytes)
  deriving DecidableEq

/-- The entries of a file system, the contents of its inodes, and how many of them were handed
out. -/
structure FileSystem where
  entries : Dictionary Path Entry
  contents : ℕ → Bytes
  inodes : ℕ

namespace FileSystem

variable (fs : FileSystem)

/-- What an entry names. -/
def resolve : Entry → Node
  | .directory => .directory
  | .symlink => .symlink
  | .file inode => .file (fs.contents inode)

/-- What is found at a path. -/
def node (path : Path) : Option Node := (fs.entries.lookup path).map fs.resolve

/-- The paths of a file system. -/
def paths : List Path := fs.entries.keys

/-! ### Operations -/

/-- Make a directory. -/
def makeDirectory (path : Path) : FileSystem :=
  { fs with entries := fs.entries.insert path .directory }

/-- Create an empty file. -/
def create (path : Path) : FileSystem where
  entries := fs.entries.insert path (.file fs.inodes)
  contents := Function.update fs.contents fs.inodes []
  inodes := fs.inodes + 1

/-- Set the content of an inode. -/
def write (inode : ℕ) (content : Bytes) : FileSystem :=
  { fs with contents := Function.update fs.contents inode content }

/-- Give an entry a further name. -/
def link (source target : Path) : FileSystem :=
  match fs.entries.lookup source with
  | none => fs
  | some entry => { fs with entries := fs.entries.insert target entry }

/-- Remove a name. -/
def unlink (path : Path) : FileSystem := { fs with entries := fs.entries.erase path }

/-- Give an entry a new name, which may be one that is in use. -/
def rename (source target : Path) : FileSystem := (fs.link source target).unlink source

/-! ### What is found afterwards -/

variable {fs}

theorem lookup_makeDirectory (path other : Path) : (fs.makeDirectory path).entries.lookup other =
    if other = path then some .directory else fs.entries.lookup other :=
  Dictionary.lookup_insert_eq_ite _ _ _ _

theorem lookup_create (path other : Path) : (fs.create path).entries.lookup other =
    if other = path then some (.file fs.inodes) else fs.entries.lookup other :=
  Dictionary.lookup_insert_eq_ite _ _ _ _

theorem lookup_link {source target : Path} {entry : Entry}
    (hsource : fs.entries.lookup source = some entry) (other : Path) :
    (fs.link source target).entries.lookup other =
      if other = target then some entry else fs.entries.lookup other := by
  rw [link, hsource]
  exact Dictionary.lookup_insert_eq_ite _ _ _ _

theorem lookup_unlink (path other : Path) : (fs.unlink path).entries.lookup other =
    if other = path then none else fs.entries.lookup other := by
  rw [unlink]
  split_ifs with hother
  · subst hother
    exact AList.lookup_erase _ _
  · exact AList.lookup_erase_ne hother

theorem lookup_rename {source target : Path} {entry : Entry}
    (hsource : fs.entries.lookup source = some entry) (other : Path) :
    (fs.rename source target).entries.lookup other =
      if other = source then none else if other = target then some entry
      else fs.entries.lookup other := by
  rw [rename, lookup_unlink, lookup_link hsource]

theorem node_eq_none {path : Path} : fs.node path = none ↔ fs.entries.lookup path = none :=
  Option.map_eq_none_iff

theorem mem_paths {path : Path} : path ∈ fs.paths ↔ fs.node path ≠ none := by
  rw [paths, ← AList.mem_keys, ne_eq, node_eq_none, ← AList.lookup_isSome, Option.isSome_iff_ne_none]

theorem node_eq_file {path : Path} {content : Bytes} : fs.node path = some (.file content) ↔
    ∃ inode, fs.entries.lookup path = some (.file inode) ∧ fs.contents inode = content := by
  rw [node, Option.map_eq_some_iff]
  constructor
  · rintro ⟨entry, hentry, hnode⟩
    cases entry with
    | file inode => exact ⟨inode, hentry, Node.file.inj hnode⟩
    | directory | symlink => cases hnode
  · rintro ⟨inode, hentry, rfl⟩
    exact ⟨_, hentry, rfl⟩

theorem node_of_lookup_file {path : Path} {inode : ℕ}
    (hentry : fs.entries.lookup path = some (.file inode)) :
    fs.node path = some (.file (fs.contents inode)) := by
  rw [node, hentry]
  rfl

theorem node_makeDirectory (path other : Path) :
    (fs.makeDirectory path).node other = if other = path then some .directory else fs.node other := by
  rw [node, lookup_makeDirectory]
  split_ifs <;> rfl

theorem node_link {source target : Path} {node : Node} (hsource : fs.node source = some node)
    (other : Path) : (fs.link source target).node other =
      if other = target then some node else fs.node other := by
  obtain ⟨entry, hentry, rfl⟩ := Option.map_eq_some_iff.mp hsource
  simp only [FileSystem.node, link, hentry, Dictionary.lookup_insert_eq_ite]
  split_ifs <;> rfl

theorem node_unlink (path other : Path) :
    (fs.unlink path).node other = if other = path then none else fs.node other := by
  rw [node, lookup_unlink]
  split_ifs <;> rfl

theorem node_rename {source target : Path} {node : Node} (hsource : fs.node source = some node)
    (hne : source ≠ target) (other : Path) : (fs.rename source target).node other =
      if other = target then some node else if other = source then none else fs.node other := by
  rw [rename, node_unlink, node_link hsource]
  split_ifs with hfirst hsecond
  · exact absurd (hfirst.symm.trans hsecond) hne
  · rfl
  · rfl
  · rfl

/-- Writing to an inode changes the files that are names of it, and nothing else. -/
theorem node_write (inode : ℕ) (content : Bytes) (path : Path) :
    (fs.write inode content).node path =
      if fs.entries.lookup path = some (.file inode) then some (.file content)
      else fs.node path := by
  rw [node, node, write]
  split_ifs with hentry
  · simp [hentry, resolve]
  · cases hlookup : fs.entries.lookup path with
    | none => rfl
    | some entry =>
      cases entry with
      | directory | symlink => rfl
      | file other =>
        have hne : other ≠ inode := by
          rintro rfl
          exact hentry hlookup
        simp [resolve, Function.update_of_ne hne]

/-! ### Sound file systems -/

/-- Every file has an inode that was handed out. -/
def Sound (fs : FileSystem) : Prop :=
  ∀ path inode, fs.entries.lookup path = some (.file inode) → inode < fs.inodes

theorem Sound.insert (hsound : fs.Sound) {path : Path} {entry : Entry}
    (hentry : ∀ inode, entry = .file inode → inode < fs.inodes) :
    Sound { fs with entries := fs.entries.insert path entry } := by
  intro other inode hother
  rw [Dictionary.lookup_insert_eq_ite] at hother
  split_ifs at hother
  · exact hentry inode (Option.some.inj hother)
  · exact hsound other inode hother

theorem Sound.makeDirectory (hsound : fs.Sound) (path : Path) : (fs.makeDirectory path).Sound :=
  hsound.insert nofun

theorem Sound.create (hsound : fs.Sound) (path : Path) : (fs.create path).Sound := by
  intro other inode hother
  rw [lookup_create] at hother
  split_ifs at hother
  · cases hother
    exact Nat.lt_succ_self _
  · exact Nat.lt_succ_of_lt (hsound other inode hother)

theorem Sound.write (hsound : fs.Sound) (inode : ℕ) (content : Bytes) :
    (fs.write inode content).Sound :=
  hsound

theorem Sound.link (hsound : fs.Sound) (source target : Path) : (fs.link source target).Sound := by
  rw [FileSystem.link]
  cases hsource : fs.entries.lookup source with
  | none => exact hsound
  | some entry =>
    refine hsound.insert fun inode hentry ↦ hsound source inode ?_
    rw [hsource, hentry]

theorem lookup_of_lookup_unlink {path other : Path} {entry : Entry}
    (hother : (fs.unlink path).entries.lookup other = some entry) :
    fs.entries.lookup other = some entry := by
  rw [lookup_unlink] at hother
  split_ifs at hother
  exact hother

theorem Sound.unlink (hsound : fs.Sound) (path : Path) : (fs.unlink path).Sound :=
  fun other inode hother ↦ hsound other inode (lookup_of_lookup_unlink hother)

theorem Sound.rename (hsound : fs.Sound) (source target : Path) : (fs.rename source target).Sound :=
  (hsound.link source target).unlink source

/-- A new file is empty, and is no name of an old one. -/
theorem node_create (hsound : fs.Sound) (path other : Path) :
    (fs.create path).node other = if other = path then some (.file []) else fs.node other := by
  rw [node, lookup_create]
  split_ifs with hother
  · simp [resolve, FileSystem.create]
  · rw [node]
    cases hlookup : fs.entries.lookup other with
    | none => rfl
    | some entry =>
      cases entry with
      | directory | symlink => rfl
      | file inode =>
        have hne : inode ≠ fs.inodes := (hsound other inode hlookup).ne
        simp [resolve, FileSystem.create, Function.update_of_ne hne]

/-! ### Trees -/

/-- Every path lies in a directory. -/
def Tree (fs : FileSystem) : Prop :=
  ∀ parent name, fs.node (parent ++ [name]) ≠ none → fs.node parent = some .directory

/-- The path of a directory on the way to a path. -/
theorem Tree.directory (htree : fs.Tree) {parent rest : Path} (hrest : rest ≠ [])
    (hpath : fs.node (parent ++ rest) ≠ none) : fs.node parent = some .directory := by
  induction rest using List.reverseRecOn with
  | nil => exact absurd rfl hrest
  | append_singleton rest name ih =>
    rw [← List.append_assoc] at hpath
    have hdirectory := htree _ _ hpath
    by_cases hnil : rest = []
    · rwa [hnil, List.append_nil] at hdirectory
    · exact ih hnil (by rw [hdirectory]; exact Option.some_ne_none _)

/-- A change keeps the tree when it keeps the directories and makes new paths in them. -/
theorem Tree.of_nodes (htree : fs.Tree) {next : FileSystem}
    (hkept : ∀ path, fs.node path = some .directory → next.node path = some .directory)
    (hnew : ∀ parent name, next.node (parent ++ [name]) ≠ none →
      fs.node (parent ++ [name]) ≠ none ∨ fs.node parent = some .directory) : next.Tree := by
  intro parent name hpath
  rcases hnew parent name hpath with hold | hdirectory
  · exact hkept parent (htree parent name hold)
  · exact hkept parent hdirectory

end FileSystem

/-- A file system whose root is a directory, and in which every path lies in a directory. -/
structure FileTree extends FileSystem where
  sound : toFileSystem.Sound
  rooted : toFileSystem.node [] = some .directory
  tree : toFileSystem.Tree

/-- The file system with nothing below its root. -/
def FileTree.empty : FileTree where
  entries := (∅ : Dictionary Path Entry).insert [] .directory
  contents := fun _ ↦ []
  inodes := 0
  sound := by
    intro path inode hpath
    rw [Dictionary.lookup_insert_eq_ite] at hpath
    split_ifs at hpath
    · cases hpath
    · rw [AList.lookup_empty] at hpath
      cases hpath
  rooted := rfl
  tree := by
    intro parent name hpath
    refine absurd ?_ hpath
    rw [FileSystem.node_eq_none, Dictionary.lookup_insert_eq_ite, if_neg (by simp)]
    rfl

end Oamb.Foundation
