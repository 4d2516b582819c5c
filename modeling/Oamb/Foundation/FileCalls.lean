import Oamb.Foundation.CrashLogic
import Oamb.Foundation.FileTrees

/-!
# Calls of a file system

The calls of a program that works on files: each is a query of a dialogue with the file system,
which answers with a result or with the text of an error. `answer` is the regular answer. `Serve`
adds what may happen instead: a call is refused, or it is interrupted after it had its effect, or,
where it has several, after some of them. `Touches` is where a call can change a tree
(`serve_frame`).
-/

set_option autoImplicit false

namespace Oamb.Foundation.FileCalls

open CrashLogic

/-! ### Calls -/

/-- A call of the file system. -/
inductive FileQuery
  | look (path : Path)
  | ensureDirectory (path : Path)
  | makeTemporaryDirectory (parent : Path) (start : String)
  | createExclusive (path : Path)
  | write (inode : ℕ) (content : Bytes)
  | sync (inode : ℕ)
  | unlink (path : Path)
  | renameDirectory (source target : Path)
  | removeDirectory (path : Path)
  | removeTree (path : Path)
  | replaceFile (source target : Path)

/-- What a call results in. -/
abbrev FileQuery.Result : FileQuery → Type
  | look _ => Option Node
  | makeTemporaryDirectory _ _ => Path
  | createExclusive _ => ℕ
  | _ => Unit

/-- The answer to a call: its result, or the text of an error. -/
abbrev Answer (query : FileQuery) : Type := Except String query.Result

/-- The choice of names for temporary directories: they are not in use. -/
structure TemporaryNames where
  suffix : FileTree → Path → String → String
  fresh : ∀ (tree : FileTree) (parent : Path) (start : String),
    tree.node (parent ++ [start ++ suffix tree parent start]) = none

/-- Nothing is below the path. -/
def isVacant (tree : FileTree) (path : Path) : Bool :=
  tree.paths.all fun other ↦ decide (path <+: other → other = path)

theorem isVacant_iff {tree : FileTree} {path : Path} : isVacant tree path = true ↔
    ∀ other, path <+: other → other ≠ path → tree.node other = none := by
  rw [isVacant, List.all_eq_true]
  constructor
  · intro hall other hbelow hne
    by_contra hpresent
    exact hne (of_decide_eq_true (hall other (FileSystem.mem_paths.mpr hpresent)) hbelow)
  · intro hall other hother
    refine decide_eq_true fun hbelow ↦ ?_
    by_contra hne
    exact FileSystem.mem_paths.mp hother (hall other hbelow hne)

/-- The file system does what it is called for. -/
def answer (names : TemporaryNames) (tree : FileTree) :
    (query : FileQuery) → Answer query × FileTree
  | .look path => (.ok (tree.node path), tree)
  | .ensureDirectory path =>
    if tree.node path = some .directory then (.ok (), tree)
    else if h : tree.node path = none ∧ tree.node path.dropLast = some .directory then
      (.ok (), tree.addDirectory path h.2)
    else (.error "the directory cannot be made", tree)
  | .makeTemporaryDirectory parent start =>
    let path := parent ++ [start ++ names.suffix tree parent start]
    if h : tree.node path.dropLast = some .directory then (.ok path, tree.addDirectory path h)
    else (.error "No such file or directory", tree)
  | .createExclusive path =>
    if h : tree.node path = none ∧ tree.node path.dropLast = some .directory then
      (.ok tree.inodes, tree.addFile path h.1 h.2)
    else (.error "File exists", tree)
  | .write inode content => (.ok (), tree.setContent inode (tree.contents inode ++ content))
  | .sync _ => (.ok (), tree)
  | .unlink path =>
    if h : tree.node path ≠ some .directory then (.ok (), tree.removeEntry path h)
    else (.error "Is a directory", tree)
  | .renameDirectory source target =>
    if h : (source ≠ [] ∧ target ≠ []) ∧ tree.node target.dropLast = some .directory ∧
        ¬ source <+: target.dropLast then
      if tree.node source = some .directory ∧
          (tree.node target = none ∨ tree.node target = some .directory ∧ isVacant tree target) then
        (.ok (), tree.moveDirectory source target h.1.1 h.1.2 h.2.1 h.2.2)
      else (.error "Directory not empty", tree)
    else (.error "Invalid argument", tree)
  | .removeDirectory path =>
    if h : path ≠ [] ∧ tree.node path = some .directory ∧ isVacant tree path then
      (.ok (), tree.removeDirectory path h.1)
    else (.error "Directory not empty", tree)
  | .removeTree path =>
    if h : path ≠ [] then (.ok (), tree.removeDirectory path h) else (.error "busy", tree)
  | .replaceFile source target =>
    if h : (tree.node source ≠ none ∧ tree.node source ≠ some .directory) ∧
        tree.node target ≠ some .directory ∧ tree.node target.dropLast = some .directory ∧
        source ≠ target then
      (.ok (), tree.renameEntry source target h.1.1 h.1.2 h.2.1 h.2.2.1 h.2.2.2)
    else (.error "Is a directory", tree)

/-- What may happen to a call. -/
inductive Serve (names : TemporaryNames) (tree : FileTree) :
    (query : FileQuery) → Answer query → FileTree → Prop
  | regular (query : FileQuery) :
    Serve names tree query (answer names tree query).1 (answer names tree query).2
  | refused (query : FileQuery) (error : String) : Serve names tree query (.error error) tree
  | interrupted (query : FileQuery) (error : String) :
    Serve names tree query (.error error) (answer names tree query).2
  | torn (inode : ℕ) (content : Bytes) (count : ℕ) (error : String) :
    Serve names tree (.write inode content) (.error error)
      (tree.setContent inode (tree.contents inode ++ content.take count))
  /-- The removal of a tree ignores its errors. -/
  | partlyRemoved (path : Path) (result : Answer (.removeTree path)) {next : FileTree}
    (hkept : ∀ other, next.node other = tree.node other ∨ path <+: other ∧ next.node other = none) :
    Serve names tree (.removeTree path) result next

/-- The call can change what is at a path. -/
def Touches (names : TemporaryNames) (tree : FileTree) : FileQuery → Path → Prop
  | .look _, _ | .sync _, _ => False
  | .ensureDirectory path, other | .createExclusive path, other =>
    other = path ∧ tree.node other = none
  | .makeTemporaryDirectory parent start, other =>
    other = parent ++ [start ++ names.suffix tree parent start]
  | .write inode _, other => tree.entries.lookup other = some (.file inode)
  | .unlink path, other => other = path
  | .renameDirectory source target, other => source <+: other ∨ target <+: other
  | .removeDirectory path, other | .removeTree path, other => path <+: other
  | .replaceFile source target, other => other = source ∨ other = target

section Frames

variable {names : TemporaryNames} {tree next : FileTree} {query : FileQuery} {path : Path}

theorem node_setContent {inode : ℕ} {content : Bytes}
    (htouches : tree.entries.lookup path ≠ some (.file inode)) :
    (tree.setContent inode content).node path = tree.node path := by
  rw [FileTree.setContent, FileSystem.node_write, if_neg htouches]

/-- The regular answer changes nothing but what its call touches. -/
theorem answer_frame (htouches : ¬ Touches names tree query path) :
    (answer names tree query).2.node path = tree.node path := by
  cases query with
  | look | sync => rfl
  | ensureDirectory target =>
    simp only [answer]
    split_ifs with hdirectory habsent
    · rfl
    · rw [FileTree.addDirectory, FileSystem.node_makeDirectory, if_neg]
      rintro rfl
      exact htouches ⟨rfl, habsent.1⟩
    · rfl
  | makeTemporaryDirectory parent start =>
    simp only [answer]
    have hne : path ≠ parent ++ [start ++ names.suffix tree parent start] := htouches
    split_ifs
    · rw [FileTree.addDirectory, FileSystem.node_makeDirectory, if_neg hne]
    · rfl
  | createExclusive target =>
    simp only [answer]
    split_ifs with habsent
    · rw [FileTree.addFile, FileSystem.node_create tree.sound, if_neg]
      rintro rfl
      exact htouches ⟨rfl, habsent.1⟩
    · rfl
  | write => exact node_setContent htouches
  | unlink target =>
    simp only [answer]
    split_ifs
    · have hne : path ≠ target := htouches
      rw [FileTree.removeEntry, FileSystem.node_unlink, if_neg hne]
    · rfl
  | renameDirectory source target =>
    simp only [answer]
    obtain ⟨hsource, htarget⟩ := not_or.mp htouches
    split_ifs
    · rw [FileTree.moveDirectory, FileSystem.node_moveTree, if_neg htarget, if_neg hsource]
    · rfl
    · rfl
  | removeDirectory target =>
    simp only [answer]
    split_ifs
    · have habove : ¬ target <+: path := htouches
      rw [FileTree.removeDirectory, FileSystem.node_removeTree, if_neg habove]
    · rfl
  | removeTree target =>
    simp only [answer]
    split_ifs
    · have habove : ¬ target <+: path := htouches
      rw [FileTree.removeDirectory, FileSystem.node_removeTree, if_neg habove]
    · rfl
  | replaceFile source target =>
    simp only [answer]
    obtain ⟨hsource, htarget⟩ := not_or.mp htouches
    split_ifs with hreplace
    · obtain ⟨node, hnode⟩ := Option.ne_none_iff_exists'.mp hreplace.1.1
      rw [FileTree.renameEntry, FileSystem.node_rename hnode hreplace.2.2.2, if_neg htarget,
        if_neg hsource]
    · rfl

/-- Whatever happens to a call changes nothing but what the call touches. -/
theorem serve_frame {result : Answer query} (hserve : Serve names tree query result next)
    (htouches : ¬ Touches names tree query path) : next.node path = tree.node path := by
  cases hserve with
  | regular | interrupted => exact answer_frame htouches
  | refused => rfl
  | torn => exact node_setContent htouches
  | partlyRemoved _ _ hkept => exact (hkept path).resolve_right fun hremoved ↦ htouches hremoved.1

/-- A call that has a result did what it is called for. -/
theorem answer_of_serve {result : Answer query} (hserve : Serve names tree query result next)
    (hquery : ∀ path, query ≠ .removeTree path) {value : query.Result}
    (hvalue : result = .ok value) :
    answer names tree query = (.ok value, next) := by
  cases hserve with
  | regular => exact Prod.ext hvalue rfl
  | refused | interrupted | torn => cases hvalue
  | partlyRemoved path => exact absurd rfl (hquery path)

/-- Making a directory changes nothing else. -/
theorem serve_ensureDirectory {result : Answer (.ensureDirectory path)}
    (hserve : Serve names tree (.ensureDirectory path) result next) (other : Path) :
    next.node other = tree.node other ∨
      other = path ∧ tree.node other = none ∧ next.node other = some .directory := by
  have hanswer : (answer names tree (.ensureDirectory path)).2.node other = tree.node other ∨
      other = path ∧ tree.node other = none ∧
        (answer names tree (.ensureDirectory path)).2.node other = some .directory := by
    simp only [answer]
    split_ifs with hdirectory habsent
    · exact Or.inl rfl
    · rw [FileTree.addDirectory, FileSystem.node_makeDirectory]
      by_cases hother : other = path
      · rw [if_pos hother, hother]
        exact Or.inr ⟨rfl, habsent.1, rfl⟩
      · rw [if_neg hother]
        exact Or.inl rfl
    · exact Or.inl rfl
  cases hserve with
  | regular | interrupted => exact hanswer
  | refused => exact Or.inl rfl

theorem node_ensureDirectory
    (hanswer : answer names tree (.ensureDirectory path) = (.ok (), next)) :
    next.node path = some .directory := by
  simp only [answer] at hanswer
  split_ifs at hanswer with hdirectory habsent
  · cases hanswer
    exact hdirectory
  · cases hanswer
    rw [FileTree.addDirectory, FileSystem.node_makeDirectory, if_pos rfl]
  · cases hanswer

/-- A file that was created has an inode of its own, which is empty. -/
theorem createExclusive_ok {descriptor : ℕ}
    (hanswer : answer names tree (.createExclusive path) = (.ok descriptor, next)) :
    tree.node path = none ∧ next.contents descriptor = [] ∧
      ∀ other, next.entries.lookup other = some (.file descriptor) ↔ other = path := by
  simp only [answer] at hanswer
  split_ifs at hanswer with habsent
  · cases hanswer
    refine ⟨habsent.1, by simp [FileTree.addFile, FileSystem.create], fun other ↦ ?_⟩
    rw [FileTree.addFile, FileSystem.lookup_create]
    split_ifs with hother
    · exact iff_of_true rfl hother
    · exact iff_of_false (fun hentry ↦ (tree.sound other _ hentry).ne rfl) hother
  · cases hanswer

/-- A file has what was written to it, when it was empty before. -/
theorem node_write {inode : ℕ} {content : Bytes} (hempty : tree.contents inode = [])
    (hentry : tree.entries.lookup path = some (.file inode)) :
    (answer names tree (.write inode content)).2.node path = some (.file content) := by
  rw [answer, hempty, List.nil_append, FileTree.setContent, FileSystem.node_write, if_pos hentry]

/-- A directory is moved with everything below it, or not at all. -/
theorem serve_renameDirectory {source target : Path}
    {result : Answer (.renameDirectory source target)}
    (hserve : Serve names tree (.renameDirectory source target) result next) :
    (∀ path, next.node path = tree.node path) ∨
      ∀ rest, next.node (target ++ rest) = tree.node (source ++ rest) := by
  have hanswer : (answer names tree (.renameDirectory source target)).2 = tree ∨
      ∀ rest, (answer names tree (.renameDirectory source target)).2.node (target ++ rest) =
        tree.node (source ++ rest) := by
    simp only [answer]
    split_ifs
    · refine Or.inr fun rest ↦ ?_
      rw [FileTree.moveDirectory, FileSystem.node_moveTree, if_pos (List.prefix_append _ _),
        List.drop_left]
    · exact Or.inl rfl
    · exact Or.inl rfl
  cases hserve with
  | regular | interrupted => exact hanswer.imp_left fun hsame path ↦ by rw [hsame]
  | refused => exact Or.inl fun _ ↦ rfl

/-- A file replaces another one as a whole, or not at all. -/
theorem serve_replaceFile {source target : Path} {result : Answer (.replaceFile source target)}
    (hserve : Serve names tree (.replaceFile source target) result next) :
    next.node target = tree.node target ∨ next.node target = tree.node source := by
  have hanswer : (answer names tree (.replaceFile source target)).2.node target =
        tree.node target ∨
      (answer names tree (.replaceFile source target)).2.node target = tree.node source := by
    simp only [answer]
    split_ifs with hreplace
    · obtain ⟨node, hnode⟩ := Option.ne_none_iff_exists'.mp hreplace.1.1
      rw [FileTree.renameEntry, FileSystem.node_rename hnode hreplace.2.2.2, if_pos rfl, hnode]
      exact Or.inr rfl
    · exact Or.inl rfl
  cases hserve with
  | regular | interrupted => exact hanswer
  | refused => exact Or.inl rfl

/-- A file that was renamed is found under its new name. -/
theorem node_replaceFile {source target : Path} {node : Node} (hnode : tree.node source = some node)
    (hanswer : answer names tree (.replaceFile source target) = (.ok (), next)) :
    next.node target = some node := by
  simp only [answer] at hanswer
  split_ifs at hanswer with hreplace
  · cases hanswer
    rw [FileTree.renameEntry, FileSystem.node_rename hnode hreplace.2.2.2, if_pos rfl]
  · cases hanswer

/-- Where a directory was, there is nothing after it was moved. -/
theorem node_renameDirectory_source {source target : Path}
    (hanswer : answer names tree (.renameDirectory source target) = (.ok (), next))
    (htarget : ¬ target <+: path) (hsource : source <+: path) : next.node path = none := by
  simp only [answer] at hanswer
  split_ifs at hanswer
  · cases hanswer
    rw [FileTree.moveDirectory, FileSystem.node_moveTree, if_neg htarget, if_pos hsource]
  · cases hanswer
  · cases hanswer

/-- A directory that was moved is found at its new place with everything below it. -/
theorem node_renameDirectory {source target : Path}
    (hanswer : answer names tree (.renameDirectory source target) = (.ok (), next)) (rest : Path) :
    next.node (target ++ rest) = tree.node (source ++ rest) := by
  simp only [answer] at hanswer
  split_ifs at hanswer
  · cases hanswer
    rw [FileTree.moveDirectory, FileSystem.node_moveTree, if_pos (List.prefix_append _ _),
      List.drop_left]
  · cases hanswer
  · cases hanswer

theorem makeTemporaryDirectory_ok {parent staging : Path} {start : String}
    (hanswer : answer names tree (.makeTemporaryDirectory parent start) = (.ok staging, next)) :
    staging = parent ++ [start ++ names.suffix tree parent start] ∧
      tree.node staging = none ∧ next.node staging = some .directory := by
  simp only [answer] at hanswer
  split_ifs at hanswer
  · cases hanswer
    refine ⟨rfl, names.fresh _ _ _, ?_⟩
    rw [FileTree.addDirectory, FileSystem.node_makeDirectory, if_pos rfl]
  · cases hanswer

end Frames

/-! ### Programs -/

section Programs

variable {ε : Type} (raised : String → ε)

/-- Call the file system, and raise its error. -/
def act (query : FileQuery) : Dialogue FileQuery Answer ε query.Result :=
  .ask query fun result ↦ .done (result.mapError raised)

/-- Make the directories on a path below one that exists. -/
def makeDirectoriesBelow (base : Path) : List String → Dialogue FileQuery Answer ε Unit
  | [] => pure ()
  | name :: names => do
    act raised (.ensureDirectory (base ++ [name]))
    makeDirectoriesBelow (base ++ [name]) names

/-- Make a directory and those above it. -/
def makeDirectories (path : Path) : Dialogue FileQuery Answer ε Unit :=
  makeDirectoriesBelow raised [] path

/-- A call that has a result goes on with it. -/
theorem perform_act_of_ok {names : TemporaryNames} {tree next : FileTree} {query : FileQuery}
    {value : query.Result} (hanswer : answer names tree query = (.ok value, next)) :
    perform (answer names) (act raised query) tree = (.ok value, next) := by
  rw [act, perform, hanswer]
  rfl

theorem perform_act_of_error {names : TemporaryNames} {tree next : FileTree} {query : FileQuery}
    {error : String} (hanswer : answer names tree query = (.error error, next)) :
    perform (answer names) (act raised query) tree = (.error (raised error), next) := by
  rw [act, perform, hanswer]
  rfl

/-- A program that only looks at files. -/
abbrev Reading (ε α : Type) : Type := Dialogue Path (fun _ ↦ Option Node) ε α

/-- Look at files. -/
def reads {α : Type} : Reading ε α → Dialogue FileQuery Answer ε α
  | .done outcome => .done outcome
  | .ask path next => .ask (.look path) fun
    | .ok node => reads (next node)
    | .error error => .done (.error (raised error))

variable {raised} {names : TemporaryNames} {tree : FileTree} {always : FileTree → Prop}

section Readings

variable {α : Type} {reading : Reading ε α}

/-- Files that are looked at stay as they are, and what a reading comes to is what they say. -/
theorem guarantees_reads : Guarantees (Serve names) (· = tree)
    (fun outcome _ ↦ ∀ value, outcome = .ok value → reading.answered tree.node = .ok value)
    (reads raised reading) tree := by
  induction reading with
  | done outcome => exact ⟨rfl, fun value hvalue ↦ hvalue⟩
  | ask path next ih =>
    rw [reads]
    refine ⟨rfl, fun result later hserve ↦ ?_⟩
    have hlater : later = tree := by
      cases hserve <;> rfl
    subst hlater
    cases result with
    | error error => exact ⟨rfl, fun value hvalue ↦ nomatch hvalue⟩
    | ok node =>
      have hnode := congrArg Prod.fst (answer_of_serve hserve (fun _ ↦ nofun) rfl)
      cases hnode
      exact ih _

theorem perform_reads :
    perform (answer names) (reads raised reading) tree = (reading.answered tree.node, tree) := by
  induction reading with
  | done outcome => rfl
  | ask path next ih =>
    rw [reads]
    exact ih _

theorem answered_bind_eq_ok {ε' α' β : Type} {answers : Path → Option Node}
    {first : Reading ε' α'} {next : α' → Reading ε' β} {result : β} :
    (first >>= next).answered answers = .ok result ↔
      ∃ value, first.answered answers = .ok value ∧
        (next value).answered answers = .ok result := by
  cases hfirst : first.answered answers with
  | error error =>
    rw [Dialogue.answered_bind_of_error hfirst]
    exact iff_of_false nofun fun ⟨_, hvalue, _⟩ ↦ nomatch hvalue
  | ok value =>
    rw [Dialogue.answered_bind_of_ok hfirst]
    exact ⟨fun hnext ↦ ⟨value, rfl, hnext⟩, fun ⟨_, hvalue, hnext⟩ ↦ by cases hvalue; exact hnext⟩

/-- The results of readings one after the other are those of each. -/
theorem forall_of_answered_mapM {ε' α' β : Type} {answers : Path → Option Node}
    {read : α' → Reading ε' β} {items : List α'} {results : List β}
    (hread : (items.mapM read).answered answers = .ok results) :
    List.Forall₂ (fun item result ↦ (read item).answered answers = .ok result) items results := by
  induction items generalizing results with
  | nil =>
    cases hread
    exact .nil
  | cons item items ih =>
    rw [List.mapM_cons] at hread
    obtain ⟨first, hfirst, hread⟩ := answered_bind_eq_ok.mp hread
    obtain ⟨rest, hrest, hread⟩ := answered_bind_eq_ok.mp hread
    cases hread
    exact .cons hfirst (ih hrest)

/-- A reading depends on what it looks at. -/
theorem answered_congr {other : Path → Option Node}
    (hsame : ∀ path ∈ reading.asked tree.node, other path = tree.node path) :
    reading.answered other = reading.answered tree.node := by
  induction reading with
  | done outcome => rfl
  | ask path next ih =>
    rw [Dialogue.asked, List.forall_mem_cons] at hsame
    rw [Dialogue.answered, Dialogue.answered, hsame.1]
    exact ih _ hsame.2

end Readings

theorem guarantees_act {query : FileQuery} {post : Except ε query.Result → FileTree → Prop}
    (hstart : always tree) (hserve : ∀ result next, Serve names tree query result next →
      always next ∧ post (result.mapError raised) next) :
    Guarantees (Serve names) always post (act raised query) tree :=
  ⟨hstart, hserve⟩

/-- What was there stays, and new entries are on the way to a path. -/
def Adds (tree : FileTree) (path : Path) (next : FileTree) : Prop :=
  ∀ other, next.node other = tree.node other ∨ other <+: path ∧ tree.node other = none

theorem Adds.trans {path : Path} {middle next : FileTree} (hfirst : Adds tree path middle)
    (hsecond : Adds middle path next) : Adds tree path next := by
  intro other
  rcases hfirst other with hsame | hnew
  · rcases hsecond other with hlater | ⟨hbelow, hnone⟩
    · exact Or.inl (hlater.trans hsame)
    · exact Or.inr ⟨hbelow, hsame ▸ hnone⟩
  · exact Or.inr hnew

/-- What was there stays, and new directories are on the way to a path. -/
def AddsDirectories (tree : FileTree) (path : Path) (next : FileTree) : Prop :=
  ∀ other, next.node other = tree.node other ∨
    other <+: path ∧ tree.node other = none ∧ next.node other = some .directory

theorem AddsDirectories.trans {path : Path} {middle next : FileTree}
    (hfirst : AddsDirectories tree path middle) (hsecond : AddsDirectories middle path next) :
    AddsDirectories tree path next := by
  intro other
  rcases hsecond other with hsame | ⟨hbelow, hnone, hnew⟩
  · rw [hsame]
    exact hfirst other
  · rcases hfirst other with hold | ⟨-, -, hdirectory⟩
    · exact Or.inr ⟨hbelow, hold ▸ hnone, hnew⟩
    · rw [hnone] at hdirectory
      cases hdirectory

theorem AddsDirectories.adds {path longer : Path} {next : FileTree}
    (hadds : AddsDirectories tree path next) (hpath : path <+: longer) : Adds tree longer next :=
  fun other ↦ (hadds other).imp_right fun hnew ↦ ⟨hnew.1.trans hpath, hnew.2.1⟩

/-- Nothing is added where everything is there. -/
theorem AddsDirectories.same {path : Path} {next : FileTree}
    (hadds : AddsDirectories tree path next) (hnode : tree.node path = some .directory)
    (other : Path) : next.node other = tree.node other := by
  refine (hadds other).resolve_right fun hnew ↦ ?_
  rw [FileTree.directory_of_prefix hnode hnew.1] at hnew
  exact Option.some_ne_none _ hnew.2.1

/-- Every path on the way is a directory, and the others are as before. -/
def Leads (tree : FileTree) (path : Path) (next : FileTree) : Prop :=
  (∀ other, other <+: path → next.node other = some .directory) ∧
    ∀ other, ¬ other <+: path → next.node other = tree.node other

theorem guarantees_makeDirectoriesBelow {rest : List String} {base : Path}
    (hbase : ∀ other, other <+: base → tree.node other = some .directory) :
    Guarantees (Serve names) (AddsDirectories tree (base ++ rest))
      (fun outcome next ↦ outcome = .ok () → Leads tree (base ++ rest) next)
      (makeDirectoriesBelow raised base rest) tree := by
  induction rest generalizing base tree with
  | nil =>
    rw [List.append_nil]
    exact guarantees_pure (fun _ ↦ Or.inl rfl) fun _ ↦ ⟨hbase, fun _ _ ↦ rfl⟩
  | cons name rest ih =>
    have hpath : base ++ [name] <+: base ++ name :: rest :=
      (List.prefix_append_right_inj base).mpr ⟨rest, rfl⟩
    rw [makeDirectoriesBelow]
    have hstep : Guarantees (Serve names) (AddsDirectories tree (base ++ name :: rest))
        (fun outcome next ↦ outcome = .ok () → next.node (base ++ [name]) = some .directory ∧
          ∀ other, other ≠ base ++ [name] → next.node other = tree.node other)
        (act raised (.ensureDirectory (base ++ [name]))) tree := by
      refine guarantees_act (fun _ ↦ Or.inl rfl) fun result next hserve ↦
        ⟨fun other ↦ ?_, fun hresult ↦ ?_⟩
      · rcases serve_ensureDirectory hserve other with hsame | ⟨rfl, hnew⟩
        · exact Or.inl hsame
        · exact Or.inr ⟨hpath, hnew⟩
      · cases result with
        | error error => cases hresult
        | ok value =>
          exact ⟨node_ensureDirectory (answer_of_serve hserve (fun _ ↦ nofun) rfl),
            fun other hother ↦ serve_frame hserve fun htouches ↦ hother htouches.1⟩
    refine hstep.bind (fun _ next hfirst hadds ↦ ?_) fun error next _ ↦ nofun
    obtain ⟨hdirectory, hothers⟩ := hfirst rfl
    have hnext : ∀ other, other <+: base ++ [name] → next.node other = some .directory := by
      intro other hother
      rcases List.prefix_concat_iff.mp hother with rfl | hbelow
      · exact hdirectory
      · rw [hothers other, hbase other hbelow]
        rintro rfl
        exact absurd hbelow.length_le (by simp)
    have hrest := @ih next _ hnext
    rw [List.append_assoc] at hrest
    refine hrest.mono (fun later hlater ↦ hadds.trans hlater)
      fun outcome later _ hleads houtcome ↦ ?_
    obtain ⟨hdirectories, hsame⟩ := hleads houtcome
    refine ⟨hdirectories, fun other hother ↦ ?_⟩
    rw [hsame other hother, hothers other]
    rintro rfl
    exact hother hpath

theorem guarantees_makeDirectories (path : Path) :
    Guarantees (Serve names) (AddsDirectories tree path)
      (fun outcome next ↦ outcome = .ok () → Leads tree path next)
      (makeDirectories raised path) tree := by
  have hroot : ∀ other, other <+: ([] : Path) → tree.node other = some .directory := by
    intro other hother
    rw [List.prefix_nil.mp hother]
    exact tree.rooted
  exact guarantees_makeDirectoriesBelow hroot

/-- Directories are made when nothing else is on the way. -/
theorem perform_makeDirectoriesBelow {rest : List String} {base : Path}
    (hbase : tree.node base = some .directory)
    (hfree : ∀ other, other <+: base ++ rest → tree.node other = none ∨
      tree.node other = some .directory) :
    ∃ next, perform (answer names) (makeDirectoriesBelow raised base rest) tree =
      (.ok (), next) := by
  induction rest generalizing base tree with
  | nil => exact ⟨tree, rfl⟩
  | cons name rest ih =>
    have hpath : base ++ [name] <+: base ++ name :: rest :=
      (List.prefix_append_right_inj base).mpr ⟨rest, rfl⟩
    obtain ⟨next, hanswer, hnext⟩ : ∃ next, answer names tree (.ensureDirectory (base ++ [name])) =
        (.ok (), next) ∧ ∀ other, next.node other = tree.node other ∨
          next.node other = some .directory := by
      simp only [answer]
      by_cases hdirectory : tree.node (base ++ [name]) = some .directory
      · rw [if_pos hdirectory]
        exact ⟨tree, rfl, fun _ ↦ Or.inl rfl⟩
      · have hnone := (hfree _ hpath).resolve_right hdirectory
        rw [if_neg hdirectory, dif_pos ⟨hnone, by rwa [List.dropLast_concat]⟩]
        refine ⟨_, rfl, fun other ↦ ?_⟩
        rw [FileTree.addDirectory, FileSystem.node_makeDirectory]
        split_ifs
        · exact Or.inr rfl
        · exact Or.inl rfl
    obtain ⟨last, hlast⟩ := ih (node_ensureDirectory hanswer) fun other hother ↦ by
      rw [List.append_assoc] at hother
      rcases hnext other with hsame | hdirectory
      · rw [hsame]
        exact hfree other hother
      · exact Or.inr hdirectory
    exact ⟨last, (perform_bind_of_ok (perform_act_of_ok raised hanswer)).trans hlast⟩

theorem perform_makeDirectories {path : Path}
    (hfree : ∀ other, other <+: path → tree.node other = none ∨
      tree.node other = some .directory) :
    ∃ next, perform (answer names) (makeDirectories raised path) tree = (.ok (), next) :=
  perform_makeDirectoriesBelow tree.rooted hfree

end Programs

end Oamb.Foundation.FileCalls
