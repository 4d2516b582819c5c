import Oamb.Artifacts.CheckpointChain
import Oamb.Artifacts.FinalizationGuarantees

/-!
# Checkpoints are appended only

In every run of operations on a store that holds no checkpoint at first, `Chain` is what the
checkpoints of an epoch are: they are numbered from one without gaps, each names the hash of the one
before it, and no other number is found. `chained_of_run` adds that no checkpoint is changed, that an
operation which is refused or raises an error changes nothing, and that an append which returned can
be repeated at any later time without an effect.
-/

set_option autoImplicit false

namespace Oamb.Artifacts.CheckpointGuarantees

open Foundation Foundation.FileSystem Foundation.LabelledRuns Foundation.Numerals
open AtomicPublication WriteSequences CapsulePublication CapsuleVerification
open CapsuleFinalization FinalizationGuarantees CheckpointChain

/-! ### Names -/

/-- The name is one of a temporary file. -/
def Hidden (name : String) : Prop := name.toList.head? = some '.'

theorem toList_checkpointName (epoch sequence : ℕ) : (checkpointName epoch sequence).toList =
    Nat.toDigits 10 epoch ++ '-' :: (Nat.toDigits 10 sequence ++ ".json".toList) := by
  simp only [checkpointName, String.toList_append, Nat.toString_eq_ofList_toDigits,
    String.toList_ofList, List.append_assoc]
  rfl

theorem ends_hyphen (rest : List Char) : Ends ('-' :: rest) := by
  intro char hchar
  cases hchar
  rfl

theorem ends_json : Ends ".json".toList := by
  intro char hchar
  cases hchar
  rfl

theorem checkpointName_inj {epoch sequence other number : ℕ}
    (hname : checkpointName epoch sequence = checkpointName other number) :
    epoch = other ∧ sequence = number := by
  have hlist := congrArg String.toList hname
  rw [toList_checkpointName, toList_checkpointName] at hlist
  obtain ⟨hepoch, hrest⟩ := toDigits_append_inj (ends_hyphen _) (ends_hyphen _) hlist
  exact ⟨hepoch, (toDigits_append_inj ends_json ends_json (List.cons.inj hrest).2).1⟩

theorem checkpointPath_inj {root : Path} {epoch sequence other number : ℕ}
    (hpath : checkpointPath root epoch sequence = checkpointPath root other number) :
    epoch = other ∧ sequence = number :=
  checkpointName_inj (List.singleton_inj.mp (List.append_cancel_left hpath))

theorem toList_lead (epoch : ℕ) : s!"{epoch}-".toList = Nat.toDigits 10 epoch ++ ['-'] := by
  simp only [String.toList_append, Nat.toString_eq_ofList_toDigits, String.toList_ofList]
  rfl

theorem readSequence_self (epoch sequence : ℕ) :
    readSequence epoch (checkpointName epoch sequence) = some sequence := by
  have hdrop (rest : List Char) : (Nat.toDigits 10 epoch ++ '-' :: rest).drop
      (Nat.toDigits 10 epoch ++ ['-']).length = rest := by
    have hsplit : Nat.toDigits 10 epoch ++ '-' :: rest = Nat.toDigits 10 epoch ++ ['-'] ++ rest := by
      rw [List.append_assoc, List.singleton_append]
    rw [hsplit]
    exact List.drop_left
  rw [readSequence, toList_lead, toList_checkpointName, hdrop,
    if_pos ⟨⟨_, List.append_assoc _ _ _⟩, List.suffix_append _ _⟩, List.length_append,
    Nat.add_sub_cancel, List.take_left, readNumeral_toDigits]

/-- A file whose sequence is read for an epoch starts with the epoch. -/
theorem lead_of_readSequence {epoch sequence : ℕ} {name : String}
    (hread : readSequence epoch name = some sequence) :
    ∃ rest, name.toList = Nat.toDigits 10 epoch ++ '-' :: rest := by
  rw [readSequence, toList_lead] at hread
  split_ifs at hread with hchecks
  obtain ⟨rest, hrest⟩ := hchecks.1
  exact ⟨rest, by rw [← hrest, List.append_assoc, List.singleton_append]⟩

theorem readSequence_checkpointName {epoch other sequence number : ℕ} :
    readSequence epoch (checkpointName other number) = some sequence ↔
      epoch = other ∧ sequence = number := by
  constructor
  · intro hread
    obtain ⟨rest, hrest⟩ := lead_of_readSequence hread
    rw [toList_checkpointName] at hrest
    obtain ⟨rfl, -⟩ := toDigits_append_inj (ends_hyphen _) (ends_hyphen _) hrest
    rw [readSequence_self, Option.some.injEq] at hread
    exact ⟨rfl, hread.symm⟩
  · rintro ⟨rfl, rfl⟩
    exact readSequence_self _ _

/-- A text that starts with a numeral does not start with a period. -/
theorem head_toDigits_append (number : ℕ) (rest : List Char) :
    (Nat.toDigits 10 number ++ rest).head? ≠ some '.' := by
  cases hdigits : Nat.toDigits 10 number with
  | nil => exact absurd hdigits Nat.toDigits_ne_nil
  | cons digit digits =>
    rw [List.cons_append, List.head?_cons, ne_eq, Option.some.injEq]
    rintro rfl
    have hmem : ('.' : Char) ∈ Nat.toDigits 10 number := by
      rw [hdigits]
      exact List.mem_cons_self
    exact absurd (List.all_eq_true.mp (all_isDigit_toDigits number) _ hmem) (by decide)

theorem not_hidden_checkpointName (epoch sequence : ℕ) :
    ¬ Hidden (checkpointName epoch sequence) := by
  rw [Hidden, toList_checkpointName]
  exact head_toDigits_append _ _

theorem readSequence_of_hidden {epoch sequence : ℕ} {name : String} (hhidden : Hidden name) :
    readSequence epoch name ≠ some sequence := by
  intro hread
  obtain ⟨rest, hrest⟩ := lead_of_readSequence hread
  rw [Hidden, hrest] at hhidden
  exact head_toDigits_append _ _ hhidden

/-! ### Checks -/

section Checks

variable {encodings : CheckpointEncodings} {root : Path} {fs next : FileSystem}
  {manifest : CheckpointManifest}

/-- What was there is kept. -/
def Kept (fs next : FileSystem) : Prop := ∀ path, fs.node path ≠ none → next.node path = fs.node path

theorem Kept.refl (fs : FileSystem) : Kept fs fs := fun _ _ ↦ rfl

theorem Kept.trans {final : FileSystem} (hfirst : Kept fs next) (hsecond : Kept next final) :
    Kept fs final := by
  intro path hpresent
  have hsame := hfirst path hpresent
  rw [hsecond path (by rwa [hsame]), hsame]

theorem Kept.node (hkept : Kept fs next) {path : Path} {node : Node}
    (hnode : fs.node path = some node) : next.node path = some node := by
  rw [hkept path (by rw [hnode]; exact Option.some_ne_none _), hnode]

/-- The sequences that are found are those in the names of the files of the directory. -/
theorem mem_checkpointSequences (htree : fs.Tree) {directory : Path} {epoch sequence : ℕ} :
    sequence ∈ checkpointSequences fs directory epoch ↔ ∃ name content,
      fs.node (directory ++ [name]) = some (.file content) ∧
        readSequence epoch name = some sequence := by
  have hdirectory {name : String} {node : Node} (hnode : fs.node (directory ++ [name]) = some node) :
      fs.node directory ≠ none := by
    rw [htree directory name (by rw [hnode]; exact Option.some_ne_none _)]
    exact Option.some_ne_none _
  rw [checkpointSequences]
  split_ifs with hmissing
  · refine ⟨fun hmem ↦ absurd hmem List.not_mem_nil, ?_⟩
    rintro ⟨name, content, hnode, -⟩
    exact absurd hmissing (hdirectory hnode)
  · rw [List.mem_filterMap]
    constructor
    · rintro ⟨path, hpath, hread⟩
      rw [List.mem_filter, decide_eq_true_eq] at hpath
      obtain ⟨-, hlength, hfile⟩ := hpath
      obtain ⟨name, rfl⟩ := List.length_eq_one_iff.mp hlength
      obtain ⟨content, hnode⟩ := isFile_eq_true.mp hfile
      exact ⟨name, content, hnode, hread⟩
    · rintro ⟨name, content, hnode, hread⟩
      refine ⟨[name], ?_, hread⟩
      rw [List.mem_filter, decide_eq_true_eq, mem_descendants]
      refine ⟨⟨List.cons_ne_nil _ _, ?_⟩, rfl, isFile_eq_true.mpr ⟨content, hnode⟩⟩
      rw [hnode]
      exact Option.some_ne_none _

/-- The next sequence follows those that are found. -/
theorem expectedSequence_eq {epoch count : ℕ} (hsequences : ∀ sequence,
    sequence ∈ checkpointSequences fs (checkpointDirectory root) epoch ↔
      1 ≤ sequence ∧ sequence ≤ count) : expectedSequence fs root epoch = count + 1 := by
  rw [expectedSequence]
  cases hmax : (checkpointSequences fs (checkpointDirectory root) epoch).max? with
  | none =>
    rw [List.max?_eq_none_iff] at hmax
    by_contra hcount
    have hmem := (hsequences 1).mpr ⟨le_rfl, Nat.one_le_iff_ne_zero.mpr fun hzero ↦ hcount (by
      rw [hzero])⟩
    rw [hmax] at hmem
    exact List.not_mem_nil hmem
  | some last =>
    obtain ⟨hmem, hle⟩ := List.max?_eq_some_iff.mp hmax
    obtain ⟨hpositive, hlast⟩ := (hsequences last).mp hmem
    have hcount := hle count ((hsequences count).mpr ⟨hpositive.trans hlast, le_rfl⟩)
    exact congrArg (· + 1) (le_antisymm hlast hcount)

/-- The checks of an append that is accepted. -/
structure Accepted (encodings : CheckpointEncodings) (fs : FileSystem) (root : Path)
    (manifest : CheckpointManifest) : Prop where
  hash : manifest.checkpointManifestHash = encodings.fieldsSha256 manifest.toCheckpointFields
  entries : verifySourceEntries encodings.toEncodings fs root manifest.sourceEntries = .ok ()
  sequence : checkSequence fs root manifest = .ok ()
  predecessor : checkPredecessor encodings fs root manifest = .ok ()

theorem appendCheckpoint_eq_ok {call : Call} :
    appendCheckpoint encodings fs root manifest = .ok call ↔
      Accepted encodings fs root manifest ∧ call = checkpointCall encodings root manifest := by
  unfold appendCheckpoint
  constructor
  · intro happend
    split_ifs at happend with hhash
    split at happend
    · cases happend
    · rename_i hentries
      split at happend
      · cases happend
      · rename_i hsequence
        split at happend
        · cases happend
        · rename_i hpredecessor
          exact ⟨⟨not_not.mp hhash, hentries, hsequence, hpredecessor⟩, (Except.ok.inj happend).symm⟩
  · rintro ⟨haccepted, rfl⟩
    simp only [haccepted.hash, haccepted.entries, haccepted.sequence, haccepted.predecessor]
    exact if_neg (not_not.mpr rfl)

/-- The files of a manifest have their digests as long as they are kept. -/
theorem verifySourceEntries_of_kept {encodings : Encodings} (hkept : Kept fs next)
    {entries : List CapsuleManifestEntry}
    (hentries : verifySourceEntries encodings fs root entries = .ok ()) :
    verifySourceEntries encodings next root entries = .ok () := by
  induction entries with
  | nil => rfl
  | cons entry rest ih =>
    rw [verifySourceEntries] at hentries ⊢
    cases hpath : ArtifactPaths.safeRelativePath entry.relativePath with
    | error message =>
      rw [hpath] at hentries
      cases hentries
    | ok path =>
      rw [hpath] at hentries
      dsimp only at hentries ⊢
      split_ifs at hentries with hsource hdigest
      obtain ⟨content, hnode, hsame⟩ := matchesDigest_eq_true.mp (Bool.not_eq_false _ ▸ hdigest)
      have hkeep : matchesDigest encodings.sha256 entry.sha256 (next.node (root ++ path)) = true :=
        matchesDigest_eq_true.mpr ⟨content, hkept.node hnode, hsame⟩
      rw [if_neg hsource, if_neg (by rw [hkeep]; exact Bool.noConfusion), ih hentries]

theorem checkPredecessor_of_kept (hkept : Kept fs next)
    (hpredecessor : checkPredecessor encodings fs root manifest = .ok ()) :
    checkPredecessor encodings next root manifest = .ok () := by
  unfold checkPredecessor at *
  split_ifs at * with hlater
  · dsimp only at *
    cases hnode : fs.node (checkpointPath root manifest.leaseEpoch (manifest.sequence - 1)) with
    | none =>
      rw [hnode] at hpredecessor
      cases hpredecessor
    | some node =>
      rw [hnode] at hpredecessor
      rwa [hkept.node hnode]
  · rfl

end Checks

/-! ### What an operation changes -/

section Operations

variable {encodings : CheckpointEncodings} {root : Path} {old : FileTree} {fs : FileSystem}
  {operation : StoreOperation} {call : Call} {phase : Phase}

/-- The write of an operation that is accepted is that of a checkpoint or of a source file. -/
theorem of_operationCall (hdigest : ∀ content, IsDigest (encodings.sha256 content))
    (hcall : operationCall encodings fs root operation = .ok call) :
    (∃ manifest, Accepted encodings fs root manifest ∧
      call = checkpointCall encodings root manifest) ∨
      ∃ name content, SourceName name ∧ call = artifactCall root name content := by
  cases operation with
  | append manifest => exact Or.inl ⟨manifest, appendCheckpoint_eq_ok.mp hcall⟩
  | sealCheckpoint request =>
    rw [operationCall] at hcall
    cases hsealed : sealedCheckpoint encodings request with
    | error message =>
      rw [hsealed] at hcall
      cases hcall
    | ok checkpoint =>
      rw [hsealed] at hcall
      exact Or.inl ⟨checkpoint, appendCheckpoint_eq_ok.mp hcall⟩
  | publish request =>
    rw [operationCall, requestCall] at hcall
    cases hpublication : publicationOf encodings.toEncodings request with
    | error message =>
      rw [hpublication] at hcall
      cases hcall
    | ok publication =>
      rw [hpublication] at hcall
      exact Or.inr ⟨_, _, sourceName_of_publicationOf hdigest hpublication,
        (Except.ok.inj hcall).symm⟩

theorem write_of_operationCall (hdigest : ∀ content, IsDigest (encodings.sha256 content))
    (hcall : operationCall encodings fs root operation = .ok call) : call.operation = .write := by
  rcases of_operationCall hdigest hcall with ⟨manifest, -, rfl⟩ | ⟨name, content, -, rfl⟩ <;> rfl

theorem kept_of_reaches (hwrite : call.operation = .write)
    (hreaches : Reaches encodings.sha256 call old.toFileSystem fs phase) :
    Kept old.toFileSystem fs := by
  intro path hpresent
  rcases (WriteValid.of_reaches hwrite hreaches).nodes path with hsame | ⟨hnone, -⟩
  · exact hsame
  · exact absurd hnone hpresent

/-- A temporary file of a checkpoint is hidden. -/
theorem hidden_of_isTemporary {manifest : CheckpointManifest} {name : String}
    (hname : (checkpointCall encodings root manifest).IsTemporary
      (checkpointDirectory root ++ [name])) : Hidden name := by
  obtain ⟨suffix, -, hpath⟩ := hname
  obtain rfl := List.singleton_inj.mp (List.append_cancel_left hpath)
  rw [Hidden, String.toList_append, String.toList_append, String.toList_append]
  rfl

/-- A path below the directory of the checkpoints is not one below `source`. -/
theorem ne_source {name : String} {below path : Path}
    (hsource : ∀ component ∈ path.head?, component = "source") :
    checkpointDirectory root ++ [name] ++ below ≠ root ++ path := by
  rw [checkpointDirectory, List.append_assoc, List.append_assoc]
  intro heq
  have hhead := hsource "checkpoints" (by rw [← List.append_cancel_left heq]; rfl)
  exact absurd hhead (by decide)

/-- What an operation changes in the directory of the checkpoints: its own checkpoint, and hidden
files. -/
theorem node_of_operation (hdigest : ∀ content, IsDigest (encodings.sha256 content))
    (hcall : operationCall encodings old.toFileSystem root operation = .ok call)
    (hreaches : Reaches encodings.sha256 call old.toFileSystem fs phase) (name : String) :
    fs.node (checkpointDirectory root ++ [name]) = old.node (checkpointDirectory root ++ [name]) ∨
      (old.node (checkpointDirectory root ++ [name]) = none ∧ (Hidden name ∨ ∃ manifest,
        Accepted encodings old.toFileSystem root manifest ∧
        checkpointDirectory root ++ [name] = call.target ∧
        name = checkpointName manifest.leaseEpoch manifest.sequence ∧
        fs.node (checkpointDirectory root ++ [name]) =
          some (.file (encodings.checkpointBytes manifest)))) := by
  have hvalid := WriteValid.of_reaches (write_of_operationCall hdigest hcall) hreaches
  rcases hvalid.nodes (checkpointDirectory root ++ [name]) with hsame | ⟨hnone, hnew⟩
  · exact Or.inl hsame
  · refine Or.inr ⟨hnone, ?_⟩
    rcases of_operationCall hdigest hcall with
      ⟨manifest, haccepted, rfl⟩ | ⟨file, content, hfile, rfl⟩
    · rcases hnew with ⟨htarget, hnode⟩ | ⟨hleading, -⟩ | htemporary
      · have hname := List.singleton_inj.mp (List.append_cancel_left htarget)
        exact Or.inr ⟨manifest, haccepted, htarget, hname, hnode⟩
      · refine absurd hleading (not_prefix_of_length ?_)
        rw [List.length_append, List.length_singleton]
        rfl
      · exact Or.inl (hidden_of_isTemporary (hvalid.valid.temporary htemporary).1)
    · have hsource : ∀ component ∈ (ArtifactPaths.components file).head?, component = "source" := by
        rw [hfile.source]
        exact fun _ hmem ↦ (Option.some.inj hmem).symm
      rcases hnew with ⟨htarget, -⟩ | ⟨⟨below, hbelow⟩, -⟩ | htemporary
      · rw [target_artifactCall, ← List.append_nil (checkpointDirectory root ++ [name])] at htarget
        exact absurd htarget (ne_source hsource)
      · rw [parent_artifactCall] at hbelow
        refine absurd hbelow (ne_source fun component hmem ↦ hsource component ?_)
        rw [List.head?_dropLast] at hmem
        split_ifs at hmem
        · exact hmem
        · cases hmem
      · obtain ⟨temporary, hpath, -, hperiod⟩ :=
          of_isTemporary (hvalid.valid.temporary htemporary).1
        rw [← List.append_assoc] at hpath
        rw [List.singleton_inj.mp (List.append_inj' hpath rfl).2]
        exact Or.inl hperiod

end Operations

/-! ### Chains -/

section Chains

variable {encodings : CheckpointEncodings} {root : Path} {fs next : FileSystem} {epoch : ℕ}
  {chain : List CheckpointManifest}

/-- The checkpoints of an epoch, from the first to the last. -/
structure Chain (encodings : CheckpointEncodings) (root : Path) (fs : FileSystem) (epoch : ℕ)
    (chain : List CheckpointManifest) : Prop where
  /-- They are numbered from one, and each is in its file. -/
  stored : ∀ index manifest, chain[index]? = some manifest →
    manifest.leaseEpoch = epoch ∧ manifest.sequence = index + 1 ∧
      fs.node (checkpointPath root epoch (index + 1)) =
        some (.file (encodings.checkpointBytes manifest))
  /-- Each names the hash of the one before it. -/
  linked : ∀ index predecessor manifest, chain[index]? = some predecessor →
    chain[index + 1]? = some manifest →
      manifest.predecessorCheckpointHash = some predecessor.checkpointManifestHash
  /-- There are no others. -/
  complete : ∀ sequence, fs.node (checkpointPath root epoch sequence) ≠ none →
    1 ≤ sequence ∧ sequence ≤ chain.length
  /-- The store finds exactly their numbers. -/
  found : ∀ sequence, sequence ∈ checkpointSequences fs (checkpointDirectory root) epoch ↔
    1 ≤ sequence ∧ sequence ≤ chain.length

/-- The directory of the checkpoints holds checkpoints and hidden files. -/
def Named (root : Path) (fs : FileSystem) : Prop :=
  ∀ name, fs.node (checkpointDirectory root ++ [name]) ≠ none →
    Hidden name ∨ ∃ epoch sequence, name = checkpointName epoch sequence

/-- What the store finds, when every number is that of a file. -/
theorem found_of_stored (htree : fs.Tree) (hnamed : Named root fs)
    (hstored : ∀ sequence, 1 ≤ sequence ∧ sequence ≤ chain.length →
      ∃ content, fs.node (checkpointPath root epoch sequence) = some (.file content))
    (hcomplete : ∀ sequence, fs.node (checkpointPath root epoch sequence) ≠ none →
      1 ≤ sequence ∧ sequence ≤ chain.length) (sequence : ℕ) :
    sequence ∈ checkpointSequences fs (checkpointDirectory root) epoch ↔
      1 ≤ sequence ∧ sequence ≤ chain.length := by
  rw [mem_checkpointSequences htree]
  constructor
  · rintro ⟨name, content, hnode, hread⟩
    have hpresent : fs.node (checkpointDirectory root ++ [name]) ≠ none := by
      rw [hnode]
      exact Option.some_ne_none _
    rcases hnamed name hpresent with hhidden | ⟨other, number, rfl⟩
    · exact absurd hread (readSequence_of_hidden hhidden)
    · obtain ⟨rfl, rfl⟩ := readSequence_checkpointName.mp hread
      exact hcomplete _ hpresent
  · intro hsequence
    obtain ⟨content, hnode⟩ := hstored sequence hsequence
    exact ⟨_, content, hnode, readSequence_self _ _⟩

theorem Chain.file (hchain : Chain encodings root fs epoch chain) {sequence : ℕ}
    (hsequence : 1 ≤ sequence ∧ sequence ≤ chain.length) : ∃ manifest,
      chain[sequence - 1]? = some manifest ∧ fs.node (checkpointPath root epoch sequence) =
        some (.file (encodings.checkpointBytes manifest)) := by
  have hindex : sequence - 1 < chain.length := by omega
  have hmanifest := List.getElem?_eq_getElem hindex
  have hnode := (hchain.stored _ _ hmanifest).2.2
  rw [Nat.sub_add_cancel hsequence.1] at hnode
  exact ⟨_, hmanifest, hnode⟩

/-- The chain of an epoch whose files are as they were. -/
theorem Chain.kept (hchain : Chain encodings root fs epoch chain) (htree : next.Tree)
    (hnamed : Named root next) (hsame : ∀ sequence, next.node (checkpointPath root epoch sequence) =
      fs.node (checkpointPath root epoch sequence)) : Chain encodings root next epoch chain := by
  have hcomplete : ∀ sequence, next.node (checkpointPath root epoch sequence) ≠ none →
      1 ≤ sequence ∧ sequence ≤ chain.length := by
    intro sequence hpresent
    rw [hsame] at hpresent
    exact hchain.complete sequence hpresent
  refine ⟨fun index manifest hmanifest ↦ ?_, hchain.linked, hcomplete,
    found_of_stored htree hnamed (fun sequence hsequence ↦ ?_) hcomplete⟩
  · rw [hsame]
    exact hchain.stored index manifest hmanifest
  · obtain ⟨manifest, -, hnode⟩ := hchain.file hsequence
    exact ⟨_, by rw [hsame, hnode]⟩

/-- A checkpoint that is accepted when it is not there follows the last one of its epoch. -/
theorem sequence_of_accepted {manifest : CheckpointManifest}
    (haccepted : Accepted encodings fs root manifest)
    (hchain : Chain encodings root fs manifest.leaseEpoch chain)
    (habsent : fs.node (checkpointPath root manifest.leaseEpoch manifest.sequence) = none) :
    manifest.sequence = chain.length + 1 := by
  have hsequence := haccepted.sequence
  rw [checkSequence] at hsequence
  split_ifs at hsequence with hother
  rw [not_and, not_not] at hother
  rw [hother habsent, expectedSequence_eq hchain.found]

/-- It names the hash of that one. -/
theorem predecessor_of_accepted {manifest predecessor : CheckpointManifest}
    (hcodec : ∀ manifest, (encodings.validateCheckpoint (encodings.checkpointBytes manifest)).map
      CheckpointManifest.checkpointManifestHash = some manifest.checkpointManifestHash)
    (haccepted : Accepted encodings fs root manifest)
    (hnode : fs.node (checkpointPath root manifest.leaseEpoch (manifest.sequence - 1)) =
      some (.file (encodings.checkpointBytes predecessor))) (hlater : 1 < manifest.sequence) :
    manifest.predecessorCheckpointHash = some predecessor.checkpointManifestHash := by
  have hpredecessor := haccepted.predecessor
  rw [checkPredecessor, if_pos hlater] at hpredecessor
  dsimp only at hpredecessor
  rw [hnode] at hpredecessor
  dsimp only at hpredecessor
  obtain ⟨read, hread, hhash⟩ := Option.map_eq_some_iff.mp (hcodec predecessor)
  rw [hread] at hpredecessor
  dsimp only at hpredecessor
  split_ifs at hpredecessor with hother
  rw [← not_not.mp hother, hhash]

/-- The chain of an epoch to which a checkpoint is added. -/
theorem Chain.snoc {manifest : CheckpointManifest}
    (hcodec : ∀ manifest, (encodings.validateCheckpoint (encodings.checkpointBytes manifest)).map
      CheckpointManifest.checkpointManifestHash = some manifest.checkpointManifestHash)
    (haccepted : Accepted encodings fs root manifest)
    (hchain : Chain encodings root fs manifest.leaseEpoch chain) (htree : next.Tree)
    (hnamed : Named root next)
    (habsent : fs.node (checkpointPath root manifest.leaseEpoch manifest.sequence) = none)
    (hnew : next.node (checkpointPath root manifest.leaseEpoch manifest.sequence) =
      some (.file (encodings.checkpointBytes manifest)))
    (hsame : ∀ sequence, sequence ≠ manifest.sequence →
      next.node (checkpointPath root manifest.leaseEpoch sequence) =
        fs.node (checkpointPath root manifest.leaseEpoch sequence)) :
    Chain encodings root next manifest.leaseEpoch (chain ++ [manifest]) := by
  have hsequence := sequence_of_accepted haccepted hchain habsent
  have hlength : (chain ++ [manifest]).length = chain.length + 1 := List.length_append
  have hcomplete : ∀ sequence, next.node (checkpointPath root manifest.leaseEpoch sequence) ≠ none →
      1 ≤ sequence ∧ sequence ≤ (chain ++ [manifest]).length := by
    intro sequence hpresent
    by_cases hlast : sequence = manifest.sequence
    · omega
    · rw [hsame sequence hlast] at hpresent
      have hbound := hchain.complete sequence hpresent
      omega
  refine ⟨fun index stored hstored ↦ ?_, fun index predecessor later hpredecessor hlater ↦ ?_,
    hcomplete, found_of_stored htree hnamed (fun sequence hbound ↦ ?_) hcomplete⟩
  · rcases Nat.lt_trichotomy index chain.length with hindex | rfl | hindex
    · rw [List.getElem?_append_left hindex] at hstored
      rw [hsame _ (by omega)]
      exact hchain.stored index stored hstored
    · rw [List.getElem?_concat_length, Option.some.injEq] at hstored
      rw [← hstored, ← hsequence]
      exact ⟨rfl, rfl, hnew⟩
    · rw [List.getElem?_eq_none (by omega)] at hstored
      cases hstored
  · rcases Nat.lt_trichotomy (index + 1) chain.length with hindex | hindex | hindex
    · rw [List.getElem?_append_left (by omega)] at hpredecessor
      rw [List.getElem?_append_left hindex] at hlater
      exact hchain.linked index predecessor later hpredecessor hlater
    · rw [List.getElem?_append_left (by omega)] at hpredecessor
      rw [hindex, List.getElem?_concat_length, Option.some.injEq] at hlater
      subst hlater
      refine predecessor_of_accepted hcodec haccepted ?_ (by omega)
      have hnode := (hchain.stored index predecessor hpredecessor).2.2
      rwa [hindex, ← Nat.add_sub_cancel chain.length 1, ← hsequence] at hnode
    · rw [List.getElem?_eq_none (by omega)] at hlater
      cases hlater
  · by_cases hlast : sequence = manifest.sequence
    · exact ⟨_, by rw [hlast, hnew]⟩
    · obtain ⟨stored, -, hnode⟩ := hchain.file ⟨hbound.1, (by omega : sequence ≤ chain.length)⟩
      exact ⟨_, by rw [hsame sequence hlast, hnode]⟩

end Chains

/-! ### Runs -/

section Runs

variable {encodings : CheckpointEncodings} {root : Path} {start : FileTree} {fs next : FileSystem}
  {label : StoreOperation × Outcome}

/-- What holds of a store in every reachable state. -/
structure StoreValid (encodings : CheckpointEncodings) (root : Path) (fs : FileSystem) : Prop where
  sound : fs.Sound
  rooted : fs.node [] = some .directory
  tree : fs.Tree
  named : Named root fs
  chains : ∀ epoch, ∃ chain, Chain encodings root fs epoch chain

/-- The file system of a store. -/
def StoreValid.fileTree (hvalid : StoreValid encodings root fs) : FileTree :=
  ⟨fs, hvalid.sound, hvalid.rooted, hvalid.tree⟩

/-- A store without checkpoints. -/
theorem StoreValid.new (hnew : ∀ name, start.node (checkpointDirectory root ++ [name]) = none) :
    StoreValid encodings root start.toFileSystem := by
  refine ⟨start.sound, start.rooted, start.tree, fun name hpresent ↦ absurd (hnew name) hpresent,
    fun epoch ↦ ⟨[], nofun, nofun, fun sequence hpresent ↦ absurd (hnew _) hpresent, ?_⟩⟩
  refine found_of_stored start.tree (fun name hpresent ↦ absurd (hnew name) hpresent)
    (fun sequence hbound ↦ ?_) fun sequence hpresent ↦ absurd (hnew _) hpresent
  rw [List.length_nil] at hbound
  omega

/-- The write of an operation, up to any of its steps. -/
theorem StoreValid.of_reaches (hvalid : StoreValid encodings root fs)
    (hdigest : ∀ content, IsDigest (encodings.sha256 content))
    (hcodec : ∀ manifest, (encodings.validateCheckpoint (encodings.checkpointBytes manifest)).map
      CheckpointManifest.checkpointManifestHash = some manifest.checkpointManifestHash)
    {operation : StoreOperation} {call : Call} {phase : Phase}
    (hcall : operationCall encodings fs root operation = .ok call)
    (hreaches : Reaches encodings.sha256 call fs next phase) : StoreValid encodings root next := by
  have hwrite := write_of_operationCall hdigest hcall
  have hreached : Reaches encodings.sha256 call hvalid.fileTree.toFileSystem next phase := hreaches
  have hwritten := WriteValid.of_reaches hwrite hreached
  have hnode := fun name ↦ node_of_operation hdigest hcall hreached name
  have hnamed : Named root next := by
    intro name hpresent
    rcases hnode name with hsame | ⟨-, hhidden | ⟨manifest, -, -, hname, -⟩⟩
    · rw [hsame] at hpresent
      exact hvalid.named name hpresent
    · exact Or.inl hhidden
    · exact Or.inr ⟨_, _, hname⟩
  refine ⟨hwritten.sound, hwritten.rooted, hwritten.tree, hnamed, fun epoch ↦ ?_⟩
  obtain ⟨chain, hchain⟩ := hvalid.chains epoch
  by_cases hsame : ∀ sequence, next.node (checkpointPath root epoch sequence) =
      fs.node (checkpointPath root epoch sequence)
  · exact ⟨chain, hchain.kept hwritten.tree hnamed hsame⟩
  · obtain ⟨sequence, hchanged⟩ := not_forall.mp hsame
    rcases hnode (checkpointName epoch sequence) with
      hkeep | ⟨hnone, hhidden | ⟨manifest, haccepted, htarget, hname, hnew⟩⟩
    · exact absurd hkeep hchanged
    · exact absurd hhidden (not_hidden_checkpointName _ _)
    · obtain ⟨rfl, rfl⟩ := checkpointName_inj hname
      refine ⟨chain ++ [manifest], hchain.snoc hcodec haccepted hwritten.tree hnamed hnone hnew
        fun other hother ↦ ?_⟩
      rcases hnode (checkpointName manifest.leaseEpoch other) with
        hkeep | ⟨-, hhidden | ⟨-, -, hsecond, -⟩⟩
      · exact hkeep
      · exact absurd hhidden (not_hidden_checkpointName _ _)
      · exact absurd (checkpointPath_inj (hsecond.trans htarget.symm)).2 hother

theorem StoreValid.step (hvalid : StoreValid encodings root fs)
    (hdigest : ∀ content, IsDigest (encodings.sha256 content))
    (hcodec : ∀ manifest, (encodings.validateCheckpoint (encodings.checkpointBytes manifest)).map
      CheckpointManifest.checkpointManifestHash = some manifest.checkpointManifestHash)
    (hstep : Operates encodings root fs label next) : StoreValid encodings root next := by
  cases hstep with
  | refuse => exact hvalid
  | raise hcall hreaches | ret hcall hreaches | interrupt hcall hreaches =>
    exact hvalid.of_reaches hdigest hcodec hcall hreaches

theorem StoreValid.run (hvalid : StoreValid encodings root fs)
    (hdigest : ∀ content, IsDigest (encodings.sha256 content))
    (hcodec : ∀ manifest, (encodings.validateCheckpoint (encodings.checkpointBytes manifest)).map
      CheckpointManifest.checkpointManifestHash = some manifest.checkpointManifestHash)
    {labels : List (StoreOperation × Outcome)} (hrun : Run (Operates encodings root) fs labels next) :
    StoreValid encodings root next :=
  hrun.invariant hvalid fun _ _ _ hstate hstep ↦ hstate.step hdigest hcodec hstep

/-- No file of a valid store is changed. -/
theorem StoreValid.kept (hvalid : StoreValid encodings root fs)
    (hdigest : ∀ content, IsDigest (encodings.sha256 content))
    (hstep : Operates encodings root fs label next) : Kept fs next := by
  cases hstep with
  | refuse => exact Kept.refl fs
  | raise hcall hreaches | ret hcall hreaches | interrupt hcall hreaches =>
    have hreached : Reaches encodings.sha256 _ hvalid.fileTree.toFileSystem next _ := hreaches
    exact kept_of_reaches (write_of_operationCall hdigest hcall) hreached

theorem StoreValid.kept_run (hvalid : StoreValid encodings root fs)
    (hdigest : ∀ content, IsDigest (encodings.sha256 content))
    (hcodec : ∀ manifest, (encodings.validateCheckpoint (encodings.checkpointBytes manifest)).map
      CheckpointManifest.checkpointManifestHash = some manifest.checkpointManifestHash)
    {labels : List (StoreOperation × Outcome)} (hrun : Run (Operates encodings root) fs labels next) :
    Kept fs next := by
  induction hrun with
  | nil => exact Kept.refl fs
  | snoc hrun hstep ih =>
    exact ih.trans ((hvalid.run hdigest hcodec hrun).kept hdigest hstep)

/-- An operation is refused, or raises an error. -/
def Outcome.Refusal : Outcome → Prop
  | .refused _ | .raised _ => True
  | _ => False

/-- An operation that is refused or raises an error leaves everything as it was. -/
theorem StoreValid.node_of_refusal (hvalid : StoreValid encodings root fs)
    (hdigest : ∀ content, IsDigest (encodings.sha256 content))
    (hstep : Operates encodings root fs label next) (hrefusal : Outcome.Refusal label.2)
    (path : Path) : next.node path = fs.node path := by
  cases hstep with
  | refuse => rfl
  | raise hcall hreaches =>
    have hreached : Reaches encodings.sha256 _ hvalid.fileTree.toFileSystem next _ := hreaches
    exact node_of_raised (write_of_operationCall hdigest hcall) hreached path
  | ret | interrupt => exact hrefusal.elim

/-- An append of a checkpoint is accepted, comes to an end, and says at every end that it created
nothing and leaves everything as it was. -/
structure Repeats (encodings : CheckpointEncodings) (root : Path) (manifest : CheckpointManifest)
    (fs : FileSystem) : Prop where
  succeeds : ∃ call, operationCall encodings fs root (.append manifest) = .ok call ∧
    Succeeds encodings.sha256 call fs
  effectless : ∀ outcome next, Operates encodings root fs (.append manifest, outcome) next →
    outcome = .interrupted ∨ ((∃ result, outcome = .returned result ∧ result.created = false) ∧
      ∀ path, next.node path = fs.node path)

/-- An append that returned can be repeated as long as the files are kept. -/
theorem StoreValid.repeats (hvalid : StoreValid encodings root fs)
    (hdigest : ∀ content, IsDigest (encodings.sha256 content)) {manifest : CheckpointManifest}
    {result : AtomicWriteResult} {later : FileSystem} (hlater : StoreValid encodings root later)
    (hstep : Operates encodings root fs (.append manifest, .returned result) next)
    (hkept : Kept next later) : Repeats encodings root manifest later := by
  have hbefore := (hvalid.kept hdigest hstep).trans hkept
  cases hstep with
  | ret hcall hreaches =>
    obtain ⟨haccepted, rfl⟩ := appendCheckpoint_eq_ok.mp hcall
    have hwritten : WriteValid encodings.sha256 (checkpointCall encodings root manifest)
        hvalid.fileTree.toFileSystem next (.returned result) := WriteValid.of_reaches rfl hreaches
    have hlanded : Landed encodings.sha256 (checkpointCall encodings root manifest) later := by
      obtain ⟨content, hnode, hsame⟩ := hwritten.landed rfl
      exact ⟨content, hkept.node hnode, hsame⟩
    have haccepts : operationCall encodings later root (.append manifest) =
        .ok (checkpointCall encodings root manifest) := by
      refine appendCheckpoint_eq_ok.mpr ⟨⟨haccepted.hash,
        verifySourceEntries_of_kept hbefore haccepted.entries, ?_,
        checkPredecessor_of_kept hbefore haccepted.predecessor⟩, rfl⟩
      rw [checkSequence, if_neg]
      exact fun hboth ↦ hlanded.ne_none hboth.1
    have hfree : Unobstructed encodings.sha256 (checkpointCall encodings root manifest)
        hlater.fileTree.toFileSystem := by
      refine ⟨rfl, fun base ⟨rest, hrest⟩ ↦ Or.inr ?_, Or.inr hlanded⟩
      have hbelow :
          later.node (base ++ (rest ++ [(checkpointCall encodings root manifest).name])) ≠ none := by
        rw [← List.append_assoc, hrest]
        exact hlanded.ne_none
      exact hlater.tree.directory (by simp) hbelow
    refine ⟨⟨_, haccepts, succeeds_of_unobstructed hfree⟩, fun outcome after hrepeat ↦ ?_⟩
    have hreturns := (succeeds_of_unobstructed hfree).2
    cases hrepeat with
    | refuse hrefused =>
      rw [haccepts] at hrefused
      cases hrefused
    | raise hagain hraised =>
      rw [haccepts] at hagain
      cases hagain
      obtain ⟨result, hresult⟩ := hreturns _ _ hraised rfl
      cases hresult
    | ret hagain hreturned =>
      rw [haccepts] at hagain
      cases hagain
      have hreached : Reaches encodings.sha256 (checkpointCall encodings root manifest)
          hlater.fileTree.toFileSystem after _ := hreturned
      refine Or.inr ⟨⟨_, rfl, ?_⟩, fun path ↦ ?_⟩
      · exact created_of_present rfl hlanded.ne_none hreached
      · exact node_of_present (WriteValid.of_reaches rfl hreached) hlanded.ne_none nofun
    | interrupt => exact Or.inl rfl

/-- In a run of operations on a store that holds no checkpoint at first, the checkpoints of every
epoch are a chain that is appended only, what is refused changes nothing, and what returned can be
repeated without an effect. -/
theorem chained_of_run (hdigest : ∀ content, IsDigest (encodings.sha256 content))
    (hcodec : ∀ manifest, (encodings.validateCheckpoint (encodings.checkpointBytes manifest)).map
      CheckpointManifest.checkpointManifestHash = some manifest.checkpointManifestHash)
    (hnew : ∀ name, start.node (checkpointDirectory root ++ [name]) = none)
    {labels : List (StoreOperation × Outcome)}
    (hrun : Run (Operates encodings root) start.toFileSystem labels fs) :
    (∀ epoch, ∃ chain, Chain encodings root fs epoch chain) ∧
      (∀ more later, Run (Operates encodings root) fs more later → ∀ epoch sequence,
        fs.node (checkpointPath root epoch sequence) ≠ none →
          later.node (checkpointPath root epoch sequence) =
            fs.node (checkpointPath root epoch sequence)) ∧
      (∀ label next, Operates encodings root fs label next → Outcome.Refusal label.2 →
        ∀ path, next.node path = fs.node path) ∧
      ∀ manifest result next,
        Operates encodings root fs (.append manifest, .returned result) next →
        ∀ more later, Run (Operates encodings root) next more later →
          Repeats encodings root manifest later := by
  have hvalid := (StoreValid.new hnew).run hdigest hcodec hrun
  refine ⟨hvalid.chains, fun more later hmore epoch sequence hpresent ↦ ?_, fun label next hstep
    hrefusal path ↦ hvalid.node_of_refusal hdigest hstep hrefusal path, fun manifest result next
    hstep more later hmore ↦ ?_⟩
  · exact hvalid.kept_run hdigest hcodec hmore _ hpresent
  · have hnext := hvalid.step hdigest hcodec hstep
    exact hvalid.repeats hdigest (hnext.run hdigest hcodec hmore) hstep
      (hnext.kept_run hdigest hcodec hmore)

end Runs

/-! ### A first checkpoint -/

/-- The hash of the checkpoint. -/
def sampleHash : String := "9cce505299b41257c32fa9159099fa61c1dd0ce642f9a2918ca12d60792acc6b"

theorem isDigest_sampleHash : IsDigest sampleHash := by decide

/-- A checkpoint without source files, with a hash. -/
def sampleCheckpoint (hash : String) (hdigest : IsDigest hash) : CheckpointManifest where
  runId := "r"
  leaseRecordHash := sampleSpecHash
  leaseEpoch := 1
  sequence := 1
  predecessorCheckpointHash := none
  sourceEntries := []
  createdAt := 0
  checkpointManifestHash := hash
  named := by decide
  digests := ⟨hdigest, by decide, nofun⟩
  positive := by decide
  first _ := rfl
  later hlater := absurd hlater (by decide)
  entries := nofun
  paths := List.nodup_nil

/-- The text of a checkpoint before its hash. -/
def hashLead : String := "\x7b\"checkpoint_manifest_hash\":\""

/-- The text of the checkpoint after its hash. -/
def hashTail : String := "\",\"created_at\":\"1970-01-01T00:00:00+00:00\",\"lease_epoch\":1," ++
  "\"lease_record_hash\":\"" ++ sampleSpecHash ++ "\",\"predecessor_checkpoint_hash\":null," ++
  "\"run_id\":\"r\",\"schema_name\":\"checkpoint_manifest\",\"schema_version\":1," ++
  "\"sequence\":1,\"source_entries\":[]\x7d"

/-- The encodings of a store that keeps the checkpoint. -/
def sampleCheckpoints : CheckpointEncodings where
  toEncodings := sampleEncodings
  fieldsSha256 _ := sampleHash
  checkpointBytes manifest := encodeText (hashLead ++ manifest.checkpointManifestHash ++ hashTail)
  validateCheckpoint content :=
    match decodeText content with
    | none => none
    | some text =>
      let hash := String.ofList ((text.toList.drop hashLead.toList.length).take 64)
      if hdigest : IsDigest hash then some (sampleCheckpoint hash hdigest) else none

/-- The hash of a checkpoint is read back. -/
theorem validateCheckpoint_sample (manifest : CheckpointManifest) :
    (sampleCheckpoints.validateCheckpoint (sampleCheckpoints.checkpointBytes manifest)).map
      CheckpointManifest.checkpointManifestHash = some manifest.checkpointManifestHash := by
  have hdigest := manifest.digests.1
  have htake : manifest.checkpointManifestHash.toList.take 64 =
    manifest.checkpointManifestHash.toList := List.take_of_length_le hdigest.1.le
  simp only [sampleCheckpoints, decodeText_encodeText, String.toList_append, List.append_assoc,
    List.drop_left, List.take_append_of_le_length hdigest.1.ge, htake, String.ofList_toList,
    dif_pos hdigest]
  rfl

/-- The append of the checkpoint to an empty store. -/
theorem chained_of_sampleCheckpoint : ∃ result fs,
    Run (Operates sampleCheckpoints []) FileTree.empty.toFileSystem
      [(.append (sampleCheckpoint sampleHash isDigest_sampleHash), .returned result)] fs ∧
    ∀ epoch, ∃ chain, Chain sampleCheckpoints [] fs epoch chain := by
  have haccepted : Accepted sampleCheckpoints FileTree.empty.toFileSystem []
    (sampleCheckpoint sampleHash isDigest_sampleHash) := ⟨rfl, rfl, rfl, rfl⟩
  have hcall : operationCall sampleCheckpoints FileTree.empty.toFileSystem []
      (.append (sampleCheckpoint sampleHash isDigest_sampleHash)) =
        .ok (checkpointCall sampleCheckpoints []
          (sampleCheckpoint sampleHash isDigest_sampleHash)) :=
    appendCheckpoint_eq_ok.mpr ⟨haccepted, rfl⟩
  have hfree : Unobstructed sampleCheckpoints.sha256 (checkpointCall sampleCheckpoints []
      (sampleCheckpoint sampleHash isDigest_sampleHash)) FileTree.empty.toFileSystem := by
    refine ⟨rfl, fun base hbase ↦ ?_, Or.inl rfl⟩
    by_cases hroot : base = []
    · exact Or.inr (by rw [hroot]; rfl)
    · rw [node_eq_none]
      exact Or.inl ((Dictionary.lookup_insert_eq_ite _ _ _ _).trans (if_neg hroot))
  obtain ⟨⟨fs, phase, hreaches, hended⟩, hreturns⟩ := succeeds_of_unobstructed hfree
  obtain ⟨result, rfl⟩ := hreturns fs phase hreaches hended
  have hrun : Run (Operates sampleCheckpoints []) FileTree.empty.toFileSystem
      [(.append (sampleCheckpoint sampleHash isDigest_sampleHash), .returned result)] fs :=
    Run.nil.snoc (.ret hcall hreaches)
  exact ⟨result, fs, hrun,
    (chained_of_run hashes_sample.1 validateCheckpoint_sample (fun _ ↦ rfl) hrun).1⟩

end Oamb.Artifacts.CheckpointGuarantees
