import Oamb.Artifacts.CapsuleVerification

/-!
# Publication and verification agree

`publicationAgrees_iff` says when a publication that may have been interrupted is repaired by
re-running it: the names of its files have no line boundary, since the checksum file is split at more
characters than it is written with, and no attempt left a temporary file behind, since nothing removes
it.
-/

set_option autoImplicit false

namespace Oamb.Artifacts.CapsuleGuarantees

open Foundation Foundation.TextLines
open ArtifactPaths AtomicPublication CapsulePublication CapsuleVerification WriteSequences

variable {sha256 : Bytes → String} {publication : Publication} {calls : List Call}
  {stops : List (Option Path)} {start : FileTree} {middle fs : FileSystem}

/-- The entries that a checksum file lists are the files of the directory. -/
structure Indexed (sha256 : Bytes → String) (fs : FileSystem) (directory : Path)
    (markerName : String) (entries : List (String × String)) : Prop where
  checksums : ∃ content text, fs.node (directory ++ [checksumsName]) = some (.file content) ∧
    decodeText content = some text ∧ readLines text.toList = entries.map checksumLine
  marker : markerName ∈ entries.map Prod.fst
  digests : ∀ entry ∈ entries, ∃ content,
    fs.node (directory ++ ArtifactPaths.components entry.1) = some (.file content) ∧
      sha256 content = entry.2
  files : ∀ path content, path ≠ [] → fs.node (directory ++ path) = some (.file content) →
    path = [checksumsName] ∨ posix path ∈ entries.map Prod.fst

/-- A publication and its verification agree after some attempts at the publication. -/
structure PublicationAgrees (sha256 : Bytes → String) (publication : Publication)
    (calls : List Call) (middle : FileSystem) : Prop where
  /-- The publication can be re-run, and comes to its end when it is not interrupted. -/
  reruns : requirePublicationContainment middle publication = .ok () ∧
    Completes sha256 middle calls
  /-- Then the directory verifies. -/
  verifies : ∀ next, Writes sha256 middle calls next →
    verifyPublishedDirectory sha256 next publication.directory publication.markerName = .ok ()
  /-- Wherever it is interrupted without its marker, the directory does not verify. -/
  unmarked : ∀ next stop, Stops sha256 middle calls next stop →
    next.node (publication.directory ++ [publication.markerName]) = none →
    verifyPublishedDirectory sha256 next publication.directory publication.markerName ≠ .ok ()
  /-- A directory that verifies has the files of its checksum file, and no others. -/
  exact : ∀ other directory markerName,
    verifyPublishedDirectory sha256 other directory markerName = .ok () →
    ∃ entries, Indexed sha256 other directory markerName entries

theorem indexed_of_verify {directory : Path} {markerName : String}
    (hverify : verifyPublishedDirectory sha256 fs directory markerName = .ok ()) :
    ∃ entries, Indexed sha256 fs directory markerName entries := by
  obtain ⟨-, indexed, hread, hmarker, hcommitted⟩ := of_verifyPublishedDirectory hverify
  obtain ⟨content, text, entries, hnode, htext, hlines, rfl, hentries⟩ := of_readIndex hread
  refine ⟨entries, ⟨content, text, hnode, htext, hlines⟩, hmarker,
    fun entry hentry ↦ (hentries entry hentry).2, fun path content hne hfile ↦ ?_⟩
  by_cases hchecksums : path = [checksumsName]
  · exact Or.inl hchecksums
  · exact Or.inr ((hcommitted _).mp
      (mem_committedFiles.mpr ⟨path, content, hne, hchecksums, hfile, rfl⟩))

/-- A name that is written is a single line when the directory verifies. -/
theorem singleLines_of_verify (haccepted : Accepted sha256 publication calls)
    (hlanded : ∀ call ∈ calls, Landed sha256 call fs)
    (hverify : verifyPublishedDirectory sha256 fs publication.directory publication.markerName =
      .ok ()) : SingleLines publication := by
  obtain ⟨-, indexed, hread, -, hcommitted⟩ := of_verifyPublishedDirectory hverify
  obtain ⟨-, text, entries, -, -, hlines, rfl, -⟩ := of_readIndex hread
  have hname {entry : String × String}
      (hentry : entry ∈ checksumEntries sha256 publication (sortedPayloads publication)) :
      OneLine entry.1.toList := by
    obtain ⟨-, content, hnode, -⟩ := matches_of_landed haccepted hlanded hentry
    have hmem : entry.1 ∈ committedFiles fs publication.directory := by
      refine mem_committedFiles.mpr
        ⟨_, content, components_ne_nil _, fun heq ↦ ?_, hnode, posix_components _⟩
      refine haccepted.checksumsName_notMem (List.mem_map.mpr ⟨entry, hentry, ?_⟩)
      rw [← posix_components entry.1, heq]
      decide
    obtain ⟨other, hother, hsame⟩ := List.mem_map.mp ((hcommitted _).mp hmem)
    rw [← hsame]
    have hline : checksumLine other ∈ readLines text.toList := by
      rw [hlines]
      exact List.mem_map_of_mem hother
    exact oneLine_of_checksumLine (oneLine_of_mem_readLines hline)
  refine ⟨fun name hmem ↦ ?_, hname (mem_checksumEntries.mpr (Or.inr rfl))⟩
  obtain ⟨item, hitem, rfl⟩ := List.mem_map.mp (AList.mem_keys.mp hmem)
  exact hname (mem_checksumEntries.mpr
    (Or.inl ⟨_, mem_sortByName.mpr (List.mem_map_of_mem hitem), rfl⟩))

/-- A temporary file that was left is one of the files of the publication when the directory
verifies. -/
theorem harmless_of_verify (haccepted : Accepted sha256 publication calls)
    (hempty : EmptyDirectory start.toFileSystem publication.directory)
    (hdigest : ∀ content, IsDigest (sha256 content))
    (hchanged : Changed calls stops start.toFileSystem fs)
    (hlanded : ∀ call ∈ calls, Landed sha256 call fs)
    (hverify : verifyPublishedDirectory sha256 fs publication.directory publication.markerName =
      .ok ()) {path : Path} (hpath : some path ∈ stops) : Harmless sha256 calls fs path := by
  have hnames := singleLines_of_verify haccepted hlanded hverify
  obtain ⟨⟨call, hcall, hname⟩, content, hnode⟩ := hchanged.left path hpath
  obtain ⟨written, -, rfl⟩ := haccepted.mem_calls.mp hcall
  obtain ⟨temporary, rfl, hplain, hperiod⟩ := of_isTemporary hname
  have hne := List.concat_ne_nil temporary (ArtifactPaths.components written.1).dropLast
  have hother := ne_checksumsName (ArtifactPaths.components written.1).dropLast hperiod
  obtain ⟨-, indexed, hread, -, hcommitted⟩ := of_verifyPublishedDirectory hverify
  have hindex := readIndex_of_changed haccepted hempty hdigest hnames hchanged hlanded
  have hmem := (hcommitted _).mp
    (mem_committedFiles.mpr ⟨_, content, hne, hother, hnode, rfl⟩)
  rw [Except.ok.inj (hread.symm.trans hindex)] at hmem
  obtain ⟨entry, hentry, hposix⟩ := List.mem_map.mp hmem
  obtain ⟨file, hfile, -, rfl⟩ := haccepted.mem_entries.mp hentry
  have hpublished := haccepted.mem_calls.mpr ⟨file, hfile, rfl⟩
  refine ⟨_, hpublished, ?_, hlanded _ hpublished⟩
  rw [target_artifactCall, show file.1 = posix _ from hposix, components_posix hplain hne]

/-- Re-running an interrupted publication repairs it exactly if the names of its files are single
lines and the attempts left no temporary file, except for one that is a file of the publication and
has its content. -/
theorem publicationAgrees_iff (hdigest : ∀ content, IsDigest (sha256 content))
    (hcalls : publicationCalls sha256 publication = .ok calls)
    (hempty : EmptyDirectory start.toFileSystem publication.directory)
    (hwrites : Writes sha256 start.toFileSystem calls fs)
    (hattempts : Attempts sha256 calls start.toFileSystem stops middle) :
    PublicationAgrees sha256 publication calls middle ↔
      SingleLines publication ∧ ∀ path, some path ∈ stops → Harmless sha256 calls middle path := by
  have haccepted := Accepted.of_publicationCalls hcalls
  have hwrite : ∀ call ∈ calls, call.operation = .write := fun _ hcall ↦ haccepted.write hcall
  have hcompatible := Compatible.of_writes hwrite hwrites
  have hmiddle := Changed.of_attempts hwrite hattempts
  have hnext {next : FileSystem} (hrerun : Writes sha256 middle calls next) :
      Changed calls [] middle next ∧ Changed calls stops start.toFileSystem next ∧
        ∀ call ∈ calls, Landed sha256 call next := by
    obtain ⟨hchanged, hlanded⟩ := Changed.of_writes hmiddle.fileTree rfl hwrite hrerun
    refine ⟨hchanged, (hmiddle.trans hchanged).mono (fun call hmem ↦ ?_) fun path ↦ ?_, hlanded⟩
    · exact (List.mem_append.mp hmem).elim id id
    · rw [List.append_nil]
  constructor
  · intro hagrees
    obtain ⟨next, hrerun⟩ := hagrees.reruns.2.exists_writes
    obtain ⟨hchanged, hall, hlanded⟩ := hnext hrerun
    have hverify := hagrees.verifies next hrerun
    refine ⟨singleLines_of_verify haccepted hlanded hverify, fun path hpath ↦ ?_⟩
    obtain ⟨-, content, hnode⟩ := hmiddle.left path hpath
    obtain ⟨call, hcall, rfl, hsame⟩ :=
      harmless_of_verify haccepted hempty hdigest hall hlanded hverify hpath
    rw [Landed, hchanged.kept (by rw [hnode]; exact Option.some_ne_none _)] at hsame
    exact ⟨call, hcall, rfl, hsame⟩
  · rintro ⟨hnames, hharmless⟩
    refine ⟨⟨?_, ?_⟩, fun next hrerun ↦ ?_, fun next stop _ hnone hverify ↦ ?_,
      fun _ _ _ ↦ indexed_of_verify⟩
    · exact containment_of_changed haccepted hempty hcompatible hmiddle hharmless
    · exact completes_of_changed haccepted hempty hcompatible calls (fun _ hcall ↦ hcall) hmiddle
        hharmless
    · obtain ⟨hchanged, hall, hlanded⟩ := hnext hrerun
      exact verify_of_changed haccepted hempty hdigest hnames hall
        (fun path hpath ↦ (hharmless path hpath).kept hchanged) hlanded
    · obtain ⟨content, hnode⟩ := isFile_eq_true.mp (of_verifyPublishedDirectory hverify).1
      rw [hnone] at hnode
      cases hnode

/-! ### A name with a line feed -/

/-- The digests of the contents below. -/
def sampleSha256 (content : Bytes) : String :=
  if content = [] then "e3b0c44298fc1c149afbf4c8996fb92427ae41e4649b934ca495991b7852b855"
  else if content.length = 71 then
    "4b3c86189f9864c186c81ef0b63b5b224509d062201cbf1544fdeac5bdcb86d8"
  else "c384d35467c3a827e517b60b661d9adfe5a4d3fc45acacdb7ca5636306ad7a9d"

/-- A publication of empty payloads into the root directory. -/
def emptyPublication (payloads : Dictionary String Bytes) : Publication where
  directory := []
  payloads := payloads
  markerName := "done"
  markerBytes := []

/-- The writes of such a publication. -/
def emptyCalls (payloads : Dictionary String Bytes) : List Call :=
  (publishedFiles sampleSha256 (emptyPublication payloads)).map fun file ↦
    artifactCall [] file.1 file.2

theorem publicationCalls_emptyCalls {payloads : Dictionary String Bytes}
    (henvelope : checkEnvelope (emptyPublication payloads) = .ok ())
    (hnormalize : normalizePayloads (payloadItems (emptyPublication payloads)) =
      .ok (payloadItems (emptyPublication payloads))) :
    publicationCalls sampleSha256 (emptyPublication payloads) = .ok (emptyCalls payloads) := by
  rw [publicationCalls, henvelope, hnormalize, emptyCalls, publishedFiles, List.map_append]
  rfl

theorem isDigest_sampleSha256 (content : Bytes) : IsDigest (sampleSha256 content) := by
  rw [sampleSha256]
  split_ifs
  · decide
  · decide
  · decide

theorem emptyDirectory_root : EmptyDirectory FileTree.empty.toFileSystem [] := by
  refine ⟨rfl, fun path hne ↦ ?_⟩
  rw [List.nil_append, FileSystem.node_eq_none]
  exact (Dictionary.lookup_insert_eq_ite _ _ _ _).trans (if_neg hne)

theorem exists_writes_emptyCalls {payloads : Dictionary String Bytes}
    (hcalls : publicationCalls sampleSha256 (emptyPublication payloads) = .ok (emptyCalls payloads))
    (hcompatible : Compatible (emptyCalls payloads)) :
    ∃ fs, Writes sampleSha256 FileTree.empty.toFileSystem (emptyCalls payloads) fs :=
  (completes_of_changed (Accepted.of_publicationCalls hcalls) emptyDirectory_root hcompatible _
    (fun _ hcall ↦ hcall) (Changed.refl FileTree.empty _) nofun).exists_writes

instance (payloads : Dictionary String Bytes) : Decidable (Compatible (emptyCalls payloads)) :=
  inferInstanceAs (Decidable (∀ call ∈ emptyCalls payloads, ∀ other ∈ emptyCalls payloads,
    ¬ call.target <+: other.parent))

theorem publicationAgrees_of_marker :
    PublicationAgrees sampleSha256 (emptyPublication ∅) (emptyCalls ∅)
      FileTree.empty.toFileSystem := by
  have hcalls : publicationCalls sampleSha256 (emptyPublication ∅) = .ok (emptyCalls ∅) :=
    publicationCalls_emptyCalls rfl rfl
  obtain ⟨fs, hwrites⟩ := exists_writes_emptyCalls hcalls (by decide)
  refine (publicationAgrees_iff isDigest_sampleSha256 hcalls emptyDirectory_root hwrites .nil).mpr
    ⟨⟨fun name hname ↦ ?_, by decide⟩, nofun⟩
  exact absurd hname (AList.notMem_empty name)

/-- A payload whose name has a line feed. -/
def lineFeedPayloads : Dictionary String Bytes := (∅ : Dictionary String Bytes).insert "a\nb" []

theorem not_verify_of_lineFeed :
    ∃ fs, publicationCalls sampleSha256 (emptyPublication lineFeedPayloads) =
        .ok (emptyCalls lineFeedPayloads) ∧
      EmptyDirectory FileTree.empty.toFileSystem [] ∧
      Writes sampleSha256 FileTree.empty.toFileSystem (emptyCalls lineFeedPayloads) fs ∧
      verifyPublishedDirectory sampleSha256 fs [] "done" ≠ .ok () := by
  have hcalls : publicationCalls sampleSha256 (emptyPublication lineFeedPayloads) =
    .ok (emptyCalls lineFeedPayloads) := publicationCalls_emptyCalls rfl rfl
  have haccepted := Accepted.of_publicationCalls hcalls
  obtain ⟨fs, hwrites⟩ := exists_writes_emptyCalls hcalls (by decide)
  refine ⟨fs, hcalls, emptyDirectory_root, hwrites, fun hverify ↦ ?_⟩
  have hlanded := (Changed.of_writes FileTree.empty rfl (fun _ hcall ↦ haccepted.write hcall)
    hwrites).2
  have hnames := singleLines_of_verify haccepted hlanded hverify
  have hline : ¬ OneLine "a\nb".toList := by decide
  exact hline (hnames.1 _ (AList.mem_keys.mpr List.mem_cons_self))

end Oamb.Artifacts.CapsuleGuarantees
