import Oamb.Artifacts.CapsulePublication
import Oamb.Artifacts.WriteSequences

/-!
# Verification of publications

`verify_of_changed` says that a directory verifies in which the files of a publication were written,
when the names of the publication are single lines and no interrupted write left a temporary file
there. `completes_of_changed` says that a publication that is re-run in such a directory comes to its
end, and `of_verifyPublishedDirectory` and `of_readIndex` what verification found in a directory that
it accepts.
-/

set_option autoImplicit false

namespace Oamb.Artifacts.CapsuleVerification

open Foundation Foundation.FileSystem Foundation.TextLines
open ArtifactPaths AtomicPublication CapsulePublication WriteSequences

/-! ### The checksum file -/

section Checksums

theorem decodeText_encodeText (text : String) : decodeText (encodeText text) = some text := by
  rw [decodeText, encodeText, String.fromUTF8?]
  exact dif_pos text.isValidUTF8

theorem oneLine_of_isDigest {digest : String} (hdigest : IsDigest digest) :
    OneLine digest.toList := by
  have hdigits : ∀ char ∈ hexDigits, char ∉ lineBoundaries := by decide
  exact fun char hmem ↦ hdigits char (hdigest.2 char hmem)

theorem oneLine_checksumLine {name digest : String} (hdigest : IsDigest digest)
    (hname : OneLine name.toList) : OneLine (checksumLine (name, digest)) := by
  intro char hmem
  rcases List.mem_append.mp hmem with hmem | hmem
  · exact oneLine_of_isDigest hdigest char hmem
  · simp only [List.mem_cons] at hmem
    rcases hmem with rfl | rfl | hmem
    · decide
    · decide
    · exact hname char hmem

theorem oneLine_of_checksumLine {entry : String × String} (hline : OneLine (checksumLine entry)) :
    OneLine entry.1.toList :=
  fun char hmem ↦ hline char
    (List.mem_append_right _ (List.mem_cons_of_mem _ (List.mem_cons_of_mem _ hmem)))

/-- A line of the checksum file is parsed back. -/
theorem parseChecksumLine_checksumLine {name digest : String} (hdigest : IsDigest digest)
    (hname : name ≠ "") (hline : OneLine name.toList) :
    parseChecksumLine (checksumLine (name, digest)) = some (digest, name) := by
  obtain ⟨hlength, hdigits⟩ := hdigest
  have hfirst : (checksumLine (name, digest)).take 64 = digest.toList := by
    rw [checksumLine, List.take_append_of_le_length hlength.ge, List.take_of_length_le hlength.le]
  have hspaces : (checksumLine (name, digest)).drop 64 = ' ' :: ' ' :: name.toList := by
    rw [checksumLine, ← hlength, List.drop_left]
  have hrest : (checksumLine (name, digest)).drop 66 = name.toList := by
    rw [show 66 = 64 + 2 from rfl, ← List.drop_drop, hspaces]
    rfl
  rw [parseChecksumLine, hfirst, hspaces, hrest, if_pos, String.ofList_toList, String.ofList_toList]
  refine ⟨?_, hdigits, rfl, ?_, fun char hmem ↦ ⟨?_, ?_⟩⟩
  · rw [checksumLine, List.length_append, hlength]
    exact Nat.le_add_right _ _
  · simpa using hname
  · rintro rfl
    exact hline _ hmem (by decide)
  · rintro rfl
    exact hline _ hmem (by decide)

theorem eq_of_parseChecksumLine {line : List Char} {name digest : String}
    (hparse : parseChecksumLine line = some (digest, name)) : line = checksumLine (name, digest) := by
  rw [parseChecksumLine] at hparse
  split_ifs at hparse with hline
  obtain ⟨-, -, hspaces, -⟩ := hline
  simp only [Option.some.injEq, Prod.mk.injEq] at hparse
  obtain ⟨rfl, rfl⟩ := hparse
  rw [checksumLine, String.toList_ofList, String.toList_ofList]
  calc line = line.take 64 ++ ((line.drop 64).take 2 ++ (line.drop 64).drop 2) := by
        rw [List.take_append_drop, List.take_append_drop]
    _ = line.take 64 ++ ' ' :: ' ' :: line.drop 66 := by
        rw [hspaces, List.drop_drop]
        rfl

theorem matchesDigest_eq_true {sha256 : Bytes → String} {digest : String} {node : Option Node} :
    matchesDigest sha256 digest node = true ↔
      ∃ content, node = some (.file content) ∧ sha256 content = digest := by
  cases node with
  | none => simp [matchesDigest]
  | some node => cases node <;> simp [matchesDigest]

variable {sha256 : Bytes → String} {fs : FileSystem} {directory : Path}

/-- The file that an entry names has its digest. -/
def Matches (sha256 : Bytes → String) (fs : FileSystem) (directory : Path)
    (entry : String × String) : Prop :=
  safeRelativePath entry.1 = .ok (components entry.1) ∧
    ∃ content, fs.node (directory ++ components entry.1) = some (.file content) ∧
      sha256 content = entry.2

/-- What verification read when it accepts the lines. -/
theorem of_verifyLines {lines : List (List Char)} {indexed result : List String}
    (hverify : verifyLines sha256 fs directory lines indexed = .ok result) :
    ∃ entries : List (String × String), lines = entries.map checksumLine ∧
      result = indexed ++ entries.map Prod.fst ∧
      ∀ entry ∈ entries, Matches sha256 fs directory entry := by
  induction lines generalizing indexed with
  | nil =>
    cases hverify
    exact ⟨[], rfl, (List.append_nil _).symm, nofun⟩
  | cons line rest ih =>
    rw [verifyLines] at hverify
    cases hparse : parseChecksumLine line with
    | none => simp [hparse] at hverify
    | some entry =>
      obtain ⟨digest, name⟩ := entry
      simp only [hparse] at hverify
      cases hsafe : safeRelativePath name with
      | error message => simp [hsafe] at hverify
      | ok path =>
        obtain rfl := safeRelativePath_eq_ok hsafe
        simp only [hsafe, posix_components] at hverify
        split_ifs at hverify with hduplicate hmatches
        obtain ⟨entries, hlines, hresult, hentries⟩ := ih hverify
        refine ⟨(name, digest) :: entries, ?_, ?_, ?_⟩
        · rw [List.map_cons, hlines, eq_of_parseChecksumLine hparse]
        · rw [hresult, List.map_cons, List.append_assoc, List.singleton_append]
        · exact List.forall_mem_cons.mpr ⟨⟨hsafe, matchesDigest_eq_true.mp hmatches⟩, hentries⟩

/-- Verification accepts the lines of entries that match their files. -/
theorem verifyLines_entries {entries : List (String × String)} {indexed : List String}
    (hmatches : ∀ entry ∈ entries, Matches sha256 fs directory entry)
    (hlines : ∀ entry ∈ entries, IsDigest entry.2 ∧ OneLine entry.1.toList)
    (hdistinct : (indexed ++ entries.map Prod.fst).Nodup)
    (hchecksums : checksumsName ∉ entries.map Prod.fst) :
    verifyLines sha256 fs directory (entries.map checksumLine) indexed =
      .ok (indexed ++ entries.map Prod.fst) := by
  induction entries generalizing indexed with
  | nil => rw [List.map_nil, List.map_nil, List.append_nil, verifyLines]
  | cons entry rest ih =>
    obtain ⟨name, digest⟩ := entry
    rw [List.forall_mem_cons] at hmatches hlines
    obtain ⟨⟨hsafe, hfile⟩, hrest⟩ := hmatches
    have hempty : name ≠ "" := by
      rintro rfl
      simp [safeRelativePath] at hsafe
    rw [List.map_cons, List.mem_cons, not_or] at hchecksums
    rw [List.map_cons, List.nodup_middle, List.nodup_cons, List.mem_append, not_or] at hdistinct
    have hnext : (indexed ++ [name] ++ rest.map Prod.fst).Nodup := by
      rw [List.append_assoc, List.singleton_append, List.nodup_middle, List.nodup_cons,
        List.mem_append, not_or]
      exact hdistinct
    rw [List.map_cons, verifyLines,
      parseChecksumLine_checksumLine hlines.1.1 hempty hlines.1.2]
    simp only [hsafe, posix_components]
    rw [if_neg (not_or.mpr ⟨fun heq ↦ hchecksums.1 heq.symm, hdistinct.1.1⟩),
      if_pos (matchesDigest_eq_true.mpr hfile), ih hrest hlines.2 hnext hchecksums.2,
      List.map_cons, List.append_assoc, List.singleton_append]

/-- The checksum file is read back, line by line. -/
theorem readLines_checksumText {entries : List (String × String)}
    (hlines : ∀ entry ∈ entries, IsDigest entry.2 ∧ OneLine entry.1.toList) :
    readLines (checksumText entries).toList = entries.map checksumLine := by
  rw [checksumText, String.toList_ofList]
  calc readLines (entries.flatMap fun entry ↦ checksumLine entry ++ ['\n'])
      = readLines ((entries.map checksumLine).flatMap fun line ↦ line ++ ['\n']) := by
        rw [List.flatMap_map]
    _ = entries.map checksumLine := readLines_flatMap fun line hmem ↦ by
        obtain ⟨entry, hentry, rfl⟩ := List.mem_map.mp hmem
        exact oneLine_checksumLine (hlines entry hentry).1 (hlines entry hentry).2

end Checksums

/-! ### Publications -/

section Publications

variable {sha256 : Bytes → String} {publication : Publication} {calls : List Call}

/-- The payloads of a publication in the order in which they are written. -/
def sortedPayloads (publication : Publication) : List (String × Bytes) :=
  sortByName (payloadItems publication)

/-- The text of the checksum file of a publication. -/
def publicationText (sha256 : Bytes → String) (publication : Publication) : String :=
  checksumText (checksumEntries sha256 publication (sortedPayloads publication))

/-- The files of a publication: its payloads, the checksum file, and the marker. -/
def publishedFiles (sha256 : Bytes → String) (publication : Publication) : List (String × Bytes) :=
  sortedPayloads publication ++ [(checksumsName, encodeText (publicationText sha256 publication)),
    (publication.markerName, publication.markerBytes)]

/-- A publication that is accepted: what it writes, with safe and distinct names. -/
structure Accepted (sha256 : Bytes → String) (publication : Publication) (calls : List Call) :
    Prop where
  calls_eq : calls = (publishedFiles sha256 publication).map fun file ↦
    artifactCall publication.directory file.1 file.2
  safe : ∀ file ∈ publishedFiles sha256 publication,
    safeRelativePath file.1 = .ok (components file.1)
  distinct : ((publishedFiles sha256 publication).map Prod.fst).Nodup
  marker : components publication.markerName = [publication.markerName]

theorem perm_sortByName {α : Type} (items : List (String × α)) : (sortByName items).Perm items :=
  List.perm_insertionSort _ items

theorem mem_sortByName {α : Type} {item : String × α} {items : List (String × α)} :
    item ∈ sortByName items ↔ item ∈ items :=
  (perm_sortByName items).mem_iff

theorem of_normalizePayloads {items normalized : List (String × Bytes)}
    (hnormalize : normalizePayloads items = .ok normalized) :
    normalized = items ∧ ∀ item ∈ items, safeRelativePath item.1 = .ok (components item.1) := by
  induction items generalizing normalized with
  | nil =>
    cases hnormalize
    exact ⟨rfl, nofun⟩
  | cons item rest ih =>
    obtain ⟨name, content⟩ := item
    rw [normalizePayloads] at hnormalize
    cases hsafe : safeRelativePath name with
    | error message => simp [hsafe] at hnormalize
    | ok path =>
      obtain rfl := safeRelativePath_eq_ok hsafe
      cases hrest : normalizePayloads rest with
      | error message => simp [hsafe, hrest] at hnormalize
      | ok later =>
        simp only [hsafe, hrest, posix_components, Except.ok.injEq] at hnormalize
        obtain ⟨rfl, hlater⟩ := ih hrest
        exact ⟨hnormalize.symm, List.forall_mem_cons.mpr ⟨hsafe, hlater⟩⟩

theorem of_safePathComponent {value name : String} (hsafe : safePathComponent value = .ok name) :
    name = value ∧ safeRelativePath value = .ok (components value) ∧ components value = [value] := by
  rw [safePathComponent] at hsafe
  cases hpath : safeRelativePath value with
  | error message => simp [hpath] at hsafe
  | ok path =>
    obtain rfl := safeRelativePath_eq_ok hpath
    simp only [hpath] at hsafe
    split_ifs at hsafe with hlength
    obtain ⟨component, hcomponent⟩ := List.length_eq_one_iff.mp (not_not.mp hlength)
    have hvalue : posix [component] = value := by rw [← hcomponent, posix_components]
    rw [posix, List.map_singleton, List.intercalate_singleton, String.ofList_toList] at hvalue
    exact ⟨(Except.ok.inj hsafe).symm, rfl, by rw [hcomponent, hvalue]⟩

theorem safe_checksumsName :
    safeRelativePath checksumsName = .ok (ArtifactPaths.components checksumsName) := by
  decide

theorem nodup_payloadItems (publication : Publication) :
    ((payloadItems publication).map Prod.fst).Nodup := by
  rw [payloadItems, List.map_map]
  exact publication.payloads.nodupKeys

theorem Accepted.of_publicationCalls
    (hcalls : publicationCalls sha256 publication = .ok calls) :
    Accepted sha256 publication calls := by
  rw [publicationCalls, checkEnvelope] at hcalls
  cases hmarker : safePathComponent publication.markerName with
  | error message => simp [hmarker] at hcalls
  | ok marker =>
    obtain ⟨rfl, hsafe, hcomponent⟩ := of_safePathComponent hmarker
    simp only [hmarker] at hcalls
    split_ifs at hcalls with hchecksums henvelope
    rw [not_or] at henvelope
    cases hnormalize : normalizePayloads (payloadItems publication) with
    | error message => simp [hnormalize] at hcalls
    | ok normalized =>
      obtain ⟨rfl, hpayloads⟩ := of_normalizePayloads hnormalize
      simp only [hnormalize, Except.ok.injEq] at hcalls
      refine ⟨?_, ?_, ?_, hcomponent⟩
      · rw [← hcalls, publishedFiles, List.map_append]
        rfl
      · intro file hfile
        rcases List.mem_append.mp hfile with hfile | hfile
        · exact hpayloads file (mem_sortByName.mp hfile)
        · simp only [List.mem_cons, List.not_mem_nil, or_false] at hfile
          rcases hfile with rfl | rfl
          · exact safe_checksumsName
          · exact hsafe
      · have hkeys {name : String} (hname : name ∉ publication.payloads) :
            name ∉ (sortedPayloads publication).map Prod.fst := by
          intro hmem
          obtain ⟨item, hitem, rfl⟩ := List.mem_map.mp hmem
          obtain ⟨entry, hentry, rfl⟩ := List.mem_map.mp (mem_sortByName.mp hitem)
          exact hname (AList.mem_keys.mpr (List.mem_map_of_mem hentry))
        rw [publishedFiles, List.map_append, List.nodup_append]
        refine ⟨?_, by simpa using fun heq ↦ hchecksums heq.symm, ?_⟩
        · exact ((perm_sortByName _).map Prod.fst).nodup_iff.mpr (nodup_payloadItems publication)
        · intro first hfirst second hsecond heq
          subst heq
          simp only [List.map_cons, List.map_nil, List.mem_cons, List.not_mem_nil, or_false]
            at hsecond
          rcases hsecond with rfl | rfl
          · exact hkeys henvelope.2 hfirst
          · exact hkeys henvelope.1 hfirst

/-- A named file that is written. -/
theorem target_artifactCall (directory : Path) (name : String) (content : Bytes) :
    (artifactCall directory name content).target = directory ++ ArtifactPaths.components name := by
  rw [Call.target, Call.parent, List.append_assoc]
  exact congrArg _ (List.dropLast_append_getLast _)

theorem parent_artifactCall (directory : Path) (name : String) (content : Bytes) :
    (artifactCall directory name content).parent =
      directory ++ (ArtifactPaths.components name).dropLast :=
  rfl

/-- A temporary file of such a write is named with a period first. -/
theorem of_isTemporary {directory path : Path} {name : String} {content : Bytes}
    (hname : (artifactCall directory name content).IsTemporary path) :
    ∃ temporary : String,
      path = directory ++ ((ArtifactPaths.components name).dropLast ++ [temporary]) ∧
      Plain ((ArtifactPaths.components name).dropLast ++ [temporary]) ∧
      temporary.toList.head? = some '.' := by
  obtain ⟨suffix, hsuffix, rfl⟩ := hname
  have hplain := plain_components name
  refine ⟨_, List.append_assoc _ _ _, fun component hmem ↦ ?_, ?_⟩
  · rcases List.mem_append.mp hmem with hmem | hmem
    · exact hplain component (List.mem_of_mem_dropLast hmem)
    · have halphabet : '/' ∉ temporaryAlphabet := by decide
      have hlast : '/' ∉ ((ArtifactPaths.components name).getLast (components_ne_nil name)).toList :=
        hplain _ (List.getLast_mem _)
      rw [List.mem_singleton.mp hmem]
      simp only [String.toList_append, List.mem_append, not_or]
      exact ⟨⟨⟨by decide, hlast⟩, by decide⟩, fun hslash ↦ halphabet (hsuffix _ hslash)⟩
  · simp only [String.toList_append, List.append_assoc]
    rfl

theorem ne_checksumsName {temporary : String} (parent : Path)
    (hperiod : temporary.toList.head? = some '.') : parent ++ [temporary] ≠ [checksumsName] := by
  intro heq
  have hlast := List.append_inj_right' (heq.trans (List.nil_append _).symm) rfl
  rw [List.singleton_inj.mp hlast] at hperiod
  exact absurd hperiod (by decide)

variable (haccepted : Accepted sha256 publication calls)

include haccepted

theorem Accepted.mem_calls {call : Call} : call ∈ calls ↔
    ∃ file ∈ publishedFiles sha256 publication,
      call = artifactCall publication.directory file.1 file.2 := by
  rw [haccepted.calls_eq, List.mem_map]
  exact exists_congr fun file ↦ and_congr_right fun _ ↦ eq_comm

theorem Accepted.write {call : Call} (hcall : call ∈ calls) : call.operation = .write := by
  obtain ⟨file, -, rfl⟩ := haccepted.mem_calls.mp hcall
  rfl

/-- Two writes of a publication have different targets. -/
theorem Accepted.eq_of_target {call other : Call} (hcall : call ∈ calls) (hother : other ∈ calls)
    (htarget : call.target = other.target) : call = other := by
  obtain ⟨file, hfile, rfl⟩ := haccepted.mem_calls.mp hcall
  obtain ⟨file', hfile', rfl⟩ := haccepted.mem_calls.mp hother
  rw [target_artifactCall, target_artifactCall, List.append_cancel_left_eq] at htarget
  have hname : file.1 = file'.1 := by
    rw [← posix_components file.1, htarget, posix_components]
  rw [List.inj_on_of_nodup_map haccepted.distinct hfile hfile' hname]

omit haccepted

theorem mem_publishedFiles {file : String × Bytes} :
    file ∈ publishedFiles sha256 publication ↔ file ∈ sortedPayloads publication ∨
      file = (checksumsName, encodeText (publicationText sha256 publication)) ∨
      file = (publication.markerName, publication.markerBytes) := by
  rw [publishedFiles, List.mem_append, List.mem_cons, List.mem_singleton]

theorem mem_checksumEntries {payloads : List (String × Bytes)} {entry : String × String} :
    entry ∈ checksumEntries sha256 publication payloads ↔
      (∃ payload ∈ payloads, entry = (payload.1, sha256 payload.2)) ∨
        entry = (publication.markerName, sha256 publication.markerBytes) := by
  rw [checksumEntries, mem_sortByName, List.mem_append, List.mem_map, List.mem_singleton]
  exact or_congr_left (exists_congr fun payload ↦ and_congr_right fun _ ↦ eq_comm)

/-- The checksum file has an entry for every other file of the publication. -/
theorem Accepted.mem_entries (haccepted : Accepted sha256 publication calls)
    {entry : String × String} :
    entry ∈ checksumEntries sha256 publication (sortedPayloads publication) ↔
      ∃ file ∈ publishedFiles sha256 publication, file.1 ≠ checksumsName ∧
        entry = (file.1, sha256 file.2) := by
  have hdistinct := haccepted.distinct
  rw [publishedFiles, List.map_append, List.nodup_append] at hdistinct
  obtain ⟨-, henvelope, hapart⟩ := hdistinct
  have hmarker : publication.markerName ≠ checksumsName := by
    intro heq
    simp [heq] at henvelope
  rw [mem_checksumEntries]
  constructor
  · rintro (⟨payload, hpayload, rfl⟩ | rfl)
    · refine ⟨payload, mem_publishedFiles.mpr (Or.inl hpayload), fun heq ↦ ?_, rfl⟩
      exact hapart _ (List.mem_map_of_mem hpayload) checksumsName (by simp) heq
    · exact ⟨_, mem_publishedFiles.mpr (Or.inr (Or.inr rfl)), hmarker, rfl⟩
  · rintro ⟨file, hfile, hname, rfl⟩
    rcases mem_publishedFiles.mp hfile with hpayload | rfl | rfl
    · exact Or.inl ⟨file, hpayload, rfl⟩
    · exact absurd rfl hname
    · exact Or.inr rfl

theorem Accepted.nodup_entries (haccepted : Accepted sha256 publication calls) :
    ((checksumEntries sha256 publication (sortedPayloads publication)).map Prod.fst).Nodup := by
  rw [checksumEntries, ((perm_sortByName _).map Prod.fst).nodup_iff, List.map_append, List.map_map]
  refine haccepted.distinct.sublist ?_
  rw [publishedFiles, List.map_append]
  exact List.Sublist.append (List.Sublist.refl _) (List.sublist_cons_self _ _)

theorem Accepted.checksumsName_notMem (haccepted : Accepted sha256 publication calls) :
    checksumsName ∉
      (checksumEntries sha256 publication (sortedPayloads publication)).map Prod.fst := by
  intro hmem
  obtain ⟨entry, hentry, hname⟩ := List.mem_map.mp hmem
  obtain ⟨file, -, hne, rfl⟩ := haccepted.mem_entries.mp hentry
  exact hne hname

end Publications

/-! ### Directories that are published -/

section Directories

variable {sha256 : Bytes → String} {publication : Publication} {calls : List Call}
  {stops : List (Option Path)} {start : FileTree} {fs : FileSystem}

/-- The directory is there, and nothing is in it. -/
structure EmptyDirectory (fs : FileSystem) (directory : Path) : Prop where
  node : fs.node directory = some .directory
  empty : ∀ path, path ≠ [] → fs.node (directory ++ path) = none

theorem EmptyDirectory.above {directory base : Path} (hempty : EmptyDirectory fs directory)
    (htree : fs.Tree) (hbase : base <+: directory) : fs.node base = some .directory := by
  obtain ⟨rest, rfl⟩ := hbase
  by_cases hrest : rest = []
  · rw [← hempty.node, hrest, List.append_nil]
  · refine htree.directory hrest ?_
    rw [hempty.node]
    exact Option.some_ne_none _

/-- No target is a directory of another one. -/
def Compatible (calls : List Call) : Prop :=
  ∀ call ∈ calls, ∀ other ∈ calls, ¬ call.target <+: other.parent

/-- The path is that of a file that is published, and holds its content. -/
def Harmless (sha256 : Bytes → String) (calls : List Call) (fs : FileSystem) (path : Path) : Prop :=
  ∃ call ∈ calls, path = call.target ∧ Landed sha256 call fs

/-- Files that were all written are not in each other's way. -/
theorem Compatible.of_writes (hwrite : ∀ call ∈ calls, call.operation = .write)
    (hwrites : Writes sha256 start.toFileSystem calls fs) : Compatible calls := by
  obtain ⟨hchanged, hlanded⟩ := Changed.of_writes start rfl hwrite hwrites
  intro call hcall other hother hleading
  obtain ⟨rest, hrest⟩ := hleading
  refine (hlanded call hcall).not_directory ?_
  have hbelow : fs.node (call.target ++ (rest ++ [other.name])) ≠ none := by
    rw [← List.append_assoc, hrest]
    exact (hlanded other hother).ne_none
  exact hchanged.tree.directory (by simp) hbelow

/-- What is at a path when only harmless temporary files were left. -/
theorem node_of_changed (hchanged : Changed calls stops start.toFileSystem fs)
    (hharmless : ∀ path, some path ∈ stops → Harmless sha256 calls fs path) (path : Path) :
    fs.node path = start.node path ∨ (start.node path = none ∧ (Harmless sha256 calls fs path ∨
      ∃ call ∈ calls, path <+: call.parent ∧ fs.node path = some .directory)) := by
  refine (hchanged.nodes path).imp_right (And.imp_right ?_)
  rintro (⟨call, hcall, rfl, hnode⟩ | hdirectory | hleft)
  · exact Or.inl ⟨call, hcall, rfl, call.content, hnode, rfl, rfl⟩
  · exact Or.inr hdirectory
  · exact Or.inl (hharmless path hleft)

theorem Accepted.parent_eq (haccepted : Accepted sha256 publication calls) {call : Call}
    (hcall : call ∈ calls) : ∃ rest, call.parent = publication.directory ++ rest := by
  obtain ⟨file, -, rfl⟩ := haccepted.mem_calls.mp hcall
  exact ⟨_, rfl⟩

/-- Nothing is in the way of a publication when only harmless temporary files were left. -/
theorem unobstructed_of_changed (haccepted : Accepted sha256 publication calls)
    (hempty : EmptyDirectory start.toFileSystem publication.directory)
    (hcompatible : Compatible calls) (hchanged : Changed calls stops start.toFileSystem fs)
    (hharmless : ∀ path, some path ∈ stops → Harmless sha256 calls fs path) {call : Call}
    (hcall : call ∈ calls) : Unobstructed sha256 call fs := by
  obtain ⟨below, hbelow⟩ := haccepted.parent_eq hcall
  refine ⟨haccepted.write hcall, fun base hbase ↦ ?_, ?_⟩
  · rcases node_of_changed hchanged hharmless base with hsame | ⟨-, hfile | hdirectory⟩
    · rw [hsame]
      rw [hbelow] at hbase
      rcases List.prefix_or_prefix_of_prefix hbase (List.prefix_append _ _) with
        habove | ⟨rest, rfl⟩
      · exact Or.inr (hempty.above start.tree habove)
      · by_cases hrest : rest = []
        · rw [hrest, List.append_nil]
          exact Or.inr hempty.node
        · exact Or.inl (hempty.empty rest hrest)
    · obtain ⟨other, hother, rfl, -⟩ := hfile
      exact absurd hbase (hcompatible other hother call hcall)
    · obtain ⟨-, -, -, hnode⟩ := hdirectory
      exact Or.inr hnode
  · rcases node_of_changed hchanged hharmless call.target with hsame | ⟨-, hfile | hdirectory⟩
    · refine Or.inl ?_
      rw [hsame, Call.target, hbelow, List.append_assoc]
      exact hempty.empty _ (by simp)
    · obtain ⟨other, hother, htarget, hlanded⟩ := hfile
      rw [haccepted.eq_of_target hcall hother htarget]
      exact Or.inr hlanded
    · obtain ⟨other, hother, hleading, -⟩ := hdirectory
      exact absurd hleading (hcompatible call hcall other hother)

theorem Harmless.kept {rest : List Call} {more : List (Option Path)} {next : FileSystem}
    {path : Path} (hharmless : Harmless sha256 calls fs path) (hchanged : Changed rest more fs next) :
    Harmless sha256 calls next path := by
  obtain ⟨call, hcall, htarget, hlanded⟩ := hharmless
  exact ⟨call, hcall, htarget, hlanded.kept hchanged⟩

/-- A publication that is re-run comes to its end when only harmless temporary files were left. -/
theorem completes_of_changed (haccepted : Accepted sha256 publication calls)
    (hempty : EmptyDirectory start.toFileSystem publication.directory)
    (hcompatible : Compatible calls) (rest : List Call) (hrest : ∀ call ∈ rest, call ∈ calls)
    (hchanged : Changed calls stops start.toFileSystem fs)
    (hharmless : ∀ path, some path ∈ stops → Harmless sha256 calls fs path) :
    Completes sha256 fs rest := by
  induction rest generalizing fs with
  | nil => trivial
  | cons call rest ih =>
    rw [List.forall_mem_cons] at hrest
    have hunobstructed : Unobstructed sha256 call hchanged.fileTree.toFileSystem :=
      unobstructed_of_changed haccepted hempty hcompatible hchanged hharmless hrest.1
    refine ⟨succeeds_of_unobstructed hunobstructed, fun next result hreaches ↦ ?_⟩
    have hfirst : Changed [call] [] hchanged.fileTree.toFileSystem next :=
      (Changed.of_returned hunobstructed.write hreaches).1
    refine ih hrest.2 ((hchanged.trans hfirst).mono (fun other hmem ↦ ?_) fun path ↦ ?_)
      fun path hpath ↦ (hharmless path hpath).kept hfirst
    · rcases List.mem_append.mp hmem with hmem | hmem
      · exact hmem
      · rw [List.mem_singleton.mp hmem]
        exact hrest.1
    · rw [List.append_nil]

/-- No file is in the way of the directories of a publication. -/
theorem containment_of_changed (haccepted : Accepted sha256 publication calls)
    (hempty : EmptyDirectory start.toFileSystem publication.directory)
    (hcompatible : Compatible calls) (hchanged : Changed calls stops start.toFileSystem fs)
    (hharmless : ∀ path, some path ∈ stops → Harmless sha256 calls fs path) :
    requirePublicationContainment fs publication = .ok () := by
  have hdirectory : fs.node publication.directory = some .directory := by
    rw [← hempty.node]
    refine hchanged.kept ?_
    rw [hempty.node]
    exact Option.some_ne_none _
  rw [requirePublicationContainment, hdirectory]
  dsimp only
  rw [List.findSome?_eq_none_iff.mpr]
  intro path hpath
  obtain ⟨name, hname, hpath⟩ := List.mem_flatMap.mp hpath
  have hpublished : name ∈ (publishedFiles sha256 publication).map Prod.fst := by
    rw [publishedFiles, List.map_append]
    exact hname
  obtain ⟨file, hfile, rfl⟩ := List.mem_map.mp hpublished
  have hleading : publication.directory ++ path <+:
      (artifactCall publication.directory file.1 file.2).parent :=
    (List.prefix_append_right_inj _).mpr ((List.mem_inits _ _).mp (List.mem_of_mem_tail hpath))
  have hunobstructed := unobstructed_of_changed haccepted hempty hcompatible hchanged hharmless
    (haccepted.mem_calls.mpr ⟨file, hfile, rfl⟩)
  rcases hunobstructed.directories _ hleading with hnode | hnode <;> rw [obstruction, hnode]

end Directories

/-! ### Verification -/

section Verification

variable {sha256 : Bytes → String} {publication : Publication} {calls : List Call}
  {stops : List (Option Path)} {start : FileTree} {fs : FileSystem} {directory : Path}

theorem mem_descendants {path : Path} :
    path ∈ descendants fs directory ↔ path ≠ [] ∧ fs.node (directory ++ path) ≠ none := by
  rw [descendants, List.mem_map]
  constructor
  · rintro ⟨found, hfound, rfl⟩
    rw [List.mem_filter, decide_eq_true_eq, mem_paths] at hfound
    obtain ⟨hpresent, ⟨rest, rfl⟩, hne⟩ := hfound
    rw [List.drop_left]
    refine ⟨?_, hpresent⟩
    rintro rfl
    exact hne (List.append_nil _)
  · rintro ⟨hne, hpresent⟩
    refine ⟨directory ++ path, ?_, List.drop_left⟩
    rw [List.mem_filter, decide_eq_true_eq, mem_paths]
    exact ⟨hpresent, List.prefix_append _ _, by simpa using hne⟩

theorem isFile_eq_true {path : Path} :
    isFile fs path = true ↔ ∃ content, fs.node path = some (.file content) := by
  rw [isFile]
  cases fs.node path with
  | none => simp
  | some node => cases node <;> simp

/-- The names of the files that are committed. -/
theorem mem_committedFiles {name : String} : name ∈ committedFiles fs directory ↔
    ∃ path content, path ≠ [] ∧ path ≠ [checksumsName] ∧
      fs.node (directory ++ path) = some (.file content) ∧ posix path = name := by
  rw [committedFiles, List.mem_map]
  constructor
  · rintro ⟨path, hpath, hname⟩
    rw [List.mem_filter, decide_eq_true_eq, mem_descendants, isFile_eq_true] at hpath
    obtain ⟨⟨hne, -⟩, ⟨content, hnode⟩, hother⟩ := hpath
    exact ⟨path, content, hne, hother, hnode, hname⟩
  · rintro ⟨path, content, hne, hother, hnode, hname⟩
    refine ⟨path, ?_, hname⟩
    rw [List.mem_filter, decide_eq_true_eq, mem_descendants, isFile_eq_true, hnode]
    exact ⟨⟨hne, Option.some_ne_none _⟩, ⟨content, rfl⟩, hother⟩

/-- What verification read of the checksum file when it accepts it. -/
theorem of_readIndex {indexed : List String}
    (hread : readIndex sha256 fs directory = .ok indexed) :
    ∃ (content : Bytes) (text : String) (entries : List (String × String)),
      fs.node (directory ++ [checksumsName]) = some (.file content) ∧
      decodeText content = some text ∧
      readLines text.toList = entries.map checksumLine ∧ indexed = entries.map Prod.fst ∧
      ∀ entry ∈ entries, Matches sha256 fs directory entry := by
  rw [readIndex] at hread
  cases hnode : fs.node (directory ++ [checksumsName]) with
  | none => simp [hnode] at hread
  | some node =>
    cases node with
    | directory | symlink => simp [hnode] at hread
    | file content =>
      simp only [hnode] at hread
      cases htext : decodeText content with
      | none => simp [htext] at hread
      | some text =>
        simp only [htext] at hread
        obtain ⟨entries, hlines, hindexed, hentries⟩ := of_verifyLines hread
        exact ⟨content, text, entries, rfl, htext, hlines, hindexed, hentries⟩

/-- What verification found when it accepts a directory. -/
theorem of_verifyPublishedDirectory {markerName : String}
    (hverify : verifyPublishedDirectory sha256 fs directory markerName = .ok ()) :
    isFile fs (directory ++ [markerName]) = true ∧
      ∃ indexed, readIndex sha256 fs directory = .ok indexed ∧ markerName ∈ indexed ∧
        ∀ name, name ∈ committedFiles fs directory ↔ name ∈ indexed := by
  rw [verifyPublishedDirectory] at hverify
  cases hmarker : safePathComponent markerName with
  | error message => simp [hmarker] at hverify
  | ok marker =>
    obtain ⟨rfl, -⟩ := of_safePathComponent hmarker
    cases hread : readIndex sha256 fs directory with
    | error message =>
      simp only [hmarker, hread] at hverify
      split_ifs at hverify
    | ok indexed =>
      simp only [hmarker, hread] at hverify
      split_ifs at hverify with hfile hindexed hsymlinks hsame
      exact ⟨by simpa using hfile, indexed, rfl, hindexed,
        fun name ↦ ⟨hsame.1 name, hsame.2 name⟩⟩

/-- A checksum file that is there is the one of the publication: it is not named like a temporary
file. -/
theorem checksums_of_changed (haccepted : Accepted sha256 publication calls)
    (hempty : EmptyDirectory start.toFileSystem publication.directory)
    (hchanged : Changed calls stops start.toFileSystem fs)
    (hlanded : ∀ call ∈ calls, Landed sha256 call fs) :
    fs.node (publication.directory ++ [checksumsName]) =
      some (.file (encodeText (publicationText sha256 publication))) := by
  have hcall := haccepted.mem_calls.mpr ⟨_, mem_publishedFiles.mpr (Or.inr (Or.inl rfl)), rfl⟩
  have htarget := target_artifactCall publication.directory checksumsName
    (encodeText (publicationText sha256 publication))
  have hcomponents : ArtifactPaths.components checksumsName = [checksumsName] := by decide
  rw [hcomponents] at htarget
  rw [← htarget]
  rcases hchanged.nodes _ with hsame | ⟨-, ⟨other, hother, heq, hnode⟩ | ⟨-, -, -, hnode⟩ | hleft⟩
  · have hnone := hempty.empty [checksumsName] (List.cons_ne_nil _ _)
    rw [← htarget, ← hsame] at hnone
    exact absurd hnone (hlanded _ hcall).ne_none
  · rw [hnode, ← haccepted.eq_of_target hcall hother heq]
    rfl
  · exact absurd hnode (hlanded _ hcall).not_directory
  · obtain ⟨⟨other, hother, hname⟩, -⟩ := hchanged.left _ hleft
    obtain ⟨written, -, rfl⟩ := haccepted.mem_calls.mp hother
    obtain ⟨temporary, hpath, -, hperiod⟩ := of_isTemporary hname
    rw [htarget, List.append_cancel_left_eq] at hpath
    exact absurd hpath.symm (ne_checksumsName _ hperiod)

/-- The entries of the checksum file match the files that are written. -/
theorem matches_of_landed (haccepted : Accepted sha256 publication calls)
    (hlanded : ∀ call ∈ calls, Landed sha256 call fs) {entry : String × String}
    (hentry : entry ∈ checksumEntries sha256 publication (sortedPayloads publication)) :
    Matches sha256 fs publication.directory entry := by
  obtain ⟨file, hfile, -, rfl⟩ := haccepted.mem_entries.mp hentry
  obtain ⟨content, hnode, hdigest, -⟩ := hlanded _ (haccepted.mem_calls.mpr ⟨file, hfile, rfl⟩)
  rw [target_artifactCall] at hnode
  exact ⟨haccepted.safe file hfile, content, hnode, hdigest⟩

/-- The names of the payloads and of the marker are single lines. -/
def SingleLines (publication : Publication) : Prop :=
  (∀ name ∈ publication.payloads, OneLine name.toList) ∧ OneLine publication.markerName.toList

theorem SingleLines.entries (hnames : SingleLines publication) {entry : String × String}
    (hentry : entry ∈ checksumEntries sha256 publication (sortedPayloads publication)) :
    OneLine entry.1.toList := by
  rcases mem_checksumEntries.mp hentry with ⟨payload, hpayload, rfl⟩ | rfl
  · obtain ⟨item, hitem, rfl⟩ := List.mem_map.mp (mem_sortByName.mp hpayload)
    exact hnames.1 _ (AList.mem_keys.mpr (List.mem_map_of_mem hitem))
  · exact hnames.2

/-- The checksum file of a publication indexes the names of the other files. -/
theorem readIndex_of_changed (haccepted : Accepted sha256 publication calls)
    (hempty : EmptyDirectory start.toFileSystem publication.directory)
    (hdigest : ∀ content, IsDigest (sha256 content)) (hnames : SingleLines publication)
    (hchanged : Changed calls stops start.toFileSystem fs)
    (hlanded : ∀ call ∈ calls, Landed sha256 call fs) :
    readIndex sha256 fs publication.directory =
      .ok ((checksumEntries sha256 publication (sortedPayloads publication)).map Prod.fst) := by
  have hlines : ∀ entry ∈ checksumEntries sha256 publication (sortedPayloads publication),
      IsDigest entry.2 ∧ OneLine entry.1.toList := by
    intro entry hentry
    refine ⟨?_, hnames.entries hentry⟩
    obtain ⟨file, -, -, rfl⟩ := haccepted.mem_entries.mp hentry
    exact hdigest _
  have hmatches : ∀ entry ∈ checksumEntries sha256 publication (sortedPayloads publication),
      Matches sha256 fs publication.directory entry :=
    fun _ hentry ↦ matches_of_landed haccepted hlanded hentry
  rw [readIndex, checksums_of_changed haccepted hempty hchanged hlanded]
  simp only [decodeText_encodeText]
  rw [publicationText, readLines_checksumText hlines, verifyLines_entries hmatches hlines
    haccepted.nodup_entries haccepted.checksumsName_notMem, List.nil_append]

/-- What is below the directory of a publication is a directory or a file of it. -/
theorem of_node_changed (haccepted : Accepted sha256 publication calls)
    (hempty : EmptyDirectory start.toFileSystem publication.directory)
    (hchanged : Changed calls stops start.toFileSystem fs)
    (hharmless : ∀ path, some path ∈ stops → Harmless sha256 calls fs path) {path : Path}
    (hne : path ≠ []) (hpresent : fs.node (publication.directory ++ path) ≠ none) :
    fs.node (publication.directory ++ path) = some .directory ∨
      ∃ file ∈ publishedFiles sha256 publication, path = ArtifactPaths.components file.1 ∧
        Landed sha256 (artifactCall publication.directory file.1 file.2) fs := by
  rcases node_of_changed hchanged hharmless (publication.directory ++ path) with
    hsame | ⟨-, ⟨call, hcall, htarget, hlanded⟩ | ⟨-, -, -, hnode⟩⟩
  · rw [hempty.empty path hne] at hsame
    exact absurd hsame hpresent
  · obtain ⟨file, hfile, rfl⟩ := haccepted.mem_calls.mp hcall
    rw [target_artifactCall, List.append_cancel_left_eq] at htarget
    exact Or.inr ⟨file, hfile, htarget, hlanded⟩
  · exact Or.inl hnode

/-- A directory in which a publication was written verifies when only harmless temporary files were
left. -/
theorem verify_of_changed (haccepted : Accepted sha256 publication calls)
    (hempty : EmptyDirectory start.toFileSystem publication.directory)
    (hdigest : ∀ content, IsDigest (sha256 content)) (hnames : SingleLines publication)
    (hchanged : Changed calls stops start.toFileSystem fs)
    (hharmless : ∀ path, some path ∈ stops → Harmless sha256 calls fs path)
    (hlanded : ∀ call ∈ calls, Landed sha256 call fs) :
    verifyPublishedDirectory sha256 fs publication.directory publication.markerName = .ok () := by
  have hmarkerFile : (publication.markerName, publication.markerBytes) ∈
      publishedFiles sha256 publication := mem_publishedFiles.mpr (Or.inr (Or.inr rfl))
  have hmarker : safePathComponent publication.markerName = .ok publication.markerName := by
    rw [safePathComponent, haccepted.safe _ hmarkerFile, haccepted.marker]
    rfl
  have hindex := readIndex_of_changed haccepted hempty hdigest hnames hchanged hlanded
  have hfile {entry : String × String}
      (hentry : entry ∈ checksumEntries sha256 publication (sortedPayloads publication)) :
      ∃ content, fs.node (publication.directory ++ ArtifactPaths.components entry.1) =
        some (.file content) :=
    (matches_of_landed haccepted hlanded hentry).2.imp fun _ hmatch ↦ hmatch.1
  have hmarkerEntry : (publication.markerName, sha256 publication.markerBytes) ∈
      checksumEntries sha256 publication (sortedPayloads publication) :=
    mem_checksumEntries.mpr (Or.inr rfl)
  have hcommitted : isFile fs (publication.directory ++ [publication.markerName]) ≠ false := by
    have hnode := hfile hmarkerEntry
    rw [haccepted.marker] at hnode
    rw [isFile_eq_true.mpr hnode]
    nofun
  have hsymlinks : ¬ ∃ path ∈ descendants fs publication.directory,
      fs.node (publication.directory ++ path) = some .symlink := by
    rintro ⟨path, hpath, hnode⟩
    obtain ⟨hne, hpresent⟩ := mem_descendants.mp hpath
    rcases of_node_changed haccepted hempty hchanged hharmless hne hpresent with
      hdirectory | ⟨file, hfile, rfl, content, hcontent, -⟩
    · rw [hnode] at hdirectory
      cases hdirectory
    · rw [target_artifactCall, hnode] at hcontent
      cases hcontent
  rw [verifyPublishedDirectory, hmarker]
  dsimp only
  rw [if_neg hcommitted, hindex]
  dsimp only
  rw [if_neg (not_not.mpr (List.mem_map_of_mem hmarkerEntry)), if_neg hsymlinks, if_pos]
  refine ⟨fun name hname ↦ ?_, fun name hname ↦ mem_committedFiles.mpr ?_⟩
  · obtain ⟨path, content, hne, hother, hnode, rfl⟩ := mem_committedFiles.mp hname
    rcases of_node_changed haccepted hempty hchanged hharmless hne (by rw [hnode]; nofun) with
      hdirectory | ⟨file, hpublished, rfl, -⟩
    · rw [hnode] at hdirectory
      cases hdirectory
    · refine List.mem_map.mpr ⟨_, haccepted.mem_entries.mpr ⟨file, hpublished, ?_, rfl⟩, ?_⟩
      · intro heq
        rw [heq] at hother
        exact hother (by decide)
      · exact (posix_components _).symm
  · obtain ⟨entry, hentry, rfl⟩ := List.mem_map.mp hname
    obtain ⟨content, hnode⟩ := hfile hentry
    refine ⟨_, content, components_ne_nil _, fun heq ↦ ?_, hnode, posix_components _⟩
    refine haccepted.checksumsName_notMem ?_
    have hchecksums : entry.1 = checksumsName := by
      rw [← posix_components entry.1, heq]
      decide
    rw [← hchecksums]
    exact hname

end Verification

end Oamb.Artifacts.CapsuleVerification
