import Oamb.Artifacts.CapsuleFinalization
import Oamb.Artifacts.CapsuleVerification

/-!
# Finalization after interrupted publications

`finalized_iff` says when finalization succeeds after publications that were interrupted and
repeated, and indexes exactly what was published: every published file has an identity, and no
interrupted write left its temporary file, since the walk does not tell such a file from a record.
-/

set_option autoImplicit false

namespace Oamb.Artifacts.FinalizationGuarantees

open Foundation
open ArtifactPaths AtomicPublication CapsuleFinalization CapsulePublication CapsuleVerification
open WriteSequences

/-! ### What requests publish -/

section Requests

variable {encodings : Encodings}

/-- A name of a file below `source`. -/
structure SourceName (name : String) : Prop where
  safe : safeRelativePath name = .ok (ArtifactPaths.components name)
  source : (ArtifactPaths.components name).head? = some "source"

theorem SourceName.of_path {path : Path} (hsource : path.head? = some "source")
    (hsafe : ∀ component ∈ path, SafeComponent component) : SourceName (posix path) := by
  have hne : path ≠ [] := by
    rintro rfl
    cases hsource
  have hcomponents := components_posix (plain_of_safe hsafe) hne
  exact ⟨by rw [hcomponents, safeRelativePath_posix hne hsafe], by rw [hcomponents, hsource]⟩

theorem SafeComponent.of_append {component suffix : String}
    (hlength : 2 < component.toList.length + suffix.toList.length)
    (hcomponent : ∀ char ∈ component.toList, char ∉ ['/', '\\', '\x00'])
    (hsuffix : ∀ char ∈ suffix.toList, char ∉ ['/', '\\', '\x00']) :
    SafeComponent (component ++ suffix) := by
  rw [← List.length_append, ← String.toList_append] at hlength
  refine ⟨fun hbad ↦ ?_, fun char hchar ↦ ?_⟩
  · simp only [List.mem_cons, List.not_mem_nil, or_false] at hbad
    rcases hbad with hbad | hbad | hbad <;> rw [hbad] at hlength <;>
      exact absurd hlength (by decide)
  · rw [String.toList_append, List.mem_append] at hchar
    exact hchar.elim (hcomponent char) (hsuffix char)

theorem hexDigit_characters {digest : String} (hdigest : IsDigest digest) {char : Char}
    (hchar : char ∈ digest.toList) : char ∉ ['/', '\\', '\x00'] := by
  have hdigits : ∀ char ∈ hexDigits, char ∉ ['/', '\\', '\x00'] := by decide
  exact hdigits char (hdigest.2 char hchar)

theorem safeComponent_source : SafeComponent "source" := ⟨by decide, by decide⟩

/-- What a request publishes is named below `source`. -/
theorem sourceName_of_publicationOf (hdigest : ∀ content, IsDigest (encodings.sha256 content))
    {request : Request} {publication : String × Bytes}
    (hpublication : publicationOf encodings request = .ok publication) :
    SourceName publication.1 := by
  cases request with
  | sourceRecord collection recordId content =>
    rw [publicationOf] at hpublication
    cases hcollection : safeRelativePath collection with
    | error message => simp [hcollection] at hpublication
    | ok path =>
      cases hrecord : safePathComponent recordId with
      | error message => simp [hcollection, hrecord] at hpublication
      | ok component =>
        simp only [hcollection, hrecord, Except.ok.injEq] at hpublication
        obtain ⟨rfl, hsafe, hcomponent⟩ := of_safePathComponent hrecord
        have hnamed : SafeComponent component := by
          refine safeComponent_of_mem hsafe ?_
          rw [hcomponent]
          exact List.mem_cons_self
        rw [← hpublication]
        refine SourceName.of_path rfl fun part hmem ↦ ?_
        simp only [List.cons_append, List.mem_cons, List.mem_append, List.not_mem_nil,
          or_false] at hmem
        rcases hmem with rfl | hmem | rfl
        · exact safeComponent_source
        · exact safeComponent_of_mem hcollection hmem
        · have hlength : 2 < ".json".toList.length := by decide
          exact SafeComponent.of_append (by omega) hnamed.characters (by decide)
  | sealSourceRecord relativePath canonicalSha256 canonicalBytes =>
    rw [publicationOf] at hpublication
    cases hpath : safeRelativePath relativePath with
    | error message => simp [hpath] at hpublication
    | ok path =>
      simp only [hpath] at hpublication
      split_ifs at hpublication with hsource
      cases hpublication
      obtain rfl := safeRelativePath_eq_ok hpath
      exact ⟨by rw [posix_components, hpath], by rw [posix_components]; exact not_not.mp hsource⟩
  | sealRaw payload sha256 gzip =>
    rw [publicationOf] at hpublication
    have hhex := hdigest payload
    have hcharacters : ∀ char ∈ (encodings.sha256 payload).toList, char ∉ ['/', '\\', '\x00'] :=
      fun _ hchar ↦ hexDigit_characters hhex hchar
    have hraw {name : String} (hname : SafeComponent name) :
        SourceName (posix ["source", "raw", name]) := by
      refine SourceName.of_path rfl fun part hmem ↦ ?_
      simp only [List.mem_cons, List.not_mem_nil, or_false] at hmem
      rcases hmem with rfl | rfl | rfl
      · exact safeComponent_source
      · exact ⟨by decide, by decide⟩
      · exact hname
    have hlength := hhex.1
    split_ifs at hpublication with hhash hgzip
    · cases hpublication
      exact hraw (SafeComponent.of_append (by omega) hcharacters (by decide))
    · cases hpublication
      have hempty : encodings.sha256 payload ++ "" = encodings.sha256 payload := String.append_empty
      rw [← not_not.mp hhash, ← hempty]
      exact hraw (SafeComponent.of_append (by omega) hcharacters (by decide))

end Requests

/-! ### Entries -/

section Entries

variable {encodings : Encodings} {fs : FileSystem} {root : Path}

/-- The encodings hash to digests. -/
structure Hashes (encodings : Encodings) : Prop where
  sha256 : ∀ content, IsDigest (encodings.sha256 content)
  canonical : ∀ texts, IsDigest (encodings.canonicalSha256 texts)
  entries : ∀ entries, IsDigest (encodings.entriesSha256 entries)

/-- A file below the root of a store has an identity: an embedded part lies below a directory of its
capsule, a raw payload has a name, and a record has a schema. -/
def Indexable (schemaName : Bytes → Option String) (path : Path) (content : Bytes) : Prop :=
  match path with
  | "source" :: "parts" :: _ :: rest => rest ≠ []
  | "source" :: "raw" :: name :: rest => (name :: rest).getLastD name ≠ ".json.gz"
  | _ :: _ :: _ => ∃ schema, schemaName content = some schema ∧ schema ≠ ""
  | _ => False

theorem ne_empty_of_isDigest {digest : String} (hdigest : IsDigest digest) : digest ≠ "" := by
  rintro rfl
  exact absurd hdigest.1 (by decide)

theorem ofList_ne_empty {chars : List Char} (hchars : chars ≠ []) : String.ofList chars ≠ "" := by
  intro hempty
  have hlist := congrArg String.toList hempty
  rw [String.toList_ofList] at hlist
  exact hchars hlist

theorem stem_ne_empty {name : String} (hname : name ≠ "") : stem name ≠ "" := by
  rw [stem]
  split_ifs with hplain
  · exact hname
  · rw [not_or, not_le] at hplain
    refine ofList_ne_empty fun hempty ↦ ?_
    have hlength := congrArg List.length hempty
    rw [List.length_take, List.length_nil] at hlength
    omega

theorem removeSuffix_eq_empty {name : String} (hname : name ≠ "") :
    removeSuffix name = "" ↔ name = ".json.gz" := by
  rw [removeSuffix]
  split_ifs with hsuffix
  · obtain ⟨front, hfront⟩ := hsuffix
    have htake : name.toList.take (name.toList.length - ".json.gz".toList.length) = front := by
      rw [← hfront, List.length_append, Nat.add_sub_cancel, List.take_left]
    rw [htake]
    constructor
    · intro hempty
      have hnil : front = [] := by
        by_contra hne
        exact ofList_ne_empty hne hempty
      rw [hnil, List.nil_append] at hfront
      exact (String.toList_inj.mp hfront).symm
    · rintro rfl
      rw [List.append_left_eq_self.mp hfront]
  · constructor
    · exact fun hempty ↦ absurd hempty hname
    · rintro rfl
      exact absurd (List.suffix_refl _) hsuffix

/-- A file below `source` has an identity exactly if it is indexable. -/
theorem indexable_iff (hhashes : Hashes encodings) {second : String} {rest : Path} {content : Bytes}
    (hsafe : ∀ component ∈ second :: rest, SafeComponent component) :
    Indexable encodings.schemaName ("source" :: second :: rest) content ↔
      ∃ kind identifier,
        identify encodings ("source" :: second :: rest) content = .ok (kind, identifier) ∧
          kind ≠ "" ∧ identifier ≠ "" := by
  have hlast : rest.getLastD second ≠ "" := by
    intro hempty
    have hmem : "" ∈ second :: rest := by
      rw [← hempty]
      exact List.getLastD_mem_cons
    exact (hsafe _ hmem).named List.mem_cons_self
  unfold Indexable
  split
  case h_1 name inner hpath =>
    cases hpath
    cases inner with
    | nil => simp [identify]
    | cons first inner =>
      refine iff_of_true (List.cons_ne_nil _ _) ⟨_, _, rfl, by decide, ?_⟩
      exact ne_empty_of_isDigest (hhashes.canonical _)
  case h_2 name inner hpath =>
    cases hpath
    have hname := removeSuffix_eq_empty hlast
    constructor
    · intro hother
      exact ⟨_, _, rfl, by decide, fun hempty ↦ hother (hname.mp hempty)⟩
    · rintro ⟨kind, identifier, hidentify, -, hidentifier⟩ hother
      cases hidentify
      exact hidentifier (hname.mpr hother)
  case h_3 first second rest hparts hraw hpath =>
    cases hpath
    rw [identify]
    · cases hschema : encodings.schemaName content with
      | none => simp
      | some schema =>
        have hstem : stem (("source" :: second :: rest).getLastD "") ≠ "" := by
          rw [List.getLastD_cons, List.getLastD_cons]
          exact stem_ne_empty hlast
        constructor
        · rintro ⟨_, hsome, hnamed⟩
          cases hsome
          exact ⟨schema, _, rfl, hnamed, hstem⟩
        · rintro ⟨kind, identifier, hidentify, hkind, -⟩
          cases hidentify
          exact ⟨schema, rfl, hkind⟩
    · rintro name inner heq
      cases heq
      exact hparts name inner rfl rfl rfl
    · rintro name inner heq
      cases heq
      exact hraw name inner rfl rfl rfl
  case h_4 hother =>
    exact absurd rfl (hother _ _ _)

theorem of_manifestEntry {path : Path} {content : Bytes} {entry : CapsuleManifestEntry}
    (hentry : manifestEntry encodings path content = .ok entry) :
    entry.relativePath = posix path ∧ entry.sha256 = encodings.sha256 content ∧
      ∃ kind identifier, identify encodings path content = .ok (kind, identifier) ∧
        kind ≠ "" ∧ identifier ≠ "" := by
  rw [manifestEntry] at hentry
  cases hidentify : identify encodings path content with
  | error message => simp [hidentify] at hentry
  | ok identity =>
    obtain ⟨kind, identifier⟩ := identity
    simp only [hidentify, checkEntry] at hentry
    split_ifs at hentry with hnames hpath
    simp only [not_or] at hnames
    cases hentry
    exact ⟨rfl, rfl, kind, identifier, rfl, hnames.1, hnames.2.1⟩

/-- A file below `source` has an entry exactly if it is indexable. -/
theorem exists_manifestEntry_iff (hhashes : Hashes encodings) {second : String} {rest : Path}
    {content : Bytes} (hsafe : ∀ component ∈ second :: rest, SafeComponent component) :
    (∃ entry, manifestEntry encodings ("source" :: second :: rest) content = .ok entry) ↔
      Indexable encodings.schemaName ("source" :: second :: rest) content := by
  rw [indexable_iff hhashes hsafe]
  constructor
  · rintro ⟨entry, hentry⟩
    exact (of_manifestEntry hentry).2.2
  · rintro ⟨kind, identifier, hidentify, hkind, hidentifier⟩
    have hall : ∀ component ∈ "source" :: second :: rest, SafeComponent component :=
      List.forall_mem_cons.mpr ⟨safeComponent_source, hsafe⟩
    have hposix := safeRelativePath_posix (List.cons_ne_nil _ _) hall
    obtain ⟨hempty, hroot⟩ := named_of_safeRelativePath hposix
    have hparent : ".." ∉ ArtifactPaths.components (posix ("source" :: second :: rest)) := by
      rw [← safeRelativePath_eq_ok hposix]
      exact fun hmem ↦ (hall _ hmem).named (by decide)
    refine ⟨⟨kind, identifier, posix ("source" :: second :: rest), encodings.sha256 content⟩, ?_⟩
    rw [manifestEntry, hidentify]
    dsimp only
    rw [checkEntry, if_neg, if_neg, if_neg]
    · exact not_or.mpr ⟨hroot, hparent⟩
    · exact not_not.mpr (hhashes.sha256 content)
    · exact not_or.mpr ⟨hkind, not_or.mpr ⟨hidentifier, hempty⟩⟩

theorem manifestEntries_of_not_file {path : Path} {rest : List Path}
    (hnode : ¬ ∃ content, fs.node (root ++ path) = some (.file content)) :
    manifestEntries encodings fs root (path :: rest) = manifestEntries encodings fs root rest := by
  rw [manifestEntries]
  split
  · rename_i content hfile
    exact absurd ⟨content, hfile⟩ hnode
  · rfl

/-- The entries of a list of paths are those of the files among them. -/
theorem of_manifestEntries {paths : List Path} {entries : List CapsuleManifestEntry}
    (hentries : manifestEntries encodings fs root paths = .ok entries) :
    (∀ path ∈ paths, ∀ content, fs.node (root ++ path) = some (.file content) →
      ∃ entry ∈ entries, manifestEntry encodings path content = .ok entry) ∧
    (∀ entry ∈ entries, ∃ path ∈ paths, ∃ content,
      fs.node (root ++ path) = some (.file content) ∧
        manifestEntry encodings path content = .ok entry) ∧
    (entries.map CapsuleManifestEntry.relativePath).Sublist
      ((paths.filter fun path ↦ isFile fs (root ++ path)).map posix) := by
  induction paths generalizing entries with
  | nil =>
    cases hentries
    exact ⟨nofun, nofun, List.Sublist.refl _⟩
  | cons path rest ih =>
    by_cases hfile : ∃ content, fs.node (root ++ path) = some (.file content)
    · obtain ⟨content, hnode⟩ := hfile
      simp only [manifestEntries, hnode] at hentries
      cases hentry : manifestEntry encodings path content with
      | error message => simp [hentry] at hentries
      | ok entry =>
        cases hrest : manifestEntries encodings fs root rest with
        | error message => simp [hentry, hrest] at hentries
        | ok later =>
          simp only [hentry, hrest, Except.ok.injEq] at hentries
          obtain ⟨hforward, hbackward, hsublist⟩ := ih hrest
          rw [← hentries]
          refine ⟨?_, ?_, ?_⟩
          · refine List.forall_mem_cons.mpr ⟨fun other hother ↦ ?_, fun other hmem found hfound ↦ ?_⟩
            · obtain rfl : content = other := by simpa [hnode] using hother
              exact ⟨entry, List.mem_cons_self, hentry⟩
            · exact (hforward other hmem found hfound).imp fun _ hfound ↦
                ⟨List.mem_cons_of_mem _ hfound.1, hfound.2⟩
          · refine List.forall_mem_cons.mpr ⟨⟨path, List.mem_cons_self, content, hnode, hentry⟩,
              fun other hmem ↦ ?_⟩
            exact (hbackward other hmem).imp fun _ hfound ↦
              ⟨List.mem_cons_of_mem _ hfound.1, hfound.2⟩
          · rw [List.filter_cons, if_pos (isFile_eq_true.mpr ⟨content, hnode⟩), List.map_cons,
              List.map_cons, (of_manifestEntry hentry).1]
            exact hsublist.cons_cons _
    · rw [manifestEntries_of_not_file hfile] at hentries
      obtain ⟨hforward, hbackward, hsublist⟩ := ih hentries
      rw [List.filter_cons, if_neg fun htrue ↦ hfile (isFile_eq_true.mp htrue)]
      refine ⟨List.forall_mem_cons.mpr ⟨fun content hnode ↦ ?_, hforward⟩, fun entry hmem ↦ ?_,
        hsublist⟩
      · exact absurd ⟨content, hnode⟩ hfile
      · exact (hbackward entry hmem).imp fun _ hfound ↦
          ⟨List.mem_cons_of_mem _ hfound.1, hfound.2⟩

/-- There are entries for a list of paths when every file among them has one. -/
theorem exists_manifestEntries {paths : List Path}
    (hpaths : ∀ path ∈ paths, ∀ content, fs.node (root ++ path) = some (.file content) →
      ∃ entry, manifestEntry encodings path content = .ok entry) :
    ∃ entries, manifestEntries encodings fs root paths = .ok entries := by
  induction paths with
  | nil => exact ⟨[], rfl⟩
  | cons path rest ih =>
    rw [List.forall_mem_cons] at hpaths
    obtain ⟨entries, hentries⟩ := ih hpaths.2
    by_cases hfile : ∃ content, fs.node (root ++ path) = some (.file content)
    · obtain ⟨content, hnode⟩ := hfile
      obtain ⟨entry, hentry⟩ := hpaths.1 content hnode
      exact ⟨entry :: entries, by simp only [manifestEntries, hnode, hentry, hentries]⟩
    · exact ⟨entries, by rw [manifestEntries_of_not_file hfile, hentries]⟩

/-- The check of the entries accepts those that were read from their files. -/
theorem verifySourceEntries_of_read {entries : List CapsuleManifestEntry}
    (hentries : ∀ entry ∈ entries, ∃ path content, safeRelativePath entry.relativePath = .ok path ∧
      path.head? = some "source" ∧ fs.node (root ++ path) = some (.file content) ∧
        entry.sha256 = encodings.sha256 content) :
    verifySourceEntries encodings fs root entries = .ok () := by
  induction entries with
  | nil => rfl
  | cons entry rest ih =>
    rw [List.forall_mem_cons] at hentries
    obtain ⟨⟨path, content, hsafe, hsource, hnode, hdigest⟩, hrest⟩ := hentries
    have hmatches : matchesDigest encodings.sha256 entry.sha256 (fs.node (root ++ path)) ≠ false := by
      rw [matchesDigest_eq_true.mpr ⟨content, hnode, hdigest.symm⟩]
      nofun
    rw [verifySourceEntries, hsafe]
    dsimp only
    rw [if_neg (not_not.mpr hsource), if_neg hmatches, ih hrest]

theorem mem_sortedDescendants {path directory : Path} :
    path ∈ sortedDescendants fs directory ↔ path ≠ [] ∧ fs.node (directory ++ path) ≠ none := by
  rw [sortedDescendants, (List.perm_insertionSort _ _).mem_iff, mem_descendants]

theorem nodup_sortedDescendants (directory : Path) : (sortedDescendants fs directory).Nodup := by
  rw [sortedDescendants, (List.perm_insertionSort _ _).nodup_iff, descendants]
  have hpaths : fs.paths.Nodup := fs.entries.keys_nodup
  refine (hpaths.filter _).map_on fun first hfirst second hsecond hdrop ↦ ?_
  simp only [List.mem_filter, decide_eq_true_eq] at hfirst hsecond
  obtain ⟨-, ⟨firstRest, rfl⟩, -⟩ := hfirst
  obtain ⟨-, ⟨secondRest, rfl⟩, -⟩ := hsecond
  rw [List.drop_left, List.drop_left] at hdrop
  rw [hdrop]

end Entries

/-! ### Stores -/

section Stores

variable {encodings : Encodings} {publications : List (String × Bytes)} {root : Path}
  {stops : List (Option Path)} {start : FileTree} {fs : FileSystem}

/-- A store in which nothing was published. -/
structure NewStore (fs : FileSystem) (root : Path) : Prop where
  above : ∀ base, base <+: root → fs.node base = none ∨ fs.node base = some .directory
  source : fs.node (root ++ ["source"]) = none
  manifest : fs.node (root ++ ["capsule-manifest.json"]) = none

/-- The writes of some publications below the root of a store. -/
def publicationWrites (root : Path) (publications : List (String × Bytes)) : List Call :=
  publications.map fun publication ↦ artifactCall root publication.1 publication.2

theorem mem_publicationWrites {call : Call} : call ∈ publicationWrites root publications ↔
    ∃ publication ∈ publications, call = artifactCall root publication.1 publication.2 := by
  rw [publicationWrites, List.mem_map]
  exact exists_congr fun publication ↦ and_congr_right fun _ ↦ eq_comm

theorem write_publicationWrites {call : Call} (hcall : call ∈ publicationWrites root publications) :
    call.operation = .write := by
  obtain ⟨publication, -, rfl⟩ := mem_publicationWrites.mp hcall
  rfl

theorem NewStore.below (hstore : NewStore start.toFileSystem root) (rest : Path) :
    start.node (root ++ "source" :: rest) = none := by
  by_cases hrest : rest = []
  · rw [hrest]
    exact hstore.source
  · by_contra hpresent
    rw [List.append_cons] at hpresent
    have hdirectory := start.tree.directory hrest hpresent
    rw [hstore.source] at hdirectory
    cases hdirectory

/-- What is below `source` is a directory or a file that was published. -/
theorem of_node_source (hstore : NewStore start.toFileSystem root)
    (hchanged : Changed (publicationWrites root publications) stops start.toFileSystem fs)
    (hharmless : ∀ path, some path ∈ stops →
      Harmless encodings.sha256 (publicationWrites root publications) fs path)
    {rest : Path} (hpresent : fs.node (root ++ "source" :: rest) ≠ none) :
    fs.node (root ++ "source" :: rest) = some .directory ∨
      ∃ publication ∈ publications, "source" :: rest = ArtifactPaths.components publication.1 ∧
        Landed encodings.sha256 (artifactCall root publication.1 publication.2) fs := by
  rcases node_of_changed hchanged hharmless (root ++ "source" :: rest) with
    hsame | ⟨-, ⟨call, hcall, htarget, hlanded⟩ | ⟨-, -, -, hnode⟩⟩
  · rw [hstore.below] at hsame
    exact absurd hsame hpresent
  · obtain ⟨publication, hpublication, rfl⟩ := mem_publicationWrites.mp hcall
    rw [target_artifactCall, List.append_cancel_left_eq] at htarget
    exact Or.inr ⟨publication, hpublication, htarget, hlanded⟩
  · exact Or.inl hnode

/-- Nothing is in the way of the manifest. -/
theorem unobstructed_manifest (hstore : NewStore start.toFileSystem root)
    (hnames : ∀ publication ∈ publications, SourceName publication.1)
    (hchanged : Changed (publicationWrites root publications) stops start.toFileSystem fs)
    (hharmless : ∀ path, some path ∈ stops →
      Harmless encodings.sha256 (publicationWrites root publications) fs path) (content : Bytes) :
    Unobstructed encodings.sha256 (artifactCall root "capsule-manifest.json" content) fs := by
  have hcomponents : ArtifactPaths.components "capsule-manifest.json" = ["capsule-manifest.json"] := by
    decide
  have htarget := target_artifactCall root "capsule-manifest.json" content
  have hparent : (artifactCall root "capsule-manifest.json" content).parent = root := by
    rw [parent_artifactCall, hcomponents]
    exact List.append_nil root
  refine ⟨rfl, fun base hbase ↦ ?_, ?_⟩
  · rw [hparent] at hbase
    rcases node_of_changed hchanged hharmless base with
      hsame | ⟨-, ⟨call, hcall, rfl, -⟩ | ⟨-, -, -, hnode⟩⟩
    · rw [hsame]
      exact hstore.above base hbase
    · obtain ⟨publication, -, rfl⟩ := mem_publicationWrites.mp hcall
      have hlength := hbase.length_le
      have hpositive := List.length_pos_of_ne_nil (components_ne_nil publication.1)
      rw [target_artifactCall, List.length_append] at hlength
      omega
    · exact Or.inr hnode
  · rw [htarget, hcomponents]
    refine Or.inl ?_
    rcases node_of_changed hchanged hharmless (root ++ ["capsule-manifest.json"]) with
      hsame | ⟨-, ⟨call, hcall, hpath, -⟩ | ⟨call, hcall, hleading, -⟩⟩
    · rw [hsame, hstore.manifest]
    · obtain ⟨publication, hpublication, rfl⟩ := mem_publicationWrites.mp hcall
      have hsource := (hnames publication hpublication).source
      rw [target_artifactCall, List.append_cancel_left_eq] at hpath
      rw [← hpath] at hsource
      exact absurd hsource (by decide)
    · obtain ⟨publication, hpublication, rfl⟩ := mem_publicationWrites.mp hcall
      have hsource := (hnames publication hpublication).source
      rw [parent_artifactCall, List.prefix_append_right_inj] at hleading
      obtain ⟨rest, hrest⟩ := hleading.trans (List.dropLast_prefix _)
      rw [← hrest, List.singleton_append, List.head?_cons, Option.some.injEq] at hsource
      exact absurd hsource (by decide)

/-- What finalization promises after some publications: it succeeds, and the entries of its manifest
are the published files. -/
structure Finalized (encodings : Encodings) (publications : List (String × Bytes)) (root : Path)
    (runId runSpecHash : String) (fs : FileSystem) (manifest : CapsuleManifest) (call : Call) :
    Prop where
  finalizes : finalizeCapsule encodings fs root runId runSpecHash = .ok (manifest, call)
  succeeds : Succeeds encodings.sha256 call fs
  published : ∀ entry ∈ manifest.sourceEntries, ∃ publication ∈ publications,
    entry.relativePath = publication.1 ∧ entry.sha256 = encodings.sha256 publication.2
  indexed : ∀ publication ∈ publications, ∃ entry ∈ manifest.sourceEntries,
    entry.relativePath = publication.1 ∧ entry.sha256 = encodings.sha256 publication.2
  distinct : (manifest.sourceEntries.map CapsuleManifestEntry.relativePath).Nodup

/-- The published file has an identity. -/
def Identified (encodings : Encodings) (root : Path) (fs : FileSystem)
    (publication : String × Bytes) : Prop :=
  ∃ content, fs.node (root ++ ArtifactPaths.components publication.1) = some (.file content) ∧
    Indexable encodings.schemaName (ArtifactPaths.components publication.1) content

/-- The paths that finalization walks. -/
def walkedPaths (fs : FileSystem) (root : Path) : List Path :=
  (sortedDescendants fs (root ++ ["source"])).map fun path ↦ "source" :: path

theorem mem_walkedPaths {path : Path} : path ∈ walkedPaths fs root ↔
    ∃ second rest, path = "source" :: second :: rest ∧
      fs.node (root ++ "source" :: second :: rest) ≠ none := by
  rw [walkedPaths, List.mem_map]
  constructor
  · rintro ⟨below, hbelow, rfl⟩
    obtain ⟨hne, hpresent⟩ := mem_sortedDescendants.mp hbelow
    obtain ⟨second, rest, rfl⟩ := List.exists_cons_of_ne_nil hne
    exact ⟨second, rest, rfl, by rwa [List.append_cons]⟩
  · rintro ⟨second, rest, rfl, hpresent⟩
    refine ⟨second :: rest, mem_sortedDescendants.mpr ⟨List.cons_ne_nil _ _, ?_⟩, rfl⟩
    rwa [List.append_cons] at hpresent

theorem SourceName.safeComponents {name : String} (hname : SourceName name) {component : String}
    (hmem : component ∈ ArtifactPaths.components name) : SafeComponent component :=
  safeComponent_of_mem hname.safe hmem

/-- A published file that has an identity is walked. -/
theorem mem_walkedPaths_of_indexable {name : String} (hname : SourceName name) {content : Bytes}
    (hindexable : Indexable encodings.schemaName (ArtifactPaths.components name) content)
    (hnode : fs.node (root ++ ArtifactPaths.components name) = some (.file content)) :
    ArtifactPaths.components name ∈ walkedPaths fs root := by
  have hsource := hname.source
  rcases hcomponents : ArtifactPaths.components name with _ | ⟨first, _ | ⟨second, rest⟩⟩
  · exact absurd hcomponents (components_ne_nil name)
  · rw [hcomponents] at hindexable
    simp [Indexable] at hindexable
  · rw [hcomponents, List.head?_cons, Option.some.injEq] at hsource
    rw [hcomponents] at hnode
    rw [hsource] at hnode ⊢
    refine mem_walkedPaths.mpr ⟨second, rest, rfl, ?_⟩
    rw [hnode]
    exact Option.some_ne_none _

/-- The entries of the files that finalization walks are the files that were published. -/
theorem entry_of_walked (hstore : NewStore start.toFileSystem root)
    (hchanged : Changed (publicationWrites root publications) stops start.toFileSystem fs)
    (hharmless : ∀ path, some path ∈ stops →
      Harmless encodings.sha256 (publicationWrites root publications) fs path)
    {path : Path} (hpath : path ∈ walkedPaths fs root) {content : Bytes}
    (hnode : fs.node (root ++ path) = some (.file content)) :
    ∃ publication ∈ publications, path = ArtifactPaths.components publication.1 ∧
      encodings.sha256 content = encodings.sha256 publication.2 := by
  obtain ⟨second, rest, rfl, hpresent⟩ := mem_walkedPaths.mp hpath
  rcases of_node_source hstore hchanged hharmless hpresent with
    hdirectory | ⟨publication, hpublication, hcomponents, found, hfound, hdigest, -⟩
  · rw [hnode] at hdirectory
    cases hdirectory
  · rw [target_artifactCall, ← hcomponents, hnode] at hfound
    cases hfound
    exact ⟨publication, hpublication, hcomponents, hdigest⟩

theorem nodup_walkedPaths : (walkedPaths fs root).Nodup :=
  (nodup_sortedDescendants _).map fun _ _ heq ↦ (List.cons.inj heq).2

theorem head_posix_source (second : String) (rest : Path) :
    (posix ("source" :: second :: rest)).toList.head? = some 's' := by
  rw [posix, String.toList_ofList, List.map_cons, List.map_cons, List.intercalate_cons_cons]
  rfl

/-- The entries of files with plain paths have different paths. -/
theorem nodup_relativePath {entries : List CapsuleManifestEntry}
    (hentries : manifestEntries encodings fs root (walkedPaths fs root) = .ok entries)
    (hplain : ∀ path ∈ walkedPaths fs root, ∀ content,
      fs.node (root ++ path) = some (.file content) → Plain path) :
    (entries.map CapsuleManifestEntry.relativePath).Nodup := by
  refine List.Nodup.sublist (of_manifestEntries hentries).2.2 ?_
  refine (nodup_walkedPaths.filter _).map_on fun first hfirst second hsecond hposix ↦ ?_
  obtain ⟨hfirst, hfirstFile⟩ := List.mem_filter.mp hfirst
  obtain ⟨hsecond, hsecondFile⟩ := List.mem_filter.mp hsecond
  obtain ⟨content, hnode⟩ := isFile_eq_true.mp hfirstFile
  obtain ⟨content', hnode'⟩ := isFile_eq_true.mp hsecondFile
  obtain ⟨_, _, hfirstSource, -⟩ := mem_walkedPaths.mp hfirst
  obtain ⟨_, _, hsecondSource, -⟩ := mem_walkedPaths.mp hsecond
  refine posix_injective (hplain _ hfirst content hnode) (hplain _ hsecond content' hnode') ?_ ?_
    hposix
  · rw [hfirstSource]
    nofun
  · rw [hsecondSource]
    nofun

/-- The checks of a manifest accept the entries of published files. -/
theorem checkManifest_of_walked (hhashes : Hashes encodings) {runId runSpecHash : String}
    (hrun : runId ≠ "") (hspec : IsDigest runSpecHash) {entries : List CapsuleManifestEntry}
    (hentries : manifestEntries encodings fs root (walkedPaths fs root) = .ok entries)
    (hplain : ∀ path ∈ walkedPaths fs root, ∀ content,
      fs.node (root ++ path) = some (.file content) → Plain path) :
    checkManifest (manifestOf encodings runId runSpecHash entries) =
      .ok (manifestOf encodings runId runSpecHash entries) := by
  obtain ⟨-, hbackward, -⟩ := of_manifestEntries hentries
  have hnodup := nodup_relativePath hentries hplain
  have hhead : ∀ path ∈ entries.map CapsuleManifestEntry.relativePath,
      path.toList.head? = some 's' := by
    intro path hpath
    obtain ⟨entry, hentry, rfl⟩ := List.mem_map.mp hpath
    obtain ⟨walked, hwalked, content, -, hread⟩ := hbackward entry hentry
    obtain ⟨second, rest, rfl, -⟩ := mem_walkedPaths.mp hwalked
    rw [(of_manifestEntry hread).1, head_posix_source]
  rw [checkManifest, manifestOf]
  dsimp only
  rw [if_neg, if_neg hrun, if_neg (not_not.mpr hnodup), if_neg]
  · rintro ⟨path, hpath, rfl | ⟨rest, hrest⟩⟩
    · exact absurd (hhead _ hpath) (by decide)
    · have hfirst := hhead _ hpath
      rw [← hrest] at hfirst
      simp at hfirst
  · simp [hhashes.canonical, hspec, hhashes.entries]

/-- Finalization indexes the published files when each of them has an identity and only harmless
temporary files were left. -/
theorem finalized_of_identified (hhashes : Hashes encodings) {runId runSpecHash : String}
    (hrun : runId ≠ "") (hspec : IsDigest runSpecHash)
    (hnames : ∀ publication ∈ publications, SourceName publication.1)
    (hstore : NewStore start.toFileSystem root)
    (hchanged : Changed (publicationWrites root publications) stops start.toFileSystem fs)
    (hlanded : ∀ call ∈ publicationWrites root publications, Landed encodings.sha256 call fs)
    (hidentified : ∀ publication ∈ publications, Identified encodings root fs publication)
    (hharmless : ∀ path, some path ∈ stops →
      Harmless encodings.sha256 (publicationWrites root publications) fs path) :
    ∃ manifest call, Finalized encodings publications root runId runSpecHash fs manifest call := by
  have hwalked {path : Path} (hpath : path ∈ walkedPaths fs root) {content : Bytes}
      (hnode : fs.node (root ++ path) = some (.file content)) :=
    entry_of_walked hstore hchanged hharmless hpath hnode
  have hentry : ∀ path ∈ walkedPaths fs root, ∀ content,
      fs.node (root ++ path) = some (.file content) →
        ∃ entry, manifestEntry encodings path content = .ok entry := by
    intro path hpath content hnode
    obtain ⟨publication, hpublication, hcomponents, -⟩ := hwalked hpath hnode
    obtain ⟨second, rest, rfl, -⟩ := mem_walkedPaths.mp hpath
    obtain ⟨found, hfound, hindexable⟩ := hidentified publication hpublication
    rw [← hcomponents] at hfound hindexable
    obtain rfl : content = found := by simpa [hnode] using hfound
    refine (exists_manifestEntry_iff hhashes fun component hmem ↦ ?_).mpr hindexable
    refine (hnames publication hpublication).safeComponents ?_
    rw [← hcomponents]
    exact List.mem_cons_of_mem _ hmem
  obtain ⟨entries, hentries⟩ := exists_manifestEntries hentry
  obtain ⟨hforward, hbackward, -⟩ := of_manifestEntries hentries
  have hplain : ∀ path ∈ walkedPaths fs root, ∀ content,
      fs.node (root ++ path) = some (.file content) → Plain path := by
    intro path hpath content hnode
    obtain ⟨publication, -, rfl, -⟩ := hwalked hpath hnode
    exact plain_components _
  have hcheck := checkManifest_of_walked hhashes hrun hspec hentries hplain
  have hdistinct := nodup_relativePath hentries hplain
  have hverify : verifySourceEntries encodings fs root entries = .ok () := by
    refine verifySourceEntries_of_read fun entry hmem ↦ ?_
    obtain ⟨path, hpath, content, hnode, hread⟩ := hbackward entry hmem
    obtain ⟨publication, hpublication, rfl, -⟩ := hwalked hpath hnode
    have hname := hnames publication hpublication
    obtain ⟨hrelative, hdigest, -⟩ := of_manifestEntry hread
    exact ⟨_, content, by rw [hrelative, posix_components, hname.safe], hname.source, hnode, hdigest⟩
  have hfinalize : finalizeCapsule encodings fs root runId runSpecHash =
      .ok (manifestOf encodings runId runSpecHash entries,
        artifactCall root "capsule-manifest.json"
          (encodings.canonicalJsonBytes (manifestOf encodings runId runSpecHash entries))) := by
    rw [finalizeCapsule, capsuleManifest, ← walkedPaths, hentries]
    dsimp only
    rw [hcheck]
    dsimp only
    rw [show (manifestOf encodings runId runSpecHash entries).sourceEntries = entries from rfl,
      hverify]
  refine ⟨_, _, hfinalize, ?_, fun entry hmem ↦ ?_, fun publication hmem ↦ ?_, hdistinct⟩
  · have hfree : Unobstructed encodings.sha256 (artifactCall root "capsule-manifest.json"
        (encodings.canonicalJsonBytes (manifestOf encodings runId runSpecHash entries)))
        hchanged.fileTree.toFileSystem :=
      unobstructed_manifest hstore hnames hchanged hharmless _
    exact succeeds_of_unobstructed hfree
  · obtain ⟨path, hpath, content, hnode, hread⟩ := hbackward entry hmem
    obtain ⟨publication, hpublication, rfl, hdigest⟩ := hwalked hpath hnode
    obtain ⟨hrelative, hhash, -⟩ := of_manifestEntry hread
    exact ⟨publication, hpublication, by rw [hrelative, posix_components], by rw [hhash, hdigest]⟩
  · obtain ⟨content, hnode, hindexable⟩ := hidentified publication hmem
    have hpath := mem_walkedPaths_of_indexable (hnames publication hmem) hindexable hnode
    obtain ⟨entry, hentry, hread⟩ := hforward _ hpath content hnode
    obtain ⟨hrelative, hhash, -⟩ := of_manifestEntry hread
    obtain ⟨found, hfound, hdigest, -⟩ :=
      hlanded _ (mem_publicationWrites.mpr ⟨publication, hmem, rfl⟩)
    rw [target_artifactCall, hnode] at hfound
    cases hfound
    exact ⟨entry, hentry, by rw [hrelative, posix_components], hhash.trans hdigest⟩

/-- What finalization read of the files that it walked. -/
theorem of_finalizeCapsule {runId runSpecHash : String} {manifest : CapsuleManifest} {call : Call}
    (hfinalize : finalizeCapsule encodings fs root runId runSpecHash = .ok (manifest, call)) :
    manifestEntries encodings fs root (walkedPaths fs root) = .ok manifest.sourceEntries := by
  rw [finalizeCapsule, capsuleManifest, ← walkedPaths] at hfinalize
  cases hentries : manifestEntries encodings fs root (walkedPaths fs root) with
  | error message => simp [hentries] at hfinalize
  | ok entries =>
    cases hcheck : checkManifest (manifestOf encodings runId runSpecHash entries) with
    | error message => simp [hentries, hcheck] at hfinalize
    | ok checked =>
      have hchecked : checked = manifestOf encodings runId runSpecHash entries := by
        rw [checkManifest] at hcheck
        split_ifs at hcheck
        exact (Except.ok.inj hcheck).symm
      simp only [hentries, hcheck] at hfinalize
      cases hverify : verifySourceEntries encodings fs root checked.sourceEntries with
      | error message => simp [hverify] at hfinalize
      | ok _ =>
        simp only [hverify, Except.ok.injEq, Prod.mk.injEq] at hfinalize
        rw [← hfinalize.1, hchecked]
        rfl

/-- A published file that is indexed has an identity. -/
theorem identified_of_indexed (hhashes : Hashes encodings) (hchanged : fs.Tree)
    {entries : List CapsuleManifestEntry}
    (hentries : manifestEntries encodings fs root (walkedPaths fs root) = .ok entries)
    {publication : String × Bytes} (hname : SourceName publication.1)
    (hlanded : Landed encodings.sha256 (artifactCall root publication.1 publication.2) fs)
    {entry : CapsuleManifestEntry} (hentry : entry ∈ entries) :
    Identified encodings root fs publication := by
  obtain ⟨hforward, hbackward, -⟩ := of_manifestEntries hentries
  obtain ⟨content, hnode, -⟩ := hlanded
  rw [target_artifactCall] at hnode
  have hsource := hname.source
  refine ⟨content, hnode, ?_⟩
  rcases hcomponents : ArtifactPaths.components publication.1 with _ | ⟨first, _ | ⟨second, rest⟩⟩
  · exact absurd hcomponents (components_ne_nil _)
  · -- A file that is named `source` has nothing below it, so that nothing is walked.
    rw [hcomponents, List.head?_cons, Option.some.injEq] at hsource
    rw [hcomponents, hsource] at hnode
    obtain ⟨path, hpath, -⟩ := hbackward entry hentry
    obtain ⟨second, rest, rfl, hpresent⟩ := mem_walkedPaths.mp hpath
    rw [List.append_cons] at hpresent
    have hdirectory := hchanged.directory (List.cons_ne_nil _ _) hpresent
    rw [hnode] at hdirectory
    cases hdirectory
  · rw [hcomponents, List.head?_cons, Option.some.injEq] at hsource
    rw [hsource] at hcomponents ⊢
    rw [hcomponents] at hnode
    have hpath : "source" :: second :: rest ∈ walkedPaths fs root :=
      mem_walkedPaths.mpr ⟨second, rest, rfl, by rw [hnode]; exact Option.some_ne_none _⟩
    obtain ⟨found, -, hread⟩ := hforward _ hpath content hnode
    refine (exists_manifestEntry_iff hhashes fun component hmem ↦ ?_).mp ⟨found, hread⟩
    refine hname.safeComponents ?_
    rw [hcomponents]
    exact List.mem_cons_of_mem _ hmem

/-- A temporary file that was left has the path of a published file when finalization indexes exactly
these. -/
theorem published_of_finalized {runId runSpecHash : String} {manifest : CapsuleManifest} {call : Call}
    (hnames : ∀ publication ∈ publications, SourceName publication.1)
    (hchanged : Changed (publicationWrites root publications) stops start.toFileSystem fs)
    (hidentified : ∀ publication ∈ publications, Identified encodings root fs publication)
    (hfinalized : Finalized encodings publications root runId runSpecHash fs manifest call)
    {path : Path} (hpath : some path ∈ stops) :
    ∃ publication ∈ publications, path = root ++ ArtifactPaths.components publication.1 := by
  have hentries := of_finalizeCapsule hfinalized.finalizes
  obtain ⟨⟨call, hcall, hname⟩, content, hnode⟩ := hchanged.left path hpath
  obtain ⟨publication, hmem, rfl⟩ := mem_publicationWrites.mp hcall
  obtain ⟨temporary, rfl, hplain, -⟩ := of_isTemporary hname
  obtain ⟨written, hwritten, hindexable⟩ := hidentified publication hmem
  obtain ⟨second, rest, hcomponents, -⟩ :=
    mem_walkedPaths.mp (mem_walkedPaths_of_indexable (hnames publication hmem) hindexable hwritten)
  -- The temporary file lies below `source`, so that it is walked and has an entry.
  obtain ⟨third, more, hbelow⟩ : ∃ third more,
      (second :: rest).dropLast ++ [temporary] = third :: more :=
    List.exists_cons_of_ne_nil (List.concat_ne_nil _ _)
  have hsource : (ArtifactPaths.components publication.1).dropLast ++ [temporary] =
      "source" :: third :: more := by
    rw [hcomponents, List.dropLast_cons_cons, List.cons_append, hbelow]
  rw [hsource] at hnode hplain ⊢
  have hwalked : "source" :: third :: more ∈ walkedPaths fs root :=
    mem_walkedPaths.mpr ⟨third, more, rfl, by rw [hnode]; exact Option.some_ne_none _⟩
  obtain ⟨entry, hentry, hread⟩ := (of_manifestEntries hentries).1 _ hwalked content hnode
  obtain ⟨other, hother, hrelative, -⟩ := hfinalized.published entry hentry
  refine ⟨other, hother, ?_⟩
  rw [← hrelative, (of_manifestEntry hread).1, components_posix hplain (List.cons_ne_nil _ _)]

theorem sourceName_of_requests (hhashes : Hashes encodings)
    (hrequests : ∀ publication ∈ publications, ∃ request,
      publicationOf encodings request = .ok publication) {publication : String × Bytes}
    (hmem : publication ∈ publications) : SourceName publication.1 := by
  obtain ⟨request, hrequest⟩ := hrequests publication hmem
  exact sourceName_of_publicationOf hhashes.sha256 hrequest

/-- What was published and left when finalization indexes exactly the published files. -/
theorem of_finalized (hhashes : Hashes encodings) {runId runSpecHash : String}
    (hrequests : ∀ publication ∈ publications, ∃ request,
      publicationOf encodings request = .ok publication)
    (hretries : Retries encodings.sha256 start.toFileSystem (publicationWrites root publications)
      stops fs) {manifest : CapsuleManifest} {call : Call}
    (hfinalized : Finalized encodings publications root runId runSpecHash fs manifest call) :
    (∀ publication ∈ publications, Identified encodings root fs publication) ∧
      ∀ path, some path ∈ stops → ∃ publication ∈ publications,
        path = root ++ ArtifactPaths.components publication.1 := by
  have hnames : ∀ publication ∈ publications, SourceName publication.1 :=
    fun _ hmem ↦ sourceName_of_requests hhashes hrequests hmem
  obtain ⟨hchanged, hlanded⟩ :=
    Changed.of_retries start rfl (fun _ hcall ↦ write_publicationWrites hcall) hretries
  have hentries := of_finalizeCapsule hfinalized.finalizes
  have hidentified : ∀ publication ∈ publications, Identified encodings root fs publication := by
    intro publication hmem
    obtain ⟨entry, hentry, -⟩ := hfinalized.indexed publication hmem
    exact identified_of_indexed hhashes hchanged.tree hentries (hnames publication hmem)
      (hlanded _ (mem_publicationWrites.mpr ⟨publication, hmem, rfl⟩)) hentry
  exact ⟨hidentified, fun path hpath ↦
    published_of_finalized hnames hchanged hidentified hfinalized hpath⟩

/-- Finalization after interrupted publications succeeds and indexes exactly the published files if
and only if every published file has an identity and no temporary file was left, except at the path
of a published file. -/
theorem finalized_iff (hhashes : Hashes encodings) {runId runSpecHash : String} (hrun : runId ≠ "")
    (hspec : IsDigest runSpecHash)
    (hrequests : ∀ publication ∈ publications, ∃ request,
      publicationOf encodings request = .ok publication)
    (hstore : NewStore start.toFileSystem root)
    (hretries : Retries encodings.sha256 start.toFileSystem (publicationWrites root publications)
      stops fs) :
    (∃ manifest call, Finalized encodings publications root runId runSpecHash fs manifest call) ↔
      (∀ publication ∈ publications, Identified encodings root fs publication) ∧
        ∀ path, some path ∈ stops → ∃ publication ∈ publications,
          path = root ++ ArtifactPaths.components publication.1 := by
  constructor
  · rintro ⟨manifest, call, hfinalized⟩
    exact of_finalized hhashes hrequests hretries hfinalized
  · rintro ⟨hidentified, hleft⟩
    obtain ⟨hchanged, hlanded⟩ :=
      Changed.of_retries start rfl (fun _ hcall ↦ write_publicationWrites hcall) hretries
    refine finalized_of_identified hhashes hrun hspec
      (fun _ hmem ↦ sourceName_of_requests hhashes hrequests hmem) hstore hchanged hlanded
      hidentified fun path hpath ↦ ?_
    obtain ⟨publication, hmem, rfl⟩ := hleft path hpath
    have hcall : artifactCall root publication.1 publication.2 ∈
      publicationWrites root publications := mem_publicationWrites.mpr ⟨publication, hmem, rfl⟩
    exact ⟨_, hcall, (target_artifactCall _ _ _).symm, hlanded _ hcall⟩

end Stores

/-! ### A record whose write is interrupted -/

/-- A source record. -/
def sampleRecord : Bytes := encodeText "\x7b\"schema_name\":\"run_record\"\x7d"

/-- The encodings of a capsule with that record. -/
def sampleEncodings : Encodings where
  sha256 content :=
    if content.length = 28 then "a165da8c5a2bb98ead4f678bbc520f7a6818688b30f7026ddd647fe634bb45aa"
    else "237bec733af164629302b169e738862e90dd3a2692ad88e92d6c7a39e5a0e2e7"
  deterministicGzip payload := payload
  schemaName content := if content = sampleRecord then some "run_record" else none
  canonicalSha256 _ := "f2558a2d347f4f2c2e6c968a18b486b6f845b062c977e57d26bad08340237780"
  entriesSha256 _ := "0c1a23d036f22fdc1c18b82b372d76bf2bb65a215f5e2f97033c83993c7bdeb5"
  canonicalJsonBytes manifest := encodeText manifest.capsuleId

/-- The record is published in the root directory. -/
def samplePublications : List (String × Bytes) := [("source/run/r.json", sampleRecord)]

/-- The specification hash of the run. -/
def sampleSpecHash : String := "e3b0c44298fc1c149afbf4c8996fb92427ae41e4649b934ca495991b7852b855"

/-- The write of the record. -/
def sampleCall : Call := artifactCall [] "source/run/r.json" sampleRecord

theorem hashes_sample : Hashes sampleEncodings := by
  refine ⟨fun content ↦ ?_, fun _ ↦ ?_, fun _ ↦ ?_⟩
  · simp only [sampleEncodings]
    split_ifs
    · decide
    · decide
  · exact (by decide : IsDigest "f2558a2d347f4f2c2e6c968a18b486b6f845b062c977e57d26bad08340237780")
  · exact (by decide : IsDigest "0c1a23d036f22fdc1c18b82b372d76bf2bb65a215f5e2f97033c83993c7bdeb5")

theorem newStore_empty : NewStore FileTree.empty.toFileSystem [] := by
  refine ⟨fun base hbase ↦ ?_, rfl, rfl⟩
  rw [List.prefix_nil.mp hbase]
  exact Or.inr rfl

theorem request_sample : ∀ publication ∈ samplePublications, ∃ request,
    publicationOf sampleEncodings request = .ok publication := by
  intro publication hmem
  rw [List.mem_singleton.mp hmem]
  exact ⟨.sourceRecord "run" "r" sampleRecord, rfl⟩

theorem unobstructed_sample :
    Unobstructed sampleEncodings.sha256 sampleCall FileTree.empty.toFileSystem := by
  refine ⟨rfl, fun base hbase ↦ ?_, Or.inl rfl⟩
  by_cases hroot : base = []
  · exact Or.inr (by rw [hroot]; rfl)
  · rw [FileSystem.node_eq_none]
    exact Or.inl ((Dictionary.lookup_insert_eq_ite _ _ _ _).trans (if_neg hroot))

theorem interrupted_sample : ∃ fs phase,
    Reaches sampleEncodings.sha256 sampleCall FileTree.empty.toFileSystem fs phase ∧
      phase.temporary = some ["source", "run", ".r.json.tmp-abcdefgh"] := by
  have hcheck : checkDirectories FileTree.empty.toFileSystem sampleCall =
    .ok ([], ["source", "run"]) := rfl
  have htemporary : sampleCall.IsTemporary ["source", "run", ".r.json.tmp-abcdefgh"] :=
    ⟨"abcdefgh", by decide, rfl⟩
  have hstart : Reaches sampleEncodings.sha256 sampleCall FileTree.empty.toFileSystem
    FileTree.empty.toFileSystem .checking := .start
  have hdirectories := ((hstart.step (.check hcheck)).step (.makeDirectory rfl rfl)).step
    (.makeDirectory rfl rfl)
  have hcreating := hdirectories.step (.targetChecked rfl)
  exact ⟨_, _, hcreating.step (.create rfl htemporary rfl), rfl⟩

/-- The record has an identity when it was written without an interruption. -/
theorem identified_sample {fs : FileSystem} {result : AtomicWriteResult}
    (hreaches : Reaches sampleEncodings.sha256 sampleCall FileTree.empty.toFileSystem fs
      (.returned result)) :
    ∀ publication ∈ samplePublications, Identified sampleEncodings [] fs publication := by
  have hvalid := WriteValid.of_reaches rfl hreaches
  intro publication hmem
  have hschema : sampleEncodings.schemaName sampleRecord = some "run_record" := by
    simp [sampleEncodings]
  rw [List.mem_singleton.mp hmem]
  refine ⟨sampleRecord, ?_, "run_record", hschema, by decide⟩
  rcases hvalid.nodes sampleCall.target with hsame | ⟨-, ⟨-, hnode⟩ | ⟨hleading, -⟩ | htemporary⟩
  · exact absurd hsame (hvalid.landed rfl).ne_none
  · exact hnode
  · exact absurd hleading (not_prefix_of_length length_target)
  · cases htemporary

theorem finalized_sample : ∃ fs,
    Retries sampleEncodings.sha256 FileTree.empty.toFileSystem
      (publicationWrites [] samplePublications) [] fs ∧
    ∃ manifest call,
      Finalized sampleEncodings samplePublications [] "r" sampleSpecHash fs manifest call := by
  obtain ⟨⟨fs, phase, hreaches, hended⟩, hreturns⟩ := succeeds_of_unobstructed unobstructed_sample
  obtain ⟨result, rfl⟩ := hreturns fs phase hreaches hended
  have hretries : Retries sampleEncodings.sha256 FileTree.empty.toFileSystem
    (publicationWrites [] samplePublications) [] fs := .published hreaches .nil
  exact ⟨fs, hretries, (finalized_iff hashes_sample (by decide) (by decide) request_sample
    newStore_empty hretries).mpr ⟨identified_sample hreaches, nofun⟩⟩

/-- After an interruption and a retry of the record, finalization does not index exactly the record. -/
theorem not_finalized_of_interruption : ∃ stops fs,
    NewStore FileTree.empty.toFileSystem [] ∧
    (∀ publication ∈ samplePublications, ∃ request,
      publicationOf sampleEncodings request = .ok publication) ∧
    Retries sampleEncodings.sha256 FileTree.empty.toFileSystem
      (publicationWrites [] samplePublications) stops fs ∧
    ¬ ∃ manifest call,
      Finalized sampleEncodings samplePublications [] "r" sampleSpecHash fs manifest call := by
  obtain ⟨middle, phase, hinterrupted, htemporary⟩ := interrupted_sample
  have hvalid := WriteValid.of_reaches rfl hinterrupted
  have hfree : Unobstructed sampleEncodings.sha256 sampleCall hvalid.fileTree.toFileSystem :=
    unobstructed_sample.of_valid hvalid
  obtain ⟨⟨fs, phase', hreaches, hended⟩, hreturns⟩ := succeeds_of_unobstructed hfree
  obtain ⟨result, rfl⟩ := hreturns fs phase' hreaches hended
  have hretries : Retries sampleEncodings.sha256 FileTree.empty.toFileSystem
    (publicationWrites [] samplePublications) [phase.temporary] fs :=
    .interrupted hinterrupted (.published hreaches .nil)
  refine ⟨_, fs, newStore_empty, request_sample, hretries, ?_⟩
  rintro ⟨manifest, call, hfinalized⟩
  obtain ⟨publication, hmem, hpath⟩ := (of_finalized hashes_sample request_sample hretries
    hfinalized).2 _ (List.mem_singleton.mpr htemporary.symm)
  rw [List.mem_singleton.mp hmem] at hpath
  exact absurd hpath (by decide)

end Oamb.Artifacts.FinalizationGuarantees
