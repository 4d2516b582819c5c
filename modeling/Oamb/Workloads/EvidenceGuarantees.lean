import Oamb.Workloads.EvidenceLabels
import Oamb.Workloads.EvidencePass

/-!
# What visible evidence shows

Of each identity the first item is shown, where it stands among the others. Every decision names the
label of the item that is shown for it. The sources are shown as they should be when no fact without
a reference meets a source chunk with the empty one (`deduplicates_iff`).
-/

set_option autoImplicit false

namespace Oamb.Workloads.EvidenceGuarantees

open Foundation Foundation.FirstOccurrences Foundation.StatefulExecution
open Contracts.NativeEvidence EvidenceRendering EvidencePass EvidenceLabels

variable {library : Library} {candidates kept : List NativeEvidenceCandidate}
  {candidate : NativeEvidenceCandidate} {pass : Pass}

/-! ### What is shown -/

/-- The items that are shown: of each identity the first. -/
def keptOf (candidates : List NativeEvidenceCandidate) : List NativeEvidenceCandidate :=
  firstsBy identity candidates

def build (library : Library) (candidates : List NativeEvidenceCandidate) :
    Except EvidenceError VisibleEvidence :=
  buildLmeVisibleEvidence library candidates lmeVisibleEvidencePolicy

def headersOf (library : Library) (kept : List NativeEvidenceCandidate) :
    Except EvidenceError (List (List String)) :=
  (kept.zip (labelsOf kept)).mapM (headerIn library kept)

/-- The decision about an item names the label of the item that is shown for it. -/
def DecidedAt (library : Library) (candidates : List NativeEvidenceCandidate)
    (decisions : List EvidenceDecision) (position : ℕ) (candidate : NativeEvidenceCandidate) :
    Prop :=
  ∃ (place : ℕ) (item : NativeEvidenceCandidate) (label : String),
    (keptOf candidates)[place]? = some item ∧ identity item = identity candidate ∧
      (labelsOf (keptOf candidates))[place]? = some label ∧
        decisions[position]? =
          some { decisionAt library (candidates.take position) candidate with label := some label }

/-- What is shown of some items, but for their sources. -/
structure Presents (library : Library) (candidates : List NativeEvidenceCandidate)
    (evidence : VisibleEvidence) (headers : List (List String)) : Prop where
  included : evidence.includedNativeIds =
    (keptOf candidates).map NativeEvidenceCandidate.nativeId
  counted : evidence.candidateCount = candidates.length ∧
    evidence.keptCount = (keptOf candidates).length ∧
      (evidence.keptCount : ℤ) + evidence.droppedCount = candidates.length
  labelled : (labelsOf (keptOf candidates)).length = (keptOf candidates).length ∧
    (labelsOf (keptOf candidates)).Nodup
  decided : evidence.decisions.length = candidates.length ∧
    ∀ (position : ℕ) (candidate : NativeEvidenceCandidate), candidates[position]? = some candidate →
      DecidedAt library candidates evidence.decisions position candidate
  headed : headers.length = (keptOf candidates).length ∧
    ∀ (place : ℕ) (item : NativeEvidenceCandidate), (keptOf candidates)[place]? = some item →
      ∃ label header, (labelsOf (keptOf candidates))[place]? = some label ∧
        headers[place]? = some header ∧ header.take 2 = ["[" ++ label ++ "]", item.evidenceKind]
  payload : evidence.canonicalBytes =
    encode ("\n\n".intercalate (List.zipWith blockOf headers (keptOf candidates)))

theorem exists_labelAt {place : ℕ} (hitem : kept[place]? = some candidate) :
    ∃ label, (labelsOf kept)[place]? = some label := by
  have hplace : place < (labelsOf kept).length := by
    rw [labelsOf, (labelled_assignLabels kept).length]
    exact (List.getElem?_eq_some_iff.mp hitem).1
  exact ⟨(labelsOf kept)[place], List.getElem?_eq_getElem hplace⟩

/-- The header of an item stands where the item does. -/
theorem header_at {headers : List (List String)} (hheaders : headersOf library kept = .ok headers)
    {place : ℕ} (hitem : kept[place]? = some candidate) :
    ∃ label header, (labelsOf kept)[place]? = some label ∧ headers[place]? = some header ∧
      headerOf library (assignLabels kept).sourceLabels candidate label = .ok header := by
  obtain ⟨label, hlabel⟩ := exists_labelAt hitem
  have hzip : (kept.zip (labelsOf kept))[place]? = some (candidate, label) :=
    List.getElem?_zip_eq_some.mpr ⟨hitem, hlabel⟩
  have hmap := congrArg (fun outcomes ↦ outcomes[place]?) (mapM_eq_ok.mp hheaders)
  simp only [List.getElem?_map, hzip, Option.map_some] at hmap
  obtain ⟨header, hheader, hsame⟩ := Option.map_eq_some_iff.mp hmap.symm
  exact ⟨label, header, hlabel, hheader, hsame.symm⟩

theorem length_headersOf {headers : List (List String)}
    (hheaders : headersOf library kept = .ok headers) : headers.length = kept.length := by
  have hlength := congrArg List.length (mapM_eq_ok.mp hheaders)
  rw [List.length_map, List.length_map, List.length_zip, labelsOf,
    (labelled_assignLabels kept).length, min_self] at hlength
  exact hlength.symm

theorem renderCompactEvidence_eq_ok {rendered : String × List String} :
    renderCompactEvidence library kept = .ok rendered ↔
      ∃ headers, headersOf library kept = .ok headers ∧
        rendered = ("\n\n".intercalate (List.zipWith blockOf headers kept), labelsOf kept) := by
  unfold renderCompactEvidence
  rw [bind_eq_ok]
  refine exists_congr fun headers ↦ and_congr_right fun _ ↦ ?_
  exact ⟨fun hpure ↦ (Except.ok.inj hpure).symm, fun hsame ↦ congrArg Except.ok hsame.symm⟩

/-! ### Decisions -/

theorem identities_eq (hidentified : Identified kept) :
    kept.mapM identityOf = .ok (kept.map identity) := by
  rw [mapM_eq_ok, List.map_map]
  exact List.map_congr_left fun candidate hmem ↦ identityOf_eq (hidentified candidate hmem)

theorem map_fst_zip_labels :
    (((keptOf candidates).map identity).zip (labelsOf (keptOf candidates))).map Prod.fst =
      (keptOf candidates).map identity := by
  refine List.map_fst_zip ?_
  rw [List.length_map, labelsOf, (labelled_assignLabels _).length]

/-- The label of an identity is that of the item that is shown for it. -/
theorem exists_label (hmem : candidate ∈ candidates) :
    ∃ (place : ℕ) (item : NativeEvidenceCandidate) (label : String),
      (keptOf candidates)[place]? = some item ∧ identity item = identity candidate ∧
        (labelsOf (keptOf candidates))[place]? = some label ∧
          (Dictionary.ofList (((keptOf candidates).map identity).zip
            (labelsOf (keptOf candidates)))).lookup (identity candidate) = some label := by
  obtain ⟨item, hitem, hidentity⟩ := List.mem_map.mp
    (mem_map_firstsBy.mpr (List.mem_map_of_mem (f := identity) hmem))
  obtain ⟨place, hplace⟩ := List.mem_iff_getElem?.mp hitem
  obtain ⟨label, hlabel⟩ := exists_labelAt hplace
  refine ⟨place, item, label, hplace, hidentity, hlabel, ?_⟩
  refine (Dictionary.lookup_ofList ?_).mpr (List.mem_iff_getElem?.mpr ⟨place, ?_⟩)
  · rw [map_fst_zip_labels]
    exact nodup_map_firstsBy candidates
  · refine List.getElem?_zip_eq_some.mpr ⟨?_, hlabel⟩
    rw [List.getElem?_map, show (keptOf candidates)[place]? = some item from hplace, ← hidentity]
    rfl

theorem labelDecision_eq {labelsByIdentity : Dictionary String String}
    {decision : EvidenceDecision} {label : String}
    (hlookup : labelsByIdentity.lookup decision.providerEvidenceIdentity = some label) :
    labelDecision labelsByIdentity decision = .ok { decision with label := some label } := by
  rw [labelDecision, hlookup]

theorem decidedAt {decisions : List EvidenceDecision}
    (hrepresents : Represents library candidates pass)
    (hdecisions : pass.decisions.mapM (labelDecision (Dictionary.ofList
      (((keptOf candidates).map identity).zip (labelsOf (keptOf candidates))))) = .ok decisions)
    {position : ℕ} (hitem : candidates[position]? = some candidate) :
    DecidedAt library candidates decisions position candidate := by
  obtain ⟨place, item, label, hplace, hidentity, hlabel, hlookup⟩ :=
    exists_label (List.mem_of_getElem? hitem)
  refine ⟨place, item, label, hplace, hidentity, hlabel, ?_⟩
  have hmap := congrArg (fun outcomes ↦ outcomes[position]?) (mapM_eq_ok.mp hdecisions)
  simp only [List.getElem?_map, hrepresents.decisions position candidate hitem, Option.map_some]
    at hmap
  obtain ⟨decision, hdecision, hsame⟩ := Option.map_eq_some_iff.mp hmap.symm
  rw [labelDecision_eq hlookup] at hsame
  rw [hdecision, Except.ok.inj hsame]

theorem exists_decisions (hrepresents : Represents library candidates pass) :
    ∃ decisions, pass.decisions.mapM (labelDecision (Dictionary.ofList
      (((keptOf candidates).map identity).zip (labelsOf (keptOf candidates))))) =
        .ok decisions := by
  refine exists_mapM fun decision hdecision ↦ ?_
  obtain ⟨position, hposition⟩ := List.mem_iff_getElem?.mp hdecision
  have hlt : position < candidates.length :=
    hrepresents.length ▸ (List.getElem?_eq_some_iff.mp hposition).1
  have hitem := List.getElem?_eq_getElem hlt
  rw [hrepresents.decisions position _ hitem] at hposition
  cases hposition
  obtain ⟨-, -, label, -, -, -, hlookup⟩ := exists_label (List.mem_of_getElem? hitem)
  exact ⟨_, labelDecision_eq hlookup⟩

/-! ### Building -/

/-- The items are in order, have identities, are without a conflict, and can be rendered. -/
structure Accepted (library : Library) (candidates : List NativeEvidenceCandidate) : Prop where
  ranked : Ranked candidates
  identified : Identified candidates
  consistent : ¬Conflicting candidates
  renderable : ∀ candidate ∈ keptOf candidates, Renderable library candidate

theorem build_eq : build library candidates =
    (passOver library candidates >>= fun pass ↦
      renderCompactEvidence library pass.kept >>= fun rendered ↦
        pass.kept.mapM identityOf >>= fun identities ↦
          pass.decisions.mapM
              (labelDecision (Dictionary.ofList (identities.zip rendered.2))) >>= fun decisions ↦
            .ok
              { canonicalBytes := encode rendered.1
                sha256 := library.sha256 (encode rendered.1)
                includedNativeIds := pass.kept.map NativeEvidenceCandidate.nativeId
                tokenCount := library.countO200kTokens (encode rendered.1)
                candidateCount := candidates.length
                keptCount := pass.kept.length
                droppedCount := (decisions.length : ℤ) - pass.kept.length
                truncatedCount := pass.kept.countP NativeEvidenceCandidate.nativeTruncated
                firstExceededLimit := none
                decisions
                payloadByteCount := (encode rendered.1).length
                characterCount := rendered.1.toList.length
                tokenizerFingerprint := library.tokenizerFingerprint }) := rfl

theorem keptOf_sublist (candidates : List NativeEvidenceCandidate) :
    (keptOf candidates).Sublist candidates :=
  firstsBy_sublist candidates

theorem keptOf_identified (hidentified : Identified candidates) :
    Identified (keptOf candidates) := fun candidate hmem ↦
  hidentified candidate ((keptOf_sublist candidates).subset hmem)

/-- What is accepted is shown. -/
theorem exists_build (haccepted : Accepted library candidates) :
    ∃ evidence, build library candidates = .ok evidence := by
  obtain ⟨pass, hpass, hrepresents⟩ := passOver_of_good library haccepted.ranked
    haccepted.identified haccepted.consistent
  obtain ⟨headers, hheaders⟩ : ∃ headers, headersOf library (keptOf candidates) = .ok headers :=
    exists_mapM fun labelled hlabelled ↦
      exists_headerOf _ _ (haccepted.renderable _ (List.of_mem_zip hlabelled).1)
  obtain ⟨decisions, hdecisions⟩ := exists_decisions hrepresents
  rw [build_eq]
  refine Exists.imp (fun evidence hrest ↦ bind_eq_ok.mpr ⟨pass, hpass, hrest⟩) ?_
  rw [hrepresents.kept, ← keptOf]
  refine Exists.imp (fun evidence hrest ↦ bind_eq_ok.mpr
    ⟨_, renderCompactEvidence_eq_ok.mpr ⟨headers, hheaders, rfl⟩, hrest⟩) ?_
  refine Exists.imp (fun evidence hrest ↦ bind_eq_ok.mpr
    ⟨_, identities_eq (keptOf_identified haccepted.identified), hrest⟩) ?_
  exact Exists.imp (fun evidence hrest ↦ bind_eq_ok.mpr ⟨decisions, hdecisions, hrest⟩) ⟨_, rfl⟩

/-- What is shown was accepted, and is shown as it should be. -/
theorem presents_of_build (htells : TellsApart library candidates) {evidence : VisibleEvidence}
    (hbuild : build library candidates = .ok evidence) :
    Accepted library candidates ∧ ∃ headers,
      headersOf library (keptOf candidates) = .ok headers ∧
        Presents library candidates evidence headers := by
  rw [build_eq] at hbuild
  obtain ⟨pass, hpass, hbuild⟩ := bind_eq_ok.mp hbuild
  obtain ⟨hranked, hidentified, hnot⟩ := good_of_passOver htells hpass
  obtain ⟨other, hother, hrepresents⟩ :=
    passOver_of_good library hranked hidentified hnot
  rw [hpass] at hother
  cases hother
  rw [hrepresents.kept, ← keptOf] at hbuild
  obtain ⟨rendered, hrendered, hbuild⟩ := bind_eq_ok.mp hbuild
  obtain ⟨headers, hheaders, rfl⟩ := renderCompactEvidence_eq_ok.mp hrendered
  rw [identities_eq (keptOf_identified hidentified)] at hbuild
  obtain ⟨identities, hidentities, hbuild⟩ := bind_eq_ok.mp hbuild
  cases hidentities
  obtain ⟨decisions, hdecisions, hevidence⟩ := bind_eq_ok.mp hbuild
  have hlength : decisions.length = candidates.length := by
    have hlengths := congrArg List.length (mapM_eq_ok.mp hdecisions)
    rw [List.length_map, List.length_map, hrepresents.length] at hlengths
    exact hlengths.symm
  have hlabelled := labelled_assignLabels (keptOf candidates)
  have hat : ∀ (place : ℕ) (item : NativeEvidenceCandidate),
      (keptOf candidates)[place]? = some item → ∃ label header,
        (labelsOf (keptOf candidates))[place]? = some label ∧ headers[place]? = some header ∧
          headerOf library (assignLabels (keptOf candidates)).sourceLabels item label =
            .ok header := fun place item hitem ↦ header_at hheaders hitem
  cases hevidence
  refine ⟨⟨hranked, hidentified, hnot, fun item hitem ↦ ?_⟩, headers, hheaders, rfl,
    ⟨rfl, rfl, ?_⟩, ⟨hlabelled.length, hlabelled.distinct⟩, ⟨hlength, ?_⟩,
    ⟨length_headersOf hheaders, fun place item hitem ↦ ?_⟩, rfl⟩
  · obtain ⟨place, hplace⟩ := List.mem_iff_getElem?.mp hitem
    obtain ⟨label, header, -, -, hheader⟩ := hat place item hplace
    exact (headerOf_eq_ok hheader).1
  · rw [hlength]
    exact add_sub_cancel _ _
  · exact fun position item hitem ↦ decidedAt hrepresents hdecisions hitem
  · obtain ⟨label, header, hlabel, hplace, hheader⟩ := hat place item hitem
    exact ⟨label, header, hlabel, hplace, (headerOf_eq_ok hheader).2.1⟩

/-- Only the pass finds conflicts. -/
theorem build_conflict_iff (htells : TellsApart library candidates) :
    (∃ message, build library candidates = .error (.conflict message)) ↔
      ∃ message, passOver library candidates = .error (.conflict message) := by
  rw [build_eq]
  refine exists_congr fun message ↦ ⟨fun hbuild ↦ ?_, fun hpass ↦ bind_eq_error.mpr (.inl hpass)⟩
  rcases bind_eq_error.mp hbuild with hpass | ⟨pass, hpass, hbuild⟩
  · exact hpass
  obtain ⟨hranked, hidentified, hnot⟩ := good_of_passOver htells hpass
  obtain ⟨other, hother, hrepresents⟩ :=
    passOver_of_good library hranked hidentified hnot
  rw [hpass] at hother
  cases hother
  rw [hrepresents.kept, ← keptOf, identities_eq (keptOf_identified hidentified)] at hbuild
  rcases bind_eq_error.mp hbuild with hrender | ⟨rendered, hrendered, hbuild⟩
  · rcases bind_eq_error.mp hrender with hheaders | ⟨headers, -, hpure⟩
    · obtain ⟨labelled, -, hheader⟩ := error_of_mapM hheaders
      obtain ⟨other, hother⟩ := headerOf_error hheader
      exact nomatch hother
    · exact nomatch hpure
  obtain ⟨headers, -, rfl⟩ := renderCompactEvidence_eq_ok.mp hrendered
  obtain ⟨decisions, hdecisions⟩ := exists_decisions hrepresents
  rcases bind_eq_error.mp hbuild with hidentities | ⟨identities, hidentities, hbuild⟩
  · exact nomatch hidentities
  cases hidentities
  rw [hdecisions] at hbuild
  exact nomatch hbuild

/-! ### Nothing is lost -/

/-- What is kept stands in the order of the items, has no identity twice, and is of each identity
the first item. -/
structure KeepsFirsts (candidates kept : List NativeEvidenceCandidate) : Prop where
  ordered : kept.Sublist candidates
  distinct : (kept.map identity).Nodup
  first : ∀ wanted, kept.find? (fun item ↦ identity item = wanted) =
    candidates.find? fun item ↦ identity item = wanted

/-- Items are shown once, with their labels and sources, and a conflict is reported when items that
were read conflict. -/
structure Deduplicates (library : Library) (candidates : List NativeEvidenceCandidate) : Prop where
  keeps : KeepsFirsts candidates (keptOf candidates)
  shown : ∀ evidence, build library candidates = .ok evidence → ∃ headers,
    headersOf library (keptOf candidates) = .ok headers ∧
      Presents library candidates evidence headers ∧
        ∀ (place : ℕ) (item : NativeEvidenceCandidate) (header : List String),
          (keptOf candidates)[place]? = some item → headers[place]? = some header →
            ShowsSource (keptOf candidates) item header
  conflict : Ranked candidates →
    ((∃ message, build library candidates = .error (.conflict message)) ↔
      ∃ start, start <+: candidates ∧ Identified start ∧ Conflicting start)
  identified : Ranked candidates → Identified candidates →
    ((∃ message, build library candidates = .error (.conflict message)) ↔ Conflicting candidates)

theorem keepsFirsts (candidates : List NativeEvidenceCandidate) :
    KeepsFirsts candidates (keptOf candidates) :=
  ⟨keptOf_sublist candidates, nodup_map_firstsBy candidates, find_firstsBy candidates⟩

theorem conflict_identified_iff (htells : TellsApart library candidates)
    (hranked : Ranked candidates) (hidentified : Identified candidates) :
    (∃ message, build library candidates = .error (.conflict message)) ↔
      Conflicting candidates := by
  rw [build_conflict_iff htells, passOver_conflict_iff htells hranked]
  constructor
  · rintro ⟨start, hstart, -, hconflicting⟩
    exact hconflicting.mono hstart.subset
  · exact fun hconflicting ↦
      ⟨candidates, List.prefix_refl _, hidentified, hconflicting⟩

/-- Where every source is shown, no missing reference is taken for an empty one. -/
theorem namedSources_of_deduplicates (hdeduplicates : Deduplicates library candidates)
    (haccepted : Accepted library candidates) : NamedSources (keptOf candidates) := by
  obtain ⟨evidence, hbuild⟩ := exists_build haccepted
  obtain ⟨headers, hheaders, -, hsources⟩ := hdeduplicates.shown evidence hbuild
  by_contra hnamed
  unfold NamedSources at hnamed
  push Not at hnamed
  obtain ⟨⟨chunk, hchunk, hsource, hempty⟩, fact, hfact, hkind, hnone⟩ := hnamed
  obtain ⟨place, hplace⟩ := List.mem_iff_getElem?.mp hfact
  obtain ⟨label, header, -, hheader, hheaderOf⟩ := header_at hheaders hplace
  exact not_showsSource hkind hnone hchunk hsource hempty (headerOf_eq_ok hheaderOf).2.2
    (hsources place fact header hplace hheader)

/-- Accepted items are shown as they should be when no fact without a reference meets a source chunk
with the empty one, and only then. -/
theorem deduplicates_iff (library : Library) (candidates : List NativeEvidenceCandidate)
    (htells : TellsApart library candidates) :
    Deduplicates library candidates ↔
      (Accepted library candidates → NamedSources (keptOf candidates)) := by
  refine ⟨namedSources_of_deduplicates, fun hnamed ↦ ⟨keepsFirsts candidates,
    fun evidence hbuild ↦ ?_, fun hranked ↦ ?_, conflict_identified_iff htells⟩⟩
  · obtain ⟨haccepted, headers, hheaders, hpresents⟩ := presents_of_build htells hbuild
    refine ⟨headers, hheaders, hpresents, fun place item header hitem hheader ↦ ?_⟩
    obtain ⟨label, other, -, hother, hheaderOf⟩ := header_at hheaders hitem
    rw [hheader] at hother
    cases hother
    exact showsSource (hnamed haccepted) (List.mem_of_getElem? hitem)
      (headerOf_eq_ok hheaderOf).2.2
  · rw [build_conflict_iff htells, passOver_conflict_iff htells hranked]

/-! ### A chunk with the empty reference -/

/-- A digest that tells texts apart, and no timestamps. -/
def sampleLibrary : Library where
  sha256 := fun bytes ↦ String.ofList (bytes.map fun byte ↦ Char.ofNat byte.toNat)
  countO200kTokens := List.length
  tokenizerFingerprint := "tokenizer"
  fromIsoFormat := fun _ ↦ none

def sampleItem (rank : ℤ) (identity kind content : String) (reference : Option String) :
    NativeEvidenceCandidate where
  nativeId := identity
  nativeRank1Indexed := rank
  content
  nativeScore := none
  providerEvidenceIdentity := some identity
  evidenceKind := kind
  nativeReference := reference

/-- A fact, and the source chunk behind it. -/
def sampleCandidates (reference : Option String) : List NativeEvidenceCandidate :=
  [sampleItem 1 "fact" "world" "tea" reference,
    sampleItem 2 "chunk" "source_chunk" "leaves" (some (reference.getD ""))]

theorem sample_tellsApart (reference : Option String) :
    TellsApart sampleLibrary (sampleCandidates reference) := by
  have hteas : sampleLibrary.sha256 (encode "tea") ≠ sampleLibrary.sha256 (encode "leaves") := by
    decide +kernel
  unfold TellsApart sampleCandidates sampleItem
  simp only [List.forall_mem_cons, List.not_mem_nil, false_imp_iff, implies_true, and_true]
  exact ⟨⟨trivial, fun hsame ↦ absurd hsame hteas⟩, fun hsame ↦ absurd hsame.symm hteas⟩

theorem sample_accepted (reference : Option String) :
    Accepted sampleLibrary (sampleCandidates reference) where
  ranked := by
    rintro (_ | _ | position) candidate hcandidate
    · cases hcandidate
      rfl
    · cases hcandidate
      rfl
    · exact nomatch hcandidate
  identified := by simp [Identified, sampleCandidates, sampleItem, identity]
  consistent := by simp [Conflicting, sampleCandidates, sampleItem, identity]
  renderable := by
    intro candidate hcandidate
    have hmem := (keptOf_sublist (sampleCandidates reference)).subset hcandidate
    simp only [sampleCandidates, List.mem_cons, List.not_mem_nil, or_false] at hmem
    rcases hmem with rfl | rfl
    · exact ⟨by simp [sampleItem], nofun, nofun, nofun⟩
    · exact ⟨by simp [sampleItem], nofun, nofun, nofun⟩

theorem sample_keptOf (reference : Option String) :
    keptOf (sampleCandidates reference) = sampleCandidates reference := by
  rfl

/-- A fact that has its reference names its source chunk. -/
theorem sample_deduplicates : TellsApart sampleLibrary (sampleCandidates (some "a1")) ∧
    Deduplicates sampleLibrary (sampleCandidates (some "a1")) := by
  refine ⟨sample_tellsApart _, (deduplicates_iff _ _ (sample_tellsApart _)).mpr fun _ ↦ .inr ?_⟩
  rw [sample_keptOf]
  simp [sampleCandidates, sampleItem, IsSourceChunk]

/-- A fact without a reference names the source chunk whose reference is empty. -/
theorem missing_reference_names_source :
    ¬Deduplicates sampleLibrary (sampleCandidates none) := by
  intro hdeduplicates
  have hnamed := namedSources_of_deduplicates hdeduplicates (sample_accepted none)
  rw [sample_keptOf] at hnamed
  simp [NamedSources, sampleCandidates, sampleItem, IsSourceChunk] at hnamed

example : renderCompactEvidence sampleLibrary (sampleCandidates none) =
    .ok ("[F1] world source=S1\ntea\n\n[S1] source_chunk\nleaves", ["F1", "S1"]) := by
  rfl

end Oamb.Workloads.EvidenceGuarantees
