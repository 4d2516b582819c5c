import Oamb.Workloads.BudgetedPass
import Oamb.Workloads.EvidenceGuarantees
import Oamb.Workloads.TokenChunks

/-!
# What visible evidence within a budget shows

The items that are shown are the first ones of their identities up to the first that exceeds a
limit, whose content may be cut. They are within every limit, and every item has one decision
(`buildMabVisibleEvidence_exact`).
-/

set_option autoImplicit false

namespace Oamb.Workloads.BudgetGuarantees

open Foundation Foundation.FirstOccurrences Foundation.StatefulExecution
open Contracts.NativeEvidence EvidenceRendering BudgetedEvidence BudgetedLines BudgetedPass
open EvidencePass (identity Ranked TellsApart Conflicting)
open EvidenceGuarantees (sampleLibrary sampleItem)
open TokenChunks (byteTokens)

variable {τ : Type} {library : Library} {encoding : ByteTokenizer τ}
  {policy : VisibleEvidencePolicy} {candidates whole : List NativeEvidenceCandidate}
  {cut : Option (NativeEvidenceCandidate × String)} {evidence : VisibleEvidence}

/-- What is shown of some items, with the items that are shown whole and the one that is cut. -/
structure Presents (library : Library) (encoding : ByteTokenizer τ)
    (policy : VisibleEvidencePolicy) (candidates : List NativeEvidenceCandidate)
    (evidence : VisibleEvidence) (whole : List NativeEvidenceCandidate)
    (cut : Option (NativeEvidenceCandidate × String)) : Prop where
  budgeted : Budgeted encoding policy (firstsBy identity candidates) whole cut
    evidence.firstExceededLimit
  ordered : (shownItems whole cut).Sublist candidates
  distinct : ((shownItems whole cut).map identity).Nodup
  payload : evidence.canonicalBytes = encode (joinLines (shownLines whole cut))
  included : evidence.includedNativeIds =
    (shownItems whole cut).map NativeEvidenceCandidate.nativeId
  items : ∀ bound, policy.maxItems = some bound → candidates ≠ [] ∨ 0 ≤ bound →
    (shownItems whole cut).length ≤ bound
  characters : evidence.characterCount = (joinLines (shownLines whole cut)).toList.length ∧
    ∀ bound, policy.maxCharacters = some bound → candidates ≠ [] ∨ 0 ≤ bound →
      evidence.characterCount ≤ bound
  tokens : evidence.tokenCount = countO200kTokens encoding (joinLines (shownLines whole cut)) ∧
    ∀ bound, policy.maxTokens = some bound → candidates ≠ [] ∨ 0 ≤ bound →
      evidence.tokenCount ≤ bound
  decided : evidence.decisions.length = candidates.length ∧
    ∀ (position : ℕ) (candidate : NativeEvidenceCandidate),
      candidates[position]? = some candidate → evidence.decisions[position]? =
        some (decisionOf library whole cut evidence.firstExceededLimit (candidates.take position)
          candidate)
  kept : evidence.keptCount = (shownItems whole cut).length ∧
    countDecisions [.kept] evidence.decisions + countDecisions [.truncated] evidence.decisions =
      evidence.keptCount
  counted : evidence.candidateCount = candidates.length ∧
    evidence.truncatedCount = countDecisions [.truncated] evidence.decisions ∧
      (evidence.keptCount : ℤ) + evidence.droppedCount = evidence.candidateCount

theorem buildMabVisibleEvidence_eq :
    buildMabVisibleEvidence library encoding candidates policy =
      (passOver library encoding policy candidates >>= fun pass ↦
        if candidates ≠ [] ∧ joinLines pass.lines = "" then
          .error (.value "non-empty native evidence produced an empty visible context")
        else .ok
          { canonicalBytes := encode (joinLines pass.lines)
            sha256 := library.sha256 (encode (joinLines pass.lines))
            includedNativeIds := pass.includedIds
            tokenCount := countO200kTokens encoding (joinLines pass.lines)
            candidateCount := candidates.length
            keptCount := pass.lines.length
            droppedCount := countDecisions [.duplicate, .budgetDropped] pass.decisions
            truncatedCount := countDecisions [.truncated] pass.decisions
            firstExceededLimit := pass.firstExceeded
            decisions := pass.decisions
            payloadByteCount := (encode (joinLines pass.lines)).length
            characterCount := (joinLines pass.lines).toList.length
            tokenizerFingerprint := library.tokenizerFingerprint }) := rfl

/-- What is shown is within the limits, unless there is nothing to show and a limit is negative. -/
theorem within_shown {exceeded : Option String}
    (hbudgeted : Budgeted encoding policy (firstsBy identity candidates) whole cut exceeded)
    (hshown : ¬(candidates ≠ [] ∧ shownLines whole cut = [])) {limit : Option ℤ}
    (count : List String → ℕ)
    (hwithin : ∀ lines, Within encoding policy lines →
      ∀ bound, limit = some bound → (count lines : ℤ) ≤ bound) (hcount : count [] = 0) {bound : ℤ}
    (hbound : limit = some bound) (hbatch : candidates ≠ [] ∨ 0 ≤ bound) :
    count (shownLines whole cut) ≤ bound := by
  by_cases hlines : shownLines whole cut = []
  · have hnonneg : 0 ≤ bound := hbatch.resolve_left fun hsome ↦ hshown ⟨hsome, hlines⟩
    rw [hlines, hcount]
    exact_mod_cast hnonneg
  · exact hwithin _ (hbudgeted.within hlines) bound hbound

/-- What is built shows the items within the limits. -/
theorem presents_of_build (htells : TellsApart library candidates)
    (hbuild : buildMabVisibleEvidence library encoding candidates policy = .ok evidence) :
    ∃ whole cut, Presents library encoding policy candidates evidence whole cut := by
  rw [buildMabVisibleEvidence_eq] at hbuild
  obtain ⟨pass, hpass, hbuild⟩ := bind_eq_ok.mp hbuild
  obtain ⟨hreadable, hnot⟩ := readable_of_passOver htells hpass
  obtain ⟨other, whole, cut, hother, hrepresents⟩ := passOver_of_readable library hreadable hnot
  rw [hpass, Except.ok.injEq] at hother
  subst hother
  rw [hrepresents.lines] at hbuild
  split at hbuild
  · cases hbuild
  · next hshown =>
    rw [joinLines_eq_empty fun line ↦ ne_empty_of_mem_shownLines] at hshown
    rw [Except.ok.injEq] at hbuild
    have hbudgeted := hrepresents.budgeted
    have hstarts := hbudgeted.starts
    have hcounted := hrepresents.counted
    rw [hrepresents.lines] at hcounted
    refine ⟨whole, cut, ?_⟩
    subst hbuild
    refine ⟨hbudgeted, hstarts.sublist.trans (firstsBy_sublist candidates), ?_, rfl,
      hrepresents.included, fun bound ↦ ?_, ⟨rfl, fun bound ↦ ?_⟩, ⟨rfl, fun bound ↦ ?_⟩,
      ⟨hrepresents.length, hrepresents.decisions⟩, ⟨length_shownLines, hcounted⟩, rfl, rfl, ?_⟩
    · exact (nodup_map_firstsBy candidates).sublist (hstarts.sublist.map identity)
    · rw [← length_shownLines]
      exact within_shown hbudgeted hshown List.length (fun lines hwithin ↦ hwithin.items) rfl
    · exact within_shown hbudgeted hshown (fun lines ↦ (joinLines lines).toList.length)
        (fun lines hwithin ↦ hwithin.characters) rfl
    · exact within_shown hbudgeted hshown (fun lines ↦ countO200kTokens encoding (joinLines lines))
        (fun lines hwithin ↦ hwithin.tokens) (countO200kTokens_empty encoding)
    · have hall := countDecisions_all pass.decisions
      rw [hcounted, hrepresents.length] at hall
      change ((shownLines whole cut).length : ℤ) + (countDecisions _ _ : ℕ) = candidates.length
      exact_mod_cast hall

/-- Only the pass finds conflicts. -/
theorem build_conflict_iff :
    (∃ message, buildMabVisibleEvidence library encoding candidates policy =
      .error (.conflict message)) ↔
      ∃ message, passOver library encoding policy candidates = .error (.conflict message) := by
  rw [buildMabVisibleEvidence_eq]
  refine exists_congr fun message ↦ ⟨fun hbuild ↦ ?_, fun hpass ↦ bind_eq_error.mpr (.inl hpass)⟩
  rcases bind_eq_error.mp hbuild with hpass | ⟨pass, -, hbuild⟩
  · exact hpass
  · split at hbuild
    · cases hbuild
    · cases hbuild

/-- What is built is within every limit, unless a limit is negative and there is nothing to show.
It shows, in their order and each identity once, the first items of all identities up to the first
one that exceeds a limit, of which the start of its content is shown if that limit is the one of the
tokens; every item has one decision. A conflict is reported when the items up to some place can be
read and conflict. -/
theorem buildMabVisibleEvidence_exact (library : Library) (encoding : ByteTokenizer τ)
    (policy : VisibleEvidencePolicy) (candidates : List NativeEvidenceCandidate)
    (htells : TellsApart library candidates) :
    (∀ evidence, buildMabVisibleEvidence library encoding candidates policy = .ok evidence →
      ∃ whole cut, Presents library encoding policy candidates evidence whole cut) ∧
    ((∃ message, buildMabVisibleEvidence library encoding candidates policy =
        .error (.conflict message)) ↔
      ∃ start, start <+: candidates ∧ Readable encoding policy start ∧ Conflicting start) ∧
    (Readable encoding policy candidates →
      ((∃ message, buildMabVisibleEvidence library encoding candidates policy =
        .error (.conflict message)) ↔ Conflicting candidates)) := by
  have hconflict : (∃ message, buildMabVisibleEvidence library encoding candidates policy =
      .error (.conflict message)) ↔
        ∃ start, start <+: candidates ∧ Readable encoding policy start ∧ Conflicting start := by
    rw [build_conflict_iff, passOver_conflict_iff htells]
  refine ⟨fun evidence ↦ presents_of_build htells, hconflict, fun hreadable ↦ ?_⟩
  rw [hconflict]
  constructor
  · rintro ⟨start, hstart, -, hconflicting⟩
    exact hconflicting.mono hstart.subset
  · exact fun hconflicting ↦ ⟨candidates, List.prefix_refl _, hreadable, hconflicting⟩

/-! ### One item -/

theorem ok_bind {ε α β : Type} (value : α) (rest : α → Except ε β) :
    (Except.ok value >>= rest) = rest value := rfl

/-- An item that does not exceed a limit is shown. -/
theorem offerItem_of_fits {τ : Type} {encoding : ByteTokenizer τ} {policy : VisibleEvidencePolicy}
    {pass : BudgetPass} {candidate : NativeEvidenceCandidate} {identity textHash line : String}
    (hitem : mabEvidenceItem candidate identity candidate.content = .ok line)
    (hfits : exceededLimit encoding policy pass.lines line = none) :
    offerItem encoding policy pass candidate identity textHash =
      .ok (recordItem pass candidate identity textHash (some line) .kept none) := by
  rw [offerItem, hitem, ok_bind]
  simp only [hfits]

/-- An item that exceeds a limit is cut. -/
theorem offerItem_of_exceeds {τ : Type} {encoding : ByteTokenizer τ}
    {policy : VisibleEvidencePolicy} {pass : BudgetPass} {candidate : NativeEvidenceCandidate}
    {identity textHash line exceeded : String} {cut : Option String}
    (hitem : mabEvidenceItem candidate identity candidate.content = .ok line)
    (hexceeds : exceededLimit encoding policy pass.lines line = some exceeded)
    (hcut : truncatedItem encoding policy candidate identity pass.lines exceeded = .ok cut) :
    offerItem encoding policy pass candidate identity textHash =
      .ok (stopItem pass candidate identity textHash exceeded cut) := by
  rw [offerItem, hitem, ok_bind]
  simp only [hexceeds, hcut]
  rfl

/-- The decisions are those of the pass. -/
theorem dispositions_of_passOver {τ : Type} {library : Library} {encoding : ByteTokenizer τ}
    {policy : VisibleEvidencePolicy} {candidates : List NativeEvidenceCandidate}
    {pass : BudgetPass} (hpass : passOver library encoding policy candidates = .ok pass)
    (hpayload : joinLines pass.lines ≠ "") :
    (buildMabVisibleEvidence library encoding candidates policy).map
      (fun evidence ↦ evidence.decisions.map EvidenceDecision.disposition) =
        .ok (pass.decisions.map EvidenceDecision.disposition) := by
  have hbuild : buildMabVisibleEvidence library encoding candidates policy = .ok _ :=
    bind_eq_ok.mpr ⟨pass, hpass, if_neg fun hempty ↦ hpayload hempty.2⟩
  rw [hbuild]
  rfl

/-! ### Three items -/

/-- An item twice, and one that does not fit. -/
def sampleItems : List NativeEvidenceCandidate :=
  [sampleItem 1 "a" "world" "tea" none, sampleItem 2 "a" "world" "tea" none,
    sampleItem 3 "b" "world" "leaves" none]

def samplePolicy : VisibleEvidencePolicy := ⟨some 5, none, some 409⟩

theorem sample_tellsApart : TellsApart sampleLibrary sampleItems := by
  have hteas : sampleLibrary.sha256 (encode "tea") ≠ sampleLibrary.sha256 (encode "leaves") := by
    decide +kernel
  unfold TellsApart sampleItems sampleItem
  simp only [List.forall_mem_cons, List.not_mem_nil, false_imp_iff, implies_true, and_true]
  exact ⟨⟨trivial, trivial, fun hsame ↦ absurd hsame hteas⟩,
    ⟨trivial, trivial, fun hsame ↦ absurd hsame hteas⟩,
    fun hsame ↦ absurd hsame.symm hteas, fun hsame ↦ absurd hsame.symm hteas⟩

theorem length_utf8_append (first second : List Char) :
    (JsonText.utf8 (first ++ second)).length =
      (JsonText.utf8 first).length + (JsonText.utf8 second).length := by
  simp [JsonText.utf8, String.ofList_append]

theorem length_utf8_cons (char : Char) (chars : List Char) :
    (JsonText.utf8 (char :: chars)).length =
      (JsonText.utf8 [char]).length + (JsonText.utf8 chars).length :=
  length_utf8_append [char] chars

/-- The line of a text of the sample. -/
def sampleLine (identity text : String) : String :=
  evidenceLine (sampleItem 1 identity "world" text none) identity text

/-- The bytes of the line of an item, but for its identity and its text. -/
theorem length_sampleLine (identity text : String) :
    (JsonText.utf8 (sampleLine identity text).toList).length =
      196 + (JsonText.utf8 (JsonText.writeText false identity)).length +
        (JsonText.utf8 (JsonText.writeText false text)).length := by
  have hnames : ["provider_evidence_identity", "source_unit_id", "evidence_kind", "world", "text",
      "occurred_start", "occurred_end", "mentioned_at", "native_reference",
      "native_truncated"].map (fun name ↦ (JsonText.utf8 (JsonText.writeText false name)).length) =
        [28, 16, 15, 7, 6, 16, 14, 14, 18, 18] := by
    decide +kernel
  simp only [List.map_cons, List.map_nil, List.cons.injEq, and_true] at hnames
  have hsign {sign : Char} (hsign : (JsonText.utf8 [sign]).length = 1) (chars : List Char) :
      (JsonText.utf8 (sign :: chars)).length = 1 + (JsonText.utf8 chars).length := by
    rw [length_utf8_cons, hsign]
  have hopen := @hsign '{' (by decide +kernel)
  have hcolon := @hsign ':' (by decide +kernel)
  have hcomma := @hsign ',' (by decide +kernel)
  have hwords : (JsonText.utf8 "null".toList).length = 4 ∧
      (JsonText.utf8 "false".toList).length = 5 ∧ (JsonText.utf8 ['}']).length = 1 := by
    decide +kernel
  simp only [sampleLine, evidenceLine, String.toList_ofList, sampleItem, textOrNull,
    JsonText.write, JsonText.writeMembers, hopen, hcolon, hcomma, length_utf8_append]
  omega

theorem count_line (line : String) :
    countO200kTokens byteTokens (joinLines [line]) = (JsonText.utf8 line.toList).length := by
  simp [countO200kTokens, byteTokens, joinLines]

theorem count_lines (first second : String) :
    countO200kTokens byteTokens (joinLines [first, second]) =
      (JsonText.utf8 first.toList).length + 1 + (JsonText.utf8 second.toList).length := by
  have hjoined : joinLines [first, second] = first ++ "\n" ++ second := by
    have happend : joinLines ([first] ++ [second]) = joinLines [first] ++ "\n" ++ second :=
      joinLines_append (List.cons_ne_nil _ _) second
    rwa [joinLines.eq_1 [first], String.intercalate_singleton] at happend
  have hbreak : (JsonText.utf8 "\n".toList).length = 1 := by decide +kernel
  rw [hjoined]
  simp only [countO200kTokens, byteTokens, String.toList_append, length_utf8_append, hbreak]

/-- The bytes of two lines. -/
theorem count_sampleLines (text : String) :
    countO200kTokens byteTokens (joinLines [sampleLine "a" "tea", sampleLine "b" text]) =
      404 + (JsonText.utf8 (JsonText.writeText false text)).length := by
  have htexts : (JsonText.utf8 (JsonText.writeText false "a")).length = 3 ∧
      (JsonText.utf8 (JsonText.writeText false "b")).length = 3 ∧
        (JsonText.utf8 (JsonText.writeText false "tea")).length = 5 := by
    decide +kernel
  rw [count_lines, length_sampleLine, length_sampleLine]
  omega

theorem sample_fits : exceededLimit byteTokens samplePolicy [] (sampleLine "a" "tea") = none := by
  have hcount : countO200kTokens byteTokens (joinLines [sampleLine "a" "tea"]) = 204 := by
    rw [count_line, length_sampleLine]
    decide +kernel
  simp only [exceededLimit, List.nil_append, samplePolicy, hcount]
  rfl

theorem sample_exceeds : exceededLimit byteTokens samplePolicy [sampleLine "a" "tea"]
    (sampleLine "b" "leaves") = some "max_tokens" := by
  have htext : (JsonText.utf8 (JsonText.writeText false "leaves")).length = 8 := by decide +kernel
  simp only [exceededLimit, List.singleton_append, samplePolicy, count_sampleLines, htext]
  rfl

/-- The third item with its first letters. -/
theorem sample_cut (size : ℕ) (text : String)
    (hdecode : byteTokens.decode ((byteTokens.encode "leaves").take (size + 1)) = some text)
    (htext : text ≠ "") :
    truncateFrom byteTokens (sampleItem 3 "b" "world" "leaves" none) "b" [sampleLine "a" "tea"]
        409 (size + 1) =
      if countO200kTokens byteTokens (joinLines [sampleLine "a" "tea", sampleLine "b" text]) ≤
          (409 : ℤ) then .ok (some (sampleLine "b" text))
      else truncateFrom byteTokens (sampleItem 3 "b" "world" "leaves" none) "b"
        [sampleLine "a" "tea"] 409 size := by
  have hitem : mabEvidenceItem (sampleItem 3 "b" "world" "leaves" none) "b" text =
      .ok (sampleLine "b" text) :=
    mabEvidenceItem_eq_ok.mpr ⟨⟨by decide, htext⟩, rfl⟩
  rw [truncateFrom]
  simp only [sampleItem] at hdecode hitem ⊢
  rw [hdecode]
  simp only [hitem, List.singleton_append]

theorem sample_truncated : truncatedItem byteTokens samplePolicy
    (sampleItem 3 "b" "world" "leaves" none) "b" [sampleLine "a" "tea"] "max_tokens" =
      .ok (some (sampleLine "b" "lea")) := by
  have hfirst : countO200kTokens byteTokens (joinLines [sampleLine "a" "tea"]) = 204 := by
    rw [count_line, length_sampleLine]
    decide +kernel
  have hlong : (byteTokens.encode "leaves").length = 6 := by decide +kernel
  have hcounts : countO200kTokens byteTokens
        (joinLines [sampleLine "a" "tea", sampleLine "b" "leaves"]) = 412 ∧
      countO200kTokens byteTokens
        (joinLines [sampleLine "a" "tea", sampleLine "b" "leave"]) = 411 ∧
      countO200kTokens byteTokens
        (joinLines [sampleLine "a" "tea", sampleLine "b" "leav"]) = 410 ∧
      countO200kTokens byteTokens
        (joinLines [sampleLine "a" "tea", sampleLine "b" "lea"]) = 409 := by
    simp only [count_sampleLines]
    decide +kernel
  obtain ⟨hsix, hfive, hfour, hthree⟩ := hcounts
  have hmin : min (byteTokens.encode (sampleItem 3 "b" "world" "leaves" none).content).length
      (max (409 - (countO200kTokens byteTokens (joinLines [sampleLine "a" "tea"]) : ℤ)) 0).toNat =
        6 := by
    rw [hfirst]
    simp only [sampleItem, hlong]
    decide
  unfold truncatedItem samplePolicy truncateMabItemToTokens
  dsimp only
  rw [if_pos rfl, hmin, sample_cut 5 "leaves" (by decide +kernel) (by decide), hsix,
    if_neg (by decide), sample_cut 4 "leave" (by decide +kernel) (by decide), hfive,
    if_neg (by decide), sample_cut 3 "leav" (by decide +kernel) (by decide), hfour,
    if_neg (by decide), sample_cut 2 "lea" (by decide +kernel) (by decide), hthree,
    if_pos (by decide)]

/-- What is known after the first item. -/
def sampleFirst : BudgetPass :=
  recordItem emptyBudgetPass (sampleItem 1 "a" "world" "tea" none) "a"
    (sampleLibrary.sha256 (encode "tea")) (some (sampleLine "a" "tea")) .kept none

theorem sample_reads_first : readItem sampleLibrary byteTokens samplePolicy emptyBudgetPass
    (sampleItem 1 "a" "world" "tea" none, 1) = .ok sampleFirst := by
  have hitem : mabEvidenceItem (sampleItem 1 "a" "world" "tea" none) "a" "tea" =
      .ok (sampleLine "a" "tea") :=
    mabEvidenceItem_eq_ok.mpr ⟨⟨by decide, by decide⟩, rfl⟩
  rw [readItem_eq rfl rfl (by decide)]
  unfold admitItem
  have hnone : emptyBudgetPass.seenContent.lookup
      (identity (sampleItem 1 "a" "world" "tea" none)) = none := rfl
  simp only [hnone]
  rw [if_neg (by decide)]
  exact offerItem_of_fits hitem sample_fits

/-- What is known after the second item. -/
def sampleSecond : BudgetPass :=
  { sampleFirst with
    decisions := sampleFirst.decisions ++ [⟨"a", "a", sampleLibrary.sha256 (encode "tea"),
      .duplicate, some "duplicate_identity_and_text", none⟩] }

/-- The second item is the first one again. -/
theorem sample_reads_second : readItem sampleLibrary byteTokens samplePolicy sampleFirst
    (sampleItem 2 "a" "world" "tea" none, 2) =
      .ok sampleSecond := by
  rw [readItem_eq rfl rfl (by decide)]
  unfold admitItem
  have hseen : sampleFirst.seenContent.lookup (identity (sampleItem 2 "a" "world" "tea" none)) =
      some (sampleLibrary.sha256 (encode "tea")) := rfl
  simp only [hseen]
  rw [if_neg (by simp [sampleItem])]
  rfl

/-- The third item is cut. -/
theorem sample_reads_third (pass : BudgetPass) (hlines : pass.lines = [sampleLine "a" "tea"])
    (hrunning : pass.stopped = false) (hunseen : pass.seenContent.lookup "b" = none) :
    readItem sampleLibrary byteTokens samplePolicy pass
      (sampleItem 3 "b" "world" "leaves" none, 3) =
        .ok (stopItem pass (sampleItem 3 "b" "world" "leaves" none) "b"
          (sampleLibrary.sha256 (encode "leaves")) "max_tokens" (some (sampleLine "b" "lea"))) := by
  have hitem : mabEvidenceItem (sampleItem 3 "b" "world" "leaves" none) "b" "leaves" =
      .ok (sampleLine "b" "leaves") :=
    mabEvidenceItem_eq_ok.mpr ⟨⟨by decide, by decide⟩, rfl⟩
  rw [readItem_eq rfl rfl (by decide)]
  unfold admitItem
  have hnone : pass.seenContent.lookup (identity (sampleItem 3 "b" "world" "leaves" none)) = none :=
    hunseen
  simp only [hnone]
  rw [if_neg (by simp [hrunning])]
  exact offerItem_of_exceeds hitem (hlines ▸ sample_exceeds) (hlines ▸ sample_truncated)

theorem sample_dispositions :
    (buildMabVisibleEvidence sampleLibrary byteTokens sampleItems samplePolicy).map
      (fun evidence ↦ evidence.decisions.map EvidenceDecision.disposition) =
        .ok [.kept, .duplicate, .truncated] := by
  have hpass : passOver sampleLibrary byteTokens samplePolicy sampleItems =
      .ok (stopItem sampleSecond (sampleItem 3 "b" "world" "leaves" none) "b"
        (sampleLibrary.sha256 (encode "leaves")) "max_tokens" (some (sampleLine "b" "lea"))) := by
    have hzip : sampleItems.zipIdx 1 = [(sampleItem 1 "a" "world" "tea" none, 1),
        (sampleItem 2 "a" "world" "tea" none, 2), (sampleItem 3 "b" "world" "leaves" none, 3)] :=
      rfl
    rw [passOver, hzip, List.foldlM_cons]
    refine bind_eq_ok.mpr ⟨_, sample_reads_first, ?_⟩
    rw [List.foldlM_cons]
    refine bind_eq_ok.mpr ⟨_, sample_reads_second, ?_⟩
    rw [List.foldlM_cons]
    refine bind_eq_ok.mpr ⟨_, sample_reads_third sampleSecond rfl rfl rfl, ?_⟩
    rw [List.foldlM_nil]
    rfl
  have hlines : ∀ line ∈ [sampleLine "a" "tea", sampleLine "b" "lea"], line ≠ "" := by
    intro line hline
    rcases List.mem_pair.mp hline with rfl | rfl
    · exact evidenceLine_ne_empty _ _ _
    · exact evidenceLine_ne_empty _ _ _
  exact dispositions_of_passOver hpass fun hempty ↦
    absurd ((joinLines_eq_empty hlines).mp hempty) (List.cons_ne_nil _ _)

/-- The second text is cut, so that it fits. -/
theorem sample_presented : TellsApart sampleLibrary sampleItems ∧
    ∃ evidence whole cut, buildMabVisibleEvidence sampleLibrary byteTokens sampleItems
      samplePolicy = .ok evidence ∧
      Presents sampleLibrary byteTokens samplePolicy sampleItems evidence whole cut ∧
        evidence.decisions.map EvidenceDecision.disposition = [.kept, .duplicate, .truncated] := by
  refine ⟨sample_tellsApart, ?_⟩
  have hdispositions := sample_dispositions
  cases hbuild : buildMabVisibleEvidence sampleLibrary byteTokens sampleItems samplePolicy with
  | error failure =>
    rw [hbuild] at hdispositions
    cases hdispositions
  | ok evidence =>
    rw [hbuild] at hdispositions
    obtain ⟨whole, cut, hpresents⟩ := (buildMabVisibleEvidence_exact sampleLibrary byteTokens
      samplePolicy sampleItems sample_tellsApart).1 evidence hbuild
    exact ⟨evidence, whole, cut, rfl, hpresents, Except.ok.inj hdispositions⟩

/-- An item without a text, and another content under its identity. -/
def sampleConflict : List NativeEvidenceCandidate :=
  [sampleItem 1 "a" "world" "" none, sampleItem 2 "a" "world" "tea" none]

/-- An item without a text is refused before the conflict behind it is seen, and nothing is above a
negative limit. -/
theorem conflict_behind_empty_text :
    (Ranked sampleConflict ∧ Conflicting sampleConflict ∧
      buildMabVisibleEvidence sampleLibrary byteTokens sampleConflict samplePolicy =
        .error (.value "MAB visible evidence requires non-empty kind and text")) ∧
    ∃ evidence, buildMabVisibleEvidence sampleLibrary byteTokens [] ⟨some (-1), none, none⟩ =
      .ok evidence ∧ ¬(evidence.keptCount : ℤ) ≤ -1 := by
  refine ⟨⟨?_, ?_, rfl⟩, _, rfl, by decide⟩
  · rintro (_ | _ | position) candidate hcandidate
    · cases hcandidate
      rfl
    · cases hcandidate
      rfl
    · cases hcandidate
  · exact ⟨_, List.mem_cons_self, _, List.mem_cons_of_mem _ List.mem_cons_self, rfl, by decide⟩

end Oamb.Workloads.BudgetGuarantees
