import Oamb.Foundation.FirstOccurrences
import Oamb.Foundation.StatefulExecution
import Oamb.Workloads.EvidenceRendering

/-!
# The pass over retrieved items

The items are read one after the other. `Represents` says what the pass knows after some of them:
the first content of every identity, the items that are kept and the decisions. Items that are
numbered in order, have identities and do not conflict are read to the end (`passOver_of_good`), and
nothing else is; a conflict is reported when the items that were read conflict
(`passOver_conflict_iff`).
-/

set_option autoImplicit false

namespace Oamb.Workloads.EvidencePass

open Foundation Foundation.FirstOccurrences Foundation.StatefulExecution
open Contracts.NativeEvidence EvidenceRendering

variable {library : Library} {candidates : List NativeEvidenceCandidate}
  {candidate : NativeEvidenceCandidate} {pass : Pass}

/-! ### Items -/

def identity (candidate : NativeEvidenceCandidate) : String :=
  candidate.providerEvidenceIdentity.getD ""

/-- Every item has an identity. -/
def Identified (candidates : List NativeEvidenceCandidate) : Prop :=
  ∀ candidate ∈ candidates, identity candidate ≠ ""

/-- The items are numbered from one on. -/
def Ranked (candidates : List NativeEvidenceCandidate) : Prop :=
  ∀ (position : ℕ) (candidate : NativeEvidenceCandidate), candidates[position]? = some candidate →
    candidate.nativeRank1Indexed = position + 1

/-- Two items share an identity and differ in their content. -/
def Conflicting (candidates : List NativeEvidenceCandidate) : Prop :=
  ∃ first ∈ candidates, ∃ second ∈ candidates,
    identity first = identity second ∧ first.content ≠ second.content

/-- The digest tells the contents of the items apart. -/
def TellsApart (library : Library) (candidates : List NativeEvidenceCandidate) : Prop :=
  ∀ first ∈ candidates, ∀ second ∈ candidates,
    library.sha256 (encode first.content) = library.sha256 (encode second.content) →
      first.content = second.content

theorem TellsApart.of_append {candidate : NativeEvidenceCandidate}
    (htells : TellsApart library (candidates ++ [candidate])) : TellsApart library candidates :=
  fun first hfirst second hsecond ↦
    htells first (List.mem_append_left _ hfirst) second (List.mem_append_left _ hsecond)

theorem identityOf_eq (hidentity : identity candidate ≠ "") :
    identityOf candidate = .ok (identity candidate) := if_neg hidentity

theorem identityOf_eq_ok {result : String} :
    identityOf candidate = .ok result ↔ identity candidate ≠ "" ∧ identity candidate = result := by
  by_cases hempty : identity candidate = ""
  · rw [show identityOf candidate = .error _ from if_pos hempty]
    exact ⟨nofun, fun hboth ↦ absurd hempty hboth.1⟩
  · rw [identityOf_eq hempty, Except.ok.injEq]
    exact ⟨fun hresult ↦ ⟨hempty, hresult⟩, And.right⟩

theorem ranked_append : Ranked (candidates ++ [candidate]) ↔
    Ranked candidates ∧ candidate.nativeRank1Indexed = candidates.length + 1 := by
  constructor
  · refine fun hranked ↦ ⟨fun position item hitem ↦ hranked position item ?_, ?_⟩
    · rw [List.getElem?_append_left (List.getElem?_eq_some_iff.mp hitem).1, hitem]
    · exact hranked candidates.length candidate List.getElem?_concat_length
  · rintro ⟨hranked, hlast⟩ position item hitem
    rcases lt_trichotomy position candidates.length with hlt | rfl | hgt
    · rw [List.getElem?_append_left hlt] at hitem
      exact hranked position item hitem
    · rw [List.getElem?_concat_length] at hitem
      cases hitem
      exact hlast
    · rw [List.getElem?_eq_none (by
        rw [List.length_append, List.length_singleton]
        exact hgt)] at hitem
      exact nomatch hitem

theorem identified_append : Identified (candidates ++ [candidate]) ↔
    Identified candidates ∧ identity candidate ≠ "" := by
  unfold Identified
  simp only [List.mem_append, List.mem_singleton, or_imp, forall_and, forall_eq]

theorem Conflicting.mono {others : List NativeEvidenceCandidate} (hsubset : candidates ⊆ others)
    (hconflicting : Conflicting candidates) : Conflicting others := by
  obtain ⟨first, hfirst, second, hsecond, hdiffer⟩ := hconflicting
  exact ⟨first, hsubset hfirst, second, hsubset hsecond, hdiffer⟩

theorem find_isSome_iff {wanted : String} :
    (candidates.find? fun other ↦ identity other = wanted).isSome = true ↔
      wanted ∈ candidates.map identity := by
  rw [List.find?_isSome, List.mem_map]
  simp only [decide_eq_true_eq]

theorem exists_find {wanted : String} (hmem : wanted ∈ candidates.map identity) :
    ∃ first, candidates.find? (fun other ↦ identity other = wanted) = some first :=
  Option.isSome_iff_exists.mp (find_isSome_iff.mpr hmem)

theorem find_eq_none {wanted : String} (hmem : wanted ∉ candidates.map identity) :
    candidates.find? (fun other ↦ identity other = wanted) = none :=
  Option.not_isSome_iff_eq_none.mp (mt find_isSome_iff.mp hmem)

theorem identity_of_find {wanted : String} {first : NativeEvidenceCandidate}
    (hfirst : candidates.find? (fun other ↦ identity other = wanted) = some first) :
    identity first = wanted :=
  of_decide_eq_true
    (List.find?_some (p := fun other : NativeEvidenceCandidate ↦ identity other = wanted) hfirst)

/-- The digest of an item in conflict differs from the one of the first item of its identity. -/
theorem TellsApart.of_find {first : NativeEvidenceCandidate}
    (htells : TellsApart library (candidates ++ [candidate]))
    (hfirst : candidates.find? (fun other ↦ identity other = identity candidate) = some first)
    (hdiffer : first.content ≠ candidate.content) :
    library.sha256 (encode first.content) ≠ library.sha256 (encode candidate.content) :=
  fun hsame ↦ hdiffer (htells first
    (List.mem_append_left _ (List.mem_of_find?_eq_some hfirst)) candidate
    (List.mem_append_right _ (List.mem_singleton_self _)) hsame)

/-- An item is in conflict with the first one of its identity, if there is one. -/
theorem conflicting_append (hnot : ¬Conflicting candidates) :
    Conflicting (candidates ++ [candidate]) ↔
      ∃ first, candidates.find? (fun other ↦ identity other = identity candidate) = some first ∧
        first.content ≠ candidate.content := by
  constructor
  · intro hconflicting
    obtain ⟨other, hother, hsame, hcontent⟩ : ∃ other ∈ candidates,
        identity other = identity candidate ∧ other.content ≠ candidate.content := by
      obtain ⟨first, hfirst, second, hsecond, hsame, hcontent⟩ := hconflicting
      rw [List.mem_append, List.mem_singleton] at hfirst hsecond
      rcases hfirst with hfirst | rfl <;> rcases hsecond with hsecond | rfl
      · exact absurd ⟨first, hfirst, second, hsecond, hsame, hcontent⟩ hnot
      · exact ⟨first, hfirst, hsame, hcontent⟩
      · exact ⟨second, hsecond, hsame.symm, hcontent.symm⟩
      · exact absurd rfl hcontent
    obtain ⟨first, hfirst⟩ := exists_find (List.mem_map.mpr ⟨other, hother, hsame⟩)
    refine ⟨first, hfirst, fun heq ↦ hnot ⟨first, List.mem_of_find?_eq_some hfirst, other, hother,
      ?_, fun hcontents ↦ hcontent (hcontents.symm.trans heq)⟩⟩
    exact (identity_of_find hfirst).trans hsame.symm
  · rintro ⟨first, hfirst, hcontent⟩
    exact ⟨first, List.mem_append_left _ (List.mem_of_find?_eq_some hfirst), candidate,
      List.mem_append_right _ (List.mem_singleton_self _),
      identity_of_find hfirst, hcontent⟩

/-! ### One pass -/

/-- The decision about an item behind other ones. -/
def decisionAt (library : Library) (earlier : List NativeEvidenceCandidate)
    (candidate : NativeEvidenceCandidate) : EvidenceDecision where
  nativeId := candidate.nativeId
  providerEvidenceIdentity := identity candidate
  normalizedTextSha256 := library.sha256 (encode candidate.content)
  disposition := if identity candidate ∈ earlier.map identity then .duplicate else .kept
  reason :=
    if identity candidate ∈ earlier.map identity then some "duplicate_identity_and_text" else none
  label := none

/-- The digest that was seen for an identity is the one of its first item. -/
def Sees (library : Library) (candidates : List NativeEvidenceCandidate)
    (seenContent : Dictionary String String) : Prop :=
  ∀ wanted, seenContent.lookup wanted =
    (candidates.find? fun other ↦ identity other = wanted).map fun first ↦
      library.sha256 (encode first.content)

/-- The first item of an identity is seen. -/
theorem Sees.insert {seenContent : Dictionary String String}
    (hseen : Sees library candidates seenContent)
    (hnew : identity candidate ∉ candidates.map identity) :
    Sees library (candidates ++ [candidate])
      (seenContent.insert (identity candidate) (library.sha256 (encode candidate.content))) := by
  intro wanted
  rw [Dictionary.lookup_insert_eq_ite, List.find?_append, hseen]
  by_cases hwanted : wanted = identity candidate
  · subst hwanted
    rw [if_pos rfl, find_eq_none hnew, Option.none_or, List.find?_singleton,
      if_pos (decide_eq_true rfl)]
    rfl
  · rw [if_neg hwanted, List.find?_singleton,
      if_neg (mt of_decide_eq_true (Ne.symm hwanted)), Option.or_none]

/-- A later item of an identity changes nothing. -/
theorem Sees.append {seenContent : Dictionary String String} {first : NativeEvidenceCandidate}
    (hseen : Sees library candidates seenContent)
    (hfirst : candidates.find? (fun other ↦ identity other = identity candidate) = some first) :
    Sees library (candidates ++ [candidate]) seenContent := by
  intro wanted
  rw [hseen, List.find?_append]
  by_cases hwanted : identity candidate = wanted
  · subst hwanted
    rw [hfirst, Option.some_or]
  · rw [List.find?_singleton, if_neg (mt of_decide_eq_true hwanted), Option.or_none]

/-- What the pass knows after some items. -/
structure Represents (library : Library) (candidates : List NativeEvidenceCandidate)
    (pass : Pass) : Prop where
  seen : ∀ wanted, pass.seenContent.lookup wanted =
    (candidates.find? fun other ↦ identity other = wanted).map fun first ↦
      library.sha256 (encode first.content)
  kept : pass.kept = firstsBy identity candidates
  length : pass.decisions.length = candidates.length
  decisions : ∀ (position : ℕ) (candidate : NativeEvidenceCandidate),
    candidates[position]? = some candidate →
    pass.decisions[position]? = some (decisionAt library (candidates.take position) candidate)

theorem represents_empty : Represents library [] emptyPass where
  seen := fun _ ↦ rfl
  kept := rfl
  length := rfl
  decisions := fun _ _ hitem ↦ nomatch hitem

/-- A decision more. -/
theorem decisions_append {decisions : List EvidenceDecision}
    (decisionAt : List NativeEvidenceCandidate → NativeEvidenceCandidate → EvidenceDecision)
    (hlength : decisions.length = candidates.length)
    (hdecisions : ∀ (position : ℕ) (item : NativeEvidenceCandidate),
      candidates[position]? = some item →
      decisions[position]? = some (decisionAt (candidates.take position) item))
    {position : ℕ} {item : NativeEvidenceCandidate}
    (hitem : (candidates ++ [candidate])[position]? = some item) :
    (decisions ++ [decisionAt candidates candidate])[position]? =
      some (decisionAt ((candidates ++ [candidate]).take position) item) := by
  rcases lt_trichotomy position candidates.length with hlt | rfl | hgt
  · rw [List.getElem?_append_left hlt] at hitem
    rw [List.getElem?_append_left (hlength ▸ hlt), hdecisions position item hitem,
      List.take_append_of_le_length hlt.le]
  · rw [List.getElem?_concat_length] at hitem
    cases hitem
    rw [← hlength, List.getElem?_concat_length, hlength, List.take_left']
    rfl
  · rw [List.getElem?_eq_none (by
        rw [List.length_append, List.length_singleton]
        exact hgt)] at hitem
    exact nomatch hitem

/-- An item of a new identity is kept. -/
theorem keep_new (hrepresents : Represents library candidates pass)
    (hnew : identity candidate ∉ candidates.map identity) :
    ∃ next, keepOrDrop library pass candidate (identity candidate) = .ok next ∧
      Represents library (candidates ++ [candidate]) next := by
  have hnone : pass.seenContent.lookup (identity candidate) = none := by
    rw [hrepresents.seen, find_eq_none hnew]
    rfl
  have hdecision : decisionAt library candidates candidate =
      ⟨candidate.nativeId, identity candidate, library.sha256 (encode candidate.content), .kept,
        none, none⟩ := by
    rw [decisionAt, if_neg hnew, if_neg hnew]
  unfold keepOrDrop
  rw [hnone]
  refine ⟨_, rfl, ⟨Sees.insert hrepresents.seen hnew, ?_, ?_, fun position item hitem ↦ ?_⟩⟩
  · change pass.kept ++ [candidate] = _
    rw [hrepresents.kept, firstsBy_append_of_not_mem hnew]
  · rw [List.length_append, List.length_append, hrepresents.length]
    rfl
  · rw [← hdecision]
    exact decisions_append (decisionAt library) hrepresents.length hrepresents.decisions hitem

/-- An item with the content of the first one of its identity is a duplicate. -/
theorem drop_duplicate {first : NativeEvidenceCandidate}
    (hrepresents : Represents library candidates pass)
    (hfirst : candidates.find? (fun other ↦ identity other = identity candidate) = some first)
    (hsame : first.content = candidate.content) :
    ∃ next, keepOrDrop library pass candidate (identity candidate) = .ok next ∧
      Represents library (candidates ++ [candidate]) next := by
  have hmem : identity candidate ∈ candidates.map identity :=
    List.mem_map.mpr ⟨first, List.mem_of_find?_eq_some hfirst, identity_of_find hfirst⟩
  have hseen : pass.seenContent.lookup (identity candidate) =
      some (library.sha256 (encode candidate.content)) := by
    rw [hrepresents.seen, hfirst, ← hsame]
    rfl
  have hdecision : decisionAt library candidates candidate =
      ⟨candidate.nativeId, identity candidate, library.sha256 (encode candidate.content),
        .duplicate, some "duplicate_identity_and_text", none⟩ := by
    rw [decisionAt, if_pos hmem, if_pos hmem]
  unfold keepOrDrop
  simp only [hseen, ne_eq, not_true_eq_false, if_false]
  refine ⟨_, rfl, ⟨Sees.append hrepresents.seen hfirst, ?_, ?_, fun position item hitem ↦ ?_⟩⟩
  · change pass.kept = _
    rw [hrepresents.kept, firstsBy_append_of_mem hmem]
  · rw [List.length_append, List.length_append, hrepresents.length]
    rfl
  · rw [← hdecision]
    exact decisions_append (decisionAt library) hrepresents.length hrepresents.decisions hitem

/-- An item with another content than the first one of its identity is a conflict. -/
theorem refuse_conflict {first : NativeEvidenceCandidate}
    (hrepresents : Represents library candidates pass)
    (hfirst : candidates.find? (fun other ↦ identity other = identity candidate) = some first)
    (hdiffer : library.sha256 (encode first.content) ≠
      library.sha256 (encode candidate.content)) :
    ∃ message, keepOrDrop library pass candidate (identity candidate) =
      .error (.conflict message) := by
  have hseen : pass.seenContent.lookup (identity candidate) =
      some (library.sha256 (encode first.content)) := by
    rw [hrepresents.seen, hfirst]
    rfl
  unfold keepOrDrop
  simp only [hseen, ne_eq, hdiffer, not_false_eq_true, if_true]
  exact ⟨_, rfl⟩

/-! ### The whole pass -/

/-- The pass over some items. -/
def passOver (library : Library) (candidates : List NativeEvidenceCandidate) :
    Except EvidenceError Pass :=
  (candidates.zipIdx 1).foldlM (readCandidate library) emptyPass

theorem passOver_append (candidates : List NativeEvidenceCandidate)
    (candidate : NativeEvidenceCandidate) :
    passOver library (candidates ++ [candidate]) =
      passOver library candidates >>= fun pass ↦
        readCandidate library pass (candidate, candidates.length + 1) := by
  unfold passOver
  rw [List.zipIdx_append, List.foldlM_append, Nat.add_comm]
  refine congrArg _ (funext fun pass ↦ ?_)
  exact bind_pure _

theorem readCandidate_eq (hidentity : identity candidate ≠ "") {rank : ℕ}
    (hrank : candidate.nativeRank1Indexed = rank) :
    readCandidate library pass (candidate, rank) =
      keepOrDrop library pass candidate (identity candidate) := by
  unfold readCandidate
  rw [if_neg (not_not.mpr hrank), identityOf_eq hidentity]
  rfl

theorem readCandidate_of_ok {next : Pass} {rank : ℕ}
    (hread : readCandidate library pass (candidate, rank) = .ok next) :
    candidate.nativeRank1Indexed = rank ∧ identity candidate ≠ "" := by
  unfold readCandidate at hread
  by_cases hrank : candidate.nativeRank1Indexed = rank
  · rw [if_neg (not_not.mpr hrank), bind_eq_ok] at hread
    obtain ⟨name, hname, -⟩ := hread
    exact ⟨hrank, (identityOf_eq_ok.mp hname).1⟩
  · rw [if_pos hrank] at hread
    exact nomatch hread

/-- Items in order, each with an identity and without a conflict, are all read. -/
theorem passOver_of_good (library : Library) (hranked : Ranked candidates)
    (hidentified : Identified candidates) (hnot : ¬Conflicting candidates) :
    ∃ pass, passOver library candidates = .ok pass ∧ Represents library candidates pass := by
  induction candidates using List.reverseRecOn with
  | nil => exact ⟨emptyPass, rfl, represents_empty⟩
  | append_singleton candidates candidate ih =>
    obtain ⟨hranked, hrank⟩ := ranked_append.mp hranked
    obtain ⟨hidentified, hidentity⟩ := identified_append.mp hidentified
    have hbefore : ¬Conflicting candidates := fun hconflicting ↦
      hnot (hconflicting.mono (List.subset_append_left ..))
    obtain ⟨pass, hpass, hrepresents⟩ := ih hranked hidentified hbefore
    rw [passOver_append, hpass]
    change ∃ next, readCandidate library pass _ = .ok next ∧ _
    rw [readCandidate_eq hidentity (by exact_mod_cast hrank)]
    cases hfirst : candidates.find? fun other ↦ identity other = identity candidate with
    | none =>
      refine keep_new hrepresents fun hmem ↦ ?_
      rw [← find_isSome_iff, hfirst] at hmem
      exact Bool.noConfusion hmem
    | some first =>
      refine drop_duplicate hrepresents hfirst (by_contra fun hdiffer ↦ ?_)
      exact hnot ((conflicting_append hbefore).mpr ⟨first, hfirst, hdiffer⟩)

/-- What was read to the end is in order, and each item has an identity and is without a
conflict. -/
theorem good_of_passOver (htells : TellsApart library candidates)
    (hpass : passOver library candidates = .ok pass) :
    Ranked candidates ∧ Identified candidates ∧ ¬Conflicting candidates := by
  induction candidates using List.reverseRecOn generalizing pass with
  | nil =>
    refine ⟨fun _ _ hitem ↦ ?_, fun _ hitem ↦ absurd hitem List.not_mem_nil, ?_⟩
    · exact nomatch hitem
    · rintro ⟨first, hfirst, -⟩
      exact absurd hfirst List.not_mem_nil
  | append_singleton candidates candidate ih =>
    rw [passOver_append, bind_eq_ok] at hpass
    obtain ⟨before, hbefore, hread⟩ := hpass
    obtain ⟨hranked, hidentified, hnot⟩ := ih htells.of_append hbefore
    obtain ⟨hrank, hidentity⟩ := readCandidate_of_ok hread
    refine ⟨ranked_append.mpr ⟨hranked, by exact_mod_cast hrank⟩,
      identified_append.mpr ⟨hidentified, hidentity⟩, fun hconflicting ↦ ?_⟩
    obtain ⟨first, hfirst, hdiffer⟩ := (conflicting_append hnot).mp hconflicting
    obtain ⟨other, hother, hrepresents⟩ :=
      passOver_of_good library hranked hidentified hnot
    rw [hbefore] at hother
    cases hother
    obtain ⟨message, hmessage⟩ := refuse_conflict hrepresents hfirst
      (htells.of_find hfirst hdiffer)
    rw [readCandidate_eq hidentity hrank, hmessage] at hread
    exact nomatch hread

/-- Nothing behind a refused item is read. -/
theorem passOver_of_error {start rest : List NativeEvidenceCandidate} {failure : EvidenceError}
    (hstart : passOver library start = .error failure) :
    passOver library (start ++ rest) = .error failure := by
  unfold passOver at hstart ⊢
  rw [List.zipIdx_append, List.foldlM_append, hstart]
  rfl

/-- A conflict is found in items that are in order and have identities. -/
theorem conflict_of_conflicting (htells : TellsApart library candidates)
    (hranked : Ranked candidates) (hidentified : Identified candidates)
    (hconflicting : Conflicting candidates) :
    ∃ message, passOver library candidates = .error (.conflict message) := by
  induction candidates using List.reverseRecOn with
  | nil =>
    obtain ⟨first, hfirst, -⟩ := hconflicting
    exact absurd hfirst List.not_mem_nil
  | append_singleton candidates candidate ih =>
    obtain ⟨hranked, hrank⟩ := ranked_append.mp hranked
    obtain ⟨hidentified, hidentity⟩ := identified_append.mp hidentified
    by_cases hbefore : Conflicting candidates
    · obtain ⟨message, hmessage⟩ := ih htells.of_append hranked hidentified hbefore
      exact ⟨message, passOver_of_error hmessage⟩
    · obtain ⟨pass, hpass, hrepresents⟩ :=
        passOver_of_good library hranked hidentified hbefore
      obtain ⟨first, hfirst, hdiffer⟩ := (conflicting_append hbefore).mp hconflicting
      rw [passOver_append, hpass]
      change ∃ message, readCandidate library pass _ = _
      rw [readCandidate_eq hidentity (by exact_mod_cast hrank)]
      exact refuse_conflict hrepresents hfirst (htells.of_find hfirst hdiffer)

/-- A conflict is between the last item that was read and an earlier one. -/
theorem conflicting_of_read {message : String} {rank : ℕ} {first : Pass}
    (hrepresents : Represents library candidates first)
    (hread : readCandidate library first (candidate, rank) = .error (.conflict message)) :
    identity candidate ≠ "" ∧ Conflicting (candidates ++ [candidate]) := by
  unfold readCandidate at hread
  split at hread
  · exact nomatch hread
  · rcases bind_eq_error.mp hread with hidentity | ⟨name, hname, hkeep⟩
    · unfold identityOf at hidentity
      split at hidentity
      · exact nomatch hidentity
      · exact nomatch hidentity
    · obtain ⟨hidentity, rfl⟩ := identityOf_eq_ok.mp hname
      refine ⟨hidentity, ?_⟩
      unfold keepOrDrop at hkeep
      rw [hrepresents.seen] at hkeep
      cases hfind : candidates.find? fun other ↦ identity other = identity candidate with
      | none =>
        rw [hfind] at hkeep
        exact nomatch hkeep
      | some other =>
        rw [hfind] at hkeep
        refine ⟨other, List.mem_append_left _ (List.mem_of_find?_eq_some hfind), candidate,
          List.mem_append_right _ (List.mem_singleton_self _), identity_of_find hfind,
          fun hsame ↦ ?_⟩
        simp only [Option.map_some, hsame, ne_eq, not_true_eq_false, if_false] at hkeep
        exact nomatch hkeep

/-- A conflict is found when the items up to some place have identities and conflict. -/
theorem passOver_conflict_iff (htells : TellsApart library candidates)
    (hranked : Ranked candidates) :
    (∃ message, passOver library candidates = .error (.conflict message)) ↔
      ∃ start, start <+: candidates ∧ Identified start ∧ Conflicting start := by
  constructor
  · rintro ⟨message, hconflict⟩
    induction candidates using List.reverseRecOn with
    | nil => exact nomatch hconflict
    | append_singleton candidates candidate ih =>
      have hbefore := (ranked_append.mp hranked).1
      rw [passOver_append, bind_eq_error] at hconflict
      rcases hconflict with hconflict | ⟨pass, hpass, hread⟩
      · obtain ⟨start, hstart, hgood⟩ := ih htells.of_append hbefore hconflict
        exact ⟨start, hstart.trans (List.prefix_append ..), hgood⟩
      · obtain ⟨-, hidentified, hnot⟩ := good_of_passOver htells.of_append hpass
        obtain ⟨other, hother, hrepresents⟩ :=
          passOver_of_good library hbefore hidentified hnot
        rw [hpass] at hother
        cases hother
        obtain ⟨hidentity, hconflicting⟩ := conflicting_of_read hrepresents hread
        exact ⟨_, List.prefix_refl _, identified_append.mpr ⟨hidentified, hidentity⟩, hconflicting⟩
  · rintro ⟨start, ⟨rest, rfl⟩, hidentified, hconflicting⟩
    have hstart : Ranked start := fun position item hitem ↦ hranked position item (by
      rw [List.getElem?_append_left (List.getElem?_eq_some_iff.mp hitem).1, hitem])
    have htold : TellsApart library start := fun first hfirst second hsecond ↦
      htells first (List.mem_append_left _ hfirst) second (List.mem_append_left _ hsecond)
    obtain ⟨message, hmessage⟩ := conflict_of_conflicting htold hstart hidentified hconflicting
    exact ⟨message, passOver_of_error hmessage⟩

end Oamb.Workloads.EvidencePass
