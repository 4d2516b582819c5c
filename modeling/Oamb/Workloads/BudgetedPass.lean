import Oamb.Workloads.BudgetedLines

/-!
# The pass within a budget

`Represents` says what the pass knows after some items: the first content of every identity, what is
shown of the first items, and the decisions. Items that can be read and do not conflict are read to
the end (`passOver_of_readable`), and nothing else is; a conflict is reported when the items up to
some place can be read and conflict (`passOver_conflict_iff`).
-/

set_option autoImplicit false

namespace Oamb.Workloads.BudgetedPass

open Foundation Foundation.FirstOccurrences Foundation.StatefulExecution
open Contracts.NativeEvidence EvidenceRendering EvidencePass BudgetedEvidence BudgetedLines

variable {τ : Type} {library : Library} {encoding : ByteTokenizer τ}
  {policy : VisibleEvidencePolicy} {candidates whole : List NativeEvidenceCandidate}
  {candidate : NativeEvidenceCandidate} {cut : Option (NativeEvidenceCandidate × String)}
  {limit : Option String} {pass : BudgetPass}

/-! ### Decisions -/

/-- The disposition of an item behind other ones, and its reason. -/
def dispositionOf (whole : List NativeEvidenceCandidate)
    (cut : Option (NativeEvidenceCandidate × String)) (limit : Option String)
    (earlier : List NativeEvidenceCandidate) (candidate : NativeEvidenceCandidate) :
    Disposition × Option String :=
  if identity candidate ∈ earlier.map identity then
    (.duplicate, some "duplicate_identity_and_text")
  else if (firstsBy identity earlier).length < whole.length then (.kept, none)
  else if (firstsBy identity earlier).length = whole.length ∧ cut ≠ none then
    (.truncated, some "max_tokens")
  else (.budgetDropped, limit)

/-- The decision about an item behind other ones. -/
def decisionOf (library : Library) (whole : List NativeEvidenceCandidate)
    (cut : Option (NativeEvidenceCandidate × String)) (limit : Option String)
    (earlier : List NativeEvidenceCandidate) (candidate : NativeEvidenceCandidate) :
    EvidenceDecision where
  nativeId := candidate.nativeId
  providerEvidenceIdentity := identity candidate
  normalizedTextSha256 := library.sha256 (encode candidate.content)
  disposition := (dispositionOf whole cut limit earlier candidate).1
  reason := (dispositionOf whole cut limit earlier candidate).2
  label := none

/-- What the pass knows after some items. -/
structure Represents (library : Library) (encoding : ByteTokenizer τ)
    (policy : VisibleEvidencePolicy) (candidates whole : List NativeEvidenceCandidate)
    (cut : Option (NativeEvidenceCandidate × String)) (pass : BudgetPass) : Prop where
  seen : Sees library candidates pass.seenContent
  budgeted : Budgeted encoding policy (firstsBy identity candidates) whole cut pass.firstExceeded
  stopped : pass.stopped = pass.firstExceeded.isSome
  lines : pass.lines = shownLines whole cut
  included : pass.includedIds = (shownItems whole cut).map NativeEvidenceCandidate.nativeId
  length : pass.decisions.length = candidates.length
  decisions : ∀ (position : ℕ) (candidate : NativeEvidenceCandidate),
    candidates[position]? = some candidate → pass.decisions[position]? =
      some (decisionOf library whole cut pass.firstExceeded (candidates.take position) candidate)
  counted : countDecisions [.kept] pass.decisions + countDecisions [.truncated] pass.decisions =
    pass.lines.length

theorem represents_empty : Represents library encoding policy [] [] none emptyBudgetPass where
  seen := fun _ ↦ rfl
  budgeted := .all fun before candidate hbefore ↦ by
    rw [firstsBy_nil, List.prefix_nil] at hbefore
    exact absurd hbefore (by simp)
  stopped := rfl
  lines := rfl
  included := rfl
  length := rfl
  decisions := fun _ _ hitem ↦ by cases hitem
  counted := rfl

/-- The first item of an identity stands among the first ones. -/
theorem place_lt {position : ℕ} {item : NativeEvidenceCandidate}
    (hitem : candidates[position]? = some item)
    (hnew : identity item ∉ (candidates.take position).map identity) :
    (firstsBy identity (candidates.take position)).length <
      (firstsBy identity candidates).length := by
  have hleading : firstsBy identity (candidates.take position ++ [item]) <+:
      firstsBy identity (candidates.take position ++ [item] ++ candidates.drop (position + 1)) :=
    firstsBy_isPrefix _ _
  obtain ⟨hposition, rfl⟩ := List.getElem?_eq_some_iff.mp hitem
  rw [firstsBy_append_of_not_mem hnew, List.append_assoc, List.singleton_append,
    ← List.drop_eq_getElem_cons hposition, List.take_append_drop] at hleading
  have hlength := hleading.length_le
  rw [List.length_append, List.length_singleton] at hlength
  exact hlength

/-- While no limit is exceeded, what is shown later changes no decision. -/
theorem decisionOf_stable {whole' : List NativeEvidenceCandidate}
    {cut' : Option (NativeEvidenceCandidate × String)} {limit' : Option String}
    (hleading : firstsBy identity candidates <+: whole') {position : ℕ}
    {item : NativeEvidenceCandidate} (hitem : candidates[position]? = some item) :
    decisionOf library whole' cut' limit' (candidates.take position) item =
      decisionOf library (firstsBy identity candidates) none none (candidates.take position)
        item := by
  have hsame : dispositionOf whole' cut' limit' (candidates.take position) item =
      dispositionOf (firstsBy identity candidates) none none (candidates.take position) item := by
    unfold dispositionOf
    by_cases hmem : identity item ∈ (candidates.take position).map identity
    · rw [if_pos hmem, if_pos hmem]
    · have hplace := place_lt hitem hmem
      rw [if_neg hmem, if_neg hmem, if_pos (hplace.trans_le hleading.length_le), if_pos hplace]
  unfold decisionOf
  rw [hsame]

theorem countDecisions_append (dispositions : List Disposition) (decisions : List EvidenceDecision)
    (decision : EvidenceDecision) :
    countDecisions dispositions (decisions ++ [decision]) =
      countDecisions dispositions decisions +
        if decision.disposition ∈ dispositions then 1 else 0 := by
  unfold countDecisions
  rw [List.countP_append, List.countP_singleton]
  simp only [decide_eq_true_eq]

/-- Every decision has one disposition. -/
theorem countDecisions_all (decisions : List EvidenceDecision) :
    countDecisions [.kept] decisions + countDecisions [.truncated] decisions +
      countDecisions [.duplicate, .budgetDropped] decisions = decisions.length := by
  induction decisions using List.reverseRecOn with
  | nil => rfl
  | append_singleton decisions decision ih =>
    rw [countDecisions_append, countDecisions_append, countDecisions_append, List.length_append,
      List.length_singleton, ← ih]
    cases decision.disposition <;> simp <;> omega

/-! ### Steps -/

/-- An item is recorded as it is decided. -/
theorem represents_record {whole' : List NativeEvidenceCandidate}
    {cut' : Option (NativeEvidenceCandidate × String)} {stopped : Bool} {line : Option String}
    {disposition : Disposition} {reason : Option String}
    (hrepresents : Represents library encoding policy candidates whole cut pass)
    (hnew : identity candidate ∉ candidates.map identity)
    (hbudgeted : Budgeted encoding policy (firstsBy identity candidates ++ [candidate]) whole' cut'
      limit)
    (hstopped : stopped = limit.isSome)
    (hlines : shownLines whole' cut' = shownLines whole cut ++ line.toList)
    (hitems : shownItems whole' cut' =
      shownItems whole cut ++ (line.map fun _ ↦ candidate).toList)
    (hdisposition : dispositionOf whole' cut' limit candidates candidate = (disposition, reason))
    (hcounted : line.isSome = true ↔ disposition = .kept ∨ disposition = .truncated)
    (hstable : ∀ (position : ℕ) (item : NativeEvidenceCandidate),
      candidates[position]? = some item →
        decisionOf library whole' cut' limit (candidates.take position) item =
          decisionOf library whole cut pass.firstExceeded (candidates.take position) item) :
    Represents library encoding policy (candidates ++ [candidate]) whole' cut'
      (recordItem { pass with stopped, firstExceeded := limit } candidate (identity candidate)
        (library.sha256 (encode candidate.content)) line disposition reason) where
  seen := hrepresents.seen.insert hnew
  budgeted := by
    rw [firstsBy_append_of_not_mem hnew]
    exact hbudgeted
  stopped := hstopped
  lines := by
    rw [hlines, ← hrepresents.lines]
    rfl
  included := by
    rw [hitems, List.map_append, ← hrepresents.included]
    cases line <;> rfl
  length := by
    simp only [recordItem, List.length_append, List.length_singleton, hrepresents.length]
  decisions := by
    intro position item hitem
    have hdecision : decisionOf library whole' cut' limit candidates candidate =
        ⟨candidate.nativeId, identity candidate, library.sha256 (encode candidate.content),
          disposition, reason, none⟩ := by
      rw [decisionOf, hdisposition]
    change (pass.decisions ++ [_])[position]? = _
    rw [← hdecision]
    refine decisions_append (decisionOf library whole' cut' limit) hrepresents.length ?_ hitem
    intro position item hitem
    rw [hrepresents.decisions position item hitem, hstable position item hitem]
  counted := by
    simp only [recordItem, countDecisions_append, List.length_append, ← hrepresents.counted,
      List.mem_singleton]
    cases line with
    | none =>
      have hneither := mt hcounted.mpr Bool.false_ne_true
      rw [not_or] at hneither
      simp [hneither]
    | some line =>
      rcases hcounted.mp rfl with rfl | rfl
      · simp
        omega
      · simp
        omega

theorem lookup_eq_none (hrepresents : Represents library encoding policy candidates whole cut pass)
    (hnew : identity candidate ∉ candidates.map identity) :
    pass.seenContent.lookup (identity candidate) = none := by
  rw [hrepresents.seen, find_eq_none hnew]
  rfl

/-- An item that cannot be shown is refused by its kind or its text. -/
theorem offerItem_error {failure : EvidenceError} {textHash : String}
    (herror : offerItem encoding policy pass candidate (identity candidate) textHash =
      .error failure) : ∃ message, failure = .value message := by
  have hitem {text : String} {failure : EvidenceError}
      (hfailure : mabEvidenceItem candidate (identity candidate) text = .error failure) :
      ∃ message, failure = .value message := by
    unfold mabEvidenceItem at hfailure
    split at hfailure
    · cases hfailure
      exact ⟨_, rfl⟩
    · cases hfailure
  have hfrom (maxTokens : ℤ) (size : ℕ) {failure : EvidenceError}
      (hfailure : truncateFrom encoding candidate (identity candidate) pass.lines maxTokens size =
        .error failure) : ∃ message, failure = .value message := by
    induction size with
    | zero => cases hfailure
    | succ size ih =>
      rw [truncateFrom] at hfailure
      split at hfailure
      · exact ih hfailure
      · split at hfailure
        · next hrefused =>
          cases hfailure
          exact hitem hrefused
        · split at hfailure
          · cases hfailure
          · exact ih hfailure
  rcases bind_eq_error.mp herror with hrefused | ⟨item, -, herror⟩
  · exact hitem hrefused
  · split at herror
    · cases herror
    · next exceeded _ =>
      have htruncated : truncatedItem encoding policy candidate (identity candidate) pass.lines
          exceeded = .error failure := by
        cases hresult : truncatedItem encoding policy candidate (identity candidate) pass.lines
          exceeded with
        | error other =>
          rw [hresult] at herror
          cases herror
          rfl
        | ok truncated =>
          rw [hresult] at herror
          cases herror
      unfold truncatedItem at htruncated
      split at htruncated
      · split at htruncated
        · exact hfrom _ _ htruncated
        · cases htruncated
      · cases htruncated

/-- A new item behind an exceeded limit is dropped. -/
theorem admit_dropped {exceeded : String}
    (hrepresents : Represents library encoding policy candidates whole cut pass)
    (hnew : identity candidate ∉ candidates.map identity)
    (hexceeded : pass.firstExceeded = some exceeded) :
    ∃ next, admitItem library encoding policy pass candidate (identity candidate) = .ok next ∧
      Represents library encoding policy (candidates ++ [candidate]) whole cut next := by
  have hstopped : pass.stopped = true := by
    rw [hrepresents.stopped, hexceeded]
    rfl
  have hbudgeted := hrepresents.budgeted
  rw [hexceeded] at hbudgeted
  obtain ⟨hmore, hlength⟩ := hbudgeted.append candidate
  unfold admitItem
  rw [lookup_eq_none hrepresents hnew]
  simp only [if_pos hstopped]
  refine ⟨_, rfl, represents_record hrepresents hnew (hexceeded ▸ hmore) hrepresents.stopped
    (by simp) (by simp) ?_ (by simp) fun _ _ _ ↦ rfl⟩
  rw [dispositionOf, if_neg hnew, if_neg (by omega), if_neg fun hboth ↦ by omega]

/-- A new item before a limit is exceeded is shown, cut or dropped. -/
theorem admit_offered (hrepresents : Represents library encoding policy candidates whole cut pass)
    (hnew : identity candidate ∉ candidates.map identity) (hnone : pass.firstExceeded = none)
    (hkind : candidate.evidenceKind ≠ "") (hcontent : candidate.content ≠ "") :
    ∃ next whole' cut',
      admitItem library encoding policy pass candidate (identity candidate) = .ok next ∧
        Represents library encoding policy (candidates ++ [candidate]) whole' cut' next := by
  have hstopped : pass.stopped = false := by
    rw [hrepresents.stopped, hnone]
    rfl
  have hbudgeted := hrepresents.budgeted
  rw [hnone] at hbudgeted
  obtain ⟨rfl, rfl, hfit⟩ := hbudgeted.of_none
  have hlines : pass.lines = wholeLines (firstsBy identity candidates) := by
    rw [hrepresents.lines, shownLines, Option.map_none, Option.toList_none, List.append_nil]
  have hitem : mabEvidenceItem candidate (identity candidate) candidate.content =
      .ok (lineOf candidate candidate.content) := mabEvidenceItem_eq_ok.mpr
    ⟨⟨hkind, hcontent⟩, rfl⟩
  have hstable {whole' : List NativeEvidenceCandidate}
      {cut' : Option (NativeEvidenceCandidate × String)} {limit' : Option String}
      (hleading : firstsBy identity candidates <+: whole') (position : ℕ)
      (item : NativeEvidenceCandidate) (hposition : candidates[position]? = some item) :
      decisionOf library whole' cut' limit' (candidates.take position) item =
        decisionOf library (firstsBy identity candidates) none pass.firstExceeded
          (candidates.take position) item := by
    rw [hnone]
    exact decisionOf_stable hleading hposition
  have hadmitted : admitItem library encoding policy pass candidate (identity candidate) =
      (exceededBy encoding policy (firstsBy identity candidates) candidate).elim
        (.ok (recordItem pass candidate (identity candidate)
          (library.sha256 (encode candidate.content))
          (some (lineOf candidate candidate.content)) .kept none))
        fun exceeded ↦ (truncatedItem encoding policy candidate (identity candidate)
          (wholeLines (firstsBy identity candidates)) exceeded).map
            (stopItem pass candidate (identity candidate)
              (library.sha256 (encode candidate.content)) exceeded) := by
    unfold admitItem offerItem exceededBy
    rw [lookup_eq_none hrepresents hnew]
    simp only [hstopped, Bool.false_eq_true, if_false, hitem, hlines, bind, Except.bind]
    cases exceededLimit encoding policy (wholeLines (firstsBy identity candidates))
      (lineOf candidate candidate.content) with
    | none => rfl
    | some exceeded => rfl
  rw [hadmitted]
  cases hexceeded : exceededBy encoding policy (firstsBy identity candidates) candidate with
  | none =>
    refine ⟨_, firstsBy identity candidates ++ [candidate], none, rfl, represents_record
      hrepresents hnew ?_ hrepresents.stopped ?_ ?_ ?_ ?_ (hstable (List.prefix_append ..))⟩
    · rw [hnone]
      exact .all (allFit_append.mpr ⟨hfit, hexceeded⟩)
    · simp [shownLines, wholeLines]
    · simp [shownItems]
    · rw [dispositionOf, if_neg hnew, if_pos (by rw [List.length_append]; exact Nat.lt_succ_self _)]
    · simp
  | some exceeded =>
    obtain ⟨truncated, htruncated, hcut⟩ := truncatedItem_eq hkind hexceeded
    have hplace : dispositionOf (firstsBy identity candidates) none (some exceeded) candidates
        candidate = (.budgetDropped, some exceeded) := by
      rw [dispositionOf, if_neg hnew, if_neg (lt_irrefl _), if_neg fun hboth ↦ hboth.2 rfl]
    simp only [Option.elim_some, htruncated]
    cases truncated with
    | none =>
      exact ⟨_, firstsBy identity candidates, none, rfl, represents_record hrepresents hnew
        (.dropped hfit hexceeded) rfl (by simp) (by simp) hplace (by simp)
        (hstable (List.prefix_refl _))⟩
    | some line =>
      obtain ⟨rfl, text, rfl, hiscut⟩ := hcut line rfl
      refine ⟨_, firstsBy identity candidates, some (candidate, text), rfl, represents_record
        hrepresents hnew (.cut hfit hexceeded hiscut) rfl ?_ ?_ ?_ ?_
        (hstable (List.prefix_refl _))⟩
      · simp [shownLines]
      · simp [shownItems]
      · rw [dispositionOf, if_neg hnew, if_neg (lt_irrefl _), if_pos ⟨rfl, Option.some_ne_none _⟩]
      · simp

/-- An item with the content of the first one of its identity is a duplicate. -/
theorem admit_duplicate {first : NativeEvidenceCandidate}
    (hrepresents : Represents library encoding policy candidates whole cut pass)
    (hfirst : candidates.find? (fun other ↦ identity other = identity candidate) = some first)
    (hsame : first.content = candidate.content) :
    ∃ next, admitItem library encoding policy pass candidate (identity candidate) = .ok next ∧
      Represents library encoding policy (candidates ++ [candidate]) whole cut next := by
  have hmem : identity candidate ∈ candidates.map identity :=
    List.mem_map.mpr ⟨first, List.mem_of_find?_eq_some hfirst, identity_of_find hfirst⟩
  have hseen : pass.seenContent.lookup (identity candidate) =
      some (library.sha256 (encode candidate.content)) := by
    rw [hrepresents.seen, hfirst, ← hsame]
    rfl
  have hdecision : decisionOf library whole cut pass.firstExceeded candidates candidate =
      ⟨candidate.nativeId, identity candidate, library.sha256 (encode candidate.content),
        .duplicate, some "duplicate_identity_and_text", none⟩ := by
    rw [decisionOf, dispositionOf, if_pos hmem]
  unfold admitItem
  simp only [hseen, ne_eq, not_true_eq_false, if_false]
  refine ⟨_, rfl, ⟨hrepresents.seen.append hfirst, ?_, hrepresents.stopped, hrepresents.lines,
    hrepresents.included, ?_, fun position item hitem ↦ ?_, ?_⟩⟩
  · rw [firstsBy_append_of_mem hmem]
    exact hrepresents.budgeted
  · rw [List.length_append, List.length_append, hrepresents.length]
    rfl
  · rw [← hdecision]
    exact decisions_append (decisionOf library whole cut pass.firstExceeded) hrepresents.length
      hrepresents.decisions hitem
  · rw [countDecisions_append, countDecisions_append]
    exact hrepresents.counted

/-- An item with another content than the first one of its identity is a conflict. -/
theorem admit_conflict {first : NativeEvidenceCandidate}
    (hrepresents : Represents library encoding policy candidates whole cut pass)
    (hfirst : candidates.find? (fun other ↦ identity other = identity candidate) = some first)
    (hdiffer : library.sha256 (encode first.content) ≠
      library.sha256 (encode candidate.content)) :
    ∃ message, admitItem library encoding policy pass candidate (identity candidate) =
      .error (.conflict message) := by
  have hseen : pass.seenContent.lookup (identity candidate) =
      some (library.sha256 (encode first.content)) := by
    rw [hrepresents.seen, hfirst]
    rfl
  unfold admitItem
  simp only [hseen, ne_eq, hdiffer, not_false_eq_true, if_true]
  exact ⟨_, rfl⟩

/-- An item that is found in conflict differs from the first one of its identity. -/
theorem exists_find_of_conflict {message : String}
    (hrepresents : Represents library encoding policy candidates whole cut pass)
    (hconflict : admitItem library encoding policy pass candidate (identity candidate) =
      .error (.conflict message)) :
    ∃ first, candidates.find? (fun other ↦ identity other = identity candidate) = some first ∧
      first.content ≠ candidate.content := by
  unfold admitItem at hconflict
  rw [hrepresents.seen] at hconflict
  cases hfirst : candidates.find? fun other ↦ identity other = identity candidate with
  | some first =>
    refine ⟨first, rfl, fun hsame ↦ ?_⟩
    rw [hfirst] at hconflict
    simp only [Option.map_some, hsame, ne_eq, not_true_eq_false, if_false] at hconflict
    cases hconflict
  | none =>
    rw [hfirst] at hconflict
    simp only [Option.map_none] at hconflict
    split at hconflict
    · cases hconflict
    · obtain ⟨failure, hfailure⟩ := offerItem_error hconflict
      cases hfailure

/-- A new item that was admitted before a limit is exceeded has a kind and a text. -/
theorem rendered_of_admit {next : BudgetPass}
    (hrepresents : Represents library encoding policy candidates whole cut pass)
    (hnew : identity candidate ∉ candidates.map identity)
    (hfit : AllFit encoding policy (firstsBy identity candidates))
    (hadmitted : admitItem library encoding policy pass candidate (identity candidate) = .ok next) :
    candidate.evidenceKind ≠ "" ∧ candidate.content ≠ "" := by
  have hstopped : pass.stopped = false := by
    rw [hrepresents.stopped, hrepresents.budgeted.limit_eq_none hfit]
    rfl
  unfold admitItem at hadmitted
  rw [lookup_eq_none hrepresents hnew] at hadmitted
  simp only [hstopped, Bool.false_eq_true, if_false] at hadmitted
  obtain ⟨item, hitem, -⟩ := bind_eq_ok.mp hadmitted
  exact (mabEvidenceItem_eq_ok.mp hitem).1

/-! ### Reading -/

/-- Items can be read: they are in order and were not cut before, each has an identity, and each
that is rendered has a kind and a text. -/
structure Readable (encoding : ByteTokenizer τ) (policy : VisibleEvidencePolicy)
    (candidates : List NativeEvidenceCandidate) : Prop where
  ranked : Ranked candidates
  untruncated : ∀ candidate ∈ candidates, candidate.nativeTruncated = false
  identified : Identified candidates
  rendered : ∀ (before : List NativeEvidenceCandidate) (candidate : NativeEvidenceCandidate),
    before ++ [candidate] <+: firstsBy identity candidates → AllFit encoding policy before →
      candidate.evidenceKind ≠ "" ∧ candidate.content ≠ ""

/-- The last of some items can be read. -/
structure CanFollow (encoding : ByteTokenizer τ) (policy : VisibleEvidencePolicy)
    (candidates : List NativeEvidenceCandidate) (candidate : NativeEvidenceCandidate) : Prop where
  rank : candidate.nativeRank1Indexed = candidates.length + 1
  untruncated : candidate.nativeTruncated = false
  identity : identity candidate ≠ ""
  rendered : EvidencePass.identity candidate ∉ candidates.map EvidencePass.identity →
    AllFit encoding policy (firstsBy EvidencePass.identity candidates) →
      candidate.evidenceKind ≠ "" ∧ candidate.content ≠ ""

theorem readable_nil : Readable encoding policy [] where
  ranked := fun _ _ hitem ↦ by cases hitem
  untruncated := fun _ hitem ↦ absurd hitem List.not_mem_nil
  identified := fun _ hitem ↦ absurd hitem List.not_mem_nil
  rendered := fun before candidate hbefore ↦ by
    rw [firstsBy_nil, List.prefix_nil] at hbefore
    exact absurd hbefore (by simp)

theorem readable_append : Readable encoding policy (candidates ++ [candidate]) ↔
    Readable encoding policy candidates ∧ CanFollow encoding policy candidates candidate := by
  constructor
  · rintro ⟨hranked, huntruncated, hidentified, hrendered⟩
    obtain ⟨hranked, hrank⟩ := ranked_append.mp hranked
    obtain ⟨hidentified, hidentity⟩ := identified_append.mp hidentified
    refine ⟨⟨hranked, fun item hitem ↦ huntruncated item (List.mem_append_left _ hitem),
      hidentified, fun before item hbefore ↦ hrendered before item
        (hbefore.trans (firstsBy_isPrefix ..))⟩,
      ⟨hrank, huntruncated candidate (List.mem_append_right _ (List.mem_singleton_self _)),
        hidentity, fun hnew ↦ hrendered _ candidate ?_⟩⟩
    simp only [firstsBy_append_of_not_mem hnew]
    exact List.prefix_refl _
  · rintro ⟨hreadable, hfollow⟩
    refine ⟨ranked_append.mpr ⟨hreadable.ranked, hfollow.rank⟩, fun item hitem ↦ ?_,
      identified_append.mpr ⟨hreadable.identified, hfollow.identity⟩,
      fun before item hbefore hfit ↦ ?_⟩
    · rw [List.mem_append, List.mem_singleton] at hitem
      rcases hitem with hitem | rfl
      · exact hreadable.untruncated item hitem
      · exact hfollow.untruncated
    · by_cases hmem : identity candidate ∈ candidates.map identity
      · rw [firstsBy_append_of_mem hmem] at hbefore
        exact hreadable.rendered before item hbefore hfit
      · rw [firstsBy_append_of_not_mem hmem] at hbefore
        rcases List.prefix_concat_iff.mp hbefore with hsame | hbefore
        · obtain ⟨rfl, hitem⟩ := List.append_inj' hsame rfl
          cases hitem
          exact hfollow.rendered hmem hfit
        · exact hreadable.rendered before item hbefore hfit

/-- An item that can follow is admitted. -/
theorem readItem_eq {rank : ℕ} (hrank : candidate.nativeRank1Indexed = rank)
    (huntruncated : candidate.nativeTruncated = false) (hidentity : identity candidate ≠ "") :
    readItem library encoding policy pass (candidate, rank) =
      admitItem library encoding policy pass candidate (identity candidate) := by
  unfold readItem
  simp only [hrank, huntruncated, ne_eq, not_true_eq_false, if_false, Bool.false_eq_true]
  rw [identityOf_eq hidentity]
  rfl

/-- What is read was in order, not cut before, and has an identity. -/
theorem readItem_cases (pass : BudgetPass) (candidate : NativeEvidenceCandidate) (rank : ℕ) :
    (∃ message, readItem library encoding policy pass (candidate, rank) =
      .error (.value message)) ∨
    candidate.nativeRank1Indexed = rank ∧ candidate.nativeTruncated = false ∧
      identity candidate ≠ "" := by
  unfold readItem
  by_cases hrank : candidate.nativeRank1Indexed = rank
  · by_cases huntruncated : candidate.nativeTruncated = true
    · simp only [hrank, huntruncated, ne_eq, not_true_eq_false, if_false, if_true]
      exact .inl ⟨_, rfl⟩
    · by_cases hidentity : identity candidate = ""
      · simp only [hrank, huntruncated, ne_eq, not_true_eq_false, if_false]
        rw [show identityOf candidate = .error _ from if_pos hidentity]
        exact .inl ⟨_, rfl⟩
      · exact .inr ⟨hrank, Bool.not_eq_true _ ▸ huntruncated, hidentity⟩
  · simp only [ne_eq, hrank, not_false_eq_true, if_true]
    exact .inl ⟨_, rfl⟩

/-! ### The whole pass -/

/-- The pass over some items. -/
def passOver (library : Library) (encoding : ByteTokenizer τ) (policy : VisibleEvidencePolicy)
    (candidates : List NativeEvidenceCandidate) : Except EvidenceError BudgetPass :=
  (candidates.zipIdx 1).foldlM (readItem library encoding policy) emptyBudgetPass

theorem passOver_append (candidates : List NativeEvidenceCandidate)
    (candidate : NativeEvidenceCandidate) :
    passOver library encoding policy (candidates ++ [candidate]) =
      passOver library encoding policy candidates >>= fun pass ↦
        readItem library encoding policy pass (candidate, candidates.length + 1) := by
  unfold passOver
  rw [List.zipIdx_append, List.foldlM_append, Nat.add_comm]
  refine congrArg _ (funext fun pass ↦ ?_)
  exact bind_pure _

/-- Nothing behind a refused item is read. -/
theorem passOver_of_error {start rest : List NativeEvidenceCandidate} {failure : EvidenceError}
    (hstart : passOver library encoding policy start = .error failure) :
    passOver library encoding policy (start ++ rest) = .error failure := by
  unfold passOver at hstart ⊢
  rw [List.zipIdx_append, List.foldlM_append, hstart]
  rfl

/-- Items that can be read and do not conflict are all read. -/
theorem passOver_of_readable (library : Library) (hreadable : Readable encoding policy candidates)
    (hnot : ¬Conflicting candidates) :
    ∃ pass whole cut, passOver library encoding policy candidates = .ok pass ∧
      Represents library encoding policy candidates whole cut pass := by
  induction candidates using List.reverseRecOn with
  | nil => exact ⟨emptyBudgetPass, [], none, rfl, represents_empty⟩
  | append_singleton candidates candidate ih =>
    obtain ⟨hreadable, hfollow⟩ := readable_append.mp hreadable
    have hbefore : ¬Conflicting candidates := fun hconflicting ↦
      hnot (hconflicting.mono (List.subset_append_left ..))
    obtain ⟨pass, whole, cut, hpass, hrepresents⟩ := ih hreadable hbefore
    have hread : passOver library encoding policy (candidates ++ [candidate]) =
        admitItem library encoding policy pass candidate (identity candidate) := by
      rw [passOver_append, hpass]
      exact readItem_eq (by exact_mod_cast hfollow.rank) hfollow.untruncated hfollow.identity
    rw [hread]
    cases hfirst : candidates.find? fun other ↦ identity other = identity candidate with
    | none =>
      have hnew : identity candidate ∉ candidates.map identity := by
        rw [← find_isSome_iff, hfirst]
        exact Bool.false_ne_true
      cases hlimit : pass.firstExceeded with
      | none =>
        obtain ⟨-, -, hfit⟩ := (hlimit ▸ hrepresents.budgeted).of_none
        obtain ⟨hkind, hcontent⟩ := hfollow.rendered hnew hfit
        exact admit_offered hrepresents hnew hlimit hkind hcontent
      | some exceeded =>
        obtain ⟨next, hnext, hmore⟩ := admit_dropped hrepresents hnew hlimit
        exact ⟨next, whole, cut, hnext, hmore⟩
    | some first =>
      obtain ⟨next, hnext, hmore⟩ := admit_duplicate hrepresents hfirst (by_contra fun hdiffer ↦
        hnot ((conflicting_append hbefore).mpr ⟨first, hfirst, hdiffer⟩))
      exact ⟨next, whole, cut, hnext, hmore⟩

/-- A conflict is found in items that can be read. -/
theorem conflict_of_conflicting (htells : TellsApart library candidates)
    (hreadable : Readable encoding policy candidates) (hconflicting : Conflicting candidates) :
    ∃ message, passOver library encoding policy candidates = .error (.conflict message) := by
  induction candidates using List.reverseRecOn with
  | nil =>
    obtain ⟨first, hfirst, -⟩ := hconflicting
    exact absurd hfirst List.not_mem_nil
  | append_singleton candidates candidate ih =>
    obtain ⟨hreadable, hfollow⟩ := readable_append.mp hreadable
    by_cases hbefore : Conflicting candidates
    · obtain ⟨message, hmessage⟩ := ih htells.of_append hreadable hbefore
      exact ⟨message, passOver_of_error hmessage⟩
    · obtain ⟨pass, whole, cut, hpass, hrepresents⟩ :=
        passOver_of_readable library hreadable hbefore
      obtain ⟨first, hfirst, hdiffer⟩ := (conflicting_append hbefore).mp hconflicting
      rw [passOver_append, hpass]
      change ∃ message, readItem library encoding policy pass _ = _
      rw [readItem_eq (by exact_mod_cast hfollow.rank) hfollow.untruncated hfollow.identity]
      exact admit_conflict hrepresents hfirst (htells.of_find hfirst hdiffer)

/-- What was read to the end can be read and is without a conflict. -/
theorem readable_of_passOver (htells : TellsApart library candidates)
    (hpass : passOver library encoding policy candidates = .ok pass) :
    Readable encoding policy candidates ∧ ¬Conflicting candidates := by
  induction candidates using List.reverseRecOn generalizing pass with
  | nil =>
    refine ⟨readable_nil, ?_⟩
    rintro ⟨first, hfirst, -⟩
    exact absurd hfirst List.not_mem_nil
  | append_singleton candidates candidate ih =>
    rw [passOver_append, bind_eq_ok] at hpass
    obtain ⟨before, hbefore, hread⟩ := hpass
    obtain ⟨hreadable, hnot⟩ := ih htells.of_append hbefore
    obtain ⟨other, whole, cut, hother, hrepresents⟩ :=
      passOver_of_readable library hreadable hnot
    rw [hbefore, Except.ok.injEq] at hother
    subst hother
    rcases readItem_cases before candidate (candidates.length + 1) with
      ⟨message, herror⟩ | ⟨hrank, huntruncated, hidentity⟩
    · rw [herror] at hread
      cases hread
    rw [readItem_eq hrank huntruncated hidentity] at hread
    refine ⟨readable_append.mpr ⟨hreadable, by exact_mod_cast hrank, huntruncated, hidentity,
      fun hnew hfit ↦ ?_⟩, fun hconflicting ↦ ?_⟩
    · exact rendered_of_admit hrepresents hnew hfit hread
    · obtain ⟨first, hfirst, hdiffer⟩ := (conflicting_append hnot).mp hconflicting
      obtain ⟨message, hmessage⟩ := admit_conflict hrepresents hfirst
        (htells.of_find hfirst hdiffer)
      rw [hmessage] at hread
      cases hread

/-- A conflict is found when the items up to some place can be read and conflict. -/
theorem passOver_conflict_iff (htells : TellsApart library candidates) :
    (∃ message, passOver library encoding policy candidates = .error (.conflict message)) ↔
      ∃ start, start <+: candidates ∧ Readable encoding policy start ∧ Conflicting start := by
  constructor
  · rintro ⟨message, hconflict⟩
    induction candidates using List.reverseRecOn with
    | nil => cases hconflict
    | append_singleton candidates candidate ih =>
      rw [passOver_append, bind_eq_error] at hconflict
      rcases hconflict with hconflict | ⟨pass, hpass, hread⟩
      · obtain ⟨start, hstart, hgood⟩ := ih htells.of_append hconflict
        exact ⟨start, hstart.trans (List.prefix_append ..), hgood⟩
      · obtain ⟨hreadable, hnot⟩ := readable_of_passOver htells.of_append hpass
        obtain ⟨other, whole, cut, hother, hrepresents⟩ :=
          passOver_of_readable library hreadable hnot
        rw [hpass, Except.ok.injEq] at hother
        subst hother
        rcases readItem_cases pass candidate (candidates.length + 1) with
          ⟨message, herror⟩ | ⟨hrank, huntruncated, hidentity⟩
        · rw [herror] at hread
          cases hread
        rw [readItem_eq hrank huntruncated hidentity] at hread
        obtain ⟨first, hfirst, hdiffer⟩ := exists_find_of_conflict hrepresents hread
        refine ⟨_, List.prefix_refl _, readable_append.mpr ⟨hreadable, by exact_mod_cast hrank,
          huntruncated, hidentity, fun hnew ↦ ?_⟩,
          (conflicting_append hnot).mpr ⟨first, hfirst, hdiffer⟩⟩
        rw [find_eq_none hnew] at hfirst
        cases hfirst
  · rintro ⟨start, ⟨rest, rfl⟩, hreadable, hconflicting⟩
    have htold : TellsApart library start := fun first hfirst second hsecond ↦
      htells first (List.mem_append_left _ hfirst) second (List.mem_append_left _ hsecond)
    obtain ⟨message, hmessage⟩ := conflict_of_conflicting htold hreadable hconflicting
    exact ⟨message, passOver_of_error hmessage⟩

end Oamb.Workloads.BudgetedPass
