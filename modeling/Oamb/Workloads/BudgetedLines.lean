import Oamb.Workloads.BudgetedEvidence
import Oamb.Workloads.EvidencePass

/-!
# Lines within a budget

Items are shown whole as long as they fit. `Budgeted` says what is shown of the first items of all
identities: either all of them, or those before the first one that exceeds a limit, and perhaps the
start of that one. What is shown of it fits (`offered_cut`), and is neither all of its text nor
nothing (`IsCut`).
-/

set_option autoImplicit false

namespace Oamb.Workloads.BudgetedLines

open Foundation Contracts.NativeEvidence EvidenceRendering EvidencePass BudgetedEvidence

variable {τ : Type} {encoding : ByteTokenizer τ} {policy : VisibleEvidencePolicy}
  {candidate : NativeEvidenceCandidate} {whole : List NativeEvidenceCandidate}
  {lines : List String} {item text : String}

/-! ### The text of lines -/

theorem evidenceLine_ne_empty (candidate : NativeEvidenceCandidate) (identity text : String) :
    evidenceLine candidate identity text ≠ "" := by
  intro hempty
  have hchars := congrArg String.toList hempty
  rw [evidenceLine, String.toList_ofList, JsonText.write] at hchars
  cases hchars

theorem mabEvidenceItem_eq_ok {identity : String} :
    mabEvidenceItem candidate identity text = .ok item ↔
      (candidate.evidenceKind ≠ "" ∧ text ≠ "") ∧ evidenceLine candidate identity text = item := by
  unfold mabEvidenceItem
  by_cases hempty : candidate.evidenceKind = "" ∨ text = ""
  · rw [if_pos hempty, ← not_or]
    exact iff_of_false (fun hsame ↦ by cases hsame) fun hboth ↦ hboth.1 hempty
  · rw [if_neg hempty, Except.ok.injEq, ← not_or]
    exact (and_iff_right hempty).symm

/-- The characters of the members of an object. -/
theorem length_writeMembers (ascii : Bool) (members : List (String × Json)) :
    (JsonText.writeMembers ascii members).length =
      (members.map fun member ↦ (JsonText.writeText ascii member.1).length +
        (JsonText.write ascii member.2).length + 2).sum + 1 := by
  induction members with
  | nil => rfl
  | cons member members ih =>
    obtain ⟨name, value⟩ := member
    rw [JsonText.writeMembers, List.map_cons, List.sum_cons]
    simp only [List.length_cons, List.length_append, ih]
    omega

theorem length_write_object (ascii : Bool) {members : List (String × Json)}
    (hmembers : members ≠ []) :
    (JsonText.write ascii (.object members)).length =
      (members.map fun member ↦ (JsonText.writeText ascii member.1).length +
        (JsonText.write ascii member.2).length + 2).sum + 1 := by
  cases members with
  | nil => exact absurd rfl hmembers
  | cons member members =>
    obtain ⟨name, value⟩ := member
    rw [JsonText.write, List.map_cons, List.sum_cons]
    simp only [List.length_cons, List.length_append, length_writeMembers]
    omega

/-- The start of a text has no longer line than the text. -/
theorem length_evidenceLine_le {identity other : String} (hleading : text.toList <+: other.toList) :
    (evidenceLine candidate identity text).toList.length ≤
      (evidenceLine candidate identity other).toList.length := by
  obtain ⟨rest, hrest⟩ := hleading
  have htext : (JsonText.write false (.string text)).length ≤
      (JsonText.write false (.string other)).length := by
    rw [JsonText.write, JsonText.write, JsonText.writeText, JsonText.writeText, ← hrest]
    simp only [List.flatMap_append, List.length_cons, List.length_append]
    omega
  unfold evidenceLine
  rw [String.toList_ofList, String.toList_ofList, length_write_object _ (List.cons_ne_nil _ _),
    length_write_object _ (List.cons_ne_nil _ _)]
  simp only [List.map_cons, List.sum_cons]
  omega

theorem joinLines_append (hlines : lines ≠ []) (item : String) :
    joinLines (lines ++ [item]) = joinLines lines ++ "\n" ++ item := by
  rw [joinLines, String.intercalate_append_of_ne_nil hlines (List.cons_ne_nil _ _),
    String.intercalate_singleton]
  rfl

theorem length_joinLines_le {other : String} (hitem : item.toList.length ≤ other.toList.length) :
    (joinLines (lines ++ [item])).toList.length ≤ (joinLines (lines ++ [other])).toList.length := by
  by_cases hlines : lines = []
  · subst hlines
    simpa [joinLines] using hitem
  · rw [joinLines_append hlines, joinLines_append hlines]
    simp only [String.toList_append, List.length_append]
    omega

/-- Joined lines are empty when there are none. -/
theorem joinLines_eq_empty (hlines : ∀ line ∈ lines, line ≠ "") :
    joinLines lines = "" ↔ lines = [] := by
  refine ⟨fun hjoined ↦ ?_, fun hnil ↦ by rw [hnil]; rfl⟩
  induction lines using List.reverseRecOn with
  | nil => rfl
  | append_singleton lines item _ =>
    have hitem := hlines item (List.mem_append_right _ (List.mem_singleton_self _))
    by_cases hnil : lines = []
    · subst hnil
      exact absurd (by simpa [joinLines] using hjoined) hitem
    · rw [joinLines_append hnil, String.append_eq_empty_iff] at hjoined
      exact absurd hjoined.2 hitem

theorem countO200kTokens_empty (encoding : ByteTokenizer τ) : countO200kTokens encoding "" = 0 := by
  have hbytes := ByteTokenizer.bytes_of_decode (ByteTokenizer.decode_encode encoding "")
  rw [countO200kTokens, List.length_eq_zero_iff]
  cases htokens : encoding.encode "" with
  | nil => rfl
  | cons token tokens =>
    rw [htokens, List.flatMap_cons] at hbytes
    exact absurd (List.append_eq_nil_iff.mp hbytes).1 (encoding.bytes_ne_nil token)

/-! ### Limits -/

/-- Lines that exceed no limit. -/
structure Within (encoding : ByteTokenizer τ) (policy : VisibleEvidencePolicy)
    (lines : List String) : Prop where
  items : ∀ bound, policy.maxItems = some bound → lines.length ≤ bound
  characters : ∀ bound, policy.maxCharacters = some bound →
    (joinLines lines).toList.length ≤ bound
  tokens : ∀ bound, policy.maxTokens = some bound →
    countO200kTokens encoding (joinLines lines) ≤ bound

theorem exceeds_eq_false {limit : Option ℤ} {count : ℕ} :
    exceeds limit count = false ↔ ∀ bound, limit = some bound → count ≤ bound := by
  cases limit with
  | none => simp [exceeds]
  | some bound => simp [exceeds]

theorem exceeds_eq_true {limit : Option ℤ} {count : ℕ} :
    exceeds limit count = true ↔ ∃ bound, limit = some bound ∧ bound < count := by
  cases limit with
  | none => simp [exceeds]
  | some bound => simp [exceeds]

/-- One more line exceeds no limit. -/
theorem exceededLimit_eq_none : exceededLimit encoding policy lines item = none ↔
    Within encoding policy (lines ++ [item]) := by
  have hwithin : Within encoding policy (lines ++ [item]) ↔
      exceeds policy.maxItems (lines.length + 1) = false ∧
        exceeds policy.maxCharacters (joinLines (lines ++ [item])).toList.length = false ∧
          exceeds policy.maxTokens
            (countO200kTokens encoding (joinLines (lines ++ [item]))) = false := by
    rw [exceeds_eq_false, exceeds_eq_false, exceeds_eq_false]
    refine ⟨fun hwithin ↦ ⟨?_, hwithin.characters, hwithin.tokens⟩, fun hall ↦
      ⟨?_, hall.2.1, hall.2.2⟩⟩
    · have hitems := hwithin.items
      rwa [List.length_append] at hitems
    · rw [List.length_append]
      exact hall.1
  rw [hwithin, exceededLimit]
  cases exceeds policy.maxItems (lines.length + 1) <;>
    cases exceeds policy.maxCharacters (joinLines (lines ++ [item])).toList.length <;>
      cases exceeds policy.maxTokens (countO200kTokens encoding (joinLines (lines ++ [item]))) <;>
        simp

/-- One more line exceeds the limit of the tokens, and no other one. -/
theorem exceededLimit_tokens (hexceeded : exceededLimit encoding policy lines item =
    some "max_tokens") :
    (∀ bound, policy.maxItems = some bound → lines.length + 1 ≤ bound) ∧
      (∀ bound, policy.maxCharacters = some bound →
        (joinLines (lines ++ [item])).toList.length ≤ bound) ∧
        ∃ bound, policy.maxTokens = some bound ∧
          bound < countO200kTokens encoding (joinLines (lines ++ [item])) := by
  unfold exceededLimit at hexceeded
  by_cases hitems : exceeds policy.maxItems (lines.length + 1) = true
  · simp [hitems] at hexceeded
  by_cases hcharacters :
      exceeds policy.maxCharacters (joinLines (lines ++ [item])).toList.length = true
  · simp [hitems, hcharacters] at hexceeded
  by_cases htokens :
      exceeds policy.maxTokens (countO200kTokens encoding (joinLines (lines ++ [item]))) = true
  · rw [Bool.not_eq_true] at hitems hcharacters
    refine ⟨fun bound hbound ↦ ?_, exceeds_eq_false.mp hcharacters, exceeds_eq_true.mp htokens⟩
    exact_mod_cast exceeds_eq_false.mp hitems bound hbound
  · simp [hitems, hcharacters, htokens] at hexceeded

/-! ### Cutting -/

/-- Tokens at the start of a text are decoded to a start of it. -/
theorem start_of_decode_take {size : ℕ} {content : String}
    (hdecode : encoding.decode ((encoding.encode content).take size) = some text) :
    text.toList <+: content.toList := by
  have hstart := ByteTokenizer.bytes_of_decode hdecode
  have hall := ByteTokenizer.bytes_of_decode (ByteTokenizer.decode_encode encoding content)
  rw [← List.take_append_drop size (encoding.encode content), List.flatMap_append, hstart] at hall
  refine List.isPrefix_of_utf8Encode_append_eq_utf8Encode
    (ByteArray.mk (((encoding.encode content).drop size).flatMap encoding.bytes).toArray) ?_
  simp only [JsonText.utf8, String.toByteArray_ofList] at hall
  refine ByteArray.ext (Array.toList_inj.mp ?_)
  simpa using hall

/-- What is cut of an item decodes some of its tokens and fits. -/
theorem truncateFrom_eq {identity : String} {maxTokens : ℤ} {size : ℕ}
    (hkind : candidate.evidenceKind ≠ "")
    (hsize : size ≤ (encoding.encode candidate.content).length) :
    ∃ result, truncateFrom encoding candidate identity lines maxTokens size = .ok result ∧
      ∀ line, result = some line → ∃ text, text ≠ "" ∧
        text.toList <+: candidate.content.toList ∧ line = evidenceLine candidate identity text ∧
          countO200kTokens encoding (joinLines (lines ++ [line])) ≤ maxTokens := by
  induction size with
  | zero => exact ⟨none, rfl, fun line hline ↦ by cases hline⟩
  | succ size ih =>
    have hrest := ih (Nat.le_of_succ_le hsize)
    rw [truncateFrom]
    cases hdecode : encoding.decode ((encoding.encode candidate.content).take (size + 1)) with
    | none => exact hrest
    | some text =>
      have htokens : (encoding.encode candidate.content).take (size + 1) ≠ [] := by
        rw [Ne, List.take_eq_nil_iff, not_or, ← List.length_eq_zero_iff]
        omega
      have htext := ByteTokenizer.ne_empty_of_decode htokens hdecode
      have hitem : mabEvidenceItem candidate identity text =
          .ok (evidenceLine candidate identity text) := mabEvidenceItem_eq_ok.mpr
        ⟨⟨hkind, htext⟩, rfl⟩
      simp only [hitem]
      split
      · next hfits =>
        refine ⟨_, rfl, fun line hline ↦ ?_⟩
        cases hline
        exact ⟨text, htext, start_of_decode_take hdecode, rfl, hfits⟩
      · exact hrest

/-! ### What is shown -/

/-- The line of an item with a text of it. -/
def lineOf (candidate : NativeEvidenceCandidate) (text : String) : String :=
  evidenceLine candidate (identity candidate) text

/-- The lines of items that are shown whole. -/
def wholeLines (whole : List NativeEvidenceCandidate) : List String :=
  whole.map fun candidate ↦ lineOf candidate candidate.content

/-- The first limit that whole items would exceed with one more. -/
def exceededBy (encoding : ByteTokenizer τ) (policy : VisibleEvidencePolicy)
    (whole : List NativeEvidenceCandidate) (candidate : NativeEvidenceCandidate) : Option String :=
  exceededLimit encoding policy (wholeLines whole) (lineOf candidate candidate.content)

/-- No limit is exceeded by items one after the other. -/
def AllFit (encoding : ByteTokenizer τ) (policy : VisibleEvidencePolicy)
    (whole : List NativeEvidenceCandidate) : Prop :=
  ∀ (before : List NativeEvidenceCandidate) (candidate : NativeEvidenceCandidate),
    before ++ [candidate] <+: whole → exceededBy encoding policy before candidate = none

/-- A text is the start of an item, neither empty nor all of it, and fits behind whole items. -/
structure IsCut (encoding : ByteTokenizer τ) (policy : VisibleEvidencePolicy)
    (whole : List NativeEvidenceCandidate) (candidate : NativeEvidenceCandidate)
    (text : String) : Prop where
  nonempty : text ≠ ""
  start : text.toList <+: candidate.content.toList
  proper : text ≠ candidate.content
  fits : Within encoding policy (wholeLines whole ++ [lineOf candidate text])

/-- What is shown of items: those before the first one that exceeds a limit, and a start of that
one where the limit is the one of the tokens. -/
inductive Budgeted (encoding : ByteTokenizer τ) (policy : VisibleEvidencePolicy) :
    List NativeEvidenceCandidate → List NativeEvidenceCandidate →
      Option (NativeEvidenceCandidate × String) → Option String → Prop
  | all {whole : List NativeEvidenceCandidate} (hfit : AllFit encoding policy whole) :
    Budgeted encoding policy whole whole none none
  | dropped {whole rest : List NativeEvidenceCandidate} {candidate : NativeEvidenceCandidate}
    {exceeded : String} (hfit : AllFit encoding policy whole)
    (hexceeded : exceededBy encoding policy whole candidate = some exceeded) :
    Budgeted encoding policy (whole ++ candidate :: rest) whole none (some exceeded)
  | cut {whole rest : List NativeEvidenceCandidate} {candidate : NativeEvidenceCandidate}
    {text : String} (hfit : AllFit encoding policy whole)
    (hexceeded : exceededBy encoding policy whole candidate = some "max_tokens")
    (hcut : IsCut encoding policy whole candidate text) :
    Budgeted encoding policy (whole ++ candidate :: rest) whole (some (candidate, text))
      (some "max_tokens")

theorem allFit_append : AllFit encoding policy (whole ++ [candidate]) ↔
    AllFit encoding policy whole ∧ exceededBy encoding policy whole candidate = none := by
  constructor
  · exact fun hfit ↦ ⟨fun before item hbefore ↦ hfit before item
      (hbefore.trans (List.prefix_append ..)), hfit whole candidate (List.prefix_refl _)⟩
  · rintro ⟨hfit, hlast⟩ before item hbefore
    rcases List.prefix_concat_iff.mp hbefore with hsame | hbefore
    · obtain ⟨rfl, hitem⟩ := List.append_inj' hsame rfl
      cases hitem
      exact hlast
    · exact hfit before item hbefore

/-- What is cut of an item that exceeds the limit of the tokens. -/
theorem truncatedItem_eq {exceeded : String} (hkind : candidate.evidenceKind ≠ "")
    (hexceeded : exceededBy encoding policy whole candidate = some exceeded) :
    ∃ result, truncatedItem encoding policy candidate (identity candidate) (wholeLines whole)
        exceeded = .ok result ∧
      ∀ line, result = some line → exceeded = "max_tokens" ∧
        ∃ text, line = lineOf candidate text ∧ IsCut encoding policy whole candidate text := by
  unfold truncatedItem
  cases hmaxTokens : policy.maxTokens with
  | none => exact ⟨none, rfl, fun line hline ↦ by cases hline⟩
  | some maxTokens =>
    by_cases hlimit : exceeded = "max_tokens"
    · subst hlimit
      simp only [if_pos]
      obtain ⟨hitems, hcharacters, bound, hbound, hmore⟩ := exceededLimit_tokens hexceeded
      rw [hmaxTokens, Option.some.injEq] at hbound
      subst hbound
      obtain ⟨result, hresult, hline⟩ := @truncateFrom_eq τ encoding candidate
        (wholeLines whole) (identity candidate) maxTokens _ hkind
        (min_le_left (encoding.encode candidate.content).length
          (max (maxTokens - countO200kTokens encoding (joinLines (wholeLines whole))) 0).toNat)
      refine ⟨result, hresult, fun line hsome ↦ ⟨trivial, ?_⟩⟩
      obtain ⟨text, htext, hstart, rfl, hfits⟩ := hline line hsome
      refine ⟨text, rfl, htext, hstart, ?_, fun bound hbound ↦ ?_, fun bound hbound ↦ ?_,
        fun bound hbound ↦ ?_⟩
      · rintro rfl
        exact absurd hfits (not_le.mpr hmore)
      · rw [List.length_append]
        exact_mod_cast hitems bound hbound
      · refine le_trans ?_ (hcharacters bound hbound)
        exact_mod_cast length_joinLines_le (length_evidenceLine_le hstart)
      · rw [hmaxTokens, Option.some.injEq] at hbound
        exact hbound ▸ hfits
    · simp only [if_neg hlimit]
      exact ⟨none, rfl, fun line hline ↦ by cases hline⟩

/-- The items that are shown. -/
def shownItems (whole : List NativeEvidenceCandidate)
    (cut : Option (NativeEvidenceCandidate × String)) : List NativeEvidenceCandidate :=
  whole ++ (cut.map Prod.fst).toList

/-- The lines that are shown. -/
def shownLines (whole : List NativeEvidenceCandidate)
    (cut : Option (NativeEvidenceCandidate × String)) : List String :=
  wholeLines whole ++ (cut.map fun shown ↦ lineOf shown.1 shown.2).toList

variable {firsts : List NativeEvidenceCandidate} {cut : Option (NativeEvidenceCandidate × String)}
  {limit : Option String}

theorem within_wholeLines (hfit : AllFit encoding policy whole) (hwhole : whole ≠ []) :
    Within encoding policy (wholeLines whole) := by
  obtain ⟨before, last, rfl⟩ := List.eq_nil_or_concat whole |>.resolve_left hwhole
  rw [List.concat_eq_append] at hfit ⊢
  have hlast := (allFit_append.mp hfit).2
  rw [exceededBy, exceededLimit_eq_none] at hlast
  rwa [wholeLines, List.map_append, List.map_singleton]

/-- What is shown is within the limits. -/
theorem Budgeted.within (hbudgeted : Budgeted encoding policy firsts whole cut limit)
    (hshown : shownLines whole cut ≠ []) : Within encoding policy (shownLines whole cut) := by
  have hnone (hfit : AllFit encoding policy whole) (hlines : shownLines whole none ≠ []) :
      Within encoding policy (shownLines whole none) := by
    unfold shownLines at hlines ⊢
    rw [Option.map_none, Option.toList_none, List.append_nil] at hlines ⊢
    exact within_wholeLines hfit fun hwhole ↦ hlines (by rw [hwhole]; rfl)
  cases hbudgeted with
  | all hfit => exact hnone hfit hshown
  | dropped hfit => exact hnone hfit hshown
  | cut _ _ hcut => exact hcut.fits

theorem concat_isPrefix (rest : List NativeEvidenceCandidate) :
    whole ++ [candidate] <+: whole ++ candidate :: rest := by
  rw [List.append_cons whole candidate rest]
  exact List.prefix_append _ rest

/-- Behind an exceeded limit every new item is dropped. -/
theorem Budgeted.append {exceeded : String}
    (hbudgeted : Budgeted encoding policy firsts whole cut (some exceeded))
    (candidate : NativeEvidenceCandidate) :
    Budgeted encoding policy (firsts ++ [candidate]) whole cut (some exceeded) ∧
      whole.length < firsts.length := by
  cases hbudgeted with
  | dropped hfit hexceeded =>
    rw [List.append_assoc, List.cons_append, List.length_append, List.length_cons]
    exact ⟨.dropped hfit hexceeded, by omega⟩
  | cut hfit hexceeded hcut =>
    rw [List.append_assoc, List.cons_append, List.length_append, List.length_cons]
    exact ⟨.cut hfit hexceeded hcut, by omega⟩

/-- Before a limit is exceeded all items are shown. -/
theorem Budgeted.of_none (hbudgeted : Budgeted encoding policy firsts whole cut none) :
    whole = firsts ∧ cut = none ∧ AllFit encoding policy firsts := by
  cases hbudgeted with
  | all hfit => exact ⟨rfl, rfl, hfit⟩

/-- Items that all fit exceed no limit. -/
theorem Budgeted.limit_eq_none (hbudgeted : Budgeted encoding policy firsts whole cut limit)
    (hfit : AllFit encoding policy firsts) : limit = none := by
  cases hbudgeted with
  | all => rfl
  | @dropped _ rest candidate exceeded _ hexceeded =>
    rw [hfit whole candidate (concat_isPrefix ..)]
      at hexceeded
    cases hexceeded
  | @cut _ rest candidate _ _ hexceeded =>
    rw [hfit whole candidate (concat_isPrefix ..)]
      at hexceeded
    cases hexceeded

/-- What is shown stands at the start. -/
theorem Budgeted.starts (hbudgeted : Budgeted encoding policy firsts whole cut limit) :
    shownItems whole cut <+: firsts := by
  unfold shownItems
  cases hbudgeted with
  | all => simp
  | dropped => simp
  | @cut _ rest candidate =>
    exact concat_isPrefix rest

theorem length_shownLines : (shownLines whole cut).length = (shownItems whole cut).length := by
  rw [shownLines, shownItems, List.length_append, List.length_append, wholeLines, List.length_map]
  cases cut <;> rfl

theorem ne_empty_of_mem_shownLines {line : String} (hline : line ∈ shownLines whole cut) :
    line ≠ "" := by
  rw [shownLines, List.mem_append, wholeLines, List.mem_map] at hline
  rcases hline with ⟨item, -, rfl⟩ | hline
  · exact evidenceLine_ne_empty _ _ _
  · rw [Option.mem_toList, Option.map_eq_some_iff] at hline
    obtain ⟨shown, -, rfl⟩ := hline
    exact evidenceLine_ne_empty _ _ _

end Oamb.Workloads.BudgetedLines
