import Oamb.Foundation.ByteTokenizers
import Oamb.Workloads.EvidenceRendering

/-!
# Visible evidence within a budget

The retrieved items of a question are shown in the order of the provider, each identity once, one
line each. The first item that would exceed a limit is the last one that is shown: when the limit is
the one of the tokens, its content is cut at a token boundary, otherwise it is dropped. What comes
behind it is dropped as well.
-/

set_option autoImplicit false

namespace Oamb.Workloads.BudgetedEvidence

open Foundation Contracts.NativeEvidence EvidenceRendering

variable {τ : Type} (library : Library) (encoding : ByteTokenizer τ)

def mabVisibleEvidencePolicy : VisibleEvidencePolicy :=
  ⟨some 100, some 2147483647, some 32768⟩

def countO200kTokens (payload : String) : ℕ := (encoding.encode payload).length

/-! ### Lines -/

def textOrNull : Option String → Json
  | some text => .string text
  | none => .null

/-- The line of an item, with the text that is shown of it. -/
def evidenceLine (candidate : NativeEvidenceCandidate) (identity text : String) : String :=
  String.ofList (JsonText.write false (.object
    [("provider_evidence_identity", .string identity),
      ("source_unit_id", textOrNull candidate.sourceUnitId),
      ("evidence_kind", .string candidate.evidenceKind),
      ("text", .string text),
      ("occurred_start", textOrNull candidate.occurredStart),
      ("occurred_end", textOrNull candidate.occurredEnd),
      ("mentioned_at", textOrNull candidate.mentionedAt),
      ("native_reference", textOrNull candidate.nativeReference),
      ("native_truncated", .bool candidate.nativeTruncated)]))

/-- The line of an item. Lines are kept as texts, and are encoded when they are all there. -/
def mabEvidenceItem (candidate : NativeEvidenceCandidate) (identity text : String) :
    Except EvidenceError String :=
  if candidate.evidenceKind = "" ∨ text = "" then
    .error (.value "MAB visible evidence requires non-empty kind and text")
  else .ok (evidenceLine candidate identity text)

def joinLines (lines : List String) : String := "\n".intercalate lines

/-! ### Cutting -/

/-- The line of the start of an item, from a number of tokens down to one. -/
def truncateFrom (candidate : NativeEvidenceCandidate) (identity : String) (lines : List String)
    (maxTokens : ℤ) : ℕ → Except EvidenceError (Option String)
  | 0 => .ok none
  | size + 1 =>
    match encoding.decode ((encoding.encode candidate.content).take (size + 1)) with
    | none => truncateFrom candidate identity lines maxTokens size
    | some text =>
      match mabEvidenceItem candidate identity text with
      | .error failure => .error failure
      | .ok item =>
        if countO200kTokens encoding (joinLines (lines ++ [item])) ≤ maxTokens then .ok (some item)
        else truncateFrom candidate identity lines maxTokens size

def truncateMabItemToTokens (candidate : NativeEvidenceCandidate) (identity : String)
    (lines : List String) (maxTokens : ℤ) : Except EvidenceError (Option String) :=
  let remaining := maxTokens - countO200kTokens encoding (joinLines lines)
  truncateFrom encoding candidate identity lines maxTokens
    (min (encoding.encode candidate.content).length (max remaining 0).toNat)

/-! ### Limits -/

/-- A count is above a limit, if there is one. -/
def exceeds (limit : Option ℤ) (count : ℕ) : Bool :=
  match limit with
  | some bound => bound < count
  | none => false

/-- The first limit that the lines would exceed with one more. -/
def exceededLimit (policy : VisibleEvidencePolicy) (lines : List String) (item : String) :
    Option String :=
  let proposed := joinLines (lines ++ [item])
  if exceeds policy.maxItems (lines.length + 1) then some "max_items"
  else if exceeds policy.maxCharacters proposed.toList.length then some "max_characters"
  else if exceeds policy.maxTokens (countO200kTokens encoding proposed) then some "max_tokens"
  else none

/-! ### Building -/

structure BudgetPass where
  seenContent : Dictionary String String
  lines : List String
  includedIds : List String
  decisions : List EvidenceDecision
  stopped : Bool
  firstExceeded : Option String

def emptyBudgetPass : BudgetPass := ⟨∅, [], [], [], false, none⟩

/-- Record an item that was not seen before, with the line that is shown for it. -/
def recordItem (pass : BudgetPass) (candidate : NativeEvidenceCandidate)
    (identity textHash : String) (line : Option String) (disposition : Disposition)
    (reason : Option String) : BudgetPass :=
  { pass with
    seenContent := pass.seenContent.insert identity textHash
    lines := pass.lines ++ line.toList
    includedIds := pass.includedIds ++ (line.map fun _ ↦ candidate.nativeId).toList
    decisions := pass.decisions ++
      [⟨candidate.nativeId, identity, textHash, disposition, reason, none⟩] }

/-- The line of the start of an item that exceeds a limit. -/
def truncatedItem (policy : VisibleEvidencePolicy) (candidate : NativeEvidenceCandidate)
    (identity : String) (lines : List String) (exceeded : String) :
    Except EvidenceError (Option String) :=
  match policy.maxTokens with
  | some maxTokens =>
    if exceeded = "max_tokens" then
      truncateMabItemToTokens encoding candidate identity lines maxTokens
    else .ok none
  | none => .ok none

/-- An item that exceeds a limit, with the line of its start. -/
def stopItem (pass : BudgetPass) (candidate : NativeEvidenceCandidate)
    (identity textHash exceeded : String) (truncated : Option String) : BudgetPass :=
  let stopped := { pass with stopped := true, firstExceeded := some exceeded }
  match truncated with
  | some line =>
    recordItem stopped candidate identity textHash (some line) .truncated (some "max_tokens")
  | none => recordItem stopped candidate identity textHash none .budgetDropped (some exceeded)

/-- An item that was not seen before, while no limit is exceeded. -/
def offerItem (policy : VisibleEvidencePolicy) (pass : BudgetPass)
    (candidate : NativeEvidenceCandidate) (identity textHash : String) :
    Except EvidenceError BudgetPass := do
  let item ← mabEvidenceItem candidate identity candidate.content
  match exceededLimit encoding policy pass.lines item with
  | none => .ok (recordItem pass candidate identity textHash (some item) .kept none)
  | some exceeded =>
    (truncatedItem encoding policy candidate identity pass.lines exceeded).map
      (stopItem pass candidate identity textHash exceeded)

/-- An item with an identity. -/
def admitItem (policy : VisibleEvidencePolicy) (pass : BudgetPass)
    (candidate : NativeEvidenceCandidate) (identity : String) : Except EvidenceError BudgetPass :=
  let textHash := library.sha256 (encode candidate.content)
  match pass.seenContent.lookup identity with
  | some previousHash =>
    if previousHash ≠ textHash then
      .error (.conflict s!"provider evidence identity has conflicting content: {identity}")
    else .ok
      { pass with
        decisions := pass.decisions ++
          [⟨candidate.nativeId, identity, textHash, .duplicate, some "duplicate_identity_and_text",
            none⟩] }
  | none =>
    if pass.stopped then
      .ok (recordItem pass candidate identity textHash none .budgetDropped pass.firstExceeded)
    else offerItem encoding policy pass candidate identity textHash

def readItem (policy : VisibleEvidencePolicy) (pass : BudgetPass)
    (numbered : NativeEvidenceCandidate × ℕ) : Except EvidenceError BudgetPass :=
  if numbered.1.nativeRank1Indexed ≠ numbered.2 then
    .error (.value "native evidence ranks must preserve provider order")
  else if numbered.1.nativeTruncated then
    .error (.value "visible evidence rejects native truncation")
  else do
    let identity ← identityOf numbered.1
    admitItem library encoding policy pass numbered.1 identity

/-- The decisions with some dispositions. -/
def countDecisions (dispositions : List Disposition) (decisions : List EvidenceDecision) : ℕ :=
  decisions.countP fun decision ↦ decision.disposition ∈ dispositions

def buildMabVisibleEvidence (candidates : List NativeEvidenceCandidate)
    (policy : VisibleEvidencePolicy := mabVisibleEvidencePolicy) :
    Except EvidenceError VisibleEvidence := do
  let pass ← (candidates.zipIdx 1).foldlM (readItem library encoding policy) emptyBudgetPass
  let payload := joinLines pass.lines
  if candidates ≠ [] ∧ payload = "" then
    .error (.value "non-empty native evidence produced an empty visible context")
  else
    pure
      { canonicalBytes := encode payload
        sha256 := library.sha256 (encode payload)
        includedNativeIds := pass.includedIds
        tokenCount := countO200kTokens encoding payload
        candidateCount := candidates.length
        keptCount := pass.lines.length
        droppedCount := countDecisions [.duplicate, .budgetDropped] pass.decisions
        truncatedCount := countDecisions [.truncated] pass.decisions
        firstExceededLimit := pass.firstExceeded
        decisions := pass.decisions
        payloadByteCount := (encode payload).length
        characterCount := payload.toList.length
        tokenizerFingerprint := library.tokenizerFingerprint }

end Oamb.Workloads.BudgetedEvidence
