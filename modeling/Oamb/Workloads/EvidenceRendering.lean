import Oamb.Contracts.NativeEvidence
import Oamb.Foundation.JsonText

/-!
# Rendering of visible evidence

The retrieved items of a question are shown in the order of the provider, each identity once. Items
are labelled by a running number of their kind, and a fact names the label of the source chunk that
it refers to.
-/

set_option autoImplicit false

namespace Oamb.Workloads.EvidenceRendering

open Foundation Contracts.NativeEvidence

structure VisibleEvidencePolicy where
  maxItems : Option ℤ
  maxCharacters : Option ℤ
  maxTokens : Option ℤ
  deriving DecidableEq

def lmeVisibleEvidencePolicy : VisibleEvidencePolicy := ⟨none, none, none⟩

inductive Disposition
  | kept
  | duplicate
  | budgetDropped
  | truncated
  deriving DecidableEq

structure EvidenceDecision where
  nativeId : String
  providerEvidenceIdentity : String
  normalizedTextSha256 : String
  disposition : Disposition
  reason : Option String
  label : Option String
  deriving DecidableEq

structure VisibleEvidence where
  canonicalBytes : Bytes
  sha256 : String
  includedNativeIds : List String
  tokenCount : ℕ
  candidateCount : ℕ
  keptCount : ℕ
  droppedCount : ℤ
  truncatedCount : ℕ
  firstExceededLimit : Option String
  decisions : List EvidenceDecision
  payloadByteCount : ℕ
  characterCount : ℕ
  tokenizerFingerprint : String

inductive EvidenceError
  | value (message : String)
  | conflict (message : String)
  | key (message : String)
  deriving DecidableEq

/-- A digest of bytes, the tokenizer, and the reading of timestamps: none for a text that is no
timestamp, and none inside for one without an offset. -/
structure Library where
  sha256 : Bytes → String
  countO200kTokens : Bytes → ℕ
  tokenizerFingerprint : String
  fromIsoFormat : String → Option (Option String)

variable (library : Library)

def encode (text : String) : Bytes := JsonText.utf8 text.toList

/-! ### Rendering -/

def canonicalTimestamp (value : String) : Except EvidenceError String :=
  match library.fromIsoFormat value with
  | none => .error (.value s!"invalid evidence timestamp: {value}")
  | some none => .error (.value "evidence timestamp requires an explicit offset")
  | some (some text) => .ok text

structure Labels where
  labels : List String
  factCount : ℕ
  sourceCount : ℕ
  sourceLabels : Dictionary String String

def assignLabel (state : Labels) (candidate : NativeEvidenceCandidate) : Labels :=
  if candidate.evidenceKind = "source_chunk" then
    let label := "S" ++ toString (state.sourceCount + 1)
    { state with
      labels := state.labels ++ [label]
      sourceCount := state.sourceCount + 1
      sourceLabels :=
        match candidate.nativeReference with
        | some reference => state.sourceLabels.insert reference label
        | none => state.sourceLabels }
  else
    { state with
      labels := state.labels ++ ["F" ++ toString (state.factCount + 1)]
      factCount := state.factCount + 1 }

def assignLabels (candidates : List NativeEvidenceCandidate) : Labels :=
  candidates.foldl assignLabel ⟨[], 0, 0, ∅⟩

/-- The label of the source chunk of an item. -/
def sourceOf (sourceLabels : Dictionary String String) (candidate : NativeEvidenceCandidate) :
    Option String :=
  if candidate.evidenceKind = "source_chunk" then none
  else sourceLabels.lookup (candidate.nativeReference.getD "")

/-- One timestamp of an item, with its name. -/
def timestampEntry (name : String) (value : Option String) : Except EvidenceError (List String) :=
  match value with
  | none => .ok []
  | some text => (canonicalTimestamp library text).map fun timestamp ↦ [name ++ "=" ++ timestamp]

/-- The parts of the line above an item. -/
def headerOf (sourceLabels : Dictionary String String) (candidate : NativeEvidenceCandidate)
    (label : String) : Except EvidenceError (List String) :=
  if candidate.evidenceKind = "" then .error (.value "visible evidence requires a non-empty kind")
  else do
    let occurredStart ← timestampEntry library "occurred_start" candidate.occurredStart
    let occurredEnd ← timestampEntry library "occurred_end" candidate.occurredEnd
    let mentionedAt ← timestampEntry library "mentioned_at" candidate.mentionedAt
    pure (["[" ++ label ++ "]", candidate.evidenceKind] ++
      ((sourceOf sourceLabels candidate).map ("source=" ++ ·)).toList ++ occurredStart ++
      occurredEnd ++ mentionedAt ++
      if candidate.nativeTruncated then ["native_truncated=true"] else [])

def blockOf (header : List String) (candidate : NativeEvidenceCandidate) : String :=
  " ".intercalate header ++ "\n" ++ candidate.content

def renderCompactEvidence (candidates : List NativeEvidenceCandidate) :
    Except EvidenceError (String × List String) := do
  let state := assignLabels candidates
  let headers ← (candidates.zip state.labels).mapM fun labelled ↦
    headerOf library state.sourceLabels labelled.1 labelled.2
  pure ("\n\n".intercalate (List.zipWith blockOf headers candidates), state.labels)

/-! ### Building -/

def identityOf (candidate : NativeEvidenceCandidate) : Except EvidenceError String :=
  if candidate.providerEvidenceIdentity.getD "" = "" then
    .error (.value "provider evidence identity must not be empty")
  else .ok (candidate.providerEvidenceIdentity.getD "")

structure Pass where
  seenContent : Dictionary String String
  kept : List NativeEvidenceCandidate
  decisions : List EvidenceDecision

def emptyPass : Pass := ⟨∅, [], []⟩

/-- An item is kept or a duplicate. -/
def keepOrDrop (pass : Pass) (candidate : NativeEvidenceCandidate) (identity : String) :
    Except EvidenceError Pass :=
  let textHash := library.sha256 (encode candidate.content)
  match pass.seenContent.lookup identity with
  | none => .ok
    { seenContent := pass.seenContent.insert identity textHash
      kept := pass.kept ++ [candidate]
      decisions := pass.decisions ++ [⟨candidate.nativeId, identity, textHash, .kept, none, none⟩] }
  | some previousHash =>
    if previousHash ≠ textHash then
      .error (.conflict s!"provider evidence identity has conflicting content: {identity}")
    else .ok
      { pass with
        decisions := pass.decisions ++
          [⟨candidate.nativeId, identity, textHash, .duplicate, some "duplicate_identity_and_text",
            none⟩] }

def readCandidate (pass : Pass) (numbered : NativeEvidenceCandidate × ℕ) :
    Except EvidenceError Pass :=
  if numbered.1.nativeRank1Indexed ≠ numbered.2 then
    .error (.value "native evidence ranks must preserve provider order")
  else do
    let identity ← identityOf numbered.1
    keepOrDrop library pass numbered.1 identity

def labelDecision (labelsByIdentity : Dictionary String String) (decision : EvidenceDecision) :
    Except EvidenceError EvidenceDecision :=
  match labelsByIdentity.lookup decision.providerEvidenceIdentity with
  | some label => .ok { decision with label := some label }
  | none => .error (.key decision.providerEvidenceIdentity)

def buildLmeVisibleEvidence (candidates : List NativeEvidenceCandidate)
    (policy : VisibleEvidencePolicy) : Except EvidenceError VisibleEvidence :=
  if policy ≠ lmeVisibleEvidencePolicy then
    .error (.value "LongMemEval renders without a harness evidence ceiling")
  else do
    let pass ← (candidates.zipIdx 1).foldlM (readCandidate library) emptyPass
    let rendered ← renderCompactEvidence library pass.kept
    let identities ← pass.kept.mapM identityOf
    let labelsByIdentity := Dictionary.ofList (identities.zip rendered.2)
    let decisions ← pass.decisions.mapM (labelDecision labelsByIdentity)
    let payload := encode rendered.1
    pure
      { canonicalBytes := payload
        sha256 := library.sha256 payload
        includedNativeIds := pass.kept.map NativeEvidenceCandidate.nativeId
        tokenCount := library.countO200kTokens payload
        candidateCount := candidates.length
        keptCount := pass.kept.length
        droppedCount := (decisions.length : ℤ) - pass.kept.length
        truncatedCount := pass.kept.countP NativeEvidenceCandidate.nativeTruncated
        firstExceededLimit := none
        decisions
        payloadByteCount := payload.length
        characterCount := rendered.1.toList.length
        tokenizerFingerprint := library.tokenizerFingerprint }

end Oamb.Workloads.EvidenceRendering
