import Mathlib.Data.List.Infix
import Oamb.Foundation.JsonText
import Oamb.Foundation.TextFractions

/-!
# Text of a report analysis

A model writes an analysis of a report: one sentence for all providers, and two for each of them.
The text is read strictly, and is refused when it breaks a rule: about its sentences, the numbers
and the results in it, the providers and metrics that it names, and the words that it must not use.
-/

set_option autoImplicit false

namespace Oamb.Reporting.AnalysisText

open Foundation Foundation.TextPatterns Foundation.TextFractions

/-- Retryable errors lead to another attempt; the other ones end the generation. -/
inductive AnalysisError
  | retryable (message : String)
  | value (message : String)
  | key (name : String)
  deriving DecidableEq

/-- The classes of characters, characters that are the same when case is ignored, the case folding
of texts, the number in the text of a value when it is one that is finite and not negative, and the
text of a value that is no text, integer, truth value or null. -/
structure Tables where
  classes : CharacterClasses
  sameCase : Char → Char → Bool
  casefold : List Char → List Char
  decimalOf : Json → Option ℚ
  otherText : Json → String

structure ProviderInsight where
  providerId : String
  insight : List Char
  deriving DecidableEq

def reportAnalysisMaxInsightCharacters : ℕ := 560

def reportAnalysisQuestionTypes : List String :=
  ["knowledge-update", "multi-session", "single-session-assistant", "single-session-preference",
    "single-session-user", "temporal-reasoning"]

variable (tables : Tables)

/-! ### Values -/

def requiredText (value : Json) (name : String) : Except AnalysisError String :=
  match (value.get name).asNonEmptyText with
  | some text => .ok text
  | none => .error (.value s!"report analysis requires text field {name}")

def requiredCells (value : Json) : Except AnalysisError (List Json) :=
  match value.get "cells" with
  | .array cells =>
    if cells.all Json.isObject then .ok cells
    else .error (.value "report analysis requires provider cells")
  | _ => .error (.value "report analysis requires provider cells")

/-- The text of a value in a result. -/
def valueText : Json → String
  | .string text => text
  | .integer value => toString value
  | .bool true => "True"
  | .bool false => "False"
  | .null => "None"
  | value => tables.otherText value

/-- A text is a part of another one. -/
def isIn (part text : List Char) : Bool := decide (part <:+: text)

/-- A name is a part of a text when case is ignored. -/
def isNamedIn (name : String) (text : List Char) : Bool :=
  isIn (tables.casefold name.toList) (tables.casefold text)

/-- The sentences of a text. -/
def sentences (text : List Char) : List (List Char) :=
  ((split (.all [.behind (· ∈ ['.', '!', '?']) true, .run Whitespace.isSpace 1 none])
    text).map Whitespace.strip).filter fun sentence ↦ !sentence.isEmpty

def conciseSentence (value : Json) (label : String) (maximumCharacters : ℕ) :
    Except AnalysisError (List Char) :=
  match value with
  | .string text =>
    let normalized := Whitespace.strip text.toList
    if normalized = [] then .error (.retryable s!"{label} must be non-empty text")
    else if '\n' ∈ normalized ∨ '\r' ∈ normalized ∨ maximumCharacters < normalized.length then
      .error (.retryable s!"{label} must be compact single-line text")
    else .ok normalized
  | _ => .error (.retryable s!"{label} must be non-empty text")

/-! ### Patterns -/

/-- A text when case is ignored. -/
def folded (text : String) : Pattern := .text tables.sameCase text.toList

/-- A character of some when case is ignored. -/
def foldedChar (chars : List Char) : Pattern :=
  .one fun char ↦ chars.any fun wanted ↦ tables.sameCase wanted char

def boundary : Pattern := .boundary tables.classes.isWord

def spaces : Pattern := .run Whitespace.isSpace 1 none

/-- A text that may have an `s` behind it. -/
def plural (text : String) : Pattern := .seq (folded tables text) (folded tables "s").optional

/-- One of some words. -/
def wordOf (words : List Pattern) : Pattern :=
  .all [boundary tables, .oneOf words, boundary tables]

def decisionJargon : Pattern :=
  wordOf tables
    [.all [folded tables "accuracy", foldedChar tables ['_', ' '], folded tables "decision"],
      .all [folded tables "equal", foldedChar tables ['-', '_', ' '], folded tables "coverage"],
      plural tables "failed predicate", plural tables "threshold check"]

def outsideEvidence : Pattern :=
  .either
    (wordOf tables (["external", "managed", "official", "public", "self-evaluation",
      "benchmark"].map (folded tables)))
    (wordOf tables [folded tables "reference comparison"])

def unsuppliedContext : Pattern :=
  .oneOf
    [wordOf tables [.all [folded tables "visible", spaces, folded tables "evidence"]],
      wordOf tables [.all [.oneOf (["retrieved", "injected"].map (folded tables)), spaces,
        .oneOf (["evidence", "context"].map (folded tables))]],
      wordOf tables [.all [folded tables "memory", spaces,
        .oneOf (["contained", "held", "lacked", "missed", "omitted", "retained", "unused"].map
          (folded tables))]],
      wordOf tables [.all
        [.oneOf (["contained", "held", "lacked", "missing", "omitted", "present", "retained",
          "unused"].map (folded tables)), spaces,
          .oneOf (["in", "from"].map (folded tables)), spaces,
          (Pattern.seq (folded tables "the") spaces).optional, folded tables "memory"]]]

def retrievalControl : Pattern :=
  .oneOf
    [wordOf tables [.all [folded tables "top", (foldedChar tables ['_', ' ', '-']).optional,
        folded tables "k"]],
      wordOf tables [.all [folded tables "candidate", foldedChar tables ['-', ' '],
        plural tables "ceiling"]],
      wordOf tables [.all [folded tables "retrieval", foldedChar tables ['-', ' '],
        folded tables "control",
        (Pattern.either (folded tables "s") (folded tables " alignment")).optional]]]

def evaluationDesign : Pattern :=
  .oneOf
    [wordOf tables [.all [.oneOf (["evaluation", "benchmark"].map (folded tables)),
        foldedChar tables ['-', ' '],
        .oneOf [folded tables "process", folded tables "configuration", folded tables "design",
          plural tables "control"]]],
      wordOf tables [folded tables "comparability"],
      wordOf tables [.all [folded tables "decision", foldedChar tables ['-', ' '],
        plural tables "threshold"]]]

def costWords : Pattern :=
  wordOf tables (plural tables "cost" :: ["costly", "cheaper", "expensive"].map (folded tables))

def spelledNumbers : Pattern :=
  wordOf tables (["thousand", "million", "billion"].map (folded tables))

def unspacedSuffix : Pattern :=
  .all [.one tables.classes.isDigit,
    (Pattern.seq (.one (· = '.')) (.run tables.classes.isDigit 1 none)).optional,
    .one (· ∈ ['k', 'M', 'B']), boundary tables]

/-- The letters of ASCII when case is ignored. -/
def isLetter (char : Char) : Bool :=
  "abcdefghijklmnopqrstuvwxyz".toList.any fun letter ↦ tables.sameCase letter char

def shortDurations : Pattern :=
  .all [.behind (isLetter tables) false,
    .oneOf [plural tables "microsecond", plural tables "millisecond",
      .seq (foldedChar tables ['\u00b5', '\u03bc']) (folded tables "s"), folded tables "ms"],
    .ahead (isLetter tables) false]

def numbers : Pattern :=
  .seq (.one tables.classes.isDigit)
    (.run (fun char ↦ tables.classes.isDigit char || char = ',' || char = '.') 0 none)

/-! ### What is recorded -/

/-- The accuracies of the providers, when each has one. -/
def scoredAccuracies : List Json → Except AnalysisError (Option (List (ℚ × String × ℤ × ℤ)))
  | [] => .ok (some [])
  | cell :: cells =>
    let accuracy := cell.get "answer_accuracy"
    match (accuracy.get "numerator").asInteger, (accuracy.get "denominator").asInteger with
    | some numerator, some denominator =>
      if denominator ≤ 0 then .ok none
      else do
        let providerId ← requiredText cell "provider_id"
        let scored ← scoredAccuracies cells
        pure (scored.map (((numerator : ℚ) / denominator, providerId, numerator, denominator) :: ·))
    | _, _ => .ok none

/-- The provider whose accuracy is above that of every other one. -/
def recordedAccuracyLeader (cells : List Json) :
    Except AnalysisError (Option (String × ℤ × ℤ)) := do
  match ← scoredAccuracies cells with
  | none => pure none
  | some scored =>
    match (scored.map Prod.fst).max? with
    | none => .error (.value "max() iterable argument is empty")
    | some highest =>
      match scored.filter fun item ↦ item.1 = highest with
      | [leader] => pure (some leader.2)
      | _ => pure none

/-- The numbers of the providers in a member of their cells, when each has one. -/
def scoredNumbers (name number : String) :
    List Json → Except AnalysisError (Option (List (ℚ × String)))
  | [] => .ok (some [])
  | cell :: cells =>
    if (cell.get name).isObject then
      match tables.decimalOf ((cell.get name).get number) with
      | none => .ok none
      | some value => do
        let providerId ← requiredText cell "provider_id"
        let scored ← scoredNumbers name number cells
        pure (scored.map ((value, providerId) :: ·))
    else .ok none

/-- The providers with the lowest mean of context tokens. -/
def recordedContextLeaders (cells : List Json) : Except AnalysisError (List String) := do
  let scored ← scoredNumbers tables "context_tokens" "mean" cells
  match scored with
  | none => pure []
  | some scored =>
    match (scored.map Prod.fst).min? with
    | none => pure []
    | some lowest => pure ((scored.filter fun item ↦ item.1 = lowest).map Prod.snd)

/-- The provider whose median indexing time is above that of every other one. -/
def recordedSlowestIndexingProvider (cells : List Json) :
    Except AnalysisError (Option String) := do
  let scored ← scoredNumbers tables "indexing_time" "median_seconds" cells
  match scored with
  | none => pure none
  | some scored =>
    match (scored.map Prod.fst).max? with
    | none => pure none
    | some slowest =>
      match scored.filter fun item ↦ item.1 = slowest with
      | [provider] => pure (some provider.2)
      | _ => pure none

/-- The metrics that a sentence names, but for accuracy. -/
def mentionedOperationalMetrics (text : List Char) : List String :=
  let normalized := tables.casefold text
  let word (word : String) : Pattern := .text (· == ·) word.toList
  let plural (text : String) : Pattern := .seq (word text) (word "s").optional
  let gap : Pattern := .run (fun char ↦ char = '-' || Whitespace.isSpace char) 1 none
  let metrics : List (String × Pattern) :=
    [("context_tokens", wordOf tables [.all [(Pattern.seq (word "answer") gap).optional,
        word "context", gap, .oneOf [plural "token", plural "load"]]]),
      ("indexing_tokens", wordOf tables [.all [word "indexing", gap, plural "token"]]),
      ("retrieval_latency", .either
        (wordOf tables [.all [word "retrieval", gap, .oneOf [word "latency", word "median"]]])
        (wordOf tables [.all [word "median", gap, word "retrieval"]])),
      ("indexing_time", wordOf tables [.all [word "indexing", gap, word "time"]])]
  (metrics.filter fun metric ↦ occurs metric.2 normalized).map Prod.fst

/-- The results of the question types of a provider. -/
def questionTypeResults : List Json → Except AnalysisError (List (String × Json × Json))
  | [] => .ok []
  | record :: records =>
    if record.isObject then do
      let questionType ← requiredText record "question_type"
      let results ← questionTypeResults records
      pure ((questionType, record.get "correct", record.get "total") :: results)
    else questionTypeResults records

/-- The results of the question types of each provider. -/
def questionTypeAccuracyByProvider :
    List Json → Except AnalysisError (List (String × List (String × Json × Json)))
  | [] => .ok []
  | cell :: cells =>
    match cell.get "question_type_accuracy" with
    | .array records => do
      let providerId ← requiredText cell "provider_id"
      let results ← questionTypeResults records
      let expected ← questionTypeAccuracyByProvider cells
      pure ((providerId, results) :: expected)
    | _ => .error (.value "report analysis question-type evidence is invalid")

/-- The last value of a name. -/
def lastOf {ν : Type} (items : List (String × ν)) (name : String) : Except AnalysisError ν :=
  match (items.reverse.find? fun item ↦ item.1 = name).map Prod.snd with
  | some value => .ok value
  | none => .error (.key name)

def resultText (result : Json × Json) : List Char :=
  (valueText tables result.1).toList ++ '/' :: (valueText tables result.2).toList

/-! ### Rules -/

/-- A rule of the text. -/
def rule (kept : Prop) [Decidable kept] (message : String) : Except AnalysisError Unit :=
  if kept then .ok () else .error (.retryable message)

/-- Short results, as they are looked for in a text. -/
def results : Pattern := fractionPattern tables.classes 3

def requiredOpening (analysisInput : Json) : String :=
  if ((analysisInput.get "model_effort_controls").get "status").isText
      "shared_across_providers" then
    "With the same models and thinking effort at each corresponding stage across providers,"
  else "Across the evaluated providers,"

/-- The rules of the sentence for all providers about the highest accuracy. -/
def validateLeader (overall : List Char) : Option (String × ℤ × ℤ) → Except AnalysisError Unit
  | none => .ok ()
  | some (providerId, numerator, denominator) => do
    let leaderFraction := resultText tables (.integer numerator, .integer denominator)
    rule (isNamedIn tables providerId overall = true ∧ isIn leaderFraction overall = true)
      "overall must name the highest recorded provider and its exact result"
    rule (∀ fraction ∈ findAll (results tables) overall, fraction = leaderFraction)
      "overall must not repeat nonleading provider results"

/-- The rules of the sentence for all providers. -/
def validateOverall (overall : List Char) (analysisInput : Json) (cells : List Json) :
    Except AnalysisError Unit := do
  let recordedLeader ← recordedAccuracyLeader cells
  rule ((sentences overall).length = 1 ∧
      (requiredOpening analysisInput).toList <+: overall)
    "overall must give accuracy and context equal space in one controlled sentence"
  validateLeader tables overall recordedLeader
  rule (occurs (decisionJargon tables) overall = false)
    "overall must not expose internal decision jargon"
  let contextLeaders ← recordedContextLeaders tables cells
  let providerIds ← cells.mapM fun cell ↦ requiredText cell "provider_id"
  let contextSentence := ((sentences overall).take 1).flatten
  rule (contextLeaders = [] ∨ ∃ providerId ∈ contextLeaders,
      isNamedIn tables providerId contextSentence = true)
    "overall must name the lowest-context provider"
  rule (isIn "context".toList (tables.casefold contextSentence) = true ∧
      occurs (.one tables.classes.isDigit) contextSentence = true ∧
      ∀ providerId ∈ providerIds.filter (· ∉ contextLeaders),
        isNamedIn tables providerId contextSentence = true)
    "overall must quantify the lowest-context provider against every peer"

local instance lawfulResults : LawfulBEq (List Char) := List.instLawfulBEq

/-- The rules of the results of a provider. -/
def validateResults (insight : ProviderInsight)
    (expected : List (String × List (String × Json × Json))) : Except AnalysisError Unit := do
  let mentionedTypes := reportAnalysisQuestionTypes.filter fun questionType ↦
    isIn questionType.toList insight.insight
  rule ((sentences insight.insight).length = 2 ∧ 1 ≤ mentionedTypes.length ∧
      mentionedTypes.length ≤ 3)
    "each provider insight must use one to three question types in two sentences"
  mentionedTypes.forM fun questionType ↦ do
    let types ← lastOf expected insight.providerId
    let result ← lastOf types questionType
    rule (isIn (resultText tables result) insight.insight = true)
      "provider insight question-type evidence does not match the report"
  let types ← lastOf expected insight.providerId
  rule (∀ fraction ∈ findAll (results tables) insight.insight,
      fraction ∈ types.map fun item ↦ resultText tables item.2)
    "provider insight contains a result outside the current report"

/-- The rules of the text of a provider. The metrics that it names are returned. -/
def validateInsight (insight : ProviderInsight)
    (expected : List (String × List (String × Json × Json)))
    (slowestIndexingProvider : Option String) : Except AnalysisError (List String) := do
  validateResults tables insight expected
  rule (occurs (outsideEvidence tables) insight.insight = false)
    "provider insight must stay on the current report's evidence"
  rule (occurs (unsuppliedContext tables) insight.insight = false)
    "provider insight cannot infer unsupplied retrieval-context contents"
  let otherProviderIds := (expected.map Prod.fst).filter (· ≠ insight.providerId)
  let operational := ((sentences insight.insight).drop 1).flatten
  rule (∃ providerId ∈ otherProviderIds, isNamedIn tables providerId operational = true)
    "provider operational insight must compare another supplied provider"
  let operationalMetrics := mentionedOperationalMetrics tables operational
  rule (operationalMetrics ≠ [])
    "each provider insight must include a non-accuracy metric comparison"
  rule ("indexing_time" ∈ operationalMetrics → slowestIndexingProvider = none ∨
      slowestIndexingProvider = some insight.providerId ∧
        ∀ providerId ∈ otherProviderIds, isNamedIn tables providerId operational = true)
    "indexing-time insight must lead with the largest cross-provider gap"
  pure operationalMetrics

/-- The rules of all texts together. -/
def validateVisibleText (visibleText : List Char) : Except AnalysisError Unit := do
  rule (occurs (retrievalControl tables) visibleText = false)
    "visible analysis must omit retrieval-control configuration"
  rule (occurs (evaluationDesign tables) visibleText = false)
    "visible analysis must trust the validated evaluation and focus on results"
  rule (occurs (costWords tables) visibleText = false)
    "visible analysis must let token differences speak for themselves"
  rule (occurs (spelledNumbers tables) visibleText = false)
    "visible analysis must use compact k, M, or B number suffixes"
  rule (occurs (unspacedSuffix tables) visibleText = false)
    "visible analysis must put a space before k, M, or B number suffixes"
  rule (occurs (shortDurations tables) visibleText = false)
    "visible analysis durations must use seconds"
  rule (∀ number ∈ findAll (numbers tables) visibleText,
      (number.filter tables.classes.isDigit).length ≤ 4)
    "visible analysis numbers must contain at most four digits"

def validateVisibleAnalysis (overall : List Char) (insights : List ProviderInsight)
    (analysisInput : Json) : Except AnalysisError Unit := do
  let cells ← requiredCells analysisInput
  validateOverall tables overall analysisInput cells
  let expected ← questionTypeAccuracyByProvider cells
  let slowestIndexingProvider ← recordedSlowestIndexingProvider tables cells
  let covered ← insights.mapM fun insight ↦
    validateInsight tables insight expected slowestIndexingProvider
  rule (∀ metric ∈ ["context_tokens", "indexing_tokens", "retrieval_latency", "indexing_time"],
      metric ∈ covered.flatten)
    "provider insights must cover all four operational metrics"
  validateVisibleText tables
    (List.intercalate [' '] (overall :: insights.map ProviderInsight.insight))

/-! ### Reading -/

def parseProviderInsight (item : Json) : Except AnalysisError ProviderInsight := do
  rule (item.hasNames ["provider_id", "insight"] = true) "analysis provider insight is invalid"
  match (item.get "provider_id").asNonEmptyText with
  | none => .error (.retryable "analysis provider identity is invalid")
  | some providerId =>
    let insight ← conciseSentence (item.get "insight") s!"{providerId} insight"
      reportAnalysisMaxInsightCharacters
    rule (∃ questionType ∈ reportAnalysisQuestionTypes, isIn questionType.toList insight = true)
      "each provider insight must name a question type"
    rule (occurs (fractionPattern tables.classes 2) insight = true)
      "each provider insight must include correct/total evidence"
    pure ⟨providerId, insight⟩

def parseProviderInsights (value : Json) (providerIds : List String) :
    Except AnalysisError (List ProviderInsight) :=
  match value with
  | .array items =>
    if items.length ≠ providerIds.length then
      .error (.retryable "analysis provider insight inventory is incomplete")
    else do
      let insights ← items.mapM (parseProviderInsight tables)
      rule (insights.map ProviderInsight.providerId = providerIds)
        "analysis provider order or identity is invalid"
      pure insights
  | _ => .error (.retryable "analysis provider insight inventory is incomplete")

mutual

/-- No object of a value has a name twice. -/
def hasUniqueNames : Json → Bool
  | .object members => decide (members.map Prod.fst).Nodup && haveUniqueNames members
  | .array items => allUniqueNames items
  | _ => true

def haveUniqueNames : List (String × Json) → Bool
  | [] => true
  | (_, value) :: members => hasUniqueNames value && haveUniqueNames members

def allUniqueNames : List Json → Bool
  | [] => true
  | item :: items => hasUniqueNames item && allUniqueNames items

end

/-- The value of a text, unless an object in it has a name twice. -/
def strictJson (text : List Char) : Option Json := (JsonText.loads text).filter hasUniqueNames

/-- The two members of an analysis that are shown, read under the rules. -/
def parseVisible (value analysisInput : Json) (cells : List Json) :
    Except AnalysisError (List Char × List ProviderInsight) := do
  let providerIds ← cells.mapM fun cell ↦ requiredText cell "provider_id"
  let overall ← conciseSentence (value.get "overall") "overall" 480
  let insights ← parseProviderInsights tables (value.get "provider_insights") providerIds
  validateVisibleAnalysis tables overall insights analysisInput
  pure (overall, insights)

def parseAnalysisOutput (output : List Char) (analysisInput : Json) :
    Except AnalysisError (List Char × List ProviderInsight) :=
  match strictJson output with
  | none => .error (.retryable "analysis content is not strict JSON")
  | some value => do
    rule (value.hasNames ["overall", "provider_insights"] = true)
      "analysis content has the wrong fields"
    let cells ← requiredCells analysisInput
    parseVisible tables value analysisInput cells

end Oamb.Reporting.AnalysisText
