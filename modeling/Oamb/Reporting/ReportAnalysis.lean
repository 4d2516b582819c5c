import Oamb.Contracts.Identities
import Oamb.Reporting.AnalysisText

/-!
# Generation of a report analysis

The analysis of a report is asked for with at most six requests. A response that breaks a rule is
kept as a receipt and asked for again; one that keeps them is written as a document that is bound to
the report, read back, and stored. A stored document is read under the same rules and used without a
request.
-/

set_option autoImplicit false

namespace Oamb.Reporting.ReportAnalysis

open Foundation Contracts.Identities AnalysisText

/-- The tables of the texts, the digest of bytes, the input of the analysis of a report, the version
of the prompt, and whether the text of a real number is that of one. -/
structure Library where
  tables : Tables
  sha256 : Bytes → String
  analysisInput : Json → Except AnalysisError Json
  promptVersion : String
  realIsOne : String → Bool

structure Settings where
  model : String
  thinkingEffort : String
  baseUrl : String
  endpointFingerprint : String
  apiKey : String
  timeoutSeconds : ℚ

variable (library : Library)

def reportAnalysisMaxAttempts : ℕ := 6

def retryableHttpStatusCodes : List ℤ := [408, 409, 429]

def thinkingEfforts : List String := ["low", "high", "max"]

/-! ### Responses -/

def usageSummary (value : Json) : Json :=
  match (value.get "prompt_tokens").asInteger, (value.get "completion_tokens").asInteger,
      (value.get "total_tokens").asInteger with
  | some promptTokens, some completionTokens, some totalTokens =>
    if promptTokens < 0 ∨ completionTokens < 0 ∨ totalTokens < 0 ∨
        promptTokens + completionTokens ≠ totalTokens then
      .object [("status", .string "unavailable")]
    else .object [("status", .string "measured"), ("prompt_tokens", .integer promptTokens),
      ("completion_tokens", .integer completionTokens), ("total_tokens", .integer totalTokens)]
  | _, _, _ => .object [("status", .string "unavailable")]

/-- The value of some bytes. -/
def strictBytes (content : Bytes) : Option Json := (JsonText.readUtf8 content).bind strictJson

def parseCompletionResponse (content : Bytes) : Except AnalysisError (String × Json) :=
  match strictBytes content with
  | none => .error (.retryable "supplier response is not strict JSON")
  | some value => do
    rule (value.isObject = true) "supplier response root is not an object"
    match value.get "choices" with
    | .array [choice] =>
      rule (choice.isObject = true ∧ (choice.get "finish_reason").isText "stop" = true)
        "supplier response did not finish normally"
      rule ((choice.get "message").isObject = true) "supplier response has no message"
      match (choice.get "message").get "content" with
      | .string content =>
        rule (Whitespace.strip content.toList ≠ []) "supplier response has no visible content"
        pure (content, usageSummary (value.get "usage"))
      | _ => .error (.retryable "supplier response has no visible content")
    | _ => .error (.retryable "supplier response requires exactly one choice")

/-! ### Documents -/

def documentNames : List String :=
  ["schema_name", "schema_version", "analysis_id", "report_id", "report_export_sha256",
    "analysis_input_sha256", "prompt_version", "model", "thinking_effort", "endpoint_fingerprint",
    "attempt_count", "raw_response_sha256", "usage", "overall", "provider_insights"]

def insightObject (insight : ProviderInsight) : Json :=
  .object [("provider_id", .string insight.providerId),
    ("insight", .string (String.ofList insight.insight))]

/-- The identity of the other members of a document. -/
def analysisId (body : List (String × Json)) : String :=
  sha256Identity library.sha256 "oamb-report-analysis-v1" [.object body]

/-- The document of an accepted text. -/
def analysisDocument (settings : Settings) (reportId : String) (report analysisInput : Json)
    (attempt : ℕ) (content : Bytes) (usage : Json) (overall : List Char)
    (insights : List ProviderInsight) : Json :=
  let body : List (String × Json) :=
    [("schema_name", .string "report_analysis"),
      ("schema_version", .integer 1),
      ("report_id", .string reportId),
      ("report_export_sha256", .string (library.sha256 (canonicalJsonBytes report))),
      ("analysis_input_sha256", .string (library.sha256 (canonicalJsonBytes analysisInput))),
      ("prompt_version", .string library.promptVersion),
      ("model", .string settings.model),
      ("thinking_effort", .string settings.thinkingEffort),
      ("endpoint_fingerprint", .string settings.endpointFingerprint),
      ("attempt_count", .integer attempt),
      ("raw_response_sha256", .string (library.sha256 content)),
      ("usage", usage),
      ("overall", .string (String.ofList overall)),
      ("provider_insights", .array (insights.map insightObject))]
  .object (body ++ [("analysis_id", .string (analysisId library body))])

/-- The value is the number one. -/
def isOne : Json → Bool
  | .integer value => value = 1
  | .bool value => value
  | .real _ text => library.realIsOne text
  | _ => false

/-- The value is a count of attempts. -/
def isAttemptCount : Json → Bool
  | .integer value => 1 ≤ value ∧ value ≤ reportAnalysisMaxAttempts
  | .bool value => value
  | _ => false

/-- A check of a document. -/
def bound (holds : Prop) [Decidable holds] (message : String) : Except AnalysisError Unit :=
  if holds then .ok () else .error (.value message)

def parseReportAnalysis (payload : Bytes) (report : Json) : Except AnalysisError Json :=
  match strictBytes payload with
  | none => .error (.value "report analysis is not strict JSON")
  | some (.object members) => do
    let value := Json.object members
    bound (value.hasNames documentNames = true)
      "report analysis fields do not match the closed schema"
    bound ((value.get "schema_name").isText "report_analysis" = true ∧
        isOne library (value.get "schema_version") = true)
      "report analysis schema is unsupported"
    let reportId ← requiredText report "report_id"
    bound ((value.get "report_id").isText reportId = true ∧
        (value.get "report_export_sha256").isText
          (library.sha256 (canonicalJsonBytes report)) = true)
      "report analysis does not bind the exact report export"
    let analysisInput ← library.analysisInput report
    bound ((value.get "analysis_input_sha256").isText
        (library.sha256 (canonicalJsonBytes analysisInput)) = true)
      "report analysis compact input binding drifted"
    bound ((value.get "prompt_version").isText library.promptVersion = true)
      "report analysis prompt version drifted"
    bound (∃ effort ∈ thinkingEfforts, (value.get "thinking_effort").isText effort = true)
      "report analysis thinking effort is invalid"
    bound (isAttemptCount (value.get "attempt_count") = true)
      "report analysis attempt count is invalid"
    ["model", "endpoint_fingerprint", "raw_response_sha256"].forM fun name ↦
      bound ((value.get name).asNonEmptyText ≠ none) s!"report analysis {name} is invalid"
    let cells ← requiredCells report
    let visible ← parseVisible library.tables value analysisInput cells
    bound ((value.get "analysis_id").isText
        (analysisId library (members.filter fun member ↦ member.1 ≠ "analysis_id")) = true)
      "report analysis identity does not close"
    pure (.object (members.map fun member ↦
      if member.1 = "overall" then ("overall", .string (String.ofList visible.1)) else member))
  | some _ => .error (.value "report analysis root must be an object")

/-! ### Generation -/

/-- What stands at the path of an analysis. -/
inductive CacheEntry
  | absent
  | file (payload : Bytes)
  | other
  deriving DecidableEq

/-- The answer to a request. -/
inductive Reply
  | failed
  | response (status : ℤ) (content : Bytes)

/-- How an analysis is written. A write that fails may have replaced the file. -/
inductive Writing
  | written
  | failed (replaced : Bool)

/-- What the world does: the answers by attempt, whether their receipts are stored, and how the
analysis is written. -/
structure World where
  reply : ℕ → Reply
  stores : ℕ → Bool
  writing : Writing

inductive Outcome
  | built (cacheHit : Bool)
  | nothing
  | failed
  deriving DecidableEq

structure Generation where
  posts : ℕ
  receipts : List Bytes
  cache : CacheEntry
  outcome : Outcome

/-- The document of a text that keeps the rules, unless another attempt is made. -/
def acceptResponse (settings : Settings) (report analysisInput : Json) (attempt : ℕ)
    (content : Bytes) : Except AnalysisError Bytes := do
  let completion ← parseCompletionResponse content
  let visible ← parseAnalysisOutput library.tables completion.1.toList analysisInput
  match requiredText report "report_id" with
  | .error failure => .error failure
  | .ok reportId =>
    let payload := canonicalJsonBytes (analysisDocument library settings reportId report
      analysisInput attempt content completion.2 visible.1 visible.2)
    match parseReportAnalysis library payload report with
    -- An error behind the rules of the text ends the generation.
    | .error (.retryable message) => .error (.value message)
    | .error failure => .error failure
    | .ok _ => .ok payload

/-- Write the analysis. -/
def publish (writing : Writing) (payload : Bytes) (run : Generation) : Generation :=
  match writing with
  | .written => { run with cache := .file payload, outcome := .built false }
  | .failed true => { run with cache := .file payload, outcome := .failed }
  | .failed false => { run with outcome := .failed }

/-- The attempts that are left. -/
def attempts (settings : Settings) (report analysisInput : Json) (world : World) :
    ℕ → Generation → Generation
  | 0, run => { run with outcome := .failed }
  | remaining + 1, run =>
    let attempt := reportAnalysisMaxAttempts - remaining
    let posted := { run with posts := run.posts + 1 }
    let again (run : Generation) : Generation :=
      if attempt = reportAnalysisMaxAttempts then { run with outcome := .nothing }
      else attempts settings report analysisInput world remaining run
    match world.reply attempt with
    | .failed => again posted
    | .response status content =>
      if world.stores attempt then
        let stored := { posted with receipts := posted.receipts ++ [content] }
        if status < 200 ∨ 300 ≤ status then
          if status ∈ retryableHttpStatusCodes ∨ 500 ≤ status then again stored
          else { stored with outcome := .nothing }
        else
          match acceptResponse library settings report analysisInput attempt content with
          | .error (.retryable _) => again stored
          | .error _ => { stored with outcome := .failed }
          | .ok payload => publish world.writing payload stored
      else { posted with outcome := .failed }

def generateReportAnalysis (settings : Settings) (report : Json) (world : World)
    (cache : CacheEntry) : Generation :=
  let unanswered (outcome : Outcome) : Generation := ⟨0, [], cache, outcome⟩
  if settings.model = "" ∨ settings.thinkingEffort ∉ thinkingEfforts then unanswered .failed
  else if settings.baseUrl = "" ∨ settings.apiKey = "" then unanswered .failed
  else if settings.timeoutSeconds ≤ 0 then unanswered .failed
  else
    match library.analysisInput report with
    | .error _ => unanswered .failed
    | .ok analysisInput =>
      match cache with
      | .file payload =>
        match parseReportAnalysis library payload report with
        | .error _ => unanswered .failed
        | .ok _ => unanswered (.built true)
      | .other => unanswered .failed
      | .absent =>
        attempts library settings report analysisInput world reportAnalysisMaxAttempts
          (unanswered .failed)

/-- The bytes that the generator hands to the report. -/
def published (run : Generation) : Option Bytes :=
  match run.outcome, run.cache with
  | .built _, .file payload => some payload
  | _, _ => none

end Oamb.Reporting.ReportAnalysis
