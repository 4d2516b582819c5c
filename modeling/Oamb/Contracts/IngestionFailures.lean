import Oamb.Foundation.JsonValues
import Oamb.Foundation.PointNumerals
import Oamb.Foundation.SeparatedEntries
import Oamb.Foundation.Whitespace

/-!
# Failures that settle an ingestion

The response to an ingestion that failed has a detail. It settles the ingestion when it says that
the embeddings failed, or when it counts the chunks that failed and lists the first five of them.
-/

set_option autoImplicit false

namespace Oamb.Contracts.IngestionFailures

open Foundation Foundation.PointNumerals Foundation.SeparatedEntries

inductive SettledFailureKind
  | supplierConnection
  | supplierRateLimit
  | supplierInvalidJsonOutput
  | providerIngestionError
  deriving DecidableEq

def hindsightFailureSummaryLimit : ℕ := 5

/-- Texts with more digits are no integers. -/
def intMaxStrDigits : ℕ := 4300

def int (digits : List Char) : Option ℕ :=
  if digits.length ≤ intMaxStrDigits then some (number digits) else none

/-! ### Patterns -/

/-- `(0|[1-9][0-9]*)`, and the text behind it. -/
def readIndex (text : List Char) : Option ({digits : List Char // Whole digits} × List Char) :=
  let digits := text.takeWhile Char.isDigit
  if hwhole : Whole digits then some (⟨digits, hwhole⟩, text.dropWhile Char.isDigit) else none

/-- `([1-9][0-9]*)`, and the text behind it. -/
def readPositive (text : List Char) : Option (List Char × List Char) :=
  let digits := text.takeWhile Char.isDigit
  if digits ≠ [] ∧ digits.head? ≠ some '0' then some (digits, text.dropWhile Char.isDigit) else none

/-- `(.+)` up to the end. -/
def isLine (text : List Char) : Bool := decide (text ≠ [] ∧ '\n' ∉ text)

/-- `chunk (0|[1-9][0-9]*): `, and the text behind it. -/
def readChunk (text : List Char) : Option ({digits : List Char // Whole digits} × List Char) := do
  let text ← text.dropPrefix? "chunk ".toList
  let (digits, text) ← readIndex text
  let text ← text.dropPrefix? ": ".toList
  pure (digits, text)

def writeChunk (digits : {digits : List Char // Whole digits}) : List Char :=
  "chunk ".toList ++ digits.1 ++ ": ".toList

/-- The counts and the listed failures of an aggregate. -/
def hindsightAggregate (detail : List Char) : Option (List Char × List Char × List Char) := do
  let text ← detail.dropPrefix? "Fact extraction failed: ".toList
  let (failed, text) ← readPositive text
  let text ← text.dropPrefix? "/".toList
  let (total, text) ← readPositive text
  let text ← text.dropPrefix? " chunks failed. First failures: ".toList
  if isLine text = true then pure (failed, total, text) else none

/-- `(429|5[0-9]{2})`. -/
def isFailureStatus (status : List Char) : Bool :=
  decide (status = ['4', '2', '9']) ||
    (decide (status.head? = some '5') && decide (status.length = 3) && status.all Char.isDigit)

/-- The status in a detail that says that the embeddings failed. -/
def hindsightEmbeddingHttpFailure (detail : List Char) : Option (List Char) := do
  let text ← detail.dropPrefix? "Failed to generate batch embeddings: Error code: ".toList
  let status := text.take 3
  let text ← (text.drop 3).dropPrefix? " - ".toList
  if isFailureStatus status = true ∧ isLine text = true then pure status else none

def hindsightEmbeddingConnectionDetail : String :=
  "Failed to generate batch embeddings: Connection error."

def hindsightEmbeddingTimeoutDetail : String :=
  "Failed to generate batch embeddings: Request timed out."

/-- The text of a failure is that of a connection error. -/
def isConnectionFailure (text : List Char) : Bool :=
  decide (text = "APIConnectionError: Connection error.".toList)

/-- The text of a failure is that of a control character in a JSON text. -/
def isInvalidJsonFailure (text : List Char) : Bool :=
  let read : Option Unit := do
    let text ← text.dropPrefix? "JSONDecodeError: Invalid control character at: line ".toList
    let (_, text) ← readPositive text
    let text ← text.dropPrefix? " column ".toList
    let (_, text) ← readPositive text
    let text ← text.dropPrefix? " (char ".toList
    let (_, text) ← readIndex text
    if text = [')'] then pure () else none
  read.isSome

/-! ### Listed failures -/

theorem dropPrefix_eq_some {text start rest : List Char} :
    text.dropPrefix? start = some rest ↔ text = start ++ rest := by
  rw [List.dropPrefix?_eq_some_iff]
  constructor
  · rintro ⟨before, rfl, hbefore⟩
    rw [eq_of_beq hbefore]
  · rintro rfl
    exact ⟨start, rfl, beq_self_eq_true start⟩

theorem ends_dropWhile (text : List Char) : Numerals.Ends (text.dropWhile Char.isDigit) := by
  intro char hchar
  have hnot := List.head?_dropWhile_not Char.isDigit text
  rw [Option.mem_def.mp hchar] at hnot
  exact hnot

theorem readIndex_eq_some {text rest : List Char} {digits : {digits : List Char // Whole digits}} :
    readIndex text = some (digits, rest) ↔ text = digits.1 ++ rest ∧ Numerals.Ends rest := by
  unfold readIndex
  dsimp only
  constructor
  · intro hread
    split at hread
    · cases hread
      exact ⟨List.takeWhile_append_dropWhile.symm, ends_dropWhile text⟩
    · cases hread
  · rintro ⟨rfl, hrest⟩
    have htake := Whitespace.takeWhile_run digits.2.digits hrest
    have hdrop := Whitespace.dropWhile_run digits.2.digits hrest
    have hwhole : Whole ((digits.1 ++ rest).takeWhile Char.isDigit) := by
      rw [htake]
      exact digits.2
    rw [dif_pos hwhole, hdrop]
    exact congrArg (fun read ↦ some (read, rest)) (Subtype.ext htake)

theorem readChunk_eq_some {text rest : List Char} {digits : {digits : List Char // Whole digits}} :
    readChunk text = some (digits, rest) ↔ text = writeChunk digits ++ rest := by
  unfold readChunk writeChunk
  simp only [Option.bind_eq_bind, Option.bind_eq_some_iff, dropPrefix_eq_some, Option.pure_def]
  constructor
  · rintro ⟨behind, rfl, ⟨read, last⟩, hread, hcolon⟩
    obtain ⟨value, rfl, hsame⟩ := hcolon
    cases hsame
    rw [(readIndex_eq_some.mp hread).1]
    simp only [List.append_assoc]
  · rintro rfl
    refine ⟨digits.1 ++ (": ".toList ++ rest), by simp only [List.append_assoc],
      (digits, ": ".toList ++ rest), readIndex_eq_some.mpr ⟨rfl, ?_⟩, rest, rfl, rfl⟩
    rintro char ⟨⟩
    rfl

theorem not_mem_writeChunk (digits : {digits : List Char // Whole digits}) :
    ',' ∉ writeChunk digits := by
  unfold writeChunk
  rw [List.mem_append, List.mem_append, not_or, not_or]
  refine ⟨⟨by decide, fun hmem ↦ ?_⟩, by decide⟩
  exact absurd (digits.2.digits ',' hmem) (by decide)

/-- `chunk (0|[1-9][0-9]*): (.+?)(?=, chunk (?:0|[1-9][0-9]*): |$)`. -/
def hindsightFailureEntry : Grammar {digits : List Char // Whole digits} Char where
  readKey := readChunk
  writeKey := writeChunk
  start := 'c'
  mark := ','
  tail := [' ']
  readKey_write _ _ := readChunk_eq_some.mpr rfl
  eq_of_readKey _ _ _ := readChunk_eq_some.mp
  head_writeKey _ := rfl
  mark_writeKey := not_mem_writeChunk
  mark_tail := by decide
  start_tail := by decide

/-- The kind of a failure with a text. -/
def memberKind (text : List Char) : SettledFailureKind :=
  if isConnectionFailure text = true then .supplierConnection
  else if isInvalidJsonFailure text = true then .supplierInvalidJsonOutput
  else if "JSONDecodeError:".toList <+: text then .supplierInvalidJsonOutput
  else .providerIngestionError

/-- Take up one more failure, with the indices so far and the kind they have in common. -/
def addFailure (total : ℕ) (before : List ℕ × Option SettledFailureKind)
    (entry : Found {digits : List Char // Whole digits} Char) :
    Option (List ℕ × Option SettledFailureKind) := do
  let index ← int entry.key.1
  if total ≤ index ∨ index ∈ before.1 then none
  else
    pure (before.1 ++ [index],
      some (if before.2 = none ∨ before.2 = some (memberKind entry.text) then memberKind entry.text
        else .providerIngestionError))

/-- The kind that listed failures have in common, when their indices are distinct and below the
total. -/
def listedFailure (total : ℕ) (failures : List (Found {digits : List Char // Whole digits} Char)) :
    Option SettledFailureKind :=
  (failures.foldlM (addFailure total) ([], none)).bind Prod.snd

/-- The kind of an aggregate that lists as many failures as it should. -/
def aggregateFailure (detail : List Char) : Option SettledFailureKind := do
  let (failedDigits, totalDigits, listed) ← hindsightAggregate detail
  let failed ← int failedDigits
  let total ← int totalDigits
  let found := hindsightFailureEntry.findEntries listed.length [] listed
  if failed ≤ total ∧ (∀ entry ∈ found.1, entry.gap = [] ∨ entry.gap = [',', ' ']) ∧
      found.1 ≠ [] ∧ found.2 = [] ∧ found.1.length = min failed hindsightFailureSummaryLimit then
    listedFailure total found.1
  else none

def hindsightDetailFailure (detail : String) : Option SettledFailureKind :=
  if detail = hindsightEmbeddingConnectionDetail ∨ detail = hindsightEmbeddingTimeoutDetail then
    some .supplierConnection
  else
    match hindsightEmbeddingHttpFailure detail.toList with
    | some status =>
      some (if status = ['4', '2', '9'] then .supplierRateLimit else .supplierConnection)
    | none => aggregateFailure detail.toList

/-- A document settles an ingestion with its detail when it has nothing else. -/
def hindsightExtractionFailure (value : List (String × Json)) : Option SettledFailureKind :=
  if ∀ member ∈ value, member.1 = "detail" then
    match Json.lookup value "detail" with
    | some (.string detail) => hindsightDetailFailure detail
    | _ => none
  else none

end Oamb.Contracts.IngestionFailures
