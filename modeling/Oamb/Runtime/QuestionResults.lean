import Oamb.Artifacts.WriteSequences

/-!
# Saved question results

The results of a provider are saved in one file, a JSON object with a member for every question. To
add a result, the file is read and validated against the manifest, the result is put in its place,
and the file is replaced. `Adds` is such an addition: it is refused, it ends in the middle of the
replacement, or it returns what it reads back.

The encoding and the decoding of the file are those of the JSON library and of the validator of its
records; a codec is a pair of such functions.
-/

set_option autoImplicit false

namespace Oamb.Runtime.QuestionResults

open Foundation
open Artifacts.AtomicPublication Artifacts.WriteSequences

/-- The result of a question, with its other members. -/
structure QuestionResult (δ : Type) where
  questionId : String
  named : questionId ≠ ""
  details : δ

instance decidableEqQuestionResult {δ : Type} [DecidableEq δ] : DecidableEq (QuestionResult δ) :=
  fun first second ↦
    decidable_of_iff (first.questionId = second.questionId ∧ first.details = second.details) <| by
      cases first
      cases second
      simp

/-- An error of the result file. -/
abbrev QuestionResultsError := String

/-- The members of the object that is saved, in their order. -/
abbrev Results (δ : Type) := List (String × QuestionResult δ)

/-- The encoding and the decoding of a result file. Texts that are not valid Unicode are not encoded;
members are sorted when they are written, and they are distinct when they are read. -/
structure ResultCodec (δ : Type) where
  encode : Results δ → Option Bytes
  decode : Bytes → Option (Results δ)
  distinct : ∀ content results, decode content = some results → (results.map Prod.fst).Nodup
  decode_encode : ∀ results content, (results.map Prod.fst).Nodup → encode results = some content →
    ∃ saved, decode content = some saved ∧ saved.Perm results

variable {δ : Type}

/-- The check that a member belongs to the manifest and is named like its value. -/
def checkMember (orderedQuestionIds : List String) (member : String × QuestionResult δ) :
    Option QuestionResultsError :=
  if member.1 ∉ orderedQuestionIds then
    some s!"question result is outside the stored manifest: {member.1}"
  else if member.2.questionId ≠ member.1 then
    some s!"question result key differs from its value: {member.1}"
  else none

/-- The members in the order of the manifest. -/
def inManifestOrder (orderedQuestionIds : List String) (results : Results δ) : Results δ :=
  orderedQuestionIds.filterMap fun questionId ↦
    ((Dictionary.ofList results).lookup questionId).map fun result ↦ (questionId, result)

/-- Load the results of a provider against the manifest. -/
def loadQuestionResults (codec : ResultCodec δ) (fs : FileSystem) (path : Path)
    (orderedQuestionIds : List String) : Except QuestionResultsError (Results δ) :=
  match fs.node path with
  | some (.file content) =>
    match codec.decode content with
    | none => .error s!"question results cannot parse or validate: {text path}"
    | some parsed =>
      if ¬ orderedQuestionIds.Nodup then .error "stored manifest question IDs must be unique"
      else
        match parsed.findSome? (checkMember orderedQuestionIds) with
        | some error => .error error
        | none => .ok (inManifestOrder orderedQuestionIds parsed)
  | _ => .error s!"question results cannot parse or validate: {text path}"

/-- The questions of the manifest that are not saved. -/
def remainingQuestionIds (results : Results δ) (orderedQuestionIds : List String) : List String :=
  orderedQuestionIds.filter fun questionId ↦ questionId ∉ results.map Prod.fst

/-- The members with a further result, in the order of the manifest. -/
def updatedResults (current : Results δ) (result : QuestionResult δ)
    (orderedQuestionIds : List String) : Except QuestionResultsError (Results δ) :=
  if result.questionId ∈ current.map Prod.fst then
    .error s!"question result already exists: {result.questionId}"
  else
    let updated := current ++ [(result.questionId, result)]
    if ∃ member ∈ updated, member.1 ∉ orderedQuestionIds then
      .error s!"question result is outside the stored manifest: {result.questionId}"
    else
      .ok (updated.insertionSort fun first second ↦
        orderedQuestionIds.idxOf first.1 ≤ orderedQuestionIds.idxOf second.1)

/-- The content of the file with a further result. -/
def addedContent (codec : ResultCodec δ) (fs : FileSystem) (path : Path) (result : QuestionResult δ)
    (orderedQuestionIds : List String) : Except QuestionResultsError Bytes :=
  match loadQuestionResults codec fs path orderedQuestionIds with
  | .error error => .error error
  | .ok current =>
    match updatedResults current result orderedQuestionIds with
    | .error error => .error error
    | .ok ordered =>
      match codec.encode ordered with
      | none => .error "surrogates not allowed"
      | some content => .ok content

/-- The file of the results of a provider. -/
structure ResultFile where
  directory : Path
  name : String

/-- The path of a result file. -/
def ResultFile.path (file : ResultFile) : Path := file.directory ++ [file.name]

/-- The replacement of a result file. -/
def ResultFile.replacement (file : ResultFile) (content : Bytes) : Call where
  operation := .replace
  root := file.directory
  directory := []
  name := file.name
  content := content

/-- How an addition ends. -/
inductive Outcome (δ : Type)
  | refused (error : QuestionResultsError)
  /-- The replacement did not return: the file was replaced before, or not. -/
  | stopped (replaced : Bool)
  | returned (results : Results δ)

/-- The result is in the file afterwards. -/
def Outcome.accepted : Outcome δ → Bool
  | .refused _ => false
  | .stopped replaced => replaced
  | .returned _ => true

/-- An addition of a result: its outcome, and the file system afterwards. -/
inductive Adds (codec : ResultCodec δ) (sha256 : Bytes → String) (file : ResultFile)
    (orderedQuestionIds : List String) (fs : FileSystem) (result : QuestionResult δ) :
    Outcome δ → FileSystem → Prop
  | refused {error : QuestionResultsError}
    (hcontent : addedContent codec fs file.path result orderedQuestionIds = .error error) :
    Adds codec sha256 file orderedQuestionIds fs result (.refused error) fs
  | stopped {content : Bytes} {next : FileSystem} {phase : Phase}
    (hcontent : addedContent codec fs file.path result orderedQuestionIds = .ok content)
    (hreaches : Reaches sha256 (file.replacement content) fs next phase) :
    Adds codec sha256 file orderedQuestionIds fs result (.stopped (Phase.replaced phase)) next
  | unread {content : Bytes} {next : FileSystem} {published : AtomicWriteResult}
    {error : QuestionResultsError}
    (hcontent : addedContent codec fs file.path result orderedQuestionIds = .ok content)
    (hreaches : Reaches sha256 (file.replacement content) fs next (.returned published))
    (hload : loadQuestionResults codec next file.path orderedQuestionIds = .error error) :
    Adds codec sha256 file orderedQuestionIds fs result (.refused error) next
  | returned {content : Bytes} {next : FileSystem} {published : AtomicWriteResult}
    {results : Results δ}
    (hcontent : addedContent codec fs file.path result orderedQuestionIds = .ok content)
    (hreaches : Reaches sha256 (file.replacement content) fs next (.returned published))
    (hload : loadQuestionResults codec next file.path orderedQuestionIds = .ok results) :
    Adds codec sha256 file orderedQuestionIds fs result (.returned results) next

/-- An addition, by its result and its outcome. -/
structure Addition (δ : Type) where
  result : QuestionResult δ
  outcome : Outcome δ

/-- One addition after another. -/
def Step (codec : ResultCodec δ) (sha256 : Bytes → String) (file : ResultFile)
    (orderedQuestionIds : List String) (fs : FileSystem) (addition : Addition δ)
    (next : FileSystem) : Prop :=
  Adds codec sha256 file orderedQuestionIds fs addition.result addition.outcome next

end Oamb.Runtime.QuestionResults
