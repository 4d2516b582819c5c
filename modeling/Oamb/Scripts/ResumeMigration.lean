import Oamb.Artifacts.ArtifactPaths
import Oamb.Artifacts.AtomicPublication
import Oamb.Foundation.FileCalls
import Oamb.Foundation.JsonText

/-!
# Migration of resume data

`migrate_resume_data` moves the results of a run into another checkout. It reads and checks the run
and the checkout, writes the plan, the results and a receipt to a staging directory, renames the
directory to the one of the new run, and names the run in a selector file. It is a program on files,
which may end at any call of the file system. What other modules do with the bytes that they are
given is a parameter (`Library`).
-/

set_option autoImplicit false

namespace Oamb.Scripts.ResumeMigration

open Foundation Foundation.Dialogue Foundation.FileCalls Artifacts Artifacts.AtomicPublication

/-! ### Inputs -/

/-- What the migration takes from the plan that a configuration resolves to. -/
structure ResolvedPlan where
  bytes : Bytes
  resolvedPlanHash : String
  datasetSourceSha256 : String
  datasetWorkloadId : String
  datasetCaseManifestHash : String
  /-- The cell of each provider. -/
  cellByProvider : List (String × String)
  deriving DecidableEq

/-- What the migration takes from the case manifest of a dataset. -/
structure CaseManifest where
  manifestHash : String
  rawQuestionIds : List String

/-- What the migration raises: an error of its own, or one of the system or of a function that it
calls. -/
inductive MigrationError
  | valueError (message : String)
  | fileExists (message : String)
  | raised (message : String)
  deriving DecidableEq

/-- The functions of other modules that the migration calls. -/
structure Library where
  sha256 : Bytes → String
  canonicalSha256 : Json → String
  canonicalJsonBytes : Json → Bytes
  /-- The document of some bytes, with the last member of each name. -/
  loadJson : Bytes → Option Json
  equal : Json → Json → Bool
  /-- Load the configuration of a file, and build the plan that it resolves to. -/
  resolvePlan : Bytes → List (String × String) → Except String ResolvedPlan
  buildCaseManifest : Bytes → Except String CaseManifest
  /-- The questions of the results of a file, in the order of the manifest. -/
  loadQuestionResults : Bytes → List String → Except String (List String)
  /-- Load the environment of a repository, and validate the receipt of its services. -/
  checkReadiness : Path → ResolvedPlan → Reading String Unit

/-- The arguments of a migration, and the process that runs it. The paths are resolved. -/
structure Request where
  sourceRepository : Path
  targetRepository : Path
  benchmarkConfig : Path
  datasetSource : Path
  targetLabel : String
  modelEnvironment : List (String × String)
  processId : ℕ

def providers : List String := ["hindsight", "mem0", "openviking"]

/-- The name of the result file of a provider. -/
def resultName (provider : String) : String := s!"{provider}.json"

/-- The start of the name of a temporary selector. -/
def pointerStart : String := ".full-test-current.migration-"

/-- The name of the temporary selector of a process. -/
def pointerName (processId : ℕ) : String := pointerStart ++ toString processId

namespace Request

variable (request : Request)

def targetOutputs : Path := request.targetRepository ++ ["outputs"]
def targetTmp : Path := request.targetOutputs ++ ["tmp"]
def fullTest : Path := request.targetOutputs ++ ["full-test"]
def targetFullRoot : Path := request.fullTest ++ [request.targetLabel]
def targetStatePath : Path := request.targetTmp ++ ["quick-start-current.json"]
def selector : Path := request.targetTmp ++ ["full-test-current"]

/-- The temporary file of the selector. -/
def pointer : Path := request.targetTmp ++ [pointerName request.processId]

end Request

/-! ### Reading files -/

section Reading

variable (library : Library)

/-- A reading of the migration. -/
abbrev MigrationReading (α : Type) : Type := Reading MigrationError α

/-- Come to an error in some case. -/
def refuseIf (refused : Prop) [Decidable refused] (error : MigrationError) :
    MigrationReading Unit :=
  if refused then fail error else pure ()

/-- A value that has to be there. -/
def required {α : Type} (value : Option α) (error : MigrationError) : MigrationReading α :=
  match value with
  | some value => pure value
  | none => fail error

def readRegular (path : Path) : MigrationReading Bytes :=
  .ask path fun
    | some (.file content) => pure content
    | _ => fail (.valueError s!"required migration input is not a regular file: {text path}")

def loadJsonObject (path : Path) : MigrationReading (Bytes × Json) := do
  let content ← readRegular path
  let document ← required (library.loadJson content)
    (.valueError s!"migration input is not valid JSON: {text path}")
  refuseIf (!document.isObject) (.valueError s!"migration input is not a JSON object: {text path}")
  pure (content, document)

def loadCanonicalObject (path : Path) : MigrationReading (Bytes × Json) := do
  let content ← readRegular path
  let document ← required (library.loadJson content)
    (.valueError s!"migration input is not valid JSON: {text path}")
  refuseIf (!document.isObject || library.canonicalJsonBytes document ≠ content)
    (.valueError s!"migration input is not a canonical JSON object: {text path}")
  pure (content, document)

/-- The path that components lead to from a directory. -/
def resolvedFrom : Path → List String → Path
  | base, [] => base
  | base, name :: names =>
    if name = "" ∨ name = "." then resolvedFrom base names
    else if name = ".." then resolvedFrom base.dropLast names
    else resolvedFrom (base ++ [name]) names

def resolveInside (root : Path) (selected : Json) (label : String) : Except MigrationError Path :=
  match selected.asText with
  | none => .error (.raised "expected str, bytes or os.PathLike object")
  | some value =>
    let base := if value.toList.head? = some '/' then [] else root
    let resolved := resolvedFrom base (ArtifactPaths.components value)
    if root <+: resolved then .ok resolved
    else .error (.valueError s!"{label} is outside the selected repository")

/-- The path that a member of a document names, which is the root when there is none. -/
def resolveMember (root : Path) (document : Json) (name label : String) :
    Except MigrationError Path :=
  match document with
  | .object members => resolveInside root ((Json.lookup members name).getD (.string "")) label
  | _ => .error (.raised "the document is no dictionary")

def isLabelCharacter (char : Char) : Bool := char.isAlphanum || char ∈ ['.', '_', '-']

def validateLabel (label : String) : Except MigrationError Unit :=
  if label = "" ∨ label ∈ [".", ".."] ∨ ¬ label.toList.all isLabelCharacter then
    .error (.valueError "target migration label is invalid")
  else .ok ()

/-- The label in a selector file. -/
def selectorLabel (content : Bytes) : Except MigrationError String :=
  match JsonText.readUtf8 content with
  | none => .error (.raised "the selector is not valid UTF-8")
  | some chars =>
    .ok (String.ofList (if chars.getLast? = some '\n' then chars.dropLast else chars))

end Reading

/-! ### The legacy plan -/

section Plans

variable (library : Library)

/-- A document without members of some names. -/
def withoutNames (names : List String) (members : List (String × Json)) : Json :=
  .object (members.filter fun member ↦ member.1 ∉ names)

/-- A dictionary of documents with another value for a key. -/
def setDocument (documents : List (Json × Json)) (key value : Json) : List (Json × Json) :=
  if documents.any fun entry ↦ library.equal entry.1 key then
    documents.map fun entry ↦ if library.equal entry.1 key then (entry.1, value) else entry
  else documents ++ [(key, value)]

/-- The roles of a plan by their identities. -/
def rolesById : List (Json × Json) → List Json → Except MigrationError (List (Json × Json))
  | roles, [] => .ok roles
  | roles, .object members :: items =>
    let roleId := (Json.object members).get "role_id"
    if roleId.isObject || roleId.isArray then .error (.raised "unhashable role_id")
    else rolesById (setDocument library roles roleId (.object members)) items
  | roles, _ :: items => rolesById roles items

/-- The roles of the two plans are the same but for what may differ. -/
def compareRoles (current : List (Json × Json)) : List (Json × Json) → Except MigrationError Unit
  | [] => .ok ()
  | (roleId, .object legacyRole) :: roles =>
    match (current.find? fun entry ↦ library.equal entry.1 roleId).map Prod.snd with
    | some (.object currentRole) =>
      let ignored := "binding_hash" ::
        if roleId.isText "embedding" then ["credential_variable", "recipient"] else []
      if library.equal (withoutNames ignored legacyRole) (withoutNames ignored currentRole) then
        compareRoles current roles
      else .error (.valueError "legacy and current model role differ")
    | _ => .error (.raised "KeyError")
  | _ :: _ => .error (.raised "the role is no dictionary")

/-- The cells of the two plans are the same but for what may differ. -/
def compareCells : List Json → List Json → Except MigrationError Unit
  | [], _ | _, [] => .ok ()
  | .object legacyCell :: legacyCells, .object currentCell :: currentCells =>
    let ignored := ["cell_spec_hash", "model_role_binding_hashes"]
    if library.equal (withoutNames ignored legacyCell) (withoutNames ignored currentCell) then
      compareCells legacyCells currentCells
    else .error (.valueError "legacy and current resolved cell identities differ")
  | _ :: _, _ :: _ => .error (.valueError "resolved cell entry is invalid")

def validateLegacyPlan (legacyPlan currentPlan : Json) : Except MigrationError Unit := do
  if !(legacyPlan.get "schema_name").isText "resolved_plan" ||
      !library.equal (legacyPlan.get "schema_version") (.integer 1) then
    .error (.valueError "legacy resolved plan schema is invalid")
  let legacyMembers := match legacyPlan with
    | .object members => members
    | _ => []
  let legacyPayload := withoutNames ["resolved_plan_hash"] legacyMembers
  let legacyHash := library.canonicalSha256
    (.array [.string "oamb-resolved-plan-initial-v1", legacyPayload])
  if !(legacyPlan.get "resolved_plan_hash").isText legacyHash then
    .error (.valueError "legacy resolved plan hash does not match its content")
  if "embedding_endpoint" ∈ legacyPayload.names then
    .error (.valueError "source resolved plan is not the legacy managed-local format")
  for field in ["comparison_id", "dataset", "retrieval", "execution", "decision"] do
    if !library.equal (legacyPlan.get field) (currentPlan.get field) then
      .error (.valueError s!"legacy and current resolved plans differ at {field}")
  match legacyPlan.get "model_roles", currentPlan.get "model_roles" with
  | .array legacyRoles, .array currentRoles =>
    let legacyById ← rolesById library [] legacyRoles
    let currentById ← rolesById library [] currentRoles
    if !((legacyById.all fun role ↦ currentById.any fun other ↦ library.equal other.1 role.1) &&
        currentById.all fun role ↦ legacyById.any fun other ↦ library.equal other.1 role.1) then
      .error (.valueError "legacy and current model role inventories differ")
    compareRoles library currentById legacyById
  | _, _ => .error (.valueError "resolved model roles are invalid")
  match legacyPlan.get "cells", currentPlan.get "cells" with
  | .array legacyCells, .array currentCells =>
    if legacyCells.length ≠ currentCells.length then
      .error (.valueError "legacy and current cell inventories differ")
    compareCells library legacyCells currentCells
  | _, _ => .error (.valueError "resolved cells are invalid")

end Plans

/-! ### Progress -/

def progressKeys : List String :=
  ["schema_name", "schema_version", "resolved_plan_hash", "cell_id", "provider_id", "workload_id",
    "case_manifest_hash", "ordered_question_ids", "results"]

def progressResultSchemaNames : List (String × String) :=
  [("full_progress_entry", "question_result"), ("progress_answer", "result_answer"),
    ("progress_attempt_counts", "result_attempt_counts"),
    ("progress_evaluation", "result_evaluation"), ("progress_ingestion", "result_ingestion"),
    ("progress_measurement", "result_measurement"), ("progress_retrieval", "result_retrieval"),
    ("progress_text", "result_text")]

/-- A document with the new name of its schema. -/
def renameSchema (members : List (String × Json)) : Json :=
  match ((Json.object members).get "schema_name").asText.bind
      fun name ↦ progressResultSchemaNames.lookup name with
  | some name =>
    .object (members.map fun member ↦
      if member.1 = "schema_name" then (member.1, .string name) else member)
  | none => .object members

mutual

def normalizeProgressResult : Json → Json
  | .object members => renameSchema (normalizeProgressMembers members)
  | .array items => .array (normalizeProgressItems items)
  | value => value

/-- The items normalized. -/
def normalizeProgressItems : List Json → List Json
  | [] => []
  | item :: items => normalizeProgressResult item :: normalizeProgressItems items

/-- The values of the members normalized. -/
def normalizeProgressMembers : List (String × Json) → List (String × Json)
  | [] => []
  | (name, value) :: members =>
    (name, normalizeProgressResult value) :: normalizeProgressMembers members

end

/-- The results of a progress document with their questions. -/
def progressResults : List Json → Option (List (String × Json))
  | [] => some []
  | item :: items => do
    let questionId ← (item.get "question_id").asText
    if item.isObject then (progressResults items).map ((questionId, item) :: ·) else none

/-- What a progress document has to state. -/
structure ProgressIdentity where
  provider : String
  cellId : String
  legacyPlanHash : String
  workloadId : String
  caseManifestHash : String
  orderedQuestionIds : List String

def validateProgress (library : Library) (document : Json) (identity : ProgressIdentity)
    (ordinaryResults : Json) : Except MigrationError Unit := do
  let refuse (what : String) : Except MigrationError Unit :=
    .error (.valueError s!"{what}: {identity.provider}")
  if !document.hasNames progressKeys then refuse "legacy progress keys are invalid"
  if !(document.get "schema_name").isText "full_progress" ||
      !library.equal (document.get "schema_version") (.integer 1) ||
      !(document.get "resolved_plan_hash").isText identity.legacyPlanHash ||
      !(document.get "cell_id").isText identity.cellId ||
      !(document.get "provider_id").isText identity.provider ||
      !(document.get "workload_id").isText identity.workloadId ||
      !(document.get "case_manifest_hash").isText identity.caseManifestHash ||
      !library.equal (document.get "ordered_question_ids")
        (.array (identity.orderedQuestionIds.map .string)) then
    refuse "legacy progress identity is invalid"
  let progress ←
    match (document.get "results") with
    | .array items =>
      match progressResults items with
      | some progress => .ok progress
      | none => .error (.valueError s!"legacy progress results are invalid: {identity.provider}")
    | _ => .error (.valueError s!"legacy progress results are invalid: {identity.provider}")
  let questionIds := progress.map Prod.fst
  if ¬ questionIds.Nodup ∨
      questionIds ≠ identity.orderedQuestionIds.filter (· ∈ questionIds) then
    refuse "legacy progress result order is invalid"
  if !(questionIds.all (· ∈ ordinaryResults.names) &&
      ordinaryResults.names.all (· ∈ questionIds)) then
    refuse "progress and ordinary result IDs differ"
  let normalized := Json.object (progress.map fun item ↦
    (item.1, normalizeProgressResult item.2))
  if !library.equal normalized ordinaryResults then
    refuse "progress and ordinary result content differs"

/-! ### The source -/

/-- The results of a provider that are moved, and what the receipt states of them. -/
structure ProviderResult where
  provider : String
  bytes : Bytes
  completedCount : ℕ
  remainingCount : ℕ
  resultSha256 : String
  progressSha256 : String
  deriving DecidableEq

/-- What is read of the source. -/
structure Source where
  legacyPlanBytes : Bytes
  legacyPlanHash : String
  plan : ResolvedPlan
  orderedQuestionIds : List String
  results : List ProviderResult
  deriving DecidableEq

section Source

variable (library : Library) (request : Request)

/-- The number of questions that have no result. -/
def remainingCount (results orderedQuestionIds : List String) : ℕ :=
  (orderedQuestionIds.filter (· ∉ results)).length

/-- Call a function of another module. -/
def call {α : Type} (outcome : Except String α) : Except MigrationError α :=
  outcome.mapError .raised

/-- The document of bytes that another function read. -/
def reloadJson (content : Bytes) : Except MigrationError Json :=
  match library.loadJson content with
  | some document => .ok document
  | none => .error (.raised "the document is not valid JSON")

/-- The results of a provider, which its progress has to state. -/
def readProviderResult (sourceFullRoot : Path) (legacyPlanHash : String) (plan : ResolvedPlan)
    (orderedQuestionIds : List String) (provider : String) : MigrationReading ProviderResult := do
  let resultPath := sourceFullRoot ++ ["results", resultName provider]
  let resultBytes ← readRegular resultPath
  let results ← ofExcept (call (library.loadQuestionResults resultBytes orderedQuestionIds))
  let (progressBytes, progress) ←
    loadCanonicalObject library (sourceFullRoot ++ ["results", s!"progress-{provider}.json"])
  let ordinaryDocument ← ofExcept (reloadJson library resultBytes)
  let cellId ← required (plan.cellByProvider.lookup provider) (.raised "KeyError")
  ofExcept (validateProgress library progress
    ⟨provider, cellId, legacyPlanHash, plan.datasetWorkloadId, plan.datasetCaseManifestHash,
      orderedQuestionIds⟩ ordinaryDocument)
  pure ⟨provider, resultBytes, results.length, remainingCount results orderedQuestionIds,
    library.sha256 resultBytes, library.sha256 progressBytes⟩

/-- The root of the run that the selector of the source names. -/
def sourceFullRoot (label : String) : Path :=
  request.sourceRepository ++ ["outputs", "full-test", label]

/-- The label of the run in the source. -/
def readSourceLabel : MigrationReading String := do
  let content ← readRegular (request.sourceRepository ++ ["outputs", "tmp", "full-test-current"])
  let label ← ofExcept (selectorLabel content)
  ofExcept (validateLabel label)
  pure label

/-- The plan of the run in the source, and the plan of the configuration, which have to agree. -/
def readPlans (sourceState : Json) (label : String) :
    MigrationReading (Bytes × String × ResolvedPlan × List String) := do
  let precheckPlan ← ofExcept (resolveMember request.sourceRepository sourceState "resolved_plan"
    "legacy precheck plan")
  let (legacyPlanBytes, legacyPlan) ← loadCanonicalObject library precheckPlan
  let fullPlanBytes ← readRegular (sourceFullRoot request label ++ ["resolved-plan.json"])
  refuseIf (fullPlanBytes ≠ legacyPlanBytes)
    (.valueError "legacy precheck and full-run plans differ")
  let datasetBytes ← readRegular request.datasetSource
  let stateDataset ← ofExcept (resolveMember request.sourceRepository sourceState "dataset_source"
    "legacy dataset source")
  let stateDatasetBytes ← readRegular stateDataset
  refuseIf (library.sha256 stateDatasetBytes ≠ library.sha256 datasetBytes)
    (.valueError "legacy and selected dataset sources differ")
  let configuration ← readRegular request.benchmarkConfig
  let plan ← ofExcept (call (library.resolvePlan configuration request.modelEnvironment))
  let planDocument ← ofExcept (reloadJson library plan.bytes)
  ofExcept (validateLegacyPlan library legacyPlan planDocument)
  refuseIf (library.sha256 datasetBytes ≠ plan.datasetSourceSha256)
    (.valueError "selected dataset source hash differs from the current plan")
  let manifest ← ofExcept (call (library.buildCaseManifest datasetBytes))
  refuseIf (manifest.manifestHash ≠ plan.datasetCaseManifestHash)
    (.valueError "selected dataset manifest differs from the current plan")
  let legacyPlanHash ← required (legacyPlan.get "resolved_plan_hash").asText
    (.valueError "legacy resolved plan hash is invalid")
  pure (legacyPlanBytes, legacyPlanHash, plan, manifest.rawQuestionIds)

/-- Read and check what is moved. -/
def readSource : MigrationReading Source := do
  let (_, sourceState) ← loadJsonObject library
    (request.sourceRepository ++ ["outputs", "tmp", "quick-start-current.json"])
  let label ← readSourceLabel request
  let (legacyPlanBytes, legacyPlanHash, plan, orderedQuestionIds) ←
    readPlans library request sourceState label
  let results ← providers.mapM (readProviderResult library (sourceFullRoot request label)
    legacyPlanHash plan orderedQuestionIds)
  pure ⟨legacyPlanBytes, legacyPlanHash, plan, orderedQuestionIds, results⟩

end Source

/-! ### The target -/

section Target

variable (library : Library) (request : Request)

/-- The run of the target label does not exist. -/
def requireAbsent : MigrationReading Unit :=
  .ask request.targetFullRoot fun
    | none => pure ()
    | some _ => fail (.fileExists
        s!"migration target already exists: {text request.targetFullRoot}")

/-- The precheck of the target: the bytes of its state, and the path of its plan. -/
def checkTarget (plan : ResolvedPlan) : MigrationReading (Bytes × Path) := do
  let (stateBytes, state) ← loadJsonObject library request.targetStatePath
  let precheckLabel ← required (state.get "run_label").asText
    (.valueError "target precheck run label is invalid")
  ofExcept (validateLabel precheckLabel)
  let workDir ← ofExcept (resolveMember request.targetRepository state "work_dir"
    "target precheck work directory")
  refuseIf (workDir ≠ request.targetTmp ++ ["precheck", precheckLabel])
    (.valueError "target precheck work directory is invalid")
  let planPath ← ofExcept (resolveMember request.targetRepository state "resolved_plan"
    "target precheck plan")
  refuseIf (planPath ≠ workDir ++ ["plan", "resolved-plan.json"])
    (.valueError "target precheck plan path is invalid")
  let planBytes ← readRegular planPath
  refuseIf (planBytes ≠ plan.bytes)
    (.valueError "target precheck plan differs from the current resolved plan")
  let dataset ← ofExcept (resolveMember request.targetRepository state "dataset_source"
    "target dataset source")
  let datasetBytes ← readRegular dataset
  refuseIf (library.sha256 datasetBytes ≠ plan.datasetSourceSha256)
    (.valueError "target dataset source differs from the current resolved plan")
  refuseIf (!(state.get "embedding_ownership").isText "embedding_local_fallback")
    (.valueError "target precheck embedding ownership is invalid")
  (library.checkReadiness request.targetRepository plan).handle fun _ ↦
    fail (.valueError "target new-plan readiness is missing or invalid")
  pure (stateBytes, planPath)

end Target

/-! ### The migration -/

/-- A program of the migration. -/
abbrev Migration (α : Type) : Type := Dialogue FileQuery Answer MigrationError α

def writeCreateOnly (path : Path) (content : Bytes) : Migration Unit := do
  makeDirectories .raised path.dropLast
  let descriptor ← act .raised (.createExclusive path)
  handle (fun error ↦ do
      act .raised (.unlink path)
      fail error) do
    act .raised (.write descriptor content)
    act .raised (.sync descriptor)

def replacePointer (request : Request) (content : Bytes) : Migration Unit := do
  makeDirectories .raised request.selector.dropLast
  writeCreateOnly request.pointer content
  act .raised (.replaceFile request.pointer request.selector)

/-- An object with a member for each provider. -/
def byProvider (source : Source) (value : ProviderResult → Json) : Json :=
  .object (source.results.map fun result ↦ (result.provider, value result))

def receipt (library : Library) (source : Source) (targetStateBytes : Bytes) : Json :=
  .object [("schema_name", .string "managed_local_resume_migration"),
    ("schema_version", .integer 1),
    ("source_plan_file_sha256", .string (library.sha256 source.legacyPlanBytes)),
    ("source_resolved_plan_hash", .string source.legacyPlanHash),
    ("target_resolved_plan_hash", .string source.plan.resolvedPlanHash),
    ("source_result_sha256", byProvider source fun result ↦ .string result.resultSha256),
    ("source_progress_sha256", byProvider source fun result ↦ .string result.progressSha256),
    ("completed_result_counts", byProvider source fun result ↦ .integer result.completedCount),
    ("remaining_result_counts", byProvider source fun result ↦ .integer result.remainingCount),
    ("source_full_run_preserved_in_place", .bool true),
    ("target_precheck_state_sha256", .string (library.sha256 targetStateBytes)),
    ("external_calls_dispatched", .integer 0)]

section Migration

variable (library : Library) (request : Request)

/-- The files of the new run. -/
def publishedFiles (source : Source) (targetStateBytes : Bytes) : List (Path × Bytes) :=
  (["resolved-plan.json"], source.plan.bytes) ::
    source.results.map (fun result ↦ (["results", resultName result.provider], result.bytes)) ++
    [(["migration-receipt.json"],
      library.canonicalJsonBytes (receipt library source targetStateBytes))]

/-- Write files below a directory. -/
def writeFiles (root : Path) : List (Path × Bytes) → Migration Unit
  | [] => pure ()
  | (path, content) :: files => do
    writeCreateOnly (root ++ path) content
    writeFiles root files

/-- A staged result is the one of the source, and leaves the same questions. -/
def rehearse (source : Source) (stagedFull : Path) (result : ProviderResult) :
    MigrationReading Unit := do
  let content ← readRegular (stagedFull ++ ["results", resultName result.provider])
  refuseIf (library.sha256 content ≠ result.resultSha256)
    (.valueError s!"migrated result hash differs: {result.provider}")
  let rehearsed ← ofExcept (call (library.loadQuestionResults content source.orderedQuestionIds))
  refuseIf (remainingCount rehearsed source.orderedQuestionIds ≠ result.remainingCount)
    (.valueError s!"zero-dispatch rehearsal differs: {result.provider}")

/-- Write the new run to a staging directory, and move it to its place. -/
def stageAndPublish (source : Source) (targetStateBytes : Bytes) (staging : Path) :
    Migration Unit := do
  let stagedFull := staging ++ ["full"]
  writeFiles stagedFull (publishedFiles library source targetStateBytes)
  reads .raised (source.results.forM (rehearse library source stagedFull))
  makeDirectories .raised request.targetFullRoot.dropLast
  act .raised (.renameDirectory stagedFull request.targetFullRoot)
  act .raised (.removeDirectory staging)

/-- The plan of the new run is that of the precheck. -/
def checkPublished (targetPlanPath : Path) : MigrationReading Unit := do
  let published ← readRegular (request.targetFullRoot ++ ["resolved-plan.json"])
  let planned ← readRegular targetPlanPath
  refuseIf (published ≠ planned) (.valueError "published migration plans differ")

/-- Check the plan of the new run, and select the run. -/
def select (targetPlanPath : Path) : Migration Unit := do
  reads .raised (checkPublished request targetPlanPath)
  replacePointer request (JsonText.utf8 (request.targetLabel.toList ++ ['\n']))

def migrateResumeData : Migration Json := do
  ofExcept (validateLabel request.targetLabel)
  let source ← reads .raised (readSource library request)
  reads .raised (requireAbsent request)
  let (targetStateBytes, targetPlanPath) ← reads .raised (checkTarget library request source.plan)
  makeDirectories .raised request.targetTmp
  let staging ← act .raised (.makeTemporaryDirectory request.targetTmp ".managed-local-migration-")
  handle (fun error ↦ do
      act .raised (.removeTree staging)
      fail error) (stageAndPublish library request source targetStateBytes staging)
  select request targetPlanPath
  pure (receipt library source targetStateBytes)

end Migration

end Oamb.Scripts.ResumeMigration
