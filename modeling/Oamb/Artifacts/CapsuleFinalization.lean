import Oamb.Artifacts.CapsulePublication

/-!
# Finalization of a capsule

An artifact store publishes source records and raw payloads below `source/`. Finalization walks that
directory, makes an entry for every file that it finds, and publishes the manifest of these entries.

The parameters of a store are the functions that encode and hash its contents, and the one that reads
the schema of a record.
-/

set_option autoImplicit false

namespace Oamb.Artifacts.CapsuleFinalization

open Foundation
open ArtifactPaths AtomicPublication CapsulePublication

/-- An entry of a manifest. -/
structure CapsuleManifestEntry where
  recordKind : String
  recordId : String
  relativePath : String
  sha256 : String
  deriving DecidableEq

/-- The manifest of a capsule. -/
structure CapsuleManifest where
  capsuleId : String
  runId : String
  runSpecHash : String
  sourceEntries : List CapsuleManifestEntry
  sourceManifestHash : String
  deriving DecidableEq

/-- The encodings and hashes of a store. -/
structure Encodings where
  sha256 : Bytes → String
  /-- The compressed payload. -/
  deterministicGzip : Bytes → Bytes
  /-- The schema name of a JSON object that has one. -/
  schemaName : Bytes → Option String
  /-- The hash of a list of texts. -/
  canonicalSha256 : List String → String
  entriesSha256 : List CapsuleManifestEntry → String
  canonicalJsonBytes : CapsuleManifest → Bytes

/-! ### Publication of records and payloads -/

/-- A request to publish a source record or a raw payload. -/
inductive Request
  | sourceRecord (collection recordId : String) (content : Bytes)
  | sealSourceRecord (relativePath canonicalSha256 : String) (canonicalBytes : Bytes)
  | sealRaw (payload : Bytes) (sha256 : String) (gzip : Bool)

/-- The name of a file below the root of the store, and its content. -/
def publicationOf (encodings : Encodings) : Request → Except String (String × Bytes)
  | .sourceRecord collection recordId content =>
    match safeRelativePath collection with
    | .error message => .error message
    | .ok path =>
      match safePathComponent recordId with
      | .error message => .error message
      | .ok component => .ok (posix ("source" :: path ++ [component ++ ".json"]), content)
  | .sealSourceRecord relativePath canonicalSha256 canonicalBytes =>
    match safeRelativePath relativePath with
    | .error message => .error message
    | .ok path =>
      if path.head? ≠ some "source" then .error "source record path must be below source/"
      else if encodings.sha256 canonicalBytes ≠ canonicalSha256 then
        .error "artifact request hash does not match canonical bytes"
      else .ok (posix path, canonicalBytes)
  | .sealRaw payload sha256 gzip =>
    if encodings.sha256 payload ≠ sha256 then .error "raw request hash does not match payload bytes"
    else if gzip then
      .ok (posix ["source", "raw", encodings.sha256 payload ++ ".json.gz"],
        encodings.deterministicGzip payload)
    else .ok (posix ["source", "raw", sha256], payload)

/-- The write of a request that is accepted. -/
def requestCall (encodings : Encodings) (root : Path) (request : Request) : Except String Call :=
  match publicationOf encodings request with
  | .error message => .error message
  | .ok (name, content) => .ok (artifactCall root name content)

/-! ### The entries of a manifest -/

/-- The name of a file without its last suffix. -/
def stem (name : String) : String :=
  let suffix := (name.toList.reverse.takeWhile (· ≠ '.')).length
  if suffix = 0 ∨ name.toList.length ≤ suffix + 1 then name
  else String.ofList (name.toList.take (name.toList.length - suffix - 1))

/-- The name of a file without the suffix of a compressed payload. -/
def removeSuffix (name : String) : String :=
  if ".json.gz".toList <:+ name.toList then
    String.ofList (name.toList.take (name.toList.length - ".json.gz".toList.length))
  else name

/-- The kind and the identifier of the record in a file below the root of a store. -/
def identify (encodings : Encodings) (path : Path) (content : Bytes) :
    Except String (String × String) :=
  match path with
  | "source" :: "parts" :: name :: rest =>
    match rest with
    | [] => .error "embedded part path is incomplete"
    | inner =>
      let part := if inner = ["capsule-manifest.json"] then "manifest" else posix inner
      .ok ("embedded_part_file",
        encodings.canonicalSha256 ["oamb-embedded-part-file-v1", name, part])
  | "source" :: "raw" :: name :: rest =>
    .ok ("raw_payload", removeSuffix ((name :: rest).getLastD name))
  | _ =>
    match encodings.schemaName content with
    | none => .error s!"source record has no schema identity: {posix path}"
    | some schema => .ok (schema, stem (path.getLastD ""))

/-- The checks of an entry. -/
def checkEntry (entry : CapsuleManifestEntry) : Except String CapsuleManifestEntry :=
  if entry.recordKind = "" ∨ entry.recordId = "" ∨ entry.relativePath = "" then
    .error "String should have at least 1 character"
  else if ¬ IsDigest entry.sha256 then .error "String should match pattern '^[0-9a-f]\x7b64\x7d$'"
  else if entry.relativePath.toList.head? = some '/' ∨
      ".." ∈ ArtifactPaths.components entry.relativePath then
    .error "capsule path must be relative and non-escaping"
  else .ok entry

/-- The entry of a file below the root of a store. -/
def manifestEntry (encodings : Encodings) (path : Path) (content : Bytes) :
    Except String CapsuleManifestEntry :=
  match identify encodings path content with
  | .error message => .error message
  | .ok (kind, identifier) => checkEntry ⟨kind, identifier, posix path, encodings.sha256 content⟩

/-- The order of paths: that of the lists of their components. -/
def precedes : Path → Path → Bool
  | [], _ => true
  | _ :: _, [] => false
  | first :: firstRest, second :: secondRest =>
    first < second ∨ (first = second ∧ precedes firstRest secondRest)

/-- The paths below a directory, in order. -/
def sortedDescendants (fs : FileSystem) (directory : Path) : List Path :=
  (descendants fs directory).insertionSort fun first second ↦ precedes first second

/-- The entries of the files among some paths below the root of a store. -/
def manifestEntries (encodings : Encodings) (fs : FileSystem) (root : Path) :
    List Path → Except String (List CapsuleManifestEntry)
  | [] => .ok []
  | path :: rest =>
    match fs.node (root ++ path) with
    | some (.file content) =>
      match manifestEntry encodings path content with
      | .error message => .error message
      | .ok entry =>
        match manifestEntries encodings fs root rest with
        | .error message => .error message
        | .ok entries => .ok (entry :: entries)
    | _ => manifestEntries encodings fs root rest

/-! ### Finalization -/

/-- The checks of a manifest. -/
def checkManifest (manifest : CapsuleManifest) : Except String CapsuleManifest :=
  let paths := manifest.sourceEntries.map CapsuleManifestEntry.relativePath
  if ¬ IsDigest manifest.capsuleId ∨ ¬ IsDigest manifest.runSpecHash ∨
      ¬ IsDigest manifest.sourceManifestHash then
    .error "String should match pattern '^[0-9a-f]\x7b64\x7d$'"
  else if manifest.runId = "" then .error "String should have at least 1 character"
  else if ¬ paths.Nodup then .error "capsule manifest contains duplicate paths"
  else if ∃ path ∈ paths, path = "capsule-manifest.json" ∨
      "checkpoints/".toList <+: path.toList then
    .error "capsule manifest cannot index itself or checkpoints"
  else .ok manifest

/-- The check that every entry is a file below `source/` with its digest. -/
def verifySourceEntries (encodings : Encodings) (fs : FileSystem) (root : Path) :
    List CapsuleManifestEntry → Except String Unit
  | [] => .ok ()
  | entry :: rest =>
    match safeRelativePath entry.relativePath with
    | .error message => .error message
    | .ok path =>
      if path.head? ≠ some "source" then .error "manifest entries must be below source/"
      else if matchesDigest encodings.sha256 entry.sha256 (fs.node (root ++ path)) = false then
        .error s!"source entry hash does not match sealed bytes: {entry.relativePath}"
      else verifySourceEntries encodings fs root rest

/-- The manifest of some entries, with the identifier that they give the capsule. -/
def manifestOf (encodings : Encodings) (runId runSpecHash : String)
    (entries : List CapsuleManifestEntry) : CapsuleManifest :=
  let sourceManifestHash := encodings.entriesSha256 entries
  { capsuleId := encodings.canonicalSha256
      ["oamb-capsule-v1", runId, runSpecHash, sourceManifestHash]
    runId := runId
    runSpecHash := runSpecHash
    sourceEntries := entries
    sourceManifestHash := sourceManifestHash }

/-- The manifest of the files that are found below `source/`. -/
def capsuleManifest (encodings : Encodings) (fs : FileSystem) (root : Path)
    (runId runSpecHash : String) : Except String CapsuleManifest :=
  match manifestEntries encodings fs root
    ((sortedDescendants fs (root ++ ["source"])).map fun path ↦ "source" :: path) with
  | .error message => .error message
  | .ok entries => checkManifest (manifestOf encodings runId runSpecHash entries)

/-- The manifest of a capsule that is finalized, and the write that publishes it. -/
def finalizeCapsule (encodings : Encodings) (fs : FileSystem) (root : Path)
    (runId runSpecHash : String) : Except String (CapsuleManifest × Call) :=
  match capsuleManifest encodings fs root runId runSpecHash with
  | .error message => .error message
  | .ok manifest =>
    match verifySourceEntries encodings fs root manifest.sourceEntries with
    | .error message => .error message
    | .ok () =>
      .ok (manifest,
        artifactCall root "capsule-manifest.json" (encodings.canonicalJsonBytes manifest))

end Oamb.Artifacts.CapsuleFinalization
