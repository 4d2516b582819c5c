import Oamb.Artifacts.CapsuleFinalization
import Oamb.Artifacts.WriteSequences
import Oamb.Foundation.Numerals

/-!
# Checkpoints of a capsule

A store keeps the checkpoints of every lease epoch in files that their epoch and sequence name. An
append checks the hash of the checkpoint and the files that it indexes, compares its sequence with the
ones that it finds in the directory and its predecessor with the file before it, and then publishes it
with a create-only write. `Operates` is one operation on a store: an append, a sealed checkpoint, or
the publication of a source file, each of which may be refused, raise an error, return, or be
interrupted at any step of its write.
-/

set_option autoImplicit false

namespace Oamb.Artifacts.CheckpointChain

open Foundation Foundation.Numerals
open AtomicPublication WriteSequences CapsulePublication CapsuleFinalization

/-! ### Checkpoints -/

/-- What the hash of a checkpoint covers. -/
structure CheckpointFields where
  runId : String
  leaseRecordHash : String
  leaseEpoch : ℕ
  sequence : ℕ
  predecessorCheckpointHash : Option String
  sourceEntries : List CapsuleManifestEntry
  /-- The microseconds since the epoch of the clock. -/
  createdAt : ℤ

/-- A checkpoint. -/
structure CheckpointManifest extends CheckpointFields where
  checkpointManifestHash : String
  named : runId ≠ ""
  digests : IsDigest checkpointManifestHash ∧ IsDigest leaseRecordHash ∧
    ∀ hash ∈ predecessorCheckpointHash, IsDigest hash
  positive : 0 < leaseEpoch ∧ 0 < sequence
  first : sequence = 1 → predecessorCheckpointHash = none
  later : 1 < sequence → predecessorCheckpointHash ≠ none
  entries : ∀ entry ∈ sourceEntries, checkEntry entry = .ok entry
  paths : (sourceEntries.map CapsuleManifestEntry.relativePath).Nodup

/-- The encodings and hashes of a store that keeps checkpoints. -/
structure CheckpointEncodings extends Encodings where
  fieldsSha256 : CheckpointFields → String
  checkpointBytes : CheckpointManifest → Bytes
  /-- The checkpoint that a file holds. -/
  validateCheckpoint : Bytes → Option CheckpointManifest

/-- The name of the file of a checkpoint. -/
def checkpointName (epoch sequence : ℕ) : String := s!"{epoch}-{sequence}.json"

/-- The directory of the checkpoints. -/
def checkpointDirectory (root : Path) : Path := root ++ ["checkpoints"]

/-- The file of a checkpoint. -/
def checkpointPath (root : Path) (epoch sequence : ℕ) : Path :=
  checkpointDirectory root ++ [checkpointName epoch sequence]

/-! ### Checks of an append -/

/-- The sequence in the name of a file of an epoch. -/
def readSequence (epoch : ℕ) (name : String) : Option ℕ :=
  let lead := s!"{epoch}-".toList
  let rest := name.toList.drop lead.length
  if lead <+: name.toList ∧ ".json".toList <:+ rest then
    readNumeral (rest.take (rest.length - ".json".toList.length))
  else none

/-- The sequences of the files of an epoch that are found in a directory. -/
def checkpointSequences (fs : FileSystem) (directory : Path) (epoch : ℕ) : List ℕ :=
  if fs.node directory = none then []
  else ((descendants fs directory).filter fun path ↦
    path.length = 1 ∧ isFile fs (directory ++ path)).filterMap fun path ↦
      readSequence epoch (path.headD "")

/-- The sequence of the next checkpoint of an epoch. -/
def expectedSequence (fs : FileSystem) (root : Path) (epoch : ℕ) : ℕ :=
  match (checkpointSequences fs (checkpointDirectory root) epoch).max? with
  | some last => last + 1
  | none => 1

/-- The check of the sequence of a checkpoint that is not there. -/
def checkSequence (fs : FileSystem) (root : Path) (manifest : CheckpointManifest) :
    Except String Unit :=
  if fs.node (checkpointPath root manifest.leaseEpoch manifest.sequence) = none ∧
      manifest.sequence ≠ expectedSequence fs root manifest.leaseEpoch then
    .error "checkpoint sequence is not append-only"
  else .ok ()

/-- The check of the file before a checkpoint. -/
def checkPredecessor (encodings : CheckpointEncodings) (fs : FileSystem) (root : Path)
    (manifest : CheckpointManifest) : Except String Unit :=
  if 1 < manifest.sequence then
    let path := checkpointPath root manifest.leaseEpoch (manifest.sequence - 1)
    match fs.node path with
    | none => .error "checkpoint predecessor is missing"
    | some (.file content) =>
      match encodings.validateCheckpoint content with
      | none => .error "checkpoint predecessor is not valid"
      | some predecessor =>
        if some predecessor.checkpointManifestHash ≠ manifest.predecessorCheckpointHash then
          .error "checkpoint predecessor hash does not match"
        else .ok ()
    | some _ => .error s!"{text path} is a symbolic link or non-regular file"
  else .ok ()

/-- The write of a checkpoint. -/
def checkpointCall (encodings : CheckpointEncodings) (root : Path) (manifest : CheckpointManifest) :
    Call where
  operation := .write
  root := root
  directory := ["checkpoints"]
  name := checkpointName manifest.leaseEpoch manifest.sequence
  content := encodings.checkpointBytes manifest

/-- The write of a checkpoint that is appended. -/
def appendCheckpoint (encodings : CheckpointEncodings) (fs : FileSystem) (root : Path)
    (manifest : CheckpointManifest) : Except String Call :=
  if manifest.checkpointManifestHash ≠ encodings.fieldsSha256 manifest.toCheckpointFields then
    .error "checkpoint content hash does not match its fields"
  else
    match verifySourceEntries encodings.toEncodings fs root manifest.sourceEntries with
    | .error message => .error message
    | .ok () =>
      match checkSequence fs root manifest with
      | .error message => .error message
      | .ok () =>
        match checkPredecessor encodings fs root manifest with
        | .error message => .error message
        | .ok () => .ok (checkpointCall encodings root manifest)

/-- A request to seal a record. -/
structure ArtifactWriteRequest where
  recordId : String
  relativePath : String
  canonicalSha256 : String
  canonicalBytes : Bytes

/-- The checkpoint of a request to seal one. -/
def sealedCheckpoint (encodings : CheckpointEncodings) (request : ArtifactWriteRequest) :
    Except String CheckpointManifest :=
  if encodings.sha256 request.canonicalBytes ≠ request.canonicalSha256 then
    .error "artifact request hash does not match canonical bytes"
  else
    match encodings.validateCheckpoint request.canonicalBytes with
    | none => .error "checkpoint is not valid"
    | some checkpoint =>
      if request.relativePath ≠
          "checkpoints/" ++ checkpointName checkpoint.leaseEpoch checkpoint.sequence then
        .error "checkpoint path does not match its epoch and sequence"
      else if request.recordId ≠ checkpoint.checkpointManifestHash then
        .error "checkpoint record ID does not match its content hash"
      else .ok checkpoint

/-! ### Operations on a store -/

/-- An operation on a store. -/
inductive StoreOperation
  | append (manifest : CheckpointManifest)
  | sealCheckpoint (request : ArtifactWriteRequest)
  | publish (request : Request)

/-- The write of an operation that is accepted. -/
def operationCall (encodings : CheckpointEncodings) (fs : FileSystem) (root : Path) :
    StoreOperation → Except String Call
  | .append manifest => appendCheckpoint encodings fs root manifest
  | .sealCheckpoint request =>
    match sealedCheckpoint encodings request with
    | .error message => .error message
    | .ok checkpoint => appendCheckpoint encodings fs root checkpoint
  | .publish request => requestCall encodings.toEncodings root request

/-- How an operation ends. -/
inductive Outcome
  | refused (message : String)
  | raised (error : AtomicError)
  | returned (result : AtomicWriteResult)
  | interrupted

/-- One operation on a store. -/
inductive Operates (encodings : CheckpointEncodings) (root : Path) :
    FileSystem → StoreOperation × Outcome → FileSystem → Prop
  | refuse {fs : FileSystem} {operation : StoreOperation} {message : String}
    (hcall : operationCall encodings fs root operation = .error message) :
    Operates encodings root fs (operation, .refused message) fs
  | raise {fs next : FileSystem} {operation : StoreOperation} {call : Call} {error : AtomicError}
    (hcall : operationCall encodings fs root operation = .ok call)
    (hreaches : Reaches encodings.sha256 call fs next (.raised error)) :
    Operates encodings root fs (operation, .raised error) next
  | ret {fs next : FileSystem} {operation : StoreOperation} {call : Call} {result : AtomicWriteResult}
    (hcall : operationCall encodings fs root operation = .ok call)
    (hreaches : Reaches encodings.sha256 call fs next (.returned result)) :
    Operates encodings root fs (operation, .returned result) next
  | interrupt {fs next : FileSystem} {operation : StoreOperation} {call : Call} {phase : Phase}
    (hcall : operationCall encodings fs root operation = .ok call)
    (hreaches : Reaches encodings.sha256 call fs next phase) :
    Operates encodings root fs (operation, .interrupted) next

end Oamb.Artifacts.CheckpointChain
