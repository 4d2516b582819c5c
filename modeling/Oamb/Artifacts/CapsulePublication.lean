import Oamb.Artifacts.ArtifactPaths
import Oamb.Artifacts.AtomicPublication
import Oamb.Foundation.TextLines

/-!
# Publication with a last marker

A publication writes its payloads, then a checksum file with a line for every payload and for the
marker, and then the marker. Verification reads the checksum file back, compares every file with its
line, and compares the files of the directory with the lines.

A publication is a list of atomic writes here, and the directory that is verified is a file system.
-/

set_option autoImplicit false

namespace Oamb.Artifacts.CapsulePublication

open Foundation Foundation.TextLines
open ArtifactPaths AtomicPublication

/-- The name of the checksum file. -/
def checksumsName : String := "CHECKSUMS.sha256"

/-! ### Texts and bytes -/

/-- Encode a text as UTF-8. -/
def encodeText (text : String) : Bytes := text.toUTF8.data.toList

/-- Decode a text from UTF-8. -/
def decodeText (content : Bytes) : Option String := String.fromUTF8? ⟨content.toArray⟩

/-- The digits of a digest. -/
def hexDigits : List Char := "0123456789abcdef".toList

/-- The digest is one of SHA-256: sixty-four hexadecimal digits. -/
def IsDigest (digest : String) : Prop :=
  digest.toList.length = 64 ∧ ∀ char ∈ digest.toList, char ∈ hexDigits

instance (digest : String) : Decidable (IsDigest digest) :=
  inferInstanceAs (Decidable (_ ∧ ∀ char ∈ digest.toList, char ∈ hexDigits))

/-! ### Publication -/

/-- What is published, and where. -/
structure Publication where
  directory : Path
  payloads : Dictionary String Bytes
  markerName : String
  markerBytes : Bytes

/-- The items of a publication that are not allowed. -/
def checkEnvelope (publication : Publication) : Except String Unit :=
  match safePathComponent publication.markerName with
  | .error message => .error message
  | .ok marker =>
    if marker = checksumsName then .error "the commit marker and checksum file must be distinct"
    else if marker ∈ publication.payloads ∨ checksumsName ∈ publication.payloads then
      .error "payloads cannot contain the publication envelope"
    else .ok ()

/-- The payloads with their normalized names. -/
def normalizePayloads : List (String × Bytes) → Except String (List (String × Bytes))
  | [] => .ok []
  | (name, content) :: rest =>
    match safeRelativePath name with
    | .error message => .error message
    | .ok path =>
      match normalizePayloads rest with
      | .error message => .error message
      | .ok normalized => .ok ((posix path, content) :: normalized)

/-- Items in the order of their names. -/
def sortByName {α : Type} (items : List (String × α)) : List (String × α) :=
  items.insertionSort fun first second ↦ first.1 ≤ second.1

/-- The items of the payloads of a publication. -/
def payloadItems (publication : Publication) : List (String × Bytes) :=
  publication.payloads.entries.map fun entry ↦ (entry.1, entry.2)

/-- The entries of the checksum file: a name and a digest for every payload and for the marker. -/
def checksumEntries (sha256 : Bytes → String) (publication : Publication)
    (payloads : List (String × Bytes)) : List (String × String) :=
  sortByName (payloads.map (fun payload ↦ (payload.1, sha256 payload.2)) ++
    [(publication.markerName, sha256 publication.markerBytes)])

/-- A line of the checksum file. -/
def checksumLine (entry : String × String) : List Char :=
  entry.2.toList ++ ' ' :: ' ' :: entry.1.toList

/-- The checksum file. -/
def checksumText (entries : List (String × String)) : String :=
  String.ofList (entries.flatMap fun entry ↦ checksumLine entry ++ ['\n'])

/-- The write of a named file in a directory. -/
def artifactCall (directory : Path) (name : String) (content : Bytes) : Call where
  operation := .write
  root := directory
  directory := (components name).dropLast
  name := (components name).getLast (components_ne_nil name)
  content := content

/-- The writes of a publication that is accepted. -/
def publicationCalls (sha256 : Bytes → String) (publication : Publication) :
    Except String (List Call) :=
  match checkEnvelope publication with
  | .error message => .error message
  | .ok () =>
    match normalizePayloads (payloadItems publication) with
    | .error message => .error message
    | .ok normalized =>
      let payloads := sortByName normalized
      let text := checksumText (checksumEntries sha256 publication payloads)
      .ok (payloads.map (fun payload ↦ artifactCall publication.directory payload.1 payload.2) ++
        [artifactCall publication.directory checksumsName (encodeText text),
          artifactCall publication.directory publication.markerName publication.markerBytes])

/-- What is in the way of a directory of a publication. -/
def obstruction (fs : FileSystem) (path : Path) : Option String :=
  match fs.node path with
  | some .symlink => some "publication path cannot traverse a symbolic link"
  | some (.file _) => some "publication path parent must be a directory"
  | _ => none

/-- The check of the directories of a publication. -/
def requirePublicationContainment (fs : FileSystem) (publication : Publication) :
    Except String Unit :=
  match fs.node publication.directory with
  | some .symlink => .error "publication directory cannot be a symbolic link"
  | some (.file _) => .error "publication root must be a directory"
  | _ =>
    let names := (sortByName (payloadItems publication)).map Prod.fst ++
      [checksumsName, publication.markerName]
    let directories := names.flatMap fun name ↦ (components name).dropLast.inits.tail
    match directories.findSome? fun path ↦ obstruction fs (publication.directory ++ path) with
    | some message => .error message
    | none => .ok ()

/-! ### Verification -/

/-- A line of the checksum file: a digest and a path. -/
def parseChecksumLine (line : List Char) : Option (String × String) :=
  if 64 ≤ line.length ∧ (∀ char ∈ line.take 64, char ∈ hexDigits) ∧
      (line.drop 64).take 2 = [' ', ' '] ∧ line.drop 66 ≠ [] ∧
      ∀ char ∈ line.drop 66, char ≠ '\r' ∧ char ≠ '\n' then
    some (String.ofList (line.take 64), String.ofList (line.drop 66))
  else none

/-- The file has the digest. -/
def matchesDigest (sha256 : Bytes → String) (digest : String) : Option Node → Bool
  | some (.file content) => sha256 content = digest
  | _ => false

/-- Compare the lines of a checksum file with the files that they name. The paths that were read are
kept. -/
def verifyLines (sha256 : Bytes → String) (fs : FileSystem) (directory : Path) :
    List (List Char) → List String → Except String (List String)
  | [], indexed => .ok indexed
  | line :: rest, indexed =>
    match parseChecksumLine line with
    | none => .error "invalid checksum line"
    | some (digest, name) =>
      match safeRelativePath name with
      | .error message => .error message
      | .ok path =>
        if posix path = checksumsName ∨ posix path ∈ indexed then
          .error "invalid or duplicate checksum path"
        else if matchesDigest sha256 digest (fs.node (directory ++ path)) = true then
          verifyLines sha256 fs directory rest (indexed ++ [posix path])
        else .error s!"checksum mismatch for {posix path}"

/-- The paths below a directory, without the directory. -/
def descendants (fs : FileSystem) (directory : Path) : List Path :=
  (fs.paths.filter fun path ↦ directory <+: path ∧ path ≠ directory).map fun path ↦
    path.drop directory.length

/-- There is a file at the path. -/
def isFile (fs : FileSystem) (path : Path) : Bool :=
  match fs.node path with
  | some (.file _) => true
  | _ => false

/-- The names of the files below a directory, without the checksum file. -/
def committedFiles (fs : FileSystem) (directory : Path) : List String :=
  ((descendants fs directory).filter fun path ↦
    isFile fs (directory ++ path) ∧ path ≠ [checksumsName]).map posix

/-- The paths that the checksum file of a directory indexes, each with the digest of its file. -/
def readIndex (sha256 : Bytes → String) (fs : FileSystem) (directory : Path) :
    Except String (List String) :=
  match fs.node (directory ++ [checksumsName]) with
  | some (.file content) =>
    match decodeText content with
    | none => .error "invalid checksum text"
    | some text => verifyLines sha256 fs directory (readLines text.toList) []
  | _ => .error "publication checksum file is absent"

/-- Verify a directory that was published. -/
def verifyPublishedDirectory (sha256 : Bytes → String) (fs : FileSystem) (directory : Path)
    (markerName : String) : Except String Unit :=
  match safePathComponent markerName with
  | .error message => .error message
  | .ok marker =>
    if isFile fs (directory ++ [marker]) = false then .error "publication commit marker is absent"
    else
      match readIndex sha256 fs directory with
      | .error message => .error message
      | .ok indexed =>
        if marker ∉ indexed then .error "commit marker is not covered by checksums"
        else if ∃ path ∈ descendants fs directory, fs.node (directory ++ path) = some .symlink then
          .error "published directory cannot contain symbolic links"
        else if (∀ name ∈ committedFiles fs directory, name ∈ indexed) ∧
            ∀ name ∈ indexed, name ∈ committedFiles fs directory then .ok ()
        else .error "published directory contains an unindexed or missing file"

end Oamb.Artifacts.CapsulePublication
