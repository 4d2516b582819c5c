import Oamb.Foundation.FileSystem
import Oamb.Foundation.LabelledRuns

/-!
# Atomic publication of files

A call of `atomic_write_bytes` or `atomic_replace_bytes` writes its content to a temporary file
beside its target. A write then links the temporary file to the target, which fails if the target
exists, and compares the two if it does; a replacement renames the temporary file over the target.
`CallStep` is one such step of a call, with at most one operation that changes the file system.
`Step` is a step of one of several calls that share a file system, or the interruption of one of
them: its process ends, or the system or a hook raises an error, and the files stay as they are.
-/

set_option autoImplicit false

namespace Oamb.Artifacts.AtomicPublication

open Foundation

/-! ### Calls -/

/-- The two ways to publish a file. -/
inductive Operation
  | write
  | replace
  deriving DecidableEq

/-- A call: its operation, the trusted root, the directory of the target below it, the name of the
target, and the content. The paths are resolved. -/
structure Call where
  operation : Operation
  root : Path
  directory : Path
  name : String
  content : Bytes

/-- The characters that the system adds to the name of a temporary file. -/
def temporaryAlphabet : List Char := "abcdefghijklmnopqrstuvwxyz0123456789_".toList

namespace Call

/-- The directory of the target. -/
def parent (call : Call) : Path := call.root ++ call.directory

/-- The target of a call. -/
def target (call : Call) : Path := call.parent ++ [call.name]

/-- The path may be a temporary file of the call: the system adds some characters to its name. -/
def IsTemporary (call : Call) (path : Path) : Prop :=
  ∃ suffix, (∀ char ∈ suffix.toList, char ∈ temporaryAlphabet) ∧
    path = call.parent ++ ["." ++ call.name ++ ".tmp-" ++ suffix]

end Call

/-- The text of a path. -/
def text (path : Path) : String := "/" ++ "/".intercalate path

/-- What a call returns. -/
structure AtomicWriteResult where
  path : Path
  sha256 : String
  byteCount : ℕ
  created : Bool
  deriving DecidableEq

/-- What a call raises: a collision, or an error of the system or of a hook. -/
inductive AtomicError
  | collision (message : String)
  | system
  deriving DecidableEq

/-! ### Checks -/

/-- The directories from the trusted root to the directory of the target. -/
def components (call : Call) : List Path := call.directory.inits.map fun path ↦ call.root ++ path

/-- The first symbolic link on the way from the trusted root to the target. -/
def requireLexicalContainment (fs : FileSystem) (call : Call) : Except AtomicError Unit :=
  match (components call).find? fun path ↦ fs.node path = some .symlink with
  | some path => .error (.collision s!"{text path} is a symbolic link in the artifact path")
  | none => .ok ()

/-- A path and the directories above it, from below. -/
def ancestors (path : Path) : List Path := path.reverse.tails.map List.reverse

/-- The lowest directory on the way to the target that exists, and the components below it that are
missing. -/
def existingAncestor (fs : FileSystem) (parent : Path) : Path × Path :=
  match (ancestors parent).find? fun path ↦ fs.node path ≠ none with
  | some base => (base, parent.drop base.length)
  | none => ([], parent)

/-- The checks of a call before it makes the directories of its target. -/
def checkDirectories (fs : FileSystem) (call : Call) : Except AtomicError (Path × Path) := do
  requireLexicalContainment fs call
  let (base, missing) := existingAncestor fs call.parent
  if fs.node base = some .directory then return (base, missing)
  else throw (.collision s!"{text base} is a symbolic link or non-directory artifact parent")

/-- The check of a call before it makes its temporary file: whether it creates its target. A write
leaves this to the link. -/
def checkTarget (fs : FileSystem) (call : Call) : Except AtomicError Bool :=
  match call.operation with
  | .write => .ok true
  | .replace =>
    match fs.node call.target with
    | none => .ok true
    | some (.file _) => .ok false
    | some _ => .error (.collision s!"{text call.target} is a symbolic link or non-regular file")

/-- The comparison of a target that exists with the content of a call. -/
def compareTarget (sha256 : Bytes → String) (fs : FileSystem) (call : Call) :
    Except AtomicError Unit :=
  match fs.node call.target with
  | none => .error .system
  | some (.file content) =>
    if sha256 content ≠ sha256 call.content ∨ content.length ≠ call.content.length then
      .error (.collision s!"{text call.target} already exists with different bytes")
    else .ok ()
  | some _ => .error (.collision s!"{text call.target} is a symbolic link or non-regular file")

/-! ### Steps -/

/-- The phase of a call. -/
inductive Phase
  | checking
  | directories (base missing : Path)
  | creating (created : Bool)
  | writing (temporary : Path) (inode written : ℕ) (created : Bool)
  | closed (temporary : Path) (created : Bool)
  | comparing (temporary : Path)
  | abandoning (temporary : Path) (error : AtomicError)
  | cleaning (temporary : Path) (created : Bool)
  | finishing (outcome : Except AtomicError Bool)
  | returned (result : AtomicWriteResult)
  | raised (error : AtomicError)

namespace Phase

/-- The temporary file of a call that runs. -/
def temporary : Phase → Option Path
  | writing temporary _ _ _ | closed temporary _ | comparing temporary | abandoning temporary _
  | cleaning temporary _ => some temporary
  | _ => none

/-- The call ended. -/
def ended : Phase → Bool
  | returned _ | raised _ => true
  | _ => false

end Phase

/-- What a call returns when it is done. -/
def result (sha256 : Bytes → String) (call : Call) (created : Bool) : AtomicWriteResult where
  path := call.target
  sha256 := sha256 call.content
  byteCount := call.content.length
  created := created

/-- The last phase of a call. -/
def conclude (sha256 : Bytes → String) (call : Call) : Except AtomicError Bool → Phase
  | .ok created => .returned (result sha256 call created)
  | .error error => .raised error

/-- One step of a call. -/
inductive CallStep (sha256 : Bytes → String) (call : Call) :
    FileSystem → Phase → FileSystem → Phase → Prop
  | refuse {fs : FileSystem} {error : AtomicError} (hcheck : checkDirectories fs call = .error error) :
    CallStep sha256 call fs .checking fs (.raised error)
  | check {fs : FileSystem} {base missing : Path}
    (hcheck : checkDirectories fs call = .ok (base, missing)) :
    CallStep sha256 call fs .checking fs (.directories base missing)
  | makeDirectory {fs : FileSystem} {base missing : Path} {name : String}
    (hparent : fs.node base = some .directory) (habsent : fs.node (base ++ [name]) = none) :
    CallStep sha256 call fs (.directories base (name :: missing))
      (fs.makeDirectory (base ++ [name])) (.directories (base ++ [name]) missing)
  /-- Another call made the directory. -/
  | directoryExists {fs : FileSystem} {base missing : Path} {name : String}
    (hnode : fs.node (base ++ [name]) = some .directory) :
    CallStep sha256 call fs (.directories base (name :: missing)) fs
      (.directories (base ++ [name]) missing)
  | directoryRefused {fs : FileSystem} {base missing : Path} {name : String} {node : Node}
    (hnode : fs.node (base ++ [name]) = some node) (hdirectory : node ≠ .directory) :
    CallStep sha256 call fs (.directories base (name :: missing)) fs (.raised (.collision
      s!"{text (base ++ [name])} is a symbolic link or non-directory artifact parent"))
  | targetChecked {fs : FileSystem} {base : Path} {created : Bool}
    (hcheck : checkTarget fs call = .ok created) :
    CallStep sha256 call fs (.directories base []) fs (.creating created)
  | targetRefused {fs : FileSystem} {base : Path} {error : AtomicError}
    (hcheck : checkTarget fs call = .error error) :
    CallStep sha256 call fs (.directories base []) fs (.raised error)
  /-- The name of the temporary file is one that is not in use. -/
  | create {fs : FileSystem} {temporary : Path} {created : Bool}
    (hparent : fs.node call.parent = some .directory) (hname : call.IsTemporary temporary)
    (habsent : fs.node temporary = none) :
    CallStep sha256 call fs (.creating created) (fs.create temporary)
      (.writing temporary fs.inodes 0 created)
  /-- The system writes some of the bytes that are left. -/
  | write {fs : FileSystem} {temporary : Path} {inode written count : ℕ} {created : Bool}
    (hcount : 0 < count) (hleft : written + count ≤ call.content.length) :
    CallStep sha256 call fs (.writing temporary inode written created)
      (fs.write inode (fs.contents inode ++ (call.content.drop written).take count))
      (.writing temporary inode (written + count) created)
  | close {fs : FileSystem} {temporary : Path} {inode written : ℕ} {created : Bool}
    (hall : ¬ written < call.content.length) :
    CallStep sha256 call fs (.writing temporary inode written created) fs
      (.closed temporary created)
  | link {fs : FileSystem} {temporary : Path} {created : Bool} (hoperation : call.operation = .write)
    (hsource : fs.node temporary ≠ none) (habsent : fs.node call.target = none) :
    CallStep sha256 call fs (.closed temporary created) (fs.link temporary call.target)
      (.cleaning temporary created)
  | linkExists {fs : FileSystem} {temporary : Path} {created : Bool}
    (hoperation : call.operation = .write) (htarget : fs.node call.target ≠ none) :
    CallStep sha256 call fs (.closed temporary created) fs (.comparing temporary)
  | rename {fs : FileSystem} {temporary : Path} {created : Bool}
    (hoperation : call.operation = .replace) (hsource : fs.node temporary ≠ none)
    (htarget : fs.node call.target ≠ some .directory) :
    CallStep sha256 call fs (.closed temporary created) (fs.rename temporary call.target)
      (.finishing (.ok created))
  /-- A directory is not replaced. -/
  | renameRefused {fs : FileSystem} {temporary : Path} {created : Bool}
    (hoperation : call.operation = .replace) (htarget : fs.node call.target = some .directory) :
    CallStep sha256 call fs (.closed temporary created) fs (.raised .system)
  | same {fs : FileSystem} {temporary : Path} (hcompare : compareTarget sha256 fs call = .ok ()) :
    CallStep sha256 call fs (.comparing temporary) fs (.cleaning temporary false)
  | different {fs : FileSystem} {temporary : Path} {error : AtomicError}
    (hcompare : compareTarget sha256 fs call = .error error) :
    CallStep sha256 call fs (.comparing temporary) fs (.abandoning temporary error)
  | abandon {fs : FileSystem} {temporary : Path} {error : AtomicError} :
    CallStep sha256 call fs (.abandoning temporary error) (fs.unlink temporary)
      (.finishing (.error error))
  | clean {fs : FileSystem} {temporary : Path} {created : Bool} :
    CallStep sha256 call fs (.cleaning temporary created) (fs.unlink temporary)
      (.finishing (.ok created))
  | finish {fs : FileSystem} {outcome : Except AtomicError Bool} :
    CallStep sha256 call fs (.finishing outcome) fs (conclude sha256 call outcome)

/-- Calls that share a file system. A target that is replaced is not named like a temporary file. -/
structure Calls (ι : Type) where
  call : ι → Call
  ordinary : ∀ index other, (call index).operation = .replace →
    ¬ (call other).IsTemporary (call index).target

/-- The state of several calls. -/
structure State (ι : Type) where
  fs : FileSystem
  phases : ι → Phase

/-- The state before the first step of every call. -/
def State.initial {ι : Type} (fs : FileTree) : State ι := ⟨fs.toFileSystem, fun _ ↦ .checking⟩

/-- What happens to one of the calls. -/
inductive Event (ι : Type)
  | act (index : ι)
  | interrupt (index : ι)
  deriving DecidableEq

/-- One step of one of the calls. -/
inductive Step {ι : Type} [DecidableEq ι] (sha256 : Bytes → String) (calls : Calls ι) :
    State ι → Event ι → State ι → Prop
  | act {state : State ι} {index : ι} {fs : FileSystem} {phase : Phase}
    (hstep : CallStep sha256 (calls.call index) state.fs (state.phases index) fs phase) :
    Step sha256 calls state (.act index) ⟨fs, Function.update state.phases index phase⟩
  | interrupt {state : State ι} {index : ι} (hrunning : (state.phases index).ended = false) :
    Step sha256 calls state (.interrupt index)
      { state with phases := Function.update state.phases index (.raised .system) }

end Oamb.Artifacts.AtomicPublication
