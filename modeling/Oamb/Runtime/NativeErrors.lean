import Mathlib.Data.List.Infix
import Oamb.Foundation.TreeSearch

/-!
# The errors of a native run

An error is a tree: an exception group has members, a failed cancellation carries the two errors it
preserves, and every error may link to a cause, to a context and, through a retrieval receipt, to
the errors of the provider and of the projection after it. The functions of this module search such
trees with a worklist; they differ in the links they follow and in what they look for.

The source keeps the identities that it has visited. A finite tree has no cycles, so a repeated
visit would not change what is found, and the loops here do not keep them.
-/

set_option autoImplicit false

namespace Oamb.Runtime.NativeErrors

open Foundation.TreeSearch

/-! ### Classes -/

/-- The exception classes that the runtime tells apart, apart from groups and failed cancellations.
Any other class is its nearest base class here, or `baseException`. -/
inductive LeafClass
  | baseException
  | assertionError
  | timeoutError
  | valueError
  | runtimeError
  | systemExit
  | cancelledError
  | nativeRunInterrupted
  | nativeRunProcessError
  | memorySystemCallCancelledBeforeDispatch
  | memorySystemCallCancelledUnknownOutcome
  | modelCallCancelledUnknownOutcome
  | memorySystemCallUnknownOutcome
  | modelCallUnknownOutcome
  | infrastructureBackoffCancelled
  | infrastructureRetryExhausted
  | settledTransientIngestionFailure
  deriving DecidableEq

namespace LeafClass

/-- A class with its base classes. -/
def ancestors : LeafClass → List LeafClass
  | baseException => [baseException]
  | assertionError => [assertionError, baseException]
  | timeoutError => [timeoutError, baseException]
  | valueError => [valueError, baseException]
  | runtimeError => [runtimeError, baseException]
  | systemExit => [systemExit, baseException]
  | cancelledError => [cancelledError, baseException]
  | nativeRunInterrupted => [nativeRunInterrupted, runtimeError, baseException]
  | nativeRunProcessError => [nativeRunProcessError, runtimeError, baseException]
  | memorySystemCallCancelledBeforeDispatch =>
    [memorySystemCallCancelledBeforeDispatch, cancelledError, baseException]
  | memorySystemCallCancelledUnknownOutcome =>
    [memorySystemCallCancelledUnknownOutcome, cancelledError, memorySystemCallUnknownOutcome,
      runtimeError, baseException]
  | modelCallCancelledUnknownOutcome =>
    [modelCallCancelledUnknownOutcome, cancelledError, modelCallUnknownOutcome, runtimeError,
      baseException]
  | memorySystemCallUnknownOutcome =>
    [memorySystemCallUnknownOutcome, runtimeError, baseException]
  | modelCallUnknownOutcome => [modelCallUnknownOutcome, runtimeError, baseException]
  | infrastructureBackoffCancelled =>
    [infrastructureBackoffCancelled, cancelledError, baseException]
  | infrastructureRetryExhausted => [infrastructureRetryExhausted, runtimeError, baseException]
  | settledTransientIngestionFailure =>
    [settledTransientIngestionFailure, runtimeError, baseException]

/-- The name of a class. -/
def className : LeafClass → String
  | baseException => "BaseException"
  | assertionError => "AssertionError"
  | timeoutError => "TimeoutError"
  | valueError => "ValueError"
  | runtimeError => "RuntimeError"
  | systemExit => "SystemExit"
  | cancelledError => "CancelledError"
  | nativeRunInterrupted => "NativeRunInterrupted"
  | nativeRunProcessError => "NativeRunProcessError"
  | memorySystemCallCancelledBeforeDispatch => "MemorySystemCallCancelledBeforeDispatch"
  | memorySystemCallCancelledUnknownOutcome => "MemorySystemCallCancelledUnknownOutcome"
  | modelCallCancelledUnknownOutcome => "ModelCallCancelledUnknownOutcome"
  | memorySystemCallUnknownOutcome => "MemorySystemCallUnknownOutcome"
  | modelCallUnknownOutcome => "ModelCallUnknownOutcome"
  | infrastructureBackoffCancelled => "InfrastructureBackoffCancelled"
  | infrastructureRetryExhausted => "InfrastructureRetryExhausted"
  | settledTransientIngestionFailure => "SettledTransientIngestionFailure"

end LeafClass

/-- The four classes of a call whose outcome is unknown. -/
def unknownOutcomeClasses : List LeafClass :=
  [.modelCallCancelledUnknownOutcome, .modelCallUnknownOutcome,
    .memorySystemCallCancelledUnknownOutcome, .memorySystemCallUnknownOutcome]

/-! ### Errors -/

/-- The errors that a failed retrieval keeps in its receipt. -/
structure ErrorReceipt (ε : Type) where
  providerError : Option ε
  postProjectionError : Option ε

/-- What an error is: an exception group, a cancellation whose evidence could not be sealed, or an
exception of another class. -/
inductive ErrorKind (ε : Type)
  | group (exceptions : List ε)
  | cancellationEvidence (primary evidence : ε)
  | leaf (leafClass : LeafClass)

/-- The attributes of an error that the runtime reads. -/
structure ErrorInfo where
  typeName : String
  message : String
  failureKind : Option String := none
  rawReference : Option String := none
  usageReferenceIds : List String := []
  deriving DecidableEq

/-- An error. -/
inductive NativeError
  | mk (kind : ErrorKind NativeError) (info : ErrorInfo) (cause context : Option NativeError)
      (receipt : Option (ErrorReceipt NativeError))

namespace NativeError

/-- What the error is. -/
def kind : NativeError → ErrorKind NativeError
  | mk kind _ _ _ _ => kind

/-- The attributes of the error. -/
def info : NativeError → ErrorInfo
  | mk _ info _ _ _ => info

/-- The error that was named as the cause. -/
def cause : NativeError → Option NativeError
  | mk _ _ cause _ _ => cause

/-- The error that was being handled. -/
def context : NativeError → Option NativeError
  | mk _ _ _ context _ => context

/-- The receipt that the error carries. -/
def receipt : NativeError → Option (ErrorReceipt NativeError)
  | mk _ _ _ _ receipt => receipt

/-- An exception of a class, without links. -/
def plain (leafClass : LeafClass) (info : ErrorInfo) : NativeError :=
  mk (.leaf leafClass) info none none none

/-- Whether the error is an instance of a class. -/
def isInstance (error : NativeError) (target : LeafClass) : Bool :=
  match error.kind with
  | .group _ => target = .baseException
  | .cancellationEvidence _ _ => target ∈ LeafClass.cancelledError.ancestors
  | .leaf leafClass => target ∈ leafClass.ancestors

/-- Whether the error is an instance of one of some classes. -/
def isInstanceOf (error : NativeError) (targets : List LeafClass) : Bool :=
  targets.any error.isInstance

/-- Only a leaf is an instance of a class that is no base class of a cancellation. -/
theorem kind_of_isInstanceOf {error : NativeError} {targets : List LeafClass}
    (htargets : ∀ target ∈ targets, target ∉ LeafClass.cancelledError.ancestors)
    (hinstance : error.isInstanceOf targets = true) :
    ∃ leafClass, error.kind = .leaf leafClass := by
  obtain ⟨target, hmem, htarget⟩ := List.any_eq_true.mp hinstance
  have hnot := htargets target hmem
  rw [isInstance] at htarget
  cases hkind : error.kind with
  | leaf leafClass => exact ⟨leafClass, rfl⟩
  | group exceptions =>
    rw [hkind, decide_eq_true_eq] at htarget
    exact absurd (htarget ▸ by decide) hnot
  | cancellationEvidence primary evidence =>
    rw [hkind, decide_eq_true_eq] at htarget
    exact absurd htarget hnot

/-! ### Links -/

/-- The members of an exception group. -/
def members (error : NativeError) : List NativeError :=
  match error.kind with
  | .group exceptions => exceptions
  | .cancellationEvidence _ _ | .leaf _ => []

/-- The cause and the context. -/
def causes (error : NativeError) : List NativeError :=
  error.cause.toList ++ error.context.toList

/-- The errors in the receipt. -/
def receiptErrors (error : NativeError) : List NativeError :=
  match error.receipt with
  | some receipt => receipt.providerError.toList ++ receipt.postProjectionError.toList
  | none => []

theorem sum_sizeOf_toList_le (link : Option NativeError) :
    (link.toList.map sizeOf).sum ≤ sizeOf link := by
  cases link <;> simp

theorem sum_sizeOf_le (links : List NativeError) : (links.map sizeOf).sum ≤ sizeOf links := by
  induction links with
  | nil => simp
  | cons link links ih =>
    simp only [List.map_cons, List.sum_cons, List.cons.sizeOf_spec]
    omega

/-- All links of an error together are smaller than the error. -/
theorem sum_sizeOf_links_lt (error : NativeError) :
    ((error.members ++ error.causes ++ error.receiptErrors).map sizeOf).sum < sizeOf error := by
  obtain ⟨kind, info, cause, context, receipt⟩ := error
  have hmembers : ((mk kind info cause context receipt).members.map sizeOf).sum ≤ sizeOf kind := by
    cases kind with
    | group exceptions =>
      have hle := sum_sizeOf_le exceptions
      simp only [members, NativeError.kind, ErrorKind.group.sizeOf_spec]
      omega
    | cancellationEvidence | leaf => simp [members, NativeError.kind]
  have hreceipt : ((mk kind info cause context receipt).receiptErrors.map sizeOf).sum ≤
      sizeOf receipt := by
    cases receipt with
    | none => simp [receiptErrors, NativeError.receipt]
    | some kept =>
      obtain ⟨providerError, postProjectionError⟩ := kept
      have hprovider := sum_sizeOf_toList_le providerError
      have hprojection := sum_sizeOf_toList_le postProjectionError
      simp only [receiptErrors, NativeError.receipt, List.map_append, List.sum_append,
        Option.some.sizeOf_spec, ErrorReceipt.mk.sizeOf_spec]
      omega
  have hcause := sum_sizeOf_toList_le cause
  have hcontext := sum_sizeOf_toList_le context
  simp only [List.map_append, List.sum_append, causes, NativeError.cause, NativeError.context,
    mk.sizeOf_spec]
  omega

/-- Links that are some of all links are finite. -/
theorem sum_sizeOf_lt_of_sublist {error : NativeError} {links : List NativeError}
    (hlinks : links.Sublist (error.members ++ error.causes ++ error.receiptErrors)) :
    (links.map sizeOf).sum < sizeOf error :=
  ((hlinks.map sizeOf).sum_le_sum fun _ _ ↦ Nat.zero_le _).trans_lt error.sum_sizeOf_links_lt

end NativeError

open NativeError

/-- Members of groups only. -/
def memberLinks : Links NativeError where
  next := members
  finite := ⟨sizeOf, fun error ↦ sum_sizeOf_lt_of_sublist (by simp)⟩

/-- Members, causes and contexts. -/
def causeLinks : Links NativeError where
  next := fun error ↦ error.members ++ error.causes
  finite := ⟨sizeOf, fun error ↦ sum_sizeOf_lt_of_sublist (by simp)⟩

/-- Causes, contexts and the errors of receipts. -/
def dispatchLinks : Links NativeError where
  next := fun error ↦ error.causes ++ error.receiptErrors
  finite := ⟨sizeOf, fun error ↦ sum_sizeOf_lt_of_sublist (by simp)⟩

/-- Members, causes, contexts and the errors of receipts. -/
def allLinks : Links NativeError where
  next := fun error ↦ error.members ++ error.causes ++ error.receiptErrors
  finite := ⟨sizeOf, sum_sizeOf_links_lt⟩

/-! ### Searches -/

/-- The error is one of a call whose outcome is unknown, by its class or by the name of its type. -/
def isUnknownOutcome (error : NativeError) : Bool :=
  error.isInstanceOf unknownOutcomeClasses ||
    decide ("UnknownOutcome".toList <:+: error.info.typeName.toList)

/-- An unknown outcome among the members, causes and contexts. -/
def containsUnknownOutcome (error : NativeError) : Bool :=
  causeLinks.contains .stack isUnknownOutcome error

/-- An unknown outcome among all links, those of receipts included. -/
def containsUnknownOutcomeExtended (error : NativeError) : Bool :=
  allLinks.contains .stack isUnknownOutcome error

/-- The classes of the errors that a dispatch raises itself. -/
def typedDispatchErrors : List LeafClass :=
  [.memorySystemCallCancelledBeforeDispatch, .memorySystemCallCancelledUnknownOutcome,
    .modelCallCancelledUnknownOutcome, .memorySystemCallUnknownOutcome, .modelCallUnknownOutcome]

/-- The nearest error that a dispatch raised itself. -/
def wrappedDispatchError (error : NativeError) : Option NativeError :=
  dispatchLinks.search .queue (fun candidate ↦ candidate.isInstanceOf typedDispatchErrors) [error]

/-- The classes of the errors that end a call before it is dispatched. -/
def cancelledBeforeDispatchClasses : List LeafClass :=
  [.memorySystemCallCancelledBeforeDispatch, .infrastructureBackoffCancelled,
    .nativeRunInterrupted]

/-- A cancellation before the dispatch among the causes, contexts and errors of receipts. -/
def containsCancelledBeforeDispatch (error : NativeError) : Bool :=
  dispatchLinks.contains .stack
    (fun candidate ↦ candidate.isInstanceOf cancelledBeforeDispatchClasses) error

/-- An exhausted infrastructure retry among the members, causes and contexts. -/
def containsInfrastructureRetryExhausted (error : NativeError) : Bool :=
  causeLinks.contains .stack
    (fun candidate ↦ candidate.isInstance .infrastructureRetryExhausted) error

end Oamb.Runtime.NativeErrors
