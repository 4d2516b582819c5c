import Oamb.Runtime.NativeErrors

/-!
# Errors across the process boundary

The worker process sends an error to its parent as an envelope, and the parent restores an error
from it. An envelope keeps the members of groups and the two errors of a failed cancellation. It
drops causes, contexts and receipts, except that a cancelled error and an error with a receipt are
replaced by the nearest error that a dispatch raised itself.

The parent decides by `containsUnknownOutcome` whether the provider lifecycle is released.
`containsUnknownOutcome_restore_iff` says what this finds in a restored error: an unknown outcome
that the envelope carries. The error of the worker links to an unknown outcome in more ways, and
`restored_agrees_iff` is the exact condition under which both agree; `lost_cancellation_evidence` is
an error of a worker for which they do not.
-/

set_option autoImplicit false

namespace Oamb.Runtime.ErrorEnvelope

open Foundation.TreeSearch NativeErrors NativeErrors.NativeError

/-! ### Envelopes -/

/-- The category of an error in an envelope. -/
inductive NativeErrorCategory
  | interrupted
  | memoryCancelledBeforeDispatch
  | memoryCancelledUnknown
  | modelCancelledUnknown
  | memoryUnknown
  | modelUnknown
  | cancelled
  | assertion
  | timeout
  | value
  | runtime
  | systemExit
  | base
  deriving DecidableEq

/-- An error as it is sent to the parent process. -/
inductive NativeErrorEnvelope
  | mk (category : NativeErrorCategory) (typeName message : String) (failureKind : Option String)
      (children : List NativeErrorEnvelope)

/-- The category of an exception of a class: the first one in this order. -/
def categoryOf (error : NativeError) : NativeErrorCategory :=
  if error.isInstance .nativeRunInterrupted then .interrupted
  else if error.isInstance .memorySystemCallCancelledBeforeDispatch then
    .memoryCancelledBeforeDispatch
  else if error.isInstance .memorySystemCallCancelledUnknownOutcome then .memoryCancelledUnknown
  else if error.isInstance .modelCallCancelledUnknownOutcome then .modelCancelledUnknown
  else if error.isInstance .memorySystemCallUnknownOutcome then .memoryUnknown
  else if error.isInstance .modelCallUnknownOutcome then .modelUnknown
  else if error.isInstance .cancelledError then .cancelled
  else if error.isInstance .assertionError then .assertion
  else if error.isInstance .timeoutError then .timeout
  else if error.isInstance .valueError then .value
  else if error.isInstance .runtimeError then .runtime
  else if error.isInstance .systemExit then .systemExit
  else .base

/-- The envelope of an error without its links. -/
def leafEnvelope (error : NativeError) : NativeErrorEnvelope :=
  .mk (categoryOf error) error.info.typeName error.info.message error.info.failureKind []

/-- A wrapped error that is not the error itself is smaller. -/
theorem sizeOf_lt_of_wrapped {error wrapped : NativeError}
    (hwrapped : wrappedDispatchError error = some wrapped)
    (htyped : ¬ error.isInstanceOf typedDispatchErrors) : sizeOf wrapped < sizeOf error := by
  obtain ⟨hfound, start, hstart, hreaches⟩ := Links.of_search_eq_some hwrapped
  obtain rfl := List.mem_singleton.mp hstart
  have hsize : ∀ node, ((dispatchLinks.next node).map sizeOf).sum < sizeOf node :=
    fun node ↦ sum_sizeOf_lt_of_sublist (by simp [dispatchLinks])
  rcases hreaches.eq_or_lt hsize with rfl | hlt
  · exact absurd hfound htyped
  · exact hlt

/-- The envelope of an error. The search for a wrapped error starts at the error, so it finds the
error itself exactly when that is one that a dispatch raised. -/
def nativeErrorEnvelope : NativeError → NativeErrorEnvelope
  | mk (.cancellationEvidence primary evidence) info _ _ _ =>
    .mk .cancelled info.typeName info.message none
      [nativeErrorEnvelope primary, nativeErrorEnvelope evidence]
  | mk (.group exceptions) info _ _ _ =>
    .mk .base info.typeName info.message none
      (exceptions.attach.map fun ⟨item, _⟩ ↦ nativeErrorEnvelope item)
  | mk (.leaf leafClass) info cause context receipt =>
    let error := mk (.leaf leafClass) info cause context receipt
    if error.isInstance .cancelledError ∨ receipt.isSome then
      match _hwrapped : wrappedDispatchError error with
      | some wrapped =>
        if _htyped : error.isInstanceOf typedDispatchErrors then leafEnvelope error
        else nativeErrorEnvelope wrapped
      | none => leafEnvelope error
    else leafEnvelope error
  termination_by error => sizeOf error
  decreasing_by
    · decreasing_tactic
    · decreasing_tactic
    · decreasing_tactic
    · exact sizeOf_lt_of_wrapped _hwrapped _htyped

/-! ### Restored errors -/

/-- The class that is restored for a category. -/
def restoredClass : NativeErrorCategory → LeafClass
  | .memoryCancelledBeforeDispatch => .memorySystemCallCancelledBeforeDispatch
  | .memoryCancelledUnknown => .memorySystemCallCancelledUnknownOutcome
  | .modelCancelledUnknown => .modelCallCancelledUnknownOutcome
  | .memoryUnknown => .memorySystemCallUnknownOutcome
  | .modelUnknown => .modelCallUnknownOutcome
  | .interrupted => .nativeRunInterrupted
  | .cancelled => .cancelledError
  | .assertion => .assertionError
  | .timeout => .timeoutError
  | .value => .valueError
  | .systemExit => .systemExit
  | .runtime => .runtimeError
  | .base => .nativeRunProcessError

/-- The failure kind that the constructor of the restored class sets. -/
def restoredFailureKind (category : NativeErrorCategory) (failureKind : Option String) :
    Option String :=
  match category with
  | .memoryCancelledBeforeDispatch => some "cancelled_before_dispatch"
  | .memoryCancelledUnknown | .modelCancelledUnknown => some "cancelled"
  | .memoryUnknown | .modelUnknown =>
    some ((failureKind.filter (· ≠ "")).getD "unknown_outcome")
  | _ => none

/-- The error of a category. -/
def restoreLeaf (category : NativeErrorCategory) (typeName message : String)
    (failureKind : Option String) : NativeError :=
  plain (restoredClass category)
    { typeName := (restoredClass category).className
      message := if category = .base then s!"native child raised {typeName}: {message}" else message
      failureKind := restoredFailureKind category failureKind }

/-- A failed cancellation. -/
def nativeCancellationEvidenceError (primary evidence : NativeError) : NativeError :=
  mk (.cancellationEvidence primary evidence)
    { typeName := "NativeCancellationEvidenceError"
      message := "native cancellation and failure-evidence seal both failed" } none none none

/-- The error of an envelope with children. The class of a group depends on its members and is not
read again. -/
def restoreParent (category : NativeErrorCategory) (message : String)
    (restoredChildren : List NativeError) : NativeError :=
  match category, restoredChildren with
  | .cancelled, [primary, evidence] => nativeCancellationEvidenceError primary evidence
  | _, _ => mk (.group restoredChildren)
    { typeName := "BaseExceptionGroup", message := message } none none none

/-- The error that the parent restores. -/
def restoreNativeError : NativeErrorEnvelope → NativeError
  | .mk category typeName message failureKind children =>
    if children ≠ [] then
      restoreParent category message (children.attach.map fun ⟨item, _⟩ ↦ restoreNativeError item)
    else restoreLeaf category typeName message failureKind

/-! ### What an envelope carries -/

/-- The error that stands for an exception in the envelope. -/
def standIn (error : NativeError) : NativeError :=
  if error.isInstance .cancelledError ∨ error.receipt.isSome then
    (wrappedDispatchError error).getD error
  else error

/-- The envelope carries an unknown outcome: the error that stands for a member is one of a call
whose outcome is unknown. -/
def CarriesUnknown (error : NativeError) : Prop :=
  ∃ member leafClass, memberLinks.Reaches error member ∧ member.kind = .leaf leafClass ∧
    (standIn member).isInstanceOf unknownOutcomeClasses

/-- An unknown outcome can be reached along members, causes and contexts. -/
def LinksUnknown (error : NativeError) : Prop :=
  ∃ linked, causeLinks.Reaches error linked ∧ isUnknownOutcome linked

/-! ### The envelope of a leaf -/

/-- An error that a dispatch raised itself is the nearest such error. -/
theorem wrappedDispatchError_of_typed {error : NativeError}
    (htyped : error.isInstanceOf typedDispatchErrors = true) :
    wrappedDispatchError error = some error := by
  rw [wrappedDispatchError, Links.search_cons, if_pos htyped]

theorem standIn_of_typed {error : NativeError}
    (htyped : error.isInstanceOf typedDispatchErrors = true) : standIn error = error := by
  rw [standIn, wrappedDispatchError_of_typed htyped, Option.getD_some, ite_self]

/-- The envelope of an exception is the one of the error that stands for it. -/
theorem nativeErrorEnvelope_of_leaf {error : NativeError} {leafClass : LeafClass}
    (hkind : error.kind = .leaf leafClass) :
    nativeErrorEnvelope error = leafEnvelope (standIn error) := by
  have htypedLeaf {typed : NativeError} (htyped : typed.isInstanceOf typedDispatchErrors = true) :
      nativeErrorEnvelope typed = leafEnvelope typed := by
    obtain ⟨typedClass, htypedKind⟩ := kind_of_isInstanceOf (by decide) htyped
    obtain ⟨kind, info, cause, context, receipt⟩ := typed
    obtain rfl : kind = .leaf typedClass := htypedKind
    rw [nativeErrorEnvelope]
    split_ifs
    · split <;> rfl
    · rfl
  by_cases htyped : error.isInstanceOf typedDispatchErrors = true
  · rw [standIn_of_typed htyped, htypedLeaf htyped]
  · obtain ⟨kind, info, cause, context, receipt⟩ := error
    obtain rfl : kind = .leaf leafClass := hkind
    rw [nativeErrorEnvelope]
    by_cases hread : (mk (.leaf leafClass) info cause context receipt).isInstance .cancelledError ∨
        receipt.isSome
    · have hstandIn : standIn (mk (.leaf leafClass) info cause context receipt) =
          (wrappedDispatchError (mk (.leaf leafClass) info cause context receipt)).getD
            (mk (.leaf leafClass) info cause context receipt) := if_pos hread
      rw [if_pos hread, hstandIn]
      split
      · next wrapped hwrapped =>
        rw [dif_neg htyped, hwrapped, Option.getD_some]
        exact htypedLeaf (Links.of_search_eq_some hwrapped).1
      · next hnone => rw [hnone, Option.getD_none]
    · have hstandIn : standIn (mk (.leaf leafClass) info cause context receipt) =
          mk (.leaf leafClass) info cause context receipt := if_neg hread
      rw [if_neg hread, hstandIn]

/-! ### What is found in a restored error -/

/-- The categories of a call whose outcome is unknown. -/
def unknownCategories : List NativeErrorCategory :=
  [.memoryCancelledUnknown, .modelCancelledUnknown, .memoryUnknown, .modelUnknown]

theorem isUnknownOutcome_restoreLeaf (category : NativeErrorCategory) (typeName message : String)
    (failureKind : Option String) :
    isUnknownOutcome (restoreLeaf category typeName message failureKind) =
      decide (category ∈ unknownCategories) := by
  show (unknownOutcomeClasses.any (fun target ↦
      decide (target ∈ (restoredClass category).ancestors)) ||
    decide ("UnknownOutcome".toList <:+: (restoredClass category).className.toList)) = _
  cases category <;> decide +kernel

theorem categoryOf_mem_unknownCategories {error : NativeError} {leafClass : LeafClass}
    (hkind : error.kind = .leaf leafClass) :
    decide (categoryOf error ∈ unknownCategories) = error.isInstanceOf unknownOutcomeClasses := by
  have hinstance (target : LeafClass) :
      error.isInstance target = decide (target ∈ leafClass.ancestors) := by
    rw [isInstance, hkind]
  rw [isInstanceOf, funext hinstance]
  simp only [categoryOf, hinstance]
  cases leafClass <;> rfl

theorem containsUnknownOutcome_restoreLeaf (category : NativeErrorCategory)
    (typeName message : String) (failureKind : Option String) :
    containsUnknownOutcome (restoreLeaf category typeName message failureKind) =
      decide (category ∈ unknownCategories) := by
  have hnext : causeLinks.next (restoreLeaf category typeName message failureKind) = [] := rfl
  rw [← isUnknownOutcome_restoreLeaf category typeName message failureKind, Bool.eq_iff_iff,
    containsUnknownOutcome, Links.contains_iff_next, hnext]
  simp

theorem restoreNativeError_mk (category : NativeErrorCategory) (typeName message : String)
    (failureKind : Option String) (children : List NativeErrorEnvelope) :
    restoreNativeError (.mk category typeName message failureKind children) =
      if children ≠ [] then restoreParent category message (children.map restoreNativeError)
      else restoreLeaf category typeName message failureKind := by
  rw [restoreNativeError]
  simp only [List.map_subtype, List.unattach_attach]

/-- Of a group or a failed cancellation, only the name of its type can mark an unknown outcome. -/
theorem isUnknownOutcome_of_not_leaf {error : NativeError}
    (hkind : ∀ leafClass, error.kind ≠ .leaf leafClass) :
    isUnknownOutcome error = decide ("UnknownOutcome".toList <:+: error.info.typeName.toList) := by
  have hinstance : error.isInstanceOf unknownOutcomeClasses = false := by
    rw [Bool.eq_false_iff]
    intro htrue
    obtain ⟨leafClass, hleaf⟩ := kind_of_isInstanceOf (by decide) htrue
    exact hkind leafClass hleaf
  rw [isUnknownOutcome, hinstance, Bool.false_or]

/-- Nothing is found in a restored cancellation, whose two errors are not searched. -/
theorem containsUnknownOutcome_cancellationEvidence (primary evidence : NativeError) :
    containsUnknownOutcome (nativeCancellationEvidenceError primary evidence) = false := by
  have hnext : causeLinks.next (nativeCancellationEvidenceError primary evidence) = [] := rfl
  have hfound : isUnknownOutcome (nativeCancellationEvidenceError primary evidence) =
      decide ("UnknownOutcome".toList <:+: "NativeCancellationEvidenceError".toList) :=
    isUnknownOutcome_of_not_leaf nofun
  have hname : ¬ "UnknownOutcome".toList <:+: "NativeCancellationEvidenceError".toList := by
    decide +kernel
  rw [containsUnknownOutcome, Bool.eq_false_iff, ne_eq, Links.contains_iff_next, hnext, hfound,
    decide_eq_false hname]
  simp only [Bool.false_eq_true, List.not_mem_nil, false_and, exists_false, or_self,
    not_false_eq_true]

/-- An unknown outcome is found in a restored group when it is found in a member. -/
theorem containsUnknownOutcome_group (exceptions : List NativeError) (message : String) :
    containsUnknownOutcome (restoreParent .base message exceptions) = true ↔
      ∃ member ∈ exceptions, containsUnknownOutcome member = true := by
  have hnext : causeLinks.next (restoreParent .base message exceptions) = exceptions :=
    List.append_nil exceptions
  have hfound : isUnknownOutcome (restoreParent .base message exceptions) =
      decide ("UnknownOutcome".toList <:+: "BaseExceptionGroup".toList) :=
    isUnknownOutcome_of_not_leaf nofun
  have hname : ¬ "UnknownOutcome".toList <:+: "BaseExceptionGroup".toList := by decide +kernel
  rw [containsUnknownOutcome, Links.contains_iff_next, hnext, hfound, decide_eq_false hname]
  simp only [Bool.false_eq_true, false_or, containsUnknownOutcome]

/-- An envelope carries an unknown outcome at the error itself or at a member. -/
theorem carriesUnknown_iff {error : NativeError} : CarriesUnknown error ↔
    (∃ leafClass, error.kind = .leaf leafClass ∧
      (standIn error).isInstanceOf unknownOutcomeClasses) ∨
    ∃ member ∈ error.members, CarriesUnknown member := by
  constructor
  · rintro ⟨member, leafClass, hreaches, hkind, hunknown⟩
    rcases Links.reaches_iff.mp hreaches with rfl | ⟨child, hchild, hbelow⟩
    · exact Or.inl ⟨leafClass, hkind, hunknown⟩
    · exact Or.inr ⟨child, hchild, member, leafClass, hbelow, hkind, hunknown⟩
  · rintro (⟨leafClass, hkind, hunknown⟩ | ⟨child, hchild, member, leafClass, hbelow, hkind,
      hunknown⟩)
    · exact ⟨error, leafClass, .refl, hkind, hunknown⟩
    · exact ⟨member, leafClass, Links.reaches_iff.mpr (Or.inr ⟨child, hchild, hbelow⟩), hkind,
        hunknown⟩

theorem carriesUnknown_of_leaf {error : NativeError} {leafClass : LeafClass}
    (hkind : error.kind = .leaf leafClass) :
    CarriesUnknown error ↔ (standIn error).isInstanceOf unknownOutcomeClasses = true := by
  have hmembers : error.members = [] := by rw [members, hkind]
  rw [carriesUnknown_iff, hmembers]
  simp [hkind]

theorem kind_standIn {error : NativeError} {leafClass : LeafClass}
    (hkind : error.kind = .leaf leafClass) : ∃ standInClass, (standIn error).kind =
      .leaf standInClass := by
  rw [standIn]
  split_ifs
  · cases hwrapped : wrappedDispatchError error with
    | none => exact ⟨leafClass, hkind⟩
    | some wrapped =>
      exact kind_of_isInstanceOf (by decide) (Links.of_search_eq_some hwrapped).1
  · exact ⟨leafClass, hkind⟩

/-- In a restored error an unknown outcome is found exactly when its envelope carries one. -/
theorem containsUnknownOutcome_restore_iff (error : NativeError) :
    containsUnknownOutcome (restoreNativeError (nativeErrorEnvelope error)) = true ↔
      CarriesUnknown error := by
  obtain ⟨kind, info, cause, context, receipt⟩ := error
  cases kind with
  | leaf leafClass =>
    have hkind : (mk (.leaf leafClass) info cause context receipt).kind = .leaf leafClass := rfl
    obtain ⟨standInClass, hstandIn⟩ := kind_standIn hkind
    rw [nativeErrorEnvelope_of_leaf hkind, leafEnvelope, restoreNativeError_mk,
      if_neg (not_not.mpr rfl), containsUnknownOutcome_restoreLeaf,
      categoryOf_mem_unknownCategories hstandIn, carriesUnknown_of_leaf hkind]
  | cancellationEvidence primary evidence =>
    have hlost : ¬ CarriesUnknown (mk (.cancellationEvidence primary evidence) info cause context
        receipt) := by
      rw [carriesUnknown_iff]
      simp [members, NativeError.kind]
    rw [nativeErrorEnvelope, restoreNativeError_mk, if_pos (List.cons_ne_nil _ _)]
    simp only [List.map_cons, List.map_nil, restoreParent,
      containsUnknownOutcome_cancellationEvidence, hlost, Bool.false_eq_true]
  | group exceptions =>
    have hcarries : CarriesUnknown (mk (.group exceptions) info cause context receipt) ↔
        ∃ member ∈ exceptions, CarriesUnknown member := by
      rw [carriesUnknown_iff]
      simp [members, NativeError.kind]
    have hmembers : ∀ member ∈ exceptions,
        (containsUnknownOutcome (restoreNativeError (nativeErrorEnvelope member)) = true ↔
          CarriesUnknown member) := fun member hmember ↦
      containsUnknownOutcome_restore_iff member
    rw [nativeErrorEnvelope, restoreNativeError_mk, hcarries]
    simp only [List.map_subtype, List.unattach_attach, List.map_map]
    by_cases hempty : exceptions = []
    · rw [hempty, List.map_nil, if_neg (not_not.mpr rfl), containsUnknownOutcome_restoreLeaf]
      simp [unknownCategories]
    · rw [if_pos fun hnil ↦ hempty (List.map_eq_nil_iff.mp hnil), containsUnknownOutcome_group]
      simp only [List.mem_map, exists_exists_and_eq_and, Function.comp_apply]
      exact exists_congr fun member ↦ and_congr_right fun hmember ↦ hmembers member hmember
  termination_by sizeOf error
  decreasing_by
    have hlt := List.sizeOf_lt_of_mem hmember
    simp only [mk.sizeOf_spec, ErrorKind.group.sizeOf_spec]
    omega

/-! ### Agreement of the two processes -/

theorem containsUnknownOutcome_iff {error : NativeError} :
    containsUnknownOutcome error = true ↔ LinksUnknown error :=
  Links.contains_iff

/-- The parent and the worker agree on an error exactly when the error links to an unknown outcome
whenever its envelope carries one, and conversely. -/
theorem restored_agrees_iff (error : NativeError) :
    containsUnknownOutcome (restoreNativeError (nativeErrorEnvelope error)) =
        containsUnknownOutcome error ↔
      (LinksUnknown error ↔ CarriesUnknown error) := by
  rw [Bool.eq_iff_iff, containsUnknownOutcome_restore_iff, containsUnknownOutcome_iff]
  exact iff_comm

/-- The cancelled call that a worker was handling. -/
def cancelledIngest : NativeError :=
  plain .memorySystemCallCancelledUnknownOutcome
    { typeName := "MemorySystemCallCancelledUnknownOutcome"
      message := "memory ingest was cancelled"
      failureKind := some "cancelled" }

/-- What sealing the evidence of the cancelled call raises. -/
def evidenceFailure : NativeError :=
  mk (.leaf .baseException)
    { typeName := "ArtifactCollisionError", message := "artifact already exists" }
    none (some cancelledIngest) none

/-- A cancellation whose evidence could not be sealed: both errors are in its context, but the
parent restores neither of them where it searches. -/
theorem lost_cancellation_evidence :
    ¬ ∀ error, containsUnknownOutcome (restoreNativeError (nativeErrorEnvelope error)) =
      containsUnknownOutcome error := by
  intro hclaim
  have hagrees := hclaim (mk (.cancellationEvidence cancelledIngest evidenceFailure)
    { typeName := "NativeCancellationEvidenceError"
      message := "native cancellation and failure-evidence seal both failed" }
    none (some evidenceFailure) none)
  have hlinks : containsUnknownOutcome (mk (.cancellationEvidence cancelledIngest evidenceFailure)
      { typeName := "NativeCancellationEvidenceError"
        message := "native cancellation and failure-evidence seal both failed" }
      none (some evidenceFailure) none) = true := by
    refine containsUnknownOutcome_iff.mpr ⟨cancelledIngest, ?_, by rfl⟩
    refine Links.reaches_iff.mpr (Or.inr ⟨evidenceFailure, List.mem_singleton.mpr rfl, ?_⟩)
    exact Links.reaches_iff.mpr (Or.inr ⟨cancelledIngest, List.mem_singleton.mpr rfl, .refl⟩)
  rw [hlinks, nativeErrorEnvelope, restoreNativeError_mk, if_pos (List.cons_ne_nil _ _)] at hagrees
  simp only [List.map_cons, List.map_nil, restoreParent,
    containsUnknownOutcome_cancellationEvidence, Bool.false_eq_true] at hagrees

end Oamb.Runtime.ErrorEnvelope
