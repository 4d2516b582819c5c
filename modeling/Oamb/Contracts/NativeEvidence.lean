import Mathlib.Data.Int.Notation

/-!
# Native evidence

What a memory system returns for a question, one item each. The workloads read the same items that
the adapters of the memory systems write.
-/

set_option autoImplicit false

namespace Oamb.Contracts.NativeEvidence

structure NativeEvidenceCandidate where
  nativeId : String
  nativeRank1Indexed : ℤ
  content : String
  nativeScore : Option String
  providerEvidenceIdentity : Option String := none
  sourceUnitId : Option String := none
  evidenceKind : String := "native"
  occurredStart : Option String := none
  occurredEnd : Option String := none
  mentionedAt : Option String := none
  nativeReference : Option String := none
  nativeTruncated : Bool := false
  deriving DecidableEq

end Oamb.Contracts.NativeEvidence
