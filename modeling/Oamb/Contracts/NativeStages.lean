import Mathlib.Tactic.Common

/-!
# The stages of a native run

Every provider dispatch of a native run belongs to a stage: eight operations of the memory system,
and the two model calls of a case.
-/

set_option autoImplicit false

namespace Oamb.Contracts.NativeStages

/-- A stage. -/
inductive NativeStage
  | runtimeResolve
  | scopeAllocate
  | memoryIngest
  | memoryReadiness
  | memoryProjection
  | preQueryProjection
  | memoryQuery
  | postQueryProjection
  | answer
  | judge
  deriving DecidableEq, Repr

/-- The name of a stage in a record. -/
def NativeStage.text : NativeStage → String
  | runtimeResolve => "runtime_resolve"
  | scopeAllocate => "scope_allocate"
  | memoryIngest => "memory_ingest"
  | memoryReadiness => "memory_readiness"
  | memoryProjection => "memory_projection"
  | preQueryProjection => "pre_query_projection"
  | memoryQuery => "memory_query"
  | postQueryProjection => "post_query_projection"
  | answer => "answer"
  | judge => "judge"

end Oamb.Contracts.NativeStages
