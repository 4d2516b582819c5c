import Oamb.Artifacts.AdminEvidence
import Oamb.Artifacts.ArtifactPaths
import Oamb.Artifacts.AtomicGuarantees
import Oamb.Artifacts.AtomicPublication
import Oamb.Artifacts.CapsuleFinalization
import Oamb.Artifacts.CapsuleGuarantees
import Oamb.Artifacts.CapsulePublication
import Oamb.Artifacts.CapsuleVerification
import Oamb.Artifacts.CheckpointChain
import Oamb.Artifacts.CheckpointGuarantees
import Oamb.Artifacts.FinalizationGuarantees
import Oamb.Artifacts.Mem0Evidence
import Oamb.Artifacts.Mem0EvidenceGuarantees
import Oamb.Artifacts.Mem0PlanGuarantees
import Oamb.Artifacts.OpenVikingEvidence
import Oamb.Artifacts.OpenVikingReadings
import Oamb.Artifacts.OpenVikingTraces
import Oamb.Artifacts.OpenVikingUsageGuarantees
import Oamb.Artifacts.WriteSequences
import Oamb.Config.ServiceProofGuarantees
import Oamb.Config.ServiceProofs
import Oamb.Contracts.AttemptRecords
import Oamb.Contracts.CanonicalDecimals
import Oamb.Contracts.FailureGuarantees
import Oamb.Contracts.Identities
import Oamb.Contracts.IngestionFailures
import Oamb.Contracts.NativeEvidence
import Oamb.Contracts.NativeStages
import Oamb.Foundation.Arrangements
import Oamb.Foundation.Base64
import Oamb.Foundation.BoundedSearch
import Oamb.Foundation.ByteTokenizers
import Oamb.Foundation.ConcurrentCalls
import Oamb.Foundation.CrashLogic
import Oamb.Foundation.CreateOnlyLog
import Oamb.Foundation.DecimalContext
import Oamb.Foundation.Dialogue
import Oamb.Foundation.Dictionary
import Oamb.Foundation.EditDistance
import Oamb.Foundation.FairCoin
import Oamb.Foundation.FileCalls
import Oamb.Foundation.FileSystem
import Oamb.Foundation.FileTrees
import Oamb.Foundation.FirstOccurrences
import Oamb.Foundation.GreedyWindows
import Oamb.Foundation.Hexadecimal
import Oamb.Foundation.JsonPaths
import Oamb.Foundation.JsonRendering
import Oamb.Foundation.JsonText
import Oamb.Foundation.JsonTrees
import Oamb.Foundation.JsonValues
import Oamb.Foundation.LabelledRuns
import Oamb.Foundation.Means
import Oamb.Foundation.Numerals
import Oamb.Foundation.PermitPool
import Oamb.Foundation.PointNumerals
import Oamb.Foundation.RelativeErrors
import Oamb.Foundation.ReservationAccount
import Oamb.Foundation.RetryDiscipline
import Oamb.Foundation.RoundedSums
import Oamb.Foundation.SegmentedRuns
import Oamb.Foundation.SeparatedEntries
import Oamb.Foundation.SignificantDigits
import Oamb.Foundation.StatefulExecution
import Oamb.Foundation.Templates
import Oamb.Foundation.TextFractions
import Oamb.Foundation.TextLines
import Oamb.Foundation.TextPatterns
import Oamb.Foundation.TreeSearch
import Oamb.Foundation.Uuids
import Oamb.Foundation.Whitespace
import Oamb.Live.Supervision
import Oamb.Live.SupervisionGuarantees
import Oamb.MemorySystems.AdminResponses
import Oamb.MemorySystems.DispatchBooks
import Oamb.MemorySystems.DispatchGuarantees
import Oamb.MemorySystems.EntityJoins
import Oamb.MemorySystems.ExactJson
import Oamb.MemorySystems.HindsightBanks
import Oamb.MemorySystems.HindsightGuarantees
import Oamb.MemorySystems.HindsightIngest
import Oamb.MemorySystems.HindsightProjection
import Oamb.MemorySystems.HindsightReadiness
import Oamb.MemorySystems.HindsightRecall
import Oamb.MemorySystems.Ingestion
import Oamb.MemorySystems.InspectorGuarantees
import Oamb.MemorySystems.Mem0Capture
import Oamb.MemorySystems.Mem0Ingest
import Oamb.MemorySystems.Mem0Inspector
import Oamb.MemorySystems.Mem0Projection
import Oamb.MemorySystems.Mem0ProjectionLaws
import Oamb.MemorySystems.Mem0Readiness
import Oamb.MemorySystems.Mem0Wire
import Oamb.MemorySystems.MessageDelivery
import Oamb.MemorySystems.OpenVikingGuarantees
import Oamb.MemorySystems.OpenVikingIngest
import Oamb.MemorySystems.OpenVikingSessions
import Oamb.MemorySystems.RecallGuarantees
import Oamb.MemorySystems.RestClient
import Oamb.MemorySystems.RestGuarantees
import Oamb.Reporting.AccountingGuarantees
import Oamb.Reporting.AccountingTotals
import Oamb.Reporting.AccuracyGuarantees
import Oamb.Reporting.AccuracyPairs
import Oamb.Reporting.AnalysisGuarantees
import Oamb.Reporting.AnalysisText
import Oamb.Reporting.Comparison
import Oamb.Reporting.ComparisonGuarantees
import Oamb.Reporting.ReportAnalysis
import Oamb.Reporting.WilsonErrors
import Oamb.Reporting.WilsonGuarantees
import Oamb.Reporting.WilsonInterval
import Oamb.Reporting.WilsonScores
import Oamb.Runtime.AllocationGuarantees
import Oamb.Runtime.AttemptCoordinator
import Oamb.Runtime.AttemptGuarantees
import Oamb.Runtime.CaseSelection
import Oamb.Runtime.CompletionDialogue
import Oamb.Runtime.CompletionRetry
import Oamb.Runtime.CompletionScripts
import Oamb.Runtime.ErrorEnvelope
import Oamb.Runtime.ExactAccounts
import Oamb.Runtime.InfrastructureRetry
import Oamb.Runtime.IngestionRuns
import Oamb.Runtime.LedgerBooks
import Oamb.Runtime.LedgerChecks
import Oamb.Runtime.LedgerExecution
import Oamb.Runtime.LedgerGuarantees
import Oamb.Runtime.LedgerOperations
import Oamb.Runtime.LedgerRuns
import Oamb.Runtime.MemoryQuery
import Oamb.Runtime.MemoryQueryGuarantees
import Oamb.Runtime.NativeErrors
import Oamb.Runtime.NativeSettlement
import Oamb.Runtime.OuterAttempts
import Oamb.Runtime.OwnerAllocations
import Oamb.Runtime.PipelineAdmission
import Oamb.Runtime.PipelineGuarantees
import Oamb.Runtime.PipelineProgress
import Oamb.Runtime.QuestionResults
import Oamb.Runtime.RecordedTimes
import Oamb.Runtime.ResourceAmounts
import Oamb.Runtime.ResourceArithmetic
import Oamb.Runtime.ResultGuarantees
import Oamb.Runtime.SettlementGuarantees
import Oamb.Runtime.ShutdownGuarantees
import Oamb.Runtime.ShutdownSequence
import Oamb.Runtime.UnknownOutcomes
import Oamb.Scripts.MigrationRuns
import Oamb.Scripts.MigrationSafety
import Oamb.Scripts.MigrationSteps
import Oamb.Scripts.ResumeMigration
import Oamb.Scripts.ResumeMigrationGuarantees
import Oamb.Workloads.BudgetGuarantees
import Oamb.Workloads.BudgetedEvidence
import Oamb.Workloads.BudgetedLines
import Oamb.Workloads.BudgetedPass
import Oamb.Workloads.EvidenceGuarantees
import Oamb.Workloads.EvidenceLabels
import Oamb.Workloads.EvidencePass
import Oamb.Workloads.EvidenceRendering
import Oamb.Workloads.Mab65Guarantees
import Oamb.Workloads.Mab65Reduction
import Oamb.Workloads.MovieResolution
import Oamb.Workloads.PromptRendering
import Oamb.Workloads.RankedMovies
import Oamb.Workloads.ResolutionGuarantees
import Oamb.Workloads.SessionDocuments
import Oamb.Workloads.TokenChunks
