import AegisForge.Agents.CapabilityEvidence
import AegisForge.Agents.ForensicsAgents
import AegisForge.Agents.SourceLineage
import AegisForge.Agents.Worker
import AegisForge.Concurrency.Crash
import AegisForge.Concurrency.StagedAdvance
import AegisForge.Concurrency.Trace
import AegisForge.Core.Base64
import AegisForge.Core.Closure
import AegisForge.Core.CppLexing
import AegisForge.Core.CycleSearch
import AegisForge.Core.DepthFirst
import AegisForge.Core.Grouping
import AegisForge.Core.IntegerText
import AegisForge.Core.IsoOrder
import AegisForge.Core.IsoTime
import AegisForge.Core.JsonDecoded
import AegisForge.Core.JsonEquality
import AegisForge.Core.JsonIdentity
import AegisForge.Core.JsonLayout
import AegisForge.Core.JsonRoundTrip
import AegisForge.Core.JsonUpdate
import AegisForge.Core.KeyOrder
import AegisForge.Core.Layers
import AegisForge.Core.Lines
import AegisForge.Core.Merkle
import AegisForge.Core.ParentChain
import AegisForge.Core.Publication
import AegisForge.Core.PyDocument
import AegisForge.Core.PyValue
import AegisForge.Core.RaisesOnly
import AegisForge.Core.Ranking
import AegisForge.Core.Runs
import AegisForge.Core.Sha1
import AegisForge.Core.Sha256
import AegisForge.Core.StrictJson
import AegisForge.Core.Tally
import AegisForge.Core.TextSearch
import AegisForge.Core.TopologicalOrder
import AegisForge.Core.Url
import AegisForge.Core.Worklist
import AegisForge.Core.WrittenSize
import AegisForge.Orchestrator.FailureRecovery
import AegisForge.Orchestrator.ForensicsRoute
import AegisForge.Orchestrator.RoundVerdict
import AegisForge.Orchestrator.SchedulePlan
import AegisForge.Orchestrator.SchedulerRuns
import AegisForge.Orchestrator.TaskGraph
import AegisForge.ScamIntelligence.AddressExploration
import AegisForge.ScamIntelligence.ERC20TransferCollector
import AegisForge.ScamIntelligence.EntityLinker
import AegisForge.ScamIntelligence.FailedTransactions
import AegisForge.ScamIntelligence.LinkOrder
import AegisForge.ScamIntelligence.ScamInvestigator
import AegisForge.ScamIntelligence.TransactionTracer
import AegisForge.ScamIntelligence.TransferVerification
import AegisForge.Scripts.LiveRoots
import AegisForge.Scripts.MigrateCasesToRounds
import AegisForge.Shared.ActionOutcomes
import AegisForge.Shared.AnchoredAttestationReplay
import AegisForge.Shared.AnchoredJournal
import AegisForge.Shared.ArtifactBinding
import AegisForge.Shared.AttemptHistory
import AegisForge.Shared.AttemptLeases
import AegisForge.Shared.AttestationBinding
import AegisForge.Shared.AttestationRegistration
import AegisForge.Shared.AttestationReplayRegistry
import AegisForge.Shared.AttestationRoundTrip
import AegisForge.Shared.AttestationWorkflow
import AegisForge.Shared.AttestorRevocation
import AegisForge.Shared.AuthorityCrashes
import AegisForge.Shared.AuthorityEpochs
import AegisForge.Shared.AuthoritySerializability
import AegisForge.Shared.CaseBinding
import AegisForge.Shared.CaseBundleExport
import AegisForge.Shared.CaseDiagnosis
import AegisForge.Shared.CaseInheritance
import AegisForge.Shared.CaseRoundTrip
import AegisForge.Shared.CaseRounds
import AegisForge.Shared.CheckpointBinding
import AegisForge.Shared.CompactionRaces
import AegisForge.Shared.ContractRoundTrip
import AegisForge.Shared.Deadlines
import AegisForge.Shared.EvidenceClaims
import AegisForge.Shared.EvidenceContradictions
import AegisForge.Shared.EvidenceCounts
import AegisForge.Shared.EvidenceLedger
import AegisForge.Shared.EvidenceManifest
import AegisForge.Shared.EvidenceRoundTrip
import AegisForge.Shared.ExecutorIdentity
import AegisForge.Shared.ExperimentDossier
import AegisForge.Shared.GrantIdentity
import AegisForge.Shared.HistoryCompaction
import AegisForge.Shared.HumanReviews
import AegisForge.Shared.InclusionProofs
import AegisForge.Shared.IndependentRunnerAttestation
import AegisForge.Shared.JournalBinding
import AegisForge.Shared.LiveForest
import AegisForge.Shared.OutcomeProof
import AegisForge.Shared.OutcomeProofTotality
import AegisForge.Shared.ParentReadiness
import AegisForge.Shared.PendingAnchorSafety
import AegisForge.Shared.PendingAnchoredReplay
import AegisForge.Shared.PendingRegistrations
import AegisForge.Shared.PendingStanding
import AegisForge.Shared.PlannerIdle
import AegisForge.Shared.PlannerWork
import AegisForge.Shared.QueueEligibility
import AegisForge.Shared.QueueLifecycle
import AegisForge.Shared.QueueMaintenance
import AegisForge.Shared.QueueRecovery
import AegisForge.Shared.QueueSteps
import AegisForge.Shared.ReceiptRecording
import AegisForge.Shared.ReceiptRoundTrip
import AegisForge.Shared.RecoveryTemporal
import AegisForge.Shared.RecoveryTrust
import AegisForge.Shared.RecoveryTrustSystem
import AegisForge.Shared.RegistryAppends
import AegisForge.Shared.ReplayJournal
import AegisForge.Shared.ReplayRegistryRecovery
import AegisForge.Shared.RequestedIntent
import AegisForge.Shared.ResearchCase
import AegisForge.Shared.ResearchCaseBundle
import AegisForge.Shared.ResearchCaseRegistry
import AegisForge.Shared.ResultRetention
import AegisForge.Shared.RetryBudget
import AegisForge.Shared.RetryFencing
import AegisForge.Shared.RetryOrdering
import AegisForge.Shared.RetryTakeover
import AegisForge.Shared.RoundTransparency
import AegisForge.Shared.SharedSigner
import AegisForge.Shared.SignedContents
import AegisForge.Shared.SingleExecution
import AegisForge.Shared.SourceRecordVerifier
import AegisForge.Shared.TaskParentGraph
import AegisForge.Shared.TaskQueue
import AegisForge.Shared.TemporalProofs
import AegisForge.Shared.TrustEvaluation
import AegisForge.Shared.TrustGates
import AegisForge.Shared.TrustHistoryExport
import AegisForge.Shared.TrustHistoryVerification
import AegisForge.Shared.TrustTotality
import AegisForge.Shared.TrustedOutcomes
import AegisForge.Shared.WithdrawnAuthority
import AegisForge.Shared.WorkflowPublication
import AegisForge.Tools.ReplayAnchor
import AegisForge.Tools.SourceLexing
import AegisForge.Tools.SourceMask
import AegisForge.Tools.SourcePattern
import AegisForge.Shared.CaseBundleAcceptance
