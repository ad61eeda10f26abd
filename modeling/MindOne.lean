import MindOne.Lib.CheckedArithmetic
import MindOne.Lib.FieldFraming
import MindOne.Lib.HashChain
import MindOne.Lib.KeyedTable
import MindOne.Lib.RowLocks
import MindOne.Lib.ReadCommitted
import MindOne.Values
import MindOne.Accounting.Fixed
import MindOne.Accounting.Billing
import MindOne.Accounting.Policy
import MindOne.Accounting.ContributionRouting
import MindOne.Accounting.Ledger
import MindOne.Accounting.TamperEvidence
import MindOne.Accounting.Reserve
import MindOne.Accounting.ReserveRuns
import MindOne.Database.LedgerHash
import MindOne.Database.LedgerHeads
import MindOne.Database.LedgerInvariant
import MindOne.Database.LedgerTransactions
import MindOne.Coordinator.Ledgers
import MindOne.Coordinator.State
import MindOne.Coordinator.Requests
import MindOne.Coordinator.Releases
import MindOne.Coordinator.Nodes
import MindOne.Coordinator.Challenges
import MindOne.Coordinator.Leases
import MindOne.Coordinator.Occupancy
import MindOne.Coordinator.Settlement
import MindOne.Coordinator.Grants
import MindOne.Coordinator.LedgerEffects
import MindOne.Coordinator.JobLife
import MindOne.Coordinator.Transitions
import MindOne.Coordinator.Operations
import MindOne.Coordinator.Runs
import MindOne.Coordinator.Reservations
import MindOne.Coordinator.Attempts
import MindOne.Coordinator.Admission
import MindOne.Coordinator.Concurrency
import MindOne.Coordinator.Capacity
import MindOne.Coordinator.NodeSelection
import MindOne.Lib.LabelledRuns
import MindOne.Lib.LineReader
import MindOne.Worker.Policy
import MindOne.Worker.Accumulator
import MindOne.Worker.EventReader
import MindOne.Worker.Cuts
import MindOne.Worker.Responses
import MindOne.Worker.Transcripts
import MindOne.Worker.StreamedText
import MindOne.Worker.Loop
import MindOne.Worker.Slots
import MindOne.Worker.SlotPool
import MindOne.Worker.Temperature
import MindOne.Serve.Proxy
import MindOne.Serve.Cleanup
import MindOne.Lib.EventStream
import MindOne.Lib.Json
import MindOne.Stream.Events
import MindOne.Stream.Chunks
import MindOne.Stream.Framing
import MindOne.Stream.Log
import MindOne.Stream.Transcript
import MindOne.Stream.System
import MindOne.Stream.Reader
import MindOne.Stream.Consumers
import MindOne.Stream.Completeness
import MindOne.Stream.Gateway
import MindOne.Lib.KeysetPages
import MindOne.Lib.PgNumeric
import MindOne.Database.BillingContract
import MindOne.Accounting.BalanceAudit
import MindOne.Quota.Verification
import MindOne.Quota.History
import MindOne.Quota.StoredChains
import MindOne.Lib.Dialogues
import MindOne.Lib.Base64
import MindOne.Lib.JsonText
import MindOne.Regulated.Binding
import MindOne.Regulated.Envelopes
import MindOne.Regulated.Inference
import MindOne.Submission.Errors
import MindOne.Submission.FailureReports
import MindOne.Submission.Requests
import MindOne.Submission.Retry
import MindOne.Submission.Reports
import MindOne.Evaluations.Canary
import MindOne.Coordinator.Heartbeats
import MindOne.Lib.RollingWindow
import MindOne.Evaluations.Budget
import MindOne.Engine.ModelRecords
import MindOne.Engine.ModelRegistry
import MindOne.Engine.RegistryRuns
import MindOne.Auth.DeviceFlows
import MindOne.Auth.SingleUse
import MindOne.Evaluations.HiddenWork
import MindOne.Evaluations.Termination
import MindOne.Engine.Bundles
import MindOne.Engine.ShardNames
import MindOne.Engine.BundleFiles
import MindOne.Engine.BundleRuns
import MindOne.Engine.BundleResumption
import MindOne.Engine.Installs
import MindOne.Engine.InstallRuns
import MindOne.Engine.InstallCompletion
import MindOne.Coordinator.Draining
import MindOne.Coordinator.DrainingRuns
import MindOne.Coordinator.DrainingSteps
import MindOne.Coordinator.DrainingCompletion
import MindOne.Accounting.PhysicalQuotes
import MindOne.Accounting.ContributionLaw
import MindOne.Coordinator.VerifiedUptime
import MindOne.Coordinator.TagRules
import MindOne.Coordinator.Economy
import MindOne.Coordinator.Reapers
import MindOne.Coordinator.Stranding
import MindOne.Coordinator.HonorBands
import MindOne.Coordinator.HonorRanking
import MindOne.Lib.LatestPerKey
import MindOne.Evaluations.Arbitration
import MindOne.Lib.PrefixMatch
import MindOne.Lib.AddressText
import MindOne.AntiAbuse.AsnResolver
import MindOne.AntiAbuse.LongestPrefix
import MindOne.AntiAbuse.Decision
import MindOne.AntiAbuse.RiskMonotonicity
import MindOne.Accounting.Tier
import MindOne.Lib.RequantisedMean
import MindOne.Quality.Benchmarks
import MindOne.Quality.RunningMean
import MindOne.Coordinator.StandardData
import MindOne.Coordinator.StandardMigration
import MindOne.Lib.Spans
import MindOne.Engine.Safetensors
import MindOne.Engine.SafetensorsLayout
import MindOne.Lib.ByteReader
import MindOne.Engine.Gguf
import MindOne.Engine.GgufFormat
import MindOne.Engine.GgufLayout
import MindOne.Engine.GgufOrder
import MindOne.Lib.PaddedDecimals
import MindOne.Lib.PlacedScan
import MindOne.Engine.SplitPackages
import MindOne.Models.Files
import MindOne.Models.Verification
import MindOne.Models.VerifiedModels
import MindOne.Models.FoundModels
import MindOne.Models.Deletion
import MindOne.Models.Quarantine
import MindOne.Models.DeletionOutcome
import MindOne.Downloads.Download
import MindOne.Downloads.Publication
import MindOne.Downloads.Resumption
import MindOne.Downloads.Soundness
import MindOne.Archives.Tar
import MindOne.Archives.Trees
import MindOne.Archives.Links
import MindOne.Archives.Reading
import MindOne.Archives.Extraction
import MindOne.Lib.MixedOrders
import MindOne.Engine.Versions
import MindOne.Engine.VersionOrder
import MindOne.Engine.SemanticVersions
import MindOne.Engine.NewestEngine
import MindOne.Regulated.PayloadLimits
import MindOne.Lib.FixedWindows
import MindOne.Coordinator.RateLimiter
import MindOne.Coordinator.RateAccounting
import MindOne.Coordinator.RateEviction
import MindOne.Lib.OptionScans
import MindOne.Engine.ManagedArguments
import MindOne.Lib.FailingSteps
import MindOne.Engine.LogRotation
import MindOne.Engine.LogRetention
import MindOne.Engine.LogHistory
import MindOne.Lib.TableEvolution
import MindOne.Auth.EmailAccounts
import MindOne.Auth.EmailProvenance
import MindOne.Auth.EmailSessions
import MindOne.Auth.ApiKeys
import MindOne.Auth.AccessRevocation
import MindOne.Auth.AccessControl
import MindOne.Attestation.Challenges
import MindOne.Attestation.Submissions
import MindOne.Attestation.HardwareTrust
import MindOne.Attestation.PreparedRoutes
import MindOne.Attestation.RouteAcceptance
