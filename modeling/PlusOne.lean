import PlusOne.Interleaving.Program
import PlusOne.Interleaving.System
import PlusOne.Interleaving.RelyGuarantee
import PlusOne.Interleaving.Positions
import PlusOne.Interleaving.History
import PlusOne.Interleaving.Store
import PlusOne.Numeric.Decimal
import PlusOne.Numeric.Values
import PlusOne.Relational.Upsert
import PlusOne.Relational.Sums
import PlusOne.Relational.Computed
import PlusOne.Relational.Insert
import PlusOne.Contracts.Json
import PlusOne.Contracts.Identifiers
import PlusOne.Contracts.Errors
import PlusOne.Contracts.Verification
import PlusOne.Contracts.Mutations
import PlusOne.Contracts.Time
import PlusOne.Contracts.Channels
import PlusOne.Contracts.WorkingMemory
import PlusOne.Contracts.PendingInteraction
import PlusOne.Contracts.Money
import PlusOne.Contracts.Accounting
import PlusOne.Database.Errors
import PlusOne.Database.Jsonb
import PlusOne.Database.Tables
import PlusOne.Database.Session
import PlusOne.Mutations.Registry
import PlusOne.Mutations.Repository
import PlusOne.Mutations.Resolver
import PlusOne.Mutations.Runner
import PlusOne.Mutations.Executor
import PlusOne.Mutations.Steps
import PlusOne.Mutations.CallSteps
import PlusOne.Mutations.Consistency
import PlusOne.Mutations.Discipline
import PlusOne.Mutations.Pool
import PlusOne.Mutations.ClientSpec
import PlusOne.Mutations.RunnerSpec
import PlusOne.Mutations.ExecutorSpec
import PlusOne.Mutations.ExactlyOnce
import PlusOne.Mutations.Review
import PlusOne.Mutations.CheckedExecution
import PlusOne.Mutations.Retry
import PlusOne.Mutations.Conflicts
import PlusOne.Mutations.ConflictRuns
import PlusOne.Verification.StateMachine
import PlusOne.Verification.Ledger
import PlusOne.Verification.Runtime
import PlusOne.Verification.TaskHistory
import PlusOne.Verification.HistoryRuns
import PlusOne.Interactions.Table
import PlusOne.Interactions.Repository
import PlusOne.Interactions.Decoding
import PlusOne.Interactions.Lifecycle
import PlusOne.Interactions.LifecycleRuns
import PlusOne.Deliveries.Table
import PlusOne.Deliveries.Handler
import PlusOne.Deliveries.AtMostOnce
import PlusOne.Gateway.Registry
import PlusOne.Gateway.Inbound
import PlusOne.Gateway.TurnOrder
import PlusOne.Gateway.Works
import PlusOne.Gateway.InboundRuns
import PlusOne.Ledger.Tables
import PlusOne.Reporting.Projections
import PlusOne.Reporting.CurrentBalances
import PlusOne.Reporting.Rebuild
import PlusOne.Reporting.DailyBalances
import PlusOne.Reporting.Drift
import PlusOne.Memory.Taxonomy
import PlusOne.Memory.Document
import PlusOne.Memory.Review
import PlusOne.Memory.Isolation
import PlusOne.Deliveries.Final
import PlusOne.Interleaving.Solo
import PlusOne.Scheduling.Tables
import PlusOne.Scheduling.Claims
import PlusOne.Scheduling.ClaimRuns
import PlusOne.Scheduling.Progress
import PlusOne.Interleaving.Exclusive
import PlusOne.Memory.ResourceMutex
import PlusOne.Memory.MutexRuns
import PlusOne.Memory.Session
import PlusOne.Memory.Stored
import PlusOne.Verification.Coverage
import PlusOne.Verification.CoverageRuns
import PlusOne.Verification.Invocations
import PlusOne.Verification.WorkCells
import PlusOne.Verification.WorkCellRuns
import PlusOne.Ingestion.Tables
import PlusOne.Ingestion.Periods
import PlusOne.Relational.Dated
import PlusOne.Ingestion.PeriodRuns
import PlusOne.Verification.TeamResults
import PlusOne.Planning.Tables
import PlusOne.Planning.Budgets
import PlusOne.Relational.Joins
import PlusOne.Reporting.BudgetVariance
import PlusOne.Relational.Parts
import PlusOne.Planning.SavingsGoals
import PlusOne.Planning.Records
import PlusOne.Planning.Readback
import PlusOne.Ledger.JournalReadback
import PlusOne.Reporting.Currencies
import PlusOne.Reporting.CurrencyRuns
import PlusOne.Pairing.Service
import PlusOne.Pairing.PairingRuns
import PlusOne.Transactions.Sessions
import PlusOne.Migrations.Runner
import PlusOne.Migrations.Migration
import PlusOne.Migrations.Histories
import PlusOne.Gateway.Turns
import PlusOne.Gateway.TurnOverlap
import PlusOne.Workflows.OrchestratorLoop
import PlusOne.Workflows.PendingDecided
import PlusOne.Accounting.Amounts
import PlusOne.Workflows.Delegations
import PlusOne.Coding.Separated
import PlusOne.Ingestion.Fingerprints
import PlusOne.Runtime.CanonicalJson
import PlusOne.Ingestion.SourceExtraction
import PlusOne.Query.EvidenceSession
import PlusOne.Interactions.RoundTrip
import PlusOne.Mutations.ReadbackRecord
import PlusOne.Runtime.Records
import PlusOne.Accounting.Texts
import PlusOne.Numeric.Printed
import PlusOne.Relational.Ordered
import PlusOne.Ingestion.Reconciliations
import PlusOne.Ingestion.ReconciliationReadback
import PlusOne.Ingestion.Confirmations
import PlusOne.Ingestion.ConfirmationReadback
import PlusOne.Ingestion.CommittedReadbacks
import PlusOne.Verification.Supervision
import PlusOne.Interleaving.Alone
import PlusOne.Pairing.Guessing
import PlusOne.Memory.Canonical
import PlusOne.Memory.Readback
import PlusOne.Transitions.Runs
import PlusOne.Logging.Dispatcher
import PlusOne.Logging.Accounting
import PlusOne.Logging.Flushing
import PlusOne.Logging.DispatcherRuns
import PlusOne.Logging.ControlRecords
import PlusOne.Logging.Closing
import PlusOne.Logging.Recoveries
import PlusOne.Patterns.Sequence
import PlusOne.Deliveries.MarkdownV2
import PlusOne.Deliveries.TelegramMarkdown
import PlusOne.Deliveries.TelegramReading
import PlusOne.Patterns.Cuts
import PlusOne.Database.Lexis
import PlusOne.Migrations.Splitting
import PlusOne.Budgeting.Known
import PlusOne.Budgeting.Request
import PlusOne.Budgeting.Grounding
import PlusOne.Sorting.Comparing
import PlusOne.Memory.ReviewOrder
import PlusOne.Memory.ReviewFindings
import PlusOne.Memory.Reviewed
import PlusOne.Memory.Reviewed
import PlusOne.Relational.Recursive
import PlusOne.Ledger.Hierarchy
import PlusOne.Verification.AgentRuns
import PlusOne.Verification.AgentRuns
import PlusOne.Gateway.Polling
import PlusOne.Gateway.PollingRuns
import PlusOne.Gateway.PollingRuns
import PlusOne.Memory.OpaqueIdentifiers
import PlusOne.Memory.OpaqueRedaction
import PlusOne.Memory.OpaqueRedaction
import PlusOne.Calendar.Gregorian
import PlusOne.Ledger.MonthlyBounds
import PlusOne.Ledger.MonthlyBounds
import PlusOne.Ledger.MonthlyPeriodRuns
import PlusOne.Ledger.MonthlyPeriods
import PlusOne.Ledger.MonthlyPeriodRuns
import PlusOne.Relational.ActiveRows
import PlusOne.Planning.ActiveRecords
import PlusOne.Planning.GoalRecords
import PlusOne.Planning.ObligationRecords
import PlusOne.Planning.DebtPlanRecords
import PlusOne.Planning.UpsertRuns
import PlusOne.Planning.Activation
import PlusOne.Planning.Activated
import PlusOne.Reporting.BudgetFrames
import PlusOne.Reporting.BudgetIndependence
import PlusOne.Coding.Digits
import PlusOne.Memory.EntryIds
import PlusOne.Files.Lines
import PlusOne.Logging.Envelopes
import PlusOne.Logging.FileSink
import PlusOne.Logging.Renaming
import PlusOne.Logging.Rotation
import PlusOne.Patterns.Classes
import PlusOne.Logging.RotationRuns
import PlusOne.Logging.LogReader
import PlusOne.Logging.Reading
import PlusOne.Logging.Following
import PlusOne.Logging.FollowingRuns
