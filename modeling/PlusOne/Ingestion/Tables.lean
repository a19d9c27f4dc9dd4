import PlusOne.Ledger.Tables
import PlusOne.Relational.Insert

/-! # The tables of staged imports and reconciliations

The ingestion schema and the tables migration 0006 adds to the accounting schema. They refer to
the ledger, whose tables they extend. -/

namespace PlusOne

open Relational

abbrev ImportBatchId := OpaqueId .importBatch
abbrev RawRowId := OpaqueId .rawRow
abbrev NormalizedRowId := OpaqueId .normalizedRow
abbrev StatementSnapshotId := OpaqueId .statementSnapshot
abbrev StatementLineId := OpaqueId .statementLine
abbrev ReconciliationId := OpaqueId .reconciliation
abbrev ReconciliationItemId := OpaqueId .reconciliationItem
abbrev PeriodEventId := OpaqueId .periodEvent
abbrev DiscrepancyId := OpaqueId .discrepancy

/-! ## Imports -/

inductive ImportBatchState
  | received | extracted | normalized | checked | awaiting_confirmation | approved | rejected
  | posting | posted | partially_posted | failed
  deriving DecidableEq

structure ImportBatchRow where
  importBatchId : ImportBatchId
  householdId : HouseholdId
  batchVersion : Nat
  state : ImportBatchState
  checkedArtifactId : Option ArtifactId
  checkedArtifactHash : Option ArtifactHash
  deriving DecidableEq

structure RawRow where
  rawRowId : RawRowId
  importBatchId : ImportBatchId
  deriving DecidableEq

structure NormalizedRow where
  normalizedRowId : NormalizedRowId
  rawRowId : RawRowId
  version : Nat
  deriving DecidableEq

inductive ImportAction
  | post | link_existing | defer | reject
  deriving DecidableEq

structure ImportRowDecisionRow where
  importBatchId : ImportBatchId
  normalizedRowId : NormalizedRowId
  checkedArtifactId : ArtifactId
  checkedArtifactHash : ArtifactHash
  action : ImportAction
  targetJournalId : Option JournalId
  reasonCode : String
  deriving DecidableEq

inductive SourceLinkKind
  | import_posted | matched_existing | reconciled
  deriving DecidableEq

structure JournalSourceLinkRow where
  journalId : JournalId
  normalizedRowId : NormalizedRowId
  linkKind : SourceLinkKind
  checkedArtifactId : ArtifactId
  deriving DecidableEq

/-! ## Statements, reconciliations and period events -/

structure StatementSnapshotRow where
  statementSnapshotId : StatementSnapshotId
  householdId : HouseholdId
  accountId : AccountId
  deriving DecidableEq

structure StatementLineRow where
  statementLineId : StatementLineId
  statementSnapshotId : StatementSnapshotId
  deriving DecidableEq

inductive CompletionStatus
  | reconciled | reconciled_with_exceptions | incomplete
  deriving DecidableEq

structure Discrepancy where
  discrepancyId : DiscrepancyId
  code : String
  detail : String
  deriving DecidableEq

/-- What a proposal to reconcile says of the reconciliation and its row repeats. -/
structure ReconciliationFacts where
  reconciliationId : ReconciliationId
  householdId : HouseholdId
  bookId : BookId
  accountId : AccountId
  statementSnapshotId : StatementSnapshotId
  periodStart : LocalDate
  periodEnd : LocalDate
  currency : CurrencyCode
  completionStatus : CompletionStatus
  unresolvedDiscrepancies : List Discrepancy
  deriving DecidableEq

/-- The balances of the ledger and of the statement at the two ends of the period. -/
structure Balances (Amount : Type) where
  ledgerOpeningBalance : Amount
  ledgerClosingBalance : Amount
  statementOpeningBalance : Amount
  statementClosingBalance : Amount
  deriving DecidableEq

structure ReconciliationRow extends ReconciliationFacts where
  balances : Balances DecimalAmount
  makerArtifactId : ArtifactId
  checkerArtifactId : ArtifactId
  deriving DecidableEq

inductive ReconciliationItemStatus
  | matched | unmatched | duplicate | disputed | timing_difference
  deriving DecidableEq

/-- An item as a proposal gives it, or as its row holds it. -/
structure ReconciliationItem (Amount : Type) where
  reconciliationItemId : ReconciliationItemId
  statementLineId : Option StatementLineId
  normalizedRowId : Option NormalizedRowId
  journalId : Option JournalId
  status : ReconciliationItemStatus
  amountDifference : Amount
  explanation : Option String
  deriving DecidableEq

structure ReconciliationItemRow extends ReconciliationItem DecimalAmount where
  reconciliationId : ReconciliationId
  deriving DecidableEq

structure ReconciliationEvidenceRow where
  reconciliationId : ReconciliationId
  artifactId : ArtifactId
  deriving DecidableEq

inductive PeriodEventType
  | closed | reopened
  deriving DecidableEq

/-- A period, as the repositories look it up. -/
structure PeriodKey where
  householdId : HouseholdId
  bookId : BookId
  periodId : PeriodId
  deriving DecidableEq

/-- What a command writes of an event. -/
structure PeriodEventFacts extends PeriodKey where
  periodEventId : PeriodEventId
  eventType : PeriodEventType
  priorEventId : Option PeriodEventId
  reconciliationIds : List ReconciliationId
  unresolvedDiscrepancyIds : List DiscrepancyId
  responsibleArtifactIds : List ArtifactId
  checkedArtifactId : ArtifactId
  confirmationId : Option ConfirmationId
  reason : Option String
  deriving DecidableEq

structure PeriodEventRow extends PeriodEventFacts where
  createdAt : UtcInstant
  deriving DecidableEq

structure IngestionDb extends LedgerDb where
  confirmations : List ConfirmationRow
  importBatches : List ImportBatchRow
  rawRows : List RawRow
  normalizedRows : List NormalizedRow
  rowDecisions : List ImportRowDecisionRow
  sourceLinks : List JournalSourceLinkRow
  statementSnapshots : List StatementSnapshotRow
  statementLines : List StatementLineRow
  reconciliations : List ReconciliationRow
  reconciliationItems : List ReconciliationItemRow
  reconciliationEvidence : List ReconciliationEvidenceRow
  periodEvents : List PeriodEventRow
  now : UtcInstant
  deriving DecidableEq

def PeriodRow.key (period : PeriodRow) : PeriodKey :=
  ⟨period.householdId, period.bookId, period.periodId⟩

namespace IngestionDb

variable (d : IngestionDb)

def findPeriod (key : PeriodKey) : Option PeriodRow := find PeriodRow.key key d.periods

def eventsOf (key : PeriodKey) : List PeriodEventRow :=
  d.periodEvents.filter fun event => event.toPeriodKey == key

end IngestionDb

end PlusOne
