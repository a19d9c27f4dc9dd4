import PlusOne.Ingestion.Tables
import PlusOne.Relational.Dated

/-! # Closing and reopening periods

`PeriodCloseService` over the statements of `ReconciliationRepository`. -/

namespace PlusOne

open Relational

/-- What `PeriodCloseProposalSchemaV1` accepts. -/
structure PeriodCloseProposal extends PeriodKey where
  reconciliationIds : List ReconciliationId
  unresolvedDiscrepancyIds : List DiscrepancyId
  responsibleArtifactIds : List ArtifactId
  reconciled : reconciliationIds ≠ []
  responsible : responsibleArtifactIds ≠ []

/-- What `PeriodReopenProposalSchemaV1` accepts. -/
structure PeriodReopenProposal extends PeriodKey where
  reason : String
  priorCloseEventId : PeriodEventId
  reason_length : 1 ≤ Json.utf16Length reason ∧ Json.utf16Length reason ≤ 2000

structure PeriodCoverage where
  reconciliationIds : List ReconciliationId
  unresolvedDiscrepancyIds : List DiscrepancyId
  responsibleArtifactIds : List ArtifactId
  isOpen : Bool

/-- The state of a period a command expects to read back. -/
structure PeriodState where
  periodId : PeriodId
  isOpen : Bool
  periodEventId : PeriodEventId
  checkedArtifactId : ArtifactId
  confirmationId : Option ConfirmationId
  deriving DecidableEq

structure PeriodReadback where
  checks : List ReadbackCheck
  mismatches : List String
  observedState : PeriodState

structure PeriodOutput where
  committedRecords : List CommittedRecordReference
  expectedState : PeriodState

namespace ReconciliationRepository

def fail (code : String) : Thrown :=
  .plusOne
    { category := .constraint_violation
      code
      message := "Reconciliation repository operation failed"
      retry := .after_state_resolution
      receiptLookupRequired := false
      details := [] }

variable (d : IngestionDb)

/-- The reconciliations of exactly a period's dates. -/
def reconciliationsOf (period : PeriodRow) : List ReconciliationRow :=
  d.reconciliations.filter fun reconciliation =>
    reconciliation.householdId == period.householdId && reconciliation.bookId == period.bookId &&
      reconciliation.periodStart == period.periodStart && reconciliation.periodEnd == period.periodEnd

def evidenceOf (reconciliation : ReconciliationRow) : List ArtifactId :=
  (d.reconciliationEvidence.filter fun link =>
    link.reconciliationId == reconciliation.reconciliationId).map ReconciliationEvidenceRow.artifactId

def coverageOf (period : PeriodRow) : PeriodCoverage :=
  let reconciliations := reconciliationsOf d period
  { reconciliationIds := (reconciliations.map fun reconciliation => reconciliation.reconciliationId).dedup
    unresolvedDiscrepancyIds := (reconciliations.flatMap fun reconciliation =>
      reconciliation.unresolvedDiscrepancies.map Discrepancy.discrepancyId).dedup
    responsibleArtifactIds := (reconciliations.flatMap (evidenceOf d)).dedup
    isOpen := period.isOpen }

def readPeriodCoverage (key : PeriodKey) : Except Thrown PeriodCoverage :=
  match d.findPeriod key with
  | some period => .ok (coverageOf d period)
  | none => .error (fail "period_coverage_not_found")

/-- `ORDER BY event.created_at DESC LIMIT 1` -/
def readLatestPeriodEvent (key : PeriodKey) : Option PeriodEventRow :=
  (d.eventsOf key).argmax PeriodEventRow.createdAt

/-- The prior event is joined on its household, and is NULL where there is none. -/
def joinPrior (householdId : HouseholdId) (priorEventId : Option PeriodEventId) : Option PeriodEventId :=
  priorEventId.filter fun id => d.periodEvents.any fun event =>
    event.householdId == householdId && event.periodEventId == id

/-- So is the confirmation. -/
def joinConfirmation (householdId : HouseholdId) (confirmationId : Option ConfirmationId) :
    Option ConfirmationId :=
  confirmationId.filter fun id => d.confirmations.any fun row =>
    row.householdId == householdId && row.confirmationId == id

/-- The row of the statement, which `clock_timestamp()` dates. -/
def joinedEvent (event : PeriodEventFacts) : PeriodEventRow :=
  { event with
    priorEventId := joinPrior d event.householdId event.priorEventId
    confirmationId := joinConfirmation d event.householdId event.confirmationId
    createdAt := d.now }

/-- The clock has moved on when the statement returns. -/
def insertPeriodEvent (event : PeriodEventFacts) : Except Thrown IngestionDb := do
  require ((d.findPeriod event.toPeriodKey).isSome && d.artifacts.any fun artifact =>
    artifact.householdId == event.householdId && artifact.artifactId == event.checkedArtifactId)
    (fail "period_event_insert_failed")
  require (!(d.periodEvents.any fun old => old.periodEventId == event.periodEventId))
    (.pg (uniqueViolation "period_events_public_id_unique"))
  return { d with periodEvents := d.periodEvents ++ [joinedEvent d event], now := d.now + 1 }

def setPeriodStatus (key : PeriodKey) (isOpen : Bool) : Except Thrown IngestionDb := do
  require (d.findPeriod key).isSome (fail "period_status_update_failed")
  return { d with periods := d.periods.map fun period =>
    if period.key = key then { period with isOpen } else period }

/-- A period moved, with the event that moved it. -/
def recordEvent (event : PeriodEventFacts) (isOpen : Bool) : IngestionDb :=
  { d with
    periodEvents := d.periodEvents ++ [joinedEvent d event]
    periods := d.periods.map fun period =>
      if period.key = event.toPeriodKey then { period with isOpen } else period
    now := d.now + 1 }

/-- What the two statements of a command have checked, one after the other. -/
theorem recordEvent_ok {d d₁ d₂ : IngestionDb} {event : PeriodEventFacts} {isOpen : Bool}
    (hinsert : insertPeriodEvent d event = .ok d₁)
    (hstatus : setPeriodStatus d₁ event.toPeriodKey isOpen = .ok d₂) :
    (∃ artifact ∈ d.artifacts, artifact.householdId = event.householdId ∧
      artifact.artifactId = event.checkedArtifactId) ∧ d₂ = recordEvent d event isOpen := by
  rw [insertPeriodEvent, require_bind_eq_ok, require_bind_eq_ok] at hinsert
  obtain ⟨hjoined, -, hinsert⟩ := hinsert
  cases hinsert
  rw [setPeriodStatus, require_bind_eq_ok] at hstatus
  obtain ⟨-, hstatus⟩ := hstatus
  cases hstatus
  constructor
  · simpa using (Bool.and_eq_true_iff.1 hjoined).2
  · rfl

/-- The period of an event as it stands, with what the event records. -/
def observedState (periodEventId : PeriodEventId) : Option PeriodState := do
  let event ← find (fun event => event.periodEventId) periodEventId d.periodEvents
  let period ← d.findPeriod event.toPeriodKey
  return { periodId := period.periodId, isOpen := period.isOpen, periodEventId := event.periodEventId
           checkedArtifactId := event.checkedArtifactId, confirmationId := event.confirmationId }

end ReconciliationRepository

namespace PeriodCloseService

open ReconciliationRepository

def evidenceMismatch (periodId : PeriodId) : Thrown :=
  .plusOne
    { category := .constraint_violation
      code := "period_close_evidence_mismatch"
      message := "Checked close proposal does not match durable reconciliation coverage"
      retry := .after_state_resolution
      receiptLookupRequired := false
      details := [("periodId", .text periodId.text)] }

def confirmationRequired (periodId : PeriodId) : Thrown :=
  .plusOne
    { category := .confirmation_required
      code := "period_reopen_confirmation_required"
      message := "Period reopen requires exact external confirmation"
      retry := .after_state_resolution
      receiptLookupRequired := false
      details := [("periodId", .text periodId.text)] }

def staleClose (periodId : PeriodId) : Thrown :=
  .plusOne
    { category := .constraint_violation
      code := "period_reopen_stale_close"
      message := "Reopen must reference the latest close event"
      retry := .after_state_resolution
      receiptLookupRequired := false
      details := [("periodId", .text periodId.text)] }

/-- The proposal names what the coverage names. -/
def exact (coverage : PeriodCoverage) (proposal : PeriodCloseProposal) : Bool :=
  sameSet (coverage.reconciliationIds.map OpaqueId.text) (proposal.reconciliationIds.map OpaqueId.text) &&
    sameSet (coverage.unresolvedDiscrepancyIds.map OpaqueId.text)
      (proposal.unresolvedDiscrepancyIds.map OpaqueId.text) &&
    sameSet (coverage.responsibleArtifactIds.map OpaqueId.text)
      (proposal.responsibleArtifactIds.map OpaqueId.text)

def committed (key : PeriodKey) (periodEventId : PeriodEventId) : List CommittedRecordReference :=
  [⟨"period_event", periodEventId.text⟩, ⟨"accounting_period", key.periodId.text⟩]

def closeEvent (proposal : PeriodCloseProposal) (context : CheckedCommand)
    (periodEventId : PeriodEventId) : PeriodEventFacts :=
  { toPeriodKey := proposal.toPeriodKey, periodEventId, eventType := .closed, priorEventId := none
    reconciliationIds := proposal.reconciliationIds
    unresolvedDiscrepancyIds := proposal.unresolvedDiscrepancyIds
    responsibleArtifactIds := proposal.responsibleArtifactIds
    checkedArtifactId := context.checkedProposalId, confirmationId := none, reason := none }

def close (d : IngestionDb) (proposal : PeriodCloseProposal) (context : CheckedCommand)
    (periodEventId : PeriodEventId) : Except Thrown (PeriodOutput × IngestionDb) := do
  let coverage ← readPeriodCoverage d proposal.toPeriodKey
  require (exact coverage proposal && coverage.isOpen) (evidenceMismatch proposal.periodId)
  let d ← insertPeriodEvent d (closeEvent proposal context periodEventId)
  let d ← setPeriodStatus d proposal.toPeriodKey false
  return ({ committedRecords := committed proposal.toPeriodKey periodEventId
            expectedState := { periodId := proposal.periodId, isOpen := false, periodEventId
                               checkedArtifactId := context.checkedProposalId
                               confirmationId := none } }, d)

theorem close_ok {d d' : IngestionDb} {proposal : PeriodCloseProposal} {context : CheckedCommand}
    {periodEventId : PeriodEventId} {output : PeriodOutput}
    (h : close d proposal context periodEventId = .ok (output, d')) :
    ∃ period, d.findPeriod proposal.toPeriodKey = some period ∧ period.isOpen = true ∧
      exact (coverageOf d period) proposal = true ∧
      d' = recordEvent d (closeEvent proposal context periodEventId) false := by
  unfold close readPeriodCoverage at h
  cases hperiod : d.findPeriod proposal.toPeriodKey with
  | none =>
    rw [hperiod] at h
    cases h
  | some period =>
    rw [hperiod] at h
    have hchecked := require_bind_eq_ok.1 h
    obtain ⟨hexact, hopen⟩ := Bool.and_eq_true_iff.1 hchecked.1
    obtain ⟨d₁, hinsert, h₁⟩ := bind_eq_ok.1 hchecked.2
    obtain ⟨d₂, hstatus, h₂⟩ := bind_eq_ok.1 h₁
    cases h₂
    exact ⟨period, rfl, hopen, hexact, (recordEvent_ok hinsert hstatus).2⟩

def reopenEvent (proposal : PeriodReopenProposal) (context : CheckedCommand)
    (periodEventId : PeriodEventId) : PeriodEventFacts :=
  { toPeriodKey := proposal.toPeriodKey, periodEventId, eventType := .reopened
    priorEventId := some proposal.priorCloseEventId, reconciliationIds := []
    unresolvedDiscrepancyIds := [], responsibleArtifactIds := [context.checkedProposalId]
    checkedArtifactId := context.checkedProposalId, confirmationId := context.confirmationId
    reason := some proposal.reason }

def reopen (d : IngestionDb) (proposal : PeriodReopenProposal) (context : CheckedCommand)
    (periodEventId : PeriodEventId) : Except Thrown (PeriodOutput × IngestionDb) := do
  require context.confirmationId.isSome (confirmationRequired proposal.periodId)
  require ((readLatestPeriodEvent d proposal.toPeriodKey).any fun latest =>
    latest.eventType == .closed && latest.periodEventId == proposal.priorCloseEventId)
    (staleClose proposal.periodId)
  let d ← insertPeriodEvent d (reopenEvent proposal context periodEventId)
  let d ← setPeriodStatus d proposal.toPeriodKey true
  return ({ committedRecords := committed proposal.toPeriodKey periodEventId
            expectedState := { periodId := proposal.periodId, isOpen := true, periodEventId
                               checkedArtifactId := context.checkedProposalId
                               confirmationId := context.confirmationId } }, d)

theorem reopen_ok {d d' : IngestionDb} {proposal : PeriodReopenProposal} {context : CheckedCommand}
    {periodEventId : PeriodEventId} {output : PeriodOutput}
    (h : reopen d proposal context periodEventId = .ok (output, d')) :
    (∃ confirmationId, context.confirmationId = some confirmationId) ∧
      (∃ latest, readLatestPeriodEvent d proposal.toPeriodKey = some latest ∧
        latest.eventType = .closed ∧ latest.periodEventId = proposal.priorCloseEventId) ∧
      (∃ artifact ∈ d.artifacts, artifact.householdId = proposal.householdId ∧
        artifact.artifactId = context.checkedProposalId) ∧
      d' = recordEvent d (reopenEvent proposal context periodEventId) true := by
  rw [reopen, require_bind_eq_ok, require_bind_eq_ok] at h
  obtain ⟨hconfirmed, hlatest, h⟩ := h
  obtain ⟨d₁, hinsert, h₁⟩ := bind_eq_ok.1 h
  obtain ⟨d₂, hstatus, h₂⟩ := bind_eq_ok.1 h₁
  cases h₂
  obtain ⟨hartifact, hstate⟩ := recordEvent_ok hinsert hstatus
  have hclosed : ∃ latest, readLatestPeriodEvent d proposal.toPeriodKey = some latest ∧
      latest.eventType = .closed ∧ latest.periodEventId = proposal.priorCloseEventId := by
    simpa [Option.any_eq_true] using hlatest
  exact ⟨Option.isSome_iff_exists.1 hconfirmed, hclosed, hartifact, hstate⟩

/-- `readClose` and `readReopen`, which read the same. -/
def readPeriodMutation (d : IngestionDb) (expected : PeriodState) : Except Thrown PeriodReadback :=
  match observedState d expected.periodEventId with
  | none => .error (fail "period_event_not_found")
  | some observed =>
    let matching := observed == expected
    let artifactOk := observed.checkedArtifactId == expected.checkedArtifactId
    .ok { checks :=
            [⟨.row_values, if matching then .passed else .failed,
                if matching then none else some "period_event_state"⟩,
              ⟨.artifact_links, if artifactOk then .passed else .failed,
                if artifactOk then none else some "period_event_artifact"⟩]
          mismatches := if matching then [] else ["period_event_readback_mismatch"]
          observedState := observed }

end PeriodCloseService

end PlusOne
