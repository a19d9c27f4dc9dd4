import PlusOne.Ingestion.ConfirmationReadback
import PlusOne.Ingestion.PeriodRuns

/-! # Read-backs right after a commit

The two commands of ingestion whose read-back compares a whole state. What a command commits is told
apart from what it expects by everything the tables do not keep. -/

namespace PlusOne

open Relational
open List (Forall₂)

/-! ## States between commands -/

/-- The batch has been confirmed. -/
def ImportBatchState.decided : ImportBatchState → Bool
  | posting | posted | partially_posted | failed => true
  | _ => false

theorem ImportBatchState.decided_of_precedes {old new : ImportBatchState} (h : old.precedes new = true)
    (hold : old.decided = true) : new.decided = true := by
  cases old with
  | posting => cases new <;> simp_all [precedes, decided]
  | posted | partially_posted | failed => cases new <;> simp_all [precedes, decided]
  | received | extracted | normalized | checked | awaiting_confirmation | approved | rejected =>
    simp [decided] at hold

/-- The references hold, and there are decisions on the rows of confirmed batches only. -/
structure IngestionDb.Consistent (d : IngestionDb) : Prop extends IngestionDb.Referenced d where
  decided : ∀ row ∈ d.rowDecisions, ∀ batch,
    IngestionRepository.lockBatch d row.importBatchId = some batch → batch.state.decided = true

/-- The transitions of a batch, by whatever service, keep this. -/
theorem IngestionRepository.transitionBatch_consistent {d d' : IngestionDb} {importBatchId : ImportBatchId}
    {old new : ImportBatchState} (hd : d.Consistent)
    (h : IngestionRepository.transitionBatch d importBatchId old new = .ok d') : d'.Consistent := by
  have hallowed : old.precedes new = true := by
    rw [transitionBatch, require_bind_eq_ok, require_bind_eq_ok] at h
    exact h.2.1
  obtain ⟨⟨batch, hbatch, hstate, hmoved⟩, hothers⟩ := lockBatch_transition h
  obtain ⟨-, rfl⟩ := transitionBatch_ok h
  refine ⟨⟨hd.items, hd.evidence⟩, ?_⟩
  intro row hrow found hfound
  by_cases hid : row.importBatchId = importBatchId
  · have hdecided := hd.decided row hrow batch (by rw [hid, hbatch])
    rw [hid, hmoved] at hfound
    cases hfound
    rw [hstate] at hdecided
    exact ImportBatchState.decided_of_precedes hallowed hdecided
  · rw [hothers _ hid] at hfound
    exact hd.decided row hrow found hfound

/-! ## The commands -/

inductive IngestionCommand (Draft : Type)
  | confirm_import_batch (proposal : ConfirmImportBatchProposal Draft)
  | record_reconciliation (proposal : ReconciliationProposal)

namespace IngestionCommand

variable {Draft : Type}

def execute (post : ConfirmImportBatch.Posting Draft) (d : IngestionDb) (command : IngestionCommand Draft)
    (context : CheckedCommand) : Except Thrown (MutationExecutionOutput × IngestionDb) :=
  match command with
  | confirm_import_batch proposal => ConfirmImportBatch.execute post d proposal context
  | record_reconciliation proposal => RecordReconciliation.execute d proposal context

def readback (d : IngestionDb) (command : IngestionCommand Draft) (expectedState : Json) :
    Except Thrown DomainReadbackOutput :=
  match command with
  | confirm_import_batch proposal => ConfirmImportBatch.readback d proposal expectedState
  | record_reconciliation proposal => RecordReconciliation.readback d proposal expectedState

/-- What the tables keep of the proposal is all of it. -/
def ReadsBack (d : IngestionDb) (command : IngestionCommand Draft) (context : CheckedCommand) : Prop :=
  match command with
  | confirm_import_batch proposal => ConfirmImportBatch.ReadsBack d proposal context
  | record_reconciliation proposal => RecordReconciliation.ReadsBack d proposal

variable {post : ConfirmImportBatch.Posting Draft} {d d' : IngestionDb} {command : IngestionCommand Draft}
  {context : CheckedCommand} {output : MutationExecutionOutput}

theorem first_decisions {proposal : ConfirmImportBatchProposal Draft} {batch : ImportBatchRow}
    {rows : List ImportRowDecisionRow} (hd : d.Consistent)
    (h : ConfirmImportBatch.Committed d d' proposal context batch rows) :
    ∀ row ∈ d.rowDecisions, row.importBatchId ≠ proposal.importBatchId := by
  intro row hrow hid
  obtain ⟨hbatch, hawaiting⟩ := h.awaiting
  have hdecided := hd.decided row hrow batch (by rw [hid, hbatch])
  rw [hawaiting] at hdecided
  cases hdecided

theorem execute_consistent (hd : d.Consistent) (h : command.execute post d context = .ok (output, d')) :
    d'.Consistent := by
  cases command with
  | confirm_import_batch proposal =>
    obtain ⟨-, batch, rows, hcommitted⟩ := ConfirmImportBatch.execute_ok h
    have hsame := hcommitted.reconciliations
    have hfirst := first_decisions hd hcommitted
    refine ⟨⟨?_, ?_⟩, ?_⟩
    · rw [hsame.items, hsame.reconciliations]
      exact hd.items
    · rw [hsame.evidence, hsame.reconciliations]
      exact hd.evidence
    · intro row hrow found hfound
      rw [hcommitted.rowDecisions] at hrow
      rcases List.mem_append.1 hrow with hold | hnew
      · rw [hcommitted.others _ (hfirst row hold)] at hfound
        exact hd.decided row hold found hfound
      · obtain ⟨decision, -, hmade⟩ := forall₂_mem_left hcommitted.decided.flip hnew
        rw [hmade.importBatchId, hcommitted.finished] at hfound
        cases hfound
        simp only [ConfirmImportBatch.terminalState]
        split <;> rfl
  | record_reconciliation proposal =>
    obtain ⟨-, columns, rows, hcommitted⟩ := RecordReconciliation.execute_ok h
    rw [hcommitted.state]
    refine ⟨⟨?_, ?_⟩, hd.decided⟩
    · intro item hitem
      rcases List.mem_append.1 hitem with hold | hnew
      · obtain ⟨row, hrow, hid⟩ := hd.items item hold
        exact ⟨row, List.mem_append_left _ hrow, hid⟩
      · obtain ⟨proposed, -, hmade⟩ := forall₂_mem_left hcommitted.items.flip hnew
        have hid := (ReconciliationRepository.itemId_made hmade).2
        exact ⟨_, List.mem_append_right _ (List.mem_singleton.2 rfl), hid.symm⟩
    · intro link hlink
      rcases List.mem_append.1 hlink with hold | hnew
      · obtain ⟨row, hrow, hid⟩ := hd.evidence link hold
        exact ⟨row, List.mem_append_left _ hrow, hid⟩
      · obtain ⟨artifactId, -, rfl⟩ := List.mem_map.1 hnew
        exact ⟨_, List.mem_append_right _ (List.mem_singleton.2 rfl), rfl⟩

/-- A read-back right after the commit passes exactly when the proposal is what the tables give back:
its lists in the order of their identifiers, its amounts with two fraction digits, its batch checked
with the artifact of the command. -/
theorem readback_passes_iff (hd : d.Consistent) (h : command.execute post d context = .ok (output, d')) :
    ReadbackPasses (command.readback d' output.expectedState.jsonb) ↔ command.ReadsBack d context := by
  cases command with
  | confirm_import_batch proposal =>
    obtain ⟨-, batch, rows, hcommitted⟩ := ConfirmImportBatch.execute_ok h
    exact ConfirmImportBatch.committed_passes_iff (first_decisions hd hcommitted) h
  | record_reconciliation proposal =>
    exact RecordReconciliation.committed_passes_iff hd.toReferenced h

end IngestionCommand

namespace TestCommitted

open IngestionCommand TestPeriods

def importBatchId : ImportBatchId := ⟨"01JNZQ4A9B8C7D6E5F4G3H2J1K", by decide⟩

def batch : ImportBatchRow where
  importBatchId := importBatchId
  householdId := TestReporting.householdId
  batchVersion := 1
  state := .awaiting_confirmation
  checkedArtifactId := some checkedArtifact.artifactId
  checkedArtifactHash := some checkedArtifact.artifactHash

def rawRowId : RawRowId := ⟨"01JNZQ4A9B8C7D6E5F4G3H2J1K", by decide⟩

def first : NormalizedRowId := ⟨"01JNZQ4A9B8C7D6E5F4G3H2J1K", by decide⟩

def second : NormalizedRowId := ⟨"01JNZQ4A9B8C7D6E5F4G3H2J2K", by decide⟩

def snapshotId : StatementSnapshotId := ⟨"01JNZQ4A9B8C7D6E5F4G3H2J1K", by decide⟩

/-- A batch of two rows awaits its confirmation, and the cash account has a statement. -/
def staged : IngestionDb :=
  { TestPeriods.db with
    importBatches := [batch]
    rawRows := [⟨rawRowId, importBatchId⟩]
    normalizedRows := [⟨first, rawRowId, 1⟩, ⟨second, rawRowId, 2⟩]
    statementSnapshots := [⟨snapshotId, TestReporting.householdId, TestReporting.cash.accountId⟩] }

theorem staged_consistent : staged.Consistent where
  items := by decide
  evidence := by decide
  decided := by
    intro row hrow
    have hnone : row ∈ ([] : List ImportRowDecisionRow) := hrow
    simp at hnone

/-- No draft is posted here. -/
def post : ConfirmImportBatch.Posting Unit := fun _ _ _ => .error (.error "No draft")

def deferred (normalizedRowId : NormalizedRowId) : ImportRowDecision Unit :=
  ⟨normalizedRowId, .defer, "later"⟩

def inOrder : IngestionCommand Unit := .confirm_import_batch
  { householdId := TestReporting.householdId, importBatchId, batchVersion := 1
    decisions := [deferred first, deferred second]
    decided := by simp
    once := by decide
    reasons := by decide }

def inReverse : IngestionCommand Unit := .confirm_import_batch
  { householdId := TestReporting.householdId, importBatchId, batchVersion := 1
    decisions := [deferred second, deferred first]
    decided := by simp
    once := by decide
    reasons := by decide }

/-- A proposal with an opening balance as it is given. -/
def reconciled (amount : DecimalString) : IngestionCommand Unit := .record_reconciliation
  { reconciliationId := ⟨"01JNZQ4A9B8C7D6E5F4G3H2JN2", by decide⟩
    householdId := TestReporting.householdId
    bookId := TestReporting.bookId
    accountId := TestReporting.cash.accountId
    statementSnapshotId := snapshotId
    periodStart := TestReporting.period.periodStart
    periodEnd := TestReporting.period.periodEnd
    currency := TestReporting.eur
    completionStatus := .reconciled
    unresolvedDiscrepancies := []
    balances := ⟨amount, ⟨false, 1000, 2⟩, ⟨false, 1000, 2⟩, ⟨false, 1000, 2⟩⟩
    evidenceArtifactIds := [checkedArtifact.artifactId]
    items := []
    valid := by rfl }

theorem exists_ok {α : Type} {result : Except Thrown α} (h : result.isOk = true) :
    ∃ value, result = .ok value := by
  cases result with
  | error error => cases h
  | ok value => exact ⟨value, rfl⟩

/-- Both commands commit, two decisions in the order of a list and ten euros written `10.0`, and
neither reads back. -/
theorem committed_readbacks_fail :
    (∃ output d', inReverse.execute post staged (command none) = .ok (output, d') ∧
      ¬ReadbackPasses (inReverse.readback d' output.expectedState.jsonb)) ∧
    ∃ output d', (reconciled ⟨false, 100, 1⟩).execute post staged (command none) = .ok (output, d') ∧
      ¬ReadbackPasses ((reconciled ⟨false, 100, 1⟩).readback d' output.expectedState.jsonb) := by
  constructor
  · have hok : (inReverse.execute post staged (command none)).isOk = true := by decide +kernel
    obtain ⟨⟨output, d'⟩, hexecute⟩ := exists_ok hok
    refine ⟨output, d', hexecute, ?_⟩
    obtain ⟨-, batch, rows, hcommitted⟩ := ConfirmImportBatch.execute_ok hexecute
    have hfirst := first_decisions staged_consistent hcommitted
    have hiff := ConfirmImportBatch.committed_passes_iff hfirst hexecute
    intro hpasses
    have hordered := (hiff.1 hpasses).decisions
    revert hordered
    decide +kernel
  · have hok : ((reconciled ⟨false, 100, 1⟩).execute post staged (command none)).isOk = true := by
      decide +kernel
    obtain ⟨⟨output, d'⟩, hexecute⟩ := exists_ok hok
    refine ⟨output, d', hexecute, ?_⟩
    have hiff := RecordReconciliation.committed_passes_iff staged_consistent.toReferenced hexecute
    intro hpasses
    have hprinted := (hiff.1 hpasses).balances.ledgerOpeningBalance.1
    cases hprinted

theorem readback_passes_iff_inOrder :
    ∃ output d', inOrder.execute post staged (command none) = .ok (output, d') ∧
      (ReadbackPasses (inOrder.readback d' output.expectedState.jsonb) ↔
        inOrder.ReadsBack staged (command none)) := by
  have hok : (inOrder.execute post staged (command none)).isOk = true := by decide +kernel
  obtain ⟨⟨output, d'⟩, hexecute⟩ := exists_ok hok
  exact ⟨output, d', hexecute, readback_passes_iff staged_consistent hexecute⟩

end TestCommitted

end PlusOne
