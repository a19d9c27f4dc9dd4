import PlusOne.Accounting.Texts
import PlusOne.Ingestion.Periods
import PlusOne.Ledger.JournalReadback
import PlusOne.Numeric.Printed
import PlusOne.Relational.Ordered
import PlusOne.Runtime.Records

/-! # Recording a reconciliation

The handler of `record_reconciliation` over the statements of `ReconciliationRepository`. The proposal
is what is expected to be read back; its lists and amounts go through tables that keep neither the
order of the one nor the spelling of the other. -/

namespace PlusOne

open Numeric Relational

/-! ## Proposals -/

def Balances.map {A B : Type} (f : A → B) (balances : Balances A) : Balances B where
  ledgerOpeningBalance := f balances.ledgerOpeningBalance
  ledgerClosingBalance := f balances.ledgerClosingBalance
  statementOpeningBalance := f balances.statementOpeningBalance
  statementClosingBalance := f balances.statementClosingBalance

/-- The four amounts satisfy a predicate. -/
structure Balances.All {A : Type} (P : A → Prop) (balances : Balances A) : Prop where
  ledgerOpeningBalance : P balances.ledgerOpeningBalance
  ledgerClosingBalance : P balances.ledgerClosingBalance
  statementOpeningBalance : P balances.statementOpeningBalance
  statementClosingBalance : P balances.statementClosingBalance

/-- What a proposal says of a reconciliation, and what is read of a stored one. -/
structure ReconciliationState extends ReconciliationFacts where
  balances : Balances DecimalString
  evidenceArtifactIds : List ArtifactId
  items : List (ReconciliationItem DecimalString)

/-- What `ReconciliationProposalSchemaV1` checks beyond the types of the fields. -/
def ReconciliationState.valid (state : ReconciliationState) : Bool :=
  !state.evidenceArtifactIds.isEmpty &&
    (state.items.all fun item => item.explanation.all (lengthBetween 0 2000)) &&
    state.unresolvedDiscrepancies.all fun discrepancy =>
      lengthBetween 1 160 discrepancy.code && lengthBetween 1 2000 discrepancy.detail

structure ReconciliationProposal extends ReconciliationState where
  valid : toReconciliationState.valid = true

/-! ## As JSON -/

def CompletionStatus.text : CompletionStatus → String
  | reconciled => "reconciled"
  | reconciled_with_exceptions => "reconciled_with_exceptions"
  | incomplete => "incomplete"

def ReconciliationItemStatus.text : ReconciliationItemStatus → String
  | matched => "matched"
  | unmatched => "unmatched"
  | duplicate => "duplicate"
  | disputed => "disputed"
  | timing_difference => "timing_difference"

def Discrepancy.entries (discrepancy : Discrepancy) : List (String × Option Json) :=
  [("discrepancyId", some (.str discrepancy.discrepancyId.text)),
    ("code", some (.str discrepancy.code)),
    ("detail", some (.str discrepancy.detail))]

def Discrepancy.json (discrepancy : Discrepancy) : Json := record discrepancy.entries

def ReconciliationItem.entries (item : ReconciliationItem DecimalString) : List (String × Option Json) :=
  [("reconciliationItemId", some (.str item.reconciliationItemId.text)),
    ("statementLineId", item.statementLineId.map fun id => .str id.text),
    ("normalizedRowId", item.normalizedRowId.map fun id => .str id.text),
    ("journalId", item.journalId.map fun id => .str id.text),
    ("status", some (.str item.status.text)),
    ("amountDifference", some (.str (decimalStringText item.amountDifference))),
    ("explanation", item.explanation.map .str)]

def ReconciliationItem.json (item : ReconciliationItem DecimalString) : Json := record item.entries

def ReconciliationState.entries (state : ReconciliationState) : List (String × Option Json) :=
  [("schemaName", some (.str "reconciliation-proposal")),
    ("schemaVersion", some (.ofNat 1)),
    ("reconciliationId", some (.str state.reconciliationId.text)),
    ("householdId", some (.str state.householdId.text)),
    ("bookId", some (.str state.bookId.text)),
    ("accountId", some (.str state.accountId.text)),
    ("statementSnapshotId", some (.str state.statementSnapshotId.text)),
    ("periodStart", some (.str state.periodStart.text)),
    ("periodEnd", some (.str state.periodEnd.text)),
    ("currency", some (.str state.currency.code)),
    ("ledgerOpeningBalance", some (.str (decimalStringText state.balances.ledgerOpeningBalance))),
    ("ledgerClosingBalance", some (.str (decimalStringText state.balances.ledgerClosingBalance))),
    ("statementOpeningBalance", some (.str (decimalStringText state.balances.statementOpeningBalance))),
    ("statementClosingBalance", some (.str (decimalStringText state.balances.statementClosingBalance))),
    ("evidenceArtifactIds", some (.arr (state.evidenceArtifactIds.map fun id => .str id.text))),
    ("items", some (.arr (state.items.map ReconciliationItem.json))),
    ("unresolvedDiscrepancies", some (.arr (state.unresolvedDiscrepancies.map Discrepancy.json))),
    ("completionStatus", some (.str state.completionStatus.text))]

/-- The row that is read back has the same keys, in whatever order. -/
def ReconciliationState.json (state : ReconciliationState) : Json := record state.entries

/-! ## The statements -/

namespace ReconciliationRepository

variable (d : IngestionDb)

/-- The rows the reconciliation refers to, each of its household. -/
def reconciliationJoined (facts : ReconciliationFacts) (makerArtifactId checkerArtifactId : ArtifactId) :
    Bool :=
  (d.households.any fun household => household.householdId == facts.householdId) &&
    (d.books.any fun book => book.householdId == facts.householdId && book.bookId == facts.bookId) &&
    (d.accounts.any fun account => account.householdId == facts.householdId &&
      account.bookId == facts.bookId && account.accountId == facts.accountId) &&
    (d.statementSnapshots.any fun snapshot => snapshot.householdId == facts.householdId &&
      snapshot.accountId == facts.accountId && snapshot.statementSnapshotId == facts.statementSnapshotId) &&
    (d.artifacts.any fun artifact => artifact.householdId == facts.householdId &&
      artifact.artifactId == makerArtifactId) &&
    d.artifacts.any fun artifact => artifact.householdId == facts.householdId &&
      artifact.artifactId == checkerArtifactId

def storedBalances (balances : Balances DecimalString) : Except Thrown (Balances DecimalAmount) := do
  let ledgerOpeningBalance ← stored (Fixed.store balances.ledgerOpeningBalance)
  let ledgerClosingBalance ← stored (Fixed.store balances.ledgerClosingBalance)
  let statementOpeningBalance ← stored (Fixed.store balances.statementOpeningBalance)
  let statementClosingBalance ← stored (Fixed.store balances.statementClosingBalance)
  return { ledgerOpeningBalance, ledgerClosingBalance, statementOpeningBalance, statementClosingBalance }

def unknownCurrency : Thrown :=
  .pg { code := some "23503", constraint := some "reconciliations_currency_fkey"
        message := "insert or update violates foreign key constraint" }

def insertReconciliation (state : ReconciliationState) (makerArtifactId checkerArtifactId : ArtifactId) :
    Except Thrown IngestionDb := do
  require (reconciliationJoined d state.toReconciliationFacts makerArtifactId checkerArtifactId)
    (fail "reconciliation_insert_failed")
  let balances ← storedBalances state.balances
  require (!(d.reconciliations.any fun old => old.reconciliationId == state.reconciliationId))
    (.pg (uniqueViolation "reconciliations_public_id_unique"))
  require (!(d.reconciliations.any fun old => old.statementSnapshotId == state.statementSnapshotId &&
    old.makerArtifactId == makerArtifactId)) (.pg (uniqueViolation "reconciliations_statement_maker_unique"))
  require (d.currencies.any fun row => row.currencyCode == state.currency) unknownCurrency
  return { d with reconciliations := d.reconciliations ++
    [{ toReconciliationFacts := state.toReconciliationFacts, balances, makerArtifactId, checkerArtifactId }] }

/-- The left joins: an identifier that no row has is not stored. -/
def joinedItem (reconciliationId : ReconciliationId) (item : ReconciliationItem DecimalString)
    (amountDifference : DecimalAmount) : ReconciliationItemRow where
  reconciliationItemId := item.reconciliationItemId
  statementLineId := item.statementLineId.filter fun id =>
    d.statementLines.any fun line => line.statementLineId == id
  normalizedRowId := item.normalizedRowId.filter fun id =>
    d.normalizedRows.any fun row => row.normalizedRowId == id
  journalId := item.journalId.filter fun id => d.journals.any fun journal => journal.journalId == id
  status := item.status
  amountDifference := amountDifference
  explanation := item.explanation
  reconciliationId := reconciliationId

def insertItem (reconciliationId : ReconciliationId) (item : ReconciliationItem DecimalString) :
    Except Thrown IngestionDb := do
  require (d.reconciliations.any fun row => row.reconciliationId == reconciliationId)
    (fail "reconciliation_item_insert_failed")
  let amountDifference ← stored (Fixed.store item.amountDifference)
  require (!(d.reconciliationItems.any fun old => old.reconciliationItemId == item.reconciliationItemId))
    (.pg (uniqueViolation "reconciliation_items_public_id_unique"))
  return { d with reconciliationItems :=
    d.reconciliationItems ++ [joinedItem d reconciliationId item amountDifference] }

def insertItems (reconciliationId : ReconciliationId) :
    List (ReconciliationItem DecimalString) → IngestionDb → Except Thrown IngestionDb
  | [], d => .ok d
  | item :: items, d => do
    let d ← insertItem d reconciliationId item
    insertItems reconciliationId items d

/-- An artifact of the household of the reconciliation. -/
def evidenceAdmitted (reconciliationId : ReconciliationId) (artifactId : ArtifactId) : Bool :=
  d.reconciliations.any fun row => row.reconciliationId == reconciliationId &&
    d.artifacts.any fun artifact =>
      artifact.householdId == row.householdId && artifact.artifactId == artifactId

def insertEvidenceLinks (reconciliationId : ReconciliationId) (artifactIds : List ArtifactId) :
    Except Thrown IngestionDb := do
  let reconciliationEvidence ← linkAll (evidenceAdmitted d reconciliationId)
    (fun _ => fail "reconciliation_evidence_insert_failed")
    (.pg (uniqueViolation "reconciliation_evidence_pkey"))
    (fun artifactId => ⟨reconciliationId, artifactId⟩) artifactIds d.reconciliationEvidence
  return { d with reconciliationEvidence }

/-- `to_char(amount, 'FM999999999999999999999999999990.00')` -/
def amountText (amount : DecimalAmount) : DecimalString := amount.printed 2

def readItem (row : ReconciliationItemRow) : ReconciliationItem DecimalString :=
  { row.toReconciliationItem with amountDifference := amountText row.amountDifference }

def itemsOf (reconciliationId : ReconciliationId) : List ReconciliationItemRow :=
  d.reconciliationItems.filter fun row => row.reconciliationId == reconciliationId

/-- The identifiers of one kind are in one order in every collation. -/
def idOrder {kind : IdKind} (id : OpaqueId kind) : List Nat := codeUnits id.text

/-- The references of the row are there, so the inner joins keep it. -/
def readReconciliation (reconciliationId : ReconciliationId) : Except Thrown ReconciliationState :=
  match find (fun row : ReconciliationRow => row.reconciliationId) reconciliationId d.reconciliations with
  | none => .error (fail "reconciliation_not_found")
  | some row => .ok
    { toReconciliationFacts := row.toReconciliationFacts
      balances := row.balances.map amountText
      evidenceArtifactIds := orderBy idOrder (evidenceOf d row)
      items := (orderBy (fun item : ReconciliationItemRow => idOrder item.reconciliationItemId)
        (itemsOf d reconciliationId)).map readItem }

end ReconciliationRepository

/-! ## The handler -/

namespace RecordReconciliation

open ReconciliationRepository

def execute (d : IngestionDb) (proposal : ReconciliationProposal) (context : CheckedCommand) :
    Except Thrown (MutationExecutionOutput × IngestionDb) := do
  let d ← insertReconciliation d proposal.toReconciliationState context.checkedProposalId
    context.checkedProposalId
  let d ← insertItems proposal.reconciliationId proposal.items d
  let d ← insertEvidenceLinks d proposal.reconciliationId proposal.evidenceArtifactIds
  return ({ committedRecords := [⟨"reconciliation", proposal.reconciliationId.text⟩]
            expectedState := proposal.toReconciliationState.json }, d)

def readback (d : IngestionDb) (proposal : ReconciliationProposal) (expectedState : Json) :
    Except Thrown DomainReadbackOutput := do
  let observed ← readReconciliation d proposal.reconciliationId
  let matching := canonicalText observed.json == canonicalText expectedState
  let evidenceOk := observed.evidenceArtifactIds.length == proposal.evidenceArtifactIds.length
  return {
    checks := [
      LedgerReadback.readbackCheck .row_values (!matching) "reconciliation_exact",
      LedgerReadback.readbackCheck .artifact_links (!evidenceOk) "reconciliation_evidence"]
    mismatches := if matching && evidenceOk then [] else ["reconciliation_readback_mismatch"]
    observedState := observed.json }

end RecordReconciliation

end PlusOne
