import PlusOne.Ingestion.Reconciliations

/-! # Confirming an import

The handler of `confirm_import_batch` over the statements of `IngestionRepository`. The decisions of
the proposal are expected to be read back as the outcome of the batch. -/

namespace PlusOne

open Relational

/-! ## Proposals -/

inductive RowChoice (Draft : Type)
  | post (draft : Draft)
  | link_existing (existingJournalId : JournalId)
  | defer
  | reject
  deriving DecidableEq

def RowChoice.action {Draft : Type} : RowChoice Draft → ImportAction
  | post _ => .post
  | link_existing _ => .link_existing
  | defer => .defer
  | reject => .reject

def RowChoice.existingJournal {Draft : Type} : RowChoice Draft → Option JournalId
  | link_existing existingJournalId => some existingJournalId
  | _ => none

structure ImportRowDecision (Draft : Type) where
  normalizedRowId : NormalizedRowId
  choice : RowChoice Draft
  reasonCode : String
  deriving DecidableEq

/-- What `ConfirmImportBatchProposalSchemaV1` accepts. -/
structure ConfirmImportBatchProposal (Draft : Type) where
  householdId : HouseholdId
  importBatchId : ImportBatchId
  batchVersion : Nat
  decisions : List (ImportRowDecision Draft)
  decided : decisions ≠ []
  once : (decisions.map ImportRowDecision.normalizedRowId).Nodup
  reasons : ∀ decision ∈ decisions, lengthBetween 1 256 decision.reasonCode = true

/-! ## Outcomes -/

def ImportBatchState.text : ImportBatchState → String
  | received => "received"
  | extracted => "extracted"
  | normalized => "normalized"
  | checked => "checked"
  | awaiting_confirmation => "awaiting_confirmation"
  | approved => "approved"
  | rejected => "rejected"
  | posting => "posting"
  | posted => "posted"
  | partially_posted => "partially_posted"
  | failed => "failed"

def ImportAction.text : ImportAction → String
  | post => "post"
  | link_existing => "link_existing"
  | defer => "defer"
  | reject => "reject"

structure RowOutcome where
  normalizedRowId : NormalizedRowId
  action : ImportAction

/-- The outcome of a batch, with the value of an aggregate that may be NULL. -/
structure BatchOutcome where
  importBatchId : ImportBatchId
  state : ImportBatchState
  decisions : List RowOutcome
  allRowsBoundToCheckedArtifact : Option Bool

def RowOutcome.entries (outcome : RowOutcome) : List (String × Option Json) :=
  [("normalizedRowId", some (.str outcome.normalizedRowId.text)),
    ("action", some (.str outcome.action.text))]

def RowOutcome.json (outcome : RowOutcome) : Json := record outcome.entries

def nullableBool : Option Bool → Json
  | none => .null
  | some value => .bool value

def BatchOutcome.entries (outcome : BatchOutcome) : List (String × Option Json) :=
  [("importBatchId", some (.str outcome.importBatchId.text)),
    ("state", some (.str outcome.state.text)),
    ("decisions", some (.arr (outcome.decisions.map RowOutcome.json))),
    ("allRowsBoundToCheckedArtifact", some (nullableBool outcome.allRowsBoundToCheckedArtifact))]

def BatchOutcome.json (outcome : BatchOutcome) : Json := record outcome.entries

/-! ## The statements -/

/-- The transitions `guard_import_batch_transition` lets through. -/
def ImportBatchState.precedes : ImportBatchState → ImportBatchState → Bool
  | received, extracted | received, failed | extracted, normalized | extracted, failed
  | normalized, checked | normalized, failed | checked, awaiting_confirmation
  | awaiting_confirmation, approved | awaiting_confirmation, rejected
  | approved, posting | posting, posted | posting, partially_posted | posting, failed => true
  | old, new => old == new

/-- Conjunction and `bool_and` of SQL, where `none` is NULL. -/
def sqlAnd : Option Bool → Option Bool → Option Bool
  | some true, some true => some true
  | some false, _ => some false
  | _, some false => some false
  | _, _ => none

def boolAnd (values : List (Option Bool)) : Option Bool :=
  if some false ∈ values then some false else if some true ∈ values then some true else none

namespace IngestionRepository

def fail (code : String) : Thrown :=
  .plusOne
    { category := .constraint_violation
      code
      message := "Ingestion repository operation failed"
      retry := .after_state_resolution
      receiptLookupRequired := false
      details := [] }

def invalidTransition : Thrown :=
  .pg { code := some "55000", constraint := some "import_batch_transition_invalid", message := "" }

def blankReason : Thrown :=
  .pg { code := some "23514", constraint := some "import_row_decisions_reason_nonempty"
        message := "new row violates check constraint" }

variable (d : IngestionDb)

def lockBatch (importBatchId : ImportBatchId) : Option ImportBatchRow :=
  find ImportBatchRow.importBatchId importBatchId d.importBatches

def movedBatch (importBatchId : ImportBatchId) (old new : ImportBatchState) (batch : ImportBatchRow) :
    ImportBatchRow :=
  if batch.importBatchId = importBatchId ∧ batch.state = old then { batch with state := new } else batch

/-- Without an artifact the columns of the checked one stay as they are. -/
def transitionBatch (importBatchId : ImportBatchId) (old new : ImportBatchState) :
    Except Thrown IngestionDb := do
  require ((lockBatch d importBatchId).any fun batch => batch.state == old)
    (fail "import_batch_transition_failed")
  require (old.precedes new) invalidTransition
  return { d with importBatches := d.importBatches.map (movedBatch importBatchId old new) }

/-- The journal is joined on the left, and is NULL where there is none. -/
def insertRowDecision (row : ImportRowDecisionRow) : Except Thrown IngestionDb := do
  require ((lockBatch d row.importBatchId).isSome &&
    (d.normalizedRows.any fun normalized => normalized.normalizedRowId == row.normalizedRowId) &&
    d.artifacts.any fun artifact => artifact.artifactId == row.checkedArtifactId)
    (fail "row_decision_insert_failed")
  require (row.reasonCode.toList.any (· != ' ')) blankReason
  require (!(d.rowDecisions.any fun old => old.importBatchId == row.importBatchId &&
    old.normalizedRowId == row.normalizedRowId)) (.pg (uniqueViolation "import_row_decisions_pkey"))
  return { d with rowDecisions := d.rowDecisions ++
    [{ row with targetJournalId := row.targetJournalId.filter fun id =>
        d.journals.any fun journal => journal.journalId == id }] }

def linkJournalSource (link : JournalSourceLinkRow) : Except Thrown IngestionDb := do
  require ((d.journals.any fun journal => journal.journalId == link.journalId) &&
    (d.normalizedRows.any fun normalized => normalized.normalizedRowId == link.normalizedRowId) &&
    d.artifacts.any fun artifact => artifact.artifactId == link.checkedArtifactId)
    (fail "journal_source_link_failed")
  require (!(d.sourceLinks.any fun old => old.journalId == link.journalId &&
    old.normalizedRowId == link.normalizedRowId && old.linkKind == link.linkKind))
    (.pg (uniqueViolation "journal_source_links_pkey"))
  return { d with sourceLinks := d.sourceLinks ++ [link] }

def decisionsOf (importBatchId : ImportBatchId) : List ImportRowDecisionRow :=
  d.rowDecisions.filter fun row => row.importBatchId == importBatchId

/-- Whether a decision was made under the checked artifact of its batch. -/
def bound (batch : ImportBatchRow) (row : ImportRowDecisionRow) : Option Bool :=
  sqlAnd (batch.checkedArtifactId.map (· == row.checkedArtifactId))
    (batch.checkedArtifactHash.map (· == row.checkedArtifactHash))

def rowOrder (row : ImportRowDecisionRow) : List Nat :=
  ReconciliationRepository.idOrder row.normalizedRowId

def readBatchOutcome (importBatchId : ImportBatchId) : Except Thrown BatchOutcome :=
  match lockBatch d importBatchId with
  | none => .error (fail "batch_outcome_not_found")
  | some batch => .ok
    { importBatchId := batch.importBatchId
      state := batch.state
      decisions := (orderBy rowOrder (decisionsOf d importBatchId)).map fun row =>
        ⟨row.normalizedRowId, row.action⟩
      allRowsBoundToCheckedArtifact := boolAnd ((decisionsOf d importBatchId).map (bound batch)) }

end IngestionRepository

/-! ## The handler -/

namespace ConfirmImportBatch

open IngestionRepository

variable {Draft : Type}

/-- `insertVersion` of a draft and `postInTransaction` of its journal, whatever they do to the tables of
the ledger. -/
abbrev Posting (Draft : Type) := CheckedCommand → Draft → LedgerDb → Except Thrown (JournalId × LedgerDb)

def decisionRow (importBatchId : ImportBatchId) (context : CheckedCommand)
    (decision : ImportRowDecision Draft) : ImportRowDecisionRow where
  importBatchId := importBatchId
  normalizedRowId := decision.normalizedRowId
  checkedArtifactId := context.checkedProposalId
  checkedArtifactHash := context.checkedProposalHash
  action := decision.choice.action
  targetJournalId := decision.choice.existingJournal
  reasonCode := decision.reasonCode

/-- The body of the loop over the decisions. -/
def applyDecision (post : Posting Draft) (importBatchId : ImportBatchId) (context : CheckedCommand)
    (decision : ImportRowDecision Draft) (d : IngestionDb) :
    Except Thrown (List CommittedRecordReference × IngestionDb) := do
  let d ← insertRowDecision d (decisionRow importBatchId context decision)
  match decision.choice with
  | .post draft =>
    let (journalId, ledger) ← post context draft d.toLedgerDb
    let d ← linkJournalSource { d with toLedgerDb := ledger }
      ⟨journalId, decision.normalizedRowId, .import_posted, context.checkedProposalId⟩
    return ([⟨"journal", journalId.text⟩], d)
  | .link_existing existingJournalId =>
    let d ← linkJournalSource d
      ⟨existingJournalId, decision.normalizedRowId, .matched_existing, context.checkedProposalId⟩
    return ([], d)
  | .defer | .reject => return ([], d)

def applyDecisions (post : Posting Draft) (importBatchId : ImportBatchId) (context : CheckedCommand) :
    List (ImportRowDecision Draft) → IngestionDb →
      Except Thrown (List CommittedRecordReference × IngestionDb)
  | [], d => .ok ([], d)
  | decision :: decisions, d => do
    let (records, d) ← applyDecision post importBatchId context decision d
    let (others, d) ← applyDecisions post importBatchId context decisions d
    return (records ++ others, d)

def terminalState (decisions : List (ImportRowDecision Draft)) : ImportBatchState :=
  if decisions.all fun decision => decision.choice.action == .post || decision.choice.action == .link_existing
  then .posted else .partially_posted

def expectedOutcome (proposal : ConfirmImportBatchProposal Draft) : BatchOutcome where
  importBatchId := proposal.importBatchId
  state := terminalState proposal.decisions
  decisions := proposal.decisions.map fun decision => ⟨decision.normalizedRowId, decision.choice.action⟩
  allRowsBoundToCheckedArtifact := some true

def execute (post : Posting Draft) (d : IngestionDb) (proposal : ConfirmImportBatchProposal Draft)
    (context : CheckedCommand) : Except Thrown (MutationExecutionOutput × IngestionDb) := do
  require ((lockBatch d proposal.importBatchId).any fun batch =>
    batch.state == .awaiting_confirmation && batch.batchVersion == proposal.batchVersion)
    (.error "Import proposal does not match locked batch")
  let d ← transitionBatch d proposal.importBatchId .awaiting_confirmation .approved
  let d ← transitionBatch d proposal.importBatchId .approved .posting
  let (records, d) ← applyDecisions post proposal.importBatchId context proposal.decisions d
  let d ← transitionBatch d proposal.importBatchId .posting (terminalState proposal.decisions)
  return ({ committedRecords := records ++ [⟨"import_batch", proposal.importBatchId.text⟩]
            expectedState := (expectedOutcome proposal).json }, d)

def readback (d : IngestionDb) (proposal : ConfirmImportBatchProposal Draft) (expectedState : Json) :
    Except Thrown DomainReadbackOutput := do
  let observed ← readBatchOutcome d proposal.importBatchId
  let artifactOk := observed.allRowsBoundToCheckedArtifact == some true
  let matching := canonicalText observed.json == canonicalText expectedState
  return {
    checks := [
      LedgerReadback.readbackCheck .source_links (!matching) "import_batch_outcome",
      LedgerReadback.readbackCheck .artifact_links (!artifactOk) "import_checked_provenance"]
    mismatches := if matching && artifactOk then [] else ["import_batch_readback_mismatch"]
    observedState := observed.json }

end ConfirmImportBatch

end PlusOne
