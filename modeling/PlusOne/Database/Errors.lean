import PlusOne.Contracts.Errors

/-! # Error normalisation

Three layers turn what the driver raises into a `PlusOneError`: the generic
`normalizeDatabaseError`, the mutation repository's `normalizeMutationDatabaseError`
and the accounting repositories' `normalizeAccountingError`. -/

namespace PlusOne

structure DatabaseErrorContext where
  operation : String
  receiptLookupRequired : Bool := false

structure SqlStateMapping where
  category : ErrorCategory
  code : String
  retry : RetryDirective

/-- The `SQL_STATE_MAPPING` table. -/
def sqlStateMapping (sqlState : String) : Option SqlStateMapping :=
  if sqlState = "40001" then
    some ⟨.serialization_conflict, "database_serialization_conflict", .after_backoff⟩
  else if sqlState = "40P01" then some ⟨.serialization_conflict, "database_deadlock", .after_backoff⟩
  else if sqlState = "55P03" then some ⟨.timeout, "database_lock_timeout", .after_backoff⟩
  else if sqlState = "57014" then some ⟨.timeout, "database_statement_timeout", .after_backoff⟩
  else if sqlState = "08000" ∨ sqlState = "08003" ∨ sqlState = "08006" then
    some ⟨.storage_unavailable, "database_connection_failed", .after_backoff⟩
  else if sqlState = "57P01" then some ⟨.storage_unavailable, "database_shutdown", .after_backoff⟩
  else none

def isConstraintClass (sqlState : String) : Bool :=
  startsWith sqlState "22" || startsWith sqlState "23" || startsWith sqlState "2B"

def unmappedState (sqlState : Option String) : SqlStateMapping :=
  if sqlState.any isConstraintClass then
    ⟨.constraint_violation, "database_constraint_violation", .never⟩
  else ⟨.storage_unavailable, "database_operation_failed", .after_backoff⟩

def normalizeDatabaseError (error : Thrown) (context : DatabaseErrorContext) : PlusOneError :=
  match error with
  | .plusOne error => error
  | error =>
    let normalized := (error.code.bind sqlStateMapping).getD (unmappedState error.code)
    { category := normalized.category
      code := normalized.code
      retry := normalized.retry
      message :=
        if normalized.category = .constraint_violation then
          "The database rejected the requested state"
        else "Storage is unavailable"
      receiptLookupRequired := context.receiptLookupRequired
      details := ("operation", .text context.operation) ::
        (error.code.map fun state => ("sqlState", ErrorDetail.text state)).toList }

def constraintDetail (error : Thrown) : ErrorDetail :=
  .text (error.constraint.getD "unknown")

def exactArtifactConstraints : List String :=
  ["mutation_command_exact_artifact", "mutation_command_task_not_ready"]

def exactConfirmationConstraints : List String :=
  ["mutation_command_exact_confirmation", "mutation_command_confirmation_required"]

def commandStateConstraints : List String :=
  ["mutation_command_not_executable", "mutation_command_not_pending",
    "mutation_command_status_transition", "mutation_command_task_not_execution_pending",
    "mutation_command_receipt_required", "mutation_command_readback_required",
    "mutation_command_claim_required"]

def normalizeMutationDatabaseError (error : Thrown) : PlusOneError :=
  match error with
  | .plusOne error => error
  | error =>
    let constraint := error.constraint.getD ""
    if error.code = some "23514" ∧ (error.constraint = some "mutation_command_acceptance_required" ∨
        error.message.any (includes · "accepting checker verdict") = true) then
      { category := .checker_rejected
        code := "exact_checker_acceptance_required"
        message := "Mutation command lacks an accepting verdict for the exact proposal"
        retry := .never
        receiptLookupRequired := false
        details := [("constraint", constraintDetail error)] }
    else if error.code = some "23514" ∧ constraint ∈ exactConfirmationConstraints then
      { category := .confirmation_required
        code := "exact_external_confirmation_required"
        message := "Mutation command lacks a matching external confirmation observation"
        retry := .after_state_resolution
        receiptLookupRequired := false
        details := [("constraint", constraintDetail error)] }
    else if error.code = some "23514" ∧ constraint ∈ exactArtifactConstraints then
      { category := .validation_rejected
        code := "checked_proposal_identity_mismatch"
        message := "Mutation command does not match the current exact maker artifact"
        retry := .never
        receiptLookupRequired := false
        details := [("constraint", constraintDetail error)] }
    else if error.code = some "23514" ∧ constraint ∈ commandStateConstraints then
      { category := .serialization_conflict
        code := "mutation_command_state_conflict"
        message := "Mutation command state changed before the operation completed"
        retry := .after_state_resolution
        receiptLookupRequired := true
        details := [("constraint", constraintDetail error)] }
    else normalizeDatabaseError error { operation := "mutation-command" }

/-- `{ ...(failure.constraint === undefined ? {} : { constraint }) }` -/
def constraintDetails (error : Thrown) : List (String × ErrorDetail) :=
  (error.constraint.map fun constraint => ("constraint", ErrorDetail.text constraint)).toList

def checkedDraftConstraints : List String :=
  ["journals_latest_draft_only", "journals_accepted_artifact_required",
    "journals_exact_draft_metadata", "journals_exact_draft_postings"]

def normalizeAccountingError (error : Thrown) : PlusOneError :=
  match error with
  | .plusOne error => error
  | error =>
    if error.code = some "23514" ∧ error.constraint = some "journals_open_period_required" then
      { category := .period_closed
        code := "journal_period_closed"
        message := "The accounting period is closed or does not contain the effective date"
        retry := .after_state_resolution
        receiptLookupRequired := false
        details := constraintDetails error }
    else if error.code = some "23514" ∧ error.constraint.getD "" ∈ checkedDraftConstraints then
      { category := .checker_rejected
        code := "checked_draft_mismatch"
        message := "The journal does not match the latest exactly accepted draft artifact"
        retry := .never
        receiptLookupRequired := false
        details := constraintDetails error }
    else if error.code = some "55000" ∧
        error.constraint = some "accounts_posted_identity_immutable" then
      { category := .constraint_violation
        code := "posted_account_financial_identity_immutable"
        message := "Posted account class, normal balance, native currency, and identity are immutable"
        retry := .never
        receiptLookupRequired := false
        details := constraintDetails error }
    else if error.code = some "23505" ∧
        error.constraint = some "account_source_mappings_active_identity" then
      { category := .duplicate_replay
        code := "active_account_source_mapping_exists"
        message := "The source account identity already has an active mapping"
        retry := .after_state_resolution
        receiptLookupRequired := false
        details := constraintDetails error }
    else normalizeDatabaseError error { operation := "accounting" }

end PlusOne
