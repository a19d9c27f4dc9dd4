import PlusOne.Contracts.Verification

/-! # Checked commands, receipts and read-backs -/

namespace PlusOne

inductive CommandStatus
  | registered | execution_pending | committed | readback_verified | execution_failed
  | readback_failed
  deriving DecidableEq

/-- A candidate for `CheckedCommandSchemaV1`. The payload is a JavaScript value, so its objects
have distinct keys. -/
structure CheckedCommand where
  commandId : MutationCommandId
  householdId : HouseholdId
  taskId : TaskId
  checkedProposalId : ArtifactId
  checkedProposalHash : ArtifactHash
  commandType : String
  idempotencyKey : IdempotencyKey
  confirmationId : Option ConfirmationId
  payloadSchema : SchemaIdentity
  payload : Json
  payload_keyed : payload.keyed = true
  deriving DecidableEq

/-- `^[a-z][a-z0-9_]{2,63}$` -/
def isCommandType (s : String) : Bool :=
  match s.toList with
  | first :: rest =>
    isLower first && decide (2 ≤ rest.length) && decide (rest.length ≤ 63) &&
      rest.all fun c => isLower c || c.isDigit || c == '_'
  | [] => false

/-- What `CheckedCommandSchemaV1` checks beyond the types of the fields. -/
def CheckedCommand.valid (command : CheckedCommand) : Bool :=
  isCommandType command.commandType && command.payloadSchema.valid

structure CommittedRecordReference where
  recordType : String
  recordId : String
  deriving DecidableEq

/-- `^[a-z][a-z0-9_.]{2,127}$` and an identifier of 1 to 160 characters. -/
def CommittedRecordReference.valid (record : CommittedRecordReference) : Bool :=
  (match record.recordType.toList with
    | first :: rest =>
      isLower first && decide (2 ≤ rest.length) && decide (rest.length ≤ 127) &&
        rest.all fun c => isLower c || c.isDigit || c == '_' || c == '.'
    | [] => false) &&
    decide (1 ≤ Json.utf16Length record.recordId) && decide (Json.utf16Length record.recordId ≤ 160)

/-- Instants are milliseconds since the epoch. -/
abbrev UtcInstant := Nat

structure MutationReceipt where
  receiptId : MutationReceiptId
  commandId : MutationCommandId
  householdId : HouseholdId
  taskId : TaskId
  checkedProposalId : ArtifactId
  checkedProposalHash : ArtifactHash
  commandType : String
  idempotencyKey : IdempotencyKey
  committedRecords : List CommittedRecordReference
  expectedState : Json
  expectedStateHash : ArtifactHash
  committedAt : UtcInstant
  deriving DecidableEq

/-- What `MutationReceiptSchemaV1` checks beyond the types of the fields. -/
def MutationReceipt.valid (receipt : MutationReceipt) : Bool :=
  isCommandType receipt.commandType && !receipt.committedRecords.isEmpty &&
    receipt.committedRecords.all CommittedRecordReference.valid

inductive ReadbackCheckKind
  | identifiers | row_values | balances | source_links | artifact_links | idempotency_receipt
  deriving DecidableEq

def ReadbackCheckKind.text : ReadbackCheckKind → String
  | identifiers => "identifiers"
  | row_values => "row_values"
  | balances => "balances"
  | source_links => "source_links"
  | artifact_links => "artifact_links"
  | idempotency_receipt => "idempotency_receipt"

inductive CheckStatus
  | passed | failed | not_applicable
  deriving DecidableEq

structure ReadbackCheck where
  kind : ReadbackCheckKind
  status : CheckStatus
  detailCode : Option String
  deriving DecidableEq

def ReadbackCheck.valid (check : ReadbackCheck) : Bool :=
  (check.detailCode.all fun code => decide (1 ≤ Json.utf16Length code) &&
    decide (Json.utf16Length code ≤ 128)) && (check.status != .failed || check.detailCode.isSome)

structure ReadbackResult where
  readbackId : MutationReadbackId
  commandId : MutationCommandId
  receiptId : MutationReceiptId
  ok : Bool
  checks : List ReadbackCheck
  mismatches : List String
  observedStateHash : ArtifactHash
  deriving DecidableEq

/-- What `ReadbackResultSchemaV1` checks beyond the types of the fields. -/
def ReadbackResult.valid (result : ReadbackResult) : Bool :=
  let failed := result.checks.any fun check => check.status == .failed
  !result.checks.isEmpty && result.checks.all ReadbackCheck.valid &&
    (result.mismatches.all fun mismatch => decide (1 ≤ Json.utf16Length mismatch) &&
      decide (Json.utf16Length mismatch ≤ 256)) &&
    decide (result.checks.map ReadbackCheck.kind).Nodup &&
    !(result.ok && (failed || !result.mismatches.isEmpty)) &&
    !(!result.ok && !failed && result.mismatches.isEmpty)

end PlusOne
