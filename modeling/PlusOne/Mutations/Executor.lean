import PlusOne.Mutations.Resolver
import PlusOne.Mutations.Runner

/-! # The checked mutation executor -/

namespace PlusOne

open Interleaving

/-- The dependencies of an executor that are not the database. -/
structure Executor where
  platform : Platform
  registry : CommandRegistry
  policy : SerializableMutationPolicy

/-- What a successful `execute` returns; its status is always `readback_verified`. -/
structure Verified where
  receipt : MutationReceipt
  readback : ReadbackResult

/-! ## Errors -/

def artifactNotFound (artifactId : ArtifactId) : PlusOneError :=
  { category := .validation_rejected
    code := "artifact_not_found"
    message := "Artifact was not found"
    retry := .never
    receiptLookupRequired := false
    details := [("artifactId", .text artifactId.text)] }

def artifactHashMismatch (artifactId : ArtifactId) : PlusOneError :=
  { category := .constraint_violation
    code := "artifact_hash_mismatch"
    message := "Stored artifact failed hash verification"
    retry := .never
    receiptLookupRequired := false
    details := [("artifactId", .text artifactId.text)] }

def checkerVerdictStorageMismatch (taskId : TaskId) : PlusOneError :=
  { category := .constraint_violation
    code := "checker_verdict_storage_mismatch"
    message := "Stored checker verdict columns do not match the immutable checker artifact"
    retry := .never
    receiptLookupRequired := false
    details := [("taskId", .text taskId.text)] }

def checkedProposalIdentityMismatch (command : CheckedCommand) : PlusOneError :=
  { category := .validation_rejected
    code := "checked_proposal_identity_mismatch"
    message := "Checked command does not match the immutable maker artifact"
    retry := .never
    receiptLookupRequired := false
    details := [("commandId", .text command.commandId.text),
      ("artifactId", .text command.checkedProposalId.text)] }

def exactCheckerAcceptanceRequired (taskId : TaskId) : PlusOneError :=
  { category := .checker_rejected
    code := "exact_checker_acceptance_required"
    message := "Mutation execution requires an accepting verdict for the exact maker artifact"
    retry := .never
    receiptLookupRequired := false
    details := [("taskId", .text taskId.text)] }

def terminalFailure (command : CheckedCommand) (status reported : CommandStatus) : PlusOneError :=
  { category := if status = .readback_failed then .readback_mismatch else .runtime_failure
    code := "mutation_command_terminal_failure"
    message := "Mutation command is already in a terminal failed state"
    retry := .never
    receiptLookupRequired := true
    details := commandDetails command ++ [("status", .text reported.text)] }

def committedMutationReceiptMissing (command : CheckedCommand) : PlusOneError :=
  { category := .constraint_violation
    code := "committed_mutation_receipt_missing"
    message := "Committed mutation state or receipt is missing"
    retry := .never
    receiptLookupRequired := true
    details := commandDetails command }

def mutationReadbackFailed (command : CheckedCommand) (mismatchCount : Nat) : PlusOneError :=
  { category := .readback_mismatch
    code := "mutation_readback_failed"
    message := "Committed mutation did not pass deterministic read-back verification"
    retry := .after_state_resolution
    receiptLookupRequired := true
    details := commandDetails command ++ [("mismatchCount", .number mismatchCount)] }

def verifiedCommandEvidenceMissing (command : CheckedCommand) : PlusOneError :=
  { category := .constraint_violation
    code := "verified_command_evidence_missing"
    message := "Read-back-verified command is missing receipt or read-back evidence"
    retry := .never
    receiptLookupRequired := true
    details := commandDetails command }

/-! ## Eligibility -/

/-- `artifacts.getVerified` -/
def getVerified (P : Platform) (artifactId : ArtifactId) : Program ArtifactEnvelope := do
  let artifact : Option ArtifactEnvelope ← issue (.findArtifact artifactId)
  match artifact with
  | none => .throw (.plusOne (artifactNotFound artifactId))
  | some artifact =>
    if hashArtifact P artifact.payload ≠ artifact.artifactHash then
      .throw (.plusOne (artifactHashMismatch artifactId))
    else return artifact

/-- `ledger.findLatestVerdict` -/
def findLatestVerdict (householdId : HouseholdId) (taskId : TaskId) :
    Program (Option CheckerVerdict) := do
  let row : Option (VerdictRow × Json) ← issue (.findLatestVerdict householdId taskId)
  match row with
  | none => return none
  | some (row, payload) =>
    match CheckerVerdict.parse payload with
    | none => .throw .zodError
    | some parsed =>
      if parsed.verdict ≠ row.verdict ∨ parsed.coveredArtifactId ≠ row.coveredArtifactId ∨
          parsed.coveredArtifactHash ≠ row.coveredArtifactHash then
        .throw (.plusOne (checkerVerdictStorageMismatch taskId))
      else return some parsed

/-- The schema identity a maker output carries, when it is an object that names one. -/
def embeddedIdentity (output : Json) : Option (String × JsonNumber) :=
  match output.field? "schemaName", output.field? "schemaVersion" with
  | some (.str schemaName), some (.num schemaVersion) => some (schemaName, schemaVersion)
  | _, _ => none

/-- The command is exactly what the stored maker artifact proposes. -/
def matchesArtifact (P : Platform) (command : CheckedCommand) (artifact : ArtifactEnvelope) : Bool :=
  artifact.artifactId == command.checkedProposalId &&
    artifact.householdId == command.householdId && artifact.taskId == command.taskId &&
    artifact.artifactHash == command.checkedProposalHash &&
    artifact.schema == ⟨"maker-artifact", 1⟩ &&
    match makerOutput artifact.payload with
    | none => false
    | some output =>
      (match embeddedIdentity output with
        | none => false
        | some (schemaName, schemaVersion) =>
          schemaName == command.payloadSchema.schemaName &&
            Json.num schemaVersion == .ofNat command.payloadSchema.schemaVersion) &&
        P.canonicalize output == P.canonicalize command.payload

def assertExactArtifact (P : Platform) (command : CheckedCommand) (artifact : ArtifactEnvelope) :
    Program Unit :=
  if matchesArtifact P command artifact then .ret ()
  else .throw (.plusOne (checkedProposalIdentityMismatch command))

def acceptsExactly (command : CheckedCommand) (verdict : CheckerVerdict) : Bool :=
  verdict.verdict == .accepted && verdict.coveredArtifactId == command.checkedProposalId &&
    verdict.coveredArtifactHash == command.checkedProposalHash

def requireAcceptance (command : CheckedCommand) : Program Unit := do
  let verdict ← findLatestVerdict command.householdId command.taskId
  if verdict.any (acceptsExactly command) then .ret ()
  else .throw (.plusOne (exactCheckerAcceptanceRequired command.taskId))

/-! ## Read-back -/

def requiredFailures (required : List ReadbackCheckKind) (checks : List ReadbackCheck) :
    List String :=
  required.flatMap fun kind =>
    match checks.find? fun check => check.kind == kind with
    | some check => if check.status = .passed then [] else ["required_check." ++ kind.text]
    | none => ["required_check." ++ kind.text]

def allReadbackKinds : List ReadbackCheckKind :=
  [.identifiers, .row_values, .balances, .source_links, .artifact_links, .idempotency_receipt]

/-- `error instanceof PlusOneError ? error.code : 'readback_execution_failed'` -/
def readbackFailureCode : Thrown → String
  | .plusOne error => error.code
  | _ => "readback_execution_failed"

/-- `ReadbackResultSchemaV1.parse` -/
def parseReadback (result : ReadbackResult) : Program ReadbackResult :=
  if result.valid then .ret result else .throw .zodError

def failedReadback (P : Platform) (command : CheckedCommand) (receipt : MutationReceipt)
    (required : List ReadbackCheckKind) (error : Thrown) : Program ReadbackResult := do
  let failureCode := readbackFailureCode error
  let readbackId : MutationReadbackId ← issue .newReadbackId
  parseReadback
    { readbackId, commandId := command.commandId, receiptId := receipt.receiptId, ok := false
      checks := allReadbackKinds.map fun kind =>
        if kind ∈ required then ⟨kind, .failed, some failureCode⟩ else ⟨kind, .not_applicable, none⟩
      mismatches := ["readback_error." ++ failureCode]
      observedStateHash := hashArtifact P (.obj [("failureCode", .str failureCode)]) }

def receiptMatches (command : CheckedCommand) (receipt : MutationReceipt)
    (persisted : Option MutationReceipt) : Bool :=
  persisted.any fun persisted => persisted.receiptId == receipt.receiptId &&
    persisted.idempotencyKey == command.idempotencyKey &&
    persisted.checkedProposalId == command.checkedProposalId &&
    persisted.checkedProposalHash == command.checkedProposalHash

def CommittedRecordReference.toJson (record : CommittedRecordReference) : Json :=
  .obj [("recordType", .str record.recordType), ("recordId", .str record.recordId)]

def MutationReceipt.toJson (receipt : MutationReceipt) : Json :=
  .obj [("schemaName", .str "mutation-receipt"), ("schemaVersion", .ofNat 1),
    ("receiptId", .str receipt.receiptId.text), ("commandId", .str receipt.commandId.text),
    ("householdId", .str receipt.householdId.text), ("taskId", .str receipt.taskId.text),
    ("checkedProposalId", .str receipt.checkedProposalId.text),
    ("checkedProposalHash", .str receipt.checkedProposalHash.hex),
    ("commandType", .str receipt.commandType),
    ("idempotencyKey", .str receipt.idempotencyKey.text),
    ("committedRecords", .arr (receipt.committedRecords.map CommittedRecordReference.toJson)),
    ("expectedState", receipt.expectedState),
    ("expectedStateHash", .str receipt.expectedStateHash.hex),
    ("committedAt", .ofNat receipt.committedAt)]

/-- The statements of `performReadback` between its BEGIN and COMMIT, and what they conclude. -/
def readbackChecks (P : Platform) (command : CheckedCommand) (handler : MutationCommandHandler)
    (input : Json) (receipt : MutationReceipt) : Program ReadbackResult := do
  let _ ← issue (.readQuery ⟨"BEGIN ISOLATION LEVEL REPEATABLE READ READ ONLY", []⟩)
  let _ ← issue (.readQuery ⟨"SELECT set_config('statement_timeout','5000ms',true), set_config('idle_in_transaction_session_timeout','5000ms',true)", []⟩)
  let domain ← (handler.readback input receipt).onReadClient
  let persistedReceipt ← findReceiptByCommand command.key
  let receiptOk := receiptMatches command receipt persistedReceipt
  let checks := domain.checks ++ [⟨.idempotency_receipt,
    if receiptOk then .passed else .failed,
    if receiptOk then none else some "receipt_identity_mismatch"⟩]
  let mismatches := domain.mismatches ++ requiredFailures handler.requiredReadbackChecks checks
  let observedStateHash := hashArtifact P (.obj [("domain", domain.observedState),
    ("receipt", (persistedReceipt.map MutationReceipt.toJson).getD .null)])
  let _ ← issue (.readQuery ⟨"COMMIT", []⟩)
  let readbackId : MutationReadbackId ← issue .newReadbackId
  parseReadback
    { readbackId, commandId := command.commandId, receiptId := receipt.receiptId
      ok := mismatches.isEmpty, checks, mismatches, observedStateHash }

def performReadback (P : Platform) (command : CheckedCommand) (handler : MutationCommandHandler)
    (input : Json) (receipt : MutationReceipt) : Program ReadbackResult := do
  let _ ← issue (.readConnect handler.domainRole)
  (readbackChecks P command handler input receipt).tryCatch fun error =>
    ((issue (.readQuery ⟨"ROLLBACK", []⟩)).tryCatch fun _ => .ret ([] : List Json)).bind
      fun _ => .throw error

/-! ## Execution -/

def requireVerifiedReplay (command : CheckedCommand) : Program Verified := do
  let receipt ← findReceiptByCommand command.key
  let readback ← findReadbackByCommand command.key
  match receipt, readback with
  | some receipt, some readback =>
    if readback.ok then return ⟨receipt, readback⟩
    else .throw (.plusOne (verifiedCommandEvidenceMissing command))
  | _, _ => .throw (.plusOne (verifiedCommandEvidenceMissing command))

/-- `error instanceof PlusOneError ? error.category : 'runtime_failure'` -/
def ErrorCategory.text : ErrorCategory → String
  | validation_rejected => "validation_rejected"
  | checker_rejected => "checker_rejected"
  | confirmation_required => "confirmation_required"
  | serialization_conflict => "serialization_conflict"
  | constraint_violation => "constraint_violation"
  | duplicate_replay => "duplicate_replay"
  | period_closed => "period_closed"
  | ambiguous_source_match => "ambiguous_source_match"
  | readback_mismatch => "readback_mismatch"
  | projection_unhealthy => "projection_unhealthy"
  | timeout => "timeout"
  | storage_unavailable => "storage_unavailable"
  | policy_rejected => "policy_rejected"
  | unsupported_capability => "unsupported_capability"
  | runtime_failure => "runtime_failure"

def failureCategory : Thrown → String
  | .plusOne error => error.category.text
  | _ => "runtime_failure"

/-- `error instanceof PlusOneError && error.receiptLookupRequired` -/
def needsReceiptLookup : Thrown → Bool
  | .plusOne error => error.receiptLookupRequired
  | _ => false

/-- The `catch` around the runner: a command that is committed after all goes on, an error that
needs a receipt lookup is passed on, and any other failure is recorded. -/
def runnerFailed (command : CheckedCommand) (error : Thrown) : Program MutationCommandRecord := do
  let resolved ← ((reconcile command.key).bind fun record => .ret (some record)).tryCatch
    fun _ => .ret none
  match resolved.filter fun record =>
      record.status == .committed || record.status == .readback_verified with
  | some record => return record
  | none =>
    if needsReceiptLookup error then .throw error
    else
      markExecutionFailed command.key (failureCategory error)
      let _ ← reconcile command.key
      .throw error

/-- `command.commandId.replace(/^command_/, 'receipt_')` -/
def receiptIdOf (commandId : MutationCommandId) : MutationReceiptId :=
  ⟨commandId.suffix, commandId.crockford⟩

/-- Hand a pending command to the runner; the receipt it returns replaces the one known so far. -/
def runPending (exec : Executor) (command : CheckedCommand) (prepared : PreparedCommand)
    (state : MutationCommandRecord) (receipt : Option MutationReceipt) :
    Program (MutationCommandRecord × Option MutationReceipt) :=
  (SerializableMutationRunner.run exec.platform exec.policy
    { command, handler := prepared.handler, input := prepared.input
      receiptId := receiptIdOf command.commandId }).handle
    (fun receipt => .ret (state, some receipt))
    fun error => (runnerFailed command error).bind fun state => .ret (state, receipt)

/-- Run a pending command; the state it is in afterwards and the receipt, when the runner
returned one. -/
def executePending (exec : Executor) (command : CheckedCommand) (prepared : PreparedCommand)
    (state : MutationCommandRecord) (receipt : Option MutationReceipt) :
    Program (MutationCommandRecord × Option MutationReceipt) := do
  let (state, receipt) ← runPending exec command prepared state receipt
  if state.status = .execution_pending then
    let state ← reconcile command.key
    return (state, receipt)
  else return (state, receipt)

/-- From a committed command and its receipt to its read-back. -/
def readBack (exec : Executor) (command : CheckedCommand) (prepared : PreparedCommand)
    (receipt : MutationReceipt) : Program Verified := do
  let readback ← (performReadback exec.platform command prepared.handler prepared.input receipt).tryCatch
    fun error => failedReadback exec.platform command receipt
      prepared.handler.requiredReadbackChecks error
  let readback ← (recordReadback command.householdId readback).handle (fun _ => .ret readback)
    fun error => (findReadbackByCommand command.key).bind fun
      | none => .throw error
      | some existing => .ret existing
  let state ← reconcile command.key
  if !readback.ok || state.status == .readback_failed then
    .throw (.plusOne (mutationReadbackFailed command readback.mismatches.length))
  else return ⟨receipt, readback⟩

/-- `if (!receipt) receipt = await this.dependencies.commands.findReceiptByCommand(...)` -/
def receiptOrStored (key : CommandKey) : Option MutationReceipt → Program (Option MutationReceipt)
  | some receipt => .ret (some receipt)
  | none => findReceiptByCommand key

/-- The rest of `execute` once the command is no longer pending. -/
def finish (exec : Executor) (command : CheckedCommand) (prepared : PreparedCommand)
    (state : MutationCommandRecord) (receipt : Option MutationReceipt) : Program Verified := do
  if state.status = .readback_verified then requireVerifiedReplay command
  else if state.status = .execution_failed ∨ state.status = .readback_failed then
    .throw (.plusOne (terminalFailure command state.status state.status))
  else
    let receipt ← receiptOrStored command.key receipt
    match receipt with
    | some receipt =>
      if state.status = .committed then readBack exec command prepared receipt
      else .throw (.plusOne (committedMutationReceiptMissing command))
    | none => .throw (.plusOne (committedMutationReceiptMissing command))

/-- `if (state.status === 'execution_pending')` -/
def executeIfPending (exec : Executor) (command : CheckedCommand) (prepared : PreparedCommand)
    (state : MutationCommandRecord) (receipt : Option MutationReceipt) :
    Program (MutationCommandRecord × Option MutationReceipt) :=
  if state.status = .execution_pending then executePending exec command prepared state receipt
  else .ret (state, receipt)

/-- `execute` from the registered command on. -/
def executeRegistered (exec : Executor) (command : CheckedCommand) (prepared : PreparedCommand)
    (registered : MutationCommandRecord) : Program Verified := do
  let state ← reconcile registered.key
  if state.status = .readback_verified then requireVerifiedReplay command
  else if state.status = .execution_failed ∨ state.status = .readback_failed then
    .throw (.plusOne (terminalFailure command state.status registered.status))
  else
    let receipt ← findReceiptByCommand command.key
    let (state, receipt) ← executeIfPending exec command prepared state receipt
    finish exec command prepared state receipt

/-- `CheckedMutationExecutor.execute` -/
def CheckedMutationExecutor.execute (exec : Executor) (candidate : CheckedCommand) :
    Program Verified := do
  let command ← parseCheckedCommand candidate
  let artifact ← getVerified exec.platform command.checkedProposalId
  assertExactArtifact exec.platform command artifact
  requireAcceptance command
  let prepared ← Prog.ofExcept (exec.registry.prepare command)
  let registered ← register exec.platform command (prepared.handler.confirmation == .required)
  executeRegistered exec command prepared registered

end PlusOne
