import PlusOne.Contracts.Errors
import PlusOne.Contracts.Mutations
import PlusOne.Database.Jsonb

/-! # The tables of the operations schema

Rows are identified by their public identifiers; the internal bigint keys only
repeat them. A table is a list in order of insertion. Each statement of the
repositories is a function of the whole database. -/

namespace PlusOne

structure VerdictRow where
  householdId : HouseholdId
  taskId : TaskId
  checkerArtifactId : ArtifactId
  coveredArtifactId : ArtifactId
  coveredArtifactHash : ArtifactHash
  verdict : Verdict
  deriving DecidableEq

structure ConfirmationRow where
  confirmationId : ConfirmationId
  householdId : HouseholdId
  taskId : TaskId
  checkedProposalId : ArtifactId
  checkedProposalHash : ArtifactHash
  deriving DecidableEq

structure TaskRow where
  householdId : HouseholdId
  taskId : TaskId
  status : TaskStatus
  currentMakerArtifact : Option (ArtifactId × ArtifactHash)
  currentCheckerArtifactId : Option ArtifactId
  failureCategory : Option String
  resumable : Bool
  terminalAt : Option UtcInstant
  updatedAt : UtcInstant

structure CommandRow where
  commandId : MutationCommandId
  householdId : HouseholdId
  taskId : TaskId
  commandType : String
  checkedProposalId : ArtifactId
  checkedProposalHash : ArtifactHash
  idempotencyKey : IdempotencyKey
  confirmationRequired : Bool
  confirmationId : Option ConfirmationId
  payloadSchema : SchemaIdentity
  payload : Json
  status : CommandStatus
  failureCode : Option String
  registeredAt : UtcInstant
  updatedAt : UtcInstant
  deriving DecidableEq

/-- A command is looked up by its household and its public identifier. -/
abbrev CommandKey := HouseholdId × MutationCommandId

def CommandRow.key (row : CommandRow) : CommandKey := (row.householdId, row.commandId)

structure ReceiptRow where
  receiptId : MutationReceiptId
  householdId : HouseholdId
  commandId : MutationCommandId
  committedRecords : List CommittedRecordReference
  expectedState : Json
  expectedStateHash : ArtifactHash
  committedAt : UtcInstant
  deriving DecidableEq

def ReceiptRow.key (row : ReceiptRow) : CommandKey := (row.householdId, row.commandId)

structure ReadbackRow where
  householdId : HouseholdId
  result : ReadbackResult

def ReadbackRow.key (row : ReadbackRow) : CommandKey := (row.householdId, row.result.commandId)

/-- A statement a handler runs on its client. -/
structure Query where
  text : String
  values : List Json

/-- What the committed transaction of one call of `handler.execute` did to the domain tables. -/
structure Effect where
  key : CommandKey
  statements : List Query

structure Db where
  households : List HouseholdId
  artifacts : List ArtifactEnvelope
  verdicts : List VerdictRow
  confirmations : List ConfirmationRow
  tasks : List TaskRow
  commands : List CommandRow
  receipts : List ReceiptRow
  readbacks : List ReadbackRow
  effects : List Effect
  now : UtcInstant

def constraintFailure (sqlState constraint message : String) : PgFailure :=
  { code := some sqlState, constraint := some constraint, message }

def uniqueViolation (constraint : String) : PgFailure :=
  constraintFailure "23505" constraint "duplicate key value violates unique constraint"

namespace Db

/-! ## Reading -/

def findArtifact (db : Db) (artifactId : ArtifactId) : Option ArtifactEnvelope :=
  db.artifacts.find? fun row => row.artifactId == artifactId

def findExactArtifact (db : Db) (householdId : HouseholdId) (taskId : TaskId)
    (artifactId : ArtifactId) (artifactHash : ArtifactHash) : Option ArtifactEnvelope :=
  db.artifacts.find? fun row => row.householdId == householdId && row.taskId == taskId &&
    row.artifactId == artifactId && row.artifactHash == artifactHash

/-- The latest verdict of a task, joined with the payload of its checker artifact. -/
def findLatestVerdict (db : Db) (householdId : HouseholdId) (taskId : TaskId) :
    Option (VerdictRow × Json) :=
  (db.verdicts.reverse.filterMap fun row =>
    if row.householdId = householdId ∧ row.taskId = taskId then
      (db.artifacts.find? fun artifact => artifact.householdId == row.householdId &&
        artifact.taskId == row.taskId && artifact.artifactId == row.checkerArtifactId).map
        fun artifact => (row, artifact.payload)
    else none).head?

def findTask (db : Db) (householdId : HouseholdId) (taskId : TaskId) : Option TaskRow :=
  db.tasks.find? fun row => row.householdId == householdId && row.taskId == taskId

def findCommand (db : Db) (key : CommandKey) : Option CommandRow :=
  db.commands.find? fun row => row.key == key

def findByIdempotency (db : Db) (householdId : HouseholdId) (idempotencyKey : IdempotencyKey) :
    Option CommandRow :=
  db.commands.find? fun row => row.householdId == householdId &&
    row.idempotencyKey == idempotencyKey

def findReceipt (db : Db) (key : CommandKey) : Option ReceiptRow :=
  db.receipts.find? fun row => row.key == key

/-- The receipt as `findReceiptByCommand` selects it, from the receipt and its command. -/
def selectReceipt (db : Db) (key : CommandKey) : Option MutationReceipt := do
  let row ← db.findReceipt key
  let command ← db.findCommand key
  return { receiptId := row.receiptId, commandId := command.commandId
           householdId := command.householdId, taskId := command.taskId
           checkedProposalId := command.checkedProposalId
           checkedProposalHash := command.checkedProposalHash
           commandType := command.commandType, idempotencyKey := command.idempotencyKey
           committedRecords := row.committedRecords, expectedState := row.expectedState
           expectedStateHash := row.expectedStateHash, committedAt := row.committedAt }

def selectReadback (db : Db) (key : CommandKey) : Option ReadbackResult :=
  (db.readbacks.find? fun row => row.key == key).map ReadbackRow.result

/-! ## Registering a command -/

/-- How the driver and the column type receive a payload: an object is sent as its JSON text, a
string as itself, an array as an array literal, which is JSON only when it is empty. -/
def payloadParameter (jsonIn : String → Option Json) : Json → Except PgFailure (Option Json)
  | .null => .ok none
  | .obj fields => .ok (some (Json.obj fields).jsonb)
  | .bool b => .ok (some (.bool b))
  | .num n => .ok (some (.num n))
  | .arr [] => .ok (some (.obj []))
  | .arr (_ :: _) => .error ⟨some "22P02", none, "invalid input syntax for type json"⟩
  | .str text =>
    match jsonIn text with
    | some value => .ok (some value.jsonb)
    | none => .error ⟨some "22P02", none, "invalid input syntax for type json"⟩

def exactArtifactFailure : PgFailure :=
  constraintFailure "23514" "mutation_command_exact_artifact"
    "Mutation command does not match the exact maker artifact"

def acceptanceFailure : PgFailure :=
  constraintFailure "23514" "mutation_command_acceptance_required"
    "Mutation command does not have an accepting checker verdict"

def exactConfirmationFailure : PgFailure :=
  constraintFailure "23514" "mutation_command_exact_confirmation"
    "Mutation confirmation does not match the checked artifact"

/-- The columns an `INSERT` into `mutation_commands` supplies. -/
structure NewCommand where
  input : CheckedCommand
  confirmationRequired : Bool
  confirmationId : Option ConfirmationId
  payload : Option Json

def accepted (db : Db) (command : CheckedCommand) : Bool :=
  db.verdicts.any fun row => row.householdId == command.householdId &&
    row.taskId == command.taskId && row.coveredArtifactId == command.checkedProposalId &&
    row.coveredArtifactHash == command.checkedProposalHash && row.verdict == .accepted

/-- The payload and schema identity of the row are those of the artifact's output. -/
def exactOutput (artifact : ArtifactEnvelope) (new : NewCommand) : Bool :=
  let output := artifact.payload.field? "output"
  output.map Json.jsonb == new.payload &&
    (output.bind (·.field? "schemaName")) == some (.str new.input.payloadSchema.schemaName) &&
    (output.bind (·.field? "schemaVersion")) == some (.ofNat new.input.payloadSchema.schemaVersion)

def exactConfirmation (db : Db) (new : NewCommand) : Bool :=
  match new.confirmationId with
  | none => false
  | some confirmationId =>
    db.confirmations.any fun row => row.householdId == new.input.householdId &&
      row.confirmationId == confirmationId && row.taskId == new.input.taskId &&
      row.checkedProposalId == new.input.checkedProposalId &&
      row.checkedProposalHash == new.input.checkedProposalHash

/-- The trigger `validate_mutation_command_insert`. -/
def validateMutationCommandInsert (db : Db) (new : NewCommand) : Except PgFailure Unit :=
  let artifact := db.findExactArtifact new.input.householdId new.input.taskId
    new.input.checkedProposalId new.input.checkedProposalHash
  if !(artifact.any (exactOutput · new)) then .error exactArtifactFailure
  else if !db.accepted new.input then .error acceptanceFailure
  else if (new.confirmationRequired || new.confirmationId.isSome) && !db.exactConfirmation new then
    .error exactConfirmationFailure
  else .ok ()

/-- The unique indexes of `mutation_commands`, in the order in which they are checked. -/
def commandUniqueness (db : Db) (command : CheckedCommand) : Except PgFailure Unit :=
  if db.commands.any fun row => row.commandId == command.commandId then
    .error (uniqueViolation "mutation_commands_public_unique")
  else if db.commands.any fun row => row.householdId == command.householdId &&
      row.idempotencyKey == command.idempotencyKey then
    .error (uniqueViolation "mutation_commands_idempotency_unique")
  else if db.commands.any fun row => row.householdId == command.householdId &&
      row.checkedProposalId == command.checkedProposalId &&
      row.checkedProposalHash == command.checkedProposalHash then
    .error (uniqueViolation "mutation_commands_checked_proposal_once")
  else .ok ()

def registeredRow (db : Db) (new : NewCommand) (payload : Json) : CommandRow :=
  { commandId := new.input.commandId, householdId := new.input.householdId
    taskId := new.input.taskId, commandType := new.input.commandType
    checkedProposalId := new.input.checkedProposalId
    checkedProposalHash := new.input.checkedProposalHash
    idempotencyKey := new.input.idempotencyKey
    confirmationRequired := new.confirmationRequired, confirmationId := new.confirmationId
    payloadSchema := new.input.payloadSchema, payload, status := .registered
    failureCode := none, registeredAt := db.now, updatedAt := db.now }

/-- The `LEFT JOIN` of the insert: a confirmation the household has not recorded is NULL. -/
def joinConfirmation (db : Db) (command : CheckedCommand) : Option ConfirmationId :=
  command.confirmationId.filter fun confirmationId => db.confirmations.any fun row =>
    row.householdId == command.householdId && row.confirmationId == confirmationId

/-- `INSERT INTO operations.mutation_commands`; no row when the household is unknown. -/
def insertCommand (jsonIn : String → Option Json) (db : Db) (input : CheckedCommand)
    (confirmationRequired : Bool) : Except PgFailure (Option CommandRow × Db) := do
  let payload ← payloadParameter jsonIn input.payload
  if 2147483647 < input.payloadSchema.schemaVersion then
    throw ⟨some "22003", none, "value is out of range for type integer"⟩
  if !db.households.contains input.householdId then return (none, db)
  let new : NewCommand :=
    { input, confirmationRequired, confirmationId := db.joinConfirmation input, payload }
  db.validateMutationCommandInsert new
  let some payload := payload
    | throw ⟨some "23502", none, "null value in column \"payload\" violates not-null constraint"⟩
  db.commandUniqueness input
  if (db.findTask input.householdId input.taskId).isNone then
    throw (constraintFailure "23503" "mutation_commands_task_fk"
      "insert or update on table \"mutation_commands\" violates foreign key constraint")
  let row := db.registeredRow new payload
  return (some row, { db with commands := db.commands ++ [row] })

/-! ## Moving a command along -/

def statusTransitionAllowed : CommandStatus → CommandStatus → Bool
  | .registered, .execution_pending | .registered, .execution_failed => true
  | .execution_pending, .committed | .execution_pending, .execution_failed => true
  | .committed, .readback_verified | .committed, .readback_failed => true
  | _, _ => false

/-- The trigger `guard_mutation_command_update` for an update of the status and failure code. -/
def guardMutationCommandUpdate (db : Db) (old : CommandRow) (status : CommandStatus)
    (failureCode : Option String) : Except PgFailure CommandRow :=
  let new := { old with status, failureCode }
  if old.status = status then .ok new
  else if !statusTransitionAllowed old.status status then
    .error (constraintFailure "23514" "mutation_command_status_transition"
      "Illegal mutation command status transition")
  else if status = .committed ∧ (db.findReceipt old.key).isNone then
    .error (constraintFailure "23514" "mutation_command_receipt_required"
      "Committed mutation commands require a receipt")
  else if (status = .readback_verified ∨ status = .readback_failed) ∧
      !(db.readbacks.any fun row => row.key == old.key &&
        row.result.ok == decide (status = .readback_verified)) then
    .error (constraintFailure "23514" "mutation_command_readback_required"
      "Read-back terminal command states require read-back evidence")
  else .ok { new with updatedAt := db.now }

def replaceCommand (db : Db) (row : CommandRow) : Db :=
  { db with commands := db.commands.map fun old => if old.key = row.key then row else old }

/-- Update the status of the command under `key` if it is in `expected`; the row count. -/
def updateCommand (db : Db) (key : CommandKey) (expected status : CommandStatus)
    (failureCode : CommandRow → Option String) : Except PgFailure (Nat × Db) :=
  match db.findCommand key with
  | none => .ok (0, db)
  | some old =>
    if old.status = expected then do
      let row ← db.guardMutationCommandUpdate old status (failureCode old)
      return (1, db.replaceCommand row)
    else .ok (0, db)

def markExecutionPending (db : Db) (key : CommandKey) : Except PgFailure (Nat × Db) :=
  db.updateCommand key .registered .execution_pending CommandRow.failureCode

def markExecutionFailed (db : Db) (key : CommandKey) (failureCode : String) :
    Except PgFailure (Nat × Db) :=
  db.updateCommand key .execution_pending .execution_failed fun _ => some failureCode

def readbackStatus (ok : Bool) : CommandStatus :=
  if ok then .readback_verified else .readback_failed

def readbackFailureCode (ok : Bool) : Option String :=
  if ok then none else some "readback_mismatch"

/-- PostgreSQL has no character U+0000 in its texts. -/
def storableText (text : String) : Bool := text.toList.all fun c => c.toNat != 0

/-- The parameters of `recordReadback` that carry texts of a handler. -/
def storableReadback (result : ReadbackResult) : Except PgFailure Unit :=
  if !(result.checks.all fun check => check.detailCode.all storableText) then
    .error ⟨some "22P05", none, "unsupported Unicode escape sequence"⟩
  else if !(result.mismatches.all storableText) then
    .error ⟨some "22021", none, "invalid byte sequence for encoding \"UTF8\": 0x00"⟩
  else .ok ()

/-- The transaction of `recordReadback`: the read-back row, then the command's status; a row count
of 0 stands for either statement finding the command not committed. -/
def recordReadback (db : Db) (householdId : HouseholdId) (result : ReadbackResult) :
    Except PgFailure (Nat × Db) := do
  storableReadback result
  let key := (householdId, result.commandId)
  match db.findCommand key, db.findReceipt key with
  | some command, some receipt =>
    if command.status = .committed ∧ receipt.receiptId = result.receiptId then
      if result.ok ≠ result.mismatches.isEmpty then
        .error (constraintFailure "23514" "mutation_readbacks_consistency"
          "new row for relation \"mutation_readbacks\" violates check constraint")
      else if db.readbacks.any fun row => row.result.readbackId == result.readbackId then
        .error (uniqueViolation "mutation_readbacks_public_unique")
      else if db.readbacks.any fun row => row.key == key then
        .error (uniqueViolation "mutation_readbacks_command_unique")
      else
        let inserted := { db with readbacks := db.readbacks ++ [ReadbackRow.mk householdId result] }
        inserted.updateCommand key .committed (readbackStatus result.ok)
          fun _ => readbackFailureCode result.ok
    else .ok (0, db)
  | _, _ => .ok (0, db)

/-! ## Verification tasks -/

structure TransitionRecord where
  householdId : HouseholdId
  taskId : TaskId
  expectedFrom : TaskStatus
  toStatus : TaskStatus
  reasonCode : String
  responsibleComponent : String
  terminal : Bool
  failureCategory : Option String
  resumable : Option Bool

inductive TransitionOutcome
  | notFound
  | stale (actual : TaskStatus)
  | done (task : TaskRow)

def isTerminalStatus (status : TaskStatus) : Bool :=
  [TaskStatus.execution_failed, .readback_failed, .verified, .partialResult,
    .insufficient_evidence, .conflicted, .failed].contains status

def replaceTask (db : Db) (row : TaskRow) : Db :=
  { db with tasks := db.tasks.map fun old =>
      if old.householdId = row.householdId ∧ old.taskId = row.taskId then row else old }

def movedTask (db : Db) (current : TaskRow) (input : TransitionRecord) : TaskRow :=
  { current with
    status := input.toStatus, failureCategory := input.failureCategory
    resumable := input.resumable.getD current.resumable
    terminalAt := if input.terminal then some db.now else none, updatedAt := db.now }

/-- The transaction of `transition`, under the lock on the task row. -/
def transition (db : Db) (input : TransitionRecord) :
    Except PgFailure (TransitionOutcome × Db) :=
  match db.findTask input.householdId input.taskId with
  | none => .ok (.notFound, db)
  | some current =>
    if current.status ≠ input.expectedFrom then .ok (.stale current.status, db)
    else if isTerminalStatus input.toStatus ≠ input.terminal then
      .error (constraintFailure "23514" "verification_tasks_terminal_metadata"
        "new row for relation \"verification_tasks\" violates check constraint")
    else .ok (.done (db.movedTask current input), db.replaceTask (db.movedTask current input))

def createTask (db : Db) (householdId : HouseholdId) (taskId : TaskId) : Option Db :=
  if db.households.contains householdId && !(db.tasks.any fun row => row.taskId == taskId) then
    some { db with tasks := db.tasks ++ [
      { householdId, taskId, status := .created, currentMakerArtifact := none
        currentCheckerArtifactId := none, failureCategory := none, resumable := true
        terminalAt := none, updatedAt := db.now }] }
  else none

def linkMakerArtifact (db : Db) (householdId : HouseholdId) (taskId : TaskId)
    (artifactId : ArtifactId) (artifactHash : ArtifactHash) : Option Db :=
  match db.findTask householdId taskId with
  | some task =>
    if task.status = .maker_running then
      some (db.replaceTask { task with
        currentMakerArtifact := some (artifactId, artifactHash)
        currentCheckerArtifactId := none, updatedAt := db.now })
    else none
  | none => none

/-! ## Artifacts, verdicts, confirmations -/

def saveArtifact (db : Db) (artifact : ArtifactEnvelope) : Option Db :=
  if (db.findTask artifact.householdId artifact.taskId).isSome &&
      (db.findArtifact artifact.artifactId).isNone then
    some { db with artifacts := db.artifacts ++ [{ artifact with payload := artifact.payload.jsonb }] }
  else none

/-- `recordCheckerVerdict`, under the lock on the task row; a checker artifact has one verdict. -/
def recordCheckerVerdict (db : Db) (householdId : HouseholdId) (taskId : TaskId)
    (checkerArtifactId : ArtifactId) (verdict : CheckerVerdict) : Option Db :=
  match db.findTask householdId taskId with
  | none => none
  | some task =>
    let row : VerdictRow :=
      { householdId, taskId, checkerArtifactId
        coveredArtifactId := verdict.coveredArtifactId
        coveredArtifactHash := verdict.coveredArtifactHash, verdict := verdict.verdict }
    let linked := { task with
      currentCheckerArtifactId := some checkerArtifactId, updatedAt := db.now }
    if task.status = .checker_running ∧ task.currentMakerArtifact =
        some (verdict.coveredArtifactId, verdict.coveredArtifactHash) then
      match db.verdicts.find? fun old => old.householdId == householdId &&
          old.taskId == taskId && old.checkerArtifactId == checkerArtifactId with
      | some old => if old = row then some (db.replaceTask linked) else none
      | none =>
        if (db.findExactArtifact householdId taskId verdict.coveredArtifactId
              verdict.coveredArtifactHash).isSome &&
            (db.artifacts.any fun artifact => artifact.householdId == householdId &&
              artifact.taskId == taskId && artifact.artifactId == checkerArtifactId) then
          some ({ db with verdicts := db.verdicts ++ [row] }.replaceTask linked)
        else none
    else none

def recordConfirmation (db : Db) (row : ConfirmationRow) : Option Db :=
  if db.households.contains row.householdId &&
      !(db.confirmations.any fun old => old.confirmationId == row.confirmationId) &&
      (db.findExactArtifact row.householdId row.taskId row.checkedProposalId
        row.checkedProposalHash).isSome then
    some { db with confirmations := db.confirmations ++ [row] }
  else none

end Db

end PlusOne
