import PlusOne.Database.Tables
import PlusOne.Interleaving.System

/-! # Sessions of the mutation path

The calls the mutation code makes, one for each statement or short transaction of
the repositories, and what each does to the database and to the caller's session.
Statements of the operations pool commit on their own. The runner's client holds a
SERIALIZABLE transaction: it works on its snapshot, keeps the rows it claimed
locked, and takes effect at COMMIT. A COMMIT whose reply is lost may have been
applied, may have been dropped, or may still be on its way. -/

namespace PlusOne

open Interleaving

inductive DomainRole
  | accounting | planning
  deriving DecidableEq

inductive ConfirmationPolicy
  | required | optional | forbidden
  deriving DecidableEq

/-- What names a handler: the command it is allowlisted for and the payloads it takes. -/
structure HandlerIdentity where
  commandType : String
  domainRole : DomainRole
  inputSchemaIdentity : SchemaIdentity
  confirmation : ConfirmationPolicy
  deriving DecidableEq

/-- How a handler reaches the database: directly on its client, or through a repository that
normalises what the driver raises. -/
inductive Layer
  | raw | accounting

/-- Where a reconciliation stands when it looks at the task; only conditions on runs read it. -/
structure ReconcileSite where
  attempt : Nat
  commandStatus : CommandStatus

structure CommitInput where
  key : CommandKey
  receiptId : MutationReceiptId
  committedRecords : List CommittedRecordReference
  expectedState : Json
  expectedStateHash : ArtifactHash

inductive Call
  | findArtifact (artifactId : ArtifactId)
  | findLatestVerdict (householdId : HouseholdId) (taskId : TaskId)
  | findByIdempotency (householdId : HouseholdId) (idempotencyKey : IdempotencyKey)
  | insertCommand (input : CheckedCommand) (confirmationRequired : Bool)
  | findCommand (key : CommandKey)
  | markExecutionPending (key : CommandKey) (site : ReconcileSite)
  | markExecutionFailed (key : CommandKey) (failureCode : String)
  | findReceipt (key : CommandKey)
  | findReadback (key : CommandKey)
  | recordReadback (householdId : HouseholdId) (result : ReadbackResult)
  | findTask (householdId : HouseholdId) (taskId : TaskId) (site : ReconcileSite)
  | transition (input : Db.TransitionRecord) (site : ReconcileSite)
  | connect (role : DomainRole)
  | begin
  | setTimeouts (statementTimeoutMs lockTimeoutMs idleTransactionTimeoutMs : Nat)
  | claim (key : CommandKey)
  | handlerCall (handler : HandlerIdentity) (command : CheckedCommand)
  | statement (layer : Layer) (query : Query)
  | handlerThrow (error : Thrown)
  | commitCommand (input : CommitInput)
  | commit
  | rollback
  | release
  | readConnect (role : DomainRole)
  | readQuery (query : Query)
  | now
  | sleep (milliseconds : Nat)
  | newReadbackId

@[reducible] def Reply : Call → Type
  | .findArtifact _ => Option ArtifactEnvelope
  | .findLatestVerdict _ _ => Option (VerdictRow × Json)
  | .findByIdempotency _ _ | .findCommand _ | .insertCommand _ _ => Option CommandRow
  | .markExecutionPending _ _ | .markExecutionFailed _ _ | .recordReadback _ _ => Nat
  | .findReceipt _ => Option MutationReceipt
  | .findReadback _ => Option ReadbackResult
  | .findTask _ _ _ => Option TaskRow
  | .transition _ _ => Db.TransitionOutcome
  | .claim _ => Option (CommandStatus × Option MutationReceiptId)
  | .statement _ _ | .readQuery _ => List Json
  | .commitCommand _ => MutationReceiptId × UtcInstant
  | .now => Nat
  | .newReadbackId => MutationReadbackId
  | .connect _ | .begin | .setTimeouts _ _ _ | .handlerCall _ _ | .handlerThrow _ | .commit | .rollback | .release
  | .readConnect _ | .sleep _ => Unit

/-- An open transaction of the runner: its snapshot, the rows it holds, the handler calls and
statements made in it, and the receipts it will insert. -/
structure Tx where
  snapshot : Option Db
  claimed : List CommandKey
  executed : List CommandKey
  statements : List Query
  receipts : List ReceiptRow

def Tx.fresh : Tx := ⟨none, [], [], [], []⟩

inductive Connection
  | closed
  | idle
  | active (tx : Tx)
  | aborted
  | lost

/-- Who holds a row lock: the session of a thread, or a COMMIT still on its way. -/
inductive Holder (ι : Type)
  | session (i : ι)
  | detached
  deriving DecidableEq

/-- The database with its sessions. `checked` remembers, for conditions on runs only, the
acceptance each thread last read. -/
structure Sys (ι : Type) where
  db : Db
  conn : ι → Connection
  locks : CommandKey → Option (Holder ι)
  inflight : List Tx
  checked : ι → Option (HouseholdId × TaskId × ArtifactId × ArtifactHash)

/-- What became of a call whose reply is an error. -/
inductive Fate
  | undone | done | pending | lost

inductive Choice
  | normal
  | rows (rows : List Json)
  | readbackId (id : MutationReadbackId)
  | fault (failure : PgFailure) (fate : Fate)

/-- The rows a statement returns. -/
def Choice.answer : Choice → List Json
  | rows answer => answer
  | _ => []

inductive Move (ι : Type)
  | tick (milliseconds : Nat)
  | disconnect (i : ι)
  | resolve (n : Nat) (committed : Bool)
  | createHousehold (householdId : HouseholdId)
  | createTask (householdId : HouseholdId) (taskId : TaskId)
  | transitionTask (input : Db.TransitionRecord)
  | linkMakerArtifact (householdId : HouseholdId) (taskId : TaskId) (artifactId : ArtifactId)
      (artifactHash : ArtifactHash)
  | saveArtifact (artifact : ArtifactEnvelope)
  | recordCheckerVerdict (householdId : HouseholdId) (taskId : TaskId)
      (checkerArtifactId : ArtifactId) (verdict : CheckerVerdict)
  | recordConfirmation (row : ConfirmationRow)

/-- The row of a command after a transaction that may have inserted its receipt. -/
def Db.committedRow (db : Db) (tx : Tx) (row : CommandRow) : CommandRow :=
  if tx.receipts.any fun receipt => receipt.key == row.key then
    { row with status := .committed, updatedAt := db.now }
  else row

/-- Apply a transaction: its receipts, the status of their commands, and the handler's effects. -/
def Db.commitTx (db : Db) (tx : Tx) : Db :=
  { db with
    receipts := db.receipts ++ tx.receipts
    commands := db.commands.map (db.committedRow tx)
    effects := db.effects ++ tx.executed.map fun key => ⟨key, tx.statements⟩ }

def serializationFailure : PgFailure :=
  ⟨some "40001", none, "could not serialize access due to concurrent update"⟩

def abortedFailure : PgFailure :=
  ⟨some "25P02", none, "current transaction is aborted, commands ignored until end of transaction block"⟩

namespace Sys

variable {ι : Type} [DecidableEq ι] {α : Type}

/-! ## Locks and sessions -/

/-- End the transaction of thread `i`, releasing its locks, and leave `c` as its connection. -/
def endTx (s : Sys ι) (i : ι) (c : Connection) : Sys ι :=
  { s with
    conn := Function.update s.conn i c
    locks := fun key => if s.locks key = some (.session i) then none else s.locks key }

/-- The server aborts the transaction of thread `i`, if it has one. -/
def abort (s : Sys ι) (i : ι) : Sys ι :=
  match s.conn i with
  | .active _ => s.endTx i .aborted
  | _ => s

def sever (s : Sys ι) (i : ι) : Sys ι := s.endTx i .lost

def setTx (s : Sys ι) (i : ι) (tx : Tx) : Sys ι :=
  { s with conn := Function.update s.conn i (.active tx) }

def lock (s : Sys ι) (i : ι) (key : CommandKey) : Sys ι :=
  { s with locks := Function.update s.locks key (some (.session i)) }

def lockedByOther (s : Sys ι) (i : ι) (key : CommandKey) : Bool :=
  (s.locks key).any fun holder => holder != .session i

/-- The COMMIT of thread `i` is on its way and keeps the locks of its transaction. -/
def detach (s : Sys ι) (i : ι) (tx : Tx) : Sys ι :=
  { s with
    conn := Function.update s.conn i .lost
    locks := fun key => if s.locks key = some (.session i) then some .detached else s.locks key
    inflight := s.inflight ++ [tx] }

/-! ## Statements -/

/-- A statement or transaction of the operations pool. -/
def autocommit (s : Sys ι) (f : Db → Except PgFailure (α × Db)) :
    Choice → Option (Except Thrown α × Sys ι)
  | .normal =>
    match f s.db with
    | .ok (a, db) => some (.ok a, { s with db })
    | .error e => some (.error (.pg e), s)
  | .fault e .undone => some (.error (.pg e), s)
  | .fault e .done =>
    match f s.db with
    | .ok (_, db) => some (.error (.pg e), { s with db })
    | .error _ => none
  | _ => none

def select (s : Sys ι) (f : Db → α) : Choice → Option (Except Thrown α × Sys ι) :=
  s.autocommit fun db => .ok (f db, db)

/-- A statement on the command row under `key` waits while another transaction holds the row. -/
def updating (s : Sys ι) (key : CommandKey) (status : CommandStatus)
    (f : Db → Except PgFailure (α × Db)) (choice : Choice) : Option (Except Thrown α × Sys ι) :=
  match choice with
  | .fault e .undone => some (.error (.pg e), s)
  | choice =>
    if (s.db.findCommand key).any (fun row => row.status == status) && (s.locks key).isSome then none
    else s.autocommit f choice

/-- A statement in the transaction of thread `i`. -/
def inTransaction (s : Sys ι) (i : ι) (f : Tx → Option (Except PgFailure (α × Sys ι))) :
    Choice → Option (Except Thrown α × Sys ι)
  | .fault e .undone => some (.error (.pg e), s.abort i)
  | .fault e .lost => some (.error (.pg e), s.sever i)
  | .fault _ _ => none
  | _ =>
    match s.conn i with
    | .active tx =>
      match f tx with
      | some (.ok (a, s')) => some (.ok a, s')
      | some (.error e) => some (.error (.pg e), s.abort i)
      | none => none
    | .aborted => some (.error (.pg abortedFailure), s)
    | _ => none

def claimable : List CommandStatus := [.execution_pending, .committed, .readback_verified]

/-- `claim_mutation_command`: the row as the snapshot has it, locked; it must not have changed. -/
def claim (s : Sys ι) (i : ι) (key : CommandKey) (tx : Tx) :
    Option (Except PgFailure (Option (CommandStatus × Option MutationReceiptId) × Sys ι)) :=
  let snapshot := tx.snapshot.getD s.db
  let tx := { tx with snapshot := some snapshot }
  match (snapshot.findCommand key).filter fun row => claimable.contains row.status with
  | none => some (.ok (none, s.setTx i tx))
  | some row =>
    if s.lockedByOther i key then none
    else if s.db.findCommand key ≠ some row then some (.error serializationFailure)
    else some (.ok (some (row.status, (snapshot.findReceipt key).map ReceiptRow.receiptId),
      (s.lock i key).setTx i { tx with claimed := key :: tx.claimed }))

def claimRequiredFailure : PgFailure :=
  constraintFailure "23514" "mutation_command_claim_required"
    "Mutation command is not execution pending"

/-- `commit_mutation_command`: lock the pending row, insert the receipt, mark it committed. -/
def commitCommand (s : Sys ι) (i : ι) (input : CommitInput) (tx : Tx) :
    Option (Except PgFailure ((MutationReceiptId × UtcInstant) × Sys ι)) :=
  let snapshot := tx.snapshot.getD s.db
  let tx := { tx with snapshot := some snapshot }
  match (snapshot.findCommand input.key).filter fun row => row.status == .execution_pending &&
      !(tx.receipts.any fun receipt => receipt.key == input.key) with
  | none => some (.error claimRequiredFailure)
  | some row =>
    if s.lockedByOther i input.key then none
    else if s.db.findCommand input.key ≠ some row then some (.error serializationFailure)
    else if s.db.receipts.any fun receipt => receipt.receiptId == input.receiptId then
      some (.error (uniqueViolation "mutation_receipts_public_unique"))
    else if s.db.receipts.any fun receipt => receipt.key == input.key then
      some (.error (uniqueViolation "mutation_receipts_command_unique"))
    else if input.committedRecords.isEmpty then
      some (.error (constraintFailure "23514" "mutation_receipts_records_array"
        "new row for relation \"mutation_receipts\" violates check constraint"))
    else
      let receipt : ReceiptRow :=
        { receiptId := input.receiptId, householdId := input.key.1, commandId := input.key.2
          committedRecords := input.committedRecords, expectedState := input.expectedState.jsonb
          expectedStateHash := input.expectedStateHash, committedAt := s.db.now }
      some (.ok ((receipt.receiptId, receipt.committedAt),
        (s.lock i input.key).setTx i { tx with
          claimed := input.key :: tx.claimed, receipts := tx.receipts ++ [receipt] }))

/-- COMMIT; on an aborted transaction it only ends it. -/
def commit (s : Sys ι) (i : ι) : Choice → Option (Except Thrown Unit × Sys ι)
  | .normal =>
    match s.conn i with
    | .active tx => some (.ok (), { s with db := s.db.commitTx tx }.endTx i .idle)
    | .aborted | .idle => some (.ok (), s.endTx i .idle)
    | _ => none
  | .fault e .undone => some (.error (.pg e), s.endTx i .idle)
  | .fault e .done =>
    match s.conn i with
    | .active tx => some (.error (.pg e), { s with db := s.db.commitTx tx }.sever i)
    | _ => none
  | .fault e .pending =>
    match s.conn i with
    | .active tx => some (.error (.pg e), s.detach i tx)
    | _ => none
  | .fault e .lost => some (.error (.pg e), s.sever i)
  | _ => none

/-- A call that only has to reach the server. -/
def plain (s : Sys ι) (a : α) (s' : Sys ι) : Choice → Option (Except Thrown α × Sys ι)
  | .normal => some (.ok a, s')
  | .fault e .undone => some (.error (.pg e), s)
  | _ => none

/-- A call that stays inside the process. -/
def inProcess (a : α) (s' : Sys ι) : Choice → Option (Except Thrown α × Sys ι)
  | .normal => some (.ok a, s')
  | _ => none

/-- BEGIN ISOLATION LEVEL SERIALIZABLE -/
def begin (s : Sys ι) (i : ι) : Choice → Option (Except Thrown Unit × Sys ι)
  | .normal =>
    match s.conn i with
    | .idle => some (.ok (), s.setTx i .fresh)
    | .active _ | .aborted => some (.ok (), s)
    | _ => none
  | .fault e .undone => some (.error (.pg e), s)
  | .fault e .lost => some (.error (.pg e), s.sever i)
  | _ => none

def rollback (s : Sys ι) (i : ι) : Choice → Option (Except Thrown Unit × Sys ι)
  | .normal =>
    match s.conn i with
    | .closed | .lost => none
    | _ => some (.ok (), s.endTx i .idle)
  | .fault e .lost => some (.error (.pg e), s.sever i)
  | _ => none

/-- A statement that only fixes the snapshot. -/
def look (s : Sys ι) (i : ι) (tx : Tx) : Option (Except PgFailure (Unit × Sys ι)) :=
  some (.ok ((), s.setTx i { tx with snapshot := some (tx.snapshot.getD s.db) }))

def statement (s : Sys ι) (i : ι) (query : Query) (rows : List Json) (tx : Tx) :
    Option (Except PgFailure (List Json × Sys ι)) :=
  some (.ok (rows, s.setTx i { tx with
    snapshot := some (tx.snapshot.getD s.db), statements := tx.statements ++ [query] }))

/-- Enter `handler.execute`; the client holds the transaction it will write in. -/
def handlerCall (s : Sys ι) (i : ι) (command : CheckedCommand) :
    Choice → Option (Except Thrown Unit × Sys ι) :=
  inProcess () <|
    match s.conn i with
    | .active tx => s.setTx i { tx with
        executed := tx.executed ++ [(command.householdId, command.commandId)] }
    | _ => s

def readRows (s : Sys ι) : Choice → Option (Except Thrown (List Json) × Sys ι)
  | .normal => some (.ok [], s)
  | .rows rows => some (.ok rows, s)
  | .fault e .undone => some (.error (.pg e), s)
  | _ => none

def newReadbackId (s : Sys ι) : Choice → Option (Except Thrown MutationReadbackId × Sys ι)
  | .readbackId id => some (.ok id, s)
  | _ => none

/-- Remember the acceptance a thread has read. -/
def remember (s : Sys ι) (i : ι) (row : Option (VerdictRow × Json)) : Sys ι :=
  { s with checked := Function.update s.checked i <|
      (row.filter fun row => row.1.verdict == .accepted).map fun row =>
        (row.1.householdId, row.1.taskId, row.1.coveredArtifactId, row.1.coveredArtifactHash) }

/-- One call of thread `i`; `none` while it waits or when the choice does not fit. -/
def run (jsonIn : String → Option Json) (i : ι) :
    (call : Call) → Choice → Sys ι → Option (Except Thrown (Reply call) × Sys ι)
  | .findArtifact artifactId, choice, s => s.select (·.findArtifact artifactId) choice
  | .findLatestVerdict householdId taskId, choice, s =>
    (s.select (·.findLatestVerdict householdId taskId) choice).map fun
      | (.ok row, s) => (.ok row, s.remember i row)
      | (.error e, s) => (.error e, s)
  | .findByIdempotency householdId idempotencyKey, choice, s =>
    s.select (·.findByIdempotency householdId idempotencyKey) choice
  | .insertCommand input confirmationRequired, choice, s =>
    s.autocommit (·.insertCommand jsonIn input confirmationRequired) choice
  | .findCommand key, choice, s => s.select (·.findCommand key) choice
  | .markExecutionPending key _, choice, s =>
    s.updating key .registered (·.markExecutionPending key) choice
  | .markExecutionFailed key failureCode, choice, s =>
    s.updating key .execution_pending (·.markExecutionFailed key failureCode) choice
  | .findReceipt key, choice, s => s.select (·.selectReceipt key) choice
  | .findReadback key, choice, s => s.select (·.selectReadback key) choice
  | .recordReadback householdId result, choice, s =>
    s.updating (householdId, result.commandId) .committed (·.recordReadback householdId result)
      choice
  | .findTask householdId taskId _, choice, s => s.select (·.findTask householdId taskId) choice
  | .transition input _, choice, s => s.autocommit (·.transition input) choice
  | .connect _, choice, s => s.plain () (s.endTx i .idle) choice
  | .begin, choice, s => s.begin i choice
  | .setTimeouts _ _ _, choice, s =>
    s.inTransaction i (s.look i) choice
  | .claim key, choice, s => s.inTransaction i (s.claim i key) choice
  | .handlerCall _ command, choice, s => s.handlerCall i command choice
  | .handlerThrow _, choice, s => inProcess () s choice
  | .statement _ query, choice, s => s.inTransaction i (s.statement i query choice.answer) choice
  | .commitCommand input, choice, s => s.inTransaction i (s.commitCommand i input) choice
  | .commit, choice, s => s.commit i choice
  | .rollback, choice, s => s.rollback i choice
  | .release, choice, s => inProcess () (s.endTx i .closed) choice
  | .readConnect _, choice, s => s.plain () s choice
  | .readQuery _, choice, s => s.readRows choice
  | .now, choice, s => inProcess s.db.now s choice
  | .sleep _, choice, s => inProcess () s choice
  | .newReadbackId, choice, s => s.newReadbackId choice

/-- A COMMIT on its way arrives, or turns out never to have. -/
def resolve (s : Sys ι) (n : Nat) (committed : Bool) : Option (Sys ι) :=
  (s.inflight[n]?).map fun tx =>
    { s with
      db := if committed then s.db.commitTx tx else s.db
      locks := fun key => if tx.claimed.contains key then none else s.locks key
      inflight := s.inflight.eraseIdx n }

def onDb (s : Sys ι) (db : Option Db) : Option (Sys ι) := db.map fun db => { s with db }

def env (s : Sys ι) : Move ι → Option (Sys ι)
  | .tick milliseconds => s.onDb (some { s.db with now := s.db.now + milliseconds })
  | .disconnect i => some (s.sever i)
  | .resolve n committed => s.resolve n committed
  | .createHousehold householdId =>
    s.onDb (if s.db.households.contains householdId then none
      else some { s.db with households := s.db.households ++ [householdId] })
  | .createTask householdId taskId => s.onDb (s.db.createTask householdId taskId)
  | .transitionTask input =>
    match s.db.transition input with
    | .ok (.done _, db) => s.onDb (some db)
    | _ => none
  | .linkMakerArtifact householdId taskId artifactId artifactHash =>
    s.onDb (s.db.linkMakerArtifact householdId taskId artifactId artifactHash)
  | .saveArtifact artifact => s.onDb (s.db.saveArtifact artifact)
  | .recordCheckerVerdict householdId taskId checkerArtifactId verdict =>
    s.onDb (s.db.recordCheckerVerdict householdId taskId checkerArtifactId verdict)
  | .recordConfirmation row => s.onDb (s.db.recordConfirmation row)

def leave (i : ι) (s : Sys ι) : Sys ι :=
  { s with checked := Function.update s.checked i none }

/-- All sessions closed, nothing locked or on its way. -/
def atRest (db : Db) : Sys ι :=
  ⟨db, fun _ => .closed, fun _ => none, [], fun _ => none⟩

end Sys

/-- The mutation path as a system of interleaved calls. -/
def mutationSystem (ι : Type) [DecidableEq ι] (jsonIn : String → Option Json) :
    System ι Call Reply Thrown (Sys ι) where
  Choice := Choice
  Move := Move ι
  run := Sys.run jsonIn
  env := fun move s => s.env move
  leave := Sys.leave

end PlusOne
