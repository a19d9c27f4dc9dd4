import PlusOne.Interleaving.History
import PlusOne.Verification.StateMachine

/-! # The verification ledger

The statements and transactions of the ledger and artifact repositories, next to the
calls of the mutation path, over one shared database. Every transition also appends
a row to `task_transitions`. A transaction that changes a task holds the lock on its
row until it ends, so one that has not ended yet keeps the others out. -/

namespace PlusOne

open Interleaving

/-- A row of `task_transitions`. -/
structure TransitionRow where
  householdId : HouseholdId
  taskId : TaskId
  sequence : Nat
  fromStatus : Option TaskStatus
  toStatus : TaskStatus
  reasonCode : String
  responsibleComponent : String
  acceptedAt : UtcInstant

/-- A task is looked up by its household and its public identifier. -/
abbrev TaskKey := HouseholdId × TaskId

def TransitionRow.key (row : TransitionRow) : TaskKey := (row.householdId, row.taskId)

def TransitionRow.entry (row : TransitionRow) : Entry TaskStatus :=
  ⟨row.sequence, row.fromStatus, row.toStatus⟩

def TaskRow.key (row : TaskRow) : TaskKey := (row.householdId, row.taskId)

def Db.TransitionRecord.key (input : Db.TransitionRecord) : TaskKey :=
  (input.householdId, input.taskId)

structure CreateTaskRecord where
  householdId : HouseholdId
  taskId : TaskId
  parentTaskId : Option TaskId
  attemptLimit : Nat

structure PolicyIdentity where
  policyName : String
  policyVersion : Nat

structure SkillIdentity where
  skillName : String
  skillVersion : Nat
  contentHash : String
  deriving DecidableEq

/-- The contract columns that `selectExecutionContract` fills in; nothing here reads them back. -/
structure ContractSelection where
  householdId : HouseholdId
  taskId : TaskId
  skill : SkillIdentity
  inputSchema : SchemaIdentity
  outputSchema : SchemaIdentity
  policy : PolicyIdentity

/-- `verification_tasks_skill_complete` and its two siblings. -/
def ContractSelection.complete (input : ContractSelection) : Bool :=
  decide (0 < input.skill.skillVersion) && decide (input.skill.contentHash.length = 64) &&
    input.skill.contentHash.toList.all isHexDigit && decide (0 < input.inputSchema.schemaVersion) &&
    decide (0 < input.outputSchema.schemaVersion) && decide (0 < input.policy.policyVersion)

/-- What the transaction of `recordCheckerVerdict` comes to. -/
inductive VerdictOutcome
  | notFound | coverageMismatch | conflict | recorded

def integerOverflow : PgFailure := ⟨some "22003", none, "integer out of range"⟩

def checkViolation (constraint : String) : PgFailure :=
  constraintFailure "23514" constraint "new row violates check constraint"

def foreignKeyViolation (constraint : String) : PgFailure :=
  constraintFailure "23503" constraint "insert or update violates foreign key constraint"

/-- The tables of the ledger. -/
structure Ledger where
  db : Db
  transitions : List TransitionRow

namespace Ledger

def historyOf (l : Ledger) (key : TaskKey) : List TransitionRow :=
  l.transitions.filter fun row => row.key == key

/-- `SELECT COALESCE(MAX(sequence), 0) + 1` -/
def nextSequence (l : Ledger) (key : TaskKey) : Nat :=
  ((l.historyOf key).map TransitionRow.sequence).foldl max 0 + 1

def insertTransition (l : Ledger) (row : TransitionRow) : Except PgFailure Ledger :=
  if 2147483647 < row.sequence then .error integerOverflow
  else if l.transitions.any fun old => old.key == row.key && old.sequence == row.sequence then
    .error (uniqueViolation "task_transitions_unique")
  else .ok { l with transitions := l.transitions ++ [row] }

/-- The transaction of `createTask`; no row when the household is unknown. -/
def createTask (l : Ledger) (input : CreateTaskRecord) :
    Except PgFailure (Option TaskRow × Ledger) := do
  if 2147483647 < input.attemptLimit then throw integerOverflow
  if !l.db.households.contains input.householdId then return (none, l)
  if input.attemptLimit = 0 then throw (checkViolation "verification_tasks_attempt_limit_positive")
  if l.db.tasks.any fun row => row.taskId == input.taskId then
    throw (uniqueViolation "verification_tasks_public_id_unique")
  if (input.parentTaskId.any fun parentTaskId => parentTaskId != input.taskId &&
      (l.db.findTask input.householdId parentTaskId).isNone) then
    throw (foreignKeyViolation "verification_tasks_parent_fk")
  let task : TaskRow :=
    { householdId := input.householdId, taskId := input.taskId, status := .created
      currentMakerArtifact := none, currentCheckerArtifactId := none, failureCategory := none
      resumable := true, terminalAt := none, updatedAt := l.db.now }
  let created ← { l with db := { l.db with tasks := l.db.tasks ++ [task] } }.insertTransition
    { householdId := input.householdId, taskId := input.taskId, sequence := 1, fromStatus := none
      toStatus := .created, reasonCode := "task_created"
      responsibleComponent := "VerificationRuntime", acceptedAt := l.db.now }
  return (some task, created)

/-- The row `transition` appends. -/
def loggedRow (l : Ledger) (input : Db.TransitionRecord) : TransitionRow :=
  { householdId := input.householdId, taskId := input.taskId
    sequence := l.nextSequence input.key, fromStatus := some input.expectedFrom
    toStatus := input.toStatus, reasonCode := input.reasonCode
    responsibleComponent := input.responsibleComponent, acceptedAt := l.db.now }

/-- The transaction of `transition`: under the lock on the task, the row of the log and then the
task itself. -/
def transition (l : Ledger) (input : Db.TransitionRecord) :
    Except PgFailure (Db.TransitionOutcome × Ledger) := do
  let (outcome, db) ← l.db.transition input
  match outcome with
  | .done task =>
    let logged ← l.insertTransition (l.loggedRow input)
    return (.done task, { logged with db })
  | outcome => return (outcome, l)

/-- `UPDATE … WHERE status = 'created'` of `selectExecutionContract`; the row count. -/
def selectExecutionContract (l : Ledger) (input : ContractSelection) :
    Except PgFailure (Nat × Ledger) :=
  match l.db.findTask input.householdId input.taskId with
  | none => .ok (0, l)
  | some task =>
    if task.status ≠ .created then .ok (0, l)
    else if !input.complete then .error (checkViolation "verification_tasks_skill_complete")
    else .ok (1, { l with db := l.db.replaceTask { task with updatedAt := l.db.now } })

/-- `UPDATE … WHERE status = 'maker_running'` of `linkMakerArtifact`; the row count. -/
def linkMakerArtifact (l : Ledger) (key : TaskKey) (artifactId : ArtifactId)
    (artifactHash : ArtifactHash) : Except PgFailure (Nat × Ledger) :=
  match l.db.linkMakerArtifact key.1 key.2 artifactId artifactHash with
  | none => .ok (0, l)
  | some db =>
    if (l.db.findExactArtifact key.1 key.2 artifactId artifactHash).isNone then
      .error (foreignKeyViolation "verification_tasks_maker_artifact_fk")
    else .ok (1, { l with db })

/-- Whether the task's checker is running on exactly what a verdict covers. -/
def covers (task : TaskRow) (verdict : CheckerVerdict) : Bool :=
  task.status == .checker_running && task.currentMakerArtifact ==
    some (verdict.coveredArtifactId, verdict.coveredArtifactHash)

/-- The transaction of `recordCheckerVerdict`. -/
def recordCheckerVerdict (l : Ledger) (key : TaskKey) (checkerArtifactId : ArtifactId)
    (verdict : CheckerVerdict) : Except PgFailure (VerdictOutcome × Ledger) :=
  match l.db.findTask key.1 key.2 with
  | none => .ok (.notFound, l)
  | some task =>
    if !covers task verdict then .ok (.coverageMismatch, l)
    else
      match l.db.recordCheckerVerdict key.1 key.2 checkerArtifactId verdict with
      | some db => .ok (.recorded, { l with db })
      | none =>
        if l.db.verdicts.any fun old => old.householdId == key.1 && old.taskId == key.2 &&
            old.checkerArtifactId == checkerArtifactId then .ok (.conflict, l)
        else .error (foreignKeyViolation "checker_verdicts_checker_artifact_fk")

/-- `INSERT INTO operations.artifacts`; the row count is 0 when the household is unknown. -/
def insertArtifact (l : Ledger) (artifact : ArtifactEnvelope) : Except PgFailure (Nat × Ledger) :=
  if !l.db.households.contains artifact.householdId then .ok (0, l)
  else if (l.db.findArtifact artifact.artifactId).isSome then
    .error (uniqueViolation "artifacts_public_unique")
  else if l.db.artifacts.any fun old => old.householdId == artifact.householdId &&
      old.taskId == artifact.taskId && old.artifactHash == artifact.artifactHash then
    .error (uniqueViolation "artifacts_household_task_hash_unique")
  else if (l.db.findTask artifact.householdId artifact.taskId).isNone then
    .error (foreignKeyViolation "artifacts_task_fk")
  else .ok (1, { l with db := { l.db with
    artifacts := l.db.artifacts ++ [{ artifact with payload := artifact.payload.jsonb }] } })

def findByTaskAndHash (l : Ledger) (key : TaskKey) (artifactHash : ArtifactHash) :
    Option ArtifactEnvelope :=
  l.db.artifacts.find? fun row => row.householdId == key.1 && row.taskId == key.2 &&
    row.artifactHash == artifactHash

end Ledger

/-- The calls of the runtime on the ledger and the artifact repository. -/
inductive LedgerCall
  | createTask (input : CreateTaskRecord)
  | selectExecutionContract (input : ContractSelection)
  | linkMakerArtifact (key : TaskKey) (artifactId : ArtifactId) (artifactHash : ArtifactHash)
  | recordCheckerVerdict (key : TaskKey) (checkerArtifactId : ArtifactId) (verdict : CheckerVerdict)
  | transition (input : Db.TransitionRecord)
  | findTask (key : TaskKey)
  | insertArtifact (artifact : ArtifactEnvelope)
  | findByTaskAndHash (key : TaskKey) (artifactHash : ArtifactHash)

@[reducible] def LedgerReply : LedgerCall → Type
  | .createTask _ | .findTask _ => Option TaskRow
  | .selectExecutionContract _ | .linkMakerArtifact _ _ _ | .insertArtifact _ => Nat
  | .recordCheckerVerdict _ _ _ => VerdictOutcome
  | .transition _ => Db.TransitionOutcome
  | .findByTaskAndHash _ _ => Option ArtifactEnvelope

namespace LedgerCall

/-- What a call answers and leaves behind when it is carried out at once. -/
def perform : (call : LedgerCall) → Ledger → Except PgFailure (LedgerReply call × Ledger)
  | .createTask input, l => l.createTask input
  | .selectExecutionContract input, l => l.selectExecutionContract input
  | .linkMakerArtifact key artifactId artifactHash, l => l.linkMakerArtifact key artifactId artifactHash
  | .recordCheckerVerdict key checkerArtifactId verdict, l =>
    l.recordCheckerVerdict key checkerArtifactId verdict
  | .transition input, l => l.transition input
  | .findTask key, l => .ok (l.db.findTask key.1 key.2, l)
  | .insertArtifact artifact, l => l.insertArtifact artifact
  | .findByTaskAndHash key artifactHash, l => .ok (l.findByTaskAndHash key artifactHash, l)

/-- The task whose row a call locks. -/
def locks : LedgerCall → Option TaskKey
  | .selectExecutionContract input => some (input.householdId, input.taskId)
  | .linkMakerArtifact key _ _ | .recordCheckerVerdict key _ _ => some key
  | .transition input => some input.key
  | .createTask _ | .findTask _ | .insertArtifact _ | .findByTaskAndHash _ _ => none

end LedgerCall

/-- What a thread of the ledger system calls: the runtime's calls or those of the mutation path. -/
abbrev AnyCall := LedgerCall ⊕ Call

abbrev AnyReply : AnyCall → Type := Sum.elim LedgerReply Reply

/-- The sessions of the mutation path, the log of transitions, and the calls that were given up
before the server was done with them. -/
structure LedgerSys (ι : Type) where
  sys : Sys ι
  transitions : List TransitionRow
  inflight : List LedgerCall

/-- What happens beside the programs: other code of the mutation path makes a call that moves no
task, the outside acts on the database, or an unfinished call is settled. -/
inductive LedgerMove (ι : Type)
  | call (i : ι) (call : Call) (choice : Choice)
  | outside (move : Move ι)
  | resolve (n : Nat) (committed : Bool)

/-- The one call of the mutation path that moves a task. -/
def Call.movesTask : Call → Bool
  | .transition _ _ => true
  | _ => false

/-- The outside moves on tasks; they are the runtime's and are made by its programs here. -/
def Move.onTask {ι : Type} : Move ι → Bool
  | .createTask _ _ | .transitionTask _ | .linkMakerArtifact _ _ _ _
  | .recordCheckerVerdict _ _ _ _ => true
  | _ => false

namespace LedgerSys

variable {ι : Type} [DecidableEq ι] {α : Type}

def ledger (s : LedgerSys ι) : Ledger := ⟨s.sys.db, s.transitions⟩

def withLedger (s : LedgerSys ι) (l : Ledger) : LedgerSys ι :=
  { s with sys := { s.sys with db := l.db }, transitions := l.transitions }

/-- An unfinished transaction holds the row of the task. -/
def blocked (s : LedgerSys ι) (call : LedgerCall) : Bool :=
  call.locks.any fun key => s.inflight.any fun other => other.locks == some key

/-- One call of the runtime. An error reply may stand for a call that was not carried out, for one
that was, and for one that still may be. -/
def perform (s : LedgerSys ι) (call : LedgerCall) :
    Choice → Option (Except Thrown (LedgerReply call) × LedgerSys ι)
  | .fault e .undone => some (.error (.pg e), s)
  | choice =>
    if s.blocked call then none
    else
      match choice, call.perform s.ledger with
      | .normal, .ok (a, l) => some (.ok a, s.withLedger l)
      | .normal, .error e => some (.error (.pg e), s)
      | .fault e .done, .ok (_, l) => some (.error (.pg e), s.withLedger l)
      | .fault e .pending, .ok _ =>
        some (.error (.pg e), { s with inflight := s.inflight ++ [call] })
      | _, _ => none

def run (jsonIn : String → Option Json) (i : ι) :
    (call : AnyCall) → Choice → LedgerSys ι → Option (Except Thrown (AnyReply call) × LedgerSys ι)
  | .inl call, choice, s => s.perform call choice
  | .inr (.transition input _), choice, s => s.perform (.transition input) choice
  | .inr call, choice, s =>
    (s.sys.run jsonIn i call choice).map fun (r, sys) => (r, { s with sys })

/-- An unfinished call takes effect after all, or turns out never to. -/
def resolve (s : LedgerSys ι) (n : Nat) (committed : Bool) : Option (LedgerSys ι) :=
  (s.inflight[n]?).map fun call =>
    let freed := { s with inflight := s.inflight.eraseIdx n }
    if committed then
      match call.perform s.ledger with
      | .ok (_, l) => freed.withLedger l
      | .error _ => freed
    else freed

def env (jsonIn : String → Option Json) (s : LedgerSys ι) : LedgerMove ι → Option (LedgerSys ι)
  | .call i call choice =>
    if call.movesTask then none
    else (s.sys.run jsonIn i call choice).map fun (_, sys) => { s with sys }
  | .outside move =>
    if move.onTask then none else (s.sys.env move).map fun sys => { s with sys }
  | .resolve n committed => s.resolve n committed

end LedgerSys

/-- The ledger as a system of interleaved calls. -/
def ledgerSystem (ι : Type) [DecidableEq ι] (jsonIn : String → Option Json) :
    System ι AnyCall AnyReply Thrown (LedgerSys ι) where
  Choice := Choice
  Move := LedgerMove ι
  run := LedgerSys.run jsonIn
  env := fun move s => s.env jsonIn move
  leave := fun _ s => s

end PlusOne
