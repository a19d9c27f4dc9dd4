import PlusOne.Mutations.Repository

/-! # Reconciling a command with its verification task -/

namespace PlusOne

open Interleaving

def TaskStatus.text : TaskStatus → String
  | created => "created"
  | skill_selected => "skill_selected"
  | maker_running => "maker_running"
  | maker_validated => "maker_validated"
  | checker_running => "checker_running"
  | checker_validated => "checker_validated"
  | revision_requested => "revision_requested"
  | execution_pending => "execution_pending"
  | committed => "committed"
  | readback_verified => "readback_verified"
  | execution_failed => "execution_failed"
  | readback_failed => "readback_failed"
  | verified => "verified"
  | partialResult => "partial"
  | insufficient_evidence => "insufficient_evidence"
  | conflicted => "conflicted"
  | failed => "failed"

def CommandStatus.text : CommandStatus → String
  | registered => "registered"
  | execution_pending => "execution_pending"
  | committed => "committed"
  | readback_verified => "readback_verified"
  | execution_failed => "execution_failed"
  | readback_failed => "readback_failed"

def commandNotFound (commandId : MutationCommandId) : PlusOneError :=
  { category := .validation_rejected
    code := "mutation_command_not_found"
    message := "Mutation command was not found"
    retry := .never
    receiptLookupRequired := false
    details := [("commandId", .text commandId.text)] }

def inconsistent (command : MutationCommandRecord) (taskStatus : String) : PlusOneError :=
  { category := .constraint_violation
    code := "mutation_state_inconsistent"
    message := "Mutation command and verification task states are inconsistent"
    retry := .after_state_resolution
    receiptLookupRequired := true
    details := [("commandId", .text command.commandId.text),
      ("commandStatus", .text command.status.text), ("taskStatus", .text taskStatus)] }

def taskNotFound (taskId : TaskId) : PlusOneError :=
  { category := .validation_rejected
    code := "task_not_found"
    message := "Verification task was not found"
    retry := .never
    receiptLookupRequired := false
    details := [("taskId", .text taskId.text)] }

def staleTaskState (taskId : TaskId) (expected actual : TaskStatus) : PlusOneError :=
  { category := .constraint_violation
    code := "stale_task_state"
    message := "Task state changed before transition could be accepted"
    retry := .safe
    receiptLookupRequired := false
    details := [("taskId", .text taskId.text), ("expected", .text expected.text),
      ("actual", .text actual.text)] }

/-- `ledger.transition` -/
def ledgerTransition (input : Db.TransitionRecord) (site : ReconcileSite) : Program TaskRow := do
  let outcome : Db.TransitionOutcome ← issue (.transition input site)
  match outcome with
  | .notFound => .throw (.plusOne (taskNotFound input.taskId))
  | .stale actual => .throw (.plusOne (staleTaskState input.taskId input.expectedFrom actual))
  | .done task => return task

/-- One branch of the resolver's `switch`: where the task is moved from and to, and the task
statuses it leaves alone. -/
structure Alignment where
  expectedFrom : TaskStatus
  toStatus : TaskStatus
  settled : List TaskStatus
  reasonCode : String
  terminal : Bool
  failureCategory : Option String

def alignmentOf (command : MutationCommandRecord) : Alignment :=
  match command.status with
  | .registered =>
    ⟨.checker_validated, .execution_pending, [.execution_pending], "recover_registered_mutation",
      false, none⟩
  | .execution_pending =>
    ⟨.checker_validated, .execution_pending, [.execution_pending], "recover_pending_mutation",
      false, none⟩
  | .committed =>
    ⟨.execution_pending, .committed, [.committed], "recover_committed_mutation", false, none⟩
  | .readback_verified =>
    ⟨.committed, .readback_verified, [.readback_verified, .verified], "recover_verified_readback",
      false, none⟩
  | .execution_failed =>
    ⟨.execution_pending, .execution_failed, [.execution_failed], "recover_execution_failure",
      true, some (command.failureCategory.getD "runtime_failure")⟩
  | .readback_failed =>
    ⟨.committed, .readback_failed, [.readback_failed], "recover_readback_failure",
      true, some (command.failureCategory.getD "readback_mismatch")⟩

/-- Bring the task to where `command` already is, or find the two inconsistent. -/
def alignTask (command : MutationCommandRecord) (site : ReconcileSite) (taskStatus : TaskStatus) :
    Program Unit :=
  let alignment := alignmentOf command
  if taskStatus = alignment.expectedFrom then do
    let _ ← ledgerTransition
      { householdId := command.householdId, taskId := command.taskId
        expectedFrom := alignment.expectedFrom, toStatus := alignment.toStatus
        reasonCode := alignment.reasonCode, responsibleComponent := "CommandStateResolver"
        terminal := alignment.terminal, failureCategory := alignment.failureCategory
        resumable := alignment.failureCategory.map fun _ => false } site
    return ()
  else if taskStatus ∉ alignment.settled then
    .throw (.plusOne (inconsistent command taskStatus.text))
  else .ret ()

/-- What `reconcileOnce` returns once the task is aligned; a registered command is made pending
and read again. -/
def settle (command : MutationCommandRecord) (key : CommandKey) (site : ReconcileSite) :
    Program MutationCommandRecord :=
  if command.status = .registered then do
    markExecutionPending key site
    let updated ← findByCommandId key
    match updated with
    | some updated => return updated
    -- an undefined record is returned and only fails where its status is read
    | none => .throw (.error "Cannot read properties of undefined (reading 'status')")
  else .ret command

def reconcileOnce (key : CommandKey) (attempt : Nat) : Program MutationCommandRecord := do
  let found ← findByCommandId key
  match found with
  | none => .throw (.plusOne (commandNotFound key.2))
  | some command =>
    let site : ReconcileSite := ⟨attempt, command.status⟩
    let task : Option TaskRow ← issue (.findTask key.1 command.taskId site)
    match task with
    | none => .throw (.plusOne (inconsistent command "missing_task"))
    | some task =>
      alignTask command site task.status
      settle command key site

/-- Whether `reconcile` tries again after an error of `reconcileOnce`. -/
def reconcileRetries : Thrown → Bool
  | .plusOne error => error.category == .serialization_conflict || error.code == "stale_task_state"
  | _ => false

/-- The loop of `reconcile` from an attempt on, with the attempts that are left after it. -/
def reconcileFrom (key : CommandKey) (attempt : Nat) : Nat → Program MutationCommandRecord
  | 0 => reconcileOnce key attempt
  | left + 1 => (reconcileOnce key attempt).tryCatch fun error =>
    if reconcileRetries error then reconcileFrom key (attempt + 1) left else .throw error

def reconcile (key : CommandKey) : Program MutationCommandRecord := reconcileFrom key 1 2

end PlusOne
