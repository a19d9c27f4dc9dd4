import PlusOne.Mutations.Repository

/-! # The serializable mutation runner -/

namespace PlusOne

open Interleaving

/-- A retry policy; the runner refuses to be built with more than five attempts or none. -/
structure SerializableMutationPolicy where
  maxAttempts : Nat
  statementTimeoutMs : Nat
  lockTimeoutMs : Nat
  idleTransactionTimeoutMs : Nat
  overallTimeoutMs : Nat
  retryDelayMs : Nat
  attempts : 1 ≤ maxAttempts ∧ maxAttempts ≤ 5

def defaultPolicy : SerializableMutationPolicy where
  maxAttempts := 3
  statementTimeoutMs := 5000
  lockTimeoutMs := 1000
  idleTransactionTimeoutMs := 5000
  overallTimeoutMs := 15000
  retryDelayMs := 25
  attempts := by decide

def CheckedCommand.key (command : CheckedCommand) : CommandKey :=
  (command.householdId, command.commandId)

/-- What one run of the runner is given. -/
structure RunInput where
  command : CheckedCommand
  handler : MutationCommandHandler
  input : Json
  receiptId : MutationReceiptId

/-! ## Errors -/

def commandDetails (command : CheckedCommand) : List (String × ErrorDetail) :=
  [("commandId", .text command.commandId.text)]

def retryExhausted (command : CheckedCommand) (code : String) : PlusOneError :=
  { category := .serialization_conflict
    code
    message := "Mutation transaction retry policy was exhausted"
    retry := .after_state_resolution
    receiptLookupRequired := true
    details := commandDetails command }

def ambiguousMutationCommit (command : CheckedCommand) : PlusOneError :=
  { category := .storage_unavailable
    code := "ambiguous_mutation_commit"
    message := "Mutation commit result is ambiguous and requires command-state resolution"
    retry := .after_state_resolution
    receiptLookupRequired := true
    details := commandDetails command }

def committedCommandReceiptMissing (command : CheckedCommand) : PlusOneError :=
  { category := .constraint_violation
    code := "committed_command_receipt_missing"
    message := "Committed mutation command has no durable receipt"
    retry := .never
    receiptLookupRequired := true
    details := commandDetails command }

def isSerializationFailure (error : Thrown) : Bool := error.code == some "40001"

def isConnectionFailure (error : Thrown) : Bool := error.code.any (startsWith · "08")

/-! ## The domain command bridge -/

namespace Bridge

def normalized {α : Type} (p : Program α) : Program α :=
  p.tryCatch fun error => .throw (.plusOne (normalizeMutationDatabaseError error))

def claim (key : CommandKey) : Program (CommandStatus × Option MutationReceiptId) :=
  normalized do
    let row : Option (CommandStatus × Option MutationReceiptId) ← issue (.claim key)
    match row with
    | none => .throw (.error "Mutation command was not claimable")
    | some row => return row

def commit (input : CommitInput) : Program (MutationReceiptId × UtcInstant) :=
  normalized (issue (.commitCommand input))

end Bridge

/-! ## One attempt -/

def applyTimeouts (policy : SerializableMutationPolicy) : Program Unit :=
  issue (.setTimeouts policy.statementTimeoutMs policy.lockTimeoutMs policy.idleTransactionTimeoutMs)

def requireExistingReceipt (command : CheckedCommand) : Program MutationReceipt := do
  let receipt ← findReceiptByCommand command.key
  match receipt with
  | none => .throw (.plusOne (committedCommandReceiptMissing command))
  | some receipt => return receipt

/-- `handler.execute(client, input, command)` -/
def executeHandler (run : RunInput) : Program MutationExecutionOutput := do
  let _ ← issue (.handlerCall run.handler.toHandlerIdentity run.command)
  (run.handler.execute run.input run.command).onClient

/-- How far the transaction of an attempt got before COMMIT. -/
inductive Prepared
  | existing
  | committing (output : MutationExecutionOutput) (receiptId : MutationReceiptId)
      (committedAt : UtcInstant)

/-- The attempt between BEGIN and COMMIT: claim, and roll back unless the command is pending;
otherwise run the handler and insert its receipt. -/
def prepareCommit (P : Platform) (policy : SerializableMutationPolicy) (run : RunInput) :
    Program Prepared := do
  applyTimeouts policy
  let claim ← Bridge.claim run.command.key
  if claim.1 ≠ .execution_pending then
    let _ ← issue .rollback
    return .existing
  else
    let output ← executeHandler run
    let committed ← Bridge.commit
      { key := run.command.key, receiptId := run.receiptId
        committedRecords := output.committedRecords, expectedState := output.expectedState
        expectedStateHash := hashArtifact P output.expectedState }
    return .committing output committed.1 committed.2

def builtReceipt (P : Platform) (command : CheckedCommand) (output : MutationExecutionOutput)
    (receiptId : MutationReceiptId) (committedAt : UtcInstant) : MutationReceipt :=
  { receiptId, commandId := command.commandId, householdId := command.householdId
    taskId := command.taskId, checkedProposalId := command.checkedProposalId
    checkedProposalHash := command.checkedProposalHash, commandType := command.commandType
    idempotencyKey := command.idempotencyKey, committedRecords := output.committedRecords
    expectedState := output.expectedState
    expectedStateHash := hashArtifact P output.expectedState, committedAt }

/-- `MutationReceiptSchemaV1.parse` -/
def parseReceipt (receipt : MutationReceipt) : Program MutationReceipt :=
  if receipt.valid then .ret receipt else .throw .zodError

/-- What the `catch` of an attempt decides once no receipt was found; `none` is `continue`. -/
def decideFailure (policy : SerializableMutationPolicy) (run : RunInput) (attempt : Nat)
    (error : Thrown) : Program (Option MutationReceipt) :=
  if isSerializationFailure error ∧ attempt < policy.maxAttempts then
    (issue (.sleep (policy.retryDelayMs * attempt))).bind fun _ => .ret none
  else if isSerializationFailure error then
    .throw (.plusOne (retryExhausted run.command "serialization_retry_exhausted"))
  else if error.isPlusOneError then .throw error
  else .throw (.plusOne (normalizeDatabaseError error { operation := "serializable-mutation" }))

def rollbackIfOpen (began commitAttempted : Bool) : Program Unit :=
  if began && !commitAttempted then (issue .rollback).tryCatch fun _ => .ret () else .ret ()

/-- The `catch` of an attempt, for the flags as they stood when the error was thrown. -/
def attemptFailed (policy : SerializableMutationPolicy) (run : RunInput) (attempt : Nat)
    (began commitAttempted : Bool) (error : Thrown) : Program (Option MutationReceipt) := do
  rollbackIfOpen began commitAttempted
  if commitAttempted || isConnectionFailure error then
    let receipt ← findReceiptByCommand run.command.key
    if receipt.isSome then return receipt
    else if commitAttempted then .throw (.plusOne (ambiguousMutationCommit run.command))
    else decideFailure policy run attempt error
  else decideFailure policy run attempt error

/-- COMMIT, and the receipt built from what was committed. -/
def finishCommit (P : Platform) (policy : SerializableMutationPolicy) (run : RunInput)
    (attempt : Nat) (output : MutationExecutionOutput) (receiptId : MutationReceiptId)
    (committedAt : UtcInstant) : Program (Option MutationReceipt) :=
  (issue .commit).handle
    (fun _ => (parseReceipt (builtReceipt P run.command output receiptId committedAt)).handle
      (fun receipt => .ret (some receipt)) (attemptFailed policy run attempt false true))
    (attemptFailed policy run attempt true true)

/-- The `try` and `catch` of one attempt on a connected client. -/
def attemptTransaction (P : Platform) (policy : SerializableMutationPolicy) (run : RunInput)
    (attempt : Nat) : Program (Option MutationReceipt) :=
  (issue .begin).handle
    (fun _ => (prepareCommit P policy run).handle
      (fun
        | .existing => (requireExistingReceipt run.command).handle
            (fun receipt => .ret (some receipt)) (attemptFailed policy run attempt false false)
        | .committing output receiptId committedAt =>
          finishCommit P policy run attempt output receiptId committedAt)
      (attemptFailed policy run attempt true false))
    (attemptFailed policy run attempt false false)

/-- `finally { client.release() }` -/
def releasing {α : Type} (p : Program α) : Program α :=
  p.handle (fun a => (issue .release).bind fun _ => .ret a)
    fun error => (issue .release).bind fun _ => .throw error

/-- Return the receipt an attempt ended with, or go on with the `next` attempt. -/
def concluded (next : Program MutationReceipt) : Option MutationReceipt → Program MutationReceipt
  | some receipt => .ret receipt
  | none => next

/-- The attempts from one on, with how many of them the policy has left. -/
def runAttempts (P : Platform) (policy : SerializableMutationPolicy) (run : RunInput)
    (startedAt attempt : Nat) : Nat → Program MutationReceipt
  | 0 => .throw (.plusOne (retryExhausted run.command "serialization_retry_exhausted"))
  | left + 1 => do
    let now : Nat ← issue .now
    if policy.overallTimeoutMs ≤ now - startedAt then
      .throw (.plusOne (retryExhausted run.command "mutation_overall_timeout"))
    else
      let _ ← issue (.connect run.handler.domainRole)
      let receipt ← releasing (attemptTransaction P policy run attempt)
      concluded (runAttempts P policy run startedAt (attempt + 1) left) receipt

/-- `SerializableMutationRunner.run` -/
def SerializableMutationRunner.run (P : Platform) (policy : SerializableMutationPolicy)
    (input : RunInput) : Program MutationReceipt := do
  let startedAt : Nat ← issue .now
  runAttempts P policy input startedAt 1 policy.maxAttempts

end PlusOne
