import PlusOne.Mutations.Discipline

/-! # The parts of an execution that stay off the runner's client

All of `execute` but the runner works on the operations pool and on clients that only
read. Such a part changes no session, so what a thread relies on the others to
keep it keeps itself. -/

namespace PlusOne

open Interleaving

/-- The call that reads the acceptance an execution rests on. -/
def Call.readsVerdict : Call → Bool
  | .findLatestVerdict _ _ => true
  | _ => false

def Call.onPool (call : Call) : Bool := !call.onClient && !call.marksFailed && !call.readsVerdict

/-- A program none of whose calls goes to the runner's client. -/
def OffClient {α : Type} (p : Program α) : Prop := p.Calls fun call => call.onClient = false

/-- Nor does it record a failed execution. -/
def OnOperations {α : Type} (p : Program α) : Prop :=
  p.Calls fun call => call.onClient = false ∧ call.marksFailed = false

/-- Nor does it read a verdict. -/
def OnPool {α : Type} (p : Program α) : Prop := p.Calls fun call => call.onPool = true

theorem OnOperations.offClient {α : Type} {p : Program α} (h : OnOperations p) : OffClient p :=
  Prog.Calls.mono h fun _ hcall => hcall.1

theorem OnPool.onOperations {α : Type} {p : Program α} (h : OnPool p) : OnOperations p :=
  Prog.Calls.mono h fun call hcall => by
    simp only [Call.onPool, Bool.and_eq_true, Bool.not_eq_true'] at hcall
    exact hcall.1

theorem OnPool.offClient {α : Type} {p : Program α} (h : OnPool p) : OffClient p :=
  h.onOperations.offClient

section Programs

variable {P : Platform} {command : CheckedCommand} {key : CommandKey}

theorem onPool_issue {call : Call} (h : call.onPool = true) : OnPool (issue call) := .perform h

variable {householdId : HouseholdId}

theorem findByIdempotency_pool {idempotencyKey : IdempotencyKey} :
    OnPool (findByIdempotency householdId idempotencyKey) :=
  .bind (onPool_issue rfl) fun row => .ret (row.map mapCommand)

theorem findByCommandId_pool : OnPool (findByCommandId key) :=
  .bind (onPool_issue rfl) fun row => .ret (row.map mapCommand)

theorem findReceiptByCommand_pool : OnPool (findReceiptByCommand key) := by
  refine .bind (onPool_issue rfl) fun receipt => ?_
  cases receipt with
  | none => exact .ret none
  | some receipt =>
    by_cases hvalid : receipt.valid = true
    · simpa [hvalid] using Prog.Calls.ret (some receipt)
    · simpa [hvalid] using Prog.Calls.throw Thrown.zodError

theorem findReadbackByCommand_pool : OnPool (findReadbackByCommand key) := by
  refine .bind (onPool_issue rfl) fun readback => ?_
  cases readback with
  | none => exact .ret none
  | some readback =>
    by_cases hvalid : readback.valid = true
    · simpa [hvalid] using Prog.Calls.ret (some readback)
    · simpa [hvalid] using Prog.Calls.throw Thrown.zodError

variable {site : ReconcileSite}

theorem markExecutionPending_pool :
    OnPool (markExecutionPending key site) := by
  refine .bind (onPool_issue rfl) fun rowCount => ?_
  split
  · exact .throw _
  · exact .ret ()

theorem markExecutionFailed_offClient {failureCode : String} :
    OffClient (markExecutionFailed key failureCode) := by
  refine .bind (.perform rfl) fun rowCount => ?_
  split
  · exact .throw _
  · exact .ret ()

theorem recordReadback_pool {candidate : ReadbackResult} :
    OnPool (recordReadback householdId candidate) := by
  unfold recordReadback
  split
  · exact .throw _
  · refine .bind (.tryCatch (onPool_issue rfl) fun error => .throw _) fun rowCount => ?_
    split
    · exact .throw _
    · exact .ret ()

/-! ## Reconciling -/

theorem ledgerTransition_pool {input : Db.TransitionRecord} :
    OnPool (ledgerTransition input site) := by
  refine .bind (onPool_issue rfl) fun outcome => ?_
  cases outcome with
  | notFound => exact .throw _
  | stale actual => exact .throw _
  | done task => exact .ret task

variable {record : MutationCommandRecord}

theorem alignTask_pool {taskStatus : TaskStatus} : OnPool (alignTask record site taskStatus) := by
  unfold alignTask
  simp only
  split
  · exact .bind ledgerTransition_pool fun _ => .ret ()
  · split
    · exact .throw _
    · exact .ret ()

theorem settle_pool :
    OnPool (settle record key site) := by
  unfold settle
  split
  · refine .bind markExecutionPending_pool fun _ => .bind findByCommandId_pool fun updated => ?_
    cases updated with
    | some updated => exact .ret updated
    | none => exact .throw _
  · exact .ret record

theorem reconcileOnce_pool {attempt : Nat} : OnPool (reconcileOnce key attempt) := by
  refine .bind findByCommandId_pool fun found => ?_
  cases found with
  | none => exact .throw _
  | some record =>
    refine .bind (onPool_issue rfl) fun task => ?_
    cases task with
    | none => exact .throw _
    | some task => exact .bind alignTask_pool fun _ => settle_pool

theorem reconcileFrom_pool {left attempt : Nat} : OnPool (reconcileFrom key attempt left) := by
  induction left generalizing attempt with
  | zero => exact reconcileOnce_pool
  | succ left ih =>
    refine .tryCatch reconcileOnce_pool fun error => ?_
    split
    · exact ih
    · exact .throw error

theorem reconcile_pool : OnPool (reconcile key) := reconcileFrom_pool

/-! ## Eligibility and registration -/

theorem getVerified_pool {artifactId : ArtifactId} : OnPool (getVerified P artifactId) := by
  refine .bind (onPool_issue rfl) fun artifact => ?_
  cases artifact with
  | none => exact .throw _
  | some artifact =>
    by_cases hhash : hashArtifact P artifact.payload = artifact.artifactHash
    · simpa [hhash] using Prog.Calls.ret artifact
    · simpa [hhash] using Prog.Calls.throw (Thrown.plusOne (artifactHashMismatch artifactId))

theorem findLatestVerdict_operations {taskId : TaskId} :
    OnOperations (findLatestVerdict householdId taskId) := by
  refine .bind (.perform ⟨rfl, rfl⟩) fun row => ?_
  cases row with
  | none => exact .ret none
  | some row =>
    obtain ⟨row, payload⟩ := row
    simp only
    split
    · exact .throw _
    · split
      · exact .throw _
      · exact .ret _

theorem requireAcceptance_operations : OnOperations (requireAcceptance command) := by
  refine .bind findLatestVerdict_operations fun verdict => ?_
  split
  · exact .ret ()
  · exact .throw _

theorem assertExactArtifact_pool {artifact : ArtifactEnvelope} :
    OnPool (assertExactArtifact P command artifact) := by
  unfold assertExactArtifact
  split
  · exact .ret ()
  · exact .throw _

theorem parseCheckedCommand_pool : OnPool (parseCheckedCommand command) := by
  unfold parseCheckedCommand
  split
  · exact .ret _
  · exact .throw _

/-! ## Read-back -/

theorem onReadClient_pool {α : Type} (body : HandlerBody α) : OnPool body.onReadClient := by
  induction body with
  | done output => exact .ret output
  | fail error => exact .throw error
  | query layer statement k ih =>
    exact .bind (.tryCatch (onPool_issue rfl) fun error => .throw _) ih

theorem parseReadback_pool {result : ReadbackResult} : OnPool (parseReadback result) := by
  unfold parseReadback
  split
  · exact .ret result
  · exact .throw _

variable {receipt : MutationReceipt}

theorem failedReadback_pool {required : List ReadbackCheckKind} {error : Thrown} :
    OnPool (failedReadback P command receipt required error) :=
  .bind (onPool_issue rfl) fun _ => parseReadback_pool

variable {handler : MutationCommandHandler}

theorem readbackChecks_pool {input : Json} : OnPool (readbackChecks P command handler input receipt) := by
  refine .bind (onPool_issue rfl) fun _ => .bind (onPool_issue rfl) fun _ =>
    .bind (onReadClient_pool _) fun domain => .bind findReceiptByCommand_pool fun persisted =>
    .bind (onPool_issue rfl) fun _ => .bind (onPool_issue rfl) fun readbackId => parseReadback_pool

theorem performReadback_pool {input : Json} : OnPool (performReadback P command handler input receipt) :=
  .bind (onPool_issue rfl) fun _ => .tryCatch readbackChecks_pool fun error =>
    .bind (.tryCatch (onPool_issue rfl) fun _ => .ret []) fun _ => .throw error

theorem performOrFailedReadback_pool {input : Json} :
    OnPool ((performReadback P command handler input receipt).tryCatch fun error =>
      failedReadback P command receipt handler.requiredReadbackChecks error) :=
  performReadback_pool.tryCatch fun _ => failedReadback_pool

theorem recordOrExistingReadback_pool {readback : ReadbackResult} :
    OnPool ((recordReadback householdId readback).handle (fun _ => .ret readback) fun error =>
      (findReadbackByCommand key).bind fun
        | none => .throw error
        | some existing => .ret existing) := by
  refine recordReadback_pool.handle (fun _ => .ret readback) fun error =>
    findReadbackByCommand_pool.bind fun existing => ?_
  cases existing with
  | none => exact .throw error
  | some existing => exact .ret existing

theorem readBack_pool {exec : Executor} {prepared : PreparedCommand} :
    OnPool (readBack exec command prepared receipt) := by
  refine performOrFailedReadback_pool.bind fun readback => recordOrExistingReadback_pool.bind
    fun readback => reconcile_pool.bind fun state => ?_
  split
  · exact .throw _
  · exact .ret _

theorem requireVerifiedReplay_pool : OnPool (requireVerifiedReplay command) := by
  refine findReceiptByCommand_pool.bind fun receipt => findReadbackByCommand_pool.bind
    fun readback => ?_
  cases receipt with
  | none => exact .throw _
  | some receipt =>
    cases readback with
    | none => exact .throw _
    | some readback =>
      simp only
      split
      · exact .ret _
      · exact .throw _

theorem finish_pool {exec : Executor} {prepared : PreparedCommand} {state : MutationCommandRecord}
    {receipt : Option MutationReceipt} : OnPool (finish exec command prepared state receipt) := by
  unfold finish
  split
  · exact requireVerifiedReplay_pool
  split
  · exact .throw _
  refine .bind ?_ fun found => ?_
  · cases receipt with
    | some receipt => exact .ret _
    | none => exact findReceiptByCommand_pool
  · cases found with
    | none => exact .throw _
    | some receipt =>
      simp only
      split
      · exact readBack_pool
      · exact .throw _

variable {confirmationRequired : Bool}

theorem validateReplay_pool :
    OnPool (validateReplay P record command confirmationRequired) := by
  unfold validateReplay
  split
  · exact .ret _
  · exact .throw _

theorem insertRegistered_pool :
    OnPool (insertRegistered command confirmationRequired) := by
  refine .bind (onPool_issue rfl) fun row => ?_
  cases row with
  | none => exact .throw _
  | some row => exact .ret _

theorem register_pool :
    OnPool (register P command confirmationRequired) := by
  refine .bind (parseCheckedCommand_pool) fun input => findByIdempotency_pool.bind fun found => ?_
  cases found with
  | some record => exact validateReplay_pool
  | none =>
    refine insertRegistered_pool.tryCatch fun error => ?_
    unfold registrationFailed
    split
    · refine findByIdempotency_pool.bind fun replay => ?_
      cases replay with
      | some record => exact validateReplay_pool
      | none => exact .throw _
    · exact .throw _

/-! ## All that follows the registration -/

/-- What `C` has to hold of to hold of every call made after `command` was registered. -/
structure Covers (C : Call → Prop) (handler : MutationCommandHandler) (command : CheckedCommand) :
    Prop where
  pool : ∀ call : Call, call.onPool = true → C call
  client : ∀ call : Call, call.onClient = true →
    (∀ handler command, call ≠ .handlerCall handler command) → C call
  handler : C (.handlerCall handler.toHandlerIdentity command)
  failed : ∀ failureCode, C (.markExecutionFailed command.key failureCode)

section Covers

variable {C : Call → Prop} {policy : SerializableMutationPolicy} {run : RunInput} {attempt : Nat}

theorem OnPool.covered {handler : MutationCommandHandler} {α : Type} {p : Program α}
    (hC : Covers C handler command) (h : OnPool p) : p.Calls C :=
  Prog.Calls.mono h hC.pool

theorem calls_rollbackIfOpen (hC : Covers C run.handler run.command)
    {began commitAttempted : Bool} : (rollbackIfOpen began commitAttempted).Calls C := by
  unfold rollbackIfOpen
  split
  · exact .tryCatch (.perform (hC.client _ rfl (by simp))) fun _ => .ret ()
  · exact .ret ()

theorem calls_attemptFailed (hC : Covers C run.handler run.command)
    {began commitAttempted : Bool} {e : Thrown} :
    (attemptFailed policy run attempt began commitAttempted e).Calls C := by
  have hdecide : (decideFailure policy run attempt e).Calls C := by
    unfold decideFailure
    split
    · exact .bind (.perform (hC.pool _ rfl)) fun _ => .ret none
    split
    · exact .throw _
    split <;> exact .throw _
  refine .bind (calls_rollbackIfOpen hC) fun _ => ?_
  split
  · refine .bind (findReceiptByCommand_pool.covered hC) fun receipt => ?_
    split
    · exact .ret receipt
    split
    · exact .throw _
    · exact hdecide
  · exact hdecide

theorem calls_onClient (hC : Covers C run.handler run.command) {α : Type} (body : HandlerBody α) :
    body.onClient.Calls C := by
  induction body with
  | done output => exact .ret output
  | fail error => exact .bind (.perform (hC.pool _ rfl)) fun _ => .throw error
  | query layer statement k ih =>
    exact .bind (.tryCatch (.perform (hC.client _ rfl (by simp))) fun error => .throw _) ih

theorem calls_prepareCommit (hC : Covers C run.handler run.command) :
    (prepareCommit P policy run).Calls C := by
  refine .bind (.perform (hC.client _ rfl (by simp))) fun _ => .bind ?_ fun claim => ?_
  · refine .tryCatch (.bind (.perform (hC.client _ rfl (by simp))) fun row => ?_) fun error =>
      .throw _
    cases row with
    | none => exact .throw _
    | some row => exact .ret _
  · split
    · exact .bind (.perform (hC.client _ rfl (by simp))) fun _ => .ret _
    · exact .bind (.bind (.perform hC.handler) fun _ => calls_onClient hC _) fun output =>
        .bind (.tryCatch (.perform (hC.client _ rfl (by simp))) fun error => .throw _)
          fun committed => .ret _

theorem calls_attemptTransaction (hC : Covers C run.handler run.command) :
    (attemptTransaction P policy run attempt).Calls C := by
  refine .handle (.perform (hC.client _ rfl (by simp))) (fun _ => .handle (calls_prepareCommit hC)
    (fun prepared => ?_) fun e => calls_attemptFailed hC) fun e => calls_attemptFailed hC
  cases prepared with
  | existing =>
    refine .handle (.bind (findReceiptByCommand_pool.covered hC) fun receipt => ?_)
      (fun receipt => .ret _) fun e => calls_attemptFailed hC
    cases receipt with
    | none => exact .throw _
    | some receipt => exact .ret receipt
  | committing output receiptId committedAt =>
    refine .handle (.perform (hC.client _ rfl (by simp))) (fun _ => .handle ?_
      (fun receipt => .ret _) fun e => calls_attemptFailed hC) fun e => calls_attemptFailed hC
    unfold parseReceipt
    split
    · exact .ret _
    · exact .throw _

theorem calls_run (hC : Covers C run.handler run.command) :
    (SerializableMutationRunner.run P policy run).Calls C := by
  refine .bind (.perform (hC.pool _ rfl)) fun startedAt => ?_
  have hattempts : ∀ left attempt, (runAttempts P policy run startedAt attempt left).Calls C := by
    intro left
    induction left with
    | zero => exact fun attempt => .throw _
    | succ left ih =>
      refine fun attempt => .bind (.perform (hC.pool _ rfl)) fun now => ?_
      split
      · exact .throw _
      refine .bind (.perform (hC.client _ rfl (by simp))) fun _ =>
        .bind (.handle (calls_attemptTransaction hC)
          (fun found => .bind (.perform (hC.client _ rfl (by simp))) fun _ => .ret found)
          fun error => .bind (.perform (hC.client _ rfl (by simp))) fun _ => .throw error)
        fun found => ?_
      cases found with
      | some receipt => exact .ret receipt
      | none => exact ih _
  exact hattempts _ _

theorem calls_runnerFailed {handler : MutationCommandHandler} (hC : Covers C handler command)
    {e : Thrown} : (runnerFailed command e).Calls C := by
  have hresolved : OnPool (((reconcile command.key).bind fun record => .ret (some record)).tryCatch
      fun _ => .ret none) := .tryCatch (.bind reconcile_pool fun record => .ret _) fun _ => .ret none
  refine .bind (hresolved.covered hC) fun resolved => ?_
  split
  · exact .ret _
  split
  · exact .throw _
  · refine .bind (.bind (.perform (hC.failed _)) fun rowCount => ?_) fun _ =>
      .bind (reconcile_pool.covered hC) fun _ => .throw _
    split
    · exact .throw _
    · exact .ret ()

theorem calls_executeRegistered {exec : Executor} {prepared : PreparedCommand}
    {registered : MutationCommandRecord} (hC : Covers C prepared.handler command) :
    (executeRegistered exec command prepared registered).Calls C := by
  refine .bind (reconcile_pool.covered hC) fun state => ?_
  split
  · exact requireVerifiedReplay_pool.covered hC
  split
  · exact .throw _
  refine .bind (findReceiptByCommand_pool.covered hC) fun receipt => .bind ?_ fun result =>
    finish_pool.covered hC
  unfold executeIfPending
  split
  · have hrun := @calls_run exec.platform C exec.policy
      { command, handler := prepared.handler, input := prepared.input
        receiptId := receiptIdOf command.commandId } hC
    refine .bind (.handle hrun (fun receipt => .ret _) fun error =>
      .bind (calls_runnerFailed hC) fun state => .ret _) fun result => ?_
    obtain ⟨state, receipt⟩ := result
    simp only
    split
    · exact .bind (reconcile_pool.covered hC) fun state => .ret _
    · exact .ret _
  · exact .ret _

end Covers

end Programs

end PlusOne
