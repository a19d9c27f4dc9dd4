import Mathlib
import PlusOne.Contracts.PendingInteraction
import PlusOne.Mutations.Executor

/-! # Runs of agents

`AgentInvocationRunner.run` calls a model between the rows that it opens and closes in the ledger. The
ledger is modelled with the run and the attempt that the runner opens, whose keys no other row has. -/

namespace PlusOne

/-! ## The ledger -/

inductive AgentRunStatus
  | running | succeeded | failed | cancelled | timed_out
  deriving DecidableEq

inductive AttemptOutcome
  | running | succeeded | schema_failed | model_failed | tool_failed | timed_out | cancelled
  deriving DecidableEq

structure AgentRunRow where
  role : String
  modelId : String
  status : AgentRunStatus
  failureCategory : Option String
  failureCode : Option String
  retryDirective : Option RetryDirective

structure AgentAttemptRow where
  role : String
  ordinal : Nat
  configuredLimit : Nat
  outcome : AttemptOutcome
  retryCategory : Option String
  failureCode : Option String
  retryDirective : Option RetryDirective
  resumable : Bool

/-- What a call of the model or of the ledger rejects with, as the runner tells it apart. -/
inductive AgentCause
  | zodError
  | domException (name : String)
  | plusOne (error : PlusOneError)
  | other (message : String)

structure AgentLedger where
  run : Option AgentRunRow
  attempt : Option AgentAttemptRow
  calls : Nat

/-- The one call of the ledger that fails, counted from zero: with what, and whether the statement was
carried out before. -/
structure LedgerFault where
  call : Nat
  applied : Bool
  error : AgentCause

/-- What the runner throws: the rejection of a call as it is, or an error of its own. -/
inductive AgentThrown
  | passedOn (cause : AgentCause)
  | own (error : PlusOneError)

def AgentThrown.cause : AgentThrown → AgentCause
  | passedOn cause => cause
  | own error => .plusOne error

abbrev AgentM := ExceptT AgentThrown (StateM AgentLedger)

def ledgerError (category : ErrorCategory) (code message : String) (retry : RetryDirective) : AgentCause :=
  .plusOne ⟨category, code, message, retry, false, []⟩

def runNotRunning : AgentCause :=
  ledgerError .serialization_conflict "run_not_running" "Agent run is missing or no longer running"
    .after_state_resolution

def attemptNotRunning : AgentCause :=
  ledgerError .serialization_conflict "attempt_not_running" "Agent attempt is missing or no longer running"
    .after_state_resolution

/-- `agent_runs_failure_code_format` and `agent_attempts_failure_code_format` -/
def failureCodeFormat (failureCode : Option String) : Bool := failureCode.all isResolutionCode

def failureCodeViolated : AgentCause := .other "violates check constraint"

section Run

variable (fault : Option LedgerFault)

/-- One call of the ledger: its statement changes the rows or is refused, unless this is the call that
fails. -/
def ledgerCall (statement : AgentLedger → Except AgentCause AgentLedger) : AgentM Unit := fun ledger =>
  let next := { ledger with calls := ledger.calls + 1 }
  match fault.filter fun fault => fault.call == ledger.calls with
  | some fault =>
    (.error (.passedOn fault.error), if fault.applied then (statement next).toOption.getD next else next)
  | none =>
    match statement next with
    | .ok after => (.ok (), after)
    | .error cause => (.error (.passedOn cause), next)

structure AgentInvocation where
  role : String
  attemptOrdinal : Nat
  maxAttempts : Nat
  primaryModel : String
  fallbackModels : List String

def startRun (role modelId : String) : AgentM Unit :=
  ledgerCall fault fun ledger =>
    .ok { ledger with run := some ⟨role, modelId, .running, none, none, none⟩ }

def finishRun (status : AgentRunStatus) (failureCategory failureCode : Option String)
    (retryDirective : Option RetryDirective) : AgentM Unit :=
  ledgerCall fault fun ledger =>
    match ledger.run with
    | some run =>
      if run.status ≠ .running then .error runNotRunning
      else if !failureCodeFormat failureCode then .error failureCodeViolated
      else
        let closed := { run with status, failureCategory, failureCode, retryDirective }
        .ok { ledger with run := some closed }
    | none => .error runNotRunning

def startAttempt (role : String) (ordinal configuredLimit : Nat) : AgentM Unit :=
  ledgerCall fault fun ledger =>
    .ok { ledger with attempt := some ⟨role, ordinal, configuredLimit, .running, none, none, none, true⟩ }

def finishAttempt (outcome : AttemptOutcome) (retryCategory failureCode : Option String)
    (retryDirective : Option RetryDirective) (resumable : Bool) : AgentM Unit :=
  ledgerCall fault fun ledger =>
    match ledger.attempt with
    | some attempt =>
      if attempt.outcome ≠ .running then .error attemptNotRunning
      else if !failureCodeFormat failureCode then .error failureCodeViolated
      else
        let closed := { attempt with outcome, retryCategory, failureCode, retryDirective, resumable }
        .ok { ledger with attempt := some closed }
    | none => .error attemptNotRunning

end Run

/-! ## Failures -/

/-- The caller's signal when a failure is classified. -/
inductive CallerSignal
  | active | teamDeadline | aborted

structure AgentFailure where
  outcome : AttemptOutcome
  runStatus : AgentRunStatus
  category : String
  errorCategory : ErrorCategory
  code : String
  message : String
  retry : RetryDirective

def safeFailureMessage (error : PlusOneError) : String :=
  if error.category = .validation_rejected then "Agent output failed contractual validation"
  else if startsWith error.code "tool_" then "Agent tool execution failed"
  else "Agent model call failed"

def classifyFailure (cause : AgentCause) : CallerSignal → AgentFailure
  | .teamDeadline => ⟨.timed_out, .timed_out, "team_deadline", .timeout, "agent_call_timed_out",
      "Agent call exceeded the team deadline", .after_backoff⟩
  | .aborted => ⟨.cancelled, .cancelled, "cancelled", .runtime_failure, "agent_call_cancelled",
      "Agent call was cancelled", .never⟩
  | .active =>
    match cause with
    | .zodError => ⟨.schema_failed, .failed, "schema_validation", .validation_rejected,
        "agent_output_schema_failed", "Agent output failed structured validation", .safe⟩
    | .domException name =>
      if name = "TimeoutError" ∨ name = "AbortError" then
        ⟨.timed_out, .timed_out, "call_deadline", .timeout, "agent_call_timed_out",
          "Agent call exceeded its deadline", .after_backoff⟩
      else ⟨.model_failed, .failed, "model_failure", .runtime_failure, "agent_model_failed",
        "Agent model call failed", .after_backoff⟩
    | .plusOne error =>
      let outcome : AttemptOutcome :=
        if error.category = .validation_rejected then .schema_failed
        else if startsWith error.code "tool_" then .tool_failed else .model_failed
      ⟨outcome, .failed, error.category.text, error.category, error.code, safeFailureMessage error, error.retry⟩
    | .other _ => ⟨.model_failed, .failed, "model_failure", .runtime_failure, "agent_model_failed",
        "Agent model call failed", .after_backoff⟩

/-! ## The runner -/

def AgentFailure.error (failure : AgentFailure) (input : AgentInvocation) (modelId : String) : PlusOneError :=
  { category := failure.errorCategory, code := failure.code, message := failure.message, retry := failure.retry
    receiptLookupRequired := false
    details := [("role", .text input.role), ("attemptOrdinal", .number input.attemptOrdinal),
      ("modelId", .text modelId)] }

def attemptLimitExceeded : PlusOneError :=
  ⟨.policy_rejected, "agent_attempt_limit_exceeded", "Agent attempt exceeds the selected runtime policy", .never,
    false, []⟩

def attemptStartFailed (runId : String) : PlusOneError :=
  ⟨.storage_unavailable, "attempt_start_failed", "Agent attempt could not be started", .after_state_resolution, false,
    [("runId", .text runId)]⟩

namespace AgentInvocation

def withinLimit (input : AgentInvocation) : Bool :=
  decide (1 ≤ input.attemptOrdinal) && decide (input.attemptOrdinal ≤ input.maxAttempts)

/-- `models[(attemptOrdinal - 1) % models.length] ?? primaryModel` -/
def modelId (input : AgentInvocation) : String :=
  let models := input.primaryModel :: input.fallbackModels
  (models[(input.attemptOrdinal - 1) % models.length]?).getD input.primaryModel

end AgentInvocation

section Runner

variable {Output : Type} (fault : Option LedgerFault) (input : AgentInvocation) (runId : String)
  (generated : Except AgentCause Output) (signal : CallerSignal)

/-- The call of the model with the closing of its attempt and run. -/
def generateAndClose : AgentM Output := do
  let output ← ExceptT.mk (pure (generated.mapError .passedOn))
  finishAttempt fault .succeeded none none none false
  finishRun fault .succeeded none none none
  return output

/-- The closing of a failed call. -/
def closeFailedCall (thrown : AgentThrown) : AgentM Output := do
  let failure := classifyFailure thrown.cause signal
  finishAttempt fault failure.outcome (some failure.category) (some failure.code) (some failure.retry)
    (failure.outcome != .cancelled)
  finishRun fault failure.runStatus (some failure.category) (some failure.code) (some failure.retry)
  throw (.own (failure.error input input.modelId))

/-- `AgentInvocationRunner.run`, of a policy that was resolved, with the outcome of the call of the model and
the state of the caller's signal when a failure is classified. -/
def runAgent : AgentM Output := do
  if !input.withinLimit then throw (.own attemptLimitExceeded)
  startRun fault input.role input.modelId
  tryCatch (startAttempt fault input.role input.attemptOrdinal input.maxAttempts) fun _ => do
    finishRun fault .failed (some "attempt_start_failed") (some "attempt_start_failed") (some .after_state_resolution)
    throw (.own (attemptStartFailed runId))
  tryCatch (generateAndClose fault generated) (closeFailedCall fault input signal)

/-- The rows before the runner opens its own. -/
def noRows : AgentLedger := ⟨none, none, 0⟩

/-- What the runner settles with, and the rows it leaves. -/
def agentSettled : Except AgentThrown Output × AgentLedger :=
  (runAgent fault input runId generated signal).run.run noRows

/-! ## Closed consistently -/

/-- What the runner would throw for the first thing that fails. -/
def firstFailure : Option AgentThrown :=
  if !input.withinLimit then some (.own attemptLimitExceeded)
  else
    match fault.map LedgerFault.call, generated with
    | some 0, _ => fault.map fun fault => .passedOn fault.error
    | some 1, _ => some (.own (attemptStartFailed runId))
    | _, .error cause => some (.own ((classifyFailure cause signal).error input input.modelId))
    | some 2, .ok _ | some 3, .ok _ =>
      fault.map fun fault => .own ((classifyFailure fault.error signal).error input input.modelId)
    | _, .ok _ => none

example (h : input.withinLimit = true) (output : Output) :
    firstFailure none input runId (.ok output : Except AgentCause Output) signal = none := by
  simp [firstFailure, h]

/-- No row is left open, the run and its attempt agree, the output is returned exactly when both succeeded, and
what is thrown is the first failure. -/
structure ClosedConsistently (settled : Except AgentThrown Output × AgentLedger) : Prop where
  run_closed : ∀ run ∈ settled.2.run, run.status ≠ .running
  attempt_closed : ∀ attempt ∈ settled.2.attempt, attempt.outcome ≠ .running
  agree : settled.2.run.map AgentRunRow.status = some .succeeded ↔
    settled.2.attempt.map AgentAttemptRow.outcome = some .succeeded
  returned : (∃ output, settled.1 = .ok output) ↔ settled.2.run.map AgentRunRow.status = some .succeeded ∧
    settled.2.attempt.map AgentAttemptRow.outcome = some .succeeded
  output : ∀ output, settled.1 = .ok output → generated = .ok output
  error : ∀ thrown, settled.1 = .error thrown → firstFailure fault input runId generated signal = some thrown

/-- The ledger can store the code of the failure. -/
def storable (cause : AgentCause) : Bool := failureCodeFormat (some (classifyFailure cause signal).code)

/-- The call of the ledger that fails is one of those that open rows, and opened none, or it is the closing of
the attempt of a model that returned a value, and closed nothing; and the code of a failure to be stored is one
that the ledger takes. -/
def ClosesInOrder : Bool :=
  !input.withinLimit ||
    match fault.map LedgerFault.call, generated with
    | some 0, _ | some 1, _ => fault.all fun fault => !fault.applied
    | some 2, .ok _ => fault.all fun fault => !fault.applied && storable signal fault.error
    | some 2, .error _ | some 3, _ => false
    | _, .ok _ => true
    | _, .error cause => storable signal cause

example (cause : AgentCause) : ClosesInOrder none input (.error cause : Except AgentCause Output) signal =
    (!input.withinLimit || storable signal cause) := by
  simp [ClosesInOrder]

/-! ### What the runner settles with -/

variable {fault input runId generated signal}

attribute [local simp] agentSettled runAgent generateAndClose closeFailedCall startRun startAttempt finishRun finishAttempt
  ledgerCall noRows ExceptT.run StateT.run bind ExceptT.bind ExceptT.mk StateT.bind ExceptT.bindCont tryCatch tryCatchThe
  MonadExceptOf.tryCatch ExceptT.tryCatch pure ExceptT.pure StateT.pure failureCodeFormat Except.mapError Except.toOption Option.filter

/-- The run as it was opened. -/
def openRun (input : AgentInvocation) : AgentRunRow := ⟨input.role, input.modelId, .running, none, none, none⟩

def openAttempt (input : AgentInvocation) : AgentAttemptRow :=
  ⟨input.role, input.attemptOrdinal, input.maxAttempts, .running, none, none, none, true⟩

/-- The rows closed after a failure. -/
def failedRun (input : AgentInvocation) (failure : AgentFailure) : AgentRunRow :=
  { openRun input with
    status := failure.runStatus, failureCategory := some failure.category, failureCode := some failure.code
    retryDirective := some failure.retry }

def failedAttempt (input : AgentInvocation) (failure : AgentFailure) : AgentAttemptRow :=
  { openAttempt input with
    outcome := failure.outcome, retryCategory := some failure.category, failureCode := some failure.code
    retryDirective := some failure.retry, resumable := failure.outcome != .cancelled }

def succeededRun (input : AgentInvocation) : AgentRunRow := { openRun input with status := .succeeded }

def succeededAttempt (input : AgentInvocation) : AgentAttemptRow :=
  { openAttempt input with outcome := .succeeded, resumable := false }

theorem settled_limit (h : input.withinLimit = false) :
    agentSettled fault input runId generated signal = (.error (.own attemptLimitExceeded), noRows) := by
  simp [h, throw, throwThe, MonadExceptOf.throw]

theorem settled_startRun (h : input.withinLimit = true) (applied : Bool) (error : AgentCause) :
    agentSettled (some ⟨0, applied, error⟩) input runId generated signal =
      (.error (.passedOn error), ⟨if applied then some (openRun input) else none, none, 1⟩) := by
  cases applied <;> simp [h, openRun]

theorem settled_startAttempt (h : input.withinLimit = true) (applied : Bool) (error : AgentCause) :
    agentSettled (some ⟨1, applied, error⟩) input runId generated signal =
      (.error (.own (attemptStartFailed runId)),
        ⟨some { openRun input with
          status := .failed, failureCategory := some "attempt_start_failed"
          failureCode := some "attempt_start_failed", retryDirective := some .after_state_resolution },
          if applied then some (openAttempt input) else none, 3⟩) := by
  have hcode : isResolutionCode "attempt_start_failed" = true := by decide
  cases applied <;> simp [h, hcode, openRun, openAttempt, throw, throwThe, MonadExceptOf.throw]

theorem settled_late (n : Nat) (applied : Bool) (error : AgentCause) :
    agentSettled (some ⟨n + 4, applied, error⟩) input runId generated signal =
      agentSettled none input runId generated signal := by
  cases hlimit : input.withinLimit with
  | false => rw [settled_limit hlimit, settled_limit hlimit]
  | true =>
    cases generated with
    | ok output => simp [hlimit]
    | error cause =>
      cases hcode : isResolutionCode (classifyFailure cause signal).code <;>
        simp [hlimit, hcode, AgentThrown.cause, throw, throwThe, MonadExceptOf.throw]

theorem settled_value (h : input.withinLimit = true) (output : Output) :
    agentSettled none input runId (.ok output) signal =
      (.ok output, ⟨some (succeededRun input), some (succeededAttempt input), 4⟩) := by
  simp [h, openRun, openAttempt, succeededRun, succeededAttempt]

theorem settled_failure (h : input.withinLimit = true) {cause : AgentCause} (hstorable : storable signal cause = true) :
    agentSettled none input runId (.error cause : Except AgentCause Output) signal =
      (.error (.own ((classifyFailure cause signal).error input input.modelId)),
        ⟨some (failedRun input (classifyFailure cause signal)), some (failedAttempt input (classifyFailure cause signal)),
          4⟩) := by
  have hcode : isResolutionCode (classifyFailure cause signal).code = true := hstorable
  simp [h, hcode, AgentThrown.cause, openRun, openAttempt, failedRun, failedAttempt, throw, throwThe,
    MonadExceptOf.throw]

theorem settled_unstorable (h : input.withinLimit = true) {cause : AgentCause}
    (hstorable : storable signal cause = false) :
    agentSettled none input runId (.error cause : Except AgentCause Output) signal =
      (.error (.passedOn failureCodeViolated), ⟨some (openRun input), some (openAttempt input), 3⟩) := by
  have hcode : isResolutionCode (classifyFailure cause signal).code = false := hstorable
  simp [h, hcode, AgentThrown.cause, openRun, openAttempt]

theorem settled_finishAttempt (h : input.withinLimit = true) (output : Output) {error : AgentCause}
    (hstorable : storable signal error = true) :
    agentSettled (some ⟨2, false, error⟩) input runId (.ok output) signal =
      (.error (.own ((classifyFailure error signal).error input input.modelId)),
        ⟨some (failedRun input (classifyFailure error signal)), some (failedAttempt input (classifyFailure error signal)),
          5⟩) := by
  have hcode : isResolutionCode (classifyFailure error signal).code = true := hstorable
  simp [h, hcode, AgentThrown.cause, openRun, openAttempt, failedRun, failedAttempt, throw, throwThe,
    MonadExceptOf.throw]

/-- Where closing the attempt fails otherwise, what the ledger rejected is thrown. -/
theorem thrown_finishAttempt (h : input.withinLimit = true) (applied : Bool) (error : AgentCause)
    (hbad : ∀ output, generated = .ok output → applied = true ∨ storable signal error = false) :
    ∃ cause, (agentSettled (some ⟨2, applied, error⟩) input runId generated signal).1 = .error (.passedOn cause) := by
  cases generated with
  | error cause =>
    refine ⟨error, ?_⟩
    cases applied <;> simp [h]
  | ok output =>
    cases applied with
    | true =>
      refine ⟨attemptNotRunning, ?_⟩
      simp [h]
    | false =>
      have hcode : isResolutionCode (classifyFailure error signal).code = false := by
        simpa [storable] using hbad output rfl
      refine ⟨failureCodeViolated, ?_⟩
      simp [h, hcode, AgentThrown.cause]

/-- Where closing the run fails, so does closing the attempt again, or its failure is thrown as it is. -/
theorem thrown_finishRun (h : input.withinLimit = true) (applied : Bool) (error : AgentCause) :
    ∃ cause, (agentSettled (some ⟨3, applied, error⟩) input runId generated signal).1 = .error (.passedOn cause) := by
  cases generated with
  | error cause =>
    cases hcode : isResolutionCode (classifyFailure cause signal).code with
    | true =>
      refine ⟨error, ?_⟩
      cases applied <;> simp [h, hcode, AgentThrown.cause]
    | false =>
      refine ⟨failureCodeViolated, ?_⟩
      cases applied <;> simp [h, hcode, AgentThrown.cause]
  | ok output =>
    refine ⟨attemptNotRunning, ?_⟩
    cases applied <;> simp [h]

/-! ### When everything is closed consistently -/

theorem outcome_not_running (cause : AgentCause) (signal : CallerSignal) :
    (classifyFailure cause signal).outcome ≠ .running ∧ (classifyFailure cause signal).outcome ≠ .succeeded ∧
      (classifyFailure cause signal).runStatus ≠ .running ∧ (classifyFailure cause signal).runStatus ≠ .succeeded := by
  cases signal with
  | teamDeadline => simp [classifyFailure]
  | aborted => simp [classifyFailure]
  | active =>
    cases cause with
    | zodError => simp [classifyFailure]
    | domException name =>
      by_cases hname : name = "TimeoutError" ∨ name = "AbortError" <;> simp [classifyFailure, hname]
    | plusOne error =>
      by_cases hcategory : error.category = .validation_rejected
      · simp [classifyFailure, hcategory]
      · by_cases htool : startsWith error.code "tool_" <;> simp [classifyFailure, hcategory, htool]
    | other message => simp [classifyFailure]

/-- Rows closed after a failure, with the error that goes with them. -/
theorem closed_failed {failure : AgentFailure} (calls : Nat) (cause : AgentCause)
    (hfailure : failure = classifyFailure cause signal)
    (hfirst : firstFailure fault input runId generated signal = some (.own (failure.error input input.modelId))) :
    ClosedConsistently fault input runId generated signal
      (.error (.own (failure.error input input.modelId)),
        ⟨some (failedRun input failure), some (failedAttempt input failure), calls⟩) := by
  obtain ⟨hrunning, hsucceeded, hrun, hrun'⟩ := outcome_not_running cause signal
  subst hfailure
  constructor
  · simp [failedRun, hrun]
  · simp [failedAttempt, hrunning]
  · simp [failedRun, failedAttempt, hrun', hsucceeded]
  · simp [failedRun, hrun']
  · simp
  · intro thrown hthrown
    rw [hfirst, ← Except.error.inj hthrown]

theorem not_closed_of_passedOn {settled : Except AgentThrown Output × AgentLedger} {cause : AgentCause}
    (hthrown : settled.1 = .error (.passedOn cause)) {own : PlusOneError}
    (hfirst : firstFailure fault input runId generated signal = some (.own own)) :
    ¬ClosedConsistently fault input runId generated signal settled := by
  intro hclosed
  have herror := hclosed.error _ hthrown
  rw [hfirst] at herror
  cases herror

theorem closed_iff_limit (h : input.withinLimit = false) :
    ClosedConsistently fault input runId generated signal (agentSettled fault input runId generated signal) ↔
      ClosesInOrder fault input generated signal = true := by
  have hclosed : ClosedConsistently fault input runId generated signal (.error (.own attemptLimitExceeded), noRows) := by
    constructor <;> simp_all [firstFailure]
  have horder : ClosesInOrder fault input generated signal = true := by
    simp [ClosesInOrder, h]
  rw [settled_limit h, horder]
  simp only [hclosed]

theorem closed_iff_none (h : input.withinLimit = true) :
    ClosedConsistently none input runId generated signal (agentSettled none input runId generated signal) ↔
      ClosesInOrder none input generated signal = true := by
  cases generated with
  | ok output =>
    have hclosed : ClosedConsistently none input runId (.ok output) signal
        (.ok output, ⟨some (succeededRun input), some (succeededAttempt input), 4⟩) := by
      constructor <;> simp [succeededRun, succeededAttempt]
    rw [settled_value h]
    simp only [hclosed, ClosesInOrder, h, Option.map_none, Bool.not_true, Bool.false_or]
  | error cause =>
    have hfirst : firstFailure none input runId (.error cause : Except AgentCause Output) signal =
        some (.own ((classifyFailure cause signal).error input input.modelId)) := by
      simp [firstFailure, h]
    have horder : ClosesInOrder none input (.error cause : Except AgentCause Output) signal = storable signal cause := by
      simp [ClosesInOrder, h]
    rw [horder]
    cases hstorable : storable signal cause with
    | true =>
      have hclosed := closed_failed 4 cause rfl hfirst
      rw [settled_failure h hstorable]
      simp only [hclosed]
    | false =>
      have hthrown : (agentSettled none input runId (.error cause : Except AgentCause Output) signal).1 =
          .error (.passedOn failureCodeViolated) := by
        rw [settled_unstorable h hstorable]
      have hnot := not_closed_of_passedOn hthrown hfirst
      simp only [hnot, Bool.false_eq_true]

theorem closed_iff_startRun (h : input.withinLimit = true) (applied : Bool) (error : AgentCause) :
    ClosedConsistently (some ⟨0, applied, error⟩) input runId generated signal
        (agentSettled (some ⟨0, applied, error⟩) input runId generated signal) ↔
      ClosesInOrder (some ⟨0, applied, error⟩) input generated signal = true := by
  have horder : ClosesInOrder (some ⟨0, applied, error⟩) input generated signal = !applied := by
    simp [ClosesInOrder, h]
  rw [settled_startRun h, horder]
  cases applied with
  | true =>
    constructor
    · intro hclosed
      have hopen := hclosed.run_closed (openRun input) rfl
      exact absurd rfl hopen
    · intro hfalse
      cases hfalse
  | false =>
    have hfirst : firstFailure (some ⟨0, false, error⟩) input runId generated signal = some (.passedOn error) := by
      simp [firstFailure, h]
    have hclosed : ClosedConsistently (some ⟨0, false, error⟩) input runId generated signal
        (.error (.passedOn error), ⟨none, none, 1⟩) := by
      constructor <;> simp_all
    simpa using hclosed

theorem closed_iff_startAttempt (h : input.withinLimit = true) (applied : Bool) (error : AgentCause) :
    ClosedConsistently (some ⟨1, applied, error⟩) input runId generated signal
        (agentSettled (some ⟨1, applied, error⟩) input runId generated signal) ↔
      ClosesInOrder (some ⟨1, applied, error⟩) input generated signal = true := by
  have horder : ClosesInOrder (some ⟨1, applied, error⟩) input generated signal = !applied := by
    simp [ClosesInOrder, h]
  rw [settled_startAttempt h, horder]
  cases applied with
  | true =>
    constructor
    · intro hclosed
      have hopen := hclosed.attempt_closed (openAttempt input) rfl
      exact absurd rfl hopen
    · intro hfalse
      cases hfalse
  | false =>
    have hfirst : firstFailure (some ⟨1, false, error⟩) input runId generated signal =
        some (.own (attemptStartFailed runId)) := by
      simp [firstFailure, h]
    have hclosed : ClosedConsistently (some ⟨1, false, error⟩) input runId generated signal
        (.error (.own (attemptStartFailed runId)),
          ⟨some { openRun input with
            status := .failed, failureCategory := some "attempt_start_failed"
            failureCode := some "attempt_start_failed", retryDirective := some .after_state_resolution }, none, 3⟩) := by
      constructor <;> simp_all
    simpa using hclosed

theorem closed_iff_finishAttempt (h : input.withinLimit = true) (applied : Bool) (error : AgentCause) :
    ClosedConsistently (some ⟨2, applied, error⟩) input runId generated signal
        (agentSettled (some ⟨2, applied, error⟩) input runId generated signal) ↔
      ClosesInOrder (some ⟨2, applied, error⟩) input generated signal = true := by
  cases generated with
  | error cause =>
    have hfirst : firstFailure (some ⟨2, applied, error⟩) input runId (.error cause : Except AgentCause Output) signal =
        some (.own ((classifyFailure cause signal).error input input.modelId)) := by
      simp [firstFailure, h]
    obtain ⟨rejected, hthrown⟩ : ∃ rejected, (agentSettled (some ⟨2, applied, error⟩) input runId
        (.error cause : Except AgentCause Output) signal).1 = .error (.passedOn rejected) :=
      thrown_finishAttempt h applied error (by simp)
    have hnot := not_closed_of_passedOn hthrown hfirst
    simp only [hnot, ClosesInOrder, h, Option.map_some, Bool.not_true, Bool.false_or, Bool.false_eq_true]
  | ok output =>
    have hfirst : firstFailure (some ⟨2, applied, error⟩) input runId (.ok output) signal =
        some (.own ((classifyFailure error signal).error input input.modelId)) := by
      simp [firstFailure, h]
    have horder : ClosesInOrder (some ⟨2, applied, error⟩) input (.ok output) signal =
        (!applied && storable signal error) := by
      simp [ClosesInOrder, h]
    rw [horder]
    cases hgood : !applied && storable signal error with
    | true =>
      simp only [Bool.and_eq_true, Bool.not_eq_true'] at hgood
      obtain ⟨rfl, hstorable⟩ := hgood
      have hclosed := closed_failed 5 error rfl hfirst
      rw [settled_finishAttempt h output hstorable]
      simp only [hclosed]
    | false =>
      obtain ⟨rejected, hthrown⟩ : ∃ rejected, (agentSettled (some ⟨2, applied, error⟩) input runId
          (.ok output) signal).1 = .error (.passedOn rejected) := by
        apply thrown_finishAttempt h applied error
        intro _ _
        cases applied <;> simp_all
      have hnot := not_closed_of_passedOn hthrown hfirst
      simp only [hnot, Bool.false_eq_true]

theorem closed_iff_finishRun (h : input.withinLimit = true) (applied : Bool) (error : AgentCause) :
    ClosedConsistently (some ⟨3, applied, error⟩) input runId generated signal
        (agentSettled (some ⟨3, applied, error⟩) input runId generated signal) ↔
      ClosesInOrder (some ⟨3, applied, error⟩) input generated signal = true := by
  have hfirst : ∃ own, firstFailure (some ⟨3, applied, error⟩) input runId generated signal = some (.own own) := by
    cases generated <;> simp [firstFailure, h]
  have horder : ClosesInOrder (some ⟨3, applied, error⟩) input generated signal = false := by
    cases generated <;> simp [ClosesInOrder, h]
  obtain ⟨own, hown⟩ := hfirst
  obtain ⟨rejected, hthrown⟩ : ∃ rejected, (agentSettled (some ⟨3, applied, error⟩) input runId generated signal).1 =
      .error (.passedOn rejected) := thrown_finishRun h applied error
  have hnot := not_closed_of_passedOn hthrown hown
  simp only [hnot, horder, Bool.false_eq_true]

/-- The runner closes its rows consistently exactly when the calls of the ledger fail in no other place than
those from which it recovers. -/
theorem agentSettled_closed_iff (fault : Option LedgerFault) (input : AgentInvocation) (runId : String)
    (generated : Except AgentCause Output) (signal : CallerSignal) :
    ClosedConsistently fault input runId generated signal (agentSettled fault input runId generated signal) ↔
      ClosesInOrder fault input generated signal = true := by
  cases hlimit : input.withinLimit with
  | false => exact closed_iff_limit hlimit
  | true =>
    match fault with
    | none => exact closed_iff_none hlimit
    | some ⟨0, applied, error⟩ => exact closed_iff_startRun hlimit applied error
    | some ⟨1, applied, error⟩ => exact closed_iff_startAttempt hlimit applied error
    | some ⟨2, applied, error⟩ => exact closed_iff_finishAttempt hlimit applied error
    | some ⟨3, applied, error⟩ => exact closed_iff_finishRun hlimit applied error
    | some ⟨n + 4, applied, error⟩ =>
      have hfirst : firstFailure (some ⟨n + 4, applied, error⟩) input runId generated signal =
          firstFailure none input runId generated signal := by
        cases generated <;> simp [firstFailure]
      have horder : ClosesInOrder (some ⟨n + 4, applied, error⟩) input generated signal =
          ClosesInOrder none input generated signal := by
        cases generated <;> simp [ClosesInOrder]
      rw [settled_late, horder, ← closed_iff_none hlimit]
      constructor
      · intro hclosed
        exact ⟨hclosed.run_closed, hclosed.attempt_closed, hclosed.agree, hclosed.returned, hclosed.output,
          fun thrown hthrown => hfirst ▸ hclosed.error thrown hthrown⟩
      · intro hclosed
        exact ⟨hclosed.run_closed, hclosed.attempt_closed, hclosed.agree, hclosed.returned, hclosed.output,
          fun thrown hthrown => hfirst ▸ hclosed.error thrown hthrown⟩

end Runner

/-- The model answers, its attempt is closed, and the connection is lost before the run is: the run stays open, and
what is thrown is that the attempt is not running. -/
theorem agentSettled_finishRun_lost :
    let input : AgentInvocation := ⟨"query-maker", 1, 2, "provider/model-a", []⟩
    let fault : LedgerFault := ⟨3, false, .other "connection terminated"⟩
    ¬ClosedConsistently (some fault) input "run_01JNZQ4A9B8C7D6E5F4G3H2J1K" (.ok "42") .active
        (agentSettled (some fault) input "run_01JNZQ4A9B8C7D6E5F4G3H2J1K" (.ok "42") .active) ∧
      agentSettled (some fault) input "run_01JNZQ4A9B8C7D6E5F4G3H2J1K" (.ok "42") .active =
        (.error (.passedOn attemptNotRunning), ⟨some (openRun input), some (succeededAttempt input), 5⟩) := by
  intro input fault
  have hsettled : agentSettled (some fault) input "run_01JNZQ4A9B8C7D6E5F4G3H2J1K" (.ok "42") .active =
      (.error (.passedOn attemptNotRunning), ⟨some (openRun input), some (succeededAttempt input), 5⟩) := by
    rfl
  refine ⟨?_, hsettled⟩
  intro hclosed
  rw [hsettled] at hclosed
  exact hclosed.run_closed (openRun input) rfl rfl

end PlusOne
