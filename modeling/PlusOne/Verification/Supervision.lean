import Mathlib.Data.Rat.Floor
import PlusOne.Memory.Taxonomy
import PlusOne.Runtime.CanonicalJson
import PlusOne.Verification.TeamResults

/-! # The supervision of a team lead

`TeamLeadSupervisor.run`: a lead plans, the plan is executed, and as long as the executions fail in a way
that can be retried the next lead plans again with all of them before it. -/

namespace PlusOne

/-! ## What a lead plans and sees -/

structure PlannedWork where
  workCellId : String
  makerInput : Json

structure TeamLeadPlan where
  recommendedStrategyName : String
  work : List PlannedWork
  stopCondition : StopCondition

/-- `TeamLeadPlanSchemaV1` -/
def TeamLeadPlan.valid (plan : TeamLeadPlan) : Bool :=
  isKebabName plan.recommendedStrategyName && plan.work.all (fun work => isKebabName work.workCellId) &&
    decide (1 ≤ plan.work.length) && decide (plan.work.length ≤ 4) && plan.stopCondition.valid

def TeamLeadPlan.toJson (plan : TeamLeadPlan) : Json :=
  .obj [("schemaName", .str "team-lead-plan"), ("schemaVersion", .ofNat 1),
    ("recommendedStrategyName", .str plan.recommendedStrategyName),
    ("work", .arr (plan.work.map fun work =>
      .obj [("workCellId", .str work.workCellId), ("makerInput", work.makerInput)])),
    ("stopCondition", .obj [("code", .str plan.stopCondition.code),
      ("description", .str plan.stopCondition.description)])]

inductive ExecutionOutcome
  | succeeded | failed
  deriving DecidableEq

def TeamResultStatus.outcome (status : TeamResultStatus) : ExecutionOutcome :=
  if status = .failed then .failed else .succeeded

structure LeadWorkExecution where
  taskId : TaskId
  workCellId : String
  outcome : ExecutionOutcome
  status : TeamResultStatus
  failure : Option LeadExecutionFailure

/-- `LeadWorkExecutionSchemaV1` -/
def LeadWorkExecution.valid (work : LeadWorkExecution) : Bool :=
  isKebabName work.workCellId && work.failure.all LeadExecutionFailure.valid &&
    (work.outcome == .failed) == work.failure.isSome && work.outcome == work.status.outcome

structure LeadExecutionRecord where
  executionOrdinal : Nat
  plan : TeamLeadPlan
  outcome : ExecutionOutcome
  status : TeamResultStatus
  work : List LeadWorkExecution

/-- `LeadExecutionRecordSchemaV1` -/
def LeadExecutionRecord.valid (record : LeadExecutionRecord) : Bool :=
  decide (1 ≤ record.executionOrdinal) && decide (record.executionOrdinal ≤ 8) && record.plan.valid &&
    record.work.all LeadWorkExecution.valid && decide (1 ≤ record.work.length) &&
    decide (record.work.length ≤ 4) && record.outcome == record.status.outcome &&
    (record.outcome != .failed || record.work.any fun work => work.outcome == .failed)

structure TeamLeadExecutionState where
  remainingAttempts : Nat
  executions : List LeadExecutionRecord

/-- `TeamLeadExecutionStateSchemaV1` -/
def TeamLeadExecutionState.valid (state : TeamLeadExecutionState) : Bool :=
  decide (state.remainingAttempts ≤ 8) && state.executions.all LeadExecutionRecord.valid &&
    decide (state.executions.length ≤ 8) &&
    decide (state.executions.map LeadExecutionRecord.executionOrdinal = List.range' 1 state.executions.length)

structure SupervisedWorkExecution where
  taskId : TaskId
  workCellId : String
  role : RoleIdentity
  status : TeamResultStatus
  failure : Option LeadExecutionFailure

structure SupervisedTeamExecution where
  result : TeamResultEnvelope
  work : List SupervisedWorkExecution

/-! ## Recording an execution -/

/-- `^[a-z][a-z0-9_]{0,127}$` -/
def isOutstandingCode (text : String) : Bool :=
  match text.toList with
  | first :: rest => isLower first && rest.all isCodeChar && decide (rest.length ≤ 127)
  | [] => false

def fallbackFailure (role : RoleIdentity) (outstanding : List String) : Except Thrown LeadExecutionFailure :=
  let code := (outstanding.find? isOutstandingCode).getD "team_execution_failed"
  LeadExecutionFailure.parse
    { phase := .execution
      role
      category :=
        if startsWith code "checker_" then .checker_rejected
        else if startsWith code "structured_" || startsWith code "agent_output_" then .validation_rejected
        else .runtime_failure
      code
      retry := .after_backoff
      issues := none }

def recordedWork (outstanding : List String) (work : SupervisedWorkExecution) :
    Except Thrown LeadWorkExecution := do
  let failure ←
    if work.status = .failed then
      match work.failure with
      | some failure => pure (some failure)
      | none => (fallbackFailure work.role outstanding).map some
    else pure none
  return { taskId := work.taskId, workCellId := work.workCellId, outcome := work.status.outcome
           status := work.status, failure }

def recordOf (executionOrdinal : Nat) (plan : TeamLeadPlan) (execution : SupervisedTeamExecution) :
    Except Thrown LeadExecutionRecord := do
  let work ← execution.work.mapM (recordedWork execution.result.outstanding)
  let record : LeadExecutionRecord :=
    { executionOrdinal, plan, outcome := execution.result.status.outcome, status := execution.result.status
      work }
  if record.valid then return record else throw .zodError

/-! ## Going on -/

/-- An execution with the result it came to. -/
structure Executed where
  result : TeamResultEnvelope
  record : LeadExecutionRecord

/-- `work.failure?.retry !== 'never'`, which work that did not fail passes. -/
def LeadWorkExecution.notNever (work : LeadWorkExecution) : Bool :=
  work.failure.map LeadExecutionFailure.retry != some .never

def shouldRetry (executed : Executed) (executionOrdinal : Nat) (attemptLimit : ℚ) : Bool :=
  if attemptLimit ≤ executionOrdinal ∨ executed.result.status ≠ .failed ∨ executed.result.effect ≠ .none then
    false
  else executed.record.work.any LeadWorkExecution.notNever

def ExecutionPhase.text : ExecutionPhase → String
  | lead_planning => "lead_planning"
  | maker_generation => "maker_generation"
  | maker_validation => "maker_validation"
  | checker_generation => "checker_generation"
  | checker_validation => "checker_validation"
  | checker_rejection => "checker_rejection"
  | execution => "execution"

/-- The failures of an execution, each with the work cell it belongs to. -/
def LeadExecutionRecord.failures (record : LeadExecutionRecord) : List (String × LeadExecutionFailure) :=
  record.work.filterMap fun work => work.failure.map fun failure => (work.workCellId, failure)

def failureFingerprint (record : LeadExecutionRecord) : String :=
  "|".intercalate (sortTexts (record.failures.map fun (workCellId, failure) =>
    workCellId ++ ":" ++ failure.phase.text ++ ":" ++ failure.code))

def sameAttempt (current previous : LeadExecutionRecord) : Bool :=
  stringify current.plan.toJson == stringify previous.plan.toJson &&
    failureFingerprint current == failureFingerprint previous

/-- `madeNoProgress` of the executions so far. -/
def madeNoProgress (executions : List Executed) : Bool :=
  match executions.reverse with
  | current :: previous :: _ => sameAttempt current.record previous.record
  | _ => false

/-- The executions so far do not end the run. -/
def goesOn (attemptLimit : ℚ) (executions : List Executed) : Bool :=
  executions.getLast?.all (fun executed => shouldRetry executed executions.length attemptLimit) &&
    !madeNoProgress executions

/-! ## The run -/

/-- A JavaScript number. -/
inductive JsNumber
  | finite (value : ℚ)
  | infinite (positive : Bool)
  | nan

/-- `Math.min(Math.max(value, 1), 8)`, when it is a number. -/
def clampAttempts : JsNumber → Option ℚ
  | .finite value => some (min (max value 1) 8)
  | .infinite positive => some (if positive then 8 else 1)
  | .nan => none

inductive SupervisionEnd
  | returned (result : TeamResultEnvelope)
  | threw (thrown : Thrown)
  | accountingFailed

/-- What a run did: its calls of `execute`, with the error of the one that ended it, and how it ended. -/
structure Supervision where
  calls : List (Except Thrown Executed)
  ending : SupervisionEnd

/-- What the callers of a run hand over. -/
structure TeamLead where
  plan : TeamLeadExecutionState → Nat → Except Thrown TeamLeadPlan
  execute : TeamLeadPlan → Nat → Except Thrown SupervisedTeamExecution

namespace TeamLeadSupervisor

variable (lead : TeamLead) (attemptLimit : ℚ)

/-- `remainingAttempts` is an integer only if the limit is one. -/
def stateOf (executions : List Executed) : Except Thrown TeamLeadExecutionState :=
  let remaining := attemptLimit - (executions.length + 1 : Nat) + 1
  let state : TeamLeadExecutionState :=
    { remainingAttempts := remaining.num.toNat, executions := executions.map Executed.record }
  if remaining.isInt ∧ 0 ≤ remaining ∧ state.valid then .ok state else .error .zodError

def nextPlan (executions : List Executed) : Except Thrown TeamLeadPlan := do
  let state ← stateOf attemptLimit executions
  lead.plan state (executions.length + 1)

def attempt (executions : List Executed) (plan : TeamLeadPlan) : Except Thrown Executed := do
  let execution ← lead.execute plan (executions.length + 1)
  let record ← recordOf (executions.length + 1) plan execution
  return ⟨execution.result, record⟩

/-- The rest of the loop, with as many iterations as the limit leaves. -/
def supervise : Nat → List Executed → Supervision
  | 0, executions => ⟨executions.map .ok, .accountingFailed⟩
  | remaining + 1, executions =>
    match nextPlan lead attemptLimit executions with
    | .error thrown => ⟨executions.map .ok, .threw thrown⟩
    | .ok plan =>
      match attempt lead executions plan with
      | .error thrown => ⟨executions.map .ok ++ [.error thrown], .threw thrown⟩
      | .ok executed =>
        if goesOn attemptLimit (executions ++ [executed]) then supervise remaining (executions ++ [executed])
        else ⟨(executions ++ [executed]).map .ok, .returned executed.result⟩

/-- No ordinal is at most `NaN`. -/
def run (attemptLimit : JsNumber) : Supervision :=
  match clampAttempts attemptLimit with
  | none => ⟨[], .accountingFailed⟩
  | some limit => supervise lead limit ⌊limit⌋₊ []

end TeamLeadSupervisor

/-! ## What a run may do -/

/-- The execution failed without any effect, and some of its failed work may be tried again. -/
def Executed.Retryable (executed : Executed) : Prop :=
  executed.result.status = .failed ∧ executed.result.effect = .none ∧
    ∃ work ∈ executed.record.work, work.outcome = .failed ∧
      ∃ failure, work.failure = some failure ∧ failure.retry ≠ .never

/-- The two executions have one plan and the same failures, in any order. -/
def Executed.Repeats (current previous : Executed) : Prop :=
  current.record.plan = previous.record.plan ∧ current.record.failures.Perm previous.record.failures

/-- `max(1, min(attemptLimit, 8))`, when it is a number. -/
def attemptBound : JsNumber → Option ℚ
  | .finite value => some (max 1 (min value 8))
  | .infinite positive => some (if positive then 8 else 1)
  | .nan => none

/-- A run is bounded, goes on only after an execution that can be retried, stops at an execution that
repeats the one before it, and ends before its attempts are used up. -/
structure Supervised (attemptLimit : JsNumber) (supervision : Supervision) : Prop where
  bounded : ∀ bound, attemptBound attemptLimit = some bound → (supervision.calls.length : ℚ) ≤ bound
  retried : ∀ call ∈ supervision.calls.dropLast, ∃ executed, call = .ok executed ∧ executed.Retryable
  stopped : ∀ i previous current, supervision.calls[i]? = some (.ok previous) →
    supervision.calls[i + 1]? = some (.ok current) → current.Repeats previous → supervision.calls.length = i + 2
  accounted : supervision.ending ≠ .accountingFailed

section Runs

open Relational TeamLeadSupervisor

variable {lead : TeamLead} {attemptLimit : ℚ}

theorem attemptBound_eq (limit : JsNumber) : attemptBound limit = clampAttempts limit := by
  cases limit with
  | finite value =>
    have hclamp : max 1 (min value 8) = min (max value 1) 8 := by
      rw [max_min_distrib_left, max_comm 1 value, max_eq_right (by norm_num : (1 : ℚ) ≤ 8)]
    simp [attemptBound, clampAttempts, hclamp]
  | infinite positive => rfl
  | nan => rfl

theorem one_le_of_clampAttempts {limit : JsNumber} (h : clampAttempts limit = some attemptLimit) :
    1 ≤ attemptLimit := by
  cases limit with
  | finite value =>
    have hlimit : min (max value 1) 8 = attemptLimit := by simpa [clampAttempts] using h
    rw [← hlimit]
    exact le_min (le_max_right value 1) (by norm_num)
  | infinite positive =>
    have hlimit : (if positive then (8 : ℚ) else 1) = attemptLimit := by simpa [clampAttempts] using h
    rw [← hlimit]
    cases positive <;> norm_num
  | nan => simp [clampAttempts] at h

/-! ### One execution -/

variable {executed : Executed} {executionOrdinal : Nat}

theorem shouldRetry_iff :
    shouldRetry executed executionOrdinal attemptLimit = true ↔
      (executionOrdinal : ℚ) < attemptLimit ∧ executed.result.status = .failed ∧
        executed.result.effect = .none ∧ ∃ work ∈ executed.record.work, work.notNever = true := by
  unfold shouldRetry
  split_ifs with h
  · constructor
    · intro hfalse
      cases hfalse
    · rintro ⟨hlt, hfailed, heffect, -⟩
      rcases h with h | h | h
      · exact absurd hlt (not_lt.2 h)
      · exact absurd hfailed h
      · exact absurd heffect h
  · push_neg at h
    simp [h.1, h.2.1, h.2.2]

variable {plan : TeamLeadPlan}

theorem valid_of_recordOf {execution : SupervisedTeamExecution} {record : LeadExecutionRecord}
    (h : recordOf executionOrdinal plan execution = .ok record) :
    record.valid = true := by
  obtain ⟨work, _, h⟩ := bind_eq_ok.1 h
  extract_lets record' at h
  split at h
  · next hvalid =>
    have hrecord : record' = record := Except.ok.inj h
    rw [← hrecord]
    exact hvalid
  · cases h

theorem LeadExecutionRecord.failed_iff {record : LeadExecutionRecord} (h : record.valid = true)
    {work : LeadWorkExecution} (hwork : work ∈ record.work) :
    work.outcome = .failed ↔ work.failure.isSome = true := by
  simp only [LeadExecutionRecord.valid, Bool.and_eq_true, List.all_eq_true] at h
  have hvalid : work.valid = true := h.1.1.1.1.2 work hwork
  simp only [LeadWorkExecution.valid, Bool.and_eq_true, beq_iff_eq] at hvalid
  have hsame := hvalid.1.2
  rw [← hsame, beq_iff_eq]

theorem notNever_of_retryable (h : executed.Retryable) :
    ∃ work ∈ executed.record.work, work.notNever = true := by
  obtain ⟨-, -, work, hwork, -, failure, hfailure, hretry⟩ := h
  exact ⟨work, hwork, by simp [LeadWorkExecution.notNever, hfailure, hretry]⟩

theorem retryable_of_shouldRetry (hvalid : executed.record.valid = true)
    (h : shouldRetry executed executionOrdinal attemptLimit = true)
    (hall : (∃ work ∈ executed.record.work, work.failure = none) → executed.Retryable) :
    executed.Retryable := by
  obtain ⟨-, hfailed, heffect, work, hwork, hnever⟩ := shouldRetry_iff.1 h
  cases hfailure : work.failure with
  | none => exact hall ⟨work, hwork, hfailure⟩
  | some failure =>
    have houtcome : work.outcome = .failed :=
      (LeadExecutionRecord.failed_iff hvalid hwork).2 (by simp [hfailure])
    have hretry : failure.retry ≠ .never := by simpa [LeadWorkExecution.notNever, hfailure] using hnever
    exact ⟨hfailed, heffect, work, hwork, houtcome, failure, hfailure, hretry⟩

theorem sameAttempt_of_repeats {current previous : Executed} (h : current.Repeats previous) :
    sameAttempt current.record previous.record = true := by
  obtain ⟨hplan, hfailures⟩ := h
  have hsorted := sortTexts_eq_iff.2 (hfailures.map fun (workCellId, failure) =>
    workCellId ++ ":" ++ failure.phase.text ++ ":" ++ failure.code)
  simp only [sameAttempt, failureFingerprint, hplan, hsorted, beq_self_eq_true, Bool.and_self]

variable {executions : List Executed}

theorem madeNoProgress_of_repeats {previous current : Executed} (h : current.Repeats previous) :
    madeNoProgress (executions ++ [previous, current]) = true := by
  have hreverse : (executions ++ [previous, current]).reverse =
      current :: previous :: executions.reverse := by simp
  rw [madeNoProgress, hreverse]
  exact sameAttempt_of_repeats h

/-! ### The attempts -/

theorem goesOn_append {last : Executed} :
    goesOn attemptLimit (executions ++ [last]) = true ↔
      shouldRetry last (executions.length + 1) attemptLimit = true ∧
        madeNoProgress (executions ++ [last]) = false := by
  simp [goesOn]

/-- The executions that planning and executing give, as long as each of them that is followed by
another failed without effect in a way that can be retried and made progress. -/
inductive Tried (lead : TeamLead) (attemptLimit : ℚ) : List Executed → Prop
  | start : Tried lead attemptLimit []
  | next {executions : List Executed} {plan : TeamLeadPlan} {executed : Executed} :
    Tried lead attemptLimit executions → (executions.length : ℚ) < attemptLimit →
    (∀ last ∈ executions.getLast?, last.Retryable) → madeNoProgress executions = false →
    nextPlan lead attemptLimit executions = .ok plan → attempt lead executions plan = .ok executed →
    Tried lead attemptLimit (executions ++ [executed])

/-- Whenever an execution that failed without effect is followed by another although some of its work
succeeded, some of its failed work can be retried. -/
def RetriesFailedWork (lead : TeamLead) (attemptLimit : ℚ) : Prop :=
  ∀ executions last plan, Tried lead attemptLimit (executions ++ [last]) →
    (executions.length + 1 : ℚ) < attemptLimit → last.result.status = .failed → last.result.effect = .none →
    madeNoProgress (executions ++ [last]) = false →
    nextPlan lead attemptLimit (executions ++ [last]) = .ok plan →
    (∃ work ∈ last.record.work, work.failure = none) → last.Retryable

theorem valid_of_attempt (h : attempt lead executions plan = .ok executed) : executed.record.valid = true := by
  obtain ⟨execution, _, h⟩ := bind_eq_ok.1 h
  obtain ⟨record, hrecord, h⟩ := bind_eq_ok.1 h
  cases h
  exact valid_of_recordOf hrecord

/-- Planning needs an integer number of remaining attempts. -/
theorem natCast_of_nextPlan (h : nextPlan lead attemptLimit executions = .ok plan) :
    ((⌊attemptLimit⌋₊ : Nat) : ℚ) = attemptLimit := by
  obtain ⟨state, hstate, _⟩ := bind_eq_ok.1 h
  unfold stateOf at hstate
  extract_lets remaining given at hstate
  split at hstate
  case isFalse => cases hstate
  case isTrue hchecked =>
    obtain ⟨hint, hnonneg, -⟩ := hchecked
    have hden : remaining.den = 1 := by simpa [Rat.isInt] using hint
    have hnum : ((remaining.num : ℤ) : ℚ) = remaining := (Rat.den_eq_one_iff remaining).1 hden
    have hnat : (remaining.num.toNat : ℤ) = remaining.num := Int.toNat_of_nonneg (Rat.num_nonneg.2 hnonneg)
    have hlimit : attemptLimit = ((remaining.num.toNat + executions.length : Nat) : ℚ) := by
      have hcast : ((remaining.num.toNat : Nat) : ℚ) = remaining := by
        rw [← hnum, ← hnat]
        rfl
      have hremaining : remaining = attemptLimit - (executions.length + 1 : Nat) + 1 := rfl
      push_cast at hremaining ⊢
      rw [hcast, hremaining]
      ring
    rw [hlimit, Nat.floor_natCast]

/-- The calls of the rest of a run come after those there are. -/
theorem supervise_calls (remaining : Nat) (executions : List Executed) :
    ∃ rest, (supervise lead attemptLimit remaining executions).calls = executions.map .ok ++ rest := by
  induction remaining generalizing executions with
  | zero => exact ⟨[], by simp [supervise]⟩
  | succ remaining ih =>
    unfold supervise
    split
    · exact ⟨[], by simp⟩
    · split
      · next thrown _ => exact ⟨[.error thrown], rfl⟩
      · next executed _ =>
        split
        · obtain ⟨rest, hrest⟩ := ih (executions ++ [executed])
          exact ⟨.ok executed :: rest, by simp [hrest]⟩
        · exact ⟨[.ok executed], by simp⟩

variable {remaining : Nat}

theorem supervise_threw {thrown : Thrown} (hplan : nextPlan lead attemptLimit executions = .ok plan)
    (hattempt : attempt lead executions plan = .error thrown) :
    supervise lead attemptLimit (remaining + 1) executions =
      ⟨executions.map .ok ++ [.error thrown], .threw thrown⟩ := by
  simp only [supervise, hplan, hattempt]

theorem supervise_next (hplan : nextPlan lead attemptLimit executions = .ok plan)
    (hattempt : attempt lead executions plan = .ok executed) :
    supervise lead attemptLimit (remaining + 1) executions =
      if goesOn attemptLimit (executions ++ [executed]) then
        supervise lead attemptLimit remaining (executions ++ [executed])
      else ⟨(executions ++ [executed]).map .ok, .returned executed.result⟩ := by
  simp only [supervise, hplan, hattempt]

theorem supervise_calls_of_attempt (hplan : nextPlan lead attemptLimit executions = .ok plan)
    (hattempt : attempt lead executions plan = .ok executed) :
    ∃ rest, (supervise lead attemptLimit (remaining + 1) executions).calls =
      (executions ++ [executed]).map .ok ++ rest := by
  rw [supervise_next hplan hattempt]
  split
  · exact supervise_calls remaining (executions ++ [executed])
  · exact ⟨[], by simp⟩

theorem supervise_calls_of_plan (h : nextPlan lead attemptLimit executions = .ok plan) :
    ∃ call rest, (supervise lead attemptLimit (remaining + 1) executions).calls =
      executions.map .ok ++ call :: rest := by
  cases hattempt : attempt lead executions plan with
  | error thrown => exact ⟨.error thrown, [], by rw [supervise_threw h hattempt]⟩
  | ok executed =>
    obtain ⟨rest, hrest⟩ := @supervise_calls_of_attempt lead attemptLimit executed plan _ remaining h hattempt
    exact ⟨.ok executed, rest, by simpa using hrest⟩

/-- A run gets to all that is tried, where it goes on. -/
theorem supervise_of_tried (h : Tried lead attemptLimit executions) (hgoes : goesOn attemptLimit executions = true) :
    supervise lead attemptLimit ⌊attemptLimit⌋₊ [] =
      supervise lead attemptLimit (⌊attemptLimit⌋₊ - executions.length) executions := by
  induction h with
  | start => rfl
  | @next executions plan executed htried hlt hretryable hprogress hplan hattempt ih =>
    have hearlier : goesOn attemptLimit executions = true := by
      rcases List.eq_nil_or_concat executions with rfl | ⟨before, last, rfl⟩
      · rfl
      · rw [List.concat_eq_append] at *
        have hlast : last.Retryable := hretryable last (by simp)
        have hordinal : ((before.length + 1 : Nat) : ℚ) < attemptLimit := by simpa using hlt
        exact goesOn_append.2 ⟨shouldRetry_iff.2 ⟨hordinal, hlast.1, hlast.2.1, notNever_of_retryable hlast⟩, hprogress⟩
    have hroom : executions.length < ⌊attemptLimit⌋₊ := by
      have hnat := natCast_of_nextPlan hplan
      rw [← hnat] at hlt
      exact_mod_cast hlt
    obtain ⟨remaining, hremaining⟩ : ∃ remaining, ⌊attemptLimit⌋₊ - executions.length = remaining + 1 :=
      ⟨⌊attemptLimit⌋₊ - executions.length - 1, by omega⟩
    have hrest : ⌊attemptLimit⌋₊ - (executions ++ [executed]).length = remaining := by
      rw [List.length_append, List.length_singleton]
      omega
    rw [ih hearlier, hremaining, supervise_next hplan hattempt, if_pos hgoes, hrest]

/-- Executions that a run goes on from, with as many attempts left as the limit leaves. -/
structure Going (lead : TeamLead) (attemptLimit : ℚ) (remaining : Nat) (executions : List Executed) : Prop where
  tried : Tried lead attemptLimit executions
  goes : goesOn attemptLimit executions = true
  retryable : ∀ executed ∈ executions.dropLast, executed.Retryable
  progress : ∀ i previous current, executions[i]? = some previous → executions[i + 1]? = some current →
    ¬current.Repeats previous
  counted : executions.length + remaining = ⌊attemptLimit⌋₊

theorem valid_of_tried (h : Tried lead attemptLimit executions) :
    ∀ executed ∈ executions, executed.record.valid = true := by
  induction h with
  | start => simp
  | next _ _ _ _ _ hattempt ih =>
    intro executed hexecuted
    rcases List.mem_append.1 hexecuted with hmem | hmem
    · exact ih executed hmem
    · rw [List.mem_singleton.1 hmem]
      exact valid_of_attempt hattempt

theorem Going.lt (h : Going lead attemptLimit remaining executions) (hlimit : 1 ≤ attemptLimit) :
    (executions.length : ℚ) < attemptLimit := by
  rcases List.eq_nil_or_concat executions with rfl | ⟨before, last, rfl⟩
  · simp only [List.length_nil, Nat.cast_zero]
    linarith
  · have hgoes := h.goes
    rw [List.concat_eq_append] at hgoes ⊢
    simpa using (shouldRetry_iff.1 (goesOn_append.1 hgoes).1).1

/-- Attempts are left where a run goes on. -/
theorem Going.pos (h : Going lead attemptLimit remaining executions) (hlimit : 1 ≤ attemptLimit) : 0 < remaining := by
  have hlt := h.lt hlimit
  have hcounted := h.counted
  by_contra hnone
  have hlength : executions.length = ⌊attemptLimit⌋₊ := by omega
  cases h.tried with
  | start =>
    have hfloor : 1 ≤ ⌊attemptLimit⌋₊ := Nat.le_floor (by simpa using hlimit)
    rw [List.length_nil] at hlength
    omega
  | next _ _ _ _ hplan _ =>
    rw [hlength, natCast_of_nextPlan hplan] at hlt
    exact lt_irrefl _ hlt

/-- Where the next plan is made, all the executions before it can be retried. -/
theorem Going.retryable_of_plan (hfailed : RetriesFailedWork lead attemptLimit)
    (h : Going lead attemptLimit remaining executions) (hplan : nextPlan lead attemptLimit executions = .ok plan) :
    ∀ executed ∈ executions, executed.Retryable := by
  rcases List.eq_nil_or_concat executions with rfl | ⟨before, last, rfl⟩
  · simp
  · rw [List.concat_eq_append] at *
    have hgoes := goesOn_append.1 h.goes
    obtain ⟨hlt, hstatus, heffect, -⟩ := shouldRetry_iff.1 hgoes.1
    have hvalid := valid_of_tried h.tried last (by simp)
    have hlast : last.Retryable := by
      refine retryable_of_shouldRetry hvalid hgoes.1 ?_
      intro hsucceeded
      exact hfailed before last plan h.tried (by exact_mod_cast hlt) hstatus heffect hgoes.2 hplan hsucceeded
    intro executed hexecuted
    rcases List.mem_append.1 hexecuted with hmem | hmem
    · exact h.retryable executed (by simpa using hmem)
    · rw [List.mem_singleton.1 hmem]
      exact hlast

theorem Going.next (hlimit : 1 ≤ attemptLimit) (h : Going lead attemptLimit (remaining + 1) executions)
    (hall : ∀ executed ∈ executions, executed.Retryable) (hplan : nextPlan lead attemptLimit executions = .ok plan)
    (hattempt : attempt lead executions plan = .ok executed)
    (hgoes : goesOn attemptLimit (executions ++ [executed]) = true) :
    Going lead attemptLimit remaining (executions ++ [executed]) where
  tried := by
    have hprogress : madeNoProgress executions = false := by
      have hboth := h.goes
      simp only [goesOn, Bool.and_eq_true, Bool.not_eq_true'] at hboth
      exact hboth.2
    exact .next h.tried (h.lt hlimit) (fun last hlast => hall last (List.mem_of_getLast? hlast)) hprogress
      hplan hattempt
  goes := hgoes
  retryable := by simpa using hall
  progress := by
    intro i previous current hprevious hcurrent hrepeats
    by_cases hlast : i + 1 < executions.length
    · rw [List.getElem?_append_left (by omega)] at hprevious hcurrent
      exact h.progress i previous current hprevious hcurrent hrepeats
    · have hlength := (List.getElem?_eq_some_iff.1 hcurrent).1
      rw [List.length_append, List.length_singleton] at hlength
      have hi : i + 1 = executions.length := by omega
      rw [List.getElem?_append_left (by omega)] at hprevious
      rw [hi, List.getElem?_append_right (le_refl _)] at hcurrent
      have hexecuted : executed = current := by simpa using hcurrent
      have hexecutions : executions = executions.take i ++ [previous] := by
        have htake := List.take_append_getElem (List.getElem?_eq_some_iff.1 hprevious).1
        rw [(List.getElem?_eq_some_iff.1 hprevious).2, hi, List.take_length] at htake
        exact htake.symm
      have hsame := @madeNoProgress_of_repeats (executions.take i) _ _ hrepeats
      have hnone := (goesOn_append.1 hgoes).2
      rw [hexecutions, hexecuted, List.append_assoc, List.singleton_append] at hnone
      rw [hnone] at hsame
      cases hsame
  counted := by
    have hcounted := h.counted
    rw [List.length_append, List.length_singleton]
    omega

/-- The calls of a run end as soon as it does not go on. -/
structure SupervisionSettled (attemptLimit : ℚ) (supervision : Supervision) : Prop where
  bounded : supervision.calls.length ≤ ⌊attemptLimit⌋₊
  retried : ∀ call ∈ supervision.calls.dropLast, ∃ executed, call = .ok executed ∧ executed.Retryable
  stopped : ∀ i previous current, supervision.calls[i]? = some (.ok previous) →
    supervision.calls[i + 1]? = some (.ok current) → current.Repeats previous → supervision.calls.length = i + 2
  accounted : supervision.ending ≠ .accountingFailed

/-- The last call of a run, after executions that can all be retried. -/
theorem Going.settled {call : Except Thrown Executed} {ending : SupervisionEnd}
    (h : Going lead attemptLimit (remaining + 1) executions) (hall : ∀ executed ∈ executions, executed.Retryable)
    (hending : ending ≠ .accountingFailed) :
    SupervisionSettled attemptLimit ⟨executions.map .ok ++ [call], ending⟩ where
  bounded := by
    have hcounted := h.counted
    simp only [List.length_append, List.length_map, List.length_singleton]
    omega
  retried := by
    intro earlier hearlier
    rw [List.dropLast_concat] at hearlier
    obtain ⟨executed, hexecuted, rfl⟩ := List.mem_map.1 hearlier
    exact ⟨executed, rfl, hall executed hexecuted⟩
  stopped := by
    intro i previous current hprevious hcurrent hrepeats
    dsimp only at hprevious hcurrent ⊢
    have hlength := (List.getElem?_eq_some_iff.1 hcurrent).1
    simp only [List.length_append, List.length_map, List.length_singleton] at hlength ⊢
    by_cases hlast : i + 1 < executions.length
    · rw [List.getElem?_append_left (by rw [List.length_map]; omega), List.getElem?_map] at hprevious hcurrent
      simp only [Option.map_eq_some_iff, Except.ok.injEq, exists_eq_right] at hprevious hcurrent
      exact absurd hrepeats (h.progress i previous current hprevious hcurrent)
    · omega
  accounted := hending

theorem supervise_settled (hlimit : 1 ≤ attemptLimit) (hfailed : RetriesFailedWork lead attemptLimit)
    (h : Going lead attemptLimit remaining executions) :
    SupervisionSettled attemptLimit (supervise lead attemptLimit remaining executions) := by
  induction remaining generalizing executions with
  | zero => exact absurd (h.pos hlimit) (lt_irrefl 0)
  | succ remaining ih =>
    cases hplan : nextPlan lead attemptLimit executions with
    | error thrown =>
      have hcounted := h.counted
      have hrun : supervise lead attemptLimit (remaining + 1) executions =
          ⟨executions.map .ok, .threw thrown⟩ := by
        simp only [supervise, hplan]
      rw [hrun]
      constructor
      · simp only [List.length_map]
        omega
      · intro call hcall
        rw [← List.map_dropLast] at hcall
        obtain ⟨executed, hexecuted, rfl⟩ := List.mem_map.1 hcall
        exact ⟨executed, rfl, h.retryable executed hexecuted⟩
      · intro i previous current hprevious hcurrent hrepeats
        simp only [List.getElem?_map, Option.map_eq_some_iff, Except.ok.injEq, exists_eq_right] at hprevious hcurrent
        exact absurd hrepeats (h.progress i previous current hprevious hcurrent)
      · simp
    | ok plan =>
      have hall := h.retryable_of_plan hfailed hplan
      cases hattempt : attempt lead executions plan with
      | error thrown =>
        rw [supervise_threw hplan hattempt]
        exact h.settled hall (by simp)
      | ok executed =>
        rw [supervise_next hplan hattempt]
        split
        · next hgoes => exact ih (h.next hlimit hall hplan hattempt hgoes)
        · rw [List.map_append, List.map_singleton]
          exact h.settled hall (by simp)

/-- A run is supervised exactly if its limit is a number and an execution that is followed by another
because some of its work succeeded has failed work that can be retried too. -/
theorem run_supervised_iff (lead : TeamLead) (limit : JsNumber) :
    Supervised limit (run lead limit) ↔
      ∃ attemptLimit, clampAttempts limit = some attemptLimit ∧ RetriesFailedWork lead attemptLimit := by
  constructor
  · intro h
    cases hlimit : clampAttempts limit with
    | none =>
      have hrun : run lead limit = ⟨[], .accountingFailed⟩ := by simp only [run, hlimit]
      rw [hrun] at h
      exact absurd rfl h.accounted
    | some attemptLimit =>
      refine ⟨attemptLimit, rfl, ?_⟩
      have hrun : run lead limit = supervise lead attemptLimit ⌊attemptLimit⌋₊ [] := by simp only [run, hlimit]
      rw [hrun] at h
      intro executions last plan htried hlt hstatus heffect hprogress hplan hsucceeded
      obtain ⟨work, hwork, hnone⟩ := hsucceeded
      have hnever : work.notNever = true := by simp [LeadWorkExecution.notNever, hnone]
      have hretry : shouldRetry last (executions.length + 1) attemptLimit = true :=
        shouldRetry_iff.2 ⟨by exact_mod_cast hlt, hstatus, heffect, work, hwork, hnever⟩
      have hreached := supervise_of_tried htried (goesOn_append.2 ⟨hretry, hprogress⟩)
      have hroom : executions.length + 1 < ⌊attemptLimit⌋₊ := by
        rw [← natCast_of_nextPlan hplan] at hlt
        exact_mod_cast hlt
      obtain ⟨remaining, hremaining⟩ : ∃ remaining,
          ⌊attemptLimit⌋₊ - (executions ++ [last]).length = remaining + 1 :=
        ⟨⌊attemptLimit⌋₊ - executions.length - 2, by
          rw [List.length_append, List.length_singleton]
          omega⟩
      obtain ⟨call, rest, hcalls⟩ := @supervise_calls_of_plan lead attemptLimit plan _ remaining hplan
      rw [← hremaining, ← hreached] at hcalls
      have hmem : .ok last ∈ (supervise lead attemptLimit ⌊attemptLimit⌋₊ []).calls.dropLast := by
        rw [hcalls, List.dropLast_append_cons]
        simp
      obtain ⟨executed, hexecuted, hretryable⟩ := h.retried _ hmem
      cases hexecuted
      exact hretryable
  · rintro ⟨attemptLimit, hlimit, hfailed⟩
    have hone := one_le_of_clampAttempts hlimit
    have hrun : run lead limit = supervise lead attemptLimit ⌊attemptLimit⌋₊ [] := by simp only [run, hlimit]
    have hgoing : Going lead attemptLimit ⌊attemptLimit⌋₊ [] :=
      ⟨.start, rfl, by simp, by simp, by simp⟩
    have hsettled := supervise_settled hone hfailed hgoing
    rw [hrun]
    constructor
    · intro bound hbound
      rw [attemptBound_eq, hlimit] at hbound
      cases hbound
      calc ((supervise lead attemptLimit ⌊attemptLimit⌋₊ []).calls.length : ℚ)
          ≤ (⌊attemptLimit⌋₊ : ℚ) := by exact_mod_cast hsettled.bounded
        _ ≤ attemptLimit := Nat.floor_le (by linarith)
    · exact hsettled.retried
    · exact hsettled.stopped
    · exact hsettled.accounted

end Runs

namespace TestSupervision

def role : RoleIdentity := ⟨"budget-maker", 1⟩

def refused : LeadExecutionFailure :=
  ⟨.maker_generation, role, .policy_rejected, "policy_denied", .never, none⟩

/-- Two pieces of work, of which one succeeds and one fails for good. -/
def plan : TeamLeadPlan where
  recommendedStrategyName := "parallel-maker-checker"
  work := [⟨"budgeting-intake", .null⟩, ⟨"budget-scenario", .null⟩]
  stopCondition := ⟨"budgeting-intake", "Return one checked clarification."⟩

def execution : SupervisedTeamExecution where
  result := {
    householdId := TestTeam.artifact.householdId
    taskId := TestTeam.artifact.taskId
    team := "budgeting"
    status := .failed
    claims := []
    assumptions := []
    uncertainty := []
    freshness := []
    coverage := []
    makerArtifacts := []
    checkerVerdicts := []
    selectedSkill := ⟨"budget-plan", 1, TestTeam.hash.hex⟩
    strategyName := plan.recommendedStrategyName
    stopCondition := plan.stopCondition
    completionReason := "Execution failed."
    outstanding := ["policy_denied"]
    effect := .none }
  work := [⟨TestTeam.artifact.taskId, "budgeting-intake", role, .verified, none⟩,
    ⟨TestTeam.artifact.taskId, "budget-scenario", role, .failed,
      some refused⟩]

def lead : TeamLead where
  plan _ _ := .ok plan
  execute _ _ := .ok execution

/-- The failure is not to be retried, and the work that succeeded has it retried. -/
theorem retried_for_succeeded_work :
    ¬∀ (lead : TeamLead) (limit : JsNumber), Supervised limit (TeamLeadSupervisor.run lead limit) := by
  intro hall
  have hretried := (hall lead (.finite 2)).retried
  have hcalls : ((TeamLeadSupervisor.run lead (.finite 2)).calls.dropLast.map fun call =>
      call.toOption.map fun executed => executed.record.work.filterMap LeadWorkExecution.failure) =
        [some [refused]] := by
    decide +kernel
  obtain ⟨call, hcall, hfailures⟩ := List.mem_map.1 (hcalls ▸ List.mem_singleton_self (some [refused]))
  obtain ⟨executed, rfl, -, -, work, hwork, -, failure, hfailure, hretry⟩ := hretried call hcall
  have hwhole : executed.record.work.filterMap LeadWorkExecution.failure = [refused] := Option.some.inj hfailures
  have hmem : failure ∈ executed.record.work.filterMap LeadWorkExecution.failure :=
    List.mem_filterMap.2 ⟨work, hwork, hfailure⟩
  rw [hwhole, List.mem_singleton] at hmem
  rw [hmem] at hretry
  exact hretry rfl

end TestSupervision

end PlusOne
