import Mathlib.Data.List.Sort
import Mathlib.Data.Nat.Digits.Defs
import PlusOne.Contracts.Channels
import PlusOne.Contracts.Errors
import PlusOne.Database.Errors
import PlusOne.Database.Tables

/-! # Scheduled jobs and their runs

Instants of the database are in microseconds. A `Date` has milliseconds, so a run is
scheduled for the millisecond its job is eligible in. -/

namespace PlusOne

/-- `Date.prototype.toISOString`, on instants from 1970 on. -/
structure IsoFormat where
  toISOString : Nat → String
  length_toISOString : ∀ milliseconds, Json.utf16Length (toISOString milliseconds) ≤ 27

inductive OverlapPolicy
  | skip | allow
  deriving DecidableEq

inductive MissedRunPolicy
  | skip | run_once | bounded_catch_up

inductive TargetKind
  | orchestrator | team_lead

structure ScheduledJob where
  databaseId : Nat
  jobId : JobId
  householdId : HouseholdId
  version : Nat
  integerVersion : version ≤ 2147483647
  targetKind : TargetKind
  targetTeam : Option String
  nextEligibleRunAt : Nat
  requiredContextSchemaName : String
  requiredContextSchemaVersion : Nat
  requiredContext : Json
  deliveryBehavior : Json
  overlapPolicy : OverlapPolicy
  missedRunPolicy : MissedRunPolicy
  timeoutMs : Nat
  maxRetries : Nat
  enabled : Bool

inductive RunStatus
  | claimed | running | succeeded | failed | timed_out | cancelled | skipped

/-- `status IN ('claimed', 'running')` -/
def RunStatus.active : RunStatus → Bool
  | claimed | running => true
  | succeeded | failed | timed_out | cancelled | skipped => false

structure ScheduledRun where
  occurrenceId : OccurrenceId
  householdId : HouseholdId
  jobId : JobId
  jobVersion : Nat
  runKey : String
  scheduledFor : Nat
  status : RunStatus
  attemptCount : Nat
  taskId : Option TaskId
  deliveryId : Option DeliveryId
  failureCategory : Option String
  createdAt : Nat
  updatedAt : Nat

/-- The columns of `scheduled_runs_run_key_unique`. -/
def ScheduledRun.key (run : ScheduledRun) : HouseholdId × String := (run.householdId, run.runKey)

/-- What `ScheduledRunSchemaV1` checks of a row beyond the types of its columns. -/
def ScheduledRun.valid (run : ScheduledRun) : Bool :=
  lengthBetween 1 512 run.runKey && run.failureCategory.all (lengthBetween 1 256)

/-! ## Occurrences -/

def runKey (F : IsoFormat) (jobId : JobId) (version : Nat) (scheduledFor : Nat) : String :=
  jobId.text ++ ":" ++ version.repr ++ ":" ++ F.toISOString scheduledFor

namespace ScheduledJob

variable (F : IsoFormat) (job : ScheduledJob)

/-- `job.next_eligible_run_at.toISOString()`, in milliseconds -/
def scheduledFor : Nat := job.nextEligibleRunAt / 1000

def runKey : String := PlusOne.runKey F job.jobId job.version job.scheduledFor

/-- The key of the occurrence that the job is due for. -/
def occurrenceKey : HouseholdId × String := (job.householdId, job.runKey F)

/-- A run of the job is claimed or running. -/
def hasActiveRun (runs : List ScheduledRun) : Bool :=
  runs.any fun active =>
    active.householdId == job.householdId && active.jobId == job.jobId && active.status.active

/-- The `WHERE` of the selection of due jobs. -/
def isDue (runs : List ScheduledRun) (now : Nat) : Bool :=
  job.enabled && decide (job.nextEligibleRunAt ≤ now) &&
    (job.overlapPolicy == .allow || !job.hasActiveRun runs)

end ScheduledJob

/-- `ORDER BY job.next_eligible_run_at, job.id` -/
def ScheduledJob.before (job job' : ScheduledJob) : Prop :=
  job.nextEligibleRunAt < job'.nextEligibleRunAt ∨
    job.nextEligibleRunAt = job'.nextEligibleRunAt ∧ job.databaseId ≤ job'.databaseId

instance : DecidableRel ScheduledJob.before := fun _ _ => inferInstanceAs (Decidable (_ ∨ _))

/-- The due jobs that a snapshot shows, in the order of the selection. -/
def dueJobs (jobs : List ScheduledJob) (runs : List ScheduledRun) (now : Nat) : List ScheduledJob :=
  (jobs.filter fun job => job.isDue runs now).insertionSort ScheduledJob.before

theorem mem_dueJobs {jobs : List ScheduledJob} {runs : List ScheduledRun} {now : Nat}
    {job : ScheduledJob} : job ∈ dueJobs jobs runs now ↔ job ∈ jobs ∧ job.isDue runs now = true := by
  rw [dueJobs, List.mem_insertionSort, List.mem_filter]

/-! ## Statements -/

/-- The parameters of the insertion of a run. -/
structure InsertRunInput where
  occurrenceId : OccurrenceId
  jobId : JobId
  jobVersion : Nat
  runKey : String
  scheduledFor : Nat
  householdId : HouseholdId

def InsertRunInput.row (input : InsertRunInput) (now : Nat) : ScheduledRun :=
  { occurrenceId := input.occurrenceId, householdId := input.householdId, jobId := input.jobId
    jobVersion := input.jobVersion, runKey := input.runKey, scheduledFor := input.scheduledFor
    status := .claimed, attemptCount := 1, taskId := none, deliveryId := none
    failureCategory := none, createdAt := now, updatedAt := now }

/-- The statuses of `completeRun`. -/
inductive CompletedStatus
  | succeeded | failed | timed_out | cancelled | skipped

def CompletedStatus.status : CompletedStatus → RunStatus
  | succeeded => .succeeded
  | failed => .failed
  | timed_out => .timed_out
  | cancelled => .cancelled
  | skipped => .skipped

theorem CompletedStatus.not_active (status : CompletedStatus) : status.status.active = false := by
  cases status <;> rfl

structure CompleteRunInput where
  householdId : HouseholdId
  occurrenceId : OccurrenceId
  status : CompletedStatus
  taskId : Option TaskId
  deliveryId : Option DeliveryId
  failureCategory : Option String

namespace CompleteRunInput

variable (input : CompleteRunInput)

/-- The `WHERE` of the completion. -/
def matching (run : ScheduledRun) : Bool :=
  run.householdId == input.householdId && run.occurrenceId == input.occurrenceId &&
    run.status.active

def assigned (now : Nat) (run : ScheduledRun) : ScheduledRun :=
  { run with
    status := input.status.status, taskId := input.taskId <|> run.taskId
    deliveryId := input.deliveryId <|> run.deliveryId, failureCategory := input.failureCategory
    updatedAt := now }

/-- The `UPDATE` of `completeRun`, with the row it answers. -/
def update (runs : List ScheduledRun) (now : Nat) : Option ScheduledRun × List ScheduledRun :=
  ((runs.find? input.matching).map (input.assigned now),
    runs.map fun run => if input.matching run then input.assigned now run else run)

end CompleteRunInput

/-! ## Keys -/

theorem OpaqueId.text_length (jobId : JobId) : jobId.text.length = 30 := by
  have hadmits := jobId.crockford
  simp only [IdKind.admits, Bool.and_eq_true, decide_eq_true_eq] at hadmits
  have hlength : jobId.suffix.length = 26 := Nat.le_antisymm hadmits.1.2 hadmits.1.1
  have hprefix : (IdKind.idPrefix .job).length = 3 := by decide
  have hunderscore : ("_" : String).length = 1 := by decide
  simp only [OpaqueId.text, String.length_append, hlength, hprefix, hunderscore]

/-- A run key starts with the identifier of its job. -/
theorem runKey_jobId {F : IsoFormat} {jobId jobId' : JobId} {version version' time time' : Nat}
    (h : runKey F jobId version time = runKey F jobId' version' time') : jobId = jobId' := by
  simp only [runKey, String.append_assoc] at h
  have hlists := congrArg String.toList h
  simp only [String.toList_append] at hlists
  have hlength : jobId.text.toList.length = jobId'.text.toList.length := by
    rw [String.length_toList, String.length_toList, OpaqueId.text_length, OpaqueId.text_length]
  have htext := String.toList_injective (List.append_inj hlists hlength).1
  have hsuffix : jobId.suffix = jobId'.suffix := (String.append_right_inj _).1 htext
  cases jobId
  cases jobId'
  cases hsuffix
  rfl

theorem utf16Length_append (a b : String) :
    Json.utf16Length (a ++ b) = Json.utf16Length a + Json.utf16Length b := by
  simp [Json.utf16Length]

theorem utf16Length_le (text : String) : Json.utf16Length text ≤ 2 * text.length := by
  have hlist : ∀ cs : List Char,
      (cs.map fun c => if c.toNat < 0x10000 then 1 else 2).sum ≤ 2 * cs.length := by
    intro cs
    induction cs with
    | nil => simp
    | cons c cs ih =>
      simp only [List.map_cons, List.sum_cons, List.length_cons]
      split_ifs <;> omega
  have htext := hlist text.toList
  rw [String.length_toList] at htext
  exact htext

theorem runKey_length {F : IsoFormat} {jobId : JobId} {version time : Nat}
    (h : version ≤ 2147483647) : lengthBetween 1 512 (runKey F jobId version time) = true := by
  have hversion : version.repr.length ≤ 10 := by
    apply Nat.repr_length version 10 (by omega)
    omega
  have hversion' := utf16Length_le version.repr
  have hjob := utf16Length_le jobId.text
  have hiso := F.length_toISOString time
  have hcolon : Json.utf16Length ":" = 1 := by decide
  rw [OpaqueId.text_length] at hjob
  simp only [lengthBetween, runKey, utf16Length_append, hcolon, Bool.and_eq_true, decide_eq_true_eq]
  omega

end PlusOne
