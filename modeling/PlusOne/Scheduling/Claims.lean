import PlusOne.Interleaving.Store
import PlusOne.Scheduling.Tables

/-! # Claiming due runs

A claim is one transaction: it selects due jobs and locks them one after the other,
inserts a run for each, and commits. A completion is one statement. -/

namespace PlusOne

open Interleaving

/-- What a scheduler asks of its connection. The selection of due jobs is one statement: it takes
its snapshot first, and then locks the rows in their order up to the limit. -/
inductive SchedulerCall
  | connect
  | begin
  | dueJobs (now : Nat)
  | lockJob (job : ScheduledJob)
  | insertRun (input : InsertRunInput)
  | commit
  | rollback
  | completeRun (input : CompleteRunInput)

abbrev SchedulerReply : SchedulerCall → Type
  | .dueJobs _ => List ScheduledJob
  | .lockJob _ => Bool
  | .insertRun _ | .completeRun _ => Option ScheduledRun
  | .connect | .begin | .commit | .rollback => Unit

abbrev SchedulerProgram (α : Type) := Prog SchedulerCall SchedulerReply Thrown α

inductive SchedulerTarget
  | orchestrator
  | team_lead (team : String)

structure ScheduledRunClaim where
  run : ScheduledRun
  target : SchedulerTarget
  timeoutMs : Nat
  maxRetries : Nat
  requiredContextSchemaName : String
  requiredContextSchemaVersion : Nat
  requiredContext : Json
  deliveryBehavior : Json
  overlapPolicy : OverlapPolicy
  missedRunPolicy : MissedRunPolicy

def ScheduledJob.target (job : ScheduledJob) : SchedulerTarget :=
  match job.targetKind with
  | .orchestrator => .orchestrator
  | .team_lead => .team_lead (job.targetTeam.getD "")

def ScheduledJob.claim (job : ScheduledJob) (run : ScheduledRun) : ScheduledRunClaim :=
  { run, target := job.target, timeoutMs := job.timeoutMs, maxRetries := job.maxRetries
    requiredContextSchemaName := job.requiredContextSchemaName
    requiredContextSchemaVersion := job.requiredContextSchemaVersion
    requiredContext := job.requiredContext, deliveryBehavior := job.deliveryBehavior
    overlapPolicy := job.overlapPolicy, missedRunPolicy := job.missedRunPolicy }

/-- `scheduledRun` -/
def scheduledRun (run : ScheduledRun) : SchedulerProgram ScheduledRun :=
  if run.valid then .ret run else .throw .zodError

/-- `LIMIT` and `FOR UPDATE SKIP LOCKED` -/
def lockJobs : Nat → List ScheduledJob → SchedulerProgram (List ScheduledJob)
  | 0, _ => .ret []
  | _ + 1, [] => .ret []
  | limit + 1, job :: jobs =>
    (Prog.perform (SchedulerCall.lockJob job)).bind fun locked =>
      if locked then (lockJobs limit jobs).bind fun rest => .ret (job :: rest)
      else lockJobs (limit + 1) jobs

def selectDueJobs (now limit : Nat) : SchedulerProgram (List ScheduledJob) :=
  (Prog.perform (SchedulerCall.dueJobs now)).bind (lockJobs limit)

def ScheduledJob.insertInput (F : IsoFormat) (job : ScheduledJob) (occurrenceId : OccurrenceId) :
    InsertRunInput :=
  { occurrenceId, jobId := job.jobId, jobVersion := job.version, runKey := job.runKey F
    scheduledFor := job.scheduledFor, householdId := job.householdId }

/-- The loop over the due jobs; `nextOccurrenceId` gives the identifiers from `n` on. -/
def insertRuns (F : IsoFormat) (nextOccurrenceId : Nat → OccurrenceId) :
    Nat → List ScheduledJob → SchedulerProgram (List ScheduledRunClaim)
  | _, [] => .ret []
  | n, job :: jobs =>
    (Prog.perform (SchedulerCall.insertRun (job.insertInput F (nextOccurrenceId n)))).bind fun
      | none => insertRuns F nextOccurrenceId (n + 1) jobs
      | some row => (scheduledRun row).bind fun run =>
        (insertRuns F nextOccurrenceId (n + 1) jobs).bind fun claims => .ret (job.claim run :: claims)

/-- One call of `claimDueRuns`. -/
structure ClaimDueRunsInput where
  now : Nat
  limit : Nat
  nextOccurrenceId : Nat → OccurrenceId

def claimDueRuns (F : IsoFormat) (input : ClaimDueRunsInput) :
    SchedulerProgram (List ScheduledRunClaim) :=
  (Prog.perform SchedulerCall.connect).bind fun _ =>
    ((Prog.perform SchedulerCall.begin).bind fun _ =>
      (selectDueJobs input.now input.limit).bind fun due =>
        (insertRuns F input.nextOccurrenceId 0 due).bind fun claims =>
          (Prog.perform SchedulerCall.commit).bind fun _ => .ret claims).tryCatch
      fun error => (Prog.perform SchedulerCall.rollback).bind fun _ => .throw error

def notCompletable (occurrenceId : OccurrenceId) : PlusOneError :=
  { category := .constraint_violation
    code := "scheduled_run_not_completable"
    message := "Scheduled run was not claimable or already terminal"
    retry := .after_state_resolution
    receiptLookupRequired := false
    details := [("occurrenceId", .text occurrenceId.text)] }

def completeRun (input : CompleteRunInput) : SchedulerProgram ScheduledRun :=
  (Prog.perform (SchedulerCall.completeRun input)).bind fun
    | some row => scheduledRun row
    | none => .throw (.plusOne (notCompletable input.occurrenceId))

/-! ## The system -/

/-- The committed runs, those of open transactions, and the transactions whose commit was given up
before it was answered. -/
structure SchedulerSys (ι : Type) where
  runs : List ScheduledRun
  uncommitted : List (ι × ScheduledRun)
  inDoubt : List ι
  now : Nat

/-- How a call ends: a statement by its ending, the lock of a row by whether it is taken. Other
transactions also lock jobs and households, so either may happen. -/
inductive SchedulerChoice
  | statement (ending : Ending Thrown)
  | lock (locked : Bool)

/-- What happens beside the calls: time passes, another process completes a run (or a completion
that was given up takes effect), and a commit in doubt is settled. -/
inductive SchedulerMove (ι : Type)
  | tick (milliseconds : Nat)
  | completeRun (input : CompleteRunInput)
  | settle (i : ι) (committed : Bool)

namespace SchedulerSys

variable {ι : Type} [DecidableEq ι]

/-- The runs that transaction `i` inserted. -/
def pending (s : SchedulerSys ι) (i : ι) : List ScheduledRun :=
  (s.uncommitted.filter fun entry => entry.1 = i).map Prod.snd

def withoutPending (s : SchedulerSys ι) (i : ι) : List (ι × ScheduledRun) :=
  s.uncommitted.filter fun entry => entry.1 ≠ i

/-- The transaction takes effect. -/
def committed (s : SchedulerSys ι) (i : ι) : SchedulerSys ι :=
  { s with runs := s.runs ++ s.pending i, uncommitted := s.withoutPending i }

/-- The transaction is dropped, where the database still decides on it. -/
def rolledBack (s : SchedulerSys ι) (i : ι) : SchedulerSys ι :=
  if i ∈ s.inDoubt then s else { s with uncommitted := s.withoutPending i }

/-- `INSERT … ON CONFLICT (household_id, run_key) DO NOTHING RETURNING …`; it waits for the end of
a transaction that holds the same key or identifier. -/
def insertRun (s : SchedulerSys ι) (i : ι) (input : InsertRunInput) :
    Option (Except PgFailure (Option ScheduledRun × SchedulerSys ι)) :=
  let row := input.row s.now
  let visible := s.runs ++ s.pending i
  if (s.withoutPending i).any fun entry =>
      entry.2.key == row.key || entry.2.occurrenceId == row.occurrenceId then none
  else if visible.any fun run => run.key == row.key then some (.ok (none, s))
  else if visible.any fun run => run.occurrenceId == row.occurrenceId then
    some (.error (uniqueViolation "scheduled_runs_public_unique"))
  else some (.ok (some row, { s with uncommitted := s.uncommitted ++ [(i, row)] }))

/-- `completeRun`, on the committed runs. -/
def completeRun (s : SchedulerSys ι) (input : CompleteRunInput) :
    Option ScheduledRun × SchedulerSys ι :=
  ((input.update s.runs s.now).1, { s with runs := (input.update s.runs s.now).2 })

/-- A call that only asks, or opens a transaction, under one ending. -/
def answer {α : Type} (s : SchedulerSys ι) (a : α) : Ending Thrown →
    Option (Except Thrown α × SchedulerSys ι)
  | .answered => some (.ok a, s)
  | .refused e | .unheard e | .unfinished e => some (.error e, s)

def runCommit (s : SchedulerSys ι) (i : ι) : Ending Thrown →
    Option (Except Thrown Unit × SchedulerSys ι)
  | .answered => some (.ok (), s.committed i)
  | .refused e => some (.error e, s)
  | .unheard e => some (.error e, s.committed i)
  | .unfinished e => some (.error e, { s with inDoubt := i :: s.inDoubt })

def runRollback (s : SchedulerSys ι) (i : ι) : Ending Thrown →
    Option (Except Thrown Unit × SchedulerSys ι)
  | .answered => some (.ok (), s.rolledBack i)
  | .unheard e => some (.error e, s.rolledBack i)
  | .refused e | .unfinished e => some (.error e, s)

/-- An insertion whose answer is lost leaves its row to a transaction that is rolled back. -/
def runInsert (s : SchedulerSys ι) (i : ι) (input : InsertRunInput) : Ending Thrown →
    Option (Except Thrown (Option ScheduledRun) × SchedulerSys ι)
  | .answered => (s.insertRun i input).map fun
    | .ok (row, s') => (.ok row, s')
    | .error failure => (.error (.pg failure), s)
  | .unheard e => (s.insertRun i input).bind fun
    | .ok (_, s') => some (.error e, s')
    | .error _ => none
  | .refused e | .unfinished e => some (.error e, s)

def runComplete (s : SchedulerSys ι) (input : CompleteRunInput) : Ending Thrown →
    Option (Except Thrown (Option ScheduledRun) × SchedulerSys ι)
  | .answered => some (.ok (s.completeRun input).1, (s.completeRun input).2)
  | .unheard e => some (.error e, (s.completeRun input).2)
  | .refused e | .unfinished e => some (.error e, s)

variable (jobs : List ScheduledJob)

def run (i : ι) : (call : SchedulerCall) → SchedulerChoice → SchedulerSys ι →
    Option (Except Thrown (SchedulerReply call) × SchedulerSys ι)
  | .connect, .statement ending, s => s.answer () ending
  | .begin, .statement ending, s => s.answer () ending
  | .dueJobs now, .statement ending, s => s.answer (PlusOne.dueJobs jobs s.runs now) ending
  | .lockJob _, .lock locked, s => s.answer locked .answered
  | .lockJob _, .statement (.refused e), s => s.answer false (.refused e)
  | .insertRun input, .statement ending, s => s.runInsert i input ending
  | .commit, .statement ending, s => s.runCommit i ending
  | .rollback, .statement ending, s => s.runRollback i ending
  | .completeRun input, .statement ending, s => s.runComplete input ending
  | _, _, _ => none

def env : SchedulerMove ι → SchedulerSys ι → Option (SchedulerSys ι)
  | .tick milliseconds, s => some { s with now := s.now + milliseconds * 1000 }
  | .completeRun input, s => some (s.completeRun input).2
  | .settle i committed, s =>
    if i ∈ s.inDoubt then
      let settled := { s with inDoubt := s.inDoubt.filter (· ≠ i) }
      some (if committed then settled.committed i else settled.rolledBack i)
    else none

end SchedulerSys

/-- Schedulers over a fixed set of jobs. -/
def schedulerSystem (jobs : List ScheduledJob) (ι : Type) [DecidableEq ι] :
    System ι SchedulerCall SchedulerReply Thrown (SchedulerSys ι) where
  Choice := SchedulerChoice
  Move := SchedulerMove ι
  run := SchedulerSys.run jobs
  env := SchedulerSys.env
  leave := fun i s => s.rolledBack i

/-- One call of a scheduler. -/
inductive SchedulerInput
  | claimDueRuns (input : ClaimDueRunsInput)
  | completeRun (input : CompleteRunInput)

/-- The calls, without what they answer. -/
def SchedulerInput.program (F : IsoFormat) : SchedulerInput → SchedulerProgram Unit
  | .claimDueRuns input => (PlusOne.claimDueRuns F input).bind fun _ => .ret ()
  | .completeRun input => (PlusOne.completeRun input).bind fun _ => .ret ()

abbrev SchedulerConfig (ι : Type) :=
  Config ι SchedulerCall SchedulerReply Thrown Unit (SchedulerSys ι)

/-- Every call at its start, over a table of runs. -/
def startScheduling {ι : Type} (F : IsoFormat) (inputs : ι → SchedulerInput)
    (runs : List ScheduledRun) (now : Nat) : SchedulerConfig ι :=
  .initial ⟨runs, [], [], now⟩ fun i => (inputs i).program F

end PlusOne
