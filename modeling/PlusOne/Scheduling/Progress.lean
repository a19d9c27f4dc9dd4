import PlusOne.Interleaving.Solo
import PlusOne.Scheduling.ClaimRuns

/-! # What a claim gets when it runs alone

A due job stays due: nothing moves the time its next run is eligible at. A job whose
occurrence has been claimed keeps its place in the selection, under the limit, and its
insertion finds the run that is there. -/

namespace PlusOne

open Interleaving

/-- The occurrence that the job is due for has no run. -/
def ScheduledJob.isFresh (F : IsoFormat) (runs : List ScheduledRun) (job : ScheduledJob) : Bool :=
  !runs.any fun run => run.key == job.occurrenceKey F

/-- The due occurrences that may be claimed. -/
def claimableJobs (F : IsoFormat) (jobs : List ScheduledJob) (runs : List ScheduledRun) (now : Nat) :
    List ScheduledJob :=
  (dueJobs jobs runs now).filter (ScheduledJob.isFresh F runs)

/-- The choices of a call that nobody disturbs. -/
def whenAlone : SchedulerCall → SchedulerChoice
  | .lockJob _ => .lock true
  | _ => .statement .answered

/-- The generator gives the call identifiers that are not in the table. -/
structure FreshIdentifiers (input : ClaimDueRunsInput) (runs : List ScheduledRun) : Prop where
  distinct : ∀ m n, m < n → n < input.limit → input.nextOccurrenceId m ≠ input.nextOccurrenceId n
  unused : ∀ n < input.limit, ∀ run ∈ runs, run.occurrenceId ≠ input.nextOccurrenceId n

/-- Of the elements with a property, a prefix has as many as it can hold just where it has nothing
else, or has them all. -/
theorem length_filter_take_iff {α : Type} (p : α → Bool) (limit : Nat) (xs : List α) :
    ((xs.take limit).filter p).length = min limit (xs.filter p).length ↔
      (∀ x ∈ xs.take limit, p x = true) ∨ ∀ x ∈ xs.drop limit, p x = false := by
  have hsplit : (xs.filter p).length =
      ((xs.take limit).filter p).length + ((xs.drop limit).filter p).length := by
    rw [← List.length_append, ← List.filter_append, List.take_append_drop]
  have htake : ((xs.take limit).filter p).length ≤ (xs.take limit).length := List.length_filter_le ..
  have hlimit : (xs.take limit).length = min limit xs.length := List.length_take
  have hall : ((xs.take limit).filter p).length = (xs.take limit).length ↔
      ∀ x ∈ xs.take limit, p x = true := List.length_filter_eq_length_iff
  have hnone : ((xs.drop limit).filter p).length = 0 ↔ ∀ x ∈ xs.drop limit, p x = false := by
    rw [List.length_eq_zero_iff, List.filter_eq_nil_iff]
    simp only [Bool.not_eq_true]
  have hdrop : (xs.drop limit).length = xs.length - limit := List.length_drop
  have hdropped : ((xs.drop limit).filter p).length ≤ (xs.drop limit).length :=
    List.length_filter_le ..
  rw [← hall, ← hnone]
  omega

section Solo

variable {ι : Type} [DecidableEq ι] {F : IsoFormat} {jobs : List ScheduledJob}
variable {s : SchedulerSys ι} {i : ι}

theorem solo_lockJobs (limit : Nat) (due : List ScheduledJob) :
    (schedulerSystem jobs ι).solo i whenAlone (lockJobs limit due) s =
      some (.ok (due.take limit), s) := by
  induction due generalizing limit with
  | nil => cases limit <;> rfl
  | cons job due ih =>
    cases limit with
    | zero => rfl
    | succ limit =>
      have hlock : (schedulerSystem jobs ι).solo i whenAlone
          (.perform (SchedulerCall.lockJob job)) s = some (.ok true, s) := rfl
      rw [lockJobs, System.solo_bind_ok hlock, if_pos rfl, System.solo_bind_ok (ih limit)]
      rfl

theorem solo_selectDueJobs (now limit : Nat) :
    (schedulerSystem jobs ι).solo i whenAlone (selectDueJobs now limit) s =
      some (.ok ((dueJobs jobs s.runs now).take limit), s) := by
  have hdue : (schedulerSystem jobs ι).solo i whenAlone (.perform (SchedulerCall.dueJobs now)) s =
      some (.ok (dueJobs jobs s.runs now), s) := rfl
  rw [selectDueJobs, System.solo_bind_ok hdue]
  exact solo_lockJobs limit _

/-- The state of a transaction that is alone with what it inserted. -/
structure Alone (F : IsoFormat) (i : ι) (input : ClaimDueRunsInput) (n : Nat)
    (due : List ScheduledJob) (s : SchedulerSys ι) : Prop where
  mine : ∀ entry ∈ s.uncommitted, entry.1 = i
  keys : ∀ entry ∈ s.uncommitted, ∀ job ∈ due, entry.2.key ≠ job.occurrenceKey F
  unused : ∀ m, n ≤ m → m < input.limit → ∀ run ∈ s.allRuns,
    run.occurrenceId ≠ input.nextOccurrenceId m
  jobs : (due.map ScheduledJob.jobId).Nodup
  room : n + due.length ≤ input.limit

namespace Alone

variable {input : ClaimDueRunsInput} {n : Nat} {job : ScheduledJob} {due : List ScheduledJob}

theorem pending_eq (h : Alone F i input n due s) :
    s.pending i = s.uncommitted.map Prod.snd ∧ s.withoutPending i = [] := by
  constructor
  · rw [SchedulerSys.pending, List.filter_eq_self.2]
    intro entry hentry
    exact decide_eq_true (h.mine entry hentry)
  · rw [SchedulerSys.withoutPending, List.filter_eq_nil_iff]
    intro entry hentry
    simp [h.mine entry hentry]

omit [DecidableEq ι] in
theorem tail (h : Alone F i input n (job :: due) s) : Alone F i input (n + 1) due s where
  mine := h.mine
  keys := fun entry hentry other hother => h.keys entry hentry other (List.mem_cons_of_mem _ hother)
  unused := fun m hm => h.unused m (by omega)
  jobs := (List.nodup_cons.1 h.jobs).2
  room := by
    have hroom := h.room
    rw [List.length_cons] at hroom
    omega

/-- The insertion for the first job, which nobody makes it wait for. -/
theorem insertRun (h : Alone F i input n (job :: due) s) :
    s.insertRun i (job.insertInput F (input.nextOccurrenceId n)) =
      some (.ok (if job.isFresh F s.runs = true then
        (some ((job.insertInput F (input.nextOccurrenceId n)).row s.now),
          { s with uncommitted := s.uncommitted ++
            [(i, (job.insertInput F (input.nextOccurrenceId n)).row s.now)] })
        else (none, s))) := by
  obtain ⟨hpending, hothers⟩ := h.pending_eq
  have hroom := h.room
  rw [List.length_cons] at hroom
  have hconflict : ((s.runs ++ s.uncommitted.map Prod.snd).any fun run =>
      run.key == ((job.insertInput F (input.nextOccurrenceId n)).row s.now).key) =
        !job.isFresh F s.runs := by
    have hmine : ((s.uncommitted.map Prod.snd).any fun run => run.key == job.occurrenceKey F) =
        false := by
      apply List.any_eq_false.2
      intro run hrun
      obtain ⟨entry, hentry, rfl⟩ := List.mem_map.1 hrun
      simpa using h.keys entry hentry job (List.mem_cons_self ..)
    rw [List.any_append, ScheduledJob.isFresh, Bool.not_not]
    have hkey : ((job.insertInput F (input.nextOccurrenceId n)).row s.now).key =
        job.occurrenceKey F := rfl
    rw [hkey, hmine, Bool.or_false]
  have hunused : ((s.runs ++ s.uncommitted.map Prod.snd).any fun run =>
      run.occurrenceId == ((job.insertInput F (input.nextOccurrenceId n)).row s.now).occurrenceId) =
        false := by
    apply List.any_eq_false.2
    intro run hrun
    have hne : run.occurrenceId ≠ input.nextOccurrenceId n :=
      h.unused n (Nat.le_refl n) (by omega) run hrun
    have hid : ((job.insertInput F (input.nextOccurrenceId n)).row s.now).occurrenceId =
        input.nextOccurrenceId n := rfl
    rw [hid]
    simpa using hne
  simp only [SchedulerSys.insertRun, hpending, hothers, hconflict, hunused, List.any_nil]
  cases job.isFresh F s.runs <;> rfl

omit [DecidableEq ι] in
/-- The other jobs are still to be inserted after the first was. -/
theorem inserted (h : Alone F i input n (job :: due) s)
    (hdistinct : ∀ m n, m < n → n < input.limit → input.nextOccurrenceId m ≠ input.nextOccurrenceId n) :
    Alone F i input (n + 1) due { s with uncommitted := s.uncommitted ++
      [(i, (job.insertInput F (input.nextOccurrenceId n)).row s.now)] } := by
  have hrest := h.tail
  constructor
  · intro entry hentry
    rcases List.mem_append.1 hentry with hold | hnew
    · exact h.mine entry hold
    · rw [List.mem_singleton.1 hnew]
  · intro entry hentry other hother
    rcases List.mem_append.1 hentry with hold | hnew
    · exact hrest.keys entry hold other hother
    · rw [List.mem_singleton.1 hnew]
      intro heq
      have hid : job.jobId = other.jobId := runKey_jobId (congrArg Prod.snd heq)
      have hmem := List.mem_map_of_mem (f := ScheduledJob.jobId) hother
      rw [← hid] at hmem
      exact (List.nodup_cons.1 h.jobs).1 hmem
  · intro m hm hlimit run hrun
    simp only [SchedulerSys.allRuns, List.map_append, ← List.append_assoc] at hrun
    rcases List.mem_append.1 hrun with hold | hnew
    · exact hrest.unused m hm hlimit run hold
    · rw [List.mem_singleton.1 hnew]
      exact hdistinct n m hm hlimit
  · exact hrest.jobs
  · exact hrest.room

end Alone

theorem valid_row (job : ScheduledJob) (occurrenceId : OccurrenceId) (now : Nat) :
    ((job.insertInput F occurrenceId).row now).valid = true := by
  have hkey : lengthBetween 1 512 (job.runKey F) = true := runKey_length job.integerVersion
  simp [ScheduledRun.valid, InsertRunInput.row, ScheduledJob.insertInput, hkey]

/-- Alone, the loop claims the fresh occurrences among the selected jobs. -/
theorem solo_insertRuns {input : ClaimDueRunsInput} {n : Nat} {due : List ScheduledJob}
    (hdistinct : ∀ m n, m < n → n < input.limit → input.nextOccurrenceId m ≠ input.nextOccurrenceId n)
    (h : Alone F i input n due s) :
    ∃ claims s', (schedulerSystem jobs ι).solo i whenAlone
        (insertRuns F input.nextOccurrenceId n due) s = some (.ok claims, s') ∧
      claims.map (fun claim => claim.run.key) =
        (due.filter (ScheduledJob.isFresh F s.runs)).map (ScheduledJob.occurrenceKey F) := by
  induction due generalizing n s with
  | nil => exact ⟨[], s, rfl, rfl⟩
  | cons job due ih =>
    have hinsert := h.insertRun
    by_cases hfresh : job.isFresh F s.runs = true
    · rw [if_pos hfresh] at hinsert
      obtain ⟨claims, s', hrest, hkeys⟩ := ih (h.inserted hdistinct)
      have hstep : (schedulerSystem jobs ι).solo i whenAlone (.perform (SchedulerCall.insertRun
          (job.insertInput F (input.nextOccurrenceId n)))) s = some (.ok (some
            ((job.insertInput F (input.nextOccurrenceId n)).row s.now)), { s with
              uncommitted := s.uncommitted ++
                [(i, (job.insertInput F (input.nextOccurrenceId n)).row s.now)] }) := by
        apply System.solo_perform_ok
        simp only [schedulerSystem, whenAlone, SchedulerSys.run, SchedulerSys.runInsert, hinsert,
          Option.map_some]
      refine ⟨job.claim ((job.insertInput F (input.nextOccurrenceId n)).row s.now) :: claims, s', ?_, ?_⟩
      · rw [insertRuns, System.solo_bind_ok hstep]
        simp only [scheduledRun, valid_row, if_true, Prog.ret_bind]
        rw [System.solo_bind_ok hrest]
        rfl
      · rw [List.filter_cons_of_pos hfresh, List.map_cons, List.map_cons, hkeys]
        rfl
    · rw [if_neg hfresh] at hinsert
      obtain ⟨claims, s', hrest, hkeys⟩ := ih h.tail
      have hstep : (schedulerSystem jobs ι).solo i whenAlone (.perform (SchedulerCall.insertRun
          (job.insertInput F (input.nextOccurrenceId n)))) s = some (.ok none, s) := by
        apply System.solo_perform_ok
        simp only [schedulerSystem, whenAlone, SchedulerSys.run, SchedulerSys.runInsert, hinsert,
          Option.map_some]
      refine ⟨claims, s', ?_, ?_⟩
      · rw [insertRuns, System.solo_bind_ok hstep]
        exact hrest
      · rw [List.filter_cons_of_neg hfresh]
        exact hkeys

theorem dueJobs_nodup (hjobs : UniqueJobs jobs) (runs : List ScheduledRun) (now : Nat) :
    ((dueJobs jobs runs now).map ScheduledJob.jobId).Nodup := by
  have hperm := (List.perm_insertionSort ScheduledJob.before
    (jobs.filter fun job => job.isDue runs now)).map ScheduledJob.jobId
  apply hperm.nodup_iff.2
  exact hjobs.sublist (List.filter_sublist.map ScheduledJob.jobId)

/-- A claim that runs alone claims the fresh occurrences among the first due jobs. -/
theorem solo_claimDueRuns (hjobs : UniqueJobs jobs) (hclosed : s.uncommitted = [])
    (input : ClaimDueRunsInput) (hids : FreshIdentifiers input s.runs) :
    ∃ claims s', (schedulerSystem jobs ι).solo i whenAlone (claimDueRuns F input) s =
        some (.ok claims, s') ∧
      claims.map (fun claim => claim.run.key) =
        (((dueJobs jobs s.runs input.now).take input.limit).filter
          (ScheduledJob.isFresh F s.runs)).map (ScheduledJob.occurrenceKey F) := by
  have halone : Alone F i input 0 ((dueJobs jobs s.runs input.now).take input.limit) s := by
    constructor
    · simp [hclosed]
    · simp [hclosed]
    · intro m _ hlimit run hrun
      simp only [SchedulerSys.allRuns, hclosed, List.map_nil, List.append_nil] at hrun
      exact hids.unused m hlimit run hrun
    · exact (dueJobs_nodup hjobs s.runs input.now).sublist
        ((List.take_sublist _ _).map ScheduledJob.jobId)
    · rw [List.length_take]
      omega
  obtain ⟨claims, s', hinserts, hkeys⟩ := @solo_insertRuns ι _ F jobs s i input 0 _ hids.distinct halone
  have hconnect : (schedulerSystem jobs ι).solo i whenAlone (.perform SchedulerCall.connect) s =
      some (.ok (), s) := rfl
  have hbegin : (schedulerSystem jobs ι).solo i whenAlone (.perform SchedulerCall.begin) s =
      some (.ok (), s) := rfl
  have hcommit : (schedulerSystem jobs ι).solo i whenAlone (.perform SchedulerCall.commit) s' =
      some (.ok (), s'.committed i) := rfl
  refine ⟨claims, s'.committed i, ?_, hkeys⟩
  rw [claimDueRuns, System.solo_bind_ok hconnect]
  apply System.solo_tryCatch_ok
  rw [System.solo_bind_ok hbegin, System.solo_bind_ok (solo_selectDueJobs input.now input.limit),
    System.solo_bind_ok hinserts, System.solo_bind_ok hcommit]
  rfl

end Solo

/-- At most one run for a job, a version and a time, and at most one active run of a job that skips
overlaps, in every state of every run. A claim made there with no transaction open claims
`min limit` of the claimable occurrences just where none of the first due jobs has been claimed, or
no occurrence beyond them is claimable. -/
theorem scheduling_progress {ι : Type} [DecidableEq ι] {F : IsoFormat} {jobs : List ScheduledJob}
    {inputs : ι → SchedulerInput} {runs : List ScheduledRun} {now : Nat} (hjobs : UniqueJobs jobs)
    (hruns : RunsSound F jobs runs) {c : SchedulerConfig ι}
    (hrun : Reachable (Guard.all (schedulerSystem jobs ι)) (startScheduling F inputs runs now) c) :
    (∀ run ∈ c.state.runs, ∀ run' ∈ c.state.runs, run.jobId = run'.jobId →
      run.jobVersion = run'.jobVersion → run.scheduledFor = run'.scheduledFor → run = run') ∧
    (∀ job ∈ jobs, job.overlapPolicy = .skip → ∀ run ∈ c.state.runs, ∀ run' ∈ c.state.runs,
      run.jobId = job.jobId → run'.jobId = job.jobId → run.status.active = true →
        run'.status.active = true → run = run') ∧
    ∀ (i : ι) (input : ClaimDueRunsInput), c.state.uncommitted = [] →
      FreshIdentifiers input c.state.runs →
      ∃ claims s', (schedulerSystem jobs ι).solo i whenAlone (claimDueRuns F input) c.state =
          some (.ok claims, s') ∧
        (claims.length = min input.limit (claimableJobs F jobs c.state.runs input.now).length ↔
          (∀ job ∈ (dueJobs jobs c.state.runs input.now).take input.limit,
            job.isFresh F c.state.runs = true) ∨
          ∀ job ∈ (dueJobs jobs c.state.runs input.now).drop input.limit,
            job.isFresh F c.state.runs = false) := by
  have hsound := sound_of_reachable hjobs hruns hrun
  have hcommitted : RunsSound F jobs c.state.runs :=
    hsound.runs.sublist (List.sublist_append_left _ _)
  refine ⟨?_, hcommitted.exclusive, ?_⟩
  · intro run hrun run' hrun' hid hversion htime
    exact hcommitted.unique hjobs hrun hrun' hid hversion htime
  · intro i input hclosed hids
    obtain ⟨claims, s', hsolo, hkeys⟩ := solo_claimDueRuns (F := F) (i := i) hjobs hclosed input hids
    have hlength := congrArg List.length hkeys
    simp only [List.length_map] at hlength
    refine ⟨claims, s', hsolo, ?_⟩
    rw [hlength]
    exact length_filter_take_iff _ _ _

/-! ## Two due jobs -/

namespace TestSchedule

def householdId : HouseholdId := ⟨"01JNZQ4A9B8C7D6E5F4G3H2J1K", Eq.refl true⟩

def isoFormat : IsoFormat where
  toISOString milliseconds :=
    if milliseconds = 1000 then "1970-01-01T00:00:01.000Z" else "1970-01-01T00:00:02.000Z"
  length_toISOString := by
    intro milliseconds
    split_ifs <;> decide

def firstJob : ScheduledJob where
  databaseId := 1
  jobId := ⟨"01JNZQ4A9B8C7D6E5F4G3H2J1K", by decide⟩
  householdId := householdId
  version := 1
  integerVersion := by decide
  targetKind := .orchestrator
  targetTeam := none
  nextEligibleRunAt := 1000000
  requiredContextSchemaName := "none"
  requiredContextSchemaVersion := 1
  requiredContext := .null
  deliveryBehavior := .obj [("mode", .str "none")]
  overlapPolicy := .allow
  missedRunPolicy := .run_once
  timeoutMs := 1000
  maxRetries := 0
  enabled := true

def secondJob : ScheduledJob :=
  { firstJob with
    databaseId := 2, jobId := ⟨"01JNZQ4A9B8C7D6E5F4G3H2J2K", by decide⟩
    nextEligibleRunAt := 2000000 }

def jobs : List ScheduledJob := [firstJob, secondJob]

theorem uniqueJobs : UniqueJobs jobs := by
  unfold UniqueJobs
  decide

def firstOccurrence : OccurrenceId := ⟨"01JNZQ4A9B8C7D6E5F4G3H2J3K", by decide⟩

/-- A call of `claimDueRuns` for one run at the third second. -/
def claiming (limit : Nat) (occurrenceId : OccurrenceId) : ClaimDueRunsInput :=
  ⟨3000000, limit, fun _ => occurrenceId⟩

def inputs : Fin 2 → SchedulerInput
  | 0 => .claimDueRuns (claiming 1 firstOccurrence)
  | 1 => .completeRun ⟨householdId, firstOccurrence, .succeeded, none, none, none⟩

def start : SchedulerConfig (Fin 2) := startScheduling isoFormat inputs [] 3000000

attribute [local instance] Interleaving.twoThreads in
/-- The run of the first job is claimed and completed. -/
def firstRound : List (Event (Fin 2) SchedulerChoice (SchedulerMove (Fin 2))) :=
  [.call 0 (.statement .answered), .call 0 (.statement .answered), .call 0 (.statement .answered),
    .call 0 (.lock true), .call 0 (.statement .answered), .call 0 (.statement .answered), .finish 0,
    .call 1 (.statement .answered), .finish 1]

theorem runsSound_nil : RunsSound isoFormat jobs [] where
  keys := List.nodup_nil
  runKeys := fun _ hrun => by cases hrun
  foreignKey := fun _ hrun => by cases hrun
  exclusive := fun _ _ _ _ hrun => by cases hrun

def secondOccurrence : OccurrenceId := ⟨"01JNZQ4A9B8C7D6E5F4G3H2J4K", by decide⟩

/-- With both jobs under the limit, the next call claims the one that is left. -/
theorem scheduling_progress_two :
    ∃ c, start.play (schedulerSystem jobs (Fin 2)) firstRound = some c ∧
      ∃ claims s', (schedulerSystem jobs (Fin 2)).solo 0 whenAlone
          (claimDueRuns isoFormat ⟨3000000, 2, fun n => if n = 0 then secondOccurrence else
            ⟨"01JNZQ4A9B8C7D6E5F4G3H2J5K", by decide⟩⟩) c.state = some (.ok claims, s') ∧
        claims.length = min 2 1 := by
  have hplayed : ((start.play (schedulerSystem jobs (Fin 2)) firstRound).map fun c =>
      (c.state.uncommitted.length, c.state.runs.map ScheduledRun.occurrenceId,
        (claimableJobs isoFormat jobs c.state.runs 3000000).length,
        ((dueJobs jobs c.state.runs 3000000).drop 2).length)) =
      some (0, [firstOccurrence], 1, 0) := by
    decide +kernel
  obtain ⟨c, hc, hstate⟩ := Option.map_eq_some_iff.1 hplayed
  simp only [Prod.mk.injEq] at hstate
  obtain ⟨hclosed, hruns, hclaimable, hbeyond⟩ := hstate
  have hids : FreshIdentifiers ⟨3000000, 2, fun n => if n = 0 then secondOccurrence else
      ⟨"01JNZQ4A9B8C7D6E5F4G3H2J5K", by decide⟩⟩ c.state.runs := by
    constructor
    · intro m n hm hn
      have hzero : m = 0 := by
        simp only at hn
        omega
      have hone : n ≠ 0 := by omega
      simp only [hzero, if_neg hone, if_true]
      decide
    · intro n _ run hrun
      have hmem := List.mem_map_of_mem (f := ScheduledRun.occurrenceId) hrun
      rw [hruns, List.mem_singleton] at hmem
      rw [hmem]
      simp only
      split_ifs <;> decide
  obtain ⟨_, _, hclaims⟩ :=
    scheduling_progress uniqueJobs runsSound_nil (.of_play_all hc)
  obtain ⟨claims, s', hsolo, hlength⟩ := hclaims 0 _ (List.eq_nil_of_length_eq_zero hclosed) hids
  have hnone : ∀ job ∈ (dueJobs jobs c.state.runs 3000000).drop 2,
      job.isFresh isoFormat c.state.runs = false := by
    rw [List.eq_nil_of_length_eq_zero hbeyond]
    exact fun _ hjob => by cases hjob
  rw [hclaimable] at hlength
  exact ⟨c, hc, claims, s', hsolo, hlength.2 (.inr hnone)⟩

/-- With room for one job, the next call selects the job that has run already, and claims nothing
while the second job is due. -/
theorem second_job_starves :
    ∃ c, Reachable (Guard.all (schedulerSystem jobs (Fin 2))) start c ∧
      c.state.uncommitted = [] ∧ FreshIdentifiers (claiming 1 secondOccurrence) c.state.runs ∧
      (claimableJobs isoFormat jobs c.state.runs 3000000).map ScheduledJob.jobId =
        [secondJob.jobId] ∧
      ∃ s', (schedulerSystem jobs (Fin 2)).solo 0 whenAlone
        (claimDueRuns isoFormat (claiming 1 secondOccurrence)) c.state = some (.ok [], s') := by
  have hplayed : ((start.play (schedulerSystem jobs (Fin 2)) firstRound).map fun c =>
      (c.state.uncommitted.length, c.state.runs.map ScheduledRun.occurrenceId,
        (claimableJobs isoFormat jobs c.state.runs 3000000).map ScheduledJob.jobId,
        ((schedulerSystem jobs (Fin 2)).solo 0 whenAlone
          (claimDueRuns isoFormat (claiming 1 secondOccurrence)) c.state).map
            fun r => r.1.toOption.map List.length)) =
      some (0, [firstOccurrence], [secondJob.jobId], some (some 0)) := by
    decide +kernel
  obtain ⟨c, hc, hstate⟩ := Option.map_eq_some_iff.1 hplayed
  simp only [Prod.mk.injEq] at hstate
  obtain ⟨hclosed, hruns, hclaimable, hsolo⟩ := hstate
  have hids : FreshIdentifiers (claiming 1 secondOccurrence) c.state.runs := by
    constructor
    · intro m n hm hn
      simp only [claiming] at hn
      omega
    · intro n _ run hrun
      have hmem := List.mem_map_of_mem (f := ScheduledRun.occurrenceId) hrun
      rw [hruns, List.mem_singleton] at hmem
      rw [hmem]
      simp only [claiming]
      decide
  refine ⟨c, .of_play_all hc, List.eq_nil_of_length_eq_zero hclosed, hids, hclaimable, ?_⟩
  obtain ⟨⟨result, s'⟩, hresult, hlength⟩ := Option.map_eq_some_iff.1 hsolo
  cases result with
  | error e => cases hlength
  | ok claims =>
    have hempty : claims = [] := by
      simpa [Except.toOption] using hlength
    rw [hempty] at hresult
    exact ⟨s', hresult⟩

end TestSchedule

end PlusOne
