import PlusOne.Interleaving.RelyGuarantee
import PlusOne.Scheduling.Claims

/-! # Runs of the schedulers

A run of a job is found under its occurrence, and every insertion of a claim is for the
one occurrence its job is due for. What two transactions insert for a job therefore has
one key, and the table keeps one of them. -/

namespace PlusOne

open Interleaving

/-! ## Tables of runs -/

/-- What the constraints of the tables say of the runs, and the overlap rule. -/
structure RunsSound (F : IsoFormat) (jobs : List ScheduledJob) (runs : List ScheduledRun) : Prop where
  keys : (runs.map ScheduledRun.key).Nodup
  runKeys : ∀ run ∈ runs, run.runKey = runKey F run.jobId run.jobVersion run.scheduledFor
  foreignKey : ∀ run ∈ runs, ∃ job ∈ jobs, job.jobId = run.jobId ∧ job.householdId = run.householdId
  exclusive : ∀ job ∈ jobs, job.overlapPolicy = .skip → ∀ run ∈ runs, ∀ run' ∈ runs,
    run.jobId = job.jobId → run'.jobId = job.jobId → run.status.active = true →
      run'.status.active = true → run = run'

/-- `scheduled_jobs_public_unique` -/
def UniqueJobs (jobs : List ScheduledJob) : Prop := (jobs.map ScheduledJob.jobId).Nodup

theorem UniqueJobs.eq {jobs : List ScheduledJob} (h : UniqueJobs jobs) {job job' : ScheduledJob}
    (hjob : job ∈ jobs) (hjob' : job' ∈ jobs) (hid : job.jobId = job'.jobId) : job = job' :=
  List.inj_on_of_nodup_map h hjob hjob' hid

namespace RunsSound

variable {F : IsoFormat} {jobs : List ScheduledJob} {runs runs' : List ScheduledRun}

theorem perm (h : RunsSound F jobs runs) (hperm : runs'.Perm runs) : RunsSound F jobs runs' where
  keys := (hperm.map ScheduledRun.key).nodup_iff.2 h.keys
  runKeys := fun run hrun => h.runKeys run (hperm.mem_iff.1 hrun)
  foreignKey := fun run hrun => h.foreignKey run (hperm.mem_iff.1 hrun)
  exclusive := fun job hjob hskip run hrun run' hrun' =>
    h.exclusive job hjob hskip run (hperm.mem_iff.1 hrun) run' (hperm.mem_iff.1 hrun')

theorem sublist (h : RunsSound F jobs runs) (hsub : runs'.Sublist runs) : RunsSound F jobs runs' where
  keys := h.keys.sublist (hsub.map ScheduledRun.key)
  runKeys := fun run hrun => h.runKeys run (hsub.subset hrun)
  foreignKey := fun run hrun => h.foreignKey run (hsub.subset hrun)
  exclusive := fun job hjob hskip run hrun run' hrun' =>
    h.exclusive job hjob hskip run (hsub.subset hrun) run' (hsub.subset hrun')

/-- One run for a job, a version and a time. -/
theorem unique (h : RunsSound F jobs runs) (hjobs : UniqueJobs jobs) {run run' : ScheduledRun}
    (hrun : run ∈ runs) (hrun' : run' ∈ runs) (hid : run.jobId = run'.jobId)
    (hversion : run.jobVersion = run'.jobVersion) (htime : run.scheduledFor = run'.scheduledFor) :
    run = run' := by
  obtain ⟨job, hjob, hjobid, hhousehold⟩ := h.foreignKey run hrun
  obtain ⟨job', hjob', hjobid', hhousehold'⟩ := h.foreignKey run' hrun'
  have hsame : job = job' := hjobs.eq hjob hjob' (hjobid.trans (hid.trans hjobid'.symm))
  have hhouseholds : run.householdId = run'.householdId := by
    rw [← hhousehold, ← hhousehold', hsame]
  have hkeys : run.runKey = run'.runKey := by
    rw [h.runKeys run hrun, h.runKeys run' hrun', hid, hversion, htime]
  have hkey : run.key = run'.key := Prod.ext hhouseholds hkeys
  exact List.inj_on_of_nodup_map h.keys hrun hrun' hkey

/-- A new run under a new key, of a job that has no active run where it must not have two. -/
theorem concat (h : RunsSound F jobs runs) {row : ScheduledRun}
    (hfresh : ∀ run ∈ runs, run.key ≠ row.key)
    (hkey : row.runKey = runKey F row.jobId row.jobVersion row.scheduledFor)
    (hjob : ∃ job ∈ jobs, job.jobId = row.jobId ∧ job.householdId = row.householdId)
    (hidle : ∀ job ∈ jobs, job.overlapPolicy = .skip → row.jobId = job.jobId →
      ∀ run ∈ runs, run.jobId = job.jobId → ¬run.status.active = true) :
    RunsSound F jobs (runs ++ [row]) where
  keys := by
    rw [List.map_append, List.map_singleton, ← List.concat_eq_append]
    apply h.keys.concat
    intro hmem
    obtain ⟨run, hrun, heq⟩ := List.mem_map.1 hmem
    exact hfresh run hrun heq
  runKeys := by
    intro run hrun
    rcases List.mem_append.1 hrun with hold | hnew
    · exact h.runKeys run hold
    · rw [List.mem_singleton.1 hnew]
      exact hkey
  foreignKey := by
    intro run hrun
    rcases List.mem_append.1 hrun with hold | hnew
    · exact h.foreignKey run hold
    · rw [List.mem_singleton.1 hnew]
      exact hjob
  exclusive := by
    intro job hjob hskip run hrun run' hrun' hid hid' hactive hactive'
    rcases List.mem_append.1 hrun with hold | hnew
    · rcases List.mem_append.1 hrun' with hold' | hnew'
      · exact h.exclusive job hjob hskip run hold run' hold' hid hid' hactive hactive'
      · rw [List.mem_singleton.1 hnew'] at hid'
        exact absurd hactive (hidle job hjob hskip hid' run hold hid)
    · rw [List.mem_singleton.1 hnew] at hid
      rcases List.mem_append.1 hrun' with hold' | hnew'
      · exact absurd hactive' (hidle job hjob hskip hid run' hold' hid')
      · rw [List.mem_singleton.1 hnew, List.mem_singleton.1 hnew']

end RunsSound

/-! ## Completions -/

namespace CompleteRunInput

variable {input : CompleteRunInput} {now : Nat}

theorem assigned_spec (run : ScheduledRun) :
    (input.assigned now run).key = run.key ∧ (input.assigned now run).jobId = run.jobId ∧
      (input.assigned now run).jobVersion = run.jobVersion ∧
      (input.assigned now run).scheduledFor = run.scheduledFor ∧
      (input.assigned now run).status.active = false :=
  ⟨rfl, rfl, rfl, rfl, input.status.not_active⟩

theorem active_of_update {runs : List ScheduledRun} {run : ScheduledRun}
    (hrun : run ∈ (input.update runs now).2) (hactive : run.status.active = true) : run ∈ runs := by
  obtain ⟨old, hold, rfl⟩ := List.mem_map.1 hrun
  by_cases hmatching : input.matching old = true
  · rw [if_pos hmatching, (assigned_spec old).2.2.2.2] at hactive
    cases hactive
  · rw [if_neg hmatching]
    exact hold

theorem identity_of_update {runs : List ScheduledRun} {run : ScheduledRun}
    (hrun : run ∈ (input.update runs now).2) :
    ∃ old ∈ runs, run.key = old.key ∧ run.jobId = old.jobId ∧ run.jobVersion = old.jobVersion ∧
      run.scheduledFor = old.scheduledFor := by
  obtain ⟨old, hold, rfl⟩ := List.mem_map.1 hrun
  by_cases hmatching : input.matching old = true
  · rw [if_pos hmatching]
    exact ⟨old, hold, rfl, rfl, rfl, rfl⟩
  · rw [if_neg hmatching]
    exact ⟨old, hold, rfl, rfl, rfl, rfl⟩

theorem update_keys (runs : List ScheduledRun) :
    (input.update runs now).2.map ScheduledRun.key = runs.map ScheduledRun.key := by
  simp only [update, List.map_map]
  apply List.map_congr_left
  intro run _
  simp only [Function.comp_apply]
  split_ifs <;> rfl

end CompleteRunInput

/-- A completion keeps the table sound, whatever is inserted beside it. -/
theorem RunsSound.update {F : IsoFormat} {jobs : List ScheduledJob} {runs rest : List ScheduledRun}
    (h : RunsSound F jobs (runs ++ rest)) (input : CompleteRunInput) (now : Nat) :
    RunsSound F jobs ((input.update runs now).2 ++ rest) := by
  have hidentity : ∀ run ∈ (input.update runs now).2 ++ rest, ∃ old ∈ runs ++ rest,
      run.key = old.key ∧ run.jobId = old.jobId ∧ run.jobVersion = old.jobVersion ∧
        run.scheduledFor = old.scheduledFor := by
    intro run hrun
    rcases List.mem_append.1 hrun with hupdated | hrest
    · obtain ⟨old, hold, hsame⟩ := CompleteRunInput.identity_of_update hupdated
      exact ⟨old, List.mem_append_left _ hold, hsame⟩
    · exact ⟨run, List.mem_append_right _ hrest, rfl, rfl, rfl, rfl⟩
  have hactive : ∀ run ∈ (input.update runs now).2 ++ rest, run.status.active = true →
      run ∈ runs ++ rest := by
    intro run hrun hactive
    rcases List.mem_append.1 hrun with hupdated | hrest
    · exact List.mem_append_left _ (CompleteRunInput.active_of_update hupdated hactive)
    · exact List.mem_append_right _ hrest
  constructor
  · rw [List.map_append, CompleteRunInput.update_keys, ← List.map_append]
    exact h.keys
  · intro run hrun
    obtain ⟨old, hold, hkey, hid, hversion, htime⟩ := hidentity run hrun
    have hrunKey : run.runKey = old.runKey := congrArg Prod.snd hkey
    rw [hrunKey, hid, hversion, htime]
    exact h.runKeys old hold
  · intro run hrun
    obtain ⟨old, hold, hkey, hid, _, _⟩ := hidentity run hrun
    have hhousehold : run.householdId = old.householdId := congrArg Prod.fst hkey
    rw [hid, hhousehold]
    exact h.foreignKey old hold
  · intro job hjob hskip run hrun run' hrun' hid hid' hrunning hrunning'
    exact h.exclusive job hjob hskip run (hactive run hrun hrunning) run'
      (hactive run' hrun' hrunning') hid hid' hrunning hrunning'

/-! ## The discipline -/

namespace SchedulerSys

variable {ι : Type} [DecidableEq ι]

/-- The runs of the table and of all open transactions. -/
def allRuns (s : SchedulerSys ι) : List ScheduledRun := s.runs ++ s.uncommitted.map Prod.snd

theorem allRuns_committed (s : SchedulerSys ι) (i : ι) : (s.committed i).allRuns.Perm s.allRuns := by
  have hsplit : (s.pending i ++ (s.withoutPending i).map Prod.snd).Perm
      (s.uncommitted.map Prod.snd) := by
    simp only [pending, withoutPending, ← List.map_append]
    apply List.Perm.map
    have hnot : (fun entry : ι × ScheduledRun => decide (entry.1 ≠ i)) =
        fun entry => !decide (entry.1 = i) := by
      funext entry
      simp
    rw [hnot]
    exact List.filter_append_perm _ _
  simp only [allRuns, committed, List.append_assoc]
  exact hsplit.append_left s.runs

theorem uncommitted_rolledBack (s : SchedulerSys ι) (i : ι) :
    (s.rolledBack i).runs = s.runs ∧ (s.rolledBack i).uncommitted.Sublist s.uncommitted := by
  unfold rolledBack
  split_ifs
  · exact ⟨rfl, .refl _⟩
  · exact ⟨rfl, List.filter_sublist⟩

theorem mem_pending {s : SchedulerSys ι} {i : ι} {run : ScheduledRun} :
    run ∈ s.pending i ↔ (i, run) ∈ s.uncommitted := by
  simp only [pending, List.mem_map, List.mem_filter, decide_eq_true_eq]
  constructor
  · intro h
    obtain ⟨⟨owner, entry⟩, ⟨hmem, howner⟩, hrun⟩ := h
    simp only at howner hrun
    rw [← howner, ← hrun]
    exact hmem
  · intro h
    exact ⟨(i, run), ⟨h, rfl⟩, rfl⟩

/-- What happens to the runs in a step that inserts none. -/
inductive Effect : SchedulerSys ι → SchedulerSys ι → Prop
  | keep {s s'} (runs : s'.runs = s.runs) (kept : s'.uncommitted.Sublist s.uncommitted) : Effect s s'
  | commit {s s'} (i : ι) (runs : s'.runs = s.runs ++ s.pending i)
      (rest : s'.uncommitted = s.withoutPending i) : Effect s s'
  | complete {s s'} (input : CompleteRunInput) (runs : s'.runs = (input.update s.runs s.now).2)
      (kept : s'.uncommitted = s.uncommitted) : Effect s s'

/-- A run inserted under a key that nobody has. -/
structure Inserts (i : ι) (input : InsertRunInput) (s s' : SchedulerSys ι) : Prop where
  runs : s'.runs = s.runs
  added : s'.uncommitted = s.uncommitted ++ [(i, input.row s.now)]
  fresh : ∀ run ∈ s.allRuns, run.key ≠ (input.row s.now).key

theorem effect_refl (s : SchedulerSys ι) : Effect s s := .keep rfl (.refl _)

theorem effect_rolledBack (s : SchedulerSys ι) (i : ι) : Effect s (s.rolledBack i) :=
  .keep (s.uncommitted_rolledBack i).1 (s.uncommitted_rolledBack i).2

variable {s s' : SchedulerSys ι}

theorem inserts_of_insertRun {i : ι} {input : InsertRunInput} {row : Option ScheduledRun}
    (h : s.insertRun i input = some (.ok (row, s'))) :
    (row = none ∧ s' = s) ∨ (row = some (input.row s.now) ∧ Inserts i input s s') := by
  simp only [insertRun] at h
  split_ifs at h with hwaits hconflict hoccurrence <;> cases h
  · exact .inl ⟨rfl, rfl⟩
  · refine .inr ⟨rfl, rfl, rfl, ?_⟩
    intro run hrun heq
    have hkey : (run.key == (input.row s.now).key) = true := beq_iff_eq.2 heq
    rcases List.mem_append.1 hrun with hcommitted | hopen
    · exact hconflict (List.any_eq_true.2 ⟨run, List.mem_append_left _ hcommitted, hkey⟩)
    · obtain ⟨⟨owner, entry⟩, hmem, rfl⟩ := List.mem_map.1 hopen
      by_cases howner : owner = i
      · subst howner
        have hmine := mem_pending.2 hmem
        exact hconflict (List.any_eq_true.2 ⟨entry, List.mem_append_right _ hmine, hkey⟩)
      · have htheirs : (owner, entry) ∈ s.withoutPending i :=
          List.mem_filter.2 ⟨hmem, decide_eq_true howner⟩
        refine hwaits (List.any_eq_true.2 ⟨(owner, entry), htheirs, ?_⟩)
        rw [hkey, Bool.true_or]

/-- Every call inserts a run or has one of the effects. -/
theorem run_effect {jobs : List ScheduledJob} {i : ι} {call : SchedulerCall} {choice : SchedulerChoice}
    {r : Except Thrown (SchedulerReply call)} (h : run jobs i call choice s = some (r, s')) :
    Effect s s' ∨ ∃ input, call = .insertRun input ∧ Inserts i input s s' := by
  have hanswer : ∀ {α : Type} {a : α} {ending : Ending Thrown} {r : Except Thrown α},
      s.answer a ending = some (r, s') → Effect s s' := by
    intro α a ending r hr
    cases ending <;> cases hr <;> exact effect_refl s
  cases call with
  | connect | begin | dueJobs =>
    cases choice with
    | statement ending => exact .inl (hanswer h)
    | lock => cases h
  | lockJob job =>
    cases choice with
    | lock locked =>
      cases h
      exact .inl (effect_refl s)
    | statement ending =>
      cases ending with
      | refused e =>
        cases h
        exact .inl (effect_refl s)
      | answered | unheard | unfinished => cases h
  | insertRun input =>
    cases choice with
    | lock => cases h
    | statement ending =>
      cases ending with
      | answered =>
        obtain ⟨result, hresult, heq⟩ := Option.map_eq_some_iff.1 h
        cases result with
        | error failure =>
          cases heq
          exact .inl (effect_refl s)
        | ok result =>
          cases heq
          rcases inserts_of_insertRun hresult with ⟨_, hsame⟩ | ⟨_, hinserts⟩
          · rw [hsame]
            exact .inl (effect_refl s)
          · exact .inr ⟨input, rfl, hinserts⟩
      | unheard e =>
        obtain ⟨result, hresult, heq⟩ := Option.bind_eq_some_iff.1 h
        cases result with
        | error failure => cases heq
        | ok result =>
          cases heq
          rcases inserts_of_insertRun hresult with ⟨_, hsame⟩ | ⟨_, hinserts⟩
          · rw [hsame]
            exact .inl (effect_refl s)
          · exact .inr ⟨input, rfl, hinserts⟩
      | refused e | unfinished e =>
        cases h
        exact .inl (effect_refl s)
  | commit =>
    cases choice with
    | lock => cases h
    | statement ending =>
      cases ending with
      | answered | unheard =>
        cases h
        exact .inl (.commit i rfl rfl)
      | refused =>
        cases h
        exact .inl (effect_refl s)
      | unfinished =>
        cases h
        exact .inl (.keep rfl (.refl _))
  | rollback =>
    cases choice with
    | lock => cases h
    | statement ending =>
      cases ending with
      | answered | unheard =>
        cases h
        exact .inl (effect_rolledBack s i)
      | refused | unfinished =>
        cases h
        exact .inl (effect_refl s)
  | completeRun input =>
    cases choice with
    | lock => cases h
    | statement ending =>
      cases ending with
      | answered | unheard =>
        cases h
        exact .inl (.complete input rfl rfl)
      | refused | unfinished =>
        cases h
        exact .inl (effect_refl s)

theorem env_effect {move : SchedulerMove ι} (h : env move s = some s') :
    Effect s s' := by
  cases move with
  | tick milliseconds =>
    cases h
    exact .keep rfl (.refl _)
  | completeRun input =>
    cases h
    exact .complete input rfl rfl
  | settle i committed =>
    simp only [env] at h
    split_ifs at h with hdoubt hcommitted <;> cases h
    · exact .commit i rfl rfl
    · have hrolled := uncommitted_rolledBack
        { s with inDoubt := s.inDoubt.filter (· ≠ i) } i
      exact .keep hrolled.1 hrolled.2

end SchedulerSys

section Soundness

variable {ι : Type} [DecidableEq ι] {F : IsoFormat} {jobs : List ScheduledJob}
variable {s s' : SchedulerSys ι}

/-- The active runs of the job are of the occurrence it is due for. -/
def Quiet (F : IsoFormat) (job : ScheduledJob) (s : SchedulerSys ι) : Prop :=
  ∀ run ∈ s.runs, run.jobId = job.jobId → run.status.active = true → run.key = job.occurrenceKey F

/-- The tables are sound with all open transactions, and these insert due occurrences. -/
structure SchedulerSys.Sound (F : IsoFormat) (jobs : List ScheduledJob) (s : SchedulerSys ι) :
    Prop where
  runs : RunsSound F jobs s.allRuns
  pending : ∀ entry ∈ s.uncommitted, ∃ job ∈ jobs, entry.2.jobId = job.jobId ∧
    entry.2.key = job.occurrenceKey F

theorem SchedulerSys.Effect.sound (heffect : SchedulerSys.Effect s s') (h : s.Sound F jobs) :
    s'.Sound F jobs := by
  cases heffect with
  | keep hruns hkept =>
    refine ⟨h.runs.sublist ?_, fun entry hentry => h.pending entry (hkept.subset hentry)⟩
    rw [SchedulerSys.allRuns, hruns]
    exact (hkept.map Prod.snd).append_left s.runs
  | commit i hruns hrest =>
    have hall : s'.allRuns = (s.committed i).allRuns := by
      simp only [SchedulerSys.allRuns, SchedulerSys.committed, hruns, hrest]
    refine ⟨h.runs.perm (hall ▸ s.allRuns_committed i), fun entry hentry => ?_⟩
    rw [hrest] at hentry
    exact h.pending entry (List.mem_of_mem_filter hentry)
  | complete input hruns hkept =>
    refine ⟨?_, fun entry hentry => h.pending entry (hkept ▸ hentry)⟩
    have hupdated := h.runs.update input s.now
    rwa [← hruns, ← hkept] at hupdated

variable {job : ScheduledJob}

theorem SchedulerSys.Effect.quiet (hjobs : UniqueJobs jobs) (heffect : SchedulerSys.Effect s s')
    (h : s.Sound F jobs) (hjob : job ∈ jobs) (hquiet : Quiet F job s) :
    Quiet F job s' := by
  intro run hrun hid hactive
  cases heffect with
  | keep hruns _ => exact hquiet run (hruns ▸ hrun) hid hactive
  | commit i hruns _ =>
    rw [hruns] at hrun
    rcases List.mem_append.1 hrun with hold | hpending
    · exact hquiet run hold hid hactive
    · obtain ⟨job', hjob', hid', hkey⟩ := h.pending _ (SchedulerSys.mem_pending.1 hpending)
      have hsame : job' = job := hjobs.eq hjob' hjob (hid'.symm.trans hid)
      rw [← hsame]
      exact hkey
  | complete input hruns _ =>
    rw [hruns] at hrun
    exact hquiet run (CompleteRunInput.active_of_update hrun hactive) hid hactive

omit [DecidableEq ι] in
/-- A due occurrence of a job without other active runs is inserted. -/
theorem SchedulerSys.Inserts.sound (hjobs : UniqueJobs jobs) {i : ι} {occurrenceId : OccurrenceId}
    (hinserts : SchedulerSys.Inserts i (job.insertInput F occurrenceId) s s') (h : s.Sound F jobs)
    (hjob : job ∈ jobs) (hquiet : job.overlapPolicy = .skip → Quiet F job s) : s'.Sound F jobs := by
  have hall : s'.allRuns = s.allRuns ++ [(job.insertInput F occurrenceId).row s.now] := by
    rw [SchedulerSys.allRuns, hinserts.runs, hinserts.added, List.map_append, ← List.append_assoc]
    rfl
  constructor
  · rw [hall]
    apply h.runs.concat hinserts.fresh rfl ⟨job, hjob, rfl, rfl⟩
    intro other hother hskip hid run hrun hrunid hactive
    have hsame : job = other := hjobs.eq hjob hother hid
    subst hsame
    apply hinserts.fresh run hrun
    rcases List.mem_append.1 hrun with hcommitted | hopen
    · exact hquiet hskip run hcommitted hrunid hactive
    · obtain ⟨entry, hentry, rfl⟩ := List.mem_map.1 hopen
      obtain ⟨job', hjob', hid', hkey⟩ := h.pending entry hentry
      have hsame : job' = job := hjobs.eq hjob' hjob (hid'.symm.trans hrunid)
      rw [hkey, hsame]
      rfl
  · intro entry hentry
    rw [hinserts.added] at hentry
    rcases List.mem_append.1 hentry with hold | hnew
    · exact h.pending entry hold
    · rw [List.mem_singleton.1 hnew]
      exact ⟨job, hjob, rfl, rfl⟩

variable {call : SchedulerCall}

theorem Quiet.run (hjobs : UniqueJobs jobs) {i : ι} {choice : SchedulerChoice}
    {r : Except Thrown (SchedulerReply call)} (h : s.Sound F jobs)
    (hrun : SchedulerSys.run jobs i call choice s = some (r, s')) (hjob : job ∈ jobs) (hquiet : Quiet F job s) :
    Quiet F job s' := by
  rcases SchedulerSys.run_effect hrun with heffect | ⟨input, _, hinserts⟩
  · exact heffect.quiet hjobs h hjob hquiet
  · intro run hrow
    rw [hinserts.runs] at hrow
    exact hquiet run hrow

/-- Claims insert due occurrences, and of a job that skips overlaps only where it has no other
active run. -/
def schedulerDiscipline (F : IsoFormat) (jobs : List ScheduledJob) (ι : Type) [DecidableEq ι] :
    Discipline (schedulerSystem jobs ι) (Guard.all (schedulerSystem jobs ι)) where
  Inv s := s.Sound F jobs
  rely _ s s' := ∀ job ∈ jobs, Quiet F job s → Quiet F job s'
  allowed _ call s := ∀ input, call = .insertRun input → ∃ job ∈ jobs, ∃ occurrenceId,
    input = job.insertInput F occurrenceId ∧ (job.overlapPolicy = .skip → Quiet F job s)
  rely_refl := fun _ _ _ _ h => h
  rely_trans := fun h h' job hjob hquiet => h' job hjob (h job hjob hquiet)

theorem schedulerDiscipline_sound (hjobs : UniqueJobs jobs) :
    (schedulerDiscipline F jobs ι).Sound where
  inv_call := by
    intro i call choice s r s' hinv hallowed _ hrun
    rcases SchedulerSys.run_effect hrun with heffect | ⟨input, hcall, hinserts⟩
    · exact heffect.sound hinv
    · obtain ⟨job, hjob, occurrenceId, rfl, hquiet⟩ := hallowed input hcall
      exact hinserts.sound hjobs hinv hjob hquiet
  rely_call := by
    intro i j call choice s r s' hinv _ _ hrun _ job hjob hquiet
    exact hquiet.run hjobs hinv hrun hjob
  inv_env := fun hinv _ henv => (SchedulerSys.env_effect henv).sound hinv
  rely_env := fun hinv _ henv job hjob hquiet =>
    (SchedulerSys.env_effect henv).quiet hjobs hinv hjob hquiet
  inv_leave := fun hinv => (SchedulerSys.effect_rolledBack _ _).sound hinv
  rely_leave := fun hinv _ job hjob hquiet =>
    (SchedulerSys.effect_rolledBack _ _).quiet hjobs hinv hjob hquiet

/-! ## The programs -/

/-- The job may be claimed for the occurrence it is due for. -/
def Claimable (F : IsoFormat) (jobs : List ScheduledJob) (job : ScheduledJob) (s : SchedulerSys ι) :
    Prop :=
  job ∈ jobs ∧ (job.overlapPolicy = .skip → Quiet F job s)

def AllClaimable (F : IsoFormat) (jobs due : List ScheduledJob) (s : SchedulerSys ι) : Prop :=
  ∀ job ∈ due, Claimable F jobs job s

variable {i : ι} {due : List ScheduledJob}

theorem stable_allClaimable : (schedulerDiscipline F jobs ι).Stable i (AllClaimable F jobs due) := by
  intro s s' _ hrely h job hjob
  obtain ⟨hmem, hquiet⟩ := h job hjob
  exact ⟨hmem, fun hskip => hrely job hmem (hquiet hskip)⟩

omit [DecidableEq ι] in
/-- A snapshot shows no active run of a due job that skips overlaps. -/
theorem allClaimable_dueJobs (hjobs : UniqueJobs jobs) (h : s.Sound F jobs) (now : Nat) :
    AllClaimable F jobs (dueJobs jobs s.runs now) s := by
  intro job hjob
  obtain ⟨hmem, hdue⟩ := mem_dueJobs.1 hjob
  refine ⟨hmem, ?_⟩
  intro hskip run hrun hid hactive
  have hidle : job.hasActiveRun s.runs = false := by
    simpa [ScheduledJob.isDue, hskip] using (Bool.and_eq_true_iff.1 hdue).2
  have hhousehold : run.householdId = job.householdId := by
    obtain ⟨job', hjob', hid', hhousehold'⟩ := h.runs.foreignKey run (List.mem_append_left _ hrun)
    have hsame : job' = job := hjobs.eq hjob' hmem (hid'.trans hid)
    rw [← hhousehold', hsame]
  have hshown : job.hasActiveRun s.runs = true := by
    apply List.any_eq_true.2
    exact ⟨run, hrun, by simp [hhousehold, hid, hactive]⟩
  rw [hidle] at hshown
  cases hshown

/-- The calls that insert no run. -/
def SchedulerCall.Plain (call : SchedulerCall) : Prop := ∀ input, call ≠ .insertRun input

theorem SchedulerCall.Plain.allowed (h : call.Plain) (s : SchedulerSys ι) :
    (schedulerDiscipline F jobs ι).allowed i call s :=
  fun input hcall => absurd hcall (h input)

theorem plain_triple {α : Type} {p : SchedulerProgram α} (hp : p.Calls SchedulerCall.Plain) :
    (schedulerDiscipline F jobs ι).Triple i (fun _ => True) p (fun _ _ => True) (fun _ _ => True) :=
  Discipline.Triple.of_calls hp (fun _ _ _ _ _ => trivial) (fun _ hcall s _ _ => hcall.allowed s)
    (fun _ _ _ _ _ _ _ _ _ _ _ => trivial)

/-- The calls that lock a job. -/
def SchedulerCall.Locks (call : SchedulerCall) : Prop := ∃ job, call = .lockJob job

theorem SchedulerCall.Locks.keeps (h : call.Locks) {choice : SchedulerChoice}
    {r : Except Thrown (SchedulerReply call)} (hrun : SchedulerSys.run jobs i call choice s = some (r, s')) :
    s' = s := by
  obtain ⟨job, rfl⟩ := h
  cases choice with
  | lock locked =>
    cases hrun
    rfl
  | statement ending =>
    cases ending with
    | refused e =>
      cases hrun
      rfl
    | answered | unheard | unfinished => cases hrun

theorem lockJobs_locks (limit : Nat) (due : List ScheduledJob) :
    (lockJobs limit due).Calls SchedulerCall.Locks := by
  induction due generalizing limit with
  | nil => cases limit <;> exact .ret _
  | cons job due ih =>
    cases limit with
    | zero => exact .ret _
    | succ limit =>
      apply Prog.Calls.bind (Prog.Calls.perform ⟨job, rfl⟩)
      intro locked
      split_ifs
      · exact (ih limit).bind fun _ => .ret _
      · exact ih (limit + 1)

theorem SchedulerCall.Locks.plain (h : call.Locks) : call.Plain := by
  intro input heq
  obtain ⟨job, hjob⟩ := h
  rw [hjob] at heq
  cases heq

/-- Only due jobs are locked. -/
theorem lockJobs_subset (limit : Nat) (due : List ScheduledJob) :
    (schedulerDiscipline F jobs ι).Triple i (fun _ => True) (lockJobs limit due)
      (fun locked _ => ∀ job ∈ locked, job ∈ due) (fun _ _ => True) := by
  induction due generalizing limit with
  | nil => cases limit <;> exact Discipline.Triple.ret fun _ _ _ job hjob => by cases hjob
  | cons job due ih =>
    cases limit with
    | zero => exact Discipline.Triple.ret fun _ _ _ job hjob => by cases hjob
    | succ limit =>
      apply (plain_triple (Prog.Calls.perform (by intro input h; cases h))).bind
      intro locked
      split_ifs
      · apply (ih limit).bind
        intro rest
        apply Discipline.Triple.ret
        intro s _ hrest other hother
        rcases List.mem_cons.1 hother with rfl | hmem
        · exact List.mem_cons_self ..
        · exact List.mem_cons_of_mem _ (hrest other hmem)
      · exact (ih (limit + 1)).post
          (fun _ _ _ hrest other hother => List.mem_cons_of_mem _ (hrest other hother))
          fun _ _ _ _ => trivial

theorem lockJobs_triple (limit : Nat) (due : List ScheduledJob) :
    (schedulerDiscipline F jobs ι).Triple i (AllClaimable F jobs due) (lockJobs limit due)
      (fun locked => AllClaimable F jobs locked) (fun _ _ => True) := by
  have hkept : (schedulerDiscipline F jobs ι).Triple i (AllClaimable F jobs due)
      (lockJobs limit due) (fun _ => AllClaimable F jobs due) (fun _ => AllClaimable F jobs due) := by
    apply Discipline.Triple.of_calls (lockJobs_locks limit due) stable_allClaimable
    · exact fun _ hcall s _ _ => hcall.plain.allowed s
    · intro call hcall s choice r s' _ h _ hrun _
      rw [hcall.keeps hrun]
      exact h
  have hsubset : (schedulerDiscipline F jobs ι).Triple i (AllClaimable F jobs due)
      (lockJobs limit due) (fun locked _ => ∀ job ∈ locked, job ∈ due) (fun _ _ => True) :=
    (lockJobs_subset limit due).pre fun _ _ _ => trivial
  exact (hkept.and_post hsubset).post
    (fun _ _ _ h job hjob => h.1 job (h.2 job hjob)) fun _ _ _ _ => trivial

theorem selectDueJobs_triple (hjobs : UniqueJobs jobs) (now limit : Nat) :
    (schedulerDiscipline F jobs ι).Triple i (fun _ => True) (selectDueJobs now limit)
      (fun due => AllClaimable F jobs due) (fun _ _ => True) := by
  apply Discipline.Triple.bind (R := fun due => AllClaimable F jobs due)
  · apply Discipline.Triple.perform (fun _ _ _ _ _ => trivial)
    · exact fun s _ _ input hcall => by cases hcall
    · intro s choice due s' hinv _ _ hrun _
      cases choice with
      | lock => cases hrun
      | statement ending =>
        cases ending with
        | answered =>
          cases hrun
          exact allClaimable_dueJobs hjobs hinv now
        | refused | unheard | unfinished => cases hrun
    · exact fun _ _ _ _ _ _ _ _ _ => trivial
  · exact fun due => lockJobs_triple limit due

theorem insertRuns_triple (hjobs : UniqueJobs jobs) (nextOccurrenceId : Nat → OccurrenceId)
    (n : Nat) (due : List ScheduledJob) :
    (schedulerDiscipline F jobs ι).Triple i (AllClaimable F jobs due)
      (insertRuns F nextOccurrenceId n due) (fun _ _ => True) (fun _ _ => True) := by
  induction due generalizing n with
  | nil => exact Discipline.Triple.ret fun _ _ _ => trivial
  | cons job due ih =>
    apply Discipline.Triple.bind (R := fun _ => AllClaimable F jobs due)
    · apply Discipline.Triple.perform stable_allClaimable
      · intro s _ h input hcall
        cases hcall
        obtain ⟨hmem, hquiet⟩ := h job (List.mem_cons_self ..)
        exact ⟨job, hmem, _, rfl, hquiet⟩
      · intro s choice row s' hinv h _ hrun _ other hother
        obtain ⟨hmem, hquiet⟩ := h other (List.mem_cons_of_mem _ hother)
        exact ⟨hmem, fun hskip => (hquiet hskip).run hjobs hinv hrun hmem⟩
      · exact fun _ _ _ _ _ _ _ _ _ => trivial
    · intro row
      cases row with
      | none => exact ih (n + 1)
      | some row =>
        apply Discipline.Triple.bind (R := fun _ => AllClaimable F jobs due)
        · unfold scheduledRun
          split_ifs
          · exact Discipline.Triple.ret fun _ _ h => h
          · exact Discipline.Triple.throw fun _ _ _ => trivial
        · intro run
          exact (ih (n + 1)).bind fun _ => Discipline.Triple.ret fun _ _ _ => trivial

theorem claimDueRuns_triple (hjobs : UniqueJobs jobs) (input : ClaimDueRunsInput) :
    (schedulerDiscipline F jobs ι).Triple i (fun _ => True) (claimDueRuns F input)
      (fun _ _ => True) (fun _ _ => True) := by
  have hplain : ∀ call : SchedulerCall, call.Plain →
      (schedulerDiscipline F jobs ι).Triple i (fun _ => True) (Prog.perform call)
        (fun _ _ => True) (fun _ _ => True) :=
    fun call hcall => plain_triple (Prog.Calls.perform hcall)
  have hconnect : SchedulerCall.connect.Plain := by intro input h; cases h
  have hbegin : SchedulerCall.begin.Plain := by intro input h; cases h
  have hcommit : SchedulerCall.commit.Plain := by intro input h; cases h
  have hrollback : SchedulerCall.rollback.Plain := by intro input h; cases h
  apply (hplain _ hconnect).bind
  intro _
  apply Discipline.Triple.tryCatch (F := fun _ _ => True)
  · apply (hplain _ hbegin).bind
    intro _
    apply (selectDueJobs_triple hjobs input.now input.limit).bind
    intro due
    apply (insertRuns_triple hjobs input.nextOccurrenceId 0 due).bind
    intro claims
    exact (hplain _ hcommit).bind fun _ => Discipline.Triple.ret fun _ _ _ => trivial
  · intro error
    exact (hplain _ hrollback).bind fun _ => Discipline.Triple.throw fun _ _ _ => trivial

theorem completeRun_triple (input : CompleteRunInput) :
    (schedulerDiscipline F jobs ι).Triple i (fun _ => True) (completeRun input)
      (fun _ _ => True) (fun _ _ => True) := by
  apply plain_triple
  apply Prog.Calls.bind (Prog.Calls.perform (by intro input h; cases h))
  intro row
  cases row with
  | none => exact .throw _
  | some row =>
    simp only [scheduledRun]
    split_ifs
    · exact .ret _
    · exact .throw _

theorem program_triple (hjobs : UniqueJobs jobs) (input : SchedulerInput) :
    (schedulerDiscipline F jobs ι).Triple i (fun _ => True) (input.program F)
      (fun _ _ => True) (fun _ _ => True) := by
  cases input with
  | claimDueRuns input =>
    exact (claimDueRuns_triple hjobs input).bind fun _ => Discipline.Triple.ret fun _ _ _ => trivial
  | completeRun input =>
    exact (completeRun_triple input).bind fun _ => Discipline.Triple.ret fun _ _ _ => trivial

/-- The tables are sound in every state a run leads to. -/
theorem sound_of_reachable (hjobs : UniqueJobs jobs) {inputs : ι → SchedulerInput}
    {runs : List ScheduledRun} {now : Nat} (hruns : RunsSound F jobs runs) {c : SchedulerConfig ι}
    (hrun : Reachable (Guard.all (schedulerSystem jobs ι)) (startScheduling F inputs runs now) c) :
    c.state.Sound F jobs := by
  have hstart : (⟨runs, [], [], now⟩ : SchedulerSys ι).Sound F jobs := by
    constructor
    · simpa [SchedulerSys.allRuns] using hruns
    · intro entry hentry
      cases hentry
  have hok := Discipline.run (P := fun _ _ => True) (Q := fun _ _ _ => True) (E := fun _ _ _ => True)
    (schedulerDiscipline_sound hjobs) (fun _ _ _ _ _ _ _ => trivial) (fun _ _ _ _ _ _ _ => trivial)
    (fun _ _ _ _ _ => trivial) (fun _ _ _ _ _ => trivial) hstart (fun _ => trivial)
    (fun i => program_triple hjobs (inputs i)) hrun
  exact hok.1

end Soundness

end PlusOne
