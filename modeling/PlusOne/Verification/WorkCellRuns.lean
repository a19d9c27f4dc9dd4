import PlusOne.Verification.CoverageRuns
import PlusOne.Verification.WorkCells

/-! # What a work cell leaves behind

The calls that a work cell makes on its own task, while the ledger answers them, take the task from one
status to the next. Following the execution along its exits shows at which of them the task is closed. -/

namespace PlusOne

open Interleaving

/-! ## Calls on one task -/

namespace Db

variable {db : Db} {key : TaskKey}

/-- The task of a work cell, as far as the execution depends on it. -/
structure Working (db : Db) (key : TaskKey) (status : TaskStatus)
    (maker : Option (ArtifactId × ArtifactHash)) : Prop where
  household : db.households.contains key.1 = true
  task : ∃ task, db.findTask key.1 key.2 = some task ∧ task.status = status ∧
    task.currentMakerArtifact = maker

/-- The latest verdict of a task reads back as `verdict`. -/
def LatestIs (db : Db) (key : TaskKey) (verdict : CheckerVerdict) : Prop :=
  ∃ row payload, db.findLatestVerdict key.1 key.2 = some (row, payload) ∧
    CheckerVerdict.parse payload = some verdict ∧ row.verdict = verdict.verdict ∧
    row.coveredArtifactId = verdict.coveredArtifactId ∧
    row.coveredArtifactHash = verdict.coveredArtifactHash

/-- No verdict is recorded of the task. -/
def Unreviewed (db : Db) (key : TaskKey) : Prop :=
  ∀ row ∈ db.verdicts, (row.householdId, row.taskId) ≠ key

theorem findTask_replaceTask {task new : TaskRow} (h : db.findTask key.1 key.2 = some task)
    (hkey : new.key = key) : (db.replaceTask new).findTask key.1 key.2 = some new := by
  have hhousehold : new.householdId = key.1 := congrArg Prod.fst hkey
  have htask : new.taskId = key.2 := congrArg Prod.snd hkey
  unfold findTask at h ⊢
  unfold replaceTask
  generalize db.tasks = tasks at h
  induction tasks with
  | nil => cases h
  | cons old tasks ih =>
    by_cases hold : old.householdId = key.1 ∧ old.taskId = key.2
    · simp [hold, hhousehold, htask]
    · have hnot : (old.householdId == key.1 && old.taskId == key.2) = false := by simpa using hold
      rw [List.find?_cons, hnot] at h
      simp only [List.map_cons, hhousehold, htask, if_neg hold, List.find?_cons, hnot]
      simpa only [hhousehold, htask] using ih h

theorem findTask_append {new : TaskRow} (h : db.findTask key.1 key.2 = none) (hkey : new.key = key) :
    { db with tasks := db.tasks ++ [new] }.findTask key.1 key.2 = some new := by
  have hhousehold : new.householdId = key.1 := congrArg Prod.fst hkey
  have htask : new.taskId = key.2 := congrArg Prod.snd hkey
  unfold findTask at h ⊢
  simp [List.find?_append, h, hhousehold, htask]

theorem recordCheckerVerdict_first {task : TaskRow} {checkerArtifactId : ArtifactId}
    {verdict : CheckerVerdict} {db' : Db} (hfind : db.findTask key.1 key.2 = some task)
    (hstatus : task.status = .checker_running)
    (hmaker : task.currentMakerArtifact = some (verdict.coveredArtifactId, verdict.coveredArtifactHash))
    (hunreviewed : db.Unreviewed key)
    (h : db.recordCheckerVerdict key.1 key.2 checkerArtifactId verdict = some db') :
    db' = ({ db with verdicts := db.verdicts ++ [verdictRow key checkerArtifactId verdict] } : Db).replaceTask
      { task with currentCheckerArtifactId := some checkerArtifactId, updatedAt := db.now } := by
  have hfresh : (db.verdicts.find? fun old => old.householdId == key.1 && old.taskId == key.2 &&
      old.checkerArtifactId == checkerArtifactId) = none := by
    apply List.find?_eq_none.2
    intro old hold hsame
    simp only [Bool.and_eq_true, beq_iff_eq] at hsame
    exact hunreviewed old hold (Prod.ext hsame.1.1 hsame.1.2)
  unfold recordCheckerVerdict at h
  simp only [hfind] at h
  rw [if_pos ⟨hstatus, hmaker⟩, hfresh] at h
  simp only at h
  split_ifs at h
  cases h
  rfl

theorem findLatestVerdict_concat {checkerArtifactId : ArtifactId} {verdict : CheckerVerdict}
    {payload : Json} {new : TaskRow}
    (hstored : (db.artifacts.find? fun artifact => artifact.householdId == key.1 &&
      artifact.taskId == key.2 && artifact.artifactId == checkerArtifactId).map
        ArtifactEnvelope.payload = some payload) :
    (({ db with verdicts := db.verdicts ++ [verdictRow key checkerArtifactId verdict] } : Db).replaceTask
      new).findLatestVerdict key.1 key.2 = some (verdictRow key checkerArtifactId verdict, payload) := by
  obtain ⟨artifact, hartifact, rfl⟩ := Option.map_eq_some_iff.1 hstored
  simp [findLatestVerdict, replaceTask, verdictRow, hartifact]

theorem Working.replace {status : TaskStatus} {maker : Option (ArtifactId × ArtifactHash)}
    {task new : TaskRow} (h : db.households.contains key.1 = true)
    (hfind : db.findTask key.1 key.2 = some task) (hkey : new.key = key) (hstatus : new.status = status)
    (hmaker : new.currentMakerArtifact = maker) : (db.replaceTask new).Working key status maker :=
  ⟨h, new, findTask_replaceTask hfind hkey, hstatus, hmaker⟩

end Db

namespace Ledger

variable {l l' : Ledger} {key : TaskKey} {status : TaskStatus}
  {maker : Option (ArtifactId × ArtifactHash)}

theorem createTask_answers {input : CreateTaskRecord} {result : Option TaskRow}
    (h : l.createTask input = .ok (result, l')) :
    l'.db.verdicts = l.db.verdicts ∧
      ((result = none ∧ l' = l ∧ l.db.households.contains input.householdId = false) ∨
        ∃ task, result = some task ∧ l.db.households.contains input.householdId = true ∧
          (∀ old ∈ l.db.tasks, old.taskId ≠ input.taskId) ∧
          l'.db.Working (input.householdId, input.taskId) .created none) := by
  unfold createTask at h
  simp only [bind, Except.bind, pure, Except.pure, throw, throwThe, MonadExceptOf.throw] at h
  split_ifs at h with hover hhousehold hlimit hid hparent
  · cases h
    exact ⟨rfl, .inl ⟨rfl, rfl, by simpa using hhousehold⟩⟩
  · have hknown : l.db.households.contains input.householdId = true := by simpa using hhousehold
    split at h
    · cases h
    · rename_i created hcreated
      cases h
      have hlogged := insertTransition_ok hcreated
      subst hlogged
      have hfresh : ∀ old ∈ l.db.tasks, old.taskId ≠ input.taskId := by
        simpa using hid
      have hfree : l.db.findTask input.householdId input.taskId = none := by
        apply List.find?_eq_none.2
        intro old hold hsame
        simp only [Bool.and_eq_true, beq_iff_eq] at hsame
        exact hfresh old hold hsame.2
      refine ⟨rfl, .inr ⟨_, rfl, hknown, hfresh, hknown, ?_⟩⟩
      exact ⟨_, Db.findTask_append hfree rfl, rfl, rfl⟩

theorem transition_answers {input : Db.TransitionRecord} {outcome : Db.TransitionOutcome}
    (h : l.transition input = .ok (outcome, l'))
    (hworking : l.db.Working input.key input.expectedFrom maker) :
    (∃ task, outcome = .done task) ∧ l'.db.Working input.key input.toStatus maker ∧
      l'.db.verdicts = l.db.verdicts ∧ l'.db.artifacts = l.db.artifacts := by
  obtain ⟨hhousehold, task, hfind, hstatus, hmaker⟩ := hworking
  have hkey : task.key = input.key := (Db.findTask_some input.key hfind).2
  unfold transition at h
  simp only [bind, Except.bind, pure, Except.pure] at h
  unfold Db.transition at h
  simp only [Db.TransitionRecord.key] at hfind
  simp only [hfind] at h
  rw [if_neg (by simpa using hstatus)] at h
  split_ifs at h with hterminal
  simp only at h
  split at h
  · cases h
  · rename_i logged hlogged
    cases h
    refine ⟨⟨_, rfl⟩, ?_, rfl, rfl⟩
    exact Db.Working.replace hhousehold hfind hkey rfl hmaker

theorem selectExecutionContract_answers {input : ContractSelection} {rowCount : Nat}
    (h : l.selectExecutionContract input = .ok (rowCount, l'))
    (hworking : l.db.Working (input.householdId, input.taskId) .created maker) :
    rowCount = 1 ∧ l'.db.Working (input.householdId, input.taskId) .created maker ∧
      l'.db.verdicts = l.db.verdicts := by
  obtain ⟨hhousehold, task, hfind, hstatus, hmaker⟩ := hworking
  have hkey := (Db.findTask_some (input.householdId, input.taskId) hfind).2
  unfold selectExecutionContract at h
  simp only at hfind
  simp only [hfind, hstatus, ne_eq, not_true, if_false] at h
  split_ifs at h
  cases h
  exact ⟨rfl, Db.Working.replace hhousehold hfind hkey rfl hmaker, rfl⟩

theorem linkMakerArtifact_answers {artifactId : ArtifactId} {artifactHash : ArtifactHash}
    {rowCount : Nat} (h : l.linkMakerArtifact key artifactId artifactHash = .ok (rowCount, l'))
    (hworking : l.db.Working key .maker_running maker) :
    rowCount = 1 ∧ l'.db.Working key .maker_running (some (artifactId, artifactHash)) ∧
      l'.db.verdicts = l.db.verdicts := by
  obtain ⟨hhousehold, task, hfind, hstatus, hmaker⟩ := hworking
  have hkey := (Db.findTask_some key hfind).2
  unfold linkMakerArtifact Db.linkMakerArtifact at h
  simp only [hfind, hstatus, if_true] at h
  split_ifs at h
  cases h
  exact ⟨rfl, Db.Working.replace hhousehold hfind hkey rfl rfl, rfl⟩

theorem insertArtifact_answers {artifact : ArtifactEnvelope} {rowCount : Nat}
    (h : l.insertArtifact artifact = .ok (rowCount, l'))
    (hworking : l.db.Working (artifact.householdId, artifact.taskId) status maker) :
    rowCount = 1 ∧ l'.db.Working (artifact.householdId, artifact.taskId) status maker ∧
      l'.db.verdicts = l.db.verdicts ∧ (∀ old ∈ l.db.artifacts, old.artifactId ≠ artifact.artifactId) ∧
      l'.db.artifacts = l.db.artifacts ++ [{ artifact with payload := artifact.payload.jsonb }] := by
  unfold insertArtifact at h
  simp only [hworking.household, Bool.not_true, Bool.false_eq_true, if_false] at h
  split_ifs at h with hid hhash htask
  cases h
  refine ⟨rfl, ⟨hworking.household, hworking.task⟩, rfl, ?_, rfl⟩
  intro old hold hsame
  apply hid
  rw [Db.findArtifact, List.find?_isSome]
  exact ⟨old, hold, by simp [hsame]⟩

/-- The first verdict of a task is recorded, and is then its latest one. -/
theorem recordCheckerVerdict_answers {checkerArtifactId : ArtifactId} {verdict : CheckerVerdict}
    {outcome : VerdictOutcome} {payload : Json}
    (h : l.recordCheckerVerdict key checkerArtifactId verdict = .ok (outcome, l'))
    (hworking : l.db.Working key .checker_running
      (some (verdict.coveredArtifactId, verdict.coveredArtifactHash)))
    (hunreviewed : l.db.Unreviewed key)
    (hstored : (l.db.artifacts.find? fun artifact => artifact.householdId == key.1 &&
      artifact.taskId == key.2 && artifact.artifactId == checkerArtifactId).map
        ArtifactEnvelope.payload = some payload)
    (hpayload : CheckerVerdict.parse payload = some verdict) :
    outcome = .recorded ∧ l'.db.LatestIs key verdict ∧ l'.db.Working key .checker_running
      (some (verdict.coveredArtifactId, verdict.coveredArtifactHash)) := by
  obtain ⟨hhousehold, task, hfind, hstatus, hmaker⟩ := hworking
  have hkey := (Db.findTask_some key hfind).2
  have hnone : (l.db.verdicts.any fun old => old.householdId == key.1 && old.taskId == key.2 &&
      old.checkerArtifactId == checkerArtifactId) = false := by
    rw [List.any_eq_false]
    intro old hold hsame
    simp only [Bool.and_eq_true, beq_iff_eq] at hsame
    exact hunreviewed old hold (Prod.ext hsame.1.1 hsame.1.2)
  unfold recordCheckerVerdict at h
  simp only [hfind, covers, hstatus, hmaker, beq_self_eq_true, Bool.and_self, Bool.not_true,
    Bool.false_eq_true, if_false, hnone] at h
  split at h
  · rename_i db hdb
    cases h
    have hrecorded := Db.recordCheckerVerdict_first hfind hstatus hmaker hunreviewed hdb
    subst hrecorded
    refine ⟨rfl, ?_, Db.Working.replace hhousehold hfind hkey hstatus hmaker⟩
    exact ⟨_, payload, Db.findLatestVerdict_concat hstored, hpayload, rfl, rfl, rfl⟩
  · cases h

end Ledger

/-! ## Operations of the runtime on one task -/

section Answers

variable {ι : Type} [DecidableEq ι] {i : ι} {jsonIn : String → Option Json} {s s' : LedgerSys ι}
  {key : TaskKey} {status : TaskStatus} {maker : Option (ArtifactId × ArtifactHash)} {α : Type}
  {out : Except Thrown α}

/-- The ledger, while it answers every call. -/
abbrev answeredCell (i : ι) (jsonIn : String → Option Json) :
    Cell AnyCall AnyReply Thrown (LedgerSys ι) :=
  (ledgerCell i jsonIn).answering

theorem ask_answers {call : LedgerCall} {f : LedgerReply call → LedgerProgram α}
    (h : Exec (answeredCell i jsonIn) ((ask call).bind f) s out s') :
    ∃ a l, call.perform s.ledger = .ok (a, l) ∧
      Exec (answeredCell i jsonIn) (f a) (s.withLedger l) out s' := by
  rcases h.bind_inv with ⟨a, s₁, hask, hrest⟩ | ⟨e, hask, _⟩
  · obtain ⟨choice, hstep⟩ := hask.perform_inv
    obtain ⟨reply, hreply, hrun⟩ := Cell.answering_run hstep
    cases hreply
    obtain ⟨l, hperform, rfl⟩ := LedgerSys.perform_ok hrun
    exact ⟨a, l, hperform, hrest⟩
  · obtain ⟨choice, hstep⟩ := hask.perform_inv
    obtain ⟨reply, hreply, _⟩ := Cell.answering_run hstep
    cases hreply

open VerificationRuntime

variable {f : TaskRow → LedgerProgram α}

theorem requireTask_answers (hworking : s.sys.db.Working key status maker)
    (h : Exec (answeredCell i jsonIn) ((requireTask key).bind f) s out s') :
    ∃ task, task.status = status ∧ Exec (answeredCell i jsonIn) (f task) s out s' := by
  obtain ⟨task, hfind, hstatus, _⟩ := hworking.task
  unfold requireTask at h
  rw [Prog.bind_eq, Prog.bind_assoc] at h
  obtain ⟨found, l, hperform, hrest⟩ := ask_answers h
  cases hperform
  have hfound : s.ledger.db.findTask key.1 key.2 = some task := hfind
  rw [hfound] at hrest
  exact ⟨task, hstatus, hrest⟩

theorem requireStatus_answers (hworking : s.sys.db.Working key status maker)
    (h : Exec (answeredCell i jsonIn) ((requireStatus key status).bind f) s out s') :
    ∃ task, task.status = status ∧ Exec (answeredCell i jsonIn) (f task) s out s' := by
  unfold requireStatus at h
  rw [Prog.bind_eq, Prog.bind_assoc] at h
  obtain ⟨task, hstatus, hrest⟩ := requireTask_answers hworking h
  rw [if_neg (by simpa using hstatus)] at hrest
  exact ⟨task, hstatus, hrest⟩

/-- A move from where the task is, along an edge, is made. -/
theorem move_answers {source target : TaskStatus} {reasonCode : String} {options : MoveOptions}
    (hedge : AllowedTransition source target) (hworking : s.sys.db.Working key source maker)
    (h : Exec (answeredCell i jsonIn) ((move key source target reasonCode options).bind f) s out s') :
    ∃ task s₁, Exec (answeredCell i jsonIn) (f task) s₁ out s' ∧ s₁.sys.db.Working key target maker ∧
      s₁.sys.db.verdicts = s.sys.db.verdicts ∧ s₁.sys.db.artifacts = s.sys.db.artifacts := by
  have hassert : assertAllowedTransition source target = .ok () := if_pos hedge
  unfold move at h
  rw [hassert] at h
  simp only [Prog.ofExcept, Prog.bind_eq, Prog.ret_bind] at h
  unfold VerificationLedger.transition at h
  rw [Prog.bind_eq, Prog.bind_assoc] at h
  obtain ⟨outcome, l, hperform, hrest⟩ := ask_answers h
  obtain ⟨⟨task, rfl⟩, hmoved, hverdicts, hartifacts⟩ :=
    Ledger.transition_answers (l := s.ledger) hperform hworking
  exact ⟨task, _, hrest, hmoved, hverdicts, hartifacts⟩

theorem beginMaker_answers (hworking : s.sys.db.Working key .skill_selected maker)
    (h : Exec (answeredCell i jsonIn) ((beginMaker key).bind f) s out s') :
    ∃ task s₁, Exec (answeredCell i jsonIn) (f task) s₁ out s' ∧
      s₁.sys.db.Working key .maker_running maker ∧ s₁.sys.db.verdicts = s.sys.db.verdicts := by
  unfold beginMaker moveFromCurrent at h
  rw [Prog.bind_eq, Prog.bind_assoc] at h
  obtain ⟨task, hstatus, hrest⟩ := requireTask_answers hworking h
  simp only [hstatus, List.mem_cons, true_or, not_true, if_false] at hrest
  obtain ⟨moved, s₁, hnext, hmoved, hverdicts, _⟩ := move_answers (by decide) hworking hrest
  exact ⟨moved, s₁, hnext, hmoved, hverdicts⟩

theorem createTask_answers {input : CreateTaskRecord}
    (h : Exec (answeredCell i jsonIn) ((VerificationRuntime.createTask input).bind f) s out s') :
    (s.sys.db.households.contains input.householdId = false ∧
        out = .error (.plusOne (VerificationLedger.taskHouseholdNotFound input.taskId)) ∧ s' = s) ∨
      ∃ task s₁, s.sys.db.households.contains input.householdId = true ∧
        (∀ old ∈ s.sys.db.tasks, old.taskId ≠ input.taskId) ∧
        Exec (answeredCell i jsonIn) (f task) s₁ out s' ∧
        s₁.sys.db.Working (input.householdId, input.taskId) .created none ∧
        s₁.sys.db.verdicts = s.sys.db.verdicts := by
  unfold VerificationRuntime.createTask VerificationLedger.createTask at h
  rw [Prog.bind_eq, Prog.bind_assoc] at h
  obtain ⟨created, l, hperform, hrest⟩ := ask_answers h
  obtain ⟨hverdicts, hcreated⟩ := Ledger.createTask_answers (l := s.ledger) hperform
  rcases hcreated with ⟨rfl, rfl, hunknown⟩ | ⟨task, rfl, hknown, hfresh, hworking⟩
  · cases hrest
    exact .inl ⟨hunknown, rfl, rfl⟩
  · exact .inr ⟨task, _, hknown, hfresh, hrest, hworking, hverdicts⟩

theorem selectContract_answers {policies : List PolicyIdentity} {input : ContractSelection}
    {policy : PolicyIdentity} (hpolicy : resolvePolicy policies input.policy = .ok policy)
    (hworking : s.sys.db.Working (input.householdId, input.taskId) .created maker)
    (h : Exec (answeredCell i jsonIn) ((selectContract policies input).bind f) s out s') :
    ∃ task s₁, Exec (answeredCell i jsonIn) (f task) s₁ out s' ∧
      s₁.sys.db.Working (input.householdId, input.taskId) .skill_selected maker ∧
      s₁.sys.db.verdicts = s.sys.db.verdicts := by
  unfold selectContract VerificationLedger.selectExecutionContract at h
  rw [hpolicy] at h
  simp only [Prog.ofExcept, Prog.bind_eq, Prog.ret_bind, Prog.bind_assoc] at h
  obtain ⟨rowCount, l, hperform, hrest⟩ := ask_answers h
  obtain ⟨rfl, hselected, hverdicts⟩ :=
    Ledger.selectExecutionContract_answers (l := s.ledger) hperform hworking
  simp only [ne_eq, not_true, if_false, Prog.pure_eq, Prog.ret_bind] at hrest
  obtain ⟨task, s₁, hnext, hmoved, hsame, _⟩ := move_answers (by decide) hselected hrest
  exact ⟨task, s₁, hnext, hmoved, hsame.trans hverdicts⟩

/-- A fresh artifact is saved as it is. -/
theorem save_answers {P : Platform} {artifact : ArtifactEnvelope} {f : ArtifactEnvelope → LedgerProgram α}
    (h : Exec (answeredCell i jsonIn) ((ArtifactStore.save P artifact).bind f) s out s')
    (hhash : hashArtifact P artifact.payload = artifact.artifactHash)
    (hworking : s.sys.db.Working (artifact.householdId, artifact.taskId) status maker) :
    ∃ s₁, Exec (answeredCell i jsonIn) (f artifact) s₁ out s' ∧
      s₁.sys.db.Working (artifact.householdId, artifact.taskId) status maker ∧
      s₁.sys.db.verdicts = s.sys.db.verdicts ∧
      (∀ old ∈ s.sys.db.artifacts, old.artifactId ≠ artifact.artifactId) ∧
      s₁.sys.db.artifacts = s.sys.db.artifacts ++ [{ artifact with payload := artifact.payload.jsonb }] := by
  unfold ArtifactStore.save at h
  rw [if_neg (by simpa using hhash)] at h
  cases h with
  | @call _ _ choice r _ s₁ _ _ hstep hrest =>
    obtain ⟨rowCount, rfl, hrun⟩ := Cell.answering_run hstep
    obtain ⟨l, hperform, rfl⟩ := LedgerSys.perform_ok hrun
    obtain ⟨rfl, hinserted, hverdicts, hfresh, hartifacts⟩ :=
      Ledger.insertArtifact_answers (l := s.ledger) hperform hworking
    exact ⟨_, hrest, hinserted, hverdicts, hfresh, hartifacts⟩

/-- The maker artifact that `validateMaker` stores. -/
def makerArtifactOf (P : Platform) (key : TaskKey) (artifactId : ArtifactId) (payload : Json) :
    ArtifactEnvelope :=
  { artifactId, householdId := key.1, taskId := key.2, artifactType := .maker_output
    schema := ⟨"maker-artifact", 1⟩, artifactHash := hashArtifact P payload, payload }

theorem validateMaker_answers {P : Platform} {artifactId : ArtifactId} {payload : Json}
    {f : ArtifactEnvelope → LedgerProgram α} (hworking : s.sys.db.Working key .maker_running maker)
    (h : Exec (answeredCell i jsonIn)
      ((validateMaker P key artifactId ⟨"maker-artifact", 1⟩ payload).bind f) s out s') :
    ∃ s₁, Exec (answeredCell i jsonIn) (f (makerArtifactOf P key artifactId payload)) s₁ out s' ∧
      s₁.sys.db.Working key .maker_validated (some (artifactId, hashArtifact P payload)) ∧
      s₁.sys.db.verdicts = s.sys.db.verdicts := by
  have hcreate : ArtifactStore.createArtifactEnvelope P key artifactId .maker_output
      ⟨"maker-artifact", 1⟩ payload = .ok (makerArtifactOf P key artifactId payload) :=
    if_pos (by decide +kernel)
  unfold validateMaker at h
  rw [hcreate] at h
  simp only [Prog.ofExcept, Prog.bind_eq, Prog.ret_bind, Prog.bind_assoc] at h
  obtain ⟨task, hstatus, hrequired⟩ := requireStatus_answers hworking h
  obtain ⟨s₁, hsaved, hworking₁, hverdicts₁, _, _⟩ :=
    save_answers hrequired rfl hworking
  unfold VerificationLedger.linkMakerArtifact at hsaved
  rw [Prog.bind_eq, Prog.bind_assoc] at hsaved
  obtain ⟨rowCount, l, hperform, hlinked⟩ := ask_answers hsaved
  obtain ⟨rfl, hworking₂, hverdicts₂⟩ :=
    Ledger.linkMakerArtifact_answers (l := s₁.ledger) hperform hworking₁
  simp only [ne_eq, not_true, if_false, Prog.pure_eq, Prog.ret_bind, hstatus] at hlinked
  obtain ⟨moved, s₂, hnext, hmoved, hverdicts₃, _⟩ := move_answers (by decide) hworking₂ hlinked
  exact ⟨s₂, hnext, hmoved, hverdicts₃.trans (hverdicts₂.trans hverdicts₁)⟩

theorem beginChecker_answers (hworking : s.sys.db.Working key .maker_validated maker)
    (h : Exec (answeredCell i jsonIn) ((beginChecker key).bind f) s out s') :
    ∃ task s₁, Exec (answeredCell i jsonIn) (f task) s₁ out s' ∧
      s₁.sys.db.Working key .checker_running maker ∧ s₁.sys.db.verdicts = s.sys.db.verdicts := by
  obtain ⟨moved, s₁, hnext, hmoved, hverdicts, _⟩ := move_answers (by decide) hworking h
  exact ⟨moved, s₁, hnext, hmoved, hverdicts⟩

theorem fail_answers {source : TaskStatus} {failureCategory : String} {resumable : Bool}
    (hedge : AllowedTransition source .failed) (hworking : s.sys.db.Working key source maker)
    (h : Exec (answeredCell i jsonIn) ((VerificationRuntime.fail key source failureCategory resumable).bind f)
      s out s') :
    ∃ task s₁, Exec (answeredCell i jsonIn) (f task) s₁ out s' ∧
      s₁.sys.db.Working key .failed maker := by
  obtain ⟨moved, s₁, hnext, hmoved, _⟩ := move_answers hedge hworking h
  exact ⟨moved, s₁, hnext, hmoved⟩

theorem CheckerVerdict.parse_jsonb {payload : Json} (h : payload.keyed = true) :
    CheckerVerdict.parse payload.jsonb = CheckerVerdict.parse payload := by
  have htext : ∀ key, (payload.jsonb.field? key).bind Json.asString =
      (payload.field? key).bind Json.asString := by
    intro key
    rw [Json.field?_jsonb h]
    cases payload.field? key with
    | none => rfl
    | some value => cases value <;> rfl
  have hfinding : ∀ item : Json, item.keyed = true →
      Json.isCheckerFinding item.jsonb = Json.isCheckerFinding item := by
    intro item hitem
    apply Json.isStrictObject_jsonb hitem
    simp [Json.isNonemptyString_jsonb]
  have hstrict := @Json.isStrictObject_jsonb payload [("verdict", fun _ => true),
    ("coveredArtifactId", fun _ => true), ("coveredArtifactHash", fun _ => true),
    ("findings", Json.isArrayOf Json.isCheckerFinding)] h (by
      simp only [List.forall_mem_cons, List.not_mem_nil, false_implies, implies_true, true_and, and_true]
      exact fun item hitem => Json.isArrayOf_jsonb hitem hfinding)
  unfold CheckerVerdict.parse
  simp only [Option.bind_eq_bind, ← Option.bind_assoc, htext, hstrict]

/-- The checker artifact of a payload, as it is stored. -/
theorem stored_checkerArtifact {artifacts : List ArtifactEnvelope} {artifact : ArtifactEnvelope}
    (hfresh : ∀ old ∈ artifacts, old.artifactId ≠ artifact.artifactId) :
    ((artifacts ++ [{ artifact with payload := artifact.payload.jsonb }]).find? fun row : ArtifactEnvelope =>
      row.householdId == artifact.householdId && row.taskId == artifact.taskId &&
        row.artifactId == artifact.artifactId).map ArtifactEnvelope.payload =
      some artifact.payload.jsonb := by
  have hnone : (artifacts.find? fun row => row.householdId == artifact.householdId &&
      row.taskId == artifact.taskId && row.artifactId == artifact.artifactId) = none := by
    apply List.find?_eq_none.2
    intro old hold hsame
    simp only [Bool.and_eq_true, beq_iff_eq] at hsame
    exact hfresh old hold hsame.2
  rw [List.find?_append, hnone]
  simp

variable {verdict : CheckerVerdict}

theorem validateChecker_answers {P : Platform} {checkerArtifactId : ArtifactId} {payload : Json}
    {f : ArtifactEnvelope → LedgerProgram α} (hkeyed : payload.keyed = true)
    (hparse : CheckerVerdict.parse payload = some verdict) (hunreviewed : s.sys.db.Unreviewed key)
    (hworking : s.sys.db.Working key .checker_running
      (some (verdict.coveredArtifactId, verdict.coveredArtifactHash))) (h : Exec (answeredCell i jsonIn)
      ((validateChecker P key checkerArtifactId payload).bind f) s out s') :
    ∃ artifact s₁, Exec (answeredCell i jsonIn) (f artifact) s₁ out s' ∧
      s₁.sys.db.LatestIs key verdict ∧ ∃ maker, s₁.sys.db.Working key .checker_validated maker := by
  have hcreate : ArtifactStore.createArtifactEnvelope P key checkerArtifactId .checker_output
      ⟨"checker-verdict", 1⟩ payload = .ok
        { artifactId := checkerArtifactId, householdId := key.1, taskId := key.2
          artifactType := .checker_output, schema := ⟨"checker-verdict", 1⟩
          artifactHash := hashArtifact P payload, payload } :=
    if_pos (by decide +kernel)
  unfold validateChecker parseVerdict at h
  rw [hcreate, hparse] at h
  simp only [Prog.ofExcept, Prog.bind_eq, Prog.ret_bind, Prog.bind_assoc] at h
  obtain ⟨task, hstatus, hrequired⟩ := requireStatus_answers hworking h
  obtain ⟨s₁, hsaved, hworking₁, hverdicts₁, hfresh, hartifacts⟩ := save_answers hrequired rfl hworking
  unfold VerificationLedger.recordCheckerVerdict at hsaved
  rw [Prog.bind_eq, Prog.bind_assoc] at hsaved
  obtain ⟨outcome, l, hperform, hrecorded⟩ := ask_answers hsaved
  have hunreviewed₁ : s₁.sys.db.Unreviewed key := by
    intro row hrow
    rw [hverdicts₁] at hrow
    exact hunreviewed row hrow
  have hstored := stored_checkerArtifact hfresh
  rw [← hartifacts] at hstored
  obtain ⟨rfl, hlatest, hworking₂⟩ := Ledger.recordCheckerVerdict_answers (l := s₁.ledger) hperform
    hworking₁ hunreviewed₁ hstored ((CheckerVerdict.parse_jsonb hkeyed).trans hparse)
  simp only [Prog.pure_eq, Prog.ret_bind] at hrecorded
  obtain ⟨moved, s₂, hnext, hmoved, hverdicts₃, hartifacts₃⟩ :=
    move_answers (by decide) hworking₂ hrecorded
  refine ⟨_, s₂, hnext, ?_, _, hmoved⟩
  obtain ⟨row, stored, hfound, hread⟩ := hlatest
  refine ⟨row, stored, ?_, hread⟩
  unfold Db.findLatestVerdict at hfound ⊢
  rw [hverdicts₃, hartifacts₃]
  exact hfound

/-- The latest verdict is read back. -/
theorem findLatestVerdict_answers {f : Option CheckerVerdict → LedgerProgram α}
    (hlatest : s.sys.db.LatestIs key verdict) (h : Exec (answeredCell i jsonIn)
      (((findLatestVerdict key.1 key.2).inr : LedgerProgram (Option CheckerVerdict)).bind f) s out s') :
    ∃ s₁, Exec (answeredCell i jsonIn) (f (some verdict)) s₁ out s' ∧ s₁.sys.db = s.sys.db := by
  obtain ⟨row, payload, hfound, hparse, hverdict, hid, hhash⟩ := hlatest
  cases h with
  | @call _ _ choice r _ s₁ _ _ hstep hrest =>
    obtain ⟨found, rfl, hrun⟩ := Cell.answering_run hstep
    obtain ⟨⟨r', sys⟩, hsys, hs⟩ := Option.map_eq_some_iff.1 hrun
    cases hs
    rcases Sys.findLatestVerdict_read hsys with ⟨_, e, hclash⟩ | ⟨hread, rfl⟩
    · cases hclash
    · cases hread
      rw [hfound] at hrest
      have hsame : ¬(verdict.verdict ≠ row.verdict ∨ verdict.coveredArtifactId ≠ row.coveredArtifactId ∨
          verdict.coveredArtifactHash ≠ row.coveredArtifactHash) := by
        simp [hverdict, hid, hhash]
      simp only [Prog.ret_bind, hparse, if_neg hsame] at hrest
      exact ⟨_, hrest, rfl⟩

/-- A reviewed task is completed, as verified only where its verdict accepts. -/
theorem complete_answers {completion : Completion} (hlatest : s.sys.db.LatestIs key verdict)
    (haccepted : completion = .verified → verdict.verdict = .accepted)
    (hworking : s.sys.db.Working key .checker_validated maker)
    (h : Exec (answeredCell i jsonIn) ((complete key completion).bind f) s out s') :
    ∃ task s₁, Exec (answeredCell i jsonIn) (f task) s₁ out s' ∧
      s₁.sys.db.Working key completion.status maker := by
  unfold complete at h
  rw [Prog.bind_eq, Prog.bind_assoc] at h
  obtain ⟨task, hstatus, hrequired⟩ := requireTask_answers hworking h
  rw [Prog.bind_eq, Prog.bind_assoc] at hrequired
  obtain ⟨s₁, hread, hdb⟩ := findLatestVerdict_answers hlatest hrequired
  have hworking₁ : s₁.sys.db.Working key .checker_validated maker := hdb ▸ hworking
  have hpasses : ¬(completion = .verified ∧
      (some verdict).map CheckerVerdict.verdict ≠ some .accepted) := by
    rintro ⟨hverified, hne⟩
    exact hne (congrArg some (haccepted hverified))
  rw [if_neg hpasses] at hread
  simp only [hstatus] at hread
  have hedge : AllowedTransition .checker_validated completion.status := by
    cases completion <;> decide
  obtain ⟨moved, s₂, hnext, hmoved, _⟩ := move_answers hedge hworking₁ hread
  exact ⟨moved, s₂, hnext, hmoved⟩

end Answers

/-! ## What the turns come to -/

theorem resolvePolicy_again {registry : RuntimePolicyRegistry} {identity policy : PolicyIdentity}
    (h : resolvePolicy registry.policies identity = .ok policy) :
    resolvePolicy registry.policies policy = .ok policy := by
  unfold resolvePolicy at h ⊢
  split at h
  · cases h
  split at h
  · rename_i found hfound
    cases h
    have hvalid := registry.parsed policy (List.mem_of_find?_eq_some hfound)
    have hkey : policy.key = identity.key := by simpa using List.find?_some hfound
    simp only [hvalid, Bool.not_true, Bool.false_eq_true, if_false, hkey, hfound]
  · cases h

variable {input : WorkCellInput}

/-- The policy that the admission keeps is one of the registry. -/
theorem admitWorkCell_policy {registry : RuntimePolicyRegistry} {policy : PolicyIdentity}
    (h : admitWorkCell registry.policies input = .ok policy) :
    resolvePolicy registry.policies policy = .ok policy := by
  unfold admitWorkCell at h
  simp only [bind, Except.bind, pure, Except.pure, throw, throwThe, MonadExceptOf.throw] at h
  split at h
  · cases h
  cases hmaker : resolvePolicy registry.policies input.workCell.maker.runtimePolicy with
  | error e =>
    rw [hmaker] at h
    cases h
  | ok makerPolicy =>
    rw [hmaker] at h
    cases hchecker : resolvePolicy registry.policies input.workCell.checker.runtimePolicy with
    | error e =>
      rw [hchecker] at h
      cases h
    | ok checkerPolicy =>
      rw [hchecker] at h
      simp only at h
      split_ifs at h
      cases h
      exact resolvePolicy_again hmaker

/-- The claims of an accepted maker output rest on permitted evidence only. -/
def EvidencePermitted (permittedEvidence : List ArtifactEnvelope) (makerOutput : Json) : Prop :=
  ∀ claim ∈ claimsOf makerOutput, ∀ artifactId ∈ evidenceOf claim,
    isPermitted permittedEvidence artifactId = true

theorem assertMakerClaimsUsePermittedEvidence_ok {permittedEvidence : List ArtifactEnvelope} {taskId : TaskId}
    {makerOutput : Json} {u : Unit} (h : assertMakerClaimsUsePermittedEvidence makerOutput permittedEvidence taskId = .ok u) :
    EvidencePermitted permittedEvidence makerOutput := by
  unfold assertMakerClaimsUsePermittedEvidence at h
  simp only at h
  split_ifs at h with hempty
  rw [List.isEmpty_iff, List.flatMap_eq_nil_iff] at hempty
  intro claim hclaim artifactId hartifactId
  have hnone := List.filter_eq_nil_iff.1 (hempty claim hclaim) artifactId hartifactId
  simpa using hnone

variable {turns : WorkCellTurns}

theorem checkMaker_ok {generated makerOutput : Json} (h : input.checkMaker turns generated = .ok makerOutput) :
    EvidencePermitted input.permittedEvidence makerOutput := by
  unfold WorkCellInput.checkMaker at h
  simp only [bind, Except.bind, pure, Except.pure] at h
  split at h
  · cases h
  split at h
  · cases h
  split at h
  · cases h
  split at h
  · cases h
  split at h
  · cases h
  rename_i u hassert
  cases h
  exact assertMakerClaimsUsePermittedEvidence_ok hassert

theorem makerTurn_ok {makerOutput : Json} (h : input.makerTurn turns = .ok makerOutput) :
    EvidencePermitted input.permittedEvidence makerOutput := by
  unfold WorkCellInput.makerTurn at h
  split at h
  · cases h
  split at h
  · cases h
  · rename_i hchecked
    cases h
    exact checkMaker_ok hchecked

theorem keyed_setField {fields : List (String × Json)} {key : String} {value : Json}
    (h : (Json.obj fields).keyed = true) (hvalue : value.keyed = true) :
    (Json.obj (setField fields key value)).keyed = true := by
  simp only [Json.keyed, Bool.and_eq_true, decide_eq_true_eq, keyedFields_iff] at h ⊢
  unfold setField
  split_ifs with hkey
  · have hkeys : (fields.map fun entry => if entry.1 = key then (key, value) else entry).map Prod.fst =
        fields.map Prod.fst := by
      rw [List.map_map]
      apply List.map_congr_left
      intro entry _
      by_cases hentry : entry.1 = key
      · simp [hentry]
      · simp [hentry]
    refine ⟨hkeys ▸ h.1, ?_⟩
    intro entry hentry
    obtain ⟨old, hold, rfl⟩ := List.mem_map.1 hentry
    by_cases hsame : old.1 = key
    · rw [if_pos hsame]
      exact hvalue
    · rw [if_neg hsame]
      exact h.2 old hold
  · constructor
    · rw [List.map_append, List.nodup_append]
      refine ⟨h.1, by simp, ?_⟩
      intro k hk l hl hsame
      rw [List.map_singleton, List.mem_singleton] at hl
      have hl : l = key := hl
      rw [hsame, hl] at hk
      exact hkey hk
    · intro entry hentry
      rcases List.mem_append.1 hentry with hold | hnew
      · exact h.2 entry hold
      · rw [List.mem_singleton.1 hnew]
        exact hvalue

theorem keyed_boundVerdict (decision : JsonResult) (makerArtifact : ArtifactEnvelope) :
    (boundVerdict decision.1 makerArtifact).keyed = true := by
  obtain ⟨decision, hdecision⟩ := decision
  have hspread : (Json.obj decision.spread).keyed = true := by
    cases decision with
    | obj fields => exact hdecision
    | _ => rfl
  exact keyed_setField (keyed_setField hspread rfl) rfl

/-- The verdict that a checker turn gives is the parsed payload. -/
theorem checkerTurn_ok {makerArtifact : ArtifactEnvelope} {payload : Json} {review : CheckerReview}
    (h : checkerTurn turns makerArtifact = .ok (payload, review)) :
    payload.keyed = true ∧ CheckerVerdict.parse payload = some review.verdict := by
  unfold checkerTurn at h
  cases hdecision : turns.checker with
  | error raised =>
    rw [hdecision] at h
    cases h
  | ok decision =>
    simp only [hdecision, bind, Except.bind] at h
    split at h
    · cases h
    · rename_i parsed hparsed
      cases h
      unfold CheckerReview.parse at hparsed
      obtain ⟨verdict, hverdict, rfl⟩ := Option.map_eq_some_iff.1 hparsed
      exact ⟨keyed_boundVerdict decision makerArtifact, hverdict⟩

theorem terminalFor_not_verified (review : CheckerReview) : (terminalFor review).status ≠ .verified := by
  unfold terminalFor
  cases review.verdict.verdict <;> simp

/-- A stop condition is only met as verified under an accepting verdict and with claims. -/
theorem evaluateStop_verified {taskId : TaskId} {makerOutput : Json} {review : CheckerReview}
    {terminal : TerminalResult}
    (h : evaluateStop taskId turns makerOutput review = .ok terminal) (hverified : terminal.status = .verified) :
    review.verdict.verdict = .accepted ∧ claimsOf makerOutput ≠ [] := by
  unfold evaluateStop at h
  cases hevaluated : evaluateTerminal turns makerOutput review with
  | error raised =>
    rw [hevaluated] at h
    cases h
  | ok evaluated =>
    rw [hevaluated] at h
    simp only at h
    split_ifs at h with hclaims
    cases h
    refine ⟨?_, fun hnone => hclaims ⟨hverified, hnone⟩⟩
    by_contra hrefused
    unfold evaluateTerminal parseTerminal TerminalResult.parse at hevaluated
    rw [if_neg hrefused] at hevaluated
    split_ifs at hevaluated
    · cases hevaluated
      exact terminalFor_not_verified review hverified

/-! ## Where an execution leaves its task -/

/-- The task is closed, or it waits for the mutation that the result announces. -/
def TaskRow.Settled (task : TaskRow) (out : Except Thrown CheckedWorkCellResult) : Prop :=
  Db.isTerminalStatus task.status = true ∨
    ∃ result, out = .ok result ∧ result.completionState = .checked_mutation_pending ∧
      task.status = .checker_validated

/-- The task of an execution, unless it was there before, is settled. -/
def LeavesSettled (key : TaskKey) (before after : Db) (out : Except Thrown CheckedWorkCellResult) : Prop :=
  ∀ task, after.findTask key.1 key.2 = some task →
    before.findTask key.1 key.2 = some task ∨ task.Settled out

/-- A verified result comes with an accepted verdict over its artifact, whose claims (and there are
some) rest on permitted evidence. -/
def CheckedWorkCellResult.Backed (permittedEvidence : List ArtifactEnvelope)
    (result : CheckedWorkCellResult) : Prop :=
  result.status = .verified → ∃ artifact review,
    result.makerArtifacts = [artifact] ∧ result.checkerVerdicts = [review] ∧
      review.verdict.verdict = .accepted ∧ review.verdict.coveredArtifactId = artifact.artifactId ∧
      review.verdict.coveredArtifactHash = artifact.artifactHash ∧
      result.acceptedMaker = some artifact.payload ∧ claimsOf artifact.payload ≠ [] ∧
      EvidencePermitted permittedEvidence artifact.payload

/-- The checker's role, the rubric and the maker's output are what the verification task takes. -/
def WorkCellInput.checkable (input : WorkCellInput) (output : Json) : Bool :=
  input.workCell.checker.identity.valid && input.workCell.checkerRubric.valid &&
    (makerOutput output).isSome

/-- The work cell is admitted for a known household, and the maker's output passes everything in the
maker's `try`, but it is no maker artifact, or the work cell's checker has no valid role or rubric. -/
def WorkCellInput.Strands (policies : List PolicyIdentity) (input : WorkCellInput)
    (turns : WorkCellTurns) (db : Db) : Prop :=
  (∃ policy, admitWorkCell policies input = .ok policy) ∧
    db.households.contains input.householdId = true ∧
    ∃ output, input.makerTurn turns = .ok output ∧ input.checkable output = false

/-- After the maker's `try`, nothing else of the verification task can fail to parse. -/
theorem verificationTask_valid {P : Platform} {output : Json} (h : input.makerTurn turns = .ok output) :
    (input.verificationTask (makerArtifactOf P input.key turns.makerArtifactId output)).valid =
      input.checkable output := by
  have hevidence := makerTurn_ok h
  have hclaims : ((claimsOf output).all fun claim =>
      (evidenceOf claim).all (isPermitted input.permittedEvidence)) = true := by
    simp only [List.all_eq_true]
    exact hevidence
  have hinvocation : input.makerInvocation.valid = true := by
    by_contra hinvalid
    unfold WorkCellInput.makerTurn WorkCellInput.generateMaker at h
    rw [if_neg hinvalid] at h
    cases h
  simp only [MakerInvocation.valid, WorkCellInput.makerInvocation, Bool.and_eq_true] at hinvocation
  obtain ⟨⟨⟨⟨_, hskill⟩, hpermitted⟩, hlabels⟩, _⟩ :
      ((((isKebabName input.team = true ∧ input.workCell.maker.identity.valid = true) ∧
        input.selectedSkill.valid = true) ∧ input.permittedEvidence.all ArtifactEnvelope.valid = true) ∧
        arePolicyLabels input.policyLabels = true) ∧ input.stopCondition.valid = true := by
    tauto
  have hschema : (⟨"maker-artifact", 1⟩ : SchemaIdentity).valid = true := by decide +kernel
  have hrequired : (⟨"checker-verdict", 1⟩ : SchemaIdentity).valid = true := by decide +kernel
  simp only [VerificationTask.valid, WorkCellInput.verificationTask, makerArtifactOf,
    ArtifactEnvelope.valid, WorkCellInput.key, hschema, hpermitted, hskill, hlabels, hrequired, hclaims,
    WorkCellInput.checkable, Bool.and_true, decide_true]

section Exits

variable {ι : Type} [DecidableEq ι] {i : ι} {jsonIn : String → Option Json} {s s' : LedgerSys ι}
  {P : Platform} {input : WorkCellInput} {turns : WorkCellTurns}
  {maker : Option (ArtifactId × ArtifactHash)} {out : Except Thrown CheckedWorkCellResult}

/-- What an exit has to come to. -/
structure Ends (input : WorkCellInput) (s' : LedgerSys ι) (out : Except Thrown CheckedWorkCellResult) :
    Prop where
  settled : ∃ task, s'.sys.db.findTask input.key.1 input.key.2 = some task ∧ task.Settled out
  backed : ∀ result, out = .ok result → result.Backed input.permittedEvidence

omit [DecidableEq ι] in
theorem Ends.of_working {status : TaskStatus} (hworking : s'.sys.db.Working input.key status maker)
    (hterminal : Db.isTerminalStatus status = true)
    (hbacked : ∀ result, out = .ok result → result.Backed input.permittedEvidence) :
    Ends input s' out := by
  obtain ⟨task, hfind, hstatus, _⟩ := hworking.task
  exact ⟨⟨task, hfind, .inl (hstatus ▸ hterminal)⟩, hbacked⟩

theorem failedResult_status {makerArtifacts : List ArtifactEnvelope} {raised : RaisedError}
    {phase : ExecutionPhase} {role : RoleIdentity} {result : CheckedWorkCellResult}
    (h : failedResult input makerArtifacts raised phase role = .ok result) : result.status = .failed := by
  unfold failedResult at h
  cases hfailure : normalizeExecutionFailure raised phase role with
  | error e =>
    rw [hfailure] at h
    cases h
  | ok failure =>
    rw [hfailure] at h
    cases h
    rfl

theorem closeFailed_ends {source : TaskStatus} {makerArtifacts : List ArtifactEnvelope}
    {raised : RaisedError} {phase : ExecutionPhase} {role : RoleIdentity}
    (hedge : AllowedTransition source .failed) (hworking : s.sys.db.Working input.key source maker)
    (h : Exec (answeredCell i jsonIn) (closeFailed input source makerArtifacts raised phase role)
      s out s') : Ends input s' out := by
  unfold closeFailed at h
  split at h
  · obtain ⟨task, s₁, hthrown, hfailed⟩ := fail_answers hedge hworking h
    cases hthrown
    exact Ends.of_working hfailed rfl fun result hclash => by cases hclash
  · obtain ⟨task, s₁, hreturned, hfailed⟩ := fail_answers hedge hworking h
    cases hresult : failedResult input makerArtifacts raised phase role with
    | error e =>
      rw [hresult] at hreturned
      cases hreturned
      exact Ends.of_working hfailed rfl fun result hclash => by cases hclash
    | ok result =>
      rw [hresult] at hreturned
      cases hreturned
      apply Ends.of_working hfailed rfl
      intro other hsame hverified
      cases hsame
      rw [failedResult_status hresult] at hverified
      cases hverified

theorem completion_terminal (status : TeamResultStatus) :
    Db.isTerminalStatus status.completion.status = true := by
  cases status <;> rfl

theorem finishWorkCell_ends {makerArtifact : ArtifactEnvelope} {review : CheckerReview}
    {terminal : TerminalResult}
    (hcovers : review.verdict.coveredArtifactId = makerArtifact.artifactId ∧
      review.verdict.coveredArtifactHash = makerArtifact.artifactHash)
    (hevidence : EvidencePermitted input.permittedEvidence makerArtifact.payload)
    (hverified : terminal.status = .verified →
      review.verdict.verdict = .accepted ∧ claimsOf makerArtifact.payload ≠ [])
    (hlatest : s.sys.db.LatestIs input.key review.verdict)
    (hworking : s.sys.db.Working input.key .checker_validated maker)
    (h : Exec (answeredCell i jsonIn)
      (finishWorkCell input makerArtifact makerArtifact.payload review terminal) s out s') :
    Ends input s' out := by
  unfold finishWorkCell at h
  simp only at h
  split at h
  · cases h
    obtain ⟨task, hfind, hstatus, _⟩ := hworking.task
    refine ⟨⟨task, hfind, .inr ⟨_, rfl, rfl, hstatus⟩⟩, ?_⟩
    intro result hsame hresult
    cases hsame
    obtain ⟨haccepted, hclaims⟩ := hverified hresult
    exact ⟨makerArtifact, review, rfl, rfl, haccepted, hcovers.1, hcovers.2, if_pos haccepted, hclaims,
      hevidence⟩
  · have haccepted : terminal.status.completion = .verified → review.verdict.verdict = .accepted := by
      intro hcompletion
      cases hstatus : terminal.status with
      | verified => exact (hverified hstatus).1
      | _ =>
        rw [hstatus] at hcompletion
        cases hcompletion
    obtain ⟨task, s₁, hreturned, hcompleted⟩ := complete_answers hlatest haccepted hworking h
    split at hreturned
    · rename_i hfailed
      cases hfailure : normalizeCheckerFailure review input.workCell.checker.identity with
      | error e =>
        rw [hfailure] at hreturned
        cases hreturned
        exact Ends.of_working hcompleted (completion_terminal _) fun result hclash => by cases hclash
      | ok failure =>
        rw [hfailure] at hreturned
        cases hreturned
        apply Ends.of_working hcompleted (completion_terminal _)
        intro result hsame hresult
        cases hsame
        have hclash : terminal.status = .verified := hresult
        rw [hfailed] at hclash
        cases hclash
    · cases hreturned
      apply Ends.of_working hcompleted (completion_terminal _)
      intro result hsame hresult
      cases hsame
      obtain ⟨haccepted, hclaims⟩ := hverified hresult
      exact ⟨makerArtifact, review, rfl, rfl, haccepted, hcovers.1, hcovers.2, if_pos haccepted, hclaims,
        hevidence⟩

theorem judgeWorkCell_ends {makerArtifact : ArtifactEnvelope} {payload : Json} {review : CheckerReview}
    (hkeyed : payload.keyed = true) (hparse : CheckerVerdict.parse payload = some review.verdict)
    (hevidence : EvidencePermitted input.permittedEvidence makerArtifact.payload)
    (hunreviewed : s.sys.db.Unreviewed input.key)
    (hworking : s.sys.db.Working input.key .checker_running
      (some (makerArtifact.artifactId, makerArtifact.artifactHash)))
    (h : Exec (answeredCell i jsonIn)
      (judgeWorkCell P input turns makerArtifact makerArtifact.payload payload review) s out s') :
    Ends input s' out := by
  unfold judgeWorkCell at h
  split at h
  · obtain ⟨task, s₁, hthrown, hfailed⟩ := fail_answers (by decide) hworking h
    cases hthrown
    exact Ends.of_working hfailed rfl fun result hclash => by cases hclash
  · rename_i hcovers
    rw [not_or, not_not, not_not] at hcovers
    rw [← hcovers.1, ← hcovers.2] at hworking
    obtain ⟨artifact, s₁, hvalidated, hlatest, maker, hworking₁⟩ :=
      validateChecker_answers hkeyed hparse hunreviewed hworking h
    split at hvalidated
    · have hfails : VerificationRuntime.Completion.failed = .verified →
        review.verdict.verdict = .accepted := nofun
      obtain ⟨task, s₂, hthrown, hfailed⟩ := complete_answers hlatest hfails hworking₁ hvalidated
      cases hthrown
      exact Ends.of_working hfailed rfl fun result hclash => by cases hclash
    · rename_i terminal hterminal
      exact finishWorkCell_ends hcovers hevidence (evaluateStop_verified hterminal) hlatest hworking₁
        hvalidated

/-- Once the maker's output is there, it only takes a verification task that parses. -/
theorem checkWorkCell_ends {makerOutput : Json}
    (hevidence : EvidencePermitted input.permittedEvidence makerOutput)
    (hunreviewed : s.sys.db.Unreviewed input.key)
    (hworking : s.sys.db.Working input.key .maker_running maker)
    (h : Exec (answeredCell i jsonIn) (checkWorkCell P input turns makerOutput) s out s') :
    (if (input.verificationTask (makerArtifactOf P input.key turns.makerArtifactId makerOutput)).valid then
      Ends input s' out
    else out = .error .zodError ∧ ∃ maker, s'.sys.db.Working input.key .checker_running maker) := by
  unfold checkWorkCell at h
  obtain ⟨s₁, hmade, hworking₁, hverdicts₁⟩ := validateMaker_answers hworking h
  obtain ⟨task, s₂, hbegun, hworking₂, hverdicts₂⟩ := beginChecker_answers hworking₁ hmade
  split_ifs with hvalid
  · simp only [hvalid, Bool.not_true, Bool.false_eq_true, if_false] at hbegun
    split at hbegun
    · exact closeFailed_ends (by decide) hworking₂ hbegun
    · rename_i payload review hturn
      obtain ⟨hkeyed, hparse⟩ := checkerTurn_ok hturn
      have hunreviewed₂ : s₂.sys.db.Unreviewed input.key := by
        intro row hrow
        rw [hverdicts₂, hverdicts₁] at hrow
        exact hunreviewed row hrow
      exact judgeWorkCell_ends hkeyed hparse hevidence hunreviewed₂ hworking₂ hbegun
  · simp only [Bool.not_eq_true] at hvalid
    simp only [hvalid, Bool.not_false, if_true] at hbegun
    cases hbegun
    exact ⟨rfl, _, hworking₂⟩

end Exits

/-- Where the ledger answers every call, an execution of a work cell settles its task, and backs a
verified result, unless the verification task is one that does not parse. -/
theorem work_cell_settles_task {ι : Type} [DecidableEq ι] (P : Platform) (registry : RuntimePolicyRegistry)
    (input : WorkCellInput) (turns : WorkCellTurns) (i : ι) (s s' : LedgerSys ι)
    (out : Except Thrown CheckedWorkCellResult)
    (howned : ∀ row ∈ s.sys.db.verdicts, ∃ task ∈ s.sys.db.tasks,
      task.key = (row.householdId, row.taskId))
    (h : Exec (answeredCell i P.jsonIn) (executeWorkCell P registry.policies input turns) s out s') :
    (LeavesSettled input.key s.sys.db s'.sys.db out ∧
        ∀ result, out = .ok result → result.Backed input.permittedEvidence) ↔
      ¬input.Strands registry.policies turns s.sys.db := by
  have hends : Ends input s' out → (LeavesSettled input.key s.sys.db s'.sys.db out ∧
      ∀ result, out = .ok result → result.Backed input.permittedEvidence) := by
    intro hends
    obtain ⟨task, hfind, hsettled⟩ := hends.settled
    refine ⟨?_, hends.backed⟩
    intro other hother
    rw [hfind] at hother
    cases hother
    exact .inr hsettled
  unfold executeWorkCell at h
  cases hadmitted : admitWorkCell registry.policies input with
  | error e =>
    rw [hadmitted] at h
    cases h
    refine ⟨fun _ hstrands => ?_, fun _ => ⟨fun task hfind => .inl hfind, fun result hclash => by cases hclash⟩⟩
    obtain ⟨policy, hpolicy⟩ := hstrands.1
    rw [hadmitted] at hpolicy
    cases hpolicy
  | ok policy =>
    rw [hadmitted] at h
    simp only [Prog.ofExcept, Prog.bind_eq, Prog.ret_bind] at h
    rcases createTask_answers h with ⟨hunknown, rfl, hsame⟩ |
      ⟨task, s₁, hknown, hfresh, hcreated, hworking₁, hverdicts₁⟩
    · subst hsame
      refine ⟨fun _ hstrands => ?_,
        fun _ => ⟨fun task hfind => .inl hfind, fun result hclash => by cases hclash⟩⟩
      have hclash := hstrands.2.1
      rw [hunknown] at hclash
      cases hclash
    · have hunreviewed : s.sys.db.Unreviewed input.key := by
        intro row hrow hkey
        obtain ⟨owner, howner, hsame⟩ := howned row hrow
        exact hfresh owner howner (congrArg Prod.snd (hsame.trans hkey))
      obtain ⟨task₂, s₂, hselected, hworking₂, hverdicts₂⟩ :=
        selectContract_answers (admitWorkCell_policy hadmitted) hworking₁ hcreated
      obtain ⟨task₃, s₃, hbegun, hworking₃, hverdicts₃⟩ := beginMaker_answers hworking₂ hselected
      cases hturn : input.makerTurn turns with
      | error failure =>
        obtain ⟨phase, raised⟩ := failure
        rw [hturn] at hbegun
        refine ⟨fun _ hstrands => ?_, fun _ => hends (closeFailed_ends (by decide) hworking₃ hbegun)⟩
        obtain ⟨makerOutput, hclash, _⟩ := hstrands.2.2
        rw [hturn] at hclash
        cases hclash
      | ok makerOutput =>
        rw [hturn] at hbegun
        have hunreviewed₃ : s₃.sys.db.Unreviewed input.key := by
          intro row hrow
          rw [hverdicts₃, hverdicts₂, hverdicts₁] at hrow
          exact hunreviewed row hrow
        have hchecked := checkWorkCell_ends (makerTurn_ok hturn) hunreviewed₃ hworking₃ hbegun
        rw [verificationTask_valid hturn] at hchecked
        split_ifs at hchecked with hvalid
        · refine ⟨fun _ hstrands => ?_, fun _ => hends hchecked⟩
          obtain ⟨other, hother, hinvalid⟩ := hstrands.2.2
          rw [hturn] at hother
          cases hother
          rw [hvalid] at hinvalid
          cases hinvalid
        · obtain ⟨rfl, maker, hworking⟩ := hchecked
          simp only [Bool.not_eq_true] at hvalid
          have hstrands : input.Strands registry.policies turns s.sys.db :=
            ⟨⟨policy, hadmitted⟩, hknown, makerOutput, hturn, hvalid⟩
          refine ⟨fun hsettles => ?_, fun hnot => absurd hstrands hnot⟩
          obtain ⟨left, hfind, hstatus, _⟩ := hworking.task
          rcases hsettles.1 left hfind with hbefore | hterminal | ⟨result, hclash, _⟩
          · have hmem := (Db.findTask_some input.key hbefore).1
            have hkey := (Db.findTask_some input.key hbefore).2
            exact absurd (congrArg Prod.snd hkey) (hfresh left hmem)
          · rw [hstatus] at hterminal
            cases hterminal
          · cases hclash

/-! ## A claim without a name, and a run to the end -/

namespace TestCommand

def registry : RuntimePolicyRegistry := ⟨[policy], by decide +kernel⟩

def workCell : WorkCell where
  workCellId := "test-drafting"
  maker := ⟨⟨"test-maker", 1⟩, policy⟩
  checker := ⟨⟨"test-checker", 1⟩, policy⟩
  makerInputSchema _ := true
  makerOutputSchema _ := none
  inputSchemaIdentity := schema
  outputSchemaIdentity := schema
  effectPolicy := .none
  checkerRubric := ⟨"test-rubric", 1, ["The amount is the one on the receipt."]⟩
  allowedSkillNames := ["skill"]

def workCellInput : WorkCellInput where
  householdId := householdId
  taskId := taskId
  parentTaskId := none
  team := "test-team"
  workCell := workCell
  selectedSkill := ⟨"skill", 1, proposalHash.hex⟩
  makerInput := .null
  permittedEvidence := []
  policyLabels := []
  stopCondition := ⟨"all-claims-checked", "Every claim is checked."⟩

def turnsOf (maker : JsonResult) : WorkCellTurns where
  maker := .ok maker
  checker := .ok ⟨.obj [("verdict", .str "accepted"), ("findings", .arr [])], by decide +kernel⟩
  evaluation := .ok (some (.obj [("status", .str "verified"), ("reason", .str "All claims are checked."),
    ("outstanding", .arr [])]))
  makerArtifactId := proposalId
  checkerArtifactId := checkerArtifactId
  invocationIssues := []
  verdictIssues := []
  exceedsZero _ := false

/-- A maker artifact but for the empty name of its claim. -/
def unnamedClaimPayload : Json :=
  .obj [("schemaName", .str "maker-artifact"), ("schemaVersion", .ofNat 1),
    ("outputSchema", .obj [("schemaName", .str "test-command-input"), ("schemaVersion", .ofNat 1)]),
    ("output", proposalPayload),
    ("claims", .arr [.obj [("claimId", .str ""), ("text", .str "Test proposal is ready."),
      ("evidenceArtifactIds", .arr [])]]),
    ("assumptions", .arr []), ("uncertainty", .arr [])]

attribute [local instance] Interleaving.threeThreads in
def executed (maker : JsonResult) : Option (Except Thrown CheckedWorkCellResult × LedgerSys (Fin 3)) :=
  (answeredCell 0 platform.jsonIn).play .normal
    (executeWorkCell platform registry.policies workCellInput (turnsOf maker)) unused

/-- The ledger answers every call, and still the task is left while its checker runs. -/
theorem work_cell_strands :
    ∃ s out, Exec (answeredCell 0 platform.jsonIn) (executeWorkCell platform registry.policies workCellInput
        (turnsOf ⟨unnamedClaimPayload, by decide +kernel⟩)) unused out s ∧
      ∃ task, s.sys.db.findTask householdId taskId = some task ∧ task.status = .checker_running ∧
        unused.sys.db.findTask householdId taskId = none ∧ ¬task.Settled out := by
  have hplayed : (executed ⟨unnamedClaimPayload, by decide +kernel⟩).map (fun step =>
      ((step.2.sys.db.findTask householdId taskId).map TaskRow.status, step.1.isOk)) =
      some (some .checker_running, false) := by
    decide +kernel
  obtain ⟨⟨out, s⟩, hs, hend⟩ := Option.map_eq_some_iff.1 hplayed
  obtain ⟨hfound, hfails⟩ := Prod.mk.inj hend
  obtain ⟨task, hfind, hstatus⟩ := Option.map_eq_some_iff.1 hfound
  refine ⟨s, out, .of_play hs, task, hfind, hstatus, rfl, ?_⟩
  intro hsettled
  rcases hsettled with hterminal | ⟨result, hout, _⟩
  · rw [hstatus] at hterminal
    cases hterminal
  · rw [hout] at hfails
    cases hfails

theorem work_cell_settles_task_verified :
    ∃ s out, executed ⟨makerArtifactPayload, by decide +kernel⟩ = some (out, s) ∧
      s.sys.db.tasks.map TaskRow.status = [.verified] ∧
      ((LeavesSettled workCellInput.key unused.sys.db s.sys.db out ∧
          ∀ result, out = .ok result → result.Backed []) ↔
        ¬workCellInput.Strands registry.policies (turnsOf ⟨makerArtifactPayload, by decide +kernel⟩)
          unused.sys.db) := by
  have hplayed : (executed ⟨makerArtifactPayload, by decide +kernel⟩).map (fun step =>
      step.2.sys.db.tasks.map TaskRow.status) = some [.verified] := by
    decide +kernel
  obtain ⟨⟨out, s⟩, hs, hend⟩ := Option.map_eq_some_iff.1 hplayed
  exact ⟨s, out, hs, hend, work_cell_settles_task platform registry workCellInput _ 0 unused s out
    (fun row hrow => by cases hrow) (.of_play hs)⟩

end TestCommand

end PlusOne
