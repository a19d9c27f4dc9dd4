import PlusOne.Interleaving.Solo
import PlusOne.Verification.HistoryRuns

/-! # Verdicts and the artifacts they cover

A verdict is recorded only on the current artifact of a task, and only a revision replaces that
artifact afterwards. So a task that its verdict has accepted is verified for the artifact it has. -/

namespace PlusOne

open Interleaving

/-- The verdict is on exactly the current artifact of the task. -/
structure VerdictRow.Covers (row : VerdictRow) (task : TaskRow) : Prop where
  householdId : row.householdId = task.householdId
  taskId : row.taskId = task.taskId
  artifact : task.currentMakerArtifact = some (row.coveredArtifactId, row.coveredArtifactHash)

/-- A checker was started on the current artifact, and no revision was requested since. -/
def TaskStatus.reviewed : TaskStatus → Bool
  | .created | .skill_selected | .maker_running | .maker_validated | .revision_requested => false
  | .checker_running | .checker_validated | .execution_pending | .committed | .readback_verified
  | .execution_failed | .readback_failed | .verified | .partialResult | .insufficient_evidence
  | .conflicted | .failed => true

theorem AllowedTransition.reviewed {source target : TaskStatus} (h : AllowedTransition source target)
    (hsource : source.reviewed = true) (htarget : target ≠ .revision_requested) :
    target.reviewed = true := by
  have htargets : source.reviewed = true → ∀ target ∈ allowedTargets source,
      target = .revision_requested ∨ target.reviewed = true := by
    cases source <;> decide
  have hmem : target ∈ allowedTargets source := List.contains_iff_mem.1 h
  exact (htargets hsource target hmem).resolve_left htarget

/-- What is recorded about the current artifact of a task. -/
structure Db.Covered (db : Db) (task : TaskRow) : Prop where
  exists_artifact : ∀ artifactId artifactHash, task.currentMakerArtifact = some (artifactId, artifactHash) →
    ∃ artifact ∈ db.artifacts, artifact.householdId = task.householdId ∧ artifact.taskId = task.taskId ∧
      artifact.artifactId = artifactId ∧ artifact.artifactHash = artifactHash
  validated : task.status = .checker_validated → ∃ row ∈ db.verdicts, row.Covers task
  verified : task.status = .verified → ∃ row ∈ db.verdicts, row.verdict = .accepted ∧ row.Covers task
  latest : ∀ row, db.latestVerdict task.householdId task.taskId = some row → row.verdict = .accepted →
    task.status.reviewed = true ∧ row.Covers task

/-- The tables keep their keys, and every task is covered. -/
structure Db.Checked (db : Db) : Prop where
  vetted : db.Vetted
  unique : (db.tasks.map TaskRow.taskId).Nodup
  owned : ∀ row ∈ db.verdicts, ∃ task ∈ db.tasks, task.key = (row.householdId, row.taskId)
  covered : ∀ task ∈ db.tasks, db.Covered task

/-- What a move of a task to a status rests on. -/
structure Db.MayMove (db : Db) (key : TaskKey) (target : TaskStatus) : Prop where
  validated : target = .checker_validated → ∀ task ∈ db.tasks, task.key = key →
    ∃ row ∈ db.verdicts, row.Covers task
  revised : target = .revision_requested → ∀ row, db.latestVerdict key.1 key.2 = some row →
    row.verdict ≠ .accepted
  verified : target = .verified → ∃ row, db.latestVerdict key.1 key.2 = some row ∧
    row.verdict = .accepted

namespace Db

variable {db db' : Db} {key : TaskKey} {task new : TaskRow} {row : VerdictRow}

theorem mem_of_latestVerdict {householdId : HouseholdId} {taskId : TaskId}
    (h : db.latestVerdict householdId taskId = some row) :
    row ∈ db.verdicts ∧ row.householdId = householdId ∧ row.taskId = taskId := by
  have hmem : row ∈ db.verdicts.reverse := List.mem_of_find?_eq_some h
  have hkey := List.find?_some h
  simp only [Bool.and_eq_true, beq_iff_eq] at hkey
  exact ⟨List.mem_reverse.1 hmem, hkey⟩

theorem latestVerdict_concat {householdId : HouseholdId} {taskId : TaskId} :
    ({ db with verdicts := db.verdicts ++ [row] } : Db).latestVerdict householdId taskId =
      if (row.householdId, row.taskId) = (householdId, taskId) then some row
      else db.latestVerdict householdId taskId := by
  simp only [latestVerdict, List.reverse_append, List.reverse_singleton, List.singleton_append,
    List.find?_cons, Prod.mk.injEq]
  by_cases hkey : row.householdId = householdId ∧ row.taskId = taskId
  · simp [hkey]
  · rw [if_neg hkey]
    have hother : (row.householdId == householdId && row.taskId == taskId) = false := by simpa using hkey
    rw [hother]

theorem MayMove.of_other {target : TaskStatus} (hvalidated : target ≠ .checker_validated)
    (hrevised : target ≠ .revision_requested) (hverified : target ≠ .verified) : db.MayMove key target :=
  ⟨fun h => absurd h hvalidated, fun h => absurd h hrevised, fun h => absurd h hverified⟩

/-! ## One task -/

/-- A change that leaves status and artifact alone. -/
theorem Covered.touch (h : db.Covered task) (hkey : new.key = task.key) (hstatus : new.status = task.status)
    (hmaker : new.currentMakerArtifact = task.currentMakerArtifact) : db.Covered new := by
  have hhousehold : new.householdId = task.householdId := congrArg Prod.fst hkey
  have htask : new.taskId = task.taskId := congrArg Prod.snd hkey
  have hcovers : ∀ row : VerdictRow, row.Covers task → row.Covers new := by
    intro row hrow
    exact ⟨hrow.householdId.trans hhousehold.symm, hrow.taskId.trans htask.symm, hmaker.trans hrow.artifact⟩
  constructor
  · rw [hmaker, hhousehold, htask]
    exact h.exists_artifact
  · intro hvalidated
    obtain ⟨row, hmem, hrow⟩ := h.validated (hstatus.symm.trans hvalidated)
    exact ⟨row, hmem, hcovers row hrow⟩
  · intro hverified
    obtain ⟨row, hmem, haccepted, hrow⟩ := h.verified (hstatus.symm.trans hverified)
    exact ⟨row, hmem, haccepted, hcovers row hrow⟩
  · intro row hlatest haccepted
    rw [hhousehold, htask] at hlatest
    obtain ⟨hreviewed, hrow⟩ := h.latest row hlatest haccepted
    exact ⟨hstatus ▸ hreviewed, hcovers row hrow⟩

theorem Covered.move {input : TransitionRecord} (h : db.Covered task) (htask : task ∈ db.tasks)
    (hkey : task.key = input.key) (hfrom : task.status = input.expectedFrom)
    (hedge : AllowedTransition input.expectedFrom input.toStatus)
    (hmove : db.MayMove input.key input.toStatus) : db.Covered (db.movedTask task input) := by
  have hcovers : ∀ row : VerdictRow, row.Covers task → row.Covers (db.movedTask task input) :=
    fun row hrow => ⟨hrow.householdId, hrow.taskId, hrow.artifact⟩
  have hhousehold : task.householdId = input.key.1 := congrArg Prod.fst hkey
  have hid : task.taskId = input.key.2 := congrArg Prod.snd hkey
  constructor
  · exact h.exists_artifact
  · intro hvalidated
    obtain ⟨row, hmem, hrow⟩ := hmove.validated hvalidated task htask hkey
    exact ⟨row, hmem, hcovers row hrow⟩
  · intro hverified
    obtain ⟨row, hlatest, haccepted⟩ := hmove.verified hverified
    rw [← hhousehold, ← hid] at hlatest
    have hrow := (h.latest row hlatest haccepted).2
    exact ⟨row, (mem_of_latestVerdict hlatest).1, haccepted, hcovers row hrow⟩
  · intro row hlatest haccepted
    have hbefore : db.latestVerdict task.householdId task.taskId = some row := hlatest
    obtain ⟨hreviewed, hrow⟩ := h.latest row hbefore haccepted
    refine ⟨?_, hcovers row hrow⟩
    rw [hfrom] at hreviewed
    apply hedge.reviewed hreviewed
    intro hrevised
    rw [hhousehold, hid] at hbefore
    exact hmove.revised hrevised row hbefore haccepted

/-- A maker artifact is linked where no accepting verdict is the latest. -/
theorem Covered.link {artifactId : ArtifactId} {artifactHash : ArtifactHash} (h : db.Covered task)
    (hstatus : task.status = .maker_running)
    (hartifact : (db.findExactArtifact task.householdId task.taskId artifactId artifactHash).isSome) :
    db.Covered { task with
      currentMakerArtifact := some (artifactId, artifactHash), currentCheckerArtifactId := none
      updatedAt := db.now } := by
  constructor
  · intro otherId otherHash hsome
    cases hsome
    obtain ⟨artifact, hfound⟩ := Option.isSome_iff_exists.1 hartifact
    have hids := List.find?_some hfound
    simp only [Bool.and_eq_true, beq_iff_eq] at hids
    exact ⟨artifact, List.mem_of_find?_eq_some hfound, hids.1.1.1, hids.1.1.2, hids.1.2, hids.2⟩
  · intro hvalidated
    have hclash : task.status = .checker_validated := hvalidated
    rw [hstatus] at hclash
    cases hclash
  · intro hverified
    have hclash : task.status = .verified := hverified
    rw [hstatus] at hclash
    cases hclash
  · intro row hlatest haccepted
    have hreviewed := (h.latest row hlatest haccepted).1
    rw [hstatus] at hreviewed
    cases hreviewed

theorem Covered.of_artifacts (h : db.Covered task) (hverdicts : db'.verdicts = db.verdicts)
    (hartifacts : ∀ artifact ∈ db.artifacts, artifact ∈ db'.artifacts) : db'.Covered task := by
  constructor
  · intro artifactId artifactHash hsome
    obtain ⟨artifact, hmem, hids⟩ := h.exists_artifact artifactId artifactHash hsome
    exact ⟨artifact, hartifacts artifact hmem, hids⟩
  · rw [hverdicts]
    exact h.validated
  · rw [hverdicts]
    exact h.verified
  · rw [latestVerdict, hverdicts]
    exact h.latest

/-- A verdict on another task changes nothing. -/
theorem Covered.of_other (h : db.Covered task)
    (hne : (row.householdId, row.taskId) ≠ (task.householdId, task.taskId)) :
    ({ db with verdicts := db.verdicts ++ [row] } : Db).Covered task := by
  constructor
  · exact h.exists_artifact
  · intro hvalidated
    obtain ⟨old, hmem, hold⟩ := h.validated hvalidated
    exact ⟨old, List.mem_append_left _ hmem, hold⟩
  · intro hverified
    obtain ⟨old, hmem, hold⟩ := h.verified hverified
    exact ⟨old, List.mem_append_left _ hmem, hold⟩
  · intro old hlatest haccepted
    apply h.latest old _ haccepted
    rwa [latestVerdict_concat, if_neg hne] at hlatest

/-- The verdict that is recorded covers the artifact of its task. -/
theorem Covered.of_verdict (h : db.Covered task) (hrow : row.Covers task)
    (hstatus : task.status = .checker_running) :
    ({ db with verdicts := db.verdicts ++ [row] } : Db).Covered task := by
  constructor
  · exact h.exists_artifact
  · intro hvalidated
    rw [hstatus] at hvalidated
    cases hvalidated
  · intro hverified
    rw [hstatus] at hverified
    cases hverified
  · intro latest hlatest _
    have hkey : (row.householdId, row.taskId) = (task.householdId, task.taskId) :=
      Prod.ext hrow.householdId hrow.taskId
    rw [latestVerdict_concat, if_pos hkey] at hlatest
    cases hlatest
    exact ⟨by rw [hstatus]; rfl, hrow⟩

/-! ## The tables -/

theorem Checked.replace (h : db.Checked) (hnew : db.Covered new) : (db.replaceTask new).Checked := by
  have hkeys : (db.replaceTask new).tasks.map TaskRow.key = db.tasks.map TaskRow.key :=
    Db.keys_replaceTask new
  constructor
  · exact ⟨h.vetted.verdicts, h.vetted.commands⟩
  · have hids : (db.replaceTask new).tasks.map TaskRow.taskId = db.tasks.map TaskRow.taskId := by
      have hmap := congrArg (List.map Prod.snd) hkeys
      simpa only [List.map_map, Function.comp_def, TaskRow.key] using hmap
    rw [hids]
    exact h.unique
  · intro row hrow
    obtain ⟨owner, howner, hsame⟩ := h.owned row hrow
    have hmem : owner.key ∈ (db.replaceTask new).tasks.map TaskRow.key := by
      rw [hkeys]
      exact List.mem_map_of_mem howner
    obtain ⟨other, hother, hotherKey⟩ := List.mem_map.1 hmem
    exact ⟨other, hother, hotherKey.trans hsame⟩
  · intro other hother
    have hcovered : db.Covered other := by
      rcases Db.mem_replaceTask hother with ⟨rfl, _⟩ | ⟨hold, _⟩
      · exact hnew
      · exact h.covered other hold
    exact hcovered.of_artifacts rfl fun _ hartifact => hartifact

theorem Checked.eq_of_key (h : db.Checked) (htask : task ∈ db.tasks) (hnew : new ∈ db.tasks)
    (hkey : new.key = task.key) : new = task :=
  List.inj_on_of_nodup_map h.unique hnew htask (congrArg Prod.snd hkey)

theorem Checked.addArtifact (h : db.Checked) (artifact : ArtifactEnvelope) :
    ({ db with artifacts := db.artifacts ++ [artifact] } : Db).Checked := by
  constructor
  · refine ⟨?_, h.vetted.commands⟩
    intro row hrow
    obtain ⟨partner, hpartner, hids⟩ := h.vetted.verdicts row hrow
    exact ⟨partner, List.mem_append_left _ hpartner, hids⟩
  · exact h.unique
  · exact h.owned
  · intro task htask
    exact (h.covered task htask).of_artifacts rfl fun _ hartifact => List.mem_append_left _ hartifact

theorem Checked.addTask (h : db.Checked) (hfree : ∀ old ∈ db.tasks, old.taskId ≠ task.taskId)
    (hstatus : task.status = .created) (hmaker : task.currentMakerArtifact = none) :
    ({ db with tasks := db.tasks ++ [task] } : Db).Checked := by
  constructor
  · exact ⟨h.vetted.verdicts, h.vetted.commands⟩
  · rw [List.map_append, List.map_singleton, ← List.concat_eq_append]
    apply h.unique.concat
    intro hmem
    obtain ⟨old, hold, hsame⟩ := List.mem_map.1 hmem
    exact hfree old hold hsame
  · intro row hrow
    obtain ⟨owner, howner, hkey⟩ := h.owned row hrow
    exact ⟨owner, List.mem_append_left _ howner, hkey⟩
  · intro other hother
    rcases List.mem_append.1 hother with hold | hlast
    · exact (h.covered other hold).of_artifacts rfl fun _ hartifact => hartifact
    · rw [List.mem_singleton.1 hlast]
      constructor
      · intro artifactId artifactHash hsome
        rw [hmaker] at hsome
        cases hsome
      · intro hvalidated
        rw [hstatus] at hvalidated
        cases hvalidated
      · intro hverified
        rw [hstatus] at hverified
        cases hverified
      · intro row hlatest _
        obtain ⟨hmem, _, hid⟩ := mem_of_latestVerdict hlatest
        obtain ⟨owner, howner, hkey⟩ := h.owned row hmem
        exact absurd ((congrArg Prod.snd hkey).trans hid) (hfree owner howner)

/-- The row of a verdict. -/
def verdictRow (key : TaskKey) (checkerArtifactId : ArtifactId) (verdict : CheckerVerdict) : VerdictRow :=
  { householdId := key.1, taskId := key.2, checkerArtifactId
    coveredArtifactId := verdict.coveredArtifactId
    coveredArtifactHash := verdict.coveredArtifactHash, verdict := verdict.verdict }

variable {checkerArtifactId : ArtifactId} {verdict : CheckerVerdict}

/-- A verdict that is accepted is in the table, also where the insertion found it there. -/
theorem verdictRow_mem (h : db.recordCheckerVerdict key.1 key.2 checkerArtifactId verdict = some db') :
    verdictRow key checkerArtifactId verdict ∈ db'.verdicts := by
  unfold Db.recordCheckerVerdict at h
  split at h
  · cases h
  simp only at h
  split at h
  · split at h
    · rename_i old hold
      split at h
      · rename_i hsame
        cases h
        have hmem : old ∈ db.verdicts := List.mem_of_find?_eq_some hold
        rw [hsame] at hmem
        exact hmem
      · cases h
    · split at h
      · cases h
        exact List.mem_append_right _ (List.mem_singleton.2 rfl)
      · cases h
  · cases h

/-- Where a verdict was recorded, it covers the artifact of its task. -/
theorem recordCheckerVerdict_covers
    (hrecord : db.recordCheckerVerdict key.1 key.2 checkerArtifactId verdict = some db') {other : TaskRow}
    (hother : other ∈ db'.tasks) (hkey : other.key = key) :
    ∃ row ∈ db'.verdicts, row.Covers other := by
  refine ⟨_, verdictRow_mem hrecord, (congrArg Prod.fst hkey).symm, (congrArg Prod.snd hkey).symm, ?_⟩
  obtain ⟨task, linked, hfind, _, hmaker, rfl, hwhere⟩ := Db.recordCheckerVerdict_some hrecord
  obtain ⟨htask, htaskKey⟩ := Db.findTask_some key hfind
  have htasks : db'.tasks = (db.replaceTask { task with
      currentCheckerArtifactId := some checkerArtifactId, updatedAt := db.now }).tasks := by
    rcases hwhere with rfl | ⟨_, rfl⟩
    · rfl
    · rfl
  rw [htasks] at hother
  rcases Db.mem_replaceTask hother with ⟨rfl, _⟩ | ⟨_, hne⟩
  · exact hmaker
  · exact absurd (hkey.trans htaskKey.symm) hne

theorem Checked.recordCheckerVerdict (h : db.Checked)
    (hrecord : db.recordCheckerVerdict key.1 key.2 checkerArtifactId verdict = some db') :
    db'.Checked := by
  obtain ⟨task, linked, hfind, hstatus, hmaker, rfl, hwhere⟩ := Db.recordCheckerVerdict_some hrecord
  obtain ⟨htask, hkey⟩ := Db.findTask_some key hfind
  rcases hwhere with rfl | ⟨hartifact, rfl⟩
  · exact h.replace ((h.covered task htask).touch rfl rfl rfl)
  · have hrow : (verdictRow key checkerArtifactId verdict).Covers task :=
      ⟨(congrArg Prod.fst hkey).symm, (congrArg Prod.snd hkey).symm, hmaker⟩
    have hadded : ({ db with
        verdicts := db.verdicts ++ [verdictRow key checkerArtifactId verdict] } : Db).Checked := by
      constructor
      · refine ⟨?_, h.vetted.commands⟩
        intro other hother
        rcases List.mem_append.1 hother with hold | hlast
        · exact h.vetted.verdicts other hold
        · rw [List.mem_singleton.1 hlast]
          exact hartifact
      · exact h.unique
      · intro other hother
        rcases List.mem_append.1 hother with hold | hlast
        · exact h.owned other hold
        · rw [List.mem_singleton.1 hlast]
          exact ⟨task, htask, hkey⟩
      · intro other hother
        by_cases hsame : other.key = task.key
        · rw [h.eq_of_key htask hother hsame]
          exact (h.covered task htask).of_verdict hrow hstatus
        · apply (h.covered other hother).of_other
          intro hclash
          exact hsame (hclash.symm.trans hkey.symm)
    exact hadded.replace ((hadded.covered task htask).touch rfl rfl rfl)

end Db

end PlusOne
