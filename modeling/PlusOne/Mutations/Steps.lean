import Mathlib.Data.List.Count
import PlusOne.Mutations.Executor

/-! # What each statement does

Inversion lemmas: everything one statement, one call or one outside move can do to
the commands, receipts and effects. Invariants are derived from these and never
unfold a statement again. -/

namespace PlusOne

/-- The identity columns, which no update may change. -/
def CommandRow.SameIdentity (row old : CommandRow) : Prop :=
  row = { old with
    status := row.status, failureCode := row.failureCode, updatedAt := row.updatedAt }

theorem CommandRow.SameIdentity.refl (row : CommandRow) : row.SameIdentity row := rfl

theorem CommandRow.SameIdentity.trans {a b c : CommandRow} (h : b.SameIdentity a)
    (h' : c.SameIdentity b) : c.SameIdentity a := by
  rw [CommandRow.SameIdentity] at *
  rw [h', h]

theorem CommandRow.SameIdentity.key {row old : CommandRow} (h : row.SameIdentity old) :
    row.key = old.key := by rw [h]; rfl

/-- The status moves a command ever makes. -/
inductive StatusEdge : CommandStatus → CommandStatus → Prop
  | pending : StatusEdge .registered .execution_pending
  | committed : StatusEdge .execution_pending .committed
  | failed : StatusEdge .execution_pending .execution_failed
  | verified : StatusEdge .committed .readback_verified
  | readback_failed : StatusEdge .committed .readback_failed

/-- The statuses of a command whose transaction has committed. -/
def CommandStatus.settled : CommandStatus → Bool
  | .committed | .readback_verified | .readback_failed => true
  | .registered | .execution_pending | .execution_failed => false

namespace Db

variable {db db' : Db} {key : CommandKey}

variable {row : CommandRow}

theorem findCommand_some (h : db.findCommand key = some row) :
    row ∈ db.commands ∧ row.key = key :=
  ⟨List.mem_of_find?_eq_some h, by simpa using List.find?_some h⟩

/-- Public identifiers of commands are unique. -/
def UniqueCommands (db : Db) : Prop := (db.commands.map CommandRow.commandId).Nodup

theorem UniqueCommands.eq_of_mem (h : db.UniqueCommands) {a b : CommandRow}
    (ha : a ∈ db.commands) (hb : b ∈ db.commands) (hab : a.commandId = b.commandId) : a = b :=
  List.inj_on_of_nodup_map h ha hb hab

theorem UniqueCommands.find (h : db.UniqueCommands) (hrow : row ∈ db.commands) :
    db.findCommand row.key = some row := by
  have hsome : (db.findCommand row.key).isSome := by
    rw [findCommand, List.find?_isSome]
    exact ⟨row, hrow, by simp⟩
  obtain ⟨found, hfound⟩ := Option.isSome_iff_exists.1 hsome
  obtain ⟨hmem, hkey⟩ := findCommand_some hfound
  rw [hfound, h.eq_of_mem hmem hrow (congrArg Prod.snd hkey)]

/-! ## Replacing a row -/

theorem findCommand_replaceCommand_self {old new : CommandRow} (h : db.findCommand key = some old)
    (hkey : new.key = key) : (db.replaceCommand new).findCommand key = some new := by
  unfold findCommand replaceCommand at *
  simp only
  generalize db.commands = rows at h
  induction rows with
  | nil => simp at h
  | cons row rows ih =>
    rw [List.map_cons]
    by_cases hrow : row.key = key
    · rw [List.find?_cons_of_pos (by simp [hrow, hkey])]
      simp [hrow, hkey]
    · have hne : ¬row.key = new.key := fun h => hrow (h.trans hkey)
      rw [List.find?_cons_of_neg (by simp [hrow])] at h
      rw [List.find?_cons_of_neg (by simp [hne, hrow])]
      exact ih h

theorem findCommand_replaceCommand_ne {new : CommandRow} (hkey : new.key ≠ key) :
    (db.replaceCommand new).findCommand key = db.findCommand key := by
  unfold findCommand replaceCommand
  simp only
  induction db.commands with
  | nil => rfl
  | cons row rows ih =>
    rw [List.map_cons]
    by_cases hrow : row.key = new.key
    · have hne : row.key ≠ key := fun h => hkey (hrow ▸ h)
      rw [List.find?_cons_of_neg (by simp [hrow, hkey]), List.find?_cons_of_neg (by simp [hne])]
      exact ih
    · rw [if_neg hrow, List.find?_cons, List.find?_cons, ih]

theorem findCommand_append {commands : List CommandRow} :
    ({ db with commands := commands ++ [row] } : Db).findCommand key =
      (({ db with commands } : Db).findCommand key).or (if row.key = key then some row else none) := by
  simp only [findCommand, List.find?_append, List.find?_singleton, beq_iff_eq]

/-! ## What the statements of the operations pool do -/

/-- Everything such a statement can do to the commands: register one under a fresh identifier,
or move a `free` one along. -/
inductive CommandsStep (free : CommandKey → Prop) (db db' : Db) : Prop
  | same (hcommands : db'.commands = db.commands)
  | registered (row : CommandRow) (hfresh : ∀ old ∈ db.commands, old.commandId ≠ row.commandId)
      (hstatus : row.status = .registered) (hcommands : db'.commands = db.commands ++ [row])
  | moved (old new : CommandRow) (hfree : free new.key)
      (hfind : db.findCommand new.key = some old) (hidentity : new.SameIdentity old)
      (hedge : StatusEdge old.status new.status) (hcommitted : new.status ≠ .committed)
      (hcommands : db'.commands = (db.replaceCommand new).commands)

variable {jsonIn : String → Option Json} {confirmationRequired : Bool} {input : CheckedCommand}

theorem insertCommand_ok {result : Option CommandRow}
    (h : db.insertCommand jsonIn input confirmationRequired = .ok (result, db')) :
    (result = none ∧ db' = db ∧ input.householdId ∉ db.households) ∨
    ∃ payload, Db.payloadParameter jsonIn input.payload = .ok (some payload) ∧
      let new : NewCommand :=
        { input, confirmationRequired, confirmationId := db.joinConfirmation input
          payload := some payload }
      db.validateMutationCommandInsert new = .ok () ∧ db.commandUniqueness input = .ok () ∧
      (db.findTask input.householdId input.taskId).isSome ∧
      result = some (db.registeredRow new payload) ∧
      db' = { db with commands := db.commands ++ [db.registeredRow new payload] } := by
  simp only [insertCommand, bind, Except.bind, pure, Except.pure, throw, throwThe,
    MonadExceptOf.throw] at h
  split at h
  · cases h
  · rename_i payload hpayload
    split at h
    · cases h
    split at h
    · rename_i hhousehold
      cases h
      exact .inl ⟨rfl, rfl, by simpa using hhousehold⟩
    split at h
    · cases h
    rename_i hvalid
    split at h
    · rename_i payload'
      split at h
      · cases h
      rename_i hunique
      split at h
      · cases h
      rename_i htask
      cases h
      refine .inr ⟨payload', hpayload, hvalid, hunique, ?_, rfl, rfl⟩
      simpa [Option.isSome_iff_ne_none] using htask
    · cases h

theorem insertCommand_row (h : db.insertCommand jsonIn input confirmationRequired = .ok (some row, db')) :
    row ∈ db'.commands ∧ ∃ new payload, new.input = input ∧ row = db.registeredRow new payload := by
  rcases insertCommand_ok h with ⟨hnone, _⟩ | ⟨payload, _, _, _, _, hrow, hdb⟩
  · cases hnone
  · simp only [Option.some.injEq] at hrow
    refine ⟨?_, _, payload, rfl, hrow⟩
    rw [hdb, hrow]
    exact List.mem_append_right _ (List.mem_singleton.2 rfl)

theorem commandUniqueness_ok {command : CheckedCommand}
    (h : db.commandUniqueness command = .ok ()) :
    (∀ row ∈ db.commands, row.commandId ≠ command.commandId) ∧
      (∀ row ∈ db.commands, ¬(row.householdId = command.householdId ∧
        row.idempotencyKey = command.idempotencyKey)) ∧
      ∀ row ∈ db.commands, ¬(row.householdId = command.householdId ∧
        row.checkedProposalId = command.checkedProposalId ∧
        row.checkedProposalHash = command.checkedProposalHash) := by
  unfold commandUniqueness at h
  split_ifs at h with hpublic hidempotency hproposal
  refine ⟨?_, ?_, ?_⟩
  · simpa using hpublic
  · simpa using hidempotency
  · simpa [and_assoc] using hproposal

variable {failureCode : CommandRow → Option String} {expected status : CommandStatus}

theorem updateCommand_ok {n : Nat} (h : db.updateCommand key expected status failureCode = .ok (n, db')) :
    (n = 0 ∧ db' = db ∧ ∀ old, db.findCommand key = some old → old.status ≠ expected) ∨
    ∃ old new, n = 1 ∧ db.findCommand key = some old ∧ old.status = expected ∧
      db.guardMutationCommandUpdate old status (failureCode old) = .ok new ∧
      db' = db.replaceCommand new := by
  unfold updateCommand at h
  split at h
  · rename_i hnone
    cases h
    exact .inl ⟨rfl, rfl, by simp [hnone]⟩
  · rename_i old hold
    split_ifs at h with hstatus
    · simp only [bind, Except.bind, pure, Except.pure] at h
      split at h
      · cases h
      · rename_i new hnew
        cases h
        exact .inr ⟨old, new, rfl, hold, hstatus, hnew, rfl⟩
    · cases h
      refine .inl ⟨rfl, rfl, fun old' hold' => ?_⟩
      rw [hold] at hold'
      cases hold'
      exact hstatus

theorem guardMutationCommandUpdate_ok {old new : CommandRow} {status : CommandStatus}
    {failureCode : Option String} (hne : old.status ≠ status)
    (h : db.guardMutationCommandUpdate old status failureCode = .ok new) :
    new = { old with status, failureCode, updatedAt := db.now } ∧
      statusTransitionAllowed old.status status = true := by
  unfold guardMutationCommandUpdate at h
  simp only [hne, if_false] at h
  split_ifs at h with hallowed
  exact ⟨(Except.ok.inj h).symm, by simpa using hallowed⟩

theorem updateCommand_step {n : Nat} (hedge : StatusEdge expected status) (hcommitted : status ≠ .committed)
    (h : db.updateCommand key expected status failureCode = .ok (n, db')) :
    (n = 0 ∧ db' = db ∧ ∀ old, db.findCommand key = some old → old.status ≠ expected) ∨
    ∃ old new, n = 1 ∧ db.findCommand key = some old ∧ old.status = expected ∧
      new = { old with status, failureCode := failureCode old, updatedAt := db.now } ∧
      db' = db.replaceCommand new := by
  rcases updateCommand_ok h with h | ⟨old, new, hn, hfind, hstatus, hguard, hdb⟩
  · exact .inl h
  · have hne : old.status ≠ status := by rw [hstatus]; cases hedge <;> decide
    exact .inr ⟨old, new, hn, hfind, hstatus, (guardMutationCommandUpdate_ok hne hguard).1, hdb⟩

theorem readbackStatus_edge (ok : Bool) : StatusEdge .committed (readbackStatus ok) := by
  cases ok
  · exact .readback_failed
  · exact .verified

theorem readbackStatus_ne (ok : Bool) : readbackStatus ok ≠ .committed := by
  cases ok <;> decide

variable {householdId : HouseholdId}

theorem recordReadback_ok {result : ReadbackResult} {n : Nat}
    (h : db.recordReadback householdId result = .ok (n, db')) :
    (n = 0 ∧ db' = db) ∨
    ∃ old new receipt, n = 1 ∧ db.findCommand (householdId, result.commandId) = some old ∧
      old.status = .committed ∧
      db.findReceipt (householdId, result.commandId) = some receipt ∧
      receipt.receiptId = result.receiptId ∧
      new = { old with
        status := readbackStatus result.ok, failureCode := readbackFailureCode result.ok
        updatedAt := db.now } ∧
      (∀ row ∈ db.readbacks, row.key ≠ (householdId, result.commandId)) ∧
      db' = ({ db with readbacks := db.readbacks ++ [⟨householdId, result⟩] } : Db).replaceCommand
        new := by
  unfold recordReadback at h
  cases hstorable : storableReadback result with
  | error e =>
    rw [hstorable] at h
    cases h
  | ok =>
  simp only [hstorable, bind, Except.bind] at h
  split at h
  · rename_i command receipt hcommand hreceipt
    split_ifs at h with hstatus hconsistent hid honce
    · rcases updateCommand_step (readbackStatus_edge result.ok) (readbackStatus_ne result.ok) h with
        ⟨_, _, hne⟩ | ⟨old, new, hn, hfind, hold, hnew, hdb⟩
      · exact absurd hstatus.1 (hne command hcommand)
      · exact .inr ⟨old, new, receipt, hn, hfind, hold, hreceipt, hstatus.2, hnew,
          by simpa using honce, hdb⟩
    · cases h
      exact .inl ⟨rfl, rfl⟩
  · cases h
    exact .inl ⟨rfl, rfl⟩

theorem transition_ok {input : TransitionRecord} {outcome : TransitionOutcome}
    (h : db.transition input = .ok (outcome, db')) :
    (outcome = .notFound ∧ db' = db ∧ db.findTask input.householdId input.taskId = none) ∨
    (∃ current, db.findTask input.householdId input.taskId = some current ∧
      current.status ≠ input.expectedFrom ∧ outcome = .stale current.status ∧ db' = db) ∨
    ∃ current, db.findTask input.householdId input.taskId = some current ∧
      current.status = input.expectedFrom ∧ outcome = .done (db.movedTask current input) ∧
      db' = db.replaceTask (db.movedTask current input) := by
  unfold transition at h
  split at h
  · rename_i hnone
    cases h
    exact .inl ⟨rfl, rfl, hnone⟩
  · rename_i current hcurrent
    split at h
    · rename_i hstale
      cases h
      exact .inr (.inl ⟨current, hcurrent, hstale, rfl, rfl⟩)
    rename_i hfresh
    split at h
    · cases h
    · cases h
      exact .inr (.inr ⟨current, hcurrent, not_not.1 hfresh, rfl, rfl⟩)

/-- A recorded verdict covers the current artifact of a task whose checker is running. -/
theorem recordCheckerVerdict_some {taskId : TaskId} {checkerArtifactId : ArtifactId} {verdict : CheckerVerdict}
    (h : db.recordCheckerVerdict householdId taskId checkerArtifactId verdict = some db') :
    ∃ task linked, db.findTask householdId taskId = some task ∧ task.status = .checker_running ∧
      task.currentMakerArtifact = some (verdict.coveredArtifactId, verdict.coveredArtifactHash) ∧
      linked = { task with
        currentCheckerArtifactId := some checkerArtifactId, updatedAt := db.now } ∧
      (db' = db.replaceTask linked ∨
        (∃ artifact ∈ db.artifacts, artifact.householdId = householdId ∧
          artifact.taskId = taskId ∧ artifact.artifactId = checkerArtifactId) ∧
        db' = ({ db with verdicts := db.verdicts ++ [
          { householdId, taskId, checkerArtifactId
            coveredArtifactId := verdict.coveredArtifactId
            coveredArtifactHash := verdict.coveredArtifactHash
            verdict := verdict.verdict }] } : Db).replaceTask linked) := by
  unfold recordCheckerVerdict at h
  split at h
  · cases h
  rename_i task htask
  simp only at h
  split at h
  · rename_i hrunning
    split at h
    · split at h
      · cases h
        exact ⟨task, _, htask, hrunning.1, hrunning.2, rfl, .inl rfl⟩
      · cases h
    · split at h
      · rename_i hstored
        simp only [Bool.and_eq_true, List.any_eq_true, beq_iff_eq, and_assoc] at hstored
        cases h
        exact ⟨task, _, htask, hrunning.1, hrunning.2, rfl, .inr ⟨hstored.2, rfl⟩⟩
      · cases h
  · cases h

/-! ## Steps of the commands -/

section CommandsStep

variable {free : CommandKey → Prop}

theorem findCommand_congr (h : db'.commands = db.commands) :
    db'.findCommand key = db.findCommand key := by rw [findCommand, findCommand, h]

theorem CommandsStep.of_insert {jsonIn : String → Option Json} {input : CheckedCommand}
    {confirmationRequired : Bool} {result : Option CommandRow}
    (h : db.insertCommand jsonIn input confirmationRequired = .ok (result, db')) :
    CommandsStep free db db' := by
  rcases insertCommand_ok h with ⟨_, rfl, _⟩ | ⟨payload, _, _, hunique, _, _, rfl⟩
  · exact .same rfl
  · exact .registered _ (commandUniqueness_ok hunique).1 rfl rfl

theorem CommandsStep.of_update {expected status : CommandStatus}
    {failureCode : CommandRow → Option String} {n : Nat} (hedge : StatusEdge expected status)
    (hcommitted : status ≠ .committed)
    (hfree : (db.findCommand key).any (fun row => row.status == expected) = true → free key)
    (h : db.updateCommand key expected status failureCode = .ok (n, db')) :
    CommandsStep free db db' := by
  rcases updateCommand_step hedge hcommitted h with ⟨_, rfl, _⟩ |
    ⟨old, new, _, hfind, hstatus, hnew, rfl⟩
  · exact .same rfl
  · have hidentity : new.SameIdentity old := by rw [hnew]; rfl
    have hkey : new.key = key := hidentity.key.trans (findCommand_some hfind).2
    have hnewStatus : new.status = status := by rw [hnew]
    subst hkey
    exact .moved old new (hfree (by simp [hfind, hstatus])) hfind hidentity
      (by rw [hstatus, hnewStatus]; exact hedge) (by rw [hnewStatus]; exact hcommitted) rfl

theorem CommandsStep.of_readback {householdId : HouseholdId} {result : ReadbackResult} {n : Nat}
    (hfree : (db.findCommand (householdId, result.commandId)).any
      (fun row => row.status == .committed) = true → free (householdId, result.commandId))
    (h : db.recordReadback householdId result = .ok (n, db')) : CommandsStep free db db' := by
  rcases recordReadback_ok h with ⟨_, rfl⟩ | ⟨old, new, _, _, hfind, hstatus, _, _, hnew, _, rfl⟩
  · exact .same rfl
  · have hidentity : new.SameIdentity old := by rw [hnew]; rfl
    have hkey : new.key = (householdId, result.commandId) :=
      hidentity.key.trans (findCommand_some hfind).2
    have hnewStatus : new.status = readbackStatus result.ok := by rw [hnew]
    rw [← hkey] at hfind hfree
    exact .moved old new (hfree (by simp [hfind, hstatus])) hfind hidentity
      (by rw [hstatus, hnewStatus]; exact readbackStatus_edge result.ok)
      (by rw [hnewStatus]; exact readbackStatus_ne result.ok) rfl

/-- A row that is not free to move stays as it is. -/
theorem CommandsStep.find_held {row : CommandRow} (h : CommandsStep free db db')
    (hheld : ¬free key) (hrow : db.findCommand key = some row) :
    db'.findCommand key = some row := by
  cases h with
  | same hcommands => rw [findCommand_congr hcommands, hrow]
  | registered new hfresh hstatus hcommands =>
    have happend : db'.findCommand key =
        (db.findCommand key).or (if new.key = key then some new else none) := by
      rw [← findCommand_append]
      exact findCommand_congr hcommands
    rw [happend, hrow, Option.some_or]
  | moved old new hfree hfind hidentity hedge hcommitted hcommands =>
    rw [findCommand_congr hcommands, findCommand_replaceCommand_ne, hrow]
    rintro rfl
    exact hheld hfree

/-- Every row stays, moved along at most one edge other than the commit. -/
theorem CommandsStep.find_some {row : CommandRow} (h : CommandsStep free db db')
    (hrow : db.findCommand key = some row) :
    ∃ row', db'.findCommand key = some row' ∧ row'.SameIdentity row ∧
      (row' = row ∨ StatusEdge row.status row'.status ∧ row'.status ≠ .committed) := by
  cases h with
  | same hcommands => exact ⟨row, by rw [findCommand_congr hcommands, hrow], rfl, .inl rfl⟩
  | registered new hfresh hstatus hcommands =>
    have hstep : CommandsStep (fun _ => False) db db' := .registered new hfresh hstatus hcommands
    exact ⟨row, hstep.find_held id hrow, rfl, .inl rfl⟩
  | moved old new hfree hfind hidentity hedge hcommitted hcommands =>
    by_cases hkey : new.key = key
    · subst hkey
      rw [hfind] at hrow
      cases hrow
      exact ⟨new, by rw [findCommand_congr hcommands, findCommand_replaceCommand_self hfind rfl],
        hidentity, .inr ⟨hedge, hcommitted⟩⟩
    · exact ⟨row, by rw [findCommand_congr hcommands, findCommand_replaceCommand_ne hkey, hrow],
        rfl, .inl rfl⟩

/-- A row that was not there before is registered. -/
theorem CommandsStep.find_new {row : CommandRow} (h : CommandsStep free db db')
    (hnone : db.findCommand key = none) (hrow : db'.findCommand key = some row) :
    row.status = .registered := by
  cases h with
  | same hcommands =>
    rw [findCommand_congr hcommands, hnone] at hrow
    cases hrow
  | registered new hfresh hstatus hcommands =>
    have happend : db'.findCommand key =
        (db.findCommand key).or (if new.key = key then some new else none) := by
      rw [← findCommand_append]
      exact findCommand_congr hcommands
    rw [happend, hnone, Option.none_or] at hrow
    split_ifs at hrow
    cases hrow
    exact hstatus
  | moved old new hfree hfind hidentity hedge hcommitted hcommands =>
    have hkey : new.key ≠ key := by
      rintro rfl
      rw [hnone] at hfind
      cases hfind
    rw [findCommand_congr hcommands, findCommand_replaceCommand_ne hkey, hnone] at hrow
    cases hrow

theorem map_commandId_replaceCommand {new : CommandRow} :
    (db.replaceCommand new).commands.map CommandRow.commandId =
      db.commands.map CommandRow.commandId := by
  simp only [replaceCommand, List.map_map]
  apply List.map_congr_left
  intro row _
  by_cases hrow : row.key = new.key
  · have hid : row.commandId = new.commandId := congrArg Prod.snd hrow
    simp [hrow, hid]
  · simp [hrow]

theorem CommandsStep.unique (h : CommandsStep free db db') (hunique : db.UniqueCommands) :
    db'.UniqueCommands := by
  unfold UniqueCommands at *
  cases h with
  | same hcommands => rwa [hcommands]
  | registered row hfresh hstatus hcommands =>
    rw [hcommands, List.map_append, List.nodup_append]
    refine ⟨hunique, by simp, ?_⟩
    intro a ha b hb hab
    obtain ⟨old, hold, rfl⟩ := List.mem_map.1 ha
    simp only [List.map_cons, List.map_nil, List.mem_singleton] at hb
    exact hfresh old hold (hab.trans hb)
  | moved old new hfree hfind hidentity hedge hcommitted hcommands =>
    rwa [hcommands, map_commandId_replaceCommand]

end CommandsStep

/-! ## Failed executions -/

/-- No row of `db'` is newly failed. -/
def NoneFails (db db' : Db) : Prop :=
  ∀ row ∈ db'.commands, row.status = .execution_failed → row ∈ db.commands

theorem NoneFails.same (h : db'.commands = db.commands) : NoneFails db db' :=
  fun row hrow _ => h ▸ hrow

theorem NoneFails.replace {new : CommandRow} (hstatus : new.status ≠ .execution_failed) :
    NoneFails db (db.replaceCommand new) := by
  intro row hrow hfailed
  obtain ⟨old, hold, hreplaced⟩ := List.mem_map.1 hrow
  split_ifs at hreplaced with hkey
  · exact absurd (hreplaced ▸ hfailed) hstatus
  · exact hreplaced ▸ hold

theorem NoneFails.of_insert {result : Option CommandRow}
    (h : db.insertCommand jsonIn input confirmationRequired = .ok (result, db')) :
    NoneFails db db' := by
  rcases insertCommand_ok h with ⟨_, rfl, _⟩ | ⟨payload, _, _, _, _, _, rfl⟩
  · exact .same rfl
  · intro row hrow hfailed
    rcases List.mem_append.1 hrow with hrow | hrow
    · exact hrow
    · rw [List.mem_singleton.1 hrow] at hfailed
      cases hfailed

theorem NoneFails.of_update {n : Nat} (hedge : StatusEdge expected status) (hcommitted : status ≠ .committed)
    (hstatus : status ≠ .execution_failed) (h : db.updateCommand key expected status failureCode = .ok (n, db')) :
    NoneFails db db' := by
  rcases updateCommand_step hedge hcommitted h with ⟨_, rfl, _⟩ | ⟨old, new, _, _, _, hnew, rfl⟩
  · exact .same rfl
  · exact .replace (by rw [hnew]; exact hstatus)

theorem NoneFails.of_readback {result : ReadbackResult} {n : Nat}
    (h : db.recordReadback householdId result = .ok (n, db')) : NoneFails db db' := by
  rcases recordReadback_ok h with ⟨_, rfl⟩ | ⟨old, new, _, _, _, _, _, _, hnew, _, rfl⟩
  · exact .same rfl
  · have hstatus : new.status ≠ .execution_failed := by
      rw [hnew]
      cases hok : result.ok <;> simp [readbackStatus]
    exact .replace hstatus

end Db

end PlusOne
