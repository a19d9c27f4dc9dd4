import PlusOne.Mutations.Conflicts

/-! # Runs in which a command meets nothing but serialization conflicts

A conflict is retried exactly when it reaches the runner raw. While those, and
conflicts at COMMIT, are the only failures a command's executions meet, it never
becomes execution_failed, whatever the executions of other commands do. -/

namespace PlusOne

open Interleaving Sys

/-! ## Failing a command -/

namespace Db

variable {db db' : Db} {key : CommandKey} {tx : Tx}

theorem NoneFails.commitTx : db.NoneFails (db.commitTx tx) := by
  intro row hrow hfailed
  obtain ⟨old, hold, rfl⟩ := List.mem_map.1 hrow
  unfold committedRow at hfailed ⊢
  split at hfailed
  · cases hfailed
  · rename_i hnot
    rwa [if_neg hnot]

/-- The command under `key` has not failed. -/
def Unfailed (db : Db) (key : CommandKey) : Prop :=
  ∀ row ∈ db.commands, row.key = key → row.status ≠ .execution_failed

theorem Unfailed.of_noneFails (h : db.Unfailed key) (hnone : db.NoneFails db') :
    db'.Unfailed key :=
  fun row hrow hkey hfailed => h row (hnone row hrow hfailed) hkey hfailed

/-- Failing another command, or one that is not pending, leaves this one alone. -/
theorem Unfailed.of_markExecutionFailed {other : CommandKey} {failureCode : String} {n : Nat}
    (h : db.Unfailed key)
    (hspared : other = key → ∀ row, db.findCommand key = some row → row.status ≠ .execution_pending)
    (hmark : db.markExecutionFailed other failureCode = .ok (n, db')) : db'.Unfailed key := by
  rcases updateCommand_step .failed (by decide) hmark with ⟨_, rfl, _⟩ |
    ⟨old, new, _, hfind, hstatus, hnew, rfl⟩
  · exact h
  have hnewkey : new.key = other := by
    rw [hnew]
    exact (findCommand_some hfind).2
  have hne : other ≠ key := by
    rintro rfl
    exact hspared rfl old hfind hstatus
  intro row hrow hkey
  obtain ⟨old', hold', hreplaced⟩ := List.mem_map.1 hrow
  split_ifs at hreplaced with hself
  · subst hreplaced
    exact absurd (hnewkey.symm.trans hkey) hne
  · subst hreplaced
    exact h old' hold' hkey

end Db

variable {ι : Type} [DecidableEq ι] {jsonIn : String → Option Json} {s s' : Sys ι} {i : ι}

/-- Whether this is a call that may fail the command under `key`. -/
def sparesKey (key : CommandKey) (_ : ι) (call : Call) (s : Sys ι) : Prop :=
  ∀ failureCode, call = .markExecutionFailed key failureCode →
    ∀ row, s.db.findCommand key = some row → row.status ≠ .execution_pending

theorem Sys.unfailed_of_call {key : CommandKey} {call : Call} {choice : Choice}
    {r : Except Thrown (Reply call)} (h : s.db.Unfailed key) (hspares : sparesKey key i call s)
    (hrun : s.run jsonIn i call choice = some (r, s')) : s'.db.Unfailed key := by
  by_cases hmarks : call.marksFailed = true
  · cases call <;> simp only [Call.marksFailed, Bool.false_eq_true] at hmarks
    rename_i other failureCode
    rcases updating_some hrun with ⟨rfl, _⟩ | ⟨_, n, db, hmark, rfl, _⟩
    · exact h
    · exact h.of_markExecutionFailed (fun heq => hspares failureCode (by rw [heq])) hmark
  · rw [Bool.not_eq_true] at hmarks
    refine h.of_noneFails ?_
    cases run_step hrun with
    | pool hpool => exact hpool.failed hmarks
    | ended | opened | looked | claimed | executed | receipted | detached => exact .same rfl
    | committed tx c htx hc => exact .commitTx

theorem Sys.unfailed_of_env {key : CommandKey} {move : Move ι} (h : s.db.Unfailed key)
    (hmove : s.env move = some s') : s'.db.Unfailed key := by
  refine h.of_noneFails ?_
  rcases env_step hmove with hpool | ⟨j, rfl⟩ | ⟨n, committed, hresolve⟩
  · exact hpool.failed rfl
  · exact .same rfl
  · obtain ⟨tx, htx, rfl⟩ := Option.map_eq_some_iff.1 hresolve
    cases committed
    · exact .same rfl
    · exact .commitTx

/-! ## The calls of an execution that fail a command -/

/-- The program fails no command but the one under `key`. -/
def FailsOnly {α : Type} (key : CommandKey) (p : Program α) : Prop :=
  p.Calls fun call => ∀ other failureCode, call = .markExecutionFailed other failureCode → other = key

theorem OnOperations.failsOnly {key : CommandKey} {α : Type} {p : Program α} (h : OnOperations p) :
    FailsOnly key p :=
  Prog.Calls.mono h fun call hcall => by
    rintro other failureCode rfl
    cases hcall.2

/-- An execution fails no command but its own. -/
theorem failsOnly_execute {exec : Executor} {command : CheckedCommand} :
    FailsOnly command.key (CheckedMutationExecutor.execute exec command) := by
  have hcovers : ∀ handler, Covers (fun call => ∀ other failureCode,
      call = .markExecutionFailed other failureCode → other = command.key) handler command := by
    refine fun handler => ⟨?_, ?_, ?_, ?_⟩
    · rintro call hpool other failureCode rfl
      cases hpool
    · rintro call hclient _ other failureCode rfl
      cases hclient
    · rintro other failureCode ⟨⟩
    · rintro failureCode other _ ⟨⟩
      rfl
  unfold CheckedMutationExecutor.execute parseCheckedCommand
  split
  · simp only [Prog.bind_eq, Prog.ret_bind]
    exact .bind getVerified_pool.onOperations.failsOnly fun artifact =>
      .bind assertExactArtifact_pool.onOperations.failsOnly fun _ =>
      .bind requireAcceptance_operations.failsOnly fun _ => .bind (.ofExcept _) fun prepared =>
      .bind register_pool.onOperations.failsOnly fun registered =>
      calls_executeRegistered (hcovers prepared.handler)
  · exact .throw _

/-! ## Runs -/

/-- The failures that the threads in `T` meet are conflicts that reach the runner raw, or conflicts
at COMMIT. -/
def conflictsOnly (jsonIn : String → Option Json) (T : ι → Prop) :
    Guard (mutationSystem ι jsonIn) where
  call i call choice s := T i → (conflictGuard ι jsonIn).call i call choice s
  env _ _ := True

variable {exec : ι → Executor} {candidate : ι → CheckedCommand} {key : CommandKey} {db : Db}
variable {c : Config ι Call Reply Thrown Verified (Sys ι)}

theorem executions_spec (i : ι) : Spec jsonIn i (Quiet i) (executions exec candidate i)
    (fun verified s => s.db.Receipted (candidate i).key verified.receipt) fun _ _ => True :=
  spec_execute

theorem conflictsOnly_execute :
    (sessionWith (conflictsOnly jsonIn fun i => (candidate i).key = key) (sparesKey key)).Triple i
      (Quiet i) (executions exec candidate i) (fun _ _ => True) fun _ _ => True := by
  by_cases hi : (candidate i).key = key
  · have hcall : ∀ call choice s,
        (conflictsOnly jsonIn fun i => (candidate i).key = key).call i call choice s →
          (conflictGuard ι jsonIn).call i call choice s := fun _ _ _ hG => hG hi
    have hexecute : SpecConflict jsonIn i (Quiet i) (executions exec candidate i) (fun _ _ => True)
        fun _ _ => True := conflict_execute
    refine (sessionWith_triple hcall
      (fun call s hspares failureCode hcall => hspares key failureCode hcall)
      (executions_spec i) hexecute).post ?_ ?_
    · exact fun _ _ _ _ => trivial
    · exact fun _ _ _ _ => trivial
  · have hother : (sessionUnder (conflictsOnly jsonIn fun i => (candidate i).key = key)
        (sparesKey key)).Triple i (Quiet i) (executions exec candidate i) (fun _ _ => True)
        fun _ _ => True := by
      refine (Discipline.Triple.of_calls failsOnly_execute (.pure True) ?_ ?_).pre
        fun _ _ _ => trivial
      · exact fun call hcall s _ _ failureCode heq => absurd (hcall key failureCode heq).symm hi
      · exact fun _ _ _ _ _ _ _ _ _ _ _ => trivial
    refine (sessionWith_triple (fun call choice s hG => hG) (fun call s hspares => hspares)
      (executions_spec i) hother).post ?_ ?_
    · exact fun _ _ _ _ => trivial
    · exact fun _ _ _ _ => trivial

theorem executions_conflictsOnly (hdb : db.Unexecuted)
    (hc : Reachable (conflictsOnly jsonIn fun i => (candidate i).key = key)
      (.initial (Sys.atRest db) (executions exec candidate)) c) :
    (sessionWith (conflictsOnly jsonIn fun i => (candidate i).key = key) (sparesKey key)).ConfigOk
      (fun _ _ _ => True) (fun _ _ _ => True) c := by
  refine Discipline.run (P := fun i => Quiet i) sessionWith_sound ?_ ?_ ?_ ?_
    (disciplined_atRest hdb) (fun i => quiet_atRest) (fun i => conflictsOnly_execute) hc
  · exact fun i verified => .pure True
  · exact fun i error => .pure True
  · exact fun _ _ _ _ _ => trivial
  · exact fun _ _ _ _ _ => trivial

theorem unfailed_of_conflictsOnly (hdb : db.Unexecuted)
    (hc : Reachable (conflictsOnly jsonIn fun i => (candidate i).key = key)
      (.initial (Sys.atRest db) (executions exec candidate)) c) : c.state.db.Unfailed key := by
  induction hc with
  | refl =>
    intro row hrow _ hfailed
    rw [hdb.registered row hrow] at hfailed
    cases hfailed
  | tail hprev hstep ih =>
    refine (executions_conflictsOnly hdb hprev).step_rel
      (T := fun s s' => s.db.Unfailed key → s'.db.Unfailed key) hstep ?_ ?_ ?_ ih
    · exact fun i call choice r s hallowed _ hrun h => unfailed_of_call h hallowed.2 hrun
    · exact fun i h => h
    · exact fun move s _ hmove h => unfailed_of_env h hmove

/-- A conflict of a run is retried, while attempts and time remain, exactly when its error reaches
the runner raw; and a command whose executions fail with nothing but such conflicts and conflicts
at COMMIT never becomes execution_failed. -/
theorem serialization_conflicts_retried (jsonIn : String → Option Json) (exec : ι → Executor)
    (candidate : ι → CheckedCommand) (key : CommandKey) (db : Db) (hdb : db.Unexecuted)
    (c : Config ι Call Reply Thrown Verified (Sys ι))
    (hc : Reachable (conflictsOnly jsonIn fun i => (candidate i).key = key)
      (.initial (Sys.atRest db) (executions exec candidate)) c) :
    (∀ (P : Platform) (policy : SerializableMutationPolicy) (input : RunInput),
      Retries policy ⟨none, 0⟩ (SerializableMutationRunner.run P policy input)) ∧
    ∀ row, c.state.db.findCommand key = some row → row.status ≠ .execution_failed := by
  refine ⟨fun P policy input => retries_run, fun row hrow => ?_⟩
  obtain ⟨hmem, hkey⟩ := Db.findCommand_some hrow
  exact unfailed_of_conflictsOnly hdb hc row hmem hkey

/-! ## Runs of the test command -/

/-- Whether a call, if it fails, fails with a conflict. -/
def failsWithConflict (jsonIn : String → Option Json) (i : ι) (call : Call) (choice : Choice)
    (s : Sys ι) : Bool :=
  match s.run jsonIn i call choice with
  | some (.error (.pg failure), _) => failure.code == some "40001"
  | some (.error _, _) => false
  | _ => true

/-- Whether the failure of a call, if it fails, is admitted by `conflictsOnly`. -/
def onlyConflicts (jsonIn : String → Option Json) (i : ι) (call : Call) (choice : Choice)
    (s : Sys ι) : Bool :=
  failsWithConflict jsonIn i call choice s &&
    match call, s.run jsonIn i call choice with
    | .handlerThrow _, _ => false
    | .commit, _ => true
    | call, some (.error _, _) => call.raisesRaw
    | _, _ => true

theorem conflictGuard_of_check {call : Call} {choice : Choice}
    (h : onlyConflicts jsonIn i call choice s = true) :
    (conflictGuard ι jsonIn).call i call choice s := by
  simp only [onlyConflicts, failsWithConflict, Bool.and_eq_true] at h
  obtain ⟨hconflict, hposition⟩ := h
  refine ⟨?_, fun e s' hrun => ?_⟩
  · rintro error rfl
    simp at hposition
  · rw [hrun] at hconflict hposition
    cases e with
    | pg failure =>
      refine ⟨?_, failure, rfl, by simpa using hconflict⟩
      cases call <;> simp_all [Call.raisesRaw]
    | plusOne error => cases hconflict
    | zodError => cases hconflict
    | error message => cases hconflict

namespace TestCommand

def conflict : PgFailure :=
  ⟨some "40001", none, "could not serialize access due to concurrent update"⟩

/-- The handler's INSERT meets a conflict in the first attempt; the second goes through. -/
def retried : List (Event (Fin 1) Choice (Move (Fin 1))) :=
  steps 0 17 ++ [.call 0 (.fault conflict .undone)] ++ steps 0 22 ++
    [.call 0 (.readbackId readbackId)] ++ steps 0 4 ++ [.finish 0]

theorem retried_verified :
    (((start 1).play (mutationSystem (Fin 1) platform.jsonIn) retried).bind fun c =>
      (c.threads 0).value?).isSome = true := by
  decide +kernel

theorem retried_passes :
    (start 1).passes (mutationSystem (Fin 1) platform.jsonIn) (onlyConflicts platform.jsonIn)
      retried = true := by
  decide +kernel

theorem serialization_conflicts_retried_verified :
    ∃ c verified, (start 1).play (mutationSystem (Fin 1) platform.jsonIn) retried = some c ∧
      c.threads 0 = .finished (.ok verified) ∧
      (∀ (P : Platform) (policy : SerializableMutationPolicy) (input : RunInput),
        Retries policy ⟨none, 0⟩ (SerializableMutationRunner.run P policy input)) ∧
      ∀ row, c.state.db.findCommand checkedCommand.key = some row →
        row.status ≠ .execution_failed := by
  obtain ⟨verified, hrun⟩ := Option.isSome_iff_exists.1 retried_verified
  obtain ⟨c, hc, hverified⟩ := Option.bind_eq_some_iff.1 hrun
  have hadmitted : Admitted (conflictsOnly platform.jsonIn fun _ => True) (start 1) retried :=
    .of_passes (fun i call choice s h _ => conflictGuard_of_check h) (fun _ _ _ => trivial)
      retried_passes
  have hreach : Reachable (conflictsOnly platform.jsonIn fun _ => checkedCommand.key =
      checkedCommand.key) (start 1) c := by
    simpa using Reachable.of_play hadmitted hc
  obtain ⟨hretries, hunfailed⟩ := serialization_conflicts_retried platform.jsonIn
    (fun _ => executor) (fun _ => checkedCommand) checkedCommand.key seeded seeded_unexecuted c
    hreach
  exact ⟨c, verified, hc, Thread.value?_eq_some.1 hverified, hretries, hunfailed⟩

/-- The claim call meets the only conflict of the run. -/
def claimConflict : List (Event (Fin 1) Choice (Move (Fin 1))) :=
  steps 0 15 ++ [.call 0 (.fault conflict .undone)] ++ steps 0 8 ++ [.finish 0]

/-- Nothing but one conflict, at the claim: it is not retried, though the policy has attempts left,
and the command is execution_failed. -/
theorem claimConflict_fatal :
    1 < executor.policy.maxAttempts ∧
    (start 1).passes (mutationSystem (Fin 1) platform.jsonIn) (failsWithConflict platform.jsonIn)
      claimConflict = true ∧
    (((start 1).play (mutationSystem (Fin 1) platform.jsonIn) claimConflict).bind fun c =>
      (c.state.db.findCommand checkedCommand.key).map CommandRow.status) =
        some .execution_failed := by
  decide +kernel

end TestCommand

end PlusOne
