import PlusOne.Interleaving.RelyGuarantee
import PlusOne.Mutations.ExactlyOnce
import PlusOne.Mutations.Review
import PlusOne.Verification.TaskHistory

/-! # Histories in runs

The ledger logs a transition in the transaction that moves the task, and nothing else
moves a task. So the log of every task is a legal path to its status, in whatever order
operations, crashes and lost replies come. -/

namespace PlusOne

open Interleaving

/-! ## Everything else leaves the tasks alone -/

namespace Sys

variable {ι : Type} [DecidableEq ι] {s s' : Sys ι} {i : ι} {jsonIn : String → Option Json}

theorem run_tasks {call : Call} {choice : Choice} {r : Except Thrown (Reply call)}
    (hcall : call.movesTask = false) (h : s.run jsonIn i call choice = some (r, s')) :
    s'.db.tasks = s.db.tasks := by
  by_cases hclient : call.onClient = true
  · obtain ⟨_, hdb | ⟨tx, hdb⟩⟩ := run_client hclient h <;> rw [hdb]
    rfl
  cases call with
  | transition input site => cases hcall
  | findLatestVerdict householdId taskId =>
    rcases findLatestVerdict_read h with ⟨rfl, _⟩ | ⟨_, rfl⟩ <;> rfl
  | findArtifact | findByIdempotency | findCommand | findReceipt | findReadback | findTask =>
    rw [(select_some h).1]
  | insertCommand input confirmationRequired =>
    rcases autocommit_some (f := (·.insertCommand jsonIn input confirmationRequired)) h with
      ⟨rfl, _⟩ | ⟨row, db, hf, rfl, _⟩
    · rfl
    · rcases Db.insertCommand_ok hf with ⟨_, rfl, _⟩ | ⟨_, _, _, _, _, _, rfl⟩ <;> rfl
  | markExecutionPending key site =>
    rcases updating_some (f := (·.markExecutionPending key)) h with ⟨rfl, _⟩ | ⟨_, n, db, hf, rfl, _⟩
    · rfl
    · rcases Db.updateCommand_ok hf with ⟨_, rfl, _⟩ | ⟨_, _, _, _, _, _, rfl⟩ <;> rfl
  | markExecutionFailed key failureCode =>
    rcases updating_some (f := (·.markExecutionFailed key failureCode)) h with
      ⟨rfl, _⟩ | ⟨_, n, db, hf, rfl, _⟩
    · rfl
    · rcases Db.updateCommand_ok hf with ⟨_, rfl, _⟩ | ⟨_, _, _, _, _, _, rfl⟩ <;> rfl
  | recordReadback householdId result =>
    rcases updating_some (f := (·.recordReadback householdId result)) h with
      ⟨rfl, _⟩ | ⟨_, n, db, hf, rfl, _⟩
    · rfl
    · rcases Db.recordReadback_ok hf with ⟨_, rfl⟩ | ⟨_, _, _, _, _, _, _, _, _, _, rfl⟩ <;> rfl
  | readConnect role => rw [plain_same h]
  | readQuery query => rw [readRows_some h]
  | now | sleep | handlerThrow => rw [(inProcess_some h).2]
  | newReadbackId => rw [newReadbackId_some h]
  | connect | begin | setTimeouts | claim | handlerCall | statement | commitCommand | commit
  | rollback | release => exact absurd rfl hclient

theorem env_tasks {move : Move ι} (hmove : move.onTask = false) (h : s.env move = some s') :
    s'.db.tasks = s.db.tasks := by
  cases move with
  | tick milliseconds =>
    cases h
    rfl
  | disconnect i =>
    cases h
    rfl
  | resolve n committed =>
    obtain ⟨tx, _, rfl⟩ := Option.map_eq_some_iff.1 h
    cases committed <;> rfl
  | createHousehold householdId =>
    obtain ⟨db, hdb, rfl⟩ := Option.map_eq_some_iff.1 h
    split_ifs at hdb
    cases hdb
    rfl
  | saveArtifact artifact =>
    obtain ⟨db, hdb, rfl⟩ := Option.map_eq_some_iff.1 h
    unfold Db.saveArtifact at hdb
    split_ifs at hdb
    cases hdb
    rfl
  | recordConfirmation row =>
    obtain ⟨db, hdb, rfl⟩ := Option.map_eq_some_iff.1 h
    unfold Db.recordConfirmation at hdb
    split_ifs at hdb
    cases hdb
    rfl
  | createTask | transitionTask | linkMakerArtifact | recordCheckerVerdict => cases hmove

end Sys

/-! ## Steps of the ledger system -/

namespace LedgerSys

variable {ι : Type} {s s' : LedgerSys ι} {jsonIn : String → Option Json}

/-- The ledger is legal, and so is every call still on its way. -/
structure Legal (s : LedgerSys ι) : Prop where
  ledger : s.ledger.Legal
  inflight : ∀ call ∈ s.inflight, call.Allowed

theorem Legal.withSys {sys : Sys ι} (h : s.Legal) (htasks : sys.db.tasks = s.sys.db.tasks) :
    ({ s with sys } : LedgerSys ι).Legal :=
  ⟨h.ledger.congr htasks, h.inflight⟩

theorem perform_some {call : LedgerCall} {choice : Choice} {r : Except Thrown (LedgerReply call)}
    (h : s.perform call choice = some (r, s')) :
    s' = s ∨ s' = { s with inflight := s.inflight ++ [call] } ∨
      ∃ a l, call.perform s.ledger = .ok (a, l) ∧ s' = s.withLedger l := by
  unfold perform at h
  split at h
  · cases h
    exact .inl rfl
  split_ifs at h
  split at h
  · rename_i hok _
    cases h
    exact .inr (.inr ⟨_, _, hok, rfl⟩)
  · cases h
    exact .inl rfl
  · rename_i hok _
    cases h
    exact .inr (.inr ⟨_, _, hok, rfl⟩)
  · cases h
    exact .inr (.inl rfl)
  · cases h

theorem Legal.perform {call : LedgerCall} {choice : Choice} {r : Except Thrown (LedgerReply call)}
    (h : s.Legal) (hallowed : call.Allowed) (hperform : s.perform call choice = some (r, s')) :
    s'.Legal := by
  rcases perform_some hperform with rfl | rfl | ⟨a, l, hok, rfl⟩
  · exact h
  · refine ⟨h.ledger, ?_⟩
    intro other hother
    rcases List.mem_append.1 hother with hold | hlast
    · exact h.inflight other hold
    · rw [List.mem_singleton.1 hlast]
      exact hallowed
  · exact ⟨h.ledger.perform hallowed hok, h.inflight⟩

theorem Legal.resolve {n : Nat} {committed : Bool} (h : s.Legal)
    (hresolve : s.resolve n committed = some s') : s'.Legal := by
  obtain ⟨call, hcall, rfl⟩ := Option.map_eq_some_iff.1 hresolve
  have hmem : call ∈ s.inflight := List.mem_of_getElem? hcall
  have hrest : ∀ other ∈ s.inflight.eraseIdx n, other.Allowed :=
    fun other hother => h.inflight other (List.mem_of_mem_eraseIdx hother)
  simp only
  split_ifs
  · split
    · rename_i a l hok
      exact ⟨h.ledger.perform (h.inflight call hmem) hok, hrest⟩
    · exact ⟨h.ledger, hrest⟩
  · exact ⟨h.ledger, hrest⟩

variable [DecidableEq ι]

theorem Legal.run {i : ι} {call : AnyCall} {choice : Choice} {r : Except Thrown (AnyReply call)}
    (h : s.Legal) (hallowed : call.Allowed) (hrun : s.run jsonIn i call choice = some (r, s')) :
    s'.Legal := by
  cases call with
  | inl call => exact h.perform hallowed hrun
  | inr call =>
    by_cases hmoves : call.movesTask = true
    · cases call with
      | transition input site =>
        have hcall : (LedgerCall.transition input).Allowed := hallowed
        exact h.perform hcall hrun
      | _ => cases hmoves
    · have hother : ∃ x, s.sys.run jsonIn i call choice = some x ∧ s' = { s with sys := x.2 } := by
        cases call with
        | transition input site => exact absurd rfl hmoves
        | _ =>
          obtain ⟨x, hx, hs⟩ := Option.map_eq_some_iff.1 hrun
          exact ⟨x, hx, (congrArg Prod.snd hs).symm⟩
      obtain ⟨⟨r', sys⟩, hsys, rfl⟩ := hother
      exact h.withSys (Sys.run_tasks (Bool.eq_false_of_not_eq_true hmoves) hsys)

theorem Legal.env {move : LedgerMove ι} (h : s.Legal) (hmove : s.env jsonIn move = some s') :
    s'.Legal := by
  cases move with
  | call i call choice =>
    simp only [LedgerSys.env] at hmove
    split_ifs at hmove with hmoves
    obtain ⟨⟨r, sys⟩, hsys, rfl⟩ := Option.map_eq_some_iff.1 hmove
    exact h.withSys (Sys.run_tasks (Bool.eq_false_of_not_eq_true hmoves) hsys)
  | outside move =>
    simp only [LedgerSys.env] at hmove
    split_ifs at hmove with hmoves
    obtain ⟨sys, hsys, rfl⟩ := Option.map_eq_some_iff.1 hmove
    exact h.withSys (Sys.env_tasks (Bool.eq_false_of_not_eq_true hmoves) hsys)
  | resolve n committed => exact h.resolve hmove

end LedgerSys

/-! ## Runs -/

variable {ι : Type} [DecidableEq ι]

/-- Legal histories as the invariant; threads rely on nothing and may ask for edges only. -/
def historyDiscipline (ι : Type) [DecidableEq ι] (jsonIn : String → Option Json) :
    Discipline (ledgerSystem ι jsonIn) (.all _) where
  Inv := LedgerSys.Legal
  rely := fun _ _ _ => True
  allowed := fun _ call _ => call.Allowed
  rely_refl := fun _ _ => trivial
  rely_trans := fun _ _ => trivial

theorem historyDiscipline_sound (jsonIn : String → Option Json) :
    (historyDiscipline ι jsonIn).Sound where
  inv_call := fun hInv hallowed _ hrun => LedgerSys.Legal.run hInv hallowed hrun
  rely_call := fun _ _ _ _ _ => trivial
  inv_env := fun hInv _ henv => LedgerSys.Legal.env hInv henv
  rely_env := fun _ _ _ => trivial
  inv_leave := fun hInv => hInv
  rely_leave := fun _ _ => trivial

/-- In every run of runtime operations and reconciliations, the recorded transitions of every task
are a legal path to its status. -/
theorem task_history_legal (P : Platform) (policies : List PolicyIdentity)
    (operations : ι → TaskOperation) {s₀ : LedgerSys ι} (h₀ : s₀.Legal)
    {c : Config ι AnyCall AnyReply Thrown Unit (LedgerSys ι)}
    (hrun : Reachable (.all (ledgerSystem ι P.jsonIn))
      (.initial s₀ fun i => (operations i).program P policies) c) :
    ∀ task ∈ c.state.sys.db.tasks, LegalHistory (c.state.ledger.historyOf task.key) task := by
  have hsound := historyDiscipline_sound (ι := ι) P.jsonIn
  have htriple : ∀ i, (historyDiscipline ι P.jsonIn).Triple i (fun _ => True)
      ((operations i).program P policies) (fun _ _ => True) (fun _ _ => True) := by
    intro i
    have hcalls := (operations i).program_allowed P policies
    exact Discipline.Triple.of_calls hcalls (fun _ _ _ _ _ => trivial)
      (fun _ hcall _ _ _ => hcall) (fun _ _ _ _ _ _ _ _ _ _ _ => trivial)
  have hok := Discipline.run hsound (fun _ _ _ _ _ _ _ => trivial) (fun _ _ _ _ _ _ _ => trivial)
    (fun _ _ _ _ _ => trivial) (fun _ _ _ _ _ => trivial) h₀ (fun _ => trivial) htriple hrun
  have hlegal : c.state.Legal := hok.1
  exact fun task htask => hlegal.ledger.history htask

/-! ## A run with a crash, a lost reply and a stale expectation -/

namespace TestCommand

/-- One household and no task yet. -/
def unused : LedgerSys (Fin 3) where
  sys := .atRest
    { households := [householdId], artifacts := [], verdicts := [], confirmations := [], tasks := []
      commands := [], receipts := [], readbacks := [], effects := [], now := 0 }
  transitions := []
  inflight := []

theorem unused_legal : unused.Legal := by
  refine ⟨⟨?_, ?_, ?_, ?_⟩, ?_⟩ <;> simp [unused, LedgerSys.ledger, Sys.atRest]

def policy : PolicyIdentity := ⟨"default-policy", 1⟩

/-- The task is created, then one caller selects its contract while another fails it. -/
def rivals : Fin 3 → TaskOperation
  | 0 => .createTask ⟨householdId, taskId, none, 3⟩
  | 1 => .selectContract ⟨householdId, taskId, ⟨"skill", 1, proposalHash.hex⟩, schema, schema, policy⟩
  | 2 => .fail (householdId, taskId) .created "runtime_failure" false

attribute [local instance] Interleaving.threeThreads in
/-- The creator crashes, and the reply to the failing transition is lost before it commits. -/
def rivalry : List (Event (Fin 3) Choice (LedgerMove (Fin 3))) :=
  [.call 0 .normal, .crash 0, .call 1 .normal,
    .call 2 (.fault ⟨some "08006", none, "connection failure"⟩ .pending), .finish 2,
    .env (.resolve 0 true), .call 1 .normal, .finish 1]

theorem task_history_legal_rivalry :
    ∃ c, (Config.initial unused fun i => (rivals i).program platform [policy]).play
        (ledgerSystem (Fin 3) platform.jsonIn) rivalry = some c ∧
      c.state.sys.db.tasks.map TaskRow.status = [.failed] ∧
      ∀ task ∈ c.state.sys.db.tasks, LegalHistory (c.state.ledger.historyOf task.key) task := by
  have hplayed : (((Config.initial unused fun i => (rivals i).program platform [policy]).play
      (ledgerSystem (Fin 3) platform.jsonIn) rivalry).map fun c =>
        c.state.sys.db.tasks.map TaskRow.status) = some [.failed] := by
    decide +kernel
  obtain ⟨c, hc, hstatus⟩ := Option.map_eq_some_iff.1 hplayed
  exact ⟨c, hc, hstatus,
    task_history_legal platform [policy] rivals unused_legal (.of_play_all hc)⟩

end TestCommand

end PlusOne
