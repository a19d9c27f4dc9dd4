import PlusOne.Mutations.Steps
import PlusOne.Verification.Runtime

/-! # The history of a task

What the log of a task has to look like, that every call of the ledger keeps it so as
long as the transition it asks for is an edge of the state machine, and that the
operations of the runtime and of the resolver ask for nothing else. -/

namespace PlusOne

open Interleaving

/-- The recorded transitions of a task, read as its history. -/
structure LegalHistory (rows : List TransitionRow) (task : TaskRow) : Prop where
  created : rows.head?.map TransitionRow.entry = some ⟨1, none, .created⟩
  contiguous : rows.map TransitionRow.sequence = List.range' 1 rows.length
  chained : rows.IsChain fun before after =>
    after.fromStatus = some before.toStatus ∧ AllowedTransition before.toStatus after.toStatus
  current : rows.getLast?.map TransitionRow.toStatus = some task.status
  terminal_at : task.terminalAt.isSome = true ↔ Db.isTerminalStatus task.status = true
  settled : ∀ row ∈ rows, ∀ status, row.fromStatus = some status →
    Db.isTerminalStatus status = false

/-- The tables satisfy their unique and foreign keys, and every task has walked a legal path. -/
structure Ledger.Legal (l : Ledger) : Prop where
  unique : (l.db.tasks.map TaskRow.taskId).Nodup
  owned : ∀ row ∈ l.transitions, ∃ task ∈ l.db.tasks, task.key = row.key
  path : ∀ task ∈ l.db.tasks, LegalPath AllowedTransition .created
    ((l.historyOf task.key).map TransitionRow.entry) task.status
  terminal_at : ∀ task ∈ l.db.tasks, task.terminalAt.isSome = Db.isTerminalStatus task.status

theorem Ledger.Legal.history {l : Ledger} (h : l.Legal) {task : TaskRow}
    (htask : task ∈ l.db.tasks) : LegalHistory (l.historyOf task.key) task := by
  have hpath := h.path task htask
  refine ⟨?_, ?_, ?_, ?_, ?_, ?_⟩
  · have hhead := hpath.head
    rwa [List.head?_map] at hhead
  · have hsequences := hpath.sequences
    rw [List.map_map, List.length_map] at hsequences
    exact hsequences
  · have hchained := hpath.chained
    rw [List.isChain_map] at hchained
    exact hchained
  · have hlast := hpath.getLast_target
    rw [List.getLast?_map, Option.map_map] at hlast
    exact hlast
  · rw [h.terminal_at task htask]
  · intro row hrow status hstatus
    have hentry : row.entry ∈ (l.historyOf task.key).map TransitionRow.entry :=
      List.mem_map_of_mem hrow
    have hedge : AllowedTransition status row.toStatus := hpath.edge hentry hstatus
    exact hedge.not_terminal

/-! ## Replacing and adding rows -/

namespace Db

variable {db : Db} {key : TaskKey}

theorem findTask_some (key : TaskKey) {task : TaskRow} (h : db.findTask key.1 key.2 = some task) :
    task ∈ db.tasks ∧ task.key = key := by
  have hmem : task ∈ db.tasks := List.mem_of_find?_eq_some h
  have hkey := List.find?_some h
  simp only [Bool.and_eq_true, beq_iff_eq] at hkey
  exact ⟨hmem, Prod.ext hkey.1 hkey.2⟩

theorem mem_replaceTask {new task : TaskRow} (h : task ∈ (db.replaceTask new).tasks) :
    (task = new ∧ ∃ old ∈ db.tasks, old.key = new.key) ∨ (task ∈ db.tasks ∧ task.key ≠ new.key) := by
  simp only [replaceTask, List.mem_map] at h
  obtain ⟨old, hold, rfl⟩ := h
  by_cases hkey : old.key = new.key
  · have hids : old.householdId = new.householdId ∧ old.taskId = new.taskId := by
      simpa [TaskRow.key] using hkey
    rw [if_pos hids]
    exact .inl ⟨rfl, old, hold, hkey⟩
  · have hids : ¬(old.householdId = new.householdId ∧ old.taskId = new.taskId) := by
      simpa [TaskRow.key] using hkey
    rw [if_neg hids]
    exact .inr ⟨hold, hkey⟩

theorem keys_replaceTask (new : TaskRow) :
    (db.replaceTask new).tasks.map TaskRow.key = db.tasks.map TaskRow.key := by
  simp only [replaceTask, List.map_map]
  apply List.map_congr_left
  intro old _
  simp only [Function.comp_apply]
  split_ifs with hids
  · simp [TaskRow.key, hids]
  · rfl

end Db

namespace Ledger

variable {l l' : Ledger}

theorem Legal.of_keys {db : Db} {transitions : List TransitionRow} (h : l.Legal)
    (hkeys : db.tasks.map TaskRow.key = l.db.tasks.map TaskRow.key)
    (howned : ∀ row ∈ transitions, ∃ task ∈ l.db.tasks, task.key = row.key)
    (hpath : ∀ task ∈ db.tasks, LegalPath AllowedTransition .created
      (((⟨db, transitions⟩ : Ledger).historyOf task.key).map TransitionRow.entry) task.status)
    (hterminal : ∀ task ∈ db.tasks, task.terminalAt.isSome = Db.isTerminalStatus task.status) :
    (⟨db, transitions⟩ : Ledger).Legal := by
  refine ⟨?_, ?_, hpath, hterminal⟩
  · have hids : db.tasks.map TaskRow.taskId = l.db.tasks.map TaskRow.taskId := by
      have hmap := congrArg (List.map Prod.snd) hkeys
      simpa only [List.map_map, Function.comp_def, TaskRow.key] using hmap
    simpa only [hids] using h.unique
  · intro row hrow
    obtain ⟨task, htask, hkey⟩ := howned row hrow
    have hmem : task.key ∈ db.tasks.map TaskRow.key := by
      rw [hkeys]
      exact List.mem_map_of_mem htask
    obtain ⟨other, hother, hsame⟩ := List.mem_map.1 hmem
    exact ⟨other, hother, hsame.trans hkey⟩

/-- Changing a task without moving it keeps the ledger legal. -/
theorem Legal.touch (h : l.Legal) {task new : TaskRow} (htask : task ∈ l.db.tasks)
    (hkey : new.key = task.key) (hstatus : new.status = task.status)
    (hterminal : new.terminalAt = task.terminalAt) :
    ({ l with db := l.db.replaceTask new } : Ledger).Legal := by
  apply h.of_keys (Db.keys_replaceTask new) h.owned
  · intro row hrow
    rcases Db.mem_replaceTask hrow with ⟨rfl, _⟩ | ⟨hold, _⟩
    · rw [hkey, hstatus]
      exact h.path task htask
    · exact h.path row hold
  · intro row hrow
    rcases Db.mem_replaceTask hrow with ⟨rfl, _⟩ | ⟨hold, _⟩
    · rw [hterminal, hstatus]
      exact h.terminal_at task htask
    · exact h.terminal_at row hold

theorem Legal.congr {db : Db} (h : l.Legal) (htasks : db.tasks = l.db.tasks) :
    ({ l with db } : Ledger).Legal :=
  ⟨by rw [htasks]; exact h.unique, by rw [htasks]; exact h.owned, by rw [htasks]; exact h.path,
    by rw [htasks]; exact h.terminal_at⟩

theorem historyOf_append (row : TransitionRow) (key : TaskKey) :
    ({ l with transitions := l.transitions ++ [row] } : Ledger).historyOf key =
      l.historyOf key ++ if row.key = key then [row] else [] := by
  simp only [historyOf, List.filter_append, List.filter_cons, List.filter_nil, beq_iff_eq]

theorem insertTransition_ok {row : TransitionRow} (h : l.insertTransition row = .ok l') :
    l' = { l with transitions := l.transitions ++ [row] } := by
  unfold insertTransition at h
  split_ifs at h
  cases h
  rfl

/-! ## One call -/

theorem createTask_ok {input : CreateTaskRecord} {result : Option TaskRow}
    (h : l.createTask input = .ok (result, l')) :
    l' = l ∨ ∃ task row, task.taskId = input.taskId ∧ task.key = row.key ∧
      (∀ old ∈ l.db.tasks, old.taskId ≠ input.taskId) ∧ task.status = .created ∧
      task.terminalAt = none ∧ task.currentMakerArtifact = none ∧ row.entry = ⟨1, none, .created⟩ ∧
      l' = ⟨{ l.db with tasks := l.db.tasks ++ [task] }, l.transitions ++ [row]⟩ := by
  unfold createTask at h
  simp only [bind, Except.bind, pure, Except.pure, throw, throwThe, MonadExceptOf.throw] at h
  split at h
  · cases h
  split at h
  · cases h
    exact .inl rfl
  split at h
  · cases h
  split at h
  · cases h
  rename_i hfresh
  split at h
  · cases h
  split at h
  · cases h
  rename_i created hinsert
  cases h
  have hfree : ∀ old ∈ l.db.tasks, old.taskId ≠ input.taskId := by simpa using hfresh
  exact .inr ⟨_, _, rfl, rfl, hfree, rfl, rfl, rfl, rfl, insertTransition_ok hinsert⟩

/-- A transition that is not refused moves a task that is where it was expected, and logs it. -/
theorem transition_ok {input : Db.TransitionRecord} {outcome : Db.TransitionOutcome}
    (h : l.transition input = .ok (outcome, l')) :
    l' = l ∨ ∃ current ∈ l.db.tasks, current.key = input.key ∧
      current.status = input.expectedFrom ∧ Db.isTerminalStatus input.toStatus = input.terminal ∧
      l' = ⟨l.db.replaceTask (l.db.movedTask current input),
        l.transitions ++ [l.loggedRow input]⟩ := by
  unfold transition at h
  simp only [bind, Except.bind, pure, Except.pure] at h
  split at h
  · cases h
  rename_i result hdb
  obtain ⟨done, db⟩ := result
  rcases Db.transition_ok hdb with ⟨rfl, _, _⟩ | ⟨current, _, _, rfl, _⟩ |
    ⟨current, hfind, hfrom, rfl, rfl⟩
  · cases h
    exact .inl rfl
  · cases h
    exact .inl rfl
  · simp only at h
    split at h
    · cases h
    rename_i logged hinsert
    cases h
    obtain ⟨hmem, hkey⟩ := Db.findTask_some input.key hfind
    have hterminal : Db.isTerminalStatus input.toStatus = input.terminal := by
      unfold Db.transition at hdb
      simp only [hfind, hfrom, ne_eq, not_true_eq_false, if_false] at hdb
      by_contra hne
      simp [hne] at hdb
    refine .inr ⟨current, hmem, hkey, hfrom, hterminal, ?_⟩
    rw [insertTransition_ok hinsert]

theorem Legal.createTask {input : CreateTaskRecord} {result : Option TaskRow} (h : l.Legal)
    (hcreate : l.createTask input = .ok (result, l')) : l'.Legal := by
  obtain rfl | ⟨task, row, hid, hkey, hfree, hstatus, hterminal, _, hentry, rfl⟩ :=
    createTask_ok hcreate
  · exact h
  have hnew : ∀ old ∈ l.db.tasks, old.key ≠ row.key := by
    intro old hold hsame
    have hids : old.taskId = task.taskId := congrArg Prod.snd (hsame.trans hkey.symm)
    exact hfree old hold (hids.trans hid)
  refine ⟨?_, ?_, ?_, ?_⟩
  · simp only [List.map_append, List.map_cons, List.map_nil]
    rw [List.nodup_append]
    refine ⟨h.unique, List.nodup_singleton _, ?_⟩
    intro id hold other hother
    obtain ⟨old, hmem, rfl⟩ := List.mem_map.1 hold
    rw [List.mem_singleton.1 hother, hid]
    exact hfree old hmem
  · intro logged hlogged
    rcases List.mem_append.1 hlogged with hold | hlast
    · obtain ⟨owner, howner, hsame⟩ := h.owned logged hold
      exact ⟨owner, List.mem_append_left _ howner, hsame⟩
    · rw [List.mem_singleton.1 hlast]
      exact ⟨task, List.mem_append_right _ (List.mem_singleton.2 rfl), hkey⟩
  · intro other hother
    rw [historyOf_append (l := { l with db := { l.db with tasks := l.db.tasks ++ [task] } })]
    rcases List.mem_append.1 hother with hold | hlast
    · rw [if_neg (hnew other hold).symm, List.append_nil]
      exact h.path other hold
    · have hempty : l.historyOf task.key = [] := by
        rw [historyOf, List.filter_eq_nil_iff]
        intro logged hlogged hsame
        obtain ⟨owner, howner, howned⟩ := h.owned logged hlogged
        have hkeys : logged.key = task.key := by simpa using hsame
        exact hnew owner howner (howned.trans (hkeys.trans hkey))
      have hhistory : Ledger.historyOf { l with db := { l.db with tasks := l.db.tasks ++ [task] } }
          task.key = [] := hempty
      rw [List.mem_singleton.1 hlast, hhistory, if_pos hkey.symm, hstatus]
      simp only [List.nil_append, List.map_cons, List.map_nil, hentry]
      exact .created
  · intro other hother
    rcases List.mem_append.1 hother with hold | hlast
    · exact h.terminal_at other hold
    · rw [List.mem_singleton.1 hlast, hterminal, hstatus]
      rfl

theorem Legal.transition {input : Db.TransitionRecord} {outcome : Db.TransitionOutcome}
    (h : l.Legal) (hedge : AllowedTransition input.expectedFrom input.toStatus)
    (hmove : l.transition input = .ok (outcome, l')) : l'.Legal := by
  obtain rfl | ⟨current, hmem, hkey, hfrom, hterminal, rfl⟩ := transition_ok hmove
  · exact h
  have hrow : (l.loggedRow input).key = input.key := rfl
  have hpath := h.path current hmem
  have hmoved : (l.db.movedTask current input).key = input.key := hkey
  apply h.of_keys (Db.keys_replaceTask _)
  · intro logged hlogged
    rcases List.mem_append.1 hlogged with hold | hlast
    · exact h.owned logged hold
    · rw [List.mem_singleton.1 hlast, hrow]
      exact ⟨current, hmem, hkey⟩
  · intro task htask
    have hhistory : Ledger.historyOf
        ⟨l.db.replaceTask (l.db.movedTask current input), l.transitions ++ [l.loggedRow input]⟩
        task.key = l.historyOf task.key ++
          if (l.loggedRow input).key = task.key then [l.loggedRow input] else [] :=
      historyOf_append (l.loggedRow input) task.key
    rw [hhistory]
    rcases Db.mem_replaceTask htask with ⟨rfl, _⟩ | ⟨hold, hne⟩
    · rw [if_pos (hrow.trans hmoved.symm), hmoved, List.map_append, List.map_cons, List.map_nil]
      rw [hkey, hfrom] at hpath
      have hnext : l.nextSequence input.key =
          ((l.historyOf input.key).map TransitionRow.entry).length + 1 := by
        have hlength := hpath.next_sequence
        rw [List.map_map] at hlength
        exact hlength
      have hentry : (l.loggedRow input).entry =
          .next ((l.historyOf input.key).map TransitionRow.entry) input.expectedFrom input.toStatus := by
        simp only [TransitionRow.entry, loggedRow, hnext, Entry.next]
      rw [hentry]
      exact hpath.moved hedge
    · rw [hmoved] at hne
      rw [if_neg (fun hsame => hne (hsame.symm.trans hrow)), List.append_nil]
      exact h.path task hold
  · intro task htask
    rcases Db.mem_replaceTask htask with ⟨rfl, _⟩ | ⟨hold, _⟩
    · simp only [Db.movedTask, hterminal]
      split_ifs with hset <;> simp [hset]
    · exact h.terminal_at task hold

theorem Legal.selectExecutionContract {input : ContractSelection} {n : Nat} (h : l.Legal)
    (hselect : l.selectExecutionContract input = .ok (n, l')) : l'.Legal := by
  unfold Ledger.selectExecutionContract at hselect
  split at hselect
  · cases hselect
    exact h
  rename_i task hfind
  split_ifs at hselect
  · cases hselect
    exact h
  · cases hselect
    have htask := (Db.findTask_some (input.householdId, input.taskId) hfind).1
    exact h.touch htask rfl rfl rfl

theorem Legal.linkMakerArtifact {key : TaskKey} {artifactId : ArtifactId}
    {artifactHash : ArtifactHash} {n : Nat} (h : l.Legal)
    (hlink : l.linkMakerArtifact key artifactId artifactHash = .ok (n, l')) : l'.Legal := by
  unfold Ledger.linkMakerArtifact at hlink
  split at hlink
  · cases hlink
    exact h
  rename_i db hdb
  split_ifs at hlink
  cases hlink
  unfold Db.linkMakerArtifact at hdb
  split at hdb
  · rename_i task hfind
    split_ifs at hdb
    cases hdb
    exact h.touch (Db.findTask_some _ hfind).1 rfl rfl rfl
  · cases hdb

theorem Legal.recordCheckerVerdict {key : TaskKey} {checkerArtifactId : ArtifactId}
    {verdict : CheckerVerdict} {outcome : VerdictOutcome} (h : l.Legal)
    (hrecord : l.recordCheckerVerdict key checkerArtifactId verdict = .ok (outcome, l')) :
    l'.Legal := by
  unfold Ledger.recordCheckerVerdict at hrecord
  split at hrecord
  · cases hrecord
    exact h
  split at hrecord
  · cases hrecord
    exact h
  split at hrecord
  · rename_i db hdb
    cases hrecord
    obtain ⟨task, linked, hfind, _, _, rfl, hstep⟩ := Db.recordCheckerVerdict_some hdb
    have htask : task ∈ l.db.tasks := (Db.findTask_some _ hfind).1
    have htouched : ({ l with db := l.db.replaceTask { task with
        currentCheckerArtifactId := some checkerArtifactId, updatedAt := l.db.now } } :
        Ledger).Legal := h.touch htask rfl rfl rfl
    rcases hstep with rfl | ⟨_, rfl⟩
    · exact htouched
    · exact htouched.congr rfl
  · split_ifs at hrecord
    cases hrecord
    exact h

theorem Legal.insertArtifact {artifact : ArtifactEnvelope} {n : Nat} (h : l.Legal)
    (hinsert : l.insertArtifact artifact = .ok (n, l')) : l'.Legal := by
  unfold Ledger.insertArtifact at hinsert
  split_ifs at hinsert
  · cases hinsert
    exact h
  · cases hinsert
    exact h.congr rfl

end Ledger

/-- The only calls that can break a history are transitions off the table. -/
def LedgerCall.Allowed : LedgerCall → Prop
  | .transition input => AllowedTransition input.expectedFrom input.toStatus
  | _ => True

/-- The spec of all calls of the runtime: an allowed one keeps the ledger legal. -/
theorem Ledger.Legal.perform {l l' : Ledger} {call : LedgerCall} {reply : LedgerReply call}
    (h : l.Legal) (hallowed : call.Allowed) (hperform : call.perform l = .ok (reply, l')) :
    l'.Legal := by
  cases call with
  | createTask input => exact h.createTask hperform
  | selectExecutionContract input => exact h.selectExecutionContract hperform
  | linkMakerArtifact key artifactId artifactHash => exact h.linkMakerArtifact hperform
  | recordCheckerVerdict key checkerArtifactId verdict => exact h.recordCheckerVerdict hperform
  | transition input => exact h.transition hallowed hperform
  | findTask key =>
    cases hperform
    exact h
  | insertArtifact artifact => exact h.insertArtifact hperform
  | findByTaskAndHash key artifactHash =>
    cases hperform
    exact h

/-! ## The programs -/

/-- What every thread keeps to: the transitions it asks for are edges of the state machine. -/
def AnyCall.Allowed : AnyCall → Prop
  | .inl call => call.Allowed
  | .inr (.transition input _) => AllowedTransition input.expectedFrom input.toStatus
  | .inr _ => True

section Programs

variable {α : Type} {key : TaskKey}

theorem ask_allowed {call : LedgerCall} (h : call.Allowed) : (ask call).Calls AnyCall.Allowed :=
  .perform h

theorem alignmentOf_allowed (command : MutationCommandRecord) :
    AllowedTransition (alignmentOf command).expectedFrom (alignmentOf command).toStatus := by
  unfold alignmentOf
  split <;> rfl

theorem issue_allowed {call : Call} (h : AnyCall.Allowed (.inr call)) :
    (issue call).Calls fun call => AnyCall.Allowed (.inr call) := .perform h

theorem reconcileOnce_allowed (key : CommandKey) (attempt : Nat) :
    (reconcileOnce key attempt).Calls fun call => AnyCall.Allowed (.inr call) := by
  have hfind : (findByCommandId key).Calls fun call => AnyCall.Allowed (.inr call) :=
    .bind (issue_allowed trivial) fun row => .ret _
  refine .bind hfind fun found => ?_
  cases found with
  | none => exact .throw _
  | some command =>
    refine .bind (issue_allowed trivial) fun task => ?_
    cases task with
    | none => exact .throw _
    | some task =>
      have halign : (alignTask command ⟨attempt, command.status⟩ task.status).Calls
          fun call => AnyCall.Allowed (.inr call) := by
        unfold alignTask
        simp only
        split
        · refine .bind (.bind (issue_allowed (alignmentOf_allowed command)) fun outcome => ?_)
            fun row => .ret _
          cases outcome with
          | notFound => exact .throw _
          | stale actual => exact .throw _
          | done task => exact .ret _
        · split
          · exact .throw _
          · exact .ret _
      refine .bind halign fun _ => ?_
      unfold settle
      split
      · have hmark : (markExecutionPending key ⟨attempt, command.status⟩).Calls
            fun call => AnyCall.Allowed (.inr call) := by
          refine .bind (issue_allowed trivial) fun rowCount => ?_
          split
          · exact .throw _
          · exact .ret _
        refine .bind hmark fun _ => .bind hfind fun updated => ?_
        cases updated with
        | none => exact .throw _
        | some updated => exact .ret _
      · exact .ret _

theorem reconcile_allowed (key : CommandKey) :
    (reconcile key).Calls fun call => AnyCall.Allowed (.inr call) := by
  have hfrom : ∀ left attempt, (reconcileFrom key attempt left).Calls
      fun call => AnyCall.Allowed (.inr call) := by
    intro left
    induction left with
    | zero => exact fun attempt => reconcileOnce_allowed key attempt
    | succ left ih =>
      intro attempt
      refine .tryCatch (reconcileOnce_allowed key attempt) fun error => ?_
      split
      · exact ih (attempt + 1)
      · exact .throw _
  exact hfrom 2 1

theorem findLatestVerdict_allowed :
    ((findLatestVerdict key.1 key.2).inr : LedgerProgram (Option CheckerVerdict)).Calls
      AnyCall.Allowed := by
  apply Prog.Calls.inr
  refine .bind (issue_allowed trivial) fun row => ?_
  cases row with
  | none => exact .ret _
  | some row =>
    simp only
    split
    · exact .throw _
    · split
      · exact .throw _
      · exact .ret _

namespace VerificationRuntime

theorem transition_allowed {input : Db.TransitionRecord}
    (h : AllowedTransition input.expectedFrom input.toStatus) :
    (VerificationLedger.transition input).Calls AnyCall.Allowed := by
  have hcall : (LedgerCall.transition input).Allowed := h
  refine .bind (ask_allowed hcall) fun outcome => ?_
  cases outcome with
  | notFound => exact .throw _
  | stale actual => exact .throw _
  | done task => exact .ret _

theorem move_allowed {source target : TaskStatus} {reasonCode : String} {options : MoveOptions} :
    (move key source target reasonCode options).Calls AnyCall.Allowed := by
  unfold move
  cases hassert : assertAllowedTransition source target with
  | error e => exact .throw e
  | ok u =>
    have hedge : AllowedTransition source target := assertAllowedTransition_ok hassert
    exact transition_allowed hedge

theorem requireTask_allowed : (requireTask key).Calls AnyCall.Allowed := by
  refine .bind (ask_allowed trivial) fun task => ?_
  cases task with
  | none => exact .throw _
  | some task => exact .ret _

theorem requireStatus_allowed {expected : TaskStatus} :
    (requireStatus key expected).Calls AnyCall.Allowed := by
  refine .bind requireTask_allowed fun task => ?_
  split
  · exact .throw _
  · exact .ret _

theorem save_allowed {P : Platform} {artifact : ArtifactEnvelope} :
    (ArtifactStore.save P artifact).Calls AnyCall.Allowed := by
  unfold ArtifactStore.save
  split
  · exact .throw _
  refine .tryCatch (.bind (.bind (ask_allowed trivial) fun rowCount => ?_) fun _ => .ret _)
    fun error => ?_
  · split
    · exact .throw _
    · exact .ret _
  · unfold ArtifactStore.existing
    split
    · exact .throw _
    refine .bind (ask_allowed trivial) fun existing => ?_
    cases existing with
    | none => exact .throw _
    | some existing => exact .ret _

theorem selectContract_allowed {policies : List PolicyIdentity} {input : ContractSelection} :
    (selectContract policies input).Calls AnyCall.Allowed := by
  refine .bind (.ofExcept _) fun policy => .bind (.bind (ask_allowed trivial) fun rowCount => ?_)
    fun _ => move_allowed
  split
  · exact .throw _
  · exact .ret _

theorem beginMaker_allowed : (beginMaker key).Calls AnyCall.Allowed := by
  refine .bind requireTask_allowed fun task => ?_
  split
  · exact .throw _
  · exact move_allowed

theorem validateMaker_allowed {P : Platform} {artifactId : ArtifactId} {schema : SchemaIdentity}
    {payload : Json} : (validateMaker P key artifactId schema payload).Calls AnyCall.Allowed := by
  refine .bind requireStatus_allowed fun task => .bind (.ofExcept _) fun artifact =>
    .bind save_allowed fun stored => .bind (.bind (ask_allowed trivial) fun rowCount => ?_)
      fun _ => .bind move_allowed fun _ => .ret _
  split
  · exact .throw _
  · exact .ret _

theorem validateChecker_allowed {P : Platform} {checkerArtifactId : ArtifactId} {payload : Json} :
    (validateChecker P key checkerArtifactId payload).Calls AnyCall.Allowed := by
  refine .bind requireStatus_allowed fun task => .bind (.ofExcept _) fun verdict =>
    .bind (.ofExcept _) fun artifact => .bind save_allowed fun stored =>
      .bind (.bind (ask_allowed trivial) fun outcome => ?_) fun _ => .bind move_allowed
        fun _ => .ret _
  cases outcome with
  | notFound => exact .throw _
  | coverageMismatch => exact .throw _
  | conflict => exact .throw _
  | recorded => exact .ret _

theorem requestRevision_allowed : (requestRevision key).Calls AnyCall.Allowed := by
  refine .bind findLatestVerdict_allowed fun verdict => ?_
  split
  · exact .throw _
  · exact move_allowed

theorem complete_allowed {completion : Completion} :
    (complete key completion).Calls AnyCall.Allowed := by
  refine .bind requireTask_allowed fun task => .bind findLatestVerdict_allowed fun verdict => ?_
  split
  · exact .throw _
  · exact move_allowed

end VerificationRuntime

open VerificationRuntime

/-- Whatever drives a task asks for edges of the state machine only. -/
theorem TaskOperation.program_allowed (P : Platform) (policies : List PolicyIdentity)
    (operation : TaskOperation) : (operation.program P policies).Calls AnyCall.Allowed := by
  cases operation with
  | createTask input =>
    refine .bind (.bind (ask_allowed trivial) fun inserted => ?_) fun _ => .ret _
    cases inserted with
    | none => exact .throw _
    | some task => exact .ret _
  | selectContract input => exact .bind selectContract_allowed fun _ => .ret _
  | beginMaker key => exact .bind beginMaker_allowed fun _ => .ret _
  | validateMaker key artifactId schema payload => exact .bind validateMaker_allowed fun _ => .ret _
  | beginChecker key => exact .bind move_allowed fun _ => .ret _
  | validateChecker key checkerArtifactId verdict =>
    exact .bind validateChecker_allowed fun _ => .ret _
  | requestRevision key => exact .bind requestRevision_allowed fun _ => .ret _
  | complete key completion => exact .bind complete_allowed fun _ => .ret _
  | fail key expectedFrom failureCategory resumable => exact .bind move_allowed fun _ => .ret _
  | reconcile key => exact .bind (.inr (reconcile_allowed key)) fun _ => .ret _

end Programs

end PlusOne
