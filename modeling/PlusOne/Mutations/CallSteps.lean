import PlusOne.Mutations.Steps

/-! # What each call does to the sessions -/

namespace PlusOne

/-- The calls that go to the runner's client; all others leave the sessions alone. -/
def Call.onClient : Call → Bool
  | .connect _ | .begin | .setTimeouts _ _ _ | .claim _ | .handlerCall _ _ | .statement _ _
  | .commitCommand _ | .commit | .rollback | .release => true
  | _ => false

/-- The one call that moves a command to execution_failed. -/
def Call.marksFailed : Call → Bool
  | .markExecutionFailed _ _ => true
  | _ => false

namespace Sys

variable {ι : Type} [DecidableEq ι] {α : Type} {s s' : Sys ι} {i j : ι}

/-- Thread `i` has no open transaction. -/
def Quiet (i : ι) (s : Sys ι) : Prop := ∀ tx, s.conn i ≠ .active tx

/-- What a statement of the operations pool can do; `fails` when it is the one that fails a command. -/
structure PoolStep (fails : Bool) (s s' : Sys ι) : Prop where
  conn : s'.conn = s.conn
  locks : s'.locks = s.locks
  inflight : s'.inflight = s.inflight
  receipts : s'.db.receipts = s.db.receipts
  effects : s'.db.effects = s.db.effects
  commands : Db.CommandsStep (fun key => s.locks key = none) s.db s'.db
  failed : fails = false → s.db.NoneFails s'.db

variable {fails : Bool}

theorem PoolStep.refl (s : Sys ι) : PoolStep fails s s :=
  ⟨rfl, rfl, rfl, rfl, rfl, .same rfl, fun _ => .same rfl⟩

/-- Everything one call of thread `i` can do. -/
inductive CallStep (s : Sys ι) (i : ι) : Call → Sys ι → Prop
  | pool {call s'} (h : PoolStep call.marksFailed s s') : CallStep s i call s'
  | ended {call} (c : Connection) (hc : ∀ tx, c ≠ .active tx) : CallStep s i call (s.endTx i c)
  | opened {call} (h : Quiet i s) : CallStep s i call (s.setTx i .fresh)
  | looked {call} (tx : Tx) (statements : List Query) (h : s.conn i = .active tx) :
    CallStep s i call
      (s.setTx i { tx with snapshot := some (tx.snapshot.getD s.db), statements })
  | claimed {call} (tx : Tx) (key : CommandKey) (row : CommandRow) (h : s.conn i = .active tx)
      (hsnapshot : (tx.snapshot.getD s.db).findCommand key = some row)
      (hstatus : row.status ∈ claimable) (hfree : s.lockedByOther i key = false)
      (hcurrent : s.db.findCommand key = some row) :
    CallStep s i call ((s.lock i key).setTx i
      { tx with snapshot := some (tx.snapshot.getD s.db), claimed := key :: tx.claimed })
  | executed {handler command} (tx : Tx) (h : s.conn i = .active tx) :
    CallStep s i (.handlerCall handler command)
      (s.setTx i { tx with executed := tx.executed ++ [command.key] })
  | receipted {input} (tx : Tx) (row : CommandRow) (receipt : ReceiptRow)
      (h : s.conn i = .active tx)
      (hsnapshot : (tx.snapshot.getD s.db).findCommand input.key = some row)
      (hstatus : row.status ∈ claimable) (hfree : s.lockedByOther i input.key = false)
      (hcurrent : s.db.findCommand input.key = some row) (hkey : receipt.key = input.key) :
    CallStep s i (.commitCommand input) ((s.lock i input.key).setTx i
      { tx with
        snapshot := some (tx.snapshot.getD s.db)
        claimed := input.key :: tx.claimed, receipts := tx.receipts ++ [receipt] })
  | committed (tx : Tx) (c : Connection) (h : s.conn i = .active tx) (hc : ∀ tx, c ≠ .active tx) :
    CallStep s i .commit ({ s with db := s.db.commitTx tx }.endTx i c)
  | detached (tx : Tx) (h : s.conn i = .active tx) : CallStep s i .commit (s.detach i tx)

/-! ## The operations pool -/

variable {choice : Choice} {r : Except Thrown α}

theorem autocommit_some {f : Db → Except PgFailure (α × Db)} (h : s.autocommit f choice = some (r, s')) :
    (s' = s ∧ ∃ e, r = .error (.pg e)) ∨
    ∃ a db, f s.db = .ok (a, db) ∧ s' = { s with db } ∧ (r = .ok a ∨ ∃ e, r = .error (.pg e)) := by
  unfold autocommit at h
  split at h
  · split at h
    · rename_i a db hf
      cases h
      exact .inr ⟨a, db, hf, rfl, .inl rfl⟩
    · rename_i e hf
      cases h
      exact .inl ⟨rfl, e, rfl⟩
  · rename_i e
    cases h
    exact .inl ⟨rfl, e, rfl⟩
  · rename_i e
    split at h
    · rename_i a db hf
      cases h
      exact .inr ⟨a, db, hf, rfl, .inr ⟨e, rfl⟩⟩
    · cases h
  · cases h

theorem select_some {f : Db → α} (h : s.select f choice = some (r, s')) :
    s' = s ∧ (r = .ok (f s.db) ∨ ∃ e, r = .error (.pg e)) := by
  rcases autocommit_some h with ⟨rfl, e, rfl⟩ | ⟨a, db, hf, rfl, hr⟩
  · exact ⟨rfl, .inr ⟨e, rfl⟩⟩
  · cases hf
    exact ⟨rfl, hr⟩

theorem updating_some {key : CommandKey} {status : CommandStatus} {f : Db → Except PgFailure (α × Db)}
    (h : s.updating key status f choice = some (r, s')) :
    (s' = s ∧ ∃ e, r = .error (.pg e)) ∨
    ((s.db.findCommand key).any (fun row => row.status == status) = true → s.locks key = none) ∧
    ∃ a db, f s.db = .ok (a, db) ∧ s' = { s with db } ∧ (r = .ok a ∨ ∃ e, r = .error (.pg e)) := by
  unfold updating at h
  split at h
  · rename_i e
    cases h
    exact .inl ⟨rfl, e, rfl⟩
  · split at h
    · cases h
    · rename_i hfree
      refine (autocommit_some h).imp_right fun hdone => ⟨fun hstatus => ?_, hdone⟩
      simpa [hstatus] using hfree

theorem PoolStep.of_db {db : Db} (hreceipts : db.receipts = s.db.receipts) (heffects : db.effects = s.db.effects)
    (hcommands : Db.CommandsStep (fun key => s.locks key = none) s.db db)
    (hfailed : fails = false → s.db.NoneFails db) :
    PoolStep fails s { s with db } := ⟨rfl, rfl, rfl, hreceipts, heffects, hcommands, hfailed⟩

theorem PoolStep.of_select {f : Db → α} (h : s.select f choice = some (r, s')) : PoolStep fails s s' := by
  rw [(select_some h).1]
  exact .refl s

theorem PoolStep.of_update {key : CommandKey} {expected status : CommandStatus}
    {failureCode : CommandRow → Option String} {r : Except Thrown Nat} (hedge : StatusEdge expected status)
    (hcommitted : status ≠ .committed) (hfails : fails = false → status ≠ .execution_failed)
    (h : s.updating key expected (·.updateCommand key expected status failureCode) choice =
      some (r, s')) : PoolStep fails s s' := by
  rcases updating_some h with ⟨rfl, _⟩ | ⟨hfree, n, db, hf, rfl, _⟩
  · exact .refl s'
  · have hstep : Db.CommandsStep (fun key => s.locks key = none) s.db db :=
      .of_update hedge hcommitted hfree hf
    have hfailed := fun h => Db.NoneFails.of_update hedge hcommitted (hfails h) hf
    rcases Db.updateCommand_ok hf with ⟨_, rfl, _⟩ | ⟨_, _, _, _, _, _, rfl⟩ <;>
      exact .of_db rfl rfl hstep hfailed

theorem PoolStep.of_readback {householdId : HouseholdId} {result : ReadbackResult} {r : Except Thrown Nat}
    (h : s.updating (householdId, result.commandId) .committed
      (·.recordReadback householdId result) choice = some (r, s')) : PoolStep fails s s' := by
  rcases updating_some h with ⟨rfl, _⟩ | ⟨hfree, n, db, hf, rfl, _⟩
  · exact .refl s'
  · have hstep : Db.CommandsStep (fun key => s.locks key = none) s.db db := .of_readback hfree hf
    have hfailed := Db.NoneFails.of_readback hf
    rcases Db.recordReadback_ok hf with ⟨_, rfl⟩ | ⟨_, _, _, _, _, _, _, _, _, _, rfl⟩ <;>
      exact .of_db rfl rfl hstep fun _ => hfailed

variable {jsonIn : String → Option Json}

theorem PoolStep.of_insert {input : CheckedCommand} {confirmationRequired : Bool}
    {r : Except Thrown (Option CommandRow)}
    (h : s.autocommit (·.insertCommand jsonIn input confirmationRequired) choice =
      some (r, s')) : PoolStep fails s s' := by
  rcases autocommit_some h with ⟨rfl, _⟩ | ⟨row, db, hf, rfl, _⟩
  · exact .refl s'
  · have hstep : Db.CommandsStep (fun key => s.locks key = none) s.db db := .of_insert hf
    have hfailed := Db.NoneFails.of_insert hf
    rcases Db.insertCommand_ok hf with ⟨_, rfl, _⟩ | ⟨_, _, _, _, _, _, rfl⟩ <;>
      exact .of_db rfl rfl hstep fun _ => hfailed

theorem PoolStep.of_transition {input : Db.TransitionRecord} {r : Except Thrown Db.TransitionOutcome}
    (h : s.autocommit (·.transition input) choice = some (r, s')) : PoolStep fails s s' := by
  rcases autocommit_some h with ⟨rfl, _⟩ | ⟨outcome, db, hf, rfl, _⟩
  · exact .refl s'
  · rcases Db.transition_ok hf with ⟨_, rfl, _⟩ | ⟨_, _, _, _, rfl⟩ | ⟨_, _, _, _, rfl⟩ <;>
      exact .of_db rfl rfl (.same rfl) fun _ => .same rfl

theorem PoolStep.of_plain {a : α} (h : s.plain a s choice = some (r, s')) : PoolStep fails s s' := by
  unfold plain at h
  split at h
  · cases h; exact .refl s
  · cases h; exact .refl s
  · cases h

theorem inProcess_some {a : α} {s₁ : Sys ι} (h : inProcess a s₁ choice = some (r, s')) : r = .ok a ∧ s' = s₁ := by
  unfold inProcess at h
  split at h
  · cases h; exact ⟨rfl, rfl⟩
  · cases h

theorem readRows_some {r : Except Thrown (List Json)} (h : s.readRows choice = some (r, s')) : s' = s := by
  unfold readRows at h
  split at h <;> cases h <;> rfl

theorem newReadbackId_some {r : Except Thrown MutationReadbackId} (h : s.newReadbackId choice = some (r, s')) :
    s' = s := by
  unfold newReadbackId at h
  split at h <;> cases h
  rfl

theorem run_pool {call : Call} {r : Except Thrown (Reply call)} (hpool : call.onClient = false)
    (h : s.run jsonIn i call choice = some (r, s')) : PoolStep call.marksFailed s s' := by
  cases call with
  | findLatestVerdict householdId taskId =>
    simp only [run, Option.map_eq_some_iff] at h
    obtain ⟨⟨r', s₁⟩, hselect, hr⟩ := h
    have hs := (select_some hselect).1
    subst hs
    cases r' with
    | ok row =>
      cases hr
      exact ⟨rfl, rfl, rfl, rfl, rfl, .same rfl, fun _ => .same rfl⟩
    | error e =>
      cases hr
      exact .refl _
  | findArtifact | findByIdempotency | findCommand | findReceipt | findReadback | findTask =>
    exact .of_select h
  | insertCommand => exact .of_insert h
  | markExecutionPending => exact .of_update .pending (by decide) (fun _ => by decide) h
  | markExecutionFailed => exact .of_update .failed (by decide) (fun h => by cases h) h
  | recordReadback => exact .of_readback h
  | transition => exact .of_transition h
  | readConnect => exact .of_plain h
  | readQuery => rw [readRows_some h]; exact .refl s
  | now | sleep | handlerThrow => rw [(inProcess_some h).2]; exact .refl s
  | newReadbackId => rw [newReadbackId_some h]; exact .refl s
  | connect | begin | setTimeouts | claim | handlerCall | statement | commitCommand | commit
  | rollback | release => simp [Call.onClient] at hpool

/-! ## The runner's client -/

theorem quiet_endTx {c : Connection} (hc : ∀ tx, c ≠ .active tx) : Quiet i (s.endTx i c) := by
  intro tx
  simpa [endTx] using hc tx

/-- A failed statement leaves the thread without a transaction. -/
def Failed (s : Sys ι) (i : ι) (s' : Sys ι) : Prop :=
  Quiet i s' ∧ (s' = s ∨ ∃ c, (∀ tx, c ≠ .active tx) ∧ s' = s.endTx i c)

theorem Failed.callStep {call : Call} (h : Failed s i s') : CallStep s i call s' := by
  rcases h.2 with rfl | ⟨c, hc, rfl⟩
  · exact .pool (.refl _)
  · exact .ended c hc

theorem failed_abort (s : Sys ι) (i : ι) : Failed s i (s.abort i) := by
  unfold abort
  split
  · exact ⟨quiet_endTx (by simp), .inr ⟨_, by simp, rfl⟩⟩
  · rename_i hconn
    exact ⟨fun tx htx => hconn tx htx, .inl rfl⟩

theorem failed_sever (s : Sys ι) (i : ι) : Failed s i (s.sever i) :=
  ⟨quiet_endTx (by simp), .inr ⟨.lost, by simp, rfl⟩⟩

theorem inTransaction_some {f : Tx → Option (Except PgFailure (α × Sys ι))}
    (h : s.inTransaction i f choice = some (r, s')) :
    ((∃ e, r = .error e) ∧ Failed s i s') ∨
    ∃ tx a, s.conn i = .active tx ∧ f tx = some (.ok (a, s')) ∧ r = .ok a := by
  unfold inTransaction at h
  split at h
  · cases h
    exact .inl ⟨⟨_, rfl⟩, failed_abort s i⟩
  · cases h
    exact .inl ⟨⟨_, rfl⟩, failed_sever s i⟩
  · cases h
  · split at h
    · rename_i tx htx
      split at h
      · rename_i a s₁ hf
        cases h
        exact .inr ⟨tx, a, htx, hf, rfl⟩
      · cases h
        exact .inl ⟨⟨_, rfl⟩, failed_abort s i⟩
      · cases h
    · rename_i hconn
      cases h
      exact .inl ⟨⟨_, rfl⟩, fun tx htx => by simp [hconn] at htx, .inl rfl⟩
    · cases h

theorem claim_ok {key : CommandKey} {tx : Tx}
    {a : Option (CommandStatus × Option MutationReceiptId)}
    (h : s.claim i key tx = some (.ok (a, s'))) :
    (a = none ∧ (∀ row, (tx.snapshot.getD s.db).findCommand key = some row →
        row.status ∉ claimable) ∧
      s' = s.setTx i { tx with snapshot := some (tx.snapshot.getD s.db) }) ∨
    ∃ row, a = some (row.status,
        ((tx.snapshot.getD s.db).findReceipt key).map ReceiptRow.receiptId) ∧
      (tx.snapshot.getD s.db).findCommand key = some row ∧ row.status ∈ claimable ∧
      s.lockedByOther i key = false ∧ s.db.findCommand key = some row ∧
      s' = (s.lock i key).setTx i
        { tx with snapshot := some (tx.snapshot.getD s.db), claimed := key :: tx.claimed } := by
  unfold claim at h
  simp only at h
  split at h
  · rename_i hnone
    cases h
    refine .inl ⟨rfl, fun row hrow => ?_, rfl⟩
    simpa [hrow, Option.filter_eq_none_iff] using hnone
  · rename_i row hrow
    rw [Option.filter_eq_some_iff] at hrow
    split at h
    · cases h
    rename_i hfree
    split at h
    · cases h
    rename_i hcurrent
    cases h
    exact .inr ⟨row, rfl, hrow.1, by simpa using hrow.2, by simpa using hfree,
      not_not.1 hcurrent, rfl⟩

/-- The receipt that `commit_mutation_command` inserts. -/
def receiptOf (s : Sys ι) (input : CommitInput) : ReceiptRow :=
  { receiptId := input.receiptId, householdId := input.key.1, commandId := input.key.2
    committedRecords := input.committedRecords, expectedState := input.expectedState.jsonb
    expectedStateHash := input.expectedStateHash, committedAt := s.db.now }

theorem commitCommand_ok {input : CommitInput} {tx : Tx} {a : MutationReceiptId × UtcInstant}
    (h : s.commitCommand i input tx = some (.ok (a, s'))) :
    ∃ row, a = (input.receiptId, s.db.now) ∧
      (tx.snapshot.getD s.db).findCommand input.key = some row ∧
      row.status = .execution_pending ∧ s.lockedByOther i input.key = false ∧
      s.db.findCommand input.key = some row ∧
      (∀ receipt ∈ s.db.receipts, receipt.receiptId ≠ input.receiptId) ∧
      input.committedRecords ≠ [] ∧
      s' = (s.lock i input.key).setTx i
        { tx with
          snapshot := some (tx.snapshot.getD s.db), claimed := input.key :: tx.claimed
          receipts := tx.receipts ++ [s.receiptOf input] } := by
  unfold commitCommand at h
  simp only at h
  split at h
  · cases h
  rename_i row hrow
  rw [Option.filter_eq_some_iff] at hrow
  split at h
  · cases h
  rename_i hfree
  split at h
  · cases h
  rename_i hcurrent
  split at h
  · cases h
  rename_i hpublic
  split at h
  · cases h
  split at h
  · cases h
  rename_i hrecords
  cases h
  refine ⟨row, rfl, hrow.1, ?_, by simpa using hfree, not_not.1 hcurrent, by simpa using hpublic,
    by simpa using hrecords, rfl⟩
  have hstatus := hrow.2
  rw [Bool.and_eq_true, beq_iff_eq] at hstatus
  exact hstatus.1

theorem commit_some {r : Except Thrown Unit} (h : s.commit i choice = some (r, s')) :
    (∃ e, r = .error e ∧ Failed s i s') ∨
    (Quiet i s ∧ s' = s.endTx i .idle ∧ (s.conn i = .aborted ∨ s.conn i = .idle)) ∨
    ∃ tx, s.conn i = .active tx ∧
      ((r = .ok () ∧ s' = { s with db := s.db.commitTx tx }.endTx i .idle) ∨
        (∃ e, r = .error e ∧ s' = { s with db := s.db.commitTx tx }.endTx i .lost) ∨
        ∃ e, r = .error e ∧ s' = s.detach i tx) := by
  unfold commit at h
  split at h
  · split at h
    · rename_i tx htx
      cases h
      exact .inr (.inr ⟨tx, htx, .inl ⟨rfl, rfl⟩⟩)
    · rename_i hconn
      cases h
      exact .inr (.inl ⟨fun tx htx => by simp [hconn] at htx, rfl, .inl hconn⟩)
    · rename_i hconn
      cases h
      exact .inr (.inl ⟨fun tx htx => by simp [hconn] at htx, rfl, .inr hconn⟩)
    · cases h
  · cases h
    exact .inl ⟨_, rfl, quiet_endTx (by simp), .inr ⟨_, by simp, rfl⟩⟩
  · split at h
    · rename_i tx htx
      cases h
      exact .inr (.inr ⟨tx, htx, .inr (.inl ⟨_, rfl, rfl⟩)⟩)
    · cases h
  · split at h
    · rename_i tx htx
      cases h
      exact .inr (.inr ⟨tx, htx, .inr (.inr ⟨_, rfl, rfl⟩)⟩)
    · cases h
  · cases h
    exact .inl ⟨_, rfl, failed_sever s i⟩
  · cases h

theorem begin_some {r : Except Thrown Unit} (h : s.begin i choice = some (r, s')) :
    (r = .ok () ∧ s.conn i = .idle ∧ s' = s.setTx i .fresh) ∨
    (r = .ok () ∧ ((∃ tx, s.conn i = .active tx) ∨ s.conn i = .aborted) ∧ s' = s) ∨
    ∃ e, r = .error e ∧ (s' = s ∨ s' = s.sever i) := by
  unfold begin at h
  split at h
  · split at h
    · rename_i hconn
      cases h
      exact .inl ⟨rfl, hconn, rfl⟩
    · rename_i tx hconn
      cases h
      exact .inr (.inl ⟨rfl, .inl ⟨tx, hconn⟩, rfl⟩)
    · rename_i hconn
      cases h
      exact .inr (.inl ⟨rfl, .inr hconn, rfl⟩)
    · cases h
  · cases h
    exact .inr (.inr ⟨_, rfl, .inl rfl⟩)
  · cases h
    exact .inr (.inr ⟨_, rfl, .inr rfl⟩)
  · cases h

theorem rollback_some {r : Except Thrown Unit} (h : s.rollback i choice = some (r, s')) :
    ∃ c, (∀ tx, c ≠ .active tx) ∧ s' = s.endTx i c := by
  unfold rollback at h
  split at h
  · split at h
    · cases h
    · cases h
    · cases h
      exact ⟨.idle, by simp, rfl⟩
  · cases h
    exact ⟨.lost, by simp, rfl⟩
  · cases h

theorem connect_some {r : Except Thrown Unit} (h : s.plain () (s.endTx i .idle) choice = some (r, s')) :
    s' = s.endTx i .idle ∧ r = .ok () ∨ s' = s ∧ ∃ e, r = .error e := by
  unfold plain at h
  split at h
  · cases h; exact .inl ⟨rfl, rfl⟩
  · cases h; exact .inr ⟨rfl, _, rfl⟩
  · cases h

/-- One call does one of the things `CallStep` lists. -/
theorem run_step {call : Call} {r : Except Thrown (Reply call)} (h : s.run jsonIn i call choice = some (r, s')) :
    CallStep s i call s' := by
  cases call with
  | connect role =>
    rcases connect_some h with ⟨rfl, _⟩ | ⟨rfl, _⟩
    · exact .ended .idle (by simp)
    · exact .pool (.refl s')
  | begin =>
    rcases begin_some h with ⟨_, hconn, rfl⟩ | ⟨_, _, rfl⟩ | ⟨_, _, rfl | rfl⟩
    · exact .opened fun tx htx => by simp [hconn] at htx
    · exact .pool (.refl s')
    · exact .pool (.refl s')
    · exact .ended .lost (by simp)
  | setTimeouts =>
    rcases inTransaction_some (f := s.look i) h with ⟨_, hfailed⟩ | ⟨tx, a, htx, hf, rfl⟩
    · exact hfailed.callStep
    · cases hf
      exact .looked tx tx.statements htx
  | claim key =>
    rcases inTransaction_some h with ⟨_, hfailed⟩ | ⟨tx, a, htx, hf, rfl⟩
    · exact hfailed.callStep
    · rcases claim_ok hf with ⟨_, _, rfl⟩ | ⟨row, _, hsnapshot, hstatus, hfree, hcurrent, rfl⟩
      · exact .looked tx tx.statements htx
      · exact .claimed tx key row htx hsnapshot hstatus hfree hcurrent
  | handlerCall handler command =>
    obtain ⟨_, hs⟩ := inProcess_some h
    split at hs
    · rename_i tx htx
      subst hs
      exact .executed tx htx
    · subst hs
      exact .pool (.refl _)
  | statement layer query =>
    rcases inTransaction_some (f := s.statement i query choice.answer) h with ⟨_, hfailed⟩ | ⟨tx, a, htx, hf, rfl⟩
    · exact hfailed.callStep
    · cases hf
      exact .looked tx (tx.statements ++ [query]) htx
  | commitCommand input =>
    rcases inTransaction_some h with ⟨_, hfailed⟩ | ⟨tx, a, htx, hf, rfl⟩
    · exact hfailed.callStep
    · obtain ⟨row, _, hsnapshot, hstatus, hfree, hcurrent, _, _, rfl⟩ := commitCommand_ok hf
      exact .receipted tx row _ htx hsnapshot (by simp [hstatus, claimable]) hfree hcurrent rfl
  | commit =>
    rcases commit_some h with ⟨_, _, hfailed⟩ | ⟨_, rfl, _⟩ | ⟨tx, htx, hcommit⟩
    · exact hfailed.callStep
    · exact .ended .idle (by simp)
    · rcases hcommit with ⟨_, rfl⟩ | ⟨_, _, rfl⟩ | ⟨_, _, rfl⟩
      · exact .committed tx .idle htx (by simp)
      · exact .committed tx .lost htx (by simp)
      · exact .detached tx htx
  | rollback =>
    obtain ⟨c, hc, rfl⟩ := rollback_some h
    exact .ended c hc
  | release =>
    rw [(inProcess_some h).2]
    exact .ended .closed (by simp)
  | findArtifact | findLatestVerdict | findByIdempotency | findCommand | findReceipt | findReadback
  | findTask | insertCommand | markExecutionPending | markExecutionFailed | recordReadback
  | transition | readConnect | readQuery | now | sleep | newReadbackId | handlerThrow =>
    exact .pool (run_pool rfl h)

end Sys

end PlusOne
