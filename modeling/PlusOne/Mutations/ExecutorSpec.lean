import PlusOne.Mutations.RunnerSpec

/-! # What an execution returns

`execute` registers its command before it runs anything, and every receipt it handles,
whether the runner built it or the repository read it, is the one in the database. -/

namespace PlusOne

open Interleaving Sys

variable {ι : Type} [DecidableEq ι] {jsonIn : String → Option Json} {i : ι}
variable {P : Platform} {command : CheckedCommand} {prepared : PreparedCommand}

/-! ## Registration -/

/-- The database has the command of `record`, at its status or further along. -/
def Db.Recorded (db : Db) (record : MutationCommandRecord) : Prop :=
  ∃ old row, record = mapCommand old ∧ db.findCommand record.key = some row ∧
    row.SameIdentity old ∧ Relation.ReflTransGen StatusEdge old.status row.status

variable {record : MutationCommandRecord}

theorem lasting_recorded : Lasting (·.Recorded record) := by
  rintro db db' hextends ⟨old, row, hrecord, hrow, hid, hstatus⟩
  obtain ⟨row', hrow', hid', hstatus'⟩ := hextends.commands _ _ hrow
  exact ⟨old, row', hrecord, hrow', hid.trans hid', hstatus.trans hstatus'⟩

theorem Db.recorded_of_mem {db : Db} {row : CommandRow} (h : db.UniqueCommands)
    (hrow : row ∈ db.commands) : db.Recorded (mapCommand row) :=
  ⟨row, row, rfl, h.find hrow, rfl, .refl⟩

variable {confirmationRequired : Bool}

theorem Db.Recorded.registers {db : Db} (h : db.Recorded record)
    (hhousehold : record.householdId = command.householdId)
    (hidempotency : record.idempotencyKey = command.idempotencyKey)
    (henvelope : sameEnvelope P record command confirmationRequired = true) :
    db.Registers command := by
  obtain ⟨old, row, rfl, hrow, hid, _⟩ := h
  simp only [sameEnvelope, Bool.and_eq_true, beq_iff_eq] at henvelope
  obtain ⟨⟨⟨⟨⟨⟨⟨⟨⟨hcommand, htask⟩, htype⟩, hproposal⟩, hhash⟩, _⟩, _⟩, _⟩, _⟩, _⟩ := henvelope
  have hkey : (mapCommand old).key = command.key := Prod.ext hhousehold hcommand
  rw [hkey] at hrow
  exact ⟨row, hrow, CommandRow.Names.of_identity ⟨htask, htype, hproposal, hhash, hidempotency⟩ hid⟩

theorem sameEnvelope_commandId (h : sameEnvelope P record command confirmationRequired = true) :
    record.commandId = command.commandId := by
  simp only [sameEnvelope, Bool.and_eq_true, beq_iff_eq] at h
  exact h.1.1.1.1.1.1.1.1.1

/-- A record found under an idempotency key. -/
def Db.Replays (db : Db) (householdId : HouseholdId) (idempotencyKey : IdempotencyKey)
    (record : MutationCommandRecord) : Prop :=
  db.Recorded record ∧ record.householdId = householdId ∧ record.idempotencyKey = idempotencyKey

theorem Db.findByIdempotency_some {db : Db} {householdId : HouseholdId}
    {idempotencyKey : IdempotencyKey} {row : CommandRow}
    (h : db.findByIdempotency householdId idempotencyKey = some row) :
    row ∈ db.commands ∧ row.householdId = householdId ∧ row.idempotencyKey = idempotencyKey := by
  have hkeys := List.find?_some h
  rw [Bool.and_eq_true, beq_iff_eq, beq_iff_eq] at hkeys
  exact ⟨List.mem_of_find?_eq_some h, hkeys⟩

theorem spec_findByIdempotency {householdId : HouseholdId} {idempotencyKey : IdempotencyKey} :
    Spec jsonIn i (Quiet i) (findByIdempotency householdId idempotencyKey)
      (fun found s => Quiet i s ∧ ∀ record, found = some record →
        s.db.Replays householdId idempotencyKey record) fun _ => Quiet i := by
  refine .bind (R := fun (row : Option CommandRow) s => Quiet i s ∧ ∀ record,
    row.map mapCommand = some record → s.db.Replays householdId idempotencyKey record) ?_
    fun row => .ret fun _ _ h => h
  refine Spec.of_call quiet_steady (fun s _ _ => trivial) ?_ ?_
  · intro s choice found s' hs hquiet hcall
    obtain ⟨rfl, hrow | ⟨e, he⟩⟩ := select_some hcall
    · cases hrow
      refine ⟨hquiet, fun record hrecord => ?_⟩
      obtain ⟨row, hrow, rfl⟩ := Option.map_eq_some_iff.1 hrecord
      obtain ⟨hmem, hhousehold, hidempotency⟩ := Db.findByIdempotency_some hrow
      exact ⟨Db.recorded_of_mem hs.consistent.unique hmem, hhousehold, hidempotency⟩
    · cases he
  · intro s choice e s' _ hquiet hcall
    rw [(select_some hcall).1]
    exact hquiet

theorem spec_validateReplay :
    Spec jsonIn i
      (fun s => Quiet i s ∧ s.db.Replays command.householdId command.idempotencyKey record)
      (validateReplay P record command confirmationRequired)
      (fun record s => Quiet i s ∧ record.key = command.key ∧ s.db.Registers command)
      fun _ => Quiet i := by
  unfold validateReplay
  split
  · rename_i henvelope
    exact .ret fun _ _ h => ⟨h.1, Prod.ext h.2.2.1 (sameEnvelope_commandId henvelope),
      h.2.1.registers h.2.2.1 h.2.2.2 henvelope⟩
  · exact .throw fun _ _ h => h.1

theorem spec_insertRegistered :
    Spec jsonIn i (Quiet i) (insertRegistered command confirmationRequired)
      (fun record s => Quiet i s ∧ record.key = command.key ∧ s.db.Registers command)
      fun _ => Quiet i := by
  refine .bind (R := fun (row : Option CommandRow) s => Quiet i s ∧ ∀ row', row = some row' →
    row'.key = command.key ∧ s.db.Registers command) ?_ fun row => ?_
  · refine Spec.of_call quiet_steady (fun s _ _ => trivial) ?_ ?_
    · intro s choice row s' hs hquiet hcall
      have hpool := run_pool rfl hcall
      refine ⟨fun tx => by rw [hpool.conn]; exact hquiet tx, fun row' hrow' => ?_⟩
      rcases autocommit_some (f := (·.insertCommand jsonIn command confirmationRequired)) hcall with
        ⟨_, e, he⟩ | ⟨a, db, hinsert, rfl, ha | ⟨e, he⟩⟩
      · cases he
      · cases ha
        subst hrow'
        obtain ⟨hmem, new, payload, hinput, rfl⟩ := Db.insertCommand_row hinsert
        subst hinput
        have hunique := hpool.commands.unique hs.consistent.unique
        exact ⟨rfl, _, hunique.find hmem, rfl, rfl, rfl, rfl, rfl⟩
      · cases he
    · intro s choice e s' _ hquiet hcall tx
      rw [(run_pool rfl hcall).conn]
      exact hquiet tx
  · cases row with
    | none => exact .throw fun _ _ h => h.1
    | some row => exact .ret fun _ _ h => ⟨h.1, h.2 row rfl⟩

/-- A command is registered once `register` returns. -/
theorem spec_register :
    Spec jsonIn i (Quiet i) (register P command confirmationRequired)
      (fun record s => Quiet i s ∧ record.key = command.key ∧ s.db.Registers command)
      fun _ => Quiet i := by
  refine .bind (R := fun input s => input = command ∧ Quiet i s) ?_ fun input => ?_
  · unfold parseCheckedCommand
    split
    · exact .ret fun _ _ h => ⟨rfl, h⟩
    · exact .throw fun _ _ h => h
  refine .of_pure ?_
  rintro rfl
  refine .bind spec_findByIdempotency fun found => ?_
  cases found with
  | some record => exact spec_validateReplay.pre fun _ _ h => ⟨h.1, h.2 record rfl⟩
  | none =>
    refine .tryCatch (spec_insertRegistered.pre fun _ _ h => h.1) fun error => ?_
    unfold registrationFailed
    split
    · refine .bind spec_findByIdempotency fun replay => ?_
      cases replay with
      | some record => exact spec_validateReplay.pre fun _ _ h => ⟨h.1, h.2 record rfl⟩
      | none => exact .throw fun _ _ h => h.1
    · exact .throw fun _ _ h => h

/-! ## Reconciliation -/

theorem OffClient.spec_quiet {α : Type} {p : Program α} (hp : OffClient p) {R : Db → Prop}
    (hR : Lasting R) :
    Spec jsonIn i (fun s => Quiet i s ∧ R s.db) p (fun _ s => Quiet i s ∧ R s.db)
      fun _ => Quiet i :=
  (hp.spec (quiet_steady.and hR.steady)).post (fun _ _ _ h => h) fun _ _ _ h => h.1

theorem OnPool.spec_quiet {α : Type} {p : Program α} (hp : OnPool p) {R : Db → Prop}
    (hR : Lasting R) :
    Spec jsonIn i (fun s => Quiet i s ∧ R s.db) p (fun _ s => Quiet i s ∧ R s.db)
      fun _ => Quiet i :=
  hp.offClient.spec_quiet hR

variable {key : CommandKey}

theorem spec_findByCommandId :
    Spec jsonIn i (Quiet i) (findByCommandId key)
      (fun found s => Quiet i s ∧ ∀ record, found = some record →
        record.key = key ∧ s.db.Recorded record) fun _ => Quiet i := by
  refine .bind (R := fun (row : Option CommandRow) s => Quiet i s ∧ ∀ record,
    row.map mapCommand = some record → record.key = key ∧ s.db.Recorded record) ?_
    fun row => .ret fun _ _ h => h
  refine Spec.of_call quiet_steady (fun s _ _ => trivial) ?_ ?_
  · intro s choice found s' hs hquiet hcall
    obtain ⟨rfl, hrow | ⟨e, he⟩⟩ := select_some hcall
    · cases hrow
      refine ⟨hquiet, fun record hrecord => ?_⟩
      obtain ⟨row, hrow, rfl⟩ := Option.map_eq_some_iff.1 hrecord
      obtain ⟨hmem, hkey⟩ := Db.findCommand_some hrow
      exact ⟨hkey, Db.recorded_of_mem hs.consistent.unique hmem⟩
    · cases he
  · intro s choice e s' _ hquiet hcall
    rw [(select_some hcall).1]
    exact hquiet

/-- What is known of the record a reconciliation returns. -/
def Db.Reconciled (db : Db) (key : CommandKey) (record : MutationCommandRecord) : Prop :=
  record.key = key ∧ db.Recorded record

theorem lasting_reconciled :
    Lasting (·.Reconciled key record) :=
  fun _ _ hextends h => ⟨h.1, lasting_recorded _ _ hextends h.2⟩

theorem spec_settle {site : ReconcileSite} :
    Spec jsonIn i (fun s => Quiet i s ∧ s.db.Reconciled key record) (settle record key site)
      (fun record s => Quiet i s ∧ s.db.Reconciled key record) fun _ => Quiet i := by
  unfold settle
  split
  · refine .bind (markExecutionPending_pool.spec_quiet lasting_reconciled) fun _ => ?_
    refine .bind (spec_findByCommandId.pre fun _ _ h => h.1) fun updated => ?_
    cases updated with
    | some updated => exact .ret fun _ _ h => ⟨h.1, h.2 updated rfl⟩
    | none => exact .throw fun _ _ h => h.1
  · exact .ret fun _ _ h => h

theorem spec_reconcileOnce {attempt : Nat} :
    Spec jsonIn i (Quiet i) (reconcileOnce key attempt)
      (fun record s => Quiet i s ∧ s.db.Reconciled key record) fun _ => Quiet i := by
  refine .bind spec_findByCommandId fun found => ?_
  cases found with
  | none => exact .throw fun _ _ h => h.1
  | some record =>
    refine .bind (((onPool_issue rfl).spec_quiet (@lasting_reconciled record key)).pre
      fun _ _ h => ⟨h.1, h.2 record rfl⟩) fun task => ?_
    cases task with
    | none => exact .throw fun _ _ h => h.1
    | some task => exact .bind (alignTask_pool.spec_quiet lasting_reconciled) fun _ => spec_settle

theorem spec_reconcile :
    Spec jsonIn i (Quiet i) (reconcile key)
      (fun record s => Quiet i s ∧ s.db.Reconciled key record) fun _ => Quiet i := by
  have hfrom : ∀ left attempt, Spec jsonIn i (Quiet i) (reconcileFrom key attempt left)
      (fun record s => Quiet i s ∧ s.db.Reconciled key record) fun _ => Quiet i := by
    intro left
    induction left with
    | zero => exact fun attempt => spec_reconcileOnce
    | succ left ih =>
      refine fun attempt => .tryCatch spec_reconcileOnce fun error => ?_
      split
      · exact ih _
      · exact .throw fun _ _ h => h
  exact hfrom 2 1

/-! ## From the registered command to the read-back -/

theorem runnerFailed_offClient {error : Thrown} : OffClient (runnerFailed command error) := by
  have hresolved : OnPool (((reconcile command.key).bind fun record => .ret (some record)).tryCatch
      fun _ => .ret none) := .tryCatch (.bind reconcile_pool fun record => .ret _) fun _ => .ret none
  refine .bind hresolved.offClient fun resolved => ?_
  split
  · exact .ret _
  split
  · exact .throw _
  · exact .bind markExecutionFailed_offClient fun _ =>
      .bind reconcile_pool.offClient fun _ => .throw _

theorem lasting_outcome {found : Option MutationReceipt} :
    Lasting fun db => ∀ receipt, found = some receipt → db.Receipted key receipt :=
  .forall fun _ => .imp fun _ => lasting_receipted

variable {exec : Executor} {receipt : Option MutationReceipt} {state : MutationCommandRecord}

theorem spec_runPending :
    Spec jsonIn i (fun s => Outcome i command.key receipt s ∧ s.db.Registers command)
      (runPending exec command prepared state receipt)
      (fun result => Outcome i command.key result.2) fun _ => Quiet i := by
  have hrun := @spec_run ι _ jsonIn i exec.platform exec.policy
    { command, handler := prepared.handler, input := prepared.input
      receiptId := receiptIdOf command.commandId }
  have hframed := Spec.frame (@lasting_outcome command.key receipt) hrun
  refine .handle (hframed.pre fun _ _ h => ⟨⟨h.1.1, h.2⟩, h.1.2⟩)
    (fun receipt => .ret fun _ _ h => h.1) fun error => ?_
  exact .bind (runnerFailed_offClient.spec_quiet lasting_outcome) fun state => .ret fun _ _ h => h

theorem spec_executePending :
    Spec jsonIn i (fun s => Outcome i command.key receipt s ∧ s.db.Registers command)
      (executePending exec command prepared state receipt)
      (fun result => Outcome i command.key result.2) fun _ => Quiet i := by
  refine .bind spec_runPending fun result => ?_
  obtain ⟨state, receipt⟩ := result
  simp only
  split
  · exact .bind (reconcile_pool.spec_quiet lasting_outcome) fun state => .ret fun _ _ h => h
  · exact .ret fun _ _ h => h

theorem spec_readBack {receipt : MutationReceipt} :
    Spec jsonIn i (Outcome i command.key (some receipt)) (readBack exec command prepared receipt)
      (fun verified => Outcome i command.key (some verified.receipt)) fun _ => Quiet i := by
  refine .bind (performOrFailedReadback_pool.spec_quiet lasting_outcome) fun readback => ?_
  refine .bind (recordOrExistingReadback_pool.spec_quiet lasting_outcome) fun readback =>
    .bind (reconcile_pool.spec_quiet lasting_outcome) fun state => ?_
  split
  · exact .throw fun _ _ h => h.1
  · exact .ret fun _ _ h => h

theorem spec_requireVerifiedReplay :
    Spec jsonIn i (Quiet i) (requireVerifiedReplay command)
      (fun verified => Outcome i command.key (some verified.receipt)) fun _ => Quiet i := by
  refine .bind spec_findReceipt fun receipt =>
    .bind (findReadbackByCommand_pool.spec_quiet lasting_outcome) fun readback => ?_
  cases receipt with
  | none => exact .throw fun _ _ h => h.1
  | some receipt =>
    cases readback with
    | none => exact .throw fun _ _ h => h.1
    | some readback =>
      simp only
      split
      · exact .ret fun _ _ h => h
      · exact .throw fun _ _ h => h.1

theorem spec_finish :
    Spec jsonIn i (Outcome i command.key receipt) (finish exec command prepared state receipt)
      (fun verified => Outcome i command.key (some verified.receipt)) fun _ => Quiet i := by
  unfold finish
  split
  · exact spec_requireVerifiedReplay.pre fun _ _ h => h.1
  split
  · exact .throw fun _ _ h => h.1
  refine .bind (R := Outcome i command.key) ?_ fun found => ?_
  · cases receipt with
    | some receipt => exact .ret fun _ _ h => h
    | none => exact spec_findReceipt.pre fun _ _ h => h.1
  · cases found with
    | none => exact .throw fun _ _ h => h.1
    | some receipt =>
      simp only
      split
      · exact spec_readBack
      · exact .throw fun _ _ h => h.1

theorem spec_executeRegistered {registered : MutationCommandRecord} :
    Spec jsonIn i (fun s => Quiet i s ∧ s.db.Registers command)
      (executeRegistered exec command prepared registered)
      (fun verified => Outcome i command.key (some verified.receipt)) fun _ => Quiet i := by
  refine .bind (reconcile_pool.spec_quiet lasting_registers) fun state => ?_
  split
  · exact spec_requireVerifiedReplay.pre fun _ _ h => h.1
  split
  · exact .throw fun _ _ h => h.1
  refine .bind ((Spec.frame lasting_registers spec_findReceipt).post (fun _ _ _ h => h)
    fun _ _ _ h => h.1) fun receipt => ?_
  refine .bind (R := fun (result : MutationCommandRecord × Option MutationReceipt) =>
    Outcome i command.key result.2) ?_ fun result => spec_finish
  unfold executeIfPending
  split
  · exact spec_executePending
  · exact .ret fun _ _ h => h.1

/-- A verified execution returns the receipt of its command. -/
theorem spec_execute {candidate : CheckedCommand} :
    Spec jsonIn i (Quiet i) (CheckedMutationExecutor.execute exec candidate)
      (fun verified s => s.db.Receipted candidate.key verified.receipt) fun _ _ => True := by
  refine .bind (R := fun input s => input = candidate ∧ Quiet i s) ?_ fun input => ?_
  · unfold parseCheckedCommand
    split
    · exact .ret fun _ _ h => ⟨rfl, h⟩
    · exact .throw fun _ _ _ => trivial
  refine .of_pure ?_
  rintro rfl
  have hquiet : ∀ {α : Type} {p : Program α}, OffClient p →
      Spec jsonIn i (Quiet i) p (fun _ => Quiet i) fun _ _ => True :=
    fun hp => (hp.spec quiet_steady).post (fun _ _ _ h => h) fun _ _ _ _ => trivial
  refine .bind (hquiet getVerified_pool.offClient) fun artifact =>
    .bind (hquiet assertExactArtifact_pool.offClient) fun _ =>
    .bind (hquiet requireAcceptance_operations.offClient) fun _ => .bind (hquiet (.ofExcept _))
    fun prepared => ?_
  refine .bind (spec_register.post (fun _ _ _ h => h) fun _ _ _ _ => trivial) fun registered => ?_
  exact (spec_executeRegistered.pre fun _ _ h => ⟨h.1, h.2.2⟩).post
    (fun verified s _ h => h.2 verified.receipt rfl) fun _ _ _ _ => trivial

end PlusOne
