import PlusOne.Mutations.ClientSpec

/-! # What the serializable runner returns

Whatever fails on the way, a run of the runner ends without a transaction, and the
receipt it returns is the one the database holds. -/

namespace PlusOne

open Interleaving

/-- A receipt as it is stored: the expected state is a `jsonb` value. -/
def MutationReceipt.stored (receipt : MutationReceipt) : MutationReceipt :=
  { receipt with expectedState := receipt.expectedState.jsonb }

/-- The row under the command's key is a registration of this command. -/
def CommandRow.Names (row : CommandRow) (command : CheckedCommand) : Prop :=
  row.taskId = command.taskId ∧ row.commandType = command.commandType ∧
    row.checkedProposalId = command.checkedProposalId ∧
    row.checkedProposalHash = command.checkedProposalHash ∧
    row.idempotencyKey = command.idempotencyKey

theorem CommandRow.Names.of_identity {row row' : CommandRow} {command : CheckedCommand}
    (h : row.Names command) (hid : row'.SameIdentity row) : row'.Names command := by
  rw [hid]
  exact h

def Db.Registers (db : Db) (command : CheckedCommand) : Prop :=
  ∃ row, db.findCommand command.key = some row ∧ row.Names command

/-- `receipt` is the receipt the database has for the command. -/
def Db.Receipted (db : Db) (key : CommandKey) (receipt : MutationReceipt) : Prop :=
  ∃ stored, db.selectReceipt key = some stored ∧ receipt.stored = stored.stored

theorem lasting_registers {command : CheckedCommand} : Lasting (·.Registers command) := by
  rintro db db' hextends ⟨row, hrow, hnames⟩
  obtain ⟨row', hrow', hid, _⟩ := hextends.commands _ _ hrow
  exact ⟨row', hrow', hnames.of_identity hid⟩

theorem lasting_receipted {key : CommandKey} {receipt : MutationReceipt} :
    Lasting (·.Receipted key receipt) :=
  fun _ _ hextends ⟨stored, hstored, hreceipt⟩ =>
    ⟨stored, hextends.selectReceipt hstored, hreceipt⟩

variable {ι : Type} [DecidableEq ι] {jsonIn : String → Option Json} {i : ι}

/-- No transaction is open, and a receipt that was found is the command's. -/
def Sys.Outcome (i : ι) (key : CommandKey) (found : Option MutationReceipt) (s : Sys ι) : Prop :=
  Sys.Quiet i s ∧ ∀ receipt, found = some receipt → s.db.Receipted key receipt

namespace Sys

omit [DecidableEq ι] in
theorem outcome_none {key : CommandKey} {s : Sys ι} (h : Quiet i s) : Outcome i key none s :=
  ⟨h, by simp⟩

theorem spec_findReceipt {key : CommandKey} :
    Spec jsonIn i (Quiet i) (findReceiptByCommand key) (Outcome i key) fun _ => Quiet i := by
  refine .bind (R := fun (row : Option MutationReceipt) => Outcome i key row) ?_ fun row => ?_
  · refine Spec.of_call quiet_steady (fun s _ _ => trivial) ?_ ?_
    · intro s choice row s' _ hquiet hcall
      obtain ⟨rfl, hrow | ⟨e, he⟩⟩ := select_some hcall
      · cases hrow
        exact ⟨hquiet, fun receipt hreceipt => ⟨receipt, hreceipt, rfl⟩⟩
      · cases he
    · intro s choice e s' _ hquiet hcall
      rw [(select_some hcall).1]
      exact hquiet
  · cases row with
    | none => exact .ret fun _ _ h => h
    | some receipt =>
      simp only [Prog.pure_eq]
      split
      · exact .ret fun _ _ h => h
      · exact .throw fun _ _ h => h.1

end Sys

open Sys

/-! ## One attempt -/

section Attempt

variable {P : Platform} {policy : SerializableMutationPolicy} {run : RunInput} {attempt : Nat}

theorem spec_claimed {key : CommandKey} :
    Spec jsonIn i (Holds i Blank) (Bridge.claim key)
      (fun claimed => Holds i fun tx => Blank tx ∧ Claims key claimed.1 tx) fun _ _ => True := by
  refine .tryCatch (F := fun _ _ => True) ?_ fun error => .throw fun _ _ _ => trivial
  refine .bind (spec_claim.post (fun _ _ _ h => h) fun _ _ _ _ => trivial) fun row => ?_
  cases row with
  | none => exact .throw fun _ _ _ => trivial
  | some claimed => exact .ret fun _ _ h => h.mono fun tx htx => ⟨htx.1, htx.2 claimed rfl⟩

theorem spec_onClient {α : Type} {key : CommandKey} (body : HandlerBody α) :
    Spec jsonIn i (Holds i (Ran key)) body.onClient (fun _ => Holds i (Ran key))
      fun _ _ => True := by
  induction body with
  | done output => exact .ret fun _ _ h => h
  | fail error =>
    exact .bind (((onPool_issue rfl).spec holds_steady).post (fun _ _ _ h => h)
      fun _ _ _ _ => trivial) fun _ => .throw fun _ _ _ => trivial
  | query layer statement k ih =>
    refine .bind (R := fun _ => Holds i (Ran key)) ?_ ih
    refine .tryCatch (F := fun _ _ => True) ?_ fun error => .throw fun _ _ _ => trivial
    exact spec_statement.post (fun _ _ _ h => h) fun _ _ _ _ => trivial

/-- What `prepareCommit` leaves for the rest of the attempt. -/
def Leaves (P : Platform) (run : RunInput) (i : ι) : Prepared → Sys ι → Prop
  | .existing => Quiet i
  | .committing output receiptId committedAt => Holds i fun tx =>
    tx.CompleteFor (insertedReceipt
      { key := run.command.key, receiptId := run.receiptId
        committedRecords := output.committedRecords, expectedState := output.expectedState
        expectedStateHash := hashArtifact P output.expectedState } (receiptId, committedAt))

theorem spec_prepareCommit :
    Spec jsonIn i (Holds i Blank) (prepareCommit P policy run) (Leaves P run i)
      fun _ _ => True := by
  refine .bind (spec_setTimeouts.post (fun _ _ _ h => h) fun _ _ _ _ => trivial) fun _ => ?_
  refine .bind spec_claimed fun claimed => ?_
  split
  · exact .bind ((spec_rollback holds_steady).post (fun _ _ _ h => h) fun _ _ _ _ => trivial)
      fun _ => .ret fun _ _ h => h
  rename_i hpending
  have hpending : claimed.1 = .execution_pending := not_not.1 hpending
  refine .bind (R := fun _ => Holds i (Ran run.command.key)) ?_ fun output => ?_
  · refine .bind (R := fun _ => Holds i (Ran run.command.key)) ?_ fun _ => spec_onClient _
    refine (spec_handlerCall.pre fun s _ h => ?_).post (fun _ _ _ h => h) fun _ _ _ _ => trivial
    exact h.mono fun tx htx => ⟨htx.1, hpending ▸ htx.2⟩
  · refine .bind (R := fun committed => Leaves P run i (.committing output committed.1 committed.2))
      ?_ fun committed => .ret fun _ _ h => h
    refine .tryCatch (F := fun _ _ => True) ?_ fun error => .throw fun _ _ _ => trivial
    have hcommit := @spec_commitCommand ι _ jsonIn i
      { key := run.command.key, receiptId := run.receiptId
        committedRecords := output.committedRecords, expectedState := output.expectedState
        expectedStateHash := hashArtifact P output.expectedState }
    exact hcommit.post (fun _ _ _ h => h) fun _ _ _ _ => trivial

theorem spec_decideFailure {error : Thrown} :
    Spec jsonIn i (Quiet i) (decideFailure policy run attempt error)
      (Outcome i run.command.key) fun _ => Quiet i := by
  unfold decideFailure
  split
  · exact .bind ((onPool_issue rfl).spec quiet_steady) fun _ => .ret fun _ _ h => outcome_none h
  split
  · exact .throw fun _ _ h => h
  split
  · exact .throw fun _ _ h => h
  · exact .throw fun _ _ h => h

theorem spec_rollbackIfOpen {began commitAttempted : Bool} {R : Sys ι → Prop}
    (hR : Steady jsonIn i R)
    (hquiet : (began && !commitAttempted) = false → ∀ s, R s → Quiet i s) :
    Spec jsonIn i R (rollbackIfOpen began commitAttempted) (fun _ => Quiet i)
      fun _ => Quiet i := by
  unfold rollbackIfOpen
  cases hopen : began && !commitAttempted with
  | false => exact .ret fun s _ h => hquiet hopen s h
  | true => exact .tryCatch (spec_rollback hR) fun _ => .ret fun _ _ h => h

/-- The `catch` of an attempt ends its transaction, and finds only the command's receipt. -/
theorem spec_attemptFailed {began commitAttempted : Bool} {error : Thrown} {R : Sys ι → Prop}
    (hR : Steady jsonIn i R)
    (hquiet : (began && !commitAttempted) = false → ∀ s, R s → Quiet i s) :
    Spec jsonIn i R (attemptFailed policy run attempt began commitAttempted error)
      (Outcome i run.command.key) fun _ => Quiet i := by
  refine .bind (spec_rollbackIfOpen hR hquiet) fun _ => ?_
  split
  · refine .bind spec_findReceipt fun receipt => ?_
    split
    · exact .ret fun _ _ h => h
    split
    · exact .throw fun _ _ h => h.1
    · exact spec_decideFailure.pre fun _ _ h => h.1
  · exact spec_decideFailure

theorem receipted_of_inserted {db : Db} {output : MutationExecutionOutput}
    {receiptId : MutationReceiptId} {committedAt : UtcInstant} {row : CommandRow}
    (hrow : db.findCommand run.command.key = some row) (hnames : row.Names run.command)
    (hreceipt : db.findReceipt run.command.key = some (insertedReceipt
      { key := run.command.key, receiptId := run.receiptId
        committedRecords := output.committedRecords, expectedState := output.expectedState
        expectedStateHash := hashArtifact P output.expectedState } (receiptId, committedAt))) :
    db.Receipted run.command.key (builtReceipt P run.command output receiptId committedAt) := by
  obtain ⟨htask, htype, hproposal, hhash, hidempotency⟩ := hnames
  obtain ⟨hhousehold, hcommand⟩ := Prod.mk.inj (Db.findCommand_some hrow).2
  refine ⟨_, by simp [Db.selectReceipt, hrow, hreceipt]; rfl, ?_⟩
  simp only [MutationReceipt.stored, builtReceipt, insertedReceipt, Json.jsonb_idem, htask, htype,
    hproposal, hhash, hidempotency, hhousehold, hcommand]

theorem spec_finishCommit {output : MutationExecutionOutput} {receiptId : MutationReceiptId}
    {committedAt : UtcInstant} :
    Spec jsonIn i
      (fun s => Leaves P run i (.committing output receiptId committedAt) s ∧
        s.db.Registers run.command)
      (finishCommit P policy run attempt output receiptId committedAt)
      (Outcome i run.command.key) fun _ => Quiet i := by
  refine .handle (Spec.frame lasting_registers spec_commit) (fun _ => ?_) fun error =>
    (spec_attemptFailed quiet_steady fun _ _ h => h).pre fun _ _ h => h.1
  refine .handle (R := fun receipt => Outcome i run.command.key (some receipt))
    (F := fun _ => Quiet i) ?_ (fun receipt => .ret fun _ _ h => h)
    fun error => spec_attemptFailed quiet_steady fun _ _ h => h
  unfold parseReceipt
  split
  · refine .ret fun s _ ⟨⟨hquiet, hreceipt⟩, row, hrow, hnames⟩ => ⟨hquiet, ?_⟩
    rintro _ ⟨⟩
    exact receipted_of_inserted hrow hnames hreceipt
  · exact .throw fun _ _ h => h.1.1

theorem spec_requireExistingReceipt {command : CheckedCommand} :
    Spec jsonIn i (Quiet i) (requireExistingReceipt command)
      (fun receipt => Outcome i command.key (some receipt)) fun _ => Quiet i := by
  refine .bind spec_findReceipt fun receipt => ?_
  cases receipt with
  | none => exact .throw fun _ _ h => h.1
  | some receipt => exact .ret fun _ _ h => h

theorem spec_attemptTransaction :
    Spec jsonIn i (fun s => Connected i s ∧ s.db.Registers run.command)
      (attemptTransaction P policy run attempt) (Outcome i run.command.key) fun _ => Quiet i := by
  have hfailed : ∀ (commitAttempted : Bool) (error : Thrown),
      Spec jsonIn i (Quiet i) (attemptFailed policy run attempt false commitAttempted error)
        (Outcome i run.command.key) fun _ => Quiet i :=
    fun _ _ => spec_attemptFailed quiet_steady fun _ _ h => h
  refine .handle (Spec.frame lasting_registers spec_begin) (fun _ => ?_) fun error =>
    (hfailed false error).pre fun _ _ h => h.1
  have hprepare : Spec jsonIn i (Holds i fun tx => tx = .fresh) (prepareCommit P policy run)
      (Leaves P run i) fun _ _ => True := by
    refine spec_prepareCommit.pre fun s _ h => h.mono ?_
    rintro tx rfl
    exact ⟨rfl, rfl⟩
  refine .handle (Spec.frame lasting_registers hprepare) (fun prepared => ?_) fun error =>
    (spec_attemptFailed (.pure True) (by simp)).pre fun _ _ _ => trivial
  · cases prepared with
    | existing =>
      refine .handle (spec_requireExistingReceipt.pre fun _ _ h => h.1)
        (fun receipt => .ret fun _ _ h => h) (hfailed false)
    | committing output receiptId committedAt => exact spec_finishCommit

end Attempt

/-! ## All attempts -/

section Attempts

variable {P : Platform} {policy : SerializableMutationPolicy} {run : RunInput}

theorem spec_releasing {α : Type} {p : Program α} {R : Sys ι → Prop} {Q : α → Db → Prop}
    (hQ : ∀ a, Lasting (Q a)) (hp : Spec jsonIn i R p (fun a s => Quiet i s ∧ Q a s.db)
      fun _ => Quiet i) :
    Spec jsonIn i R (releasing p) (fun a s => Quiet i s ∧ Q a s.db) fun _ => Quiet i := by
  refine .handle hp (fun a => ?_) fun error => ?_
  · have hrelease := Spec.frame (hQ a) (@spec_release ι _ jsonIn i _ quiet_steady)
    exact .bind (hrelease.post (fun _ _ _ h => h) fun _ _ _ h => h.1.elim) fun _ =>
      .ret fun _ _ h => h
  · exact .bind ((spec_release quiet_steady).post (fun _ _ _ h => h) fun _ _ _ h => h.elim) fun _ =>
      .throw fun _ _ h => h

theorem spec_runAttempts {startedAt attempt left : Nat} :
    Spec jsonIn i (fun s => Quiet i s ∧ s.db.Registers run.command)
      (runAttempts P policy run startedAt attempt left)
      (fun receipt => Outcome i run.command.key (some receipt)) fun _ => Quiet i := by
  induction left generalizing attempt with
  | zero => exact .throw fun _ _ h => h.1
  | succ left ih =>
    have hready : Steady jsonIn i fun s => Quiet i s ∧ s.db.Registers run.command :=
      quiet_steady.and lasting_registers.steady
    refine .bind (((onPool_issue rfl).spec hready).post (fun _ _ _ h => h) fun _ _ _ h => h.1)
      fun now => ?_
    split
    · exact .throw fun _ _ h => h.1
    refine .bind ((Spec.frame lasting_registers spec_connect).post (fun _ _ _ h => h)
      fun _ _ _ h => h.1) fun _ => ?_
    refine .bind (spec_releasing (Q := fun found db => (∀ receipt, found = some receipt →
      db.Receipted run.command.key receipt) ∧ db.Registers run.command) ?_ ?_) fun found => ?_
    · exact fun found => .and (.forall fun receipt => .imp fun _ => lasting_receipted)
        lasting_registers
    · exact ((Spec.frame lasting_registers spec_attemptTransaction).pre fun _ _ h => ⟨h, h.2⟩).post
        (fun _ _ _ h => ⟨h.1.1, h.1.2, h.2⟩) fun _ _ _ h => h.1
    · cases found with
      | some receipt => exact .ret fun _ _ h => ⟨h.1, h.2.1⟩
      | none => exact ih.pre fun _ _ h => ⟨h.1, h.2.2⟩

theorem spec_run :
    Spec jsonIn i (fun s => Quiet i s ∧ s.db.Registers run.command)
      (SerializableMutationRunner.run P policy run)
      (fun receipt => Outcome i run.command.key (some receipt)) fun _ => Quiet i := by
  have hready : Steady jsonIn i fun s => Quiet i s ∧ s.db.Registers run.command :=
    quiet_steady.and lasting_registers.steady
  exact .bind (((onPool_issue rfl).spec hready).post (fun _ _ _ h => h) fun _ _ _ h => h.1)
    fun startedAt => spec_runAttempts

end Attempts

end PlusOne
