import PlusOne.Mutations.Pool

/-! # What an attempt knows of its transaction

The assertions of the runner's proof, and one triple for each call on its client. An
assertion about the open transaction survives the other threads, except that the
server may close the session. -/

namespace PlusOne

open Interleaving

variable {ι : Type} [DecidableEq ι] {jsonIn : String → Option Json} {i : ι} {α : Type}

/-- Thread `i` running `p` from `P` returns in `Q` or throws in `E`, whatever the others do. -/
abbrev Spec (jsonIn : String → Option Json) (i : ι) (P : Sys ι → Prop) (p : Program α)
    (Q : α → Sys ι → Prop) (E : Thrown → Sys ι → Prop) : Prop :=
  (sessionDiscipline ι jsonIn).Triple i P p Q E

/-- An assertion the others keep. -/
abbrev Steady (jsonIn : String → Option Json) (i : ι) (P : Sys ι → Prop) : Prop :=
  (sessionDiscipline ι jsonIn).Stable i P

/-- An assertion about the database that outlives its growth. -/
def Lasting (R : Db → Prop) : Prop := ∀ db db', db.Extends db' → R db → R db'

theorem Lasting.steady {R : Db → Prop} (h : Lasting R) : Steady jsonIn i fun s => R s.db :=
  fun _ _ _ hrely hR => h _ _ hrely.db hR

theorem Lasting.and {R R' : Db → Prop} (h : Lasting R) (h' : Lasting R') :
    Lasting fun db => R db ∧ R' db :=
  fun _ _ hextends hR => ⟨h _ _ hextends hR.1, h' _ _ hextends hR.2⟩

theorem Lasting.imp {φ : Prop} {R : Db → Prop} (h : φ → Lasting R) : Lasting fun db => φ → R db :=
  fun _ _ hextends hR hφ => h hφ _ _ hextends (hR hφ)

theorem Lasting.forall {κ : Sort*} {R : κ → Db → Prop} (h : ∀ x, Lasting (R x)) :
    Lasting fun db => ∀ x, R x db :=
  fun _ _ hextends hR x => h x _ _ hextends (hR x)

namespace Sys

/-- Thread `i` is connected and has no transaction, unless its session is lost. -/
def Connected (i : ι) (s : Sys ι) : Prop := s.conn i = .lost ∨ s.conn i = .idle

/-- Thread `i` has an open transaction with `P`, unless its session is lost. -/
def Holds (i : ι) (P : Tx → Prop) (s : Sys ι) : Prop :=
  s.conn i = .lost ∨ ∃ tx, s.conn i = .active tx ∧ P tx

omit [DecidableEq ι] in
theorem Holds.mono {P Q : Tx → Prop} {s : Sys ι} (h : Holds i P s) (hPQ : ∀ tx, P tx → Q tx) :
    Holds i Q s :=
  h.imp_right fun ⟨tx, htx, hP⟩ => ⟨tx, htx, hPQ tx hP⟩

omit [DecidableEq ι] in
theorem Holds.of_active {P : Tx → Prop} {s : Sys ι} {tx : Tx} (h : Holds i P s)
    (htx : s.conn i = .active tx) : P tx := by
  rcases h with hlost | ⟨tx', htx', hP⟩
  · rw [hlost] at htx
    cases htx
  · rw [htx'] at htx
    cases htx
    exact hP

theorem holds_setTx {P : Tx → Prop} {s : Sys ι} {tx : Tx} (h : P tx) : Holds i P (s.setTx i tx) :=
  .inr ⟨tx, by simp [setTx], h⟩

theorem quiet_steady : Steady jsonIn i (Quiet i) := by
  intro s s' _ hrely hquiet tx htx
  rcases hrely.conn with hconn | hlost
  · exact hquiet tx (hconn ▸ htx)
  · rw [hlost] at htx
    cases htx

theorem connected_steady : Steady jsonIn i (Connected i) := by
  intro s s' _ hrely h
  rcases hrely.conn with hconn | hlost
  · rwa [Connected, hconn]
  · exact .inl hlost

theorem holds_steady {P : Tx → Prop} : Steady jsonIn i (Holds i P) := by
  intro s s' _ hrely h
  rcases hrely.conn with hconn | hlost
  · rwa [Holds, hconn]
  · exact .inl hlost

omit [DecidableEq ι] in
theorem Connected.quiet {s : Sys ι} (h : Connected i s) : Quiet i s := by
  intro tx htx
  rcases h with h | h <;> simp [h] at htx

theorem extends_of_call {s s' : Sys ι} {call : Call} (h : s.Disciplined)
    (hallowed : allowed i call s) (hstep : CallStep s i call s') : s.db.Extends s'.db := by
  cases hstep with
  | pool hpool => exact hpool.commands.extends hpool.receipts
  | ended | opened | looked | claimed | executed | receipted | detached => exact .refl s.db
  | committed tx c htx hc => exact .commitTx (h.sessions i tx htx) (hallowed tx htx)

end Sys

/-! ## Whole programs -/

theorem Spec.frame {R : Db → Prop} {P : Sys ι → Prop} {p : Program α} {Q : α → Sys ι → Prop}
    {E : Thrown → Sys ι → Prop} (hR : Lasting R) (h : Spec jsonIn i P p Q E) :
    Spec jsonIn i (fun s => P s ∧ R s.db) p (fun a s => Q a s ∧ R s.db)
      fun e s => E e s ∧ R s.db :=
  Discipline.Triple.frame hR.steady (fun _ _ _ _ _ hInv hallowed _ hrun =>
    hR _ _ (Sys.extends_of_call hInv hallowed (Sys.run_step hrun))) h

theorem allowed_offClient {call : Call} (h : call.onClient = false) (s : Sys ι) :
    Sys.allowed i call s := by
  cases call <;> first | trivial | simp [Call.onClient] at h

theorem OffClient.spec {P : Sys ι → Prop} {p : Program α} (hp : OffClient p)
    (hP : Steady jsonIn i P) : Spec jsonIn i P p (fun _ => P) fun _ => P := by
  refine Discipline.Triple.of_calls hp hP (fun call hcall s _ _ => allowed_offClient hcall s) ?_
  intro call hcall s choice r s' _ hPs _ hrun hInv'
  have hpool := Sys.run_pool hcall hrun
  exact hP s s' hInv' ⟨.inl (by rw [hpool.conn]), hpool.commands.extends hpool.receipts⟩ hPs

theorem OnPool.spec {P : Sys ι → Prop} {p : Program α} (hp : OnPool p) (hP : Steady jsonIn i P) :
    Spec jsonIn i P p (fun _ => P) fun _ => P :=
  hp.offClient.spec hP

theorem Spec.of_call {call : Call} {P : Sys ι → Prop} {Q : Reply call → Sys ι → Prop}
    {E : Thrown → Sys ι → Prop} (hP : Steady jsonIn i P)
    (hallowed : ∀ s : Sys ι, s.Disciplined → P s → Sys.allowed i call s)
    (hok : ∀ (s : Sys ι) (choice : Choice) a s', s.Disciplined → P s →
      s.run jsonIn i call choice = some (.ok a, s') → Q a s')
    (herr : ∀ (s : Sys ι) (choice : Choice) e s', s.Disciplined → P s →
      s.run jsonIn i call choice = some (.error e, s') → E e s') :
    Spec jsonIn i P (issue call) Q E :=
  Discipline.Triple.perform hP hallowed
    (fun s choice a s' hInv hPs _ hrun _ => hok s choice a s' hInv hPs hrun)
    fun s choice e s' hInv hPs _ hrun _ => herr s choice e s' hInv hPs hrun

/-! ## Calls on the client -/

namespace Sys

variable {P Q : Tx → Prop} {s : Sys ι}

/-- A statement in the transaction: how it leaves it, and what its error leaves. -/
theorem spec_inTransaction {call : Call} {R : Reply call → Tx → Prop}
    {f : Tx → Sys ι → Choice → Option (Except PgFailure (Reply call × Sys ι))}
    (hrun : ∀ choice s, Sys.run jsonIn i call choice s = s.inTransaction i (f · s choice) choice)
    (hallowed : ∀ s : Sys ι, allowed i call s)
    (hf : ∀ s choice tx a s', s.conn i = .active tx → P tx → f tx s choice = some (.ok (a, s')) →
      Holds i (R a) s') :
    Spec jsonIn i (Holds i P) (issue call) (fun a => Holds i (R a)) fun _ => Quiet i := by
  refine Spec.of_call holds_steady (fun s _ _ => hallowed s) ?_ ?_
  · intro s choice a s' _ hP hcall
    rw [hrun] at hcall
    rcases inTransaction_some hcall with ⟨⟨e, he⟩, _⟩ | ⟨tx, a', htx, hok, ha⟩
    · cases he
    · cases ha
      exact hf s choice tx a s' htx (hP.of_active htx) hok
  · intro s choice e s' _ hP hcall
    rw [hrun] at hcall
    rcases inTransaction_some hcall with ⟨_, hfailed⟩ | ⟨_, _, _, _, he⟩
    · exact hfailed.1
    · cases he

theorem spec_connect {role : DomainRole} :
    Spec jsonIn i (Quiet i) (issue (.connect role)) (fun _ => Connected i) fun _ => Quiet i := by
  refine Spec.of_call quiet_steady (fun s _ _ => trivial) ?_ ?_
  · intro s choice a s' _ _ hcall
    rcases connect_some hcall with ⟨rfl, _⟩ | ⟨_, e, he⟩
    · exact .inr (by simp [endTx])
    · cases he
  · intro s choice e s' _ hquiet hcall
    rcases connect_some hcall with ⟨_, he⟩ | ⟨rfl, _⟩
    · cases he
    · exact hquiet

theorem spec_begin : Spec jsonIn i (Connected i) (issue .begin)
    (fun _ => Holds i fun tx => tx = .fresh) fun _ => Quiet i := by
  refine Spec.of_call connected_steady (fun s _ _ => trivial) ?_ ?_
  · intro s choice a s' _ hconn hcall
    rcases begin_some hcall with ⟨_, _, rfl⟩ | ⟨_, hactive, rfl⟩ | ⟨_, he, _⟩
    · exact holds_setTx rfl
    · rcases hactive with ⟨tx, htx⟩ | htx <;> rcases hconn with hconn | hconn <;>
        simp [hconn] at htx
    · cases he
  · intro s choice e s' _ hconn hcall
    rcases begin_some hcall with ⟨he, _⟩ | ⟨he, _⟩ | ⟨_, _, rfl | rfl⟩
    · cases he
    · cases he
    · exact hconn.quiet
    · exact (failed_sever s i).1

theorem spec_rollback {P : Sys ι → Prop} (hP : Steady jsonIn i P) :
    Spec jsonIn i P (issue .rollback) (fun _ => Quiet i) fun _ => Quiet i := by
  refine Spec.of_call hP (fun s _ _ => trivial) ?_ ?_ <;>
  · intro s choice a s' _ _ hcall
    obtain ⟨c, hc, rfl⟩ := rollback_some hcall
    exact quiet_endTx hc

theorem spec_release {P : Sys ι → Prop} (hP : Steady jsonIn i P) :
    Spec jsonIn i P (issue .release) (fun _ => Quiet i) fun _ _ => False := by
  refine Spec.of_call hP (fun s _ _ => trivial) ?_ ?_
  · intro s choice a s' _ _ hcall
    rw [(inProcess_some hcall).2]
    exact quiet_endTx (by simp)
  · intro s choice e s' _ _ hcall
    cases (inProcess_some hcall).1

/-- No handler has run and no receipt is waiting. -/
def Blank (tx : Tx) : Prop := tx.executed = [] ∧ tx.receipts = []

theorem spec_setTimeouts {statementMs lockMs idleMs : Nat} :
    Spec jsonIn i (Holds i Blank) (issue (.setTimeouts statementMs lockMs idleMs))
      (fun _ => Holds i Blank) fun _ => Quiet i :=
  spec_inTransaction (f := fun tx s _ => s.look i tx) (fun _ _ => rfl) (fun _ => trivial) <| by
    intro s choice tx a s' _ hblank hok
    cases hok
    exact holds_setTx hblank

/-- The transaction holds the row of `key`, which its snapshot has in `status`. -/
def Claims (key : CommandKey) (status : CommandStatus) (tx : Tx) : Prop :=
  key ∈ tx.claimed ∧ ∃ snapshot row, tx.snapshot = some snapshot ∧
    snapshot.findCommand key = some row ∧ row.status = status

theorem spec_claim {key : CommandKey} :
    Spec jsonIn i (Holds i Blank) (issue (.claim key))
      (fun row => Holds i fun tx => Blank tx ∧ ∀ claimed, row = some claimed →
        Claims key claimed.1 tx) fun _ => Quiet i :=
  spec_inTransaction (f := fun tx s _ => s.claim i key tx) (fun _ _ => rfl) (fun _ => trivial) <| by
    intro s choice tx a s' _ hblank hok
    rcases claim_ok hok with ⟨rfl, _, rfl⟩ | ⟨row, rfl, hsnapshot, _, _, _, rfl⟩
    · exact holds_setTx ⟨hblank, by simp⟩
    · refine holds_setTx ⟨hblank, ?_⟩
      rintro _ ⟨⟩
      exact ⟨by simp, _, row, rfl, hsnapshot, rfl⟩

/-- The handler has run for `key`, which was pending. -/
def Ran (key : CommandKey) (tx : Tx) : Prop := tx.executed = [key] ∧ tx.receipts = []

/-- A claimed row is in the database as it is in the snapshot. -/
theorem Claims.current {key : CommandKey} {status : CommandStatus} {tx : Tx}
    (h : Claims key status tx) (hs : s.Disciplined) (htx : s.conn i = .active tx) :
    key ∈ tx.claimed ∧ ∀ row, s.db.findCommand key = some row → row.status = status := by
  obtain ⟨hclaimed, snapshot, row, hsnapshot, hrow, hstatus⟩ := h
  obtain ⟨snapshot', row', hsnapshot', hrow', hdb⟩ := (hs.sessions i tx htx).current key hclaimed
  refine ⟨hclaimed, fun row'' hrow'' => ?_⟩
  rw [hsnapshot] at hsnapshot'
  cases hsnapshot'
  rw [hrow] at hrow'
  cases hrow'
  rw [hdb] at hrow''
  cases hrow''
  exact hstatus

theorem spec_handlerCall {handler : HandlerIdentity} {command : CheckedCommand} :
    Spec jsonIn i (Holds i fun tx => Blank tx ∧ Claims command.key .execution_pending tx)
      (issue (.handlerCall handler command)) (fun _ => Holds i (Ran command.key))
      fun _ => Quiet i := by
  refine Spec.of_call holds_steady (fun s hs hP tx htx => (hP.of_active htx).2.current hs htx) ?_ ?_
  · intro s choice a s' _ hP hcall
    obtain ⟨_, rfl⟩ := inProcess_some hcall
    rcases hP with hlost | ⟨tx, htx, hblank, _⟩
    · exact .inl (by simp [hlost])
    · rw [htx]
      refine holds_setTx ⟨?_, hblank.2⟩
      rw [hblank.1]
      rfl
  · intro s choice e s' _ _ hcall
    cases (inProcess_some hcall).1

theorem spec_statement {key : CommandKey} {layer : Layer} {query : Query} :
    Spec jsonIn i (Holds i (Ran key)) (issue (.statement layer query))
      (fun _ => Holds i (Ran key)) fun _ => Quiet i :=
  spec_inTransaction (f := fun tx s choice => s.statement i query (Choice.answer choice) tx)
    (fun _ _ => rfl) (fun _ => trivial) <| by
    intro s choice tx a s' _ hran hok
    cases hok
    exact holds_setTx hran

/-- The receipt a transaction inserts for `input`, as its reply describes it. -/
def insertedReceipt (input : CommitInput) (reply : MutationReceiptId × UtcInstant) : ReceiptRow :=
  { receiptId := reply.1, householdId := input.key.1, commandId := input.key.2
    committedRecords := input.committedRecords, expectedState := input.expectedState.jsonb
    expectedStateHash := input.expectedStateHash, committedAt := reply.2 }

theorem spec_commitCommand {input : CommitInput} :
    Spec jsonIn i (Holds i (Ran input.key)) (issue (.commitCommand input))
      (fun reply => Holds i fun tx => tx.CompleteFor (insertedReceipt input reply))
      fun _ => Quiet i :=
  spec_inTransaction (f := fun tx s _ => s.commitCommand i input tx) (fun _ _ => rfl)
    (fun _ => trivial) <| by
    intro s choice tx a s' _ hran hok
    obtain ⟨row, rfl, _, _, _, _, _, _, rfl⟩ := commitCommand_ok hok
    refine holds_setTx ⟨hran.1, ?_⟩
    rw [hran.2]
    rfl

/-- COMMIT of a complete transaction leaves its receipt behind. -/
theorem spec_commit {receipt : ReceiptRow} :
    Spec jsonIn i (Holds i fun tx => tx.CompleteFor receipt) (issue .commit)
      (fun _ s => Quiet i s ∧ s.db.findReceipt receipt.key = some receipt) fun _ => Quiet i := by
  refine Spec.of_call holds_steady (fun s _ hP tx htx => ⟨receipt, hP.of_active htx⟩) ?_ ?_
  · intro s choice a s' hs hP hcall
    rcases commit_some hcall with ⟨_, he, _⟩ | ⟨_, _, hconn⟩ | ⟨tx, htx, hdone⟩
    · cases he
    · rcases hP with hlost | ⟨tx, htx, _⟩ <;> rcases hconn with hconn | hconn <;> simp_all
    · rcases hdone with ⟨_, rfl⟩ | ⟨_, he, _⟩ | ⟨_, he, _⟩
      · exact ⟨quiet_endTx (by simp),
          Db.findReceipt_commitTx hs.consistent (hs.sessions i tx htx) (hP.of_active htx)⟩
      · cases he
      · cases he
  · intro s choice e s' _ _ hcall
    rcases commit_some hcall with ⟨_, _, hfailed⟩ | ⟨_, rfl, _⟩ | ⟨tx, _, hdone⟩
    · exact hfailed.1
    · exact quiet_endTx (by simp)
    · rcases hdone with ⟨he, _⟩ | ⟨_, _, rfl⟩ | ⟨_, _, rfl⟩
      · cases he
      · exact quiet_endTx (by simp)
      · intro tx' htx'
        simp [detach] at htx'

end Sys

end PlusOne
