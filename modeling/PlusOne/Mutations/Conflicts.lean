import PlusOne.Mutations.ExactlyOnce
import PlusOne.Mutations.Retry

/-! # Serialization conflicts and execution_failed

When every failure of a run is a conflict that the runner sees raw, or a conflict at
COMMIT, no execution records its command as failed: the runner either returns, or
throws an error that asks for a receipt lookup, or the command has settled meanwhile. -/

namespace PlusOne

open Interleaving Sys

variable {ι : Type} [DecidableEq ι] {jsonIn : String → Option Json} {i : ι} {α : Type}
variable {G : Guard (mutationSystem ι jsonIn)} {A : ι → Call → Sys ι → Prop}

/-! ## Triples under a guard -/

/-- `Spec` in runs that meet `G`, with `A` to be shown of the calls. -/
abbrev SpecUnder (G : Guard (mutationSystem ι jsonIn)) (A : ι → Call → Sys ι → Prop) (i : ι)
    (P : Sys ι → Prop) (p : Program α) (Q : α → Sys ι → Prop) (E : Thrown → Sys ι → Prop) : Prop :=
  (sessionUnder G A).Triple i P p Q E

variable {E : Thrown → Sys ι → Prop} {P : Sys ι → Prop}

theorem SpecUnder.frame {R : Db → Prop} {p : Program α} {Q : α → Sys ι → Prop} (hR : Lasting R)
    (h : SpecUnder G A i P p Q E) :
    SpecUnder G A i (fun s => P s ∧ R s.db) p (fun a s => Q a s ∧ R s.db)
      fun e s => E e s ∧ R s.db := by
  have hsteady : Steady jsonIn i fun s => R s.db := hR.steady
  exact Discipline.Triple.frame hsteady (fun _ _ _ _ _ hInv _ hcall hrun =>
    hR _ _ (Sys.extends_of_call hInv hcall.2 (Sys.run_step hrun))) h

theorem Spec.under {C : Call → Prop} {p : Program α} {Q : α → Sys ι → Prop} (h : Spec jsonIn i P p Q E)
    (hp : p.Calls C) (hA : ∀ call, C call → ∀ s : Sys ι, s.Disciplined → A i call s) : SpecUnder G A i P p Q E := by
  have hcalls : SpecUnder G A i P p (fun _ _ => True) fun _ _ => True :=
    (Discipline.Triple.of_calls hp (.pure True) (fun call hcall s hs _ => hA call hcall s hs)
      fun _ _ _ _ _ _ _ _ _ _ _ => trivial).pre fun _ _ _ => trivial
  have hboth : SpecUnder G A i P p (fun a s => Q a s ∧ True) fun e s => E e s ∧ True := by
    refine Discipline.Triple.combine ?_ ?_ ?_ ?_ h hcalls
    · exact fun _ hs => ⟨hs, hs⟩
    · exact fun _ _ hr => ⟨hr, hr⟩
    · exact fun _ _ _ _ ha' => ha'
    · exact fun _ _ _ _ _ hcall => ⟨trivial, hcall⟩
  exact hboth.post (fun _ _ _ h => h.1) fun _ _ _ h => h.1

theorem SpecUnder.of_call {call : Call} {Q : Reply call → Sys ι → Prop} (hP : Steady jsonIn i P)
    (hA : ∀ s : Sys ι, s.Disciplined → P s → A i call s)
    (hok : ∀ (s : Sys ι) (choice : Choice) a s', s.Disciplined → P s → G.call i call choice s →
      allowed i call s → s.run jsonIn i call choice = some (.ok a, s') → Q a s')
    (herr : ∀ (s : Sys ι) (choice : Choice) e s', s.Disciplined → P s → G.call i call choice s →
      allowed i call s → s.run jsonIn i call choice = some (.error e, s') → E e s') :
    SpecUnder G A i P (issue call) Q E :=
  Discipline.Triple.perform hP hA
    (fun s choice a s' hInv hPs hcall hrun _ => hok s choice a s' hInv hPs hcall.1 hcall.2 hrun)
    fun s choice e s' hInv hPs hcall hrun _ => herr s choice e s' hInv hPs hcall.1 hcall.2 hrun

theorem OnOperations.under {p : Program α} (hp : OnOperations p) (hP : Steady jsonIn i P)
    (hA : ∀ call : Call, call.marksFailed = false → ∀ s : Sys ι, s.Disciplined → A i call s) :
    SpecUnder G A i P p (fun _ => P) fun _ => P :=
  (hp.offClient.spec hP).under hp fun call hcall => hA call hcall.2

/-! ## The condition -/

/-- Every error in the run is a conflict that reaches the runner raw or comes from COMMIT, and no
handler throws on its own. -/
def conflictGuard (ι : Type) [DecidableEq ι] (jsonIn : String → Option Json) :
    Guard (mutationSystem ι jsonIn) where
  call i call choice s := (∀ error, call ≠ .handlerThrow error) ∧
    ∀ e s', s.run jsonIn i call choice = some (.error e, s') →
      (call.raisesRaw = true ∨ call = .commit) ∧
        ∃ failure : PgFailure, e = .pg failure ∧ failure.code = some "40001"
  env _ _ := True

/-- A failed execution is only recorded of a command that is not pending any more. -/
def spares (_ : ι) (call : Call) (s : Sys ι) : Prop :=
  ∀ key failureCode, call = .markExecutionFailed key failureCode →
    ∀ row, s.db.findCommand key = some row → row.status ≠ .execution_pending

theorem spares_of_not_marks {call : Call} {s : Sys ι} (h : call.marksFailed = false) :
    spares i call s := by
  rintro key failureCode rfl
  cases h

theorem spares_onPool (call : Call) (h : call.onPool = true) (s : Sys ι) (_ : s.Disciplined) :
    spares i call s := by
  simp only [Call.onPool, Bool.and_eq_true, Bool.not_eq_true'] at h
  exact spares_of_not_marks h.1.2

abbrev SpecConflict (jsonIn : String → Option Json) (i : ι) (P : Sys ι → Prop) (p : Program α)
    (Q : α → Sys ι → Prop) (E : Thrown → Sys ι → Prop) : Prop :=
  SpecUnder (conflictGuard ι jsonIn) spares i P p Q E

namespace Db

/-- The command has been made pending. -/
def Started (db : Db) (key : CommandKey) : Prop :=
  ∃ row, db.findCommand key = some row ∧ row.status ≠ .registered

/-- The command has been pending, and is not any more. -/
def Past (db : Db) (key : CommandKey) : Prop :=
  ∃ row, db.findCommand key = some row ∧ row.status ≠ .registered ∧
    row.status ≠ .execution_pending

end Db

theorem started_of_edges {old new : CommandStatus} (h : Relation.ReflTransGen StatusEdge old new)
    (hold : old ≠ .registered) : new ≠ .registered := by
  induction h with
  | refl => exact hold
  | tail _ hedge _ => cases hedge <;> simp

theorem past_of_edges {old new : CommandStatus} (h : Relation.ReflTransGen StatusEdge old new)
    (hold : old ≠ .registered ∧ old ≠ .execution_pending) :
    new ≠ .registered ∧ new ≠ .execution_pending := by
  induction h with
  | refl => exact hold
  | tail _ hedge ih => cases hedge <;> simp_all

theorem lasting_started {key : CommandKey} : Lasting (·.Started key) := by
  rintro db db' hextends ⟨row, hrow, hstatus⟩
  obtain ⟨row', hrow', _, hedges⟩ := hextends.commands _ _ hrow
  exact ⟨row', hrow', started_of_edges hedges hstatus⟩

theorem lasting_past {key : CommandKey} : Lasting (·.Past key) := by
  rintro db db' hextends ⟨row, hrow, hstatus⟩
  obtain ⟨row', hrow', _, hedges⟩ := hextends.commands _ _ hrow
  exact ⟨row', hrow', past_of_edges hedges hstatus⟩

theorem past_of_receipt {db : Db} {key : CommandKey} {receipt : MutationReceipt}
    (h : db.Consistent) (hreceipt : db.selectReceipt key = some receipt) : db.Past key := by
  simp only [Db.selectReceipt, Option.bind_eq_bind, Option.bind_eq_some_iff] at hreceipt
  obtain ⟨row, hrow, -⟩ := hreceipt
  have hmem : ∃ receipt ∈ db.receipts, receipt.key = key :=
    ⟨row, List.mem_of_find?_eq_some hrow, by simpa using List.find?_some hrow⟩
  obtain ⟨command, hcommand, hsettled⟩ := (h.exactlyOnce key).receipt_iff.1 hmem
  refine ⟨command, hcommand, ?_, ?_⟩ <;> rintro hstatus <;>
    simp [hstatus, CommandStatus.settled] at hsettled

/-! ## The runner -/

section Runner

variable {P : Platform} {policy : SerializableMutationPolicy} {run : RunInput} {attempt : Nat}
variable {key : CommandKey}

/-- An error that does not lead to a recorded failure: a conflict, an error that asks for a
receipt lookup, or any error of a command that is past. -/
def Raised (key : CommandKey) (e : Thrown) (db : Db) : Prop :=
  isSerializationFailure e = true ∨ needsReceiptLookup e = true ∨ db.Past key

/-- What the runner throws. -/
def Harmless (key : CommandKey) (e : Thrown) (db : Db) : Prop :=
  needsReceiptLookup e = true ∨ db.Past key

theorem lasting_raised {e : Thrown} : Lasting (Raised key e) :=
  fun _ _ hextends h => h.imp_right fun h => h.imp_right (lasting_past _ _ hextends)

theorem lasting_harmless {e : Thrown} : Lasting (Harmless key e) :=
  fun _ _ hextends h => h.imp_right (lasting_past _ _ hextends)

theorem conflict_ok {call : Call} {R : Db → Prop} (hR : Lasting R)
    (hraw : call.raisesRaw = false) (hcommit : call ≠ .commit) (hmarks : call.marksFailed = false) :
    SpecConflict jsonIn i (fun s => R s.db) (issue call) (fun _ s => R s.db) fun _ _ => False := by
  refine SpecUnder.of_call hR.steady (fun s _ _ => spares_of_not_marks hmarks) ?_ ?_
  · exact fun s choice a s' hs h _ hallowed hcall =>
      hR _ _ (extends_of_call hs hallowed (run_step hcall)) h
  · intro s choice e s' _ _ hcond _ hcall
    obtain ⟨hraw' | hcommit', _⟩ := hcond.2 e s' hcall
    · rw [hraw] at hraw'
      cases hraw'
    · exact absurd hcommit' hcommit

theorem conflict_raised {call : Call} {P : Sys ι → Prop} (hP : Steady jsonIn i P)
    (hmarks : call.marksFailed = false) :
    SpecConflict jsonIn i P (issue call) (fun _ _ => True) fun e s => Raised key e s.db := by
  refine SpecUnder.of_call hP (fun s _ _ => spares_of_not_marks hmarks) ?_ ?_
  · exact fun _ _ _ _ _ _ _ _ _ => trivial
  · intro s choice e s' _ _ hcond _ hcall
    obtain ⟨_, failure, rfl, hcode⟩ := hcond.2 e s' hcall
    exact .inl (by simp [isSerializationFailure, Thrown.code, hcode])

theorem conflict_findReceipt :
    SpecConflict jsonIn i (fun _ => True) (findReceiptByCommand key) (fun _ _ => True)
      fun _ s => s.db.Past key := by
  refine .bind (R := fun (row : Option MutationReceipt) s => row.isSome → s.db.Past key) ?_
    fun row => ?_
  · refine SpecUnder.of_call (.pure True) (fun s _ _ => spares_of_not_marks rfl) ?_ ?_
    · intro s choice row s' hs _ _ _ hcall hsome
      obtain ⟨rfl, hrow | ⟨e, he⟩⟩ := select_some hcall
      · cases hrow
        obtain ⟨receipt, hreceipt⟩ := Option.isSome_iff_exists.1 hsome
        exact past_of_receipt hs.consistent hreceipt
      · cases he
    · intro s choice e s' _ _ hcond _ hcall
      obtain ⟨hraw | hcommit, _⟩ := hcond.2 e s' hcall
      · cases hraw
      · cases hcommit
  · cases row with
    | none => exact .ret fun _ _ _ => trivial
    | some receipt =>
      simp only [Prog.pure_eq]
      split
      · exact .ret fun _ _ _ => trivial
      · exact .throw fun _ _ h => h rfl

theorem conflict_decideFailure {e : Thrown} :
    SpecConflict jsonIn i (fun s => Raised run.command.key e s.db)
      (decideFailure policy run attempt e) (fun _ _ => True)
      fun e s => Harmless run.command.key e s.db := by
  unfold decideFailure
  split
  · exact .bind ((conflict_ok lasting_raised rfl (by simp) rfl).post (fun _ _ _ h => h)
      fun _ _ _ h => h.elim) fun _ => .ret fun _ _ _ => trivial
  split
  · exact .throw fun _ _ _ => .inl rfl
  rename_i hserialization
  split
  · exact .throw fun _ _ h => h.resolve_left hserialization
  · rename_i hplusOne
    refine .throw fun _ _ h => .inr ((h.resolve_left hserialization).resolve_left ?_)
    cases e <;> simp_all [needsReceiptLookup, Thrown.isPlusOneError]

theorem conflict_attemptFailed {began commitAttempted : Bool} {e : Thrown} :
    SpecConflict jsonIn i
      (fun s => commitAttempted = false → Raised run.command.key e s.db)
      (attemptFailed policy run attempt began commitAttempted e) (fun _ _ => True)
      fun e s => Harmless run.command.key e s.db := by
  have hlasting : Lasting fun db => commitAttempted = false → Raised run.command.key e db :=
    .imp fun _ => lasting_raised
  refine .bind (R := fun _ s => commitAttempted = false → Raised run.command.key e s.db) ?_
    fun _ => ?_
  · unfold rollbackIfOpen
    cases began && !commitAttempted with
    | false => exact .ret fun _ _ h => h
    | true => exact .tryCatch (conflict_ok hlasting rfl (by simp) rfl) fun _ => .ret fun _ _ h => h.elim
  split
  · refine .bind (((SpecUnder.frame hlasting conflict_findReceipt).pre fun _ _ h => ⟨trivial, h⟩).post
      (fun _ _ _ h => h.2) fun _ _ _ h => .inr h.1) fun receipt => ?_
    split
    · exact .ret fun _ _ _ => trivial
    split
    · exact .throw fun _ _ _ => .inl rfl
    · rename_i hcommit
      exact conflict_decideFailure.pre fun _ _ h => h (by simpa using hcommit)
  · rename_i hcond
    refine conflict_decideFailure.pre fun _ _ h => h ?_
    cases commitAttempted
    · rfl
    · simp at hcond

/-- The transaction of thread `i` has a snapshot in which the command was made pending, or none
yet. -/
def Waits (i : ι) (key : CommandKey) (s : Sys ι) : Prop :=
  s.conn i = .lost ∨ ∃ tx, s.conn i = .active tx ∧ ∀ snapshot, tx.snapshot = some snapshot →
    snapshot.Started key ∧ snapshot.Extends s.db

theorem waits_steady : Steady jsonIn i (Waits i key) := by
  intro s s' _ hrely h
  rcases hrely.conn with hconn | hlost
  · refine h.imp (fun hlost => hconn.trans hlost) fun ⟨tx, htx, hsnapshot⟩ =>
      ⟨tx, hconn.trans htx, fun snapshot h => ?_⟩
    exact ⟨(hsnapshot snapshot h).1, (hsnapshot snapshot h).2.trans hrely.db⟩
  · exact .inl hlost

theorem snapshot_started {s : Sys ι} {tx : Tx} (h : Waits i key s ∧ s.db.Started key)
    (htx : s.conn i = .active tx) :
    (tx.snapshot.getD s.db).Started key ∧ (tx.snapshot.getD s.db).Extends s.db := by
  obtain ⟨hlost | ⟨tx', htx', hsnapshot⟩, hstarted⟩ := h
  · rw [hlost] at htx
    cases htx
  · rw [htx] at htx'
    cases htx'
    cases hs : tx.snapshot with
    | none => exact ⟨hstarted, .refl s.db⟩
    | some snapshot => exact hsnapshot snapshot hs

theorem conflict_begin :
    SpecConflict jsonIn i (Connected i) (issue .begin) (fun _ => Waits i key)
      fun e s => Raised key e s.db := by
  have hbegin : SpecConflict jsonIn i (Connected i) (issue .begin)
      (fun _ => Holds i fun tx => tx = .fresh) fun _ => Quiet i :=
    spec_begin.under (C := fun call => call.marksFailed = false) (.perform rfl)
      fun _ hmarks _ _ => spares_of_not_marks hmarks
  refine (hbegin.and_post (conflict_raised connected_steady rfl)).post ?_ fun _ _ _ h => h.2
  rintro _ s _ ⟨h, -⟩
  refine h.imp_right fun ⟨tx, htx, hfresh⟩ => ⟨tx, htx, ?_⟩
  subst hfresh
  simp [Tx.fresh]

theorem conflict_setTimeouts {statementMs lockMs idleMs : Nat} :
    SpecConflict jsonIn i (fun s => Waits i key s ∧ s.db.Started key)
      (issue (.setTimeouts statementMs lockMs idleMs))
      (fun _ s => Waits i key s ∧ s.db.Started key) fun e s => Raised key e s.db := by
  have hsteady : Steady jsonIn i fun s => Waits i key s ∧ s.db.Started key :=
    waits_steady.and lasting_started.steady
  refine ((SpecUnder.of_call (E := fun _ _ => True) hsteady
    (fun s _ _ => spares_of_not_marks rfl) ?_ fun _ _ _ _ _ _ _ _ _ => trivial).and_post
    (conflict_raised hsteady rfl)).post (fun _ _ _ h => h.1) fun _ _ _ h => h.2
  intro s choice a s' _ h _ _ hcall
  rcases inTransaction_some (f := s.look i) hcall with ⟨⟨e, he⟩, _⟩ | ⟨tx, a', htx, hok, _⟩
  · cases he
  · have hsnapshot := snapshot_started h htx
    cases hok
    refine ⟨.inr ⟨{ tx with snapshot := some (tx.snapshot.getD s.db) }, by simp [setTx],
      fun snapshot hs => ?_⟩, h.2⟩
    cases hs
    exact hsnapshot

theorem conflict_claim :
    SpecConflict jsonIn i (fun s => Waits i key s ∧ s.db.Started key) (Bridge.claim key)
      (fun _ _ => True) fun e s => Raised key e s.db := by
  refine .tryCatch (F := fun _ s => s.db.Past key) ?_ fun error =>
    .throw fun _ _ h => .inr (.inr h)
  refine .bind (R := fun (row : Option (CommandStatus × Option MutationReceiptId)) s =>
    row = none → s.db.Past key) ?_ fun row => ?_
  · refine SpecUnder.of_call (waits_steady.and lasting_started.steady)
      (fun s _ _ => spares_of_not_marks rfl) ?_ ?_
    · intro s choice row s' _ h _ _ hcall hnone
      rcases inTransaction_some (f := s.claim i key) hcall with ⟨⟨e, he⟩, _⟩ | ⟨tx, a, htx, hok, ha⟩
      · cases he
      cases ha
      obtain ⟨⟨row, hrow, hstatus⟩, hextends⟩ := snapshot_started h htx
      rcases claim_ok hok with ⟨_, hunclaimable, rfl⟩ | ⟨row', rfl, _⟩
      · refine lasting_past _ _ hextends ⟨row, hrow, hstatus, fun hpending => ?_⟩
        exact hunclaimable row hrow (by simp [hpending, claimable])
      · cases hnone
    · intro s choice e s' _ _ hcond _ hcall
      obtain ⟨hraw | hcommit, _⟩ := hcond.2 e s' hcall
      · cases hraw
      · cases hcommit
  · cases row with
    | none => exact .throw fun _ _ h => h rfl
    | some row => exact .ret fun _ _ _ => trivial

theorem conflict_onClient {α : Type} (body : HandlerBody α) :
    SpecConflict jsonIn i (fun _ => True) body.onClient (fun _ _ => True)
      fun e s => Raised key e s.db := by
  induction body with
  | done output => exact .ret fun _ _ _ => trivial
  | fail error =>
    refine .bind (R := fun _ _ => False) ?_ fun _ => .throw fun _ _ h => h.elim
    refine SpecUnder.of_call (.pure True) (fun s _ _ => spares_of_not_marks rfl) ?_ ?_
    · exact fun _ _ _ _ _ _ hcond _ _ => absurd rfl (hcond.1 error)
    · exact fun _ _ _ _ _ _ hcond _ _ => absurd rfl (hcond.1 error)
  | query layer statement k ih =>
    refine .bind (R := fun _ _ => True) ?_ ih
    cases layer with
    | raw =>
      exact .tryCatch (conflict_raised (.pure True) rfl) fun e => .throw fun _ _ h => h
    | accounting =>
      exact .tryCatch ((conflict_ok (R := fun _ => True) (fun _ _ _ h => h) rfl (by simp) rfl).post
        (fun _ _ _ h => h) fun _ _ _ h => h) fun e => .throw fun _ _ h => h.elim

theorem conflict_free {call : Call} (hraw : call.raisesRaw = false) (hcommit : call ≠ .commit)
    (hmarks : call.marksFailed = false) {E : Thrown → Sys ι → Prop} :
    SpecConflict jsonIn i (fun _ => True) (issue call) (fun _ _ => True) E :=
  (conflict_ok (R := fun _ => True) (fun _ _ _ h => h) hraw hcommit hmarks).post
    (fun _ _ _ h => h) fun _ _ _ h => h.elim

theorem conflict_prepareCommit :
    SpecConflict jsonIn i (fun s => Waits i run.command.key s ∧ s.db.Started run.command.key)
      (prepareCommit P policy run) (fun _ _ => True)
      fun e s => Raised run.command.key e s.db := by
  refine .bind conflict_setTimeouts fun _ => .bind conflict_claim fun claim => ?_
  split
  · exact .bind (conflict_free rfl (by simp) rfl) fun _ => .ret fun _ _ _ => trivial
  · refine .bind (.bind (conflict_free rfl (by simp) rfl) fun _ => conflict_onClient _)
      fun output => .bind (R := fun _ _ => True) ?_ fun committed => .ret fun _ _ _ => trivial
    exact .tryCatch (F := fun _ _ => False) (conflict_free rfl (by simp) rfl) fun e =>
      .throw fun _ _ h => h.elim

theorem conflict_attempt :
    SpecConflict jsonIn i (fun s => Connected i s ∧ s.db.Started run.command.key)
      (attemptTransaction P policy run attempt) (fun _ _ => True)
      fun e s => Harmless run.command.key e s.db := by
  have hfailed : ∀ {began : Bool} (e : Thrown), SpecConflict jsonIn i
      (fun s => Raised run.command.key e s.db)
      (attemptFailed policy run attempt began false e) (fun _ _ => True)
      fun e s => Harmless run.command.key e s.db :=
    fun e => conflict_attemptFailed.pre fun _ _ h _ => h
  have hcommitting : ∀ {began : Bool} (e : Thrown), SpecConflict jsonIn i (fun _ => True)
      (attemptFailed policy run attempt began true e) (fun _ _ => True)
      fun e s => Harmless run.command.key e s.db :=
    fun e => conflict_attemptFailed.pre fun _ _ _ h => by cases h
  refine .handle (SpecUnder.frame lasting_started conflict_begin) (fun _ => ?_) fun e =>
    (hfailed e).pre fun _ _ h => h.1
  refine .handle conflict_prepareCommit (fun prepared => ?_) hfailed
  cases prepared with
  | existing =>
    refine .handle (R := fun _ _ => True) (F := fun e s => Raised run.command.key e s.db) ?_
      (fun receipt => .ret fun _ _ _ => trivial) hfailed
    refine .bind (conflict_findReceipt.post (fun _ _ _ h => h) fun _ _ _ h => .inr (.inr h))
      fun receipt => ?_
    cases receipt with
    | none => exact .throw fun _ _ _ => .inr (.inl rfl)
    | some receipt => exact .ret fun _ _ _ => trivial
  | committing output receiptId committedAt =>
    refine .handle (R := fun _ _ => True) (F := fun _ _ => True) ?_ (fun _ => ?_) hcommitting
    · refine SpecUnder.of_call (.pure True) (fun s _ _ => spares_of_not_marks rfl) ?_ ?_
      · exact fun _ _ _ _ _ _ _ _ _ => trivial
      · exact fun _ _ _ _ _ _ _ _ _ => trivial
    · refine .handle (R := fun _ _ => True) (F := fun _ _ => True) ?_
        (fun receipt => .ret fun _ _ _ => trivial) hcommitting
      unfold parseReceipt
      split
      · exact .ret fun _ _ _ => trivial
      · exact .throw fun _ _ _ => trivial

theorem conflict_connect {role : DomainRole} :
    SpecConflict jsonIn i (fun s => s.db.Started key) (issue (.connect role))
      (fun _ s => Connected i s ∧ s.db.Started key) fun _ _ => False := by
  have hconnect : SpecConflict jsonIn i (fun s => s.db.Started key) (issue (.connect role))
      (fun _ => Connected i) fun _ _ => True := by
    refine SpecUnder.of_call lasting_started.steady (fun s _ _ => spares_of_not_marks rfl) ?_
      fun _ _ _ _ _ _ _ _ _ => trivial
    intro s choice a s' _ _ _ _ hcall
    rcases connect_some hcall with ⟨rfl, _⟩ | ⟨_, e, he⟩
    · exact .inr (by simp [endTx])
    · cases he
  exact (hconnect.and_post (conflict_ok lasting_started rfl (by simp) rfl)).post
    (fun _ _ _ h => h) fun _ _ _ h => h.2

theorem conflict_releasing {α : Type} {p : Program α} {R : Sys ι → Prop} {F : Db → Prop}
    {e : Thrown → Db → Prop} (he : ∀ error, Lasting (e error)) (hF : Lasting F)
    (hp : SpecConflict jsonIn i R p (fun _ s => F s.db) fun error s => e error s.db) :
    SpecConflict jsonIn i R (releasing p) (fun _ s => F s.db) fun error s => e error s.db := by
  refine .handle hp (fun a => ?_) fun error => ?_
  · exact .bind ((conflict_ok hF rfl (by simp) rfl).post (fun _ _ _ h => h) fun _ _ _ h => h.elim)
      fun _ => .ret fun _ _ h => h
  · exact .bind ((conflict_ok (he error) rfl (by simp) rfl).post (fun _ _ _ h => h)
      fun _ _ _ h => h.elim) fun _ => .throw fun _ _ h => h

theorem conflict_runAttempts {startedAt left : Nat} :
    SpecConflict jsonIn i (fun s => s.db.Started run.command.key)
      (runAttempts P policy run startedAt attempt left) (fun _ _ => True)
      fun e s => Harmless run.command.key e s.db := by
  induction left generalizing attempt with
  | zero => exact .throw fun _ _ _ => .inl rfl
  | succ left ih =>
    refine .bind ((conflict_ok lasting_started rfl (by simp) rfl).post (fun _ _ _ h => h)
      fun _ _ _ h => h.elim) fun now => ?_
    split
    · exact .throw fun _ _ _ => .inl rfl
    refine .bind (conflict_connect.post (fun _ _ _ h => h) fun _ _ _ h => h.elim) fun _ =>
      .bind (conflict_releasing (fun e => lasting_harmless) lasting_started
        (((SpecUnder.frame lasting_started conflict_attempt).pre fun _ _ h => ⟨h, h.2⟩).post
          (fun _ _ _ h => h.2) fun _ _ _ h => h.1)) fun found => ?_
    cases found with
    | some receipt => exact .ret fun _ _ _ => trivial
    | none => exact ih

theorem conflict_run :
    SpecConflict jsonIn i (fun s => s.db.Started run.command.key)
      (SerializableMutationRunner.run P policy run) (fun _ _ => True)
      fun e s => Harmless run.command.key e s.db :=
  .bind ((conflict_ok lasting_started rfl (by simp) rfl).post (fun _ _ _ h => h)
    fun _ _ _ h => h.elim) fun startedAt => conflict_runAttempts

end Runner

/-! ## The executor -/

section Executor

variable {command : CheckedCommand} {prepared : PreparedCommand} {exec : Executor}

theorem OnPool.spec_conflict {α : Type} {p : Program α} (hp : OnPool p) {R : Db → Prop}
    (hR : Lasting R) :
    SpecConflict jsonIn i (fun s => R s.db) p (fun _ s => R s.db) fun _ s => R s.db :=
  hp.onOperations.under hR.steady fun _ hmarks _ _ => spares_of_not_marks hmarks

theorem conflict_markExecutionFailed {failureCode : String} {key : CommandKey} :
    SpecConflict jsonIn i (fun s => s.db.Past key) (markExecutionFailed key failureCode)
      (fun _ _ => True) fun _ _ => True := by
  refine .bind (R := fun _ _ => True) ?_ fun rowCount => ?_
  · refine SpecUnder.of_call lasting_past.steady ?_ (fun _ _ _ _ _ _ _ _ _ => trivial)
      fun _ _ _ _ _ _ _ _ _ => trivial
    rintro s _ ⟨row, hrow, hstatus⟩ _ _ ⟨⟩ row' hrow'
    rw [hrow] at hrow'
    cases hrow'
    exact hstatus.2
  · split
    · exact .throw fun _ _ _ => trivial
    · exact .ret fun _ _ _ => trivial

theorem conflict_runnerFailed {e : Thrown} :
    SpecConflict jsonIn i (fun s => Harmless command.key e s.db) (runnerFailed command e)
      (fun _ _ => True) fun _ _ => True := by
  have hresolved : OnPool (((reconcile command.key).bind fun record => .ret (some record)).tryCatch
      fun _ => .ret none) := .tryCatch (.bind reconcile_pool fun record => .ret _) fun _ => .ret none
  refine .bind ((hresolved.spec_conflict lasting_harmless).post (fun _ _ _ h => h)
    fun _ _ _ _ => trivial) fun resolved => ?_
  split
  · exact .ret fun _ _ _ => trivial
  split
  · exact .throw fun _ _ _ => trivial
  · rename_i hlookup
    refine .bind (conflict_markExecutionFailed.pre fun _ _ h => h.resolve_left hlookup) fun _ =>
      .bind ((reconcile_pool.spec_conflict (R := fun _ => True) fun _ _ _ h => h).post
        (fun _ _ _ h => h) fun _ _ _ h => h) fun _ => .throw fun _ _ _ => trivial

theorem conflict_executePending {state : MutationCommandRecord} {receipt : Option MutationReceipt} :
    SpecConflict jsonIn i (fun s => s.db.Started command.key)
      (executePending exec command prepared state receipt) (fun _ _ => True) fun _ _ => True := by
  refine .bind (R := fun _ _ => True) ?_ fun result => ?_
  · have hrun := @conflict_run ι _ jsonIn i exec.platform exec.policy
      { command, handler := prepared.handler, input := prepared.input
        receiptId := receiptIdOf command.commandId }
    exact .handle hrun (fun receipt => .ret fun _ _ _ => trivial) fun error =>
      .bind conflict_runnerFailed fun state => .ret fun _ _ _ => trivial
  · obtain ⟨state, receipt⟩ := result
    simp only
    split
    · exact .bind (reconcile_pool.spec_conflict (R := fun _ => True) fun _ _ _ h => h) fun state =>
        .ret fun _ _ _ => trivial
    · exact .ret fun _ _ _ => trivial

theorem started_of_reconciled {db : Db} {key : CommandKey} {record : MutationCommandRecord}
    (h : db.Reconciled key record) (hpending : record.status = .execution_pending) :
    db.Started key := by
  obtain ⟨rfl, old, row, rfl, hrow, _, hedges⟩ := h
  exact ⟨row, hrow, started_of_edges hedges (by simp_all [mapCommand])⟩

theorem conflict_executeRegistered {registered : MutationCommandRecord} :
    SpecConflict jsonIn i (fun s => Quiet i s ∧ registered.key = command.key)
      (executeRegistered exec command prepared registered) (fun _ _ => True) fun _ _ => True := by
  have hpool : ∀ {α : Type} {p : Program α}, OnPool p →
      SpecConflict jsonIn i (fun _ => True) p (fun _ _ => True) fun _ _ => True :=
    fun hp => hp.spec_conflict (R := fun _ => True) fun _ _ _ h => h
  refine (Discipline.Triple.of_pure (φ := registered.key = command.key) ?_).pre fun _ _ h => h.symm
  intro hkey
  refine .bind ((Spec.under spec_reconcile reconcile_pool spares_onPool).post (fun _ _ _ h => h)
    fun _ _ _ _ => trivial) fun state => ?_
  split
  · exact (hpool requireVerifiedReplay_pool).pre fun _ _ _ => trivial
  split
  · exact .throw fun _ _ _ => trivial
  have hlasting : Lasting fun db : Db => db.Reconciled registered.key state := lasting_reconciled
  refine .bind ((findReceiptByCommand_pool.spec_conflict hlasting).pre (fun _ _ h => h.2) |>.post
    (fun _ _ _ h => h) fun _ _ _ _ => trivial) fun receipt => ?_
  refine .bind (R := fun _ _ => True) ?_ fun result => hpool finish_pool
  unfold executeIfPending
  split
  · rename_i hpending
    exact conflict_executePending.pre fun _ _ h => hkey ▸ started_of_reconciled h hpending
  · exact .ret fun _ _ _ => trivial

theorem conflict_execute {candidate : CheckedCommand} :
    SpecConflict jsonIn i (Quiet i) (CheckedMutationExecutor.execute exec candidate)
      (fun _ _ => True) fun _ _ => True := by
  have hquiet : ∀ {α : Type} {p : Program α}, OnOperations p →
      SpecConflict jsonIn i (Quiet i) p (fun _ => Quiet i) fun _ _ => True :=
    fun hp => (hp.under quiet_steady fun _ hmarks _ _ => spares_of_not_marks hmarks).post
      (fun _ _ _ h => h) fun _ _ _ _ => trivial
  refine .bind (hquiet parseCheckedCommand_pool.onOperations) fun input =>
    .bind (hquiet getVerified_pool.onOperations) fun artifact =>
    .bind (hquiet assertExactArtifact_pool.onOperations) fun _ =>
    .bind (hquiet requireAcceptance_operations) fun _ => .bind (hquiet (.ofExcept _))
    fun prepared => ?_
  refine .bind ((Spec.under spec_register register_pool spares_onPool).post (fun _ _ _ h => h)
    fun _ _ _ _ => trivial) fun registered => ?_
  exact conflict_executeRegistered.pre fun _ _ h => ⟨h.1, h.2.1⟩

end Executor

end PlusOne
