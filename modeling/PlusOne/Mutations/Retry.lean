import PlusOne.Interleaving.Positions
import PlusOne.Mutations.Runner

/-! # Which serialization conflicts the runner retries

An attempt can meet SQLSTATE 40001 at every statement of its transaction. The decision
to retry reads the code of the error, which the bridge and the accounting repositories
have replaced by then, and is not reached at all once COMMIT was sent. -/

namespace PlusOne

open Interleaving

/-- The calls of the transaction of an attempt that the server can fail with a conflict. -/
def Call.inTransaction : Call → Bool
  | .begin | .setTimeouts _ _ _ | .claim _ | .statement _ _ | .commitCommand _ | .commit => true
  | _ => false

/-- The calls whose error reaches the runner as the driver raised it, before COMMIT. -/
def Call.raisesRaw : Call → Bool
  | .begin | .setTimeouts _ _ _ | .statement .raw _ => true
  | _ => false

/-- A conflict at this call leaves a transaction that still has to be rolled back. -/
def Call.leavesOpen : Call → Bool
  | .begin | .commit => false
  | _ => true

/-- How far a run of the runner has come: when it started, and how many attempts it has begun. -/
structure Progress where
  startedAt : Option Nat
  attempts : Nat

def Progress.after (a : Progress) : (call : Call) → Except Thrown (Reply call) → Progress
  | .now, .ok now => { a with startedAt := a.startedAt.or (some now) }
  | .connect _, .ok _ => { a with attempts := a.attempts + 1 }
  | _, _ => a

/-- The program rolls back what is open, releases its client and makes another attempt, unless
the overall time is up by then. -/
inductive TriesAgain (policy : SerializableMutationPolicy) (startedAt : Nat) :
    Bool → Program MutationReceipt → Prop
  | rollback {isOpen k} (h : ∀ r, TriesAgain policy startedAt false (k r)) :
    TriesAgain policy startedAt isOpen (.call .rollback k)
  | sleep {isOpen milliseconds k} (h : TriesAgain policy startedAt isOpen (k (.ok ()))) :
    TriesAgain policy startedAt isOpen (.call (.sleep milliseconds) k)
  | release {k} (h : TriesAgain policy startedAt false (k (.ok ()))) :
    TriesAgain policy startedAt false (.call .release k)
  | again {k} (h : ∀ now, now - startedAt < policy.overallTimeoutMs →
      ∃ role k', k (.ok now) = .call (.connect role) k') :
    TriesAgain policy startedAt false (.call .now k)

/-- What is claimed of each position: while attempts remain, a conflict there is retried exactly
when its error arrives raw. -/
def RetriedIffRaw (policy : SerializableMutationPolicy) (a : Progress) (call : Call)
    (k : Except Thrown (Reply call) → Program MutationReceipt) : Prop :=
  call.inTransaction = true → ∃ startedAt, a.startedAt = some startedAt ∧
    (a.attempts < policy.maxAttempts → ∀ failure : PgFailure, failure.code = some "40001" →
      (TriesAgain policy startedAt call.leavesOpen (k (.error (.pg failure))) ↔
        call.raisesRaw = true))

section

variable {P : Platform} {policy : SerializableMutationPolicy} {run : RunInput}
variable {startedAt attempt left : Nat} {next : Program MutationReceipt} {error : Thrown}

/-- The rest of a run after the rest of its current attempt. -/
def resume (next : Program MutationReceipt) (p : Program (Option MutationReceipt)) :
    Program MutationReceipt :=
  (releasing p).bind (concluded next)

theorem not_triesAgain_throw {isOpen : Bool} :
    ¬TriesAgain policy startedAt isOpen (resume next (.throw error)) := by
  intro h
  cases h with
  | release h => cases h

theorem triesAgain_next (hleft : 0 < left) :
    TriesAgain policy startedAt false (runAttempts P policy run startedAt attempt left) := by
  obtain ⟨left, rfl⟩ := Nat.exists_eq_succ_of_ne_zero hleft.ne'
  refine .again fun now hnow => ?_
  have hnot : ¬policy.overallTimeoutMs ≤ now - startedAt := by omega
  exact ⟨_, _, (if_neg hnot).trans rfl⟩

theorem triesAgain_decide (hnext : TriesAgain policy startedAt false next)
    (hattempt : attempt < policy.maxAttempts) :
    TriesAgain policy startedAt false (resume next (decideFailure policy run attempt error)) ↔
      isSerializationFailure error = true := by
  unfold decideFailure
  split
  · rename_i hserialization
    exact ⟨fun _ => hserialization.1, fun _ => .sleep (.release hnext)⟩
  · rename_i hnot
    have hfalse : ¬isSerializationFailure error = true := fun h => hnot ⟨h, hattempt⟩
    refine iff_of_false ?_ hfalse
    rw [if_neg hfalse]
    split <;> exact not_triesAgain_throw

theorem attemptFailed_eq {began : Bool} (hconnection : isConnectionFailure error = false) :
    attemptFailed policy run attempt began false error =
      (rollbackIfOpen began false).bind fun _ => decideFailure policy run attempt error := by
  simp [attemptFailed, hconnection]

/-- An error before COMMIT, with the transaction begun or not. -/
theorem triesAgain_failed {began : Bool} (hnext : TriesAgain policy startedAt false next)
    (hattempt : attempt < policy.maxAttempts) (hconnection : isConnectionFailure error = false) :
    TriesAgain policy startedAt began
        (resume next (attemptFailed policy run attempt began false error)) ↔
      isSerializationFailure error = true := by
  have hdecide : TriesAgain policy startedAt false
      (resume next (decideFailure policy run attempt error)) ↔ isSerializationFailure error = true :=
    triesAgain_decide hnext hattempt
  rw [attemptFailed_eq hconnection, ← hdecide]
  cases began with
  | false => exact Iff.rfl
  | true =>
    constructor
    · intro h
      cases h with
      | rollback h => exact h (.ok ())
    · intro h
      refine .rollback fun r => ?_
      cases r <;> exact h

theorem not_triesAgain_committing :
    ¬TriesAgain policy startedAt false
      (resume next (attemptFailed policy run attempt true true error)) := by
  intro h
  cases h

/-! ## Every position of a run -/

/-- The calls outside the transaction, about which nothing is claimed. -/
def Call.outside (call : Call) : Prop :=
  call.inTransaction = false ∧ (∀ role, call ≠ .connect role) ∧ call ≠ .now

variable {a : Progress}

theorem outside_after {call : Call} {r : Except Thrown (Reply call)} (h : call.outside) : a.after call r = a := by
  obtain ⟨_, hconnect, hnow⟩ := h
  cases call <;> first
    | rfl
    | exact absurd rfl (hconnect _)
    | exact absurd rfl hnow

theorem inTransaction_after {call : Call} {r : Except Thrown (Reply call)} (h : call.inTransaction = true) :
    a.after call r = a := by
  cases call <;> first | rfl | simp [Call.inTransaction] at h

theorem outside_handlerCall {handler : HandlerIdentity} {command : CheckedCommand} :
    (Call.handlerCall handler command).outside := ⟨rfl, by simp, by simp⟩

/-- What holds all along a part of an attempt. -/
abbrev Along {α : Type} (policy : SerializableMutationPolicy) (a : Progress)
    (rest : Program α → Program MutationReceipt) (p : Program α) : Prop :=
  p.Everywhere Progress.after (fun a call k => RetriedIffRaw policy a call fun r => rest (k r))
    (fun b _ => b = a) (fun b _ => b = a) a

theorem along_outside {α : Type} {rest : Program α → Program MutationReceipt} {p : Program α}
    (hp : p.Calls Call.outside) : Along policy a rest p := by
  refine .of_calls hp (fun _ _ _ h => outside_after h) fun a call k h hin => ?_
  rw [h.1] at hin
  cases hin

section Combine

variable {α β : Type} {a : Progress} {rest : Program β → Program MutationReceipt} {p : Program α}

theorem along_bind {f : α → Program β} (hp : Along policy a (fun q => rest (q.bind f)) p)
    (hf : ∀ x, Along policy a rest (f x)) : Along policy a rest (p.bind f) :=
  .bind hp fun _ x h => h ▸ hf x

theorem along_handle {f : α → Program β} {h : Thrown → Program β}
    (hp : Along policy a (fun q => rest (q.handle f h)) p) (hf : ∀ x, Along policy a rest (f x))
    (hh : ∀ e, Along policy a rest (h e)) : Along policy a rest (p.handle f h) :=
  .handle hp (fun _ x ha => ha ▸ hf x) fun _ e ha => ha ▸ hh e

theorem along_tryCatch {p : Program β} {h : Thrown → Program β}
    (hp : Along policy a (fun q => rest (q.tryCatch h)) p)
    (hh : ∀ e, Along policy a rest (h e)) : Along policy a rest (p.tryCatch h) :=
  .tryCatch hp fun _ e ha => ha ▸ hh e

theorem along_ret {x : β} : Along policy a rest (.ret x) := .ret rfl

theorem along_throw {e : Thrown} : Along policy a rest (.throw e) := .throw rfl

end Combine

/-! ## The positions of an attempt -/

section Positions

variable {a : Progress}

variable (run) in
theorem along_call (call : Call) {rest : Program (Reply call) → Program MutationReceipt}
    {w : Thrown → Thrown} (hin : call.inTransaction = true)
    (hstarted : a.startedAt = some startedAt) (hattempts : a.attempts = attempt)
    (hnext : attempt < policy.maxAttempts → TriesAgain policy startedAt false next)
    (hrest : ∀ e, rest (.throw e) =
      resume next (attemptFailed policy run attempt call.leavesOpen false (w e)))
    (hwrap : ∀ failure : PgFailure, failure.code = some "40001" →
      isConnectionFailure (w (.pg failure)) = false ∧
        isSerializationFailure (w (.pg failure)) = call.raisesRaw) :
    Along policy a rest (issue call) := by
  have hposition : RetriedIffRaw policy a call fun r => rest (match r with
      | .ok x => .ret x
      | .error e => .throw e) := by
    intro _
    refine ⟨startedAt, hstarted, fun hleft failure hcode => ?_⟩
    rw [hattempts] at hleft
    obtain ⟨hconnection, hserialization⟩ := hwrap failure hcode
    simp only [hrest]
    rw [triesAgain_failed (hnext hleft) hleft hconnection, hserialization]
  refine Prog.Everywhere.perform _ ?_ ?_ ?_
  · exact hposition
  · exact fun _ => inTransaction_after hin
  · exact fun _ => inTransaction_after hin

variable {failure : PgFailure}

theorem wrap_raw (h : failure.code = some "40001") :
    isConnectionFailure (.pg failure) = false ∧ isSerializationFailure (.pg failure) = true := by
  simp [isConnectionFailure, isSerializationFailure, Thrown.code, h]
  decide

theorem wrap_accounting (h : failure.code = some "40001") :
    isConnectionFailure (.plusOne (normalizeAccountingError (.pg failure))) = false ∧
      isSerializationFailure (.plusOne (normalizeAccountingError (.pg failure))) = false := by
  have hcode : (normalizeAccountingError (.pg failure)).code = "database_serialization_conflict" := by
    simp [normalizeAccountingError, normalizeDatabaseError, Thrown.code, h, sqlStateMapping]
  simp only [isConnectionFailure, isSerializationFailure, Thrown.code, hcode]
  decide

theorem wrap_mutation (h : failure.code = some "40001") :
    isConnectionFailure (.plusOne (normalizeMutationDatabaseError (.pg failure))) = false ∧
      isSerializationFailure (.plusOne (normalizeMutationDatabaseError (.pg failure))) = false := by
  have hcode : (normalizeMutationDatabaseError (.pg failure)).code =
      "database_serialization_conflict" := by
    simp [normalizeMutationDatabaseError, normalizeDatabaseError, Thrown.code, h, sqlStateMapping]
  simp only [isConnectionFailure, isSerializationFailure, Thrown.code, hcode]
  decide

theorem wrap_layer (layer : Layer) {query : Query} (h : failure.code = some "40001") :
    isConnectionFailure (layer.wrap (.pg failure)) = false ∧
      isSerializationFailure (layer.wrap (.pg failure)) =
        (Call.statement layer query).raisesRaw := by
  cases layer with
  | raw => exact wrap_raw h
  | accounting => exact wrap_accounting h

variable (run) in
/-- The handler, statement by statement. -/
theorem along_onClient {α : Type} {rest : Program α → Program MutationReceipt}
    (hstarted : a.startedAt = some startedAt) (hattempts : a.attempts = attempt)
    (hnext : attempt < policy.maxAttempts → TriesAgain policy startedAt false next)
    (hrest : ∀ e, rest (.throw e) = resume next (attemptFailed policy run attempt true false e))
    (body : HandlerBody α) : Along policy a rest body.onClient := by
  induction body with
  | done output => exact along_ret
  | fail error =>
    exact along_outside (.bind (.perform ⟨rfl, by simp, by simp⟩) fun _ => .throw error)
  | query layer statement k ih =>
    refine along_bind (along_tryCatch ?_ fun e => along_throw) ih
    exact along_call run _ (w := layer.wrap) rfl hstarted hattempts hnext (fun e => hrest (layer.wrap e))
      fun failure hcode => wrap_layer layer hcode

theorem along_prepareCommit {rest : Program Prepared → Program MutationReceipt}
    (hstarted : a.startedAt = some startedAt) (hattempts : a.attempts = attempt)
    (hnext : attempt < policy.maxAttempts → TriesAgain policy startedAt false next)
    (hrest : ∀ e, rest (.throw e) = resume next (attemptFailed policy run attempt true false e)) :
    Along policy a rest (prepareCommit P policy run) := by
  refine along_bind ?_ fun _ => along_bind ?_ fun claim => ?_
  · refine along_call run (.setTimeouts _ _ _) (w := fun e => e) ?_ hstarted hattempts hnext ?_ ?_
    · rfl
    · exact fun e => hrest e
    · exact fun failure hcode => wrap_raw hcode
  · refine along_tryCatch (along_bind ?_ fun row => ?_) fun e => along_throw
    · refine along_call run (.claim _) (w := fun e => .plusOne (normalizeMutationDatabaseError e)) ?_
        hstarted hattempts hnext ?_ ?_
      · rfl
      · exact fun e => hrest _
      · exact fun failure hcode => wrap_mutation hcode
    · cases row with
      | none => exact along_throw
      | some row => exact along_ret
  · split
    · exact along_outside (.bind (.perform ⟨rfl, by simp, by simp⟩) fun _ => .ret _)
    · refine along_bind (along_bind ?_ fun _ => ?_) fun output => along_bind ?_ fun committed => ?_
      · exact along_outside (.perform outside_handlerCall)
      · refine along_onClient run hstarted hattempts hnext ?_ _
        exact fun e => hrest e
      · refine along_tryCatch ?_ fun e => along_throw
        refine along_call run (.commitCommand _)
          (w := fun e => .plusOne (normalizeMutationDatabaseError e)) ?_ hstarted hattempts hnext ?_ ?_
        · rfl
        · exact fun e => hrest _
        · exact fun failure hcode => wrap_mutation hcode
      · exact along_ret

theorem findReceipt_outside {key : CommandKey} : (findReceiptByCommand key).Calls Call.outside := by
  refine .bind (.perform ⟨rfl, by simp, by simp⟩) fun receipt => ?_
  cases receipt with
  | none => exact .ret none
  | some receipt =>
    by_cases hvalid : receipt.valid = true
    · simpa [hvalid] using Prog.Calls.ret (some receipt)
    · simpa [hvalid] using Prog.Calls.throw Thrown.zodError

/-- The calls of the `catch` of an attempt are outside its transaction. -/
theorem attemptFailed_outside {began commitAttempted : Bool} {e : Thrown} :
    (attemptFailed policy run attempt began commitAttempted e).Calls Call.outside := by
  have hdecide : (decideFailure policy run attempt e).Calls Call.outside := by
    unfold decideFailure
    split
    · exact .bind (.perform ⟨rfl, by simp, by simp⟩) fun _ => .ret none
    split
    · exact .throw _
    split <;> exact .throw _
  refine .bind ?_ fun _ => ?_
  · cases began <;> cases commitAttempted <;>
      first | exact .ret () | exact .tryCatch (.perform ⟨rfl, by simp, by simp⟩) fun _ => .ret ()
  · split
    · refine .bind findReceipt_outside fun receipt => ?_
      split
      · exact .ret receipt
      split
      · exact .throw _
      · exact hdecide
    · exact hdecide

/-- COMMIT: whatever its error, the run does not simply go on. -/
theorem along_commit {rest : Program Unit → Program MutationReceipt}
    (hstarted : a.startedAt = some startedAt)
    (hrest : ∀ e, rest (.throw e) = resume next (attemptFailed policy run attempt true true e)) :
    Along policy a rest (issue .commit) := by
  have hposition : RetriedIffRaw policy a .commit fun r => rest (match r with
      | .ok x => .ret x
      | .error e => .throw e) := by
    intro _
    refine ⟨startedAt, hstarted, fun _ failure _ => iff_of_false ?_ (by simp [Call.raisesRaw])⟩
    simp only [hrest]
    exact not_triesAgain_committing
  refine Prog.Everywhere.perform Call.commit ?_ ?_ ?_
  · exact hposition
  · exact fun _ => rfl
  · exact fun _ => rfl

theorem along_attempt (hstarted : a.startedAt = some startedAt) (hattempts : a.attempts = attempt)
    (hnext : attempt < policy.maxAttempts → TriesAgain policy startedAt false next) :
    Along policy a (resume next) (attemptTransaction P policy run attempt) := by
  have hfailed : ∀ {began commitAttempted : Bool} (e : Thrown), Along policy a (resume next)
      (attemptFailed policy run attempt began commitAttempted e) :=
    fun e => along_outside attemptFailed_outside
  refine along_handle ?_ (fun _ => along_handle ?_ (fun prepared => ?_) hfailed) hfailed
  · refine along_call run _ (w := fun e => e) rfl hstarted hattempts hnext (fun e => rfl) ?_
    exact fun failure hcode => wrap_raw hcode
  · exact along_prepareCommit hstarted hattempts hnext fun e => rfl
  · cases prepared with
    | existing =>
      refine along_handle (along_outside (.bind findReceipt_outside fun receipt => ?_))
        (fun receipt => along_ret) hfailed
      cases receipt with
      | none => exact .throw _
      | some receipt => exact .ret receipt
    | committing output receiptId committedAt =>
      refine along_handle ?_ (fun _ => along_handle ?_ (fun receipt => along_ret) hfailed) hfailed
      · exact along_commit hstarted fun e => rfl
      · refine along_outside ?_
        unfold parseReceipt
        split
        · exact .ret _
        · exact .throw _

end Positions

/-! ## All attempts -/

theorem along_releasing {p : Program (Option MutationReceipt)} (hp : Along policy a (resume next) p) :
    Along policy a (fun q => q.bind (concluded next)) (releasing p) := by
  have hrelease : ∀ {α : Type} {x : Program α}, x.Calls Call.outside →
      ((issue .release).bind fun _ => x).Calls Call.outside :=
    fun hx => .bind (.perform ⟨rfl, by simp, by simp⟩) fun _ => hx
  exact along_handle hp (fun _ => along_outside (hrelease (.ret _)))
    fun _ => along_outside (hrelease (.throw _))

/-- A property of positions that says nothing about where the program ends. -/
abbrev Retries (policy : SerializableMutationPolicy) (a : Progress)
    (p : Program MutationReceipt) : Prop :=
  p.Everywhere Progress.after (RetriedIffRaw policy) (fun _ _ => True) (fun _ _ => True) a

theorem retries_call {a b : Progress} {call : Call}
    {P : Progress → (call' : Call) → (Except Thrown (Reply call') → Program (Reply call)) → Prop}
    (hP : ∀ k, P a call k) (hok : ∀ x, a.after call (.ok x) = b) :
    (issue call).Everywhere Progress.after P (fun c _ => c = b) (fun _ _ => True) a :=
  .perform _ (hP _) hok fun _ => trivial

theorem retries_runAttempts (hstarted : a.startedAt = some startedAt) (hattempt : a.attempts + 1 = attempt)
    (hleft : attempt + left = policy.maxAttempts + 1) :
    Retries policy a (runAttempts P policy run startedAt attempt left) := by
  induction left generalizing attempt a with
  | zero => exact .throw trivial
  | succ left ih =>
    have hsame : ∀ now, a.after .now (.ok now) = a := by
      intro now
      cases a
      simp_all [Progress.after]
    refine .bind (retries_call (fun k hin => by cases hin) hsame) fun b now hb => ?_
    subst hb
    split
    · exact .throw trivial
    refine .bind (retries_call (b := ⟨b.startedAt, attempt⟩) (fun k hin => by cases hin)
      fun x => ?_) fun c _ hc => ?_
    · simp [Progress.after, hattempt]
    subst hc
    refine .bind (R := fun c _ => c = ⟨b.startedAt, attempt⟩) ?_ fun c found hc => ?_
    · have hattempts := @along_attempt P policy run startedAt attempt
        (runAttempts P policy run startedAt (attempt + 1) left) ⟨b.startedAt, attempt⟩ hstarted rfl
        fun hnext => triesAgain_next (by omega)
      exact (along_releasing hattempts).mono (fun _ _ _ h => h) (fun _ _ h => h) fun _ _ _ => trivial
    subst hc
    cases found with
    | some receipt => exact .ret trivial
    | none => exact ih hstarted rfl (by omega)

theorem retries_run {input : RunInput} :
    Retries policy ⟨none, 0⟩ (SerializableMutationRunner.run P policy input) := by
  refine .bind (R := fun b now => b = ⟨some now, 0⟩) ?_ fun b now hb => ?_
  · refine Prog.Everywhere.perform Call.now ?_ ?_ ?_
    · exact fun hin => by cases hin
    · exact fun now => rfl
    · exact fun _ => trivial
  · subst hb
    exact retries_runAttempts rfl rfl (by omega)

end

end PlusOne
