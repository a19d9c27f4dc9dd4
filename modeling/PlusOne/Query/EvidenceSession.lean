import PlusOne.Contracts.Errors
import PlusOne.Interleaving.Exclusive
import PlusOne.Transactions.Sessions

/-! # Evidence sessions

`EvidenceSession.withSession`: what it does on the connection that it takes from the pool,
and in what state the connection goes back. -/

namespace PlusOne

open Interleaving Transactions

/-! ## The code -/

inductive EvidenceSql
  | setLocalStatementTimeout (statementTimeoutMs : Int)
  | query (text : String)

/-- The queries of a session. -/
inductive EvidenceCall
  | begin
  | setLocalStatementTimeout (statementTimeoutMs : Int)
  | query (text : String)
  | commit
  | rollback
  deriving DecidableEq

@[reducible] def EvidenceReply (Rows : Type) : EvidenceCall → Type
  | .query _ => Rows
  | .begin | .setLocalStatementTimeout _ | .commit | .rollback => Unit

abbrev EvidenceProgram (Rows α : Type) := Prog EvidenceCall (EvidenceReply Rows) Thrown α

/-- What a callback does with its handle: it asks validated queries, each by what it has heard. -/
abbrev HandleProgram (Rows α : Type) := Prog String (fun _ => Rows) Thrown α

namespace EvidenceSession

variable {Rows α : Type}

def send (call : EvidenceCall) : EvidenceProgram Rows (EvidenceReply Rows call) := Prog.perform call

/-- The queries of a handle go to the runner of the session. -/
def onRunner : HandleProgram Rows α → EvidenceProgram Rows α
  | .ret a => .ret a
  | .throw e => .throw e
  | .call text k => .call (.query text) fun rows => onRunner (k rows)

/-- `open` -/
def openHandle (statementTimeoutMs : Int) : EvidenceProgram Rows Unit :=
  (send .begin).bind fun _ => send (.setLocalStatementTimeout statementTimeoutMs)

/-- The `try` of `withSession`. -/
def workAndCommit (work : HandleProgram Rows α) : EvidenceProgram Rows α :=
  (onRunner work).bind fun result => (send .commit).bind fun _ => .ret result

/-- The `catch` of `withSession`: `await this.runner.query('ROLLBACK').catch(() => undefined)`. -/
def rollbackAndThrow (error : Thrown) : EvidenceProgram Rows α :=
  (send .rollback).handle (fun _ => .throw error) fun _ => .throw error

def withSession (statementTimeoutMs : Int) (work : HandleProgram Rows α) : EvidenceProgram Rows α :=
  (openHandle statementTimeoutMs).bind fun _ => (workAndCommit work).tryCatch rollbackAndThrow

end EvidenceSession

/-! ## What the queries do -/

def EvidenceCall.command : EvidenceCall → Command EvidenceSql
  | .begin => .begin
  | .setLocalStatementTimeout statementTimeoutMs => .statement (.setLocalStatementTimeout statementTimeoutMs)
  | .query text => .statement (.query text)
  | .commit => .commit
  | .rollback => .rollback

/-- The database: what its statements do, what a new session starts with, and what is read. -/
structure EvidenceDb (δ κ Rows : Type) where
  engine : Engine EvidenceSql δ κ Thrown
  login : κ
  read : String → View δ κ → Rows

/-- The connection of the session, whether every step so far was `Prompt`, and whether a COMMIT of it
took effect. -/
structure EvidenceState (δ κ : Type) where
  connection : ClientConnection δ κ
  prompt : Bool
  committed : Bool

/-- Some of the query was carried out. -/
def takesEffect : Exchange Thrown → Bool
  | .answered | .lost none _ => true
  | .refused n _ | .lost (some n) _ => decide (0 < n)

namespace EvidenceDb

variable {δ κ Rows : Type} (D : EvidenceDb δ κ Rows)

/-- The server carries the query out on the connection without an error. -/
def accepts (call : EvidenceCall) (c : ClientConnection δ κ) : Bool :=
  (D.engine.submit (.ok [call.command]) c.session).1.isOk

/-- The step is not one of those after which a transaction stays open: a BEGIN that is carried out but
reported as failed, a SET that fails while the connection lives, and a ROLLBACK that fails, not
carried out, while the connection lives and is in a transaction. -/
def promptStep (call : EvidenceCall) (ending : Exchange Thrown) (c : ClientConnection δ κ) : Bool :=
  match call, ending with
  | .begin, .refused n _ => !(c.isOpen && decide (0 < n))
  | .setLocalStatementTimeout _, .refused _ _ => !c.isOpen
  | .setLocalStatementTimeout _, .answered => D.accepts call c
  | .rollback, .refused n _ => !(c.isOpen && c.session.block.isSome && decide (n = 0))
  | _, _ => true

def reply (call : EvidenceCall) (view : View δ κ) : EvidenceReply Rows call :=
  match call with
  | .query text => D.read text view
  | .begin | .setLocalStatementTimeout _ | .commit | .rollback => ()

def run (call : EvidenceCall) (ending : Exchange Thrown) (s : EvidenceState δ κ) :
    Option (Except Thrown (EvidenceReply Rows call) × EvidenceState δ κ) :=
  (D.engine.respond D.login (.ok [call.command]) ending s.connection).map fun step =>
    (step.1.map fun _ => D.reply call step.2.session.view,
      { connection := step.2
        prompt := s.prompt && D.promptStep call ending s.connection
        committed := s.committed ||
          (decide (call = .commit) && s.connection.isOpen && takesEffect ending &&
            D.accepts call s.connection) })

/-- The session alone on its connection, whose queries may fail or be lost at any point. -/
def runner : Cell EvidenceCall (EvidenceReply Rows) Thrown (EvidenceState δ κ) := ⟨Exchange Thrown, D.run⟩

end EvidenceDb

/-! ## One query at a time -/

section

variable {δ κ Rows : Type} {D : EvidenceDb δ κ Rows} {d : δ} {c c' : ClientConnection δ κ}
  {ending : Exchange Thrown} {r : Except Thrown Unit} {settings : κ}

theorem respond_closed {commands : Except Thrown (List (Command EvidenceSql))} (hclosed : c.isOpen = false)
    (h : D.engine.respond settings commands ending c = some (r, c')) :
    c' = c ∧ ending ≠ .answered ∧ r ≠ .ok () := by
  cases ending with
  | answered => simp [Engine.respond, hclosed] at h
  | refused n e =>
    simp only [Engine.respond, hclosed, Bool.false_eq_true, if_false, Option.some.injEq, Prod.mk.injEq] at h
    exact ⟨h.2.symm, fun heq => (by cases heq), fun hr => by rw [← h.1] at hr; cases hr⟩
  | lost n e =>
    simp only [Engine.respond, hclosed, Bool.false_eq_true, if_false, Option.some.injEq, Prod.mk.injEq] at h
    exact ⟨h.2.symm, fun heq => (by cases heq), fun hr => by rw [← h.1] at hr; cases hr⟩

theorem respond_lost {commands : Except Thrown (List (Command EvidenceSql))} {n : Option Nat} {e : Thrown}
    (hopen : c.isOpen = true) (h : D.engine.respond settings commands (.lost n e) c = some (r, c')) :
    c'.isOpen = false ∧ c'.session.block = none ∧ r ≠ .ok () := by
  simp only [Engine.respond, hopen, if_true, Option.some.injEq, Prod.mk.injEq] at h
  obtain ⟨hr, rfl⟩ := h
  exact ⟨rfl, rfl, fun heq => by rw [← hr] at heq; cases heq⟩

/-- In the transaction that began where the store held `d`, or with the connection gone from it. -/
def Working (d : δ) (c : ClientConnection δ κ) : Prop :=
  (c.isOpen = true ∧ c.session.Within d) ∨
    (c.isOpen = false ∧ c.session.block = none ∧ c.session.committed = d)

theorem Working.standing (h : Working d c) : c.session.Standing d := by
  rcases h with ⟨-, hwithin⟩ | ⟨-, hnone, rfl⟩
  · exact hwithin.standing
  · exact Session.standing_committed hnone

variable {s : Session δ κ}

theorem submit_begin (hrest : s.block = none) :
    D.engine.submit (.ok [.begin]) s = (.ok (), ⟨s.view, some ⟨s.view, [], false, false⟩⟩) := by
  simp [Engine.submit, Engine.query, Engine.command, Engine.close, Session.opened, hrest]

theorem progress_begin (hrest : s.block = none) (n : Nat) :
    D.engine.progress n (.ok [.begin]) s =
      if n = 0 then s else ⟨s.view, some ⟨s.view, [], false, false⟩⟩ := by
  cases n with
  | zero => rfl
  | succ n => simp [Engine.progress, Engine.advance, Engine.command, Session.opened, hrest]

/-- A statement keeps the session in its transaction. -/
theorem respond_statement {text : EvidenceSql} (h : Working d c)
    (hrun : D.engine.respond settings (.ok [.statement text]) ending c = some (r, c')) : Working d c' := by
  have hends : ∀ cs, (.ok [.statement text] : Except Thrown (List (Command EvidenceSql))) = .ok cs →
      ∀ command ∈ cs, command.ends = false := by
    intro cs hcs command hcommand
    obtain rfl := Except.ok.inj hcs
    obtain rfl := List.mem_singleton.1 hcommand
    rfl
  rcases h with ⟨hopen, hwithin⟩ | ⟨hclosed, hnone, hd⟩
  · have hsubmit := D.engine.submit_within hends hwithin
    cases ending with
    | answered =>
      simp only [Engine.respond, hopen, if_true, Option.some.injEq, Prod.mk.injEq] at hrun
      obtain ⟨-, rfl⟩ := hrun
      exact Or.inl ⟨rfl, hsubmit⟩
    | refused n e =>
      have hprogress := @Engine.progress_within _ _ _ _ D.engine d c.session _ n hends hwithin
      simp only [Engine.respond, hopen, if_true, Option.some.injEq, Prod.mk.injEq] at hrun
      obtain ⟨-, rfl⟩ := hrun
      exact Or.inl ⟨rfl, hprogress.failed⟩
    | lost n e =>
      obtain ⟨hgone, hblock, -⟩ := respond_lost hopen hrun
      have hstanding := D.engine.respond_within hends hwithin hrun
      exact Or.inr ⟨hgone, hblock, hstanding.committed⟩
  · obtain ⟨rfl, -⟩ := respond_closed hclosed hrun
    exact Or.inr ⟨hclosed, hnone, hd⟩

theorem submit_rollback :
    (D.engine.submit (.ok [.rollback]) s).2 = ⟨s.opened.begun, none⟩ := by
  simp [Engine.submit, Engine.query, Engine.command, Engine.close]

theorem progress_rollback (n : Nat) : D.engine.progress n (.ok [.rollback]) s =
    if n = 0 then s else ⟨s.opened.begun, none⟩ := by
  cases n with
  | zero => rfl
  | succ n => simp [Engine.progress, Engine.advance, Engine.command]

/-- A COMMIT ends the transaction, or is not carried out, or the connection is lost. -/
theorem respond_commit (h : Working d c)
    (hrun : D.engine.respond settings (.ok [.commit]) ending c = some (r, c')) :
    (c'.session.block = none ∨ Working d c') ∧ (r = .ok () → c'.session.block = none) := by
  rcases h with ⟨hopen, hwithin⟩ | ⟨hclosed, hnone, hd⟩
  · obtain ⟨b, hblock, himplicit, hbegun⟩ := hwithin
    have hwithin : c.session.Within d := ⟨b, hblock, himplicit, hbegun⟩
    have hended := D.engine.commit_block b c.session.view
    have hsubmit := @Engine.submit_commit _ _ _ _ D.engine c.session b hblock
    cases ending with
    | answered =>
      simp only [Engine.respond, hopen, if_true, Option.some.injEq, Prod.mk.injEq, hsubmit] at hrun
      obtain ⟨-, rfl⟩ := hrun
      exact ⟨Or.inl hended, fun _ => hended⟩
    | refused n e =>
      simp only [Engine.respond, hopen, if_true, Option.some.injEq, Prod.mk.injEq] at hrun
      obtain ⟨rfl, rfl⟩ := hrun
      refine ⟨?_, fun heq => by cases heq⟩
      rcases @Engine.progress_commit _ _ _ _ D.engine c.session b hblock n with hstay | hstep
      · simp only [hstay]
        exact Or.inr (Or.inl ⟨rfl, hwithin.failed⟩)
      · simp only [hstep, Session.failed_of_none hended]
        exact Or.inl hended
    | lost n e =>
      obtain ⟨-, hblock, hne⟩ := respond_lost hopen hrun
      exact ⟨Or.inl hblock, fun heq => absurd heq hne⟩
  · obtain ⟨rfl, -, hne⟩ := respond_closed hclosed hrun
    exact ⟨Or.inl hnone, fun heq => absurd heq hne⟩

end

/-! ## What a session leaves -/

section

variable {δ κ Rows α : Type} {D : EvidenceDb δ κ Rows} {d : δ} {s s' : EvidenceState δ κ}

/-- The connection goes back without a transaction, and what the store holds has changed only by a
COMMIT that took effect. -/
structure ClosesTransaction (d : δ) (s : EvidenceState δ κ) : Prop where
  closed : s.connection.session.block = none
  visible : s.connection.session.committed ≠ d → s.committed = true

/-- The session is in its transaction, and all went well enough so far. -/
structure InWork (d : δ) (s : EvidenceState δ κ) : Prop where
  working : Working d s.connection
  prompt : s.prompt = true

/-- The session is about to roll back. -/
structure BeforeRollback (d : δ) (s : EvidenceState δ κ) : Prop where
  prompt : s.prompt = true
  block : s.connection.session.block = none ∨ Working d s.connection
  visible : s.connection.session.committed ≠ d → s.committed = true

variable {ending : Exchange Thrown}

theorem run_eq_some {call : EvidenceCall} {r : Except Thrown (EvidenceReply Rows call)}
    (h : D.run call ending s = some (r, s')) :
    ∃ r' c', D.engine.respond D.login (.ok [call.command]) ending s.connection = some (r', c') ∧
      r = r'.map (fun _ => D.reply call c'.session.view) ∧ s'.connection = c' ∧
      s'.prompt = (s.prompt && D.promptStep call ending s.connection) ∧
      s'.committed = (s.committed || (decide (call = .commit) && s.connection.isOpen &&
        takesEffect ending && D.accepts call s.connection)) := by
  obtain ⟨⟨r', c'⟩, hrespond, heq⟩ := Option.map_eq_some_iff.1 h
  simp only [Prod.mk.injEq] at heq
  obtain ⟨rfl, rfl⟩ := heq
  exact ⟨r', c', hrespond, rfl, rfl, rfl, rfl⟩

theorem InWork.query {text : String} {r : Except Thrown Rows} (h : InWork d s)
    (hrun : D.run (.query text) ending s = some (r, s')) : InWork d s' := by
  obtain ⟨r', c', hrespond, -, hconnection, hprompt, -⟩ := run_eq_some hrun
  have hworking := respond_statement h.working hrespond
  constructor
  · rw [hconnection]
    exact hworking
  · rw [hprompt, h.prompt]
    rfl

theorem InWork.onRunner {work : HandleProgram Rows α} {out : Except Thrown α} (h : InWork d s)
    (hexec : Exec D.runner (EvidenceSession.onRunner work) s out s') : InWork d s' := by
  induction work generalizing s with
  | ret a =>
    cases hexec
    exact h
  | throw e =>
    cases hexec
    exact h
  | call text k ih =>
    cases hexec with
    | call hstep hrest => exact ih _ (h.query hstep) hrest

theorem InWork.beforeRollback (h : InWork d s) : BeforeRollback d s := by
  refine ⟨h.prompt, Or.inr h.working, ?_⟩
  intro hchanged
  exact absurd h.working.standing.committed hchanged

theorem not_closesTransaction (h : s.connection.session.Within d) : ¬ ClosesTransaction d s := by
  rintro ⟨hclosed, -⟩
  obtain ⟨b, hblock, -⟩ := h
  rw [hblock] at hclosed
  cases hclosed

theorem InWork.closesTransaction (h : InWork d s) (hblock : s.connection.session.block = none) :
    ClosesTransaction d s :=
  ⟨hblock, h.beforeRollback.visible⟩

variable {r : Except Thrown Unit}

/-- The first query of a session on a connection at rest. -/
theorem begin_step (hopen : s.connection.isOpen = true) (hrest : s.connection.session.block = none)
    (hprompt : s.prompt = true) (hrun : D.run .begin ending s = some (r, s')) :
    (r = .ok () → InWork s.connection.session.committed s') ∧
      (r ≠ .ok () → (ClosesTransaction s.connection.session.committed s' ↔ s'.prompt = true)) := by
  obtain ⟨r', c', hrespond, rfl, hconnection, hprompt', -⟩ := run_eq_some hrun
  have hcommitted : s.connection.session.committed = s.connection.session.view.data := by
    simp [Session.committed, hrest]
  cases ending with
  | answered =>
    simp only [Engine.respond, hopen, if_true, Option.some.injEq, Prod.mk.injEq, EvidenceCall.command,
      submit_begin hrest] at hrespond
    obtain ⟨rfl, rfl⟩ := hrespond
    refine ⟨fun _ => ⟨?_, ?_⟩, fun hne => absurd rfl hne⟩
    · rw [hconnection, hcommitted]
      exact Or.inl ⟨rfl, _, rfl, rfl, rfl⟩
    · rw [hprompt', hprompt]
      rfl
  | refused n e =>
    simp only [Engine.respond, hopen, if_true, Option.some.injEq, Prod.mk.injEq, EvidenceCall.command,
      progress_begin hrest] at hrespond
    obtain ⟨rfl, rfl⟩ := hrespond
    refine ⟨fun heq => (by cases heq), fun _ => ?_⟩
    by_cases hn : n = 0
    · have hsession : s'.connection.session = s.connection.session := by
        rw [hconnection]
        simp [hn, Session.failed_of_none hrest]
      have hflag : s'.prompt = true := by simp [hprompt', hprompt, EvidenceDb.promptStep, hn]
      simp only [hflag, iff_true]
      exact ⟨by rw [hsession, hrest], fun hchanged => absurd (by rw [hsession]) hchanged⟩
    · have hwithin : s'.connection.session.Within s.connection.session.committed := by
        rw [hconnection, hcommitted]
        simp only [hn, if_false]
        exact Session.Within.failed ⟨_, rfl, rfl, rfl⟩
      have hflag : s'.prompt = false := by
        simp [hprompt', hprompt, EvidenceDb.promptStep, hopen, Nat.pos_of_ne_zero hn]
      simp [hflag, not_closesTransaction hwithin]
  | lost n e =>
    obtain ⟨-, hblock, hne⟩ := respond_lost hopen hrespond
    have hidle : ∀ command ∈ [EvidenceCall.begin.command], D.engine.Idle command := by
      intro command hcommand
      obtain rfl := List.mem_singleton.1 hcommand
      exact Or.inl rfl
    have hstanding := D.engine.respond_standing hidle (Session.standing_committed hrest) hrespond
    have hflag : s'.prompt = true := by simp [hprompt', hprompt, EvidenceDb.promptStep]
    refine ⟨?_, fun _ => ?_⟩
    · intro heq
      cases r' with
      | ok u => exact absurd rfl hne
      | error e => cases heq
    · simp only [hflag, iff_true]
      refine ⟨by rw [hconnection, hblock], fun hchanged => absurd ?_ hchanged⟩
      rw [hconnection, hstanding.committed]

/-- The setting of a session in its transaction. -/
theorem InWork.set {statementTimeoutMs : Int} (h : InWork d s)
    (hrun : D.run (.setLocalStatementTimeout statementTimeoutMs) ending s = some (r, s')) :
    (r = .ok () → InWork d s') ∧ (r ≠ .ok () → (ClosesTransaction d s' ↔ s'.prompt = true)) := by
  obtain ⟨r', c', hrespond, rfl, hconnection, hprompt, -⟩ := run_eq_some hrun
  have hworking : Working d s'.connection := by
    rw [hconnection]
    exact respond_statement h.working hrespond
  -- what is left to say is whether the connection is still in its transaction
  have hsettled : ∀ flag, s'.prompt = flag → (flag = true → s'.connection.session.block = none) →
      (flag = false → s'.connection.session.Within d) → (ClosesTransaction d s' ↔ s'.prompt = true) := by
    intro flag hflag hnone hwithin
    cases flag with
    | true =>
      have hinWork : InWork d s' := ⟨hworking, hflag⟩
      simp only [hflag, iff_true]
      exact hinWork.closesTransaction (hnone rfl)
    | false => simp [hflag, not_closesTransaction (hwithin rfl)]
  rcases h.working with ⟨hopen, hwithin⟩ | ⟨hclosed, hnone, -⟩
  · cases ending with
    | answered =>
      simp only [Engine.respond, hopen, if_true, Option.some.injEq, Prod.mk.injEq] at hrespond
      obtain ⟨rfl, rfl⟩ := hrespond
      have hflag : s'.prompt = D.accepts (.setLocalStatementTimeout statementTimeoutMs) s.connection := by
        rw [hprompt, h.prompt]
        rfl
      have hlive : s'.connection.session.Within d := by
        rcases hworking with ⟨-, hlive⟩ | ⟨hgone, -⟩
        · exact hlive
        · rw [hconnection] at hgone
          cases hgone
      cases hr : (D.engine.submit (.ok [(EvidenceCall.setLocalStatementTimeout statementTimeoutMs).command])
          s.connection.session).1 with
      | ok u =>
        have haccepts : s'.prompt = true := by simp [hflag, EvidenceDb.accepts, hr, Except.isOk, Except.toBool]
        exact ⟨fun _ => ⟨hworking, haccepts⟩, fun hne => absurd rfl hne⟩
      | error e =>
        have haccepts : s'.prompt = false := by simp [hflag, EvidenceDb.accepts, hr, Except.isOk, Except.toBool]
        exact ⟨fun heq => (by cases heq),
          fun _ => hsettled false haccepts (fun heq => by cases heq) fun _ => hlive⟩
    | refused n e =>
      have hflag : s'.prompt = false := by simp [hprompt, EvidenceDb.promptStep, hopen]
      simp only [Engine.respond, hopen, if_true, Option.some.injEq, Prod.mk.injEq] at hrespond
      obtain ⟨rfl, rfl⟩ := hrespond
      have hlive : s'.connection.session.Within d := by
        rcases hworking with ⟨-, hlive⟩ | ⟨hgone, -⟩
        · exact hlive
        · rw [hconnection] at hgone
          cases hgone
      exact ⟨fun heq => (by cases heq),
        fun _ => hsettled false hflag (fun heq => by cases heq) fun _ => hlive⟩
    | lost n e =>
      obtain ⟨-, hblock, hne⟩ := respond_lost hopen hrespond
      have hflag : s'.prompt = true := by simp [hprompt, h.prompt, EvidenceDb.promptStep]
      refine ⟨?_, fun _ => hsettled true hflag (fun _ => by rw [hconnection, hblock])
        fun heq => by cases heq⟩
      intro heq
      cases r' with
      | ok u => exact absurd rfl hne
      | error e => cases heq
  · obtain ⟨rfl, hending, hne⟩ := respond_closed hclosed hrespond
    have hflag : s'.prompt = true := by
      cases ending with
      | answered => exact absurd rfl hending
      | refused n e => simp [hprompt, h.prompt, EvidenceDb.promptStep, hclosed]
      | lost n e => simp [hprompt, h.prompt, EvidenceDb.promptStep]
    refine ⟨?_, fun _ => hsettled true hflag (fun _ => by rw [hconnection, hnone])
      fun heq => by cases heq⟩
    intro heq
    cases r' with
    | ok u => exact absurd rfl hne
    | error e => cases heq

/-- The COMMIT of a session in its transaction. -/
theorem InWork.commit (h : InWork d s) (hrun : D.run .commit ending s = some (r, s')) :
    BeforeRollback d s' ∧ (r = .ok () → s'.connection.session.block = none) := by
  obtain ⟨r', c', hrespond, rfl, hconnection, hprompt, hcommitted⟩ := run_eq_some hrun
  obtain ⟨hblock, hok⟩ := respond_commit h.working hrespond
  refine ⟨⟨?_, ?_, ?_⟩, ?_⟩
  · rw [hprompt, h.prompt]
    cases ending <;> rfl
  · rw [hconnection]
    exact hblock
  · intro hchanged
    rw [hconnection] at hchanged
    rcases h.working with ⟨hopen, hwithin⟩ | ⟨hclosed, -, hd⟩
    · by_cases heffect : takesEffect ending = true
      · rcases D.engine.respond_commit hwithin hrespond with ⟨hstanding, -⟩ | ⟨t, hsubmit, -⟩
        · exact absurd hstanding.committed hchanged
        · have haccepts : D.accepts .commit s.connection = true := by
            have hfirst : (D.engine.submit (.ok [EvidenceCall.commit.command]) s.connection.session).1 =
                .ok () := congrArg Prod.fst hsubmit
            simp [EvidenceDb.accepts, hfirst, Except.isOk, Except.toBool]
          simp [hcommitted, hopen, heffect, haccepts]
      · exfalso
        cases ending with
        | answered => exact heffect rfl
        | refused n e =>
          have hn : n = 0 := by simpa [takesEffect] using heffect
          subst hn
          simp only [Engine.respond, hopen, if_true, Option.some.injEq, Prod.mk.injEq] at hrespond
          obtain ⟨-, rfl⟩ := hrespond
          exact hchanged hwithin.failed.committed
        | lost n e =>
          cases n with
          | none => exact heffect rfl
          | some n =>
            have hn : n = 0 := by simpa [takesEffect] using heffect
            subst hn
            simp only [Engine.respond, hopen, if_true, Option.some.injEq, Prod.mk.injEq] at hrespond
            obtain ⟨-, rfl⟩ := hrespond
            exact hchanged hwithin.committed
    · obtain ⟨rfl, -⟩ := respond_closed hclosed hrespond
      exact absurd hd hchanged
  · intro heq
    rw [hconnection]
    apply hok
    cases r' with
    | ok u => rfl
    | error e => cases heq

/-- The ROLLBACK in which a session that failed ends. -/
theorem BeforeRollback.rollback (h : BeforeRollback d s) (hrun : D.run .rollback ending s = some (r, s')) :
    ClosesTransaction d s' ↔ s'.prompt = true := by
  obtain ⟨r', c', hrespond, rfl, hconnection, hprompt, hcommitted⟩ := run_eq_some hrun
  have hstanding : s.connection.session.Standing s.connection.session.committed := by
    rcases h.block with hnone | hworking
    · exact Session.standing_committed hnone
    · rw [hworking.standing.committed]
      exact hworking.standing
  have hidle : ∀ command ∈ [EvidenceCall.rollback.command], D.engine.Idle command := by
    intro command hcommand
    obtain rfl := List.mem_singleton.1 hcommand
    exact Or.inr (Or.inl rfl)
  have hsame : s'.connection.session.committed = s.connection.session.committed := by
    rw [hconnection]
    exact (D.engine.respond_standing hidle hstanding hrespond).committed
  have hvisible : s'.connection.session.committed ≠ d → s'.committed = true := by
    intro hchanged
    rw [hsame] at hchanged
    rw [hcommitted, h.visible hchanged]
    rfl
  have hclosed : s'.connection.session.block = none → s'.prompt = true →
      (ClosesTransaction d s' ↔ s'.prompt = true) := by
    intro hnone hflag
    simp only [hflag, iff_true]
    exact ⟨hnone, hvisible⟩
  cases hopen : s.connection.isOpen with
  | false =>
    obtain ⟨rfl, hending, -⟩ := respond_closed hopen hrespond
    have hnone : s.connection.session.block = none := by
      rcases h.block with hnone | ⟨hlive, -⟩ | ⟨-, hnone, -⟩
      · exact hnone
      · rw [hopen] at hlive
        cases hlive
      · exact hnone
    refine hclosed (by rw [hconnection, hnone]) ?_
    cases ending with
    | answered => exact absurd rfl hending
    | refused n e => simp [hprompt, h.prompt, EvidenceDb.promptStep, hopen]
    | lost n e => simp [hprompt, h.prompt, EvidenceDb.promptStep]
  | true =>
    cases ending with
    | answered =>
      simp only [Engine.respond, hopen, if_true, Option.some.injEq, Prod.mk.injEq] at hrespond
      obtain ⟨-, rfl⟩ := hrespond
      refine hclosed ?_ (by simp [hprompt, h.prompt, EvidenceDb.promptStep])
      rw [hconnection]
      simp only [EvidenceCall.command, submit_rollback]
    | refused n e =>
      simp only [Engine.respond, hopen, if_true, Option.some.injEq, Prod.mk.injEq, EvidenceCall.command,
        progress_rollback] at hrespond
      obtain ⟨-, rfl⟩ := hrespond
      by_cases hn : n = 0
      · cases hblock : s.connection.session.block with
        | none =>
          refine hclosed ?_ (by simp [hprompt, h.prompt, EvidenceDb.promptStep, hblock])
          rw [hconnection]
          simp [hn, Session.failed_of_none hblock, hblock]
        | some b =>
          have hflag : s'.prompt = false := by simp [hprompt, EvidenceDb.promptStep, hopen, hblock, hn]
          have hwithin : s.connection.session.Within d := by
            rcases h.block with hnone | ⟨-, hwithin⟩ | ⟨hgone, -⟩
            · rw [hblock] at hnone
              cases hnone
            · exact hwithin
            · rw [hopen] at hgone
              cases hgone
          have hleft : s'.connection.session.Within d := by
            rw [hconnection]
            simpa [hn] using hwithin.failed
          simp [hflag, not_closesTransaction hleft]
      · refine hclosed ?_ (by simp [hprompt, h.prompt, EvidenceDb.promptStep, hn])
        rw [hconnection]
        simp only [hn, if_false]
        exact congrArg Session.block (Session.failed_of_none rfl)
    | lost n e =>
      obtain ⟨-, hblock, -⟩ := respond_lost hopen hrespond
      exact hclosed (by rw [hconnection, hblock]) (by simp [hprompt, h.prompt, EvidenceDb.promptStep])

theorem openHandle_exec {statementTimeoutMs : Int} {out : Except Thrown Unit}
    (hopen : s.connection.isOpen = true) (hrest : s.connection.session.block = none)
    (hprompt : s.prompt = true)
    (hexec : Exec D.runner (EvidenceSession.openHandle statementTimeoutMs) s out s') :
    (out = .ok () → InWork s.connection.session.committed s') ∧
      (out ≠ .ok () → (ClosesTransaction s.connection.session.committed s' ↔ s'.prompt = true)) := by
  rcases hexec.bind_inv with ⟨_, s₁, hbegin, hset⟩ | ⟨e, hbegin, rfl⟩
  · obtain ⟨_, hbegin⟩ := hbegin.perform_inv
    obtain ⟨_, hset⟩ := hset.perform_inv
    exact ((begin_step hopen hrest hprompt hbegin).1 rfl).set hset
  · obtain ⟨_, hbegin⟩ := hbegin.perform_inv
    exact ⟨fun heq => (by cases heq), (begin_step hopen hrest hprompt hbegin).2⟩

/-- The `try` of a session leaves it closed, or about to be rolled back. -/
theorem InWork.workAndCommit {work : HandleProgram Rows α} {out : Except Thrown α} (h : InWork d s)
    (hexec : Exec D.runner (EvidenceSession.workAndCommit work) s out s') :
    BeforeRollback d s' ∧ (∀ a, out = .ok a → s'.connection.session.block = none) := by
  rcases hexec.bind_inv with ⟨a, s₁, hwork, hrest⟩ | ⟨e, hwork, rfl⟩
  · have hworked := h.onRunner hwork
    rcases hrest.bind_inv with ⟨_, s₂, hcommit, hret⟩ | ⟨e, hcommit, rfl⟩
    · obtain ⟨_, hcommit⟩ := hcommit.perform_inv
      obtain ⟨hbefore, hclosed⟩ := hworked.commit hcommit
      cases hret
      exact ⟨hbefore, fun _ _ => hclosed rfl⟩
    · obtain ⟨_, hcommit⟩ := hcommit.perform_inv
      exact ⟨(hworked.commit hcommit).1, fun _ heq => by cases heq⟩
  · exact ⟨(h.onRunner hwork).beforeRollback, fun _ heq => by cases heq⟩

end

/-- Whatever the callback does and whichever of its queries fail or are lost, a session on a connection
at rest gives it back without a transaction, with no effect but by a COMMIT that took effect, exactly
when all its steps were prompt. -/
theorem withSession_closes_iff {δ κ Rows α : Type} (D : EvidenceDb δ κ Rows) (statementTimeoutMs : Int)
    (work : HandleProgram Rows α) (c : ClientConnection δ κ) (hopen : c.isOpen = true)
    (hrest : c.session.block = none) (out : Except Thrown α) (s' : EvidenceState δ κ)
    (hexec : Exec D.runner (EvidenceSession.withSession statementTimeoutMs work) ⟨c, true, false⟩ out s') :
    ClosesTransaction c.session.committed s' ↔ s'.prompt = true := by
  rcases hexec.bind_inv with ⟨_, s₁, hhandle, htry⟩ | ⟨e, hhandle, rfl⟩
  · have hinWork := (openHandle_exec hopen hrest rfl hhandle).1 rfl
    rcases htry.tryCatch_inv with ⟨a, hwork, rfl⟩ | ⟨e, s₂, hwork, hcatch⟩
    · obtain ⟨hbefore, hclosed⟩ := hinWork.workAndCommit hwork
      simp only [hbefore.prompt, iff_true]
      exact ⟨hclosed a rfl, hbefore.visible⟩
    · obtain ⟨hbefore, -⟩ := hinWork.workAndCommit hwork
      rcases hcatch.handle_inv with ⟨_, s₃, hrollback, hthrow⟩ | ⟨e', s₃, hrollback, hthrow⟩
      · obtain ⟨_, hrollback⟩ := hrollback.perform_inv
        cases hthrow
        exact hbefore.rollback hrollback
      · obtain ⟨_, hrollback⟩ := hrollback.perform_inv
        cases hthrow
        exact hbefore.rollback hrollback
  · exact (openHandle_exec hopen hrest rfl hhandle).2 fun heq => by cases heq

namespace TestEvidence

/-- What PostgreSQL says of a timeout it does not take. -/
def outOfRange : Thrown := .pg ⟨some "22023", none, "parameter out of range"⟩

/-- A store that is only read. -/
def engine : Engine EvidenceSql Nat Unit Thrown where
  perform sql view :=
    match sql with
    | .setLocalStatementTimeout statementTimeoutMs =>
      if 0 ≤ statementTimeoutMs ∧ statementTimeoutMs ≤ 2147483647 then .ok view else .error outOfRange
    | .query _ => .ok view
  deferred _ _ := none
  deferred_self _ := rfl
  settle settings := settings
  inFailedTransaction := .pg ⟨some "25P02", none, "current transaction is aborted"⟩
  noTransaction := .pg ⟨some "25P01", none, "there is no transaction in progress"⟩
  noSavepoint := .pg ⟨some "3B001", none, "savepoint does not exist"⟩

def db : EvidenceDb Nat Unit Nat := ⟨engine, (), fun _ view => view.data⟩

def atRest : ClientConnection Nat Unit := ⟨⟨⟨7, ()⟩, none⟩, true⟩

def accountList : HandleProgram Nat Nat := Prog.perform "SELECT account_id FROM reporting.accounts"

theorem answered_closes :
    ClosesTransaction 7 (⟨atRest, true, true⟩ : EvidenceState Nat Unit) := by
  have hexec : Exec db.runner (EvidenceSession.withSession 5000 accountList) ⟨atRest, true, false⟩
      (.ok 7) ⟨atRest, true, true⟩ := Exec.of_play (show db.runner.play .answered _ _ = _ from rfl)
  exact (withSession_closes_iff db 5000 accountList atRest rfl rfl _ _ hexec).2 rfl

/-- The server refuses the timeout after BEGIN, and the transaction stays open. -/
theorem timeout_refused : ∃ s', Exec db.runner (EvidenceSession.withSession (-1) accountList)
    ⟨atRest, true, false⟩ (.error outOfRange) s' ∧ ¬ ClosesTransaction 7 s' := by
  refine ⟨⟨⟨⟨⟨7, ()⟩, some ⟨⟨7, ()⟩, [], true, false⟩⟩, true⟩, false, false⟩, ?_, ?_⟩
  · exact Exec.of_play (show db.runner.play .answered _ _ = _ from rfl)
  · rintro ⟨hclosed, -⟩
    cases hclosed

end TestEvidence

end PlusOne
