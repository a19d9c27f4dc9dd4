import Mathlib.Tactic.Common

/-! # Sessions of a transactional store

A session sees the data and its own settings. Inside a transaction block it works
on what it sees; only the end of the block decides whether others see it too. A query
is a list of commands: outside a block it is a transaction of its own, which a command
of the query can end or turn into a block that stays open. -/

namespace Transactions

variable {τ δ κ ε : Type}

/-- What one session sees. -/
structure View (δ κ : Type) where
  data : δ
  settings : κ

inductive Command (τ : Type)
  | begin
  | commit
  | rollback
  | savepoint (name : String)
  | rollbackTo (name : String)
  | release (name : String)
  | statement (text : τ)

/-- An open transaction: where it began, its savepoints with the last one first, whether a
command of it failed, and whether it ends with the query that opened it. -/
structure Block (δ κ : Type) where
  begun : View δ κ
  savepoints : List (String × View δ κ)
  aborted : Bool
  implicit : Bool

structure Session (δ κ : Type) where
  view : View δ κ
  block : Option (Block δ κ)

/-- What the statements of a language do, and what a transaction checks and drops at its end: a
transaction that changed nothing has nothing to check. -/
structure Engine (τ δ κ ε : Type) where
  perform : τ → View δ κ → Except ε (View δ κ)
  deferred : δ → δ → Option ε
  deferred_self : ∀ d, deferred d d = none
  settle : κ → κ
  inFailedTransaction : ε
  noTransaction : ε
  noSavepoint : ε

namespace Session

/-- The data that is left when the session goes away. -/
def committed (s : Session δ κ) : δ :=
  match s.block with
  | none => s.view.data
  | some b => b.begun.data

/-- The block a command runs in. -/
def opened (s : Session δ κ) : Block δ κ :=
  s.block.getD ⟨s.view, [], false, true⟩

/-- A command of the session failed. -/
def failed (s : Session δ κ) : Session δ κ :=
  match s.block with
  | none => s
  | some b => if b.implicit then ⟨b.begun, none⟩ else { s with block := some { b with aborted := true } }

end Session

namespace Engine

variable (E : Engine τ δ κ ε)

/-- The block ends; what it did stays when the checks put off to this point hold. -/
def commit (b : Block δ κ) (view : View δ κ) : Except ε Unit × Session δ κ :=
  if b.aborted then (.ok (), ⟨b.begun, none⟩)
  else
    match E.deferred b.begun.data view.data with
    | none => (.ok (), ⟨{ view with settings := E.settle view.settings }, none⟩)
    | some e => (.error e, ⟨b.begun, none⟩)

/-- Work with savepoints, which only a block that stays open has. -/
def atSavepoint (b : Block δ κ) (s : Session δ κ) (name : String)
    (go : View δ κ → List (String × View δ κ) → Session δ κ) : Except ε Unit × Session δ κ :=
  if b.implicit then (.error E.noTransaction, s)
  else
    match b.savepoints.dropWhile fun savepoint => savepoint.1 != name with
    | [] => (.error E.noSavepoint, s)
    | savepoint :: earlier => (.ok (), go savepoint.2 earlier)

def command (c : Command τ) (s : Session δ κ) : Except ε Unit × Session δ κ :=
  let b := s.opened
  let s : Session δ κ := { s with block := some b }
  match c with
  | .begin =>
    if b.aborted then (.error E.inFailedTransaction, s)
    else (.ok (), { s with block := some { b with implicit := false } })
  | .commit => E.commit b s.view
  | .rollback => (.ok (), ⟨b.begun, none⟩)
  | .savepoint name =>
    if b.aborted then (.error E.inFailedTransaction, s)
    else if b.implicit then (.error E.noTransaction, s)
    else (.ok (), { s with block := some { b with savepoints := (name, s.view) :: b.savepoints } })
  | .rollbackTo name =>
    E.atSavepoint b s name fun saved earlier =>
      ⟨saved, some { b with savepoints := (name, saved) :: earlier, aborted := false }⟩
  | .release name =>
    if b.aborted then (.error E.inFailedTransaction, s)
    else E.atSavepoint b s name fun _ earlier =>
      { s with block := some { b with savepoints := earlier } }
  | .statement text =>
    if b.aborted then (.error E.inFailedTransaction, s)
    else
      match E.perform text s.view with
      | .ok view => (.ok (), { s with view })
      | .error e => (.error e, s)

/-- A transaction that belongs to the query ends with it. -/
def close (s : Session δ κ) : Except ε Unit × Session δ κ :=
  match s.block with
  | none => (.ok (), s)
  | some b => if b.implicit then E.commit b s.view else (.ok (), s)

/-- The commands of one query; the first that fails ends it. -/
def query : List (Command τ) → Session δ κ → Except ε Unit × Session δ κ
  | [], s => E.close s
  | c :: commands, s =>
    match E.command c s with
    | (.ok _, s') => query commands s'
    | (.error e, s') => (.error e, s'.failed)

/-- A query that the server may not be able to read. -/
def submit (commands : Except ε (List (Command τ))) (s : Session δ κ) :
    Except ε Unit × Session δ κ :=
  match commands with
  | .ok commands => E.query commands s
  | .error e => (.error e, s.failed)

/-- The commands of a query that stops before its end. -/
def advance : List (Command τ) → Session δ κ → Session δ κ
  | [], s => s
  | c :: commands, s =>
    match E.command c s with
    | (.ok _, s') => advance commands s'
    | (.error _, s') => s'.failed

/-- The first `n` commands of a query. -/
def progress (n : Nat) (commands : Except ε (List (Command τ))) (s : Session δ κ) : Session δ κ :=
  match commands with
  | .ok commands => E.advance (commands.take n) s
  | .error _ => s

end Engine

/-! ## Connections -/

/-- How a query ends for the client: with what the server did, with an error after some commands,
or with the connection gone after some commands or after all of the query. -/
inductive Exchange (ε : Type)
  | answered
  | refused (commands : Nat) (e : ε)
  | lost (commands : Option Nat) (e : ε)

structure ClientConnection (δ κ : Type) where
  session : Session δ κ
  isOpen : Bool

/-- A new connection to a store that holds `data`. -/
def ClientConnection.login (settings : κ) (data : δ) : ClientConnection δ κ := ⟨⟨⟨data, settings⟩, none⟩, true⟩

/-- The server ends the session of a client that is gone. -/
def ClientConnection.gone (settings : κ) (s : Session δ κ) : ClientConnection δ κ :=
  ⟨⟨⟨s.committed, settings⟩, none⟩, false⟩

/-- One query over a connection. -/
def Engine.respond (E : Engine τ δ κ ε) (settings : κ) (commands : Except ε (List (Command τ))) :
    Exchange ε → ClientConnection δ κ → Option (Except ε Unit × ClientConnection δ κ)
  | .answered, c =>
    if c.isOpen then
      some ((E.submit commands c.session).1, { c with session := (E.submit commands c.session).2 })
    else none
  | .refused n e, c =>
    if c.isOpen then
      some (.error e, { c with session := (E.progress n commands c.session).failed })
    else some (.error e, c)
  | .lost n e, c =>
    if c.isOpen then
      let session :=
        match n with
        | some n => E.progress n commands c.session
        | none => (E.submit commands c.session).2
      some (.error e, .gone settings session)
    else some (.error e, c)

/-! ## Inside a block that the commands leave open -/

/-- The command ends whatever block it runs in. -/
def Command.ends : Command τ → Bool
  | .commit | .rollback => true
  | _ => false

/-- The session is in a block that began where the store holds `d`. -/
def Session.Within (d : δ) (s : Session δ κ) : Prop :=
  ∃ b, s.block = some b ∧ b.implicit = false ∧ b.begun.data = d

section Within

variable {E : Engine τ δ κ ε} {d : δ} {s : Session δ κ}

theorem Session.Within.committed (h : s.Within d) : s.committed = d := by
  obtain ⟨b, hblock, _, hbegun⟩ := h
  simp [Session.committed, hblock, hbegun]

theorem Session.Within.failed (h : s.Within d) : s.failed.Within d := by
  obtain ⟨b, hblock, himplicit, hbegun⟩ := h
  simp [Session.failed, Session.Within, hblock, himplicit, hbegun]

theorem Engine.command_within {c : Command τ} (hc : c.ends = false) (h : s.Within d) :
    (E.command c s).2.Within d := by
  obtain ⟨b, hblock, himplicit, hbegun⟩ := h
  have hopened : s.opened = b := by simp [Session.opened, hblock]
  cases c with
  | begin =>
    by_cases haborted : b.aborted = true
    · simp [Engine.command, hopened, haborted, Session.Within, himplicit, hbegun]
    · simp [Engine.command, hopened, haborted, Session.Within, hbegun]
  | commit => cases hc
  | rollback => cases hc
  | savepoint name =>
    by_cases haborted : b.aborted = true
    · simp [Engine.command, hopened, haborted, Session.Within, himplicit, hbegun]
    · simp [Engine.command, hopened, haborted, Session.Within, himplicit, hbegun]
  | rollbackTo name =>
    simp only [Engine.command, Engine.atSavepoint, hopened, himplicit, Bool.false_eq_true, if_false]
    split
    · exact ⟨b, rfl, himplicit, hbegun⟩
    · exact ⟨_, rfl, rfl, hbegun⟩
  | release name =>
    simp only [Engine.command, Engine.atSavepoint, hopened, himplicit, Bool.false_eq_true, if_false]
    split
    · exact ⟨b, rfl, himplicit, hbegun⟩
    · split
      · exact ⟨b, rfl, himplicit, hbegun⟩
      · exact ⟨_, rfl, rfl, hbegun⟩
  | statement text =>
    simp only [Engine.command, hopened]
    split
    · exact ⟨b, rfl, himplicit, hbegun⟩
    · split
      · exact ⟨b, rfl, himplicit, hbegun⟩
      · exact ⟨b, rfl, himplicit, hbegun⟩

variable {commands : List (Command τ)}

/-- What every command of a query keeps, a failure and the end of the query, the query keeps. -/
theorem Engine.query_keeps {P : Session δ κ → Prop} (hcommand : ∀ c ∈ commands, ∀ s, P s → P (E.command c s).2)
    (hfailed : ∀ s, P s → P s.failed) (hclose : ∀ s, P s → P (E.close s).2) (h : P s) : P (E.query commands s).2 := by
  induction commands generalizing s with
  | nil => exact hclose s h
  | cons c commands ih =>
    have hfirst := hcommand c List.mem_cons_self s h
    rcases hrun : E.command c s with ⟨r, s'⟩
    rw [hrun] at hfirst
    cases r with
    | ok u =>
      have hrest := ih (fun other hother => hcommand other (List.mem_cons_of_mem _ hother)) hfirst
      simpa only [Engine.query, hrun] using hrest
    | error e => simpa only [Engine.query, hrun] using hfailed s' hfirst

theorem Engine.advance_keeps {P : Session δ κ → Prop} (hcommand : ∀ c ∈ commands, ∀ s, P s → P (E.command c s).2)
    (hfailed : ∀ s, P s → P s.failed) (h : P s) :
    P (E.advance commands s) := by
  induction commands generalizing s with
  | nil => exact h
  | cons c commands ih =>
    have hfirst := hcommand c List.mem_cons_self s h
    rcases hrun : E.command c s with ⟨r, s'⟩
    rw [hrun] at hfirst
    cases r with
    | ok u =>
      have hrest := ih (fun other hother => hcommand other (List.mem_cons_of_mem _ hother)) hfirst
      simpa only [Engine.advance, hrun] using hrest
    | error e => simpa only [Engine.advance, hrun] using hfailed s' hfirst

theorem Engine.close_within (h : s.Within d) : (E.close s).2.Within d := by
  obtain ⟨b, hblock, himplicit, hbegun⟩ := h
  simp [Engine.close, hblock, himplicit, Session.Within, hbegun]

theorem Engine.query_within (hcommands : ∀ c ∈ commands, c.ends = false) (h : s.Within d) :
    (E.query commands s).2.Within d :=
  E.query_keeps (fun c hc _ => E.command_within (hcommands c hc)) (fun _ => Session.Within.failed)
    (fun _ => E.close_within) h

theorem Engine.advance_within (hcommands : ∀ c ∈ commands, c.ends = false) (h : s.Within d) :
    (E.advance commands s).Within d :=
  E.advance_keeps (fun c hc _ => E.command_within (hcommands c hc)) (fun _ => Session.Within.failed) h

theorem Engine.submit_within {commands : Except ε (List (Command τ))}
    (hcommands : ∀ cs, commands = .ok cs → ∀ c ∈ cs, c.ends = false) (h : s.Within d) :
    (E.submit commands s).2.Within d := by
  cases commands with
  | ok cs => exact E.query_within (hcommands cs rfl) h
  | error e => exact h.failed

theorem Engine.progress_within {commands : Except ε (List (Command τ))} {n : Nat}
    (hcommands : ∀ cs, commands = .ok cs → ∀ c ∈ cs, c.ends = false) (h : s.Within d) :
    (E.progress n commands s).Within d := by
  cases commands with
  | ok cs =>
    have htaken : ∀ c ∈ cs.take n, c.ends = false := fun c hc => hcommands cs rfl c (List.mem_of_mem_take hc)
    exact E.advance_within htaken h
  | error e => exact h

end Within

/-! ## Queries that change no data -/

/-- The store holds `d` and nothing of the session is on its way to change that. -/
def Session.Standing (d : δ) (s : Session δ κ) : Prop :=
  match s.block with
  | none => s.view.data = d
  | some b => b.begun.data = d ∧ (b.implicit = true → s.view.data = d)

/-- The command ends no block with what it did, and changes no data. -/
def Engine.Idle (E : Engine τ δ κ ε) (c : Command τ) : Prop :=
  c = .begin ∨ c = .rollback ∨
    ∃ text, c = .statement text ∧ ∀ v v', E.perform text v = .ok v' → v'.data = v.data

section Standing

variable {E : Engine τ δ κ ε} {d : δ} {s : Session δ κ}

theorem Session.Within.standing (h : s.Within d) : s.Standing d := by
  obtain ⟨b, hblock, himplicit, hbegun⟩ := h
  simp [Session.Standing, hblock, himplicit, hbegun]

theorem Session.Standing.committed (h : s.Standing d) : s.committed = d := by
  unfold Session.Standing at h
  unfold Session.committed
  split at h
  · exact h
  · exact h.1

theorem Session.Standing.opened (h : s.Standing d) :
    s.opened.begun.data = d ∧ (s.opened.implicit = true → s.view.data = d) := by
  unfold Session.Standing at h
  split at h
  · rename_i hblock
    simp [Session.opened, hblock, h]
  · rename_i b hblock
    simpa [Session.opened, hblock] using h

theorem Session.Standing.failed (h : s.Standing d) : s.failed.Standing d := by
  unfold Session.Standing at h
  split at h
  · rename_i hblock
    simpa [Session.failed, Session.Standing, hblock] using h
  · rename_i b hblock
    by_cases himplicit : b.implicit = true
    · simp [Session.failed, Session.Standing, hblock, himplicit, h.1]
    · simp [Session.failed, Session.Standing, hblock, himplicit, h.1]

theorem Engine.command_standing {c : Command τ} (hc : E.Idle c) (h : s.Standing d) :
    (E.command c s).2.Standing d := by
  obtain ⟨hbegun, hdata⟩ := h.opened
  rcases hc with rfl | rfl | ⟨text, rfl, hkeeps⟩
  · by_cases haborted : s.opened.aborted = true
    · simpa [Engine.command, haborted, Session.Standing, hbegun] using hdata
    · simp [Engine.command, haborted, Session.Standing, hbegun]
  · simp [Engine.command, Session.Standing, hbegun]
  · simp only [Engine.command]
    split
    · exact ⟨hbegun, hdata⟩
    · split
      · rename_i view hperform
        have hsame : view.data = s.view.data := hkeeps _ _ hperform
        exact ⟨hbegun, fun himplicit => hsame.trans (hdata himplicit)⟩
      · exact ⟨hbegun, hdata⟩

theorem Engine.close_standing (h : s.Standing d) : (E.close s).2.Standing d := by
  unfold Engine.close
  split
  · exact h
  · rename_i b hblock
    simp only [Session.Standing, hblock] at h
    split
    · rename_i himplicit
      unfold Engine.commit
      split
      · exact h.1
      · split
        · exact h.2 himplicit
        · exact h.1
    · simpa only [Session.Standing, hblock] using h

variable {commands : List (Command τ)}

theorem Engine.query_standing (hcommands : ∀ c ∈ commands, E.Idle c) (h : s.Standing d) :
    (E.query commands s).2.Standing d :=
  E.query_keeps (fun c hc _ => E.command_standing (hcommands c hc)) (fun _ => Session.Standing.failed)
    (fun _ => E.close_standing) h

theorem Engine.advance_standing (hcommands : ∀ c ∈ commands, E.Idle c) (h : s.Standing d) :
    (E.advance commands s).Standing d :=
  E.advance_keeps (fun c hc _ => E.command_standing (hcommands c hc)) (fun _ => Session.Standing.failed) h

variable {c c' : ClientConnection δ κ} {ending : Exchange ε} {r : Except ε Unit} {settings : κ}

/-- However a query ends, what stands after all of its commands and after some of them stands. -/
theorem Engine.respond_keeps {commands : Except ε (List (Command τ))}
    (hsubmit : (E.submit commands c.session).2.Standing d)
    (hprogress : ∀ n, (E.progress n commands c.session).Standing d) (h : c.session.Standing d)
    (hrun : E.respond settings commands ending c = some (r, c')) :
    c'.session.Standing d := by
  cases ending with
  | answered =>
    simp only [Engine.respond, Option.ite_none_right_eq_some] at hrun
    obtain ⟨_, hrun⟩ := hrun
    cases hrun
    exact hsubmit
  | refused n e =>
    simp only [Engine.respond] at hrun
    split_ifs at hrun
    · cases hrun
      exact (hprogress n).failed
    · cases hrun
      exact h
  | lost n e =>
    simp only [Engine.respond] at hrun
    split_ifs at hrun
    · cases hrun
      cases n with
      | none => exact hsubmit.committed
      | some n => exact (hprogress n).committed
    · cases hrun
      exact h

theorem Engine.respond_within {commands : Except ε (List (Command τ))}
    (hcommands : ∀ cs, commands = .ok cs → ∀ command ∈ cs, command.ends = false) (h : c.session.Within d)
    (hrun : E.respond settings commands ending c = some (r, c')) :
    c'.session.Standing d :=
  E.respond_keeps (E.submit_within hcommands h).standing (fun _ => (E.progress_within hcommands h).standing)
    h.standing hrun

theorem Engine.respond_standing (hcommands : ∀ command ∈ commands, E.Idle command) (h : c.session.Standing d)
    (hrun : E.respond settings (.ok commands) ending c = some (r, c')) :
    c'.session.Standing d := by
  have hadvance : ∀ n, (E.progress n (.ok commands) c.session).Standing d := fun n =>
    E.advance_standing (fun command hmem => hcommands command (List.mem_of_mem_take hmem)) h
  have hquery : (E.submit (.ok commands) c.session).2.Standing d := E.query_standing hcommands h
  exact E.respond_keeps hquery hadvance h hrun

theorem Engine.commit_block (b : Block δ κ) (view : View δ κ) : (E.commit b view).2.block = none := by
  unfold Engine.commit
  split
  · rfl
  · split
    · rfl
    · rfl

theorem Engine.commit_error {b : Block δ κ} {view : View δ κ} {e : ε} {s' : Session δ κ}
    (h : E.commit b view = (.error e, s')) : s'.committed = b.begun.data := by
  unfold Engine.commit at h
  split at h
  · cases h
  · split at h
    · cases h
    · cases h
      rfl

theorem Session.standing_committed (h : s.block = none) : s.Standing s.committed := by
  simp [Session.Standing, Session.committed, h]

theorem Session.failed_of_none (h : s.block = none) : s.failed = s := by
  simp [Session.failed, h]

theorem Engine.submit_commit {b : Block δ κ} (h : s.block = some b) :
    E.submit (.ok [.commit]) s = E.commit b s.view := by
  have hopened : s.opened = b := by simp [Session.opened, h]
  have hended := E.commit_block b s.view
  rcases hcommit : E.commit b s.view with ⟨r, s'⟩
  have hnone : s'.block = none := by simpa only [hcommit] using hended
  cases r with
  | ok u => simp [Engine.submit, Engine.query, Engine.command, hopened, hcommit, Engine.close, hnone]
  | error e =>
    simp [Engine.submit, Engine.query, Engine.command, hopened, hcommit, Session.failed_of_none hnone]

theorem Engine.progress_commit {b : Block δ κ} (h : s.block = some b) (n : Nat) :
    E.progress n (.ok [.commit]) s = s ∨ E.progress n (.ok [.commit]) s = (E.commit b s.view).2 := by
  have hopened : s.opened = b := by simp [Session.opened, h]
  have hnone := E.commit_block b s.view
  cases n with
  | zero => exact .inl rfl
  | succ n =>
    rcases hcommit : E.commit b s.view with ⟨r, s'⟩
    rw [hcommit] at hnone
    refine .inr ?_
    cases r with
    | ok u => simp [Engine.progress, Engine.advance, Engine.command, hopened, hcommit]
    | error e =>
      simp [Engine.progress, Engine.advance, Engine.command, hopened, hcommit,
        Session.failed_of_none hnone]

/-- A COMMIT from a block takes effect or leaves the store as it was. -/
theorem Engine.respond_commit (h : c.session.Within d)
    (hrun : E.respond settings (.ok [.commit]) ending c = some (r, c')) :
    (c'.session.Standing d ∧ r ≠ .ok ()) ∨
      ∃ s, E.submit (.ok [.commit]) c.session = (.ok (), s) ∧ c'.session.Standing s.committed := by
  obtain ⟨b, hblock, himplicit, hbegun⟩ := h
  have hwithin : c.session.Within d := ⟨b, hblock, himplicit, hbegun⟩
  have hsubmit := E.submit_commit hblock
  have hnone := E.commit_block b c.session.view
  rcases hcommit : E.commit b c.session.view with ⟨r', s⟩
  rw [hcommit] at hsubmit hnone
  have hended : s.Standing s.committed := Session.standing_committed hnone
  have hbefore : ∀ e, r' = .error e → s.Standing d := by
    rintro e rfl
    rw [E.commit_error hcommit, hbegun] at hended
    exact hended
  have hprogress : ∀ n, E.progress n (.ok [.commit]) c.session = c.session ∨
      E.progress n (.ok [.commit]) c.session = s := by
    intro n
    simpa only [hcommit] using E.progress_commit hblock n
  -- Whatever the client hears, the session is where it was or where the COMMIT left it.
  have hplaces : ∀ s', s'.Standing s.committed → r ≠ .ok () ∨ r' = r → c'.session = s' →
      (c'.session.Standing d ∧ r ≠ .ok ()) ∨
        ∃ s, E.submit (.ok [.commit]) c.session = (.ok (), s) ∧ c'.session.Standing s.committed := by
    intro s' hs' hr hsession
    cases r' with
    | ok u => exact .inr ⟨s, hsubmit, hsession ▸ hs'⟩
    | error e =>
      have hd : s.committed = d := (hbefore e rfl).committed
      have hr' : r ≠ .ok () := by
        rcases hr with hne | heq
        · exact hne
        · rw [← heq]
          exact fun h => by cases h
      exact .inl ⟨hsession ▸ hd ▸ hs', hr'⟩
  cases ending with
  | answered =>
    simp only [Engine.respond, Option.ite_none_right_eq_some, hsubmit] at hrun
    obtain ⟨_, hrun⟩ := hrun
    cases hrun
    exact hplaces s hended (.inr rfl) rfl
  | refused n e =>
    have hne : (.error e : Except ε Unit) ≠ .ok () := fun h => by cases h
    simp only [Engine.respond] at hrun
    split_ifs at hrun
    · cases hrun
      rcases hprogress n with hstay | hstep
      · exact .inl ⟨by simpa only [hstay] using hwithin.failed.standing, hne⟩
      · refine hplaces s hended (.inl hne) ?_
        simp only [hstep, Session.failed_of_none hnone]
    · cases hrun
      exact .inl ⟨hwithin.standing, hne⟩
  | lost n e =>
    have hne : (.error e : Except ε Unit) ≠ .ok () := fun h => by cases h
    simp only [Engine.respond] at hrun
    split_ifs at hrun
    · cases hrun
      cases n with
      | none =>
        refine hplaces _ ?_ (.inl hne) rfl
        simp only [hsubmit]
        rfl
      | some n =>
        rcases hprogress n with hstay | hstep
        · refine .inl ⟨?_, hne⟩
          simp only [hstay]
          exact hwithin.committed
        · refine hplaces _ ?_ (.inl hne) rfl
          simp only [hstep]
          rfl
    · cases hrun
      exact .inl ⟨hwithin.standing, hne⟩

end Standing

/-! ## Sessions that differ in where their blocks began -/

/-- What the session sees, and every view it can still go back to but the one its block began
with, satisfies `K`, and none of its commands has failed. -/
def Session.Live (K : View δ κ → Prop) (s : Session δ κ) : Prop :=
  K s.view ∧ ∀ b, s.block = some b → b.aborted = false ∧ ∀ savepoint ∈ b.savepoints, K savepoint.2

/-- A block, but for the settings it began with. -/
def Block.marks (b : Block δ κ) : δ × List (String × View δ κ) × Bool × Bool :=
  (b.begun.data, b.savepoints, b.aborted, b.implicit)

/-- The sessions see the same and stand in like blocks. -/
def Session.Alike (s t : Session δ κ) : Prop :=
  s.view = t.view ∧ s.block.map Block.marks = t.block.map Block.marks

theorem Session.Alike.symm {s t : Session δ κ} (h : s.Alike t) : t.Alike s :=
  ⟨h.1.symm, h.2.symm⟩

section Alike

variable {E : Engine τ δ κ ε} {K : View δ κ → Prop} {s s' t : Session δ κ}

theorem Session.Alike.opened (h : s.Alike t) : s.opened.marks = t.opened.marks := by
  obtain ⟨hview, hblock⟩ := h
  cases hs : s.block with
  | none =>
    have ht : t.block = none := by simpa [hs] using hblock.symm
    simp [Session.opened, hs, ht, hview]
  | some b =>
    rw [hs] at hblock
    obtain ⟨b', ht, hmarks⟩ := Option.map_eq_some_iff.1 hblock.symm
    simp [Session.opened, hs, ht, hmarks]

theorem Session.Live.opened (h : s.Live K) :
    s.opened.aborted = false ∧ ∀ savepoint ∈ s.opened.savepoints, K savepoint.2 := by
  obtain ⟨_, hblock⟩ := h
  cases hs : s.block with
  | none => simp [Session.opened, hs]
  | some b => simpa [Session.opened, hs] using hblock b hs

theorem Session.Live.forget (h : s.Live K) : s.Live fun _ => True :=
  ⟨trivial, fun b hb => ⟨(h.2 b hb).1, fun _ _ => trivial⟩⟩

theorem Session.Alike.committed (h : s.Alike t) : s.committed = t.committed := by
  obtain ⟨hview, hblock⟩ := h
  cases hs : s.block with
  | none =>
    have ht : t.block = none := by simpa [hs] using hblock.symm
    simp [Session.committed, hs, ht, hview]
  | some b =>
    rw [hs] at hblock
    obtain ⟨b', ht, hmarks⟩ := Option.map_eq_some_iff.1 hblock.symm
    simp only [Block.marks, Prod.mk.injEq] at hmarks
    simp [Session.committed, hs, ht, hmarks.1]

/-- What the statements of the commands keep. -/
def Engine.Keeps (E : Engine τ δ κ ε) (K : View δ κ → Prop) (c : Command τ) : Prop :=
  ∀ text, c = .statement text → ∀ v v', K v → E.perform text v = .ok v' → K v'

theorem Engine.command_live {c : Command τ} (hc : c ≠ .rollback) (hkeeps : E.Keeps K c)
    (hsettle : ∀ v : View δ κ, K v → K { v with settings := E.settle v.settings })
    (hs : s.Live K) (h : E.command c s = (.ok (), s')) : s'.Live K := by
  obtain ⟨haborted, hsaved⟩ := hs.opened
  cases c with
  | begin =>
    simp only [Engine.command, haborted, Bool.false_eq_true, if_false, Prod.mk.injEq] at h
    obtain ⟨_, rfl⟩ := h
    refine ⟨hs.1, ?_⟩
    rintro b ⟨⟩
    exact ⟨rfl, hsaved⟩
  | commit =>
    simp only [Engine.command, Engine.commit, haborted, Bool.false_eq_true, if_false] at h
    split at h
    · cases h
      exact ⟨hsettle _ hs.1, fun b hb => (by cases hb)⟩
    · cases h
  | rollback => exact absurd rfl hc
  | savepoint name =>
    simp only [Engine.command, haborted, Bool.false_eq_true, if_false] at h
    split at h
    · cases h
    · cases h
      refine ⟨hs.1, ?_⟩
      rintro b ⟨⟩
      refine ⟨rfl, ?_⟩
      intro savepoint hsavepoint
      rcases List.mem_cons.1 hsavepoint with rfl | hold
      · exact hs.1
      · exact hsaved savepoint hold
  | rollbackTo name =>
    simp only [Engine.command, Engine.atSavepoint] at h
    split at h
    · cases h
    · split at h
      · cases h
      · rename_i saved earlier hfound
        cases h
        have hmem : ∀ savepoint ∈ saved :: earlier, K savepoint.2 := by
          intro savepoint hsavepoint
          rw [← hfound] at hsavepoint
          exact hsaved savepoint ((List.dropWhile_sublist _).mem hsavepoint)
        refine ⟨hmem saved List.mem_cons_self, ?_⟩
        rintro b ⟨⟩
        refine ⟨rfl, ?_⟩
        intro savepoint hsavepoint
        rcases List.mem_cons.1 hsavepoint with rfl | hold
        · exact hmem saved List.mem_cons_self
        · exact hmem savepoint (List.mem_cons_of_mem _ hold)
  | release name =>
    simp only [Engine.command, Engine.atSavepoint, haborted, Bool.false_eq_true, if_false] at h
    split at h
    · cases h
    · split at h
      · cases h
      · rename_i saved earlier hfound
        cases h
        refine ⟨hs.1, ?_⟩
        rintro b ⟨⟩
        refine ⟨rfl, ?_⟩
        intro savepoint hsavepoint
        have hmem : savepoint ∈ saved :: earlier := List.mem_cons_of_mem _ hsavepoint
        rw [← hfound] at hmem
        exact hsaved savepoint ((List.dropWhile_sublist _).mem hmem)
  | statement text =>
    simp only [Engine.command, haborted, Bool.false_eq_true, if_false] at h
    split at h
    · rename_i view hperform
      cases h
      refine ⟨hkeeps text rfl _ _ hs.1 hperform, ?_⟩
      rintro b ⟨⟩
      exact ⟨haborted, hsaved⟩
    · cases h

/-- Short of going back to where its block began, what a command does does not depend on it. -/
theorem Engine.command_alike {c : Command τ} (hc : c ≠ .rollback) (hs : s.Live K) (hst : s.Alike t)
    (h : E.command c s = (.ok (), s')) : ∃ t', E.command c t = (.ok (), t') ∧ s'.Alike t' := by
  obtain ⟨haborted, _⟩ := hs.opened
  obtain ⟨hbegun, hsavepoints, hblock, himplicit⟩ : s.opened.begun.data = t.opened.begun.data ∧
      s.opened.savepoints = t.opened.savepoints ∧ s.opened.aborted = t.opened.aborted ∧
      s.opened.implicit = t.opened.implicit := by
    simpa [Block.marks] using hst.opened
  rw [haborted] at hblock
  have hview := hst.1
  cases c with
  | begin =>
    simp only [Engine.command, haborted, Bool.false_eq_true, if_false, Prod.mk.injEq] at h
    obtain ⟨_, rfl⟩ := h
    simp [Engine.command, ← hblock, Session.Alike, Block.marks, hview, hbegun, hsavepoints]
  | commit =>
    simp only [Engine.command, Engine.commit, haborted, Bool.false_eq_true, if_false] at h
    split at h
    · rename_i hdeferred
      cases h
      rw [hview, hbegun] at hdeferred
      simp [Engine.command, Engine.commit, ← hblock, hdeferred, Session.Alike, hview]
    · cases h
  | rollback => exact absurd rfl hc
  | savepoint name =>
    simp only [Engine.command, haborted, Bool.false_eq_true, if_false] at h
    split at h
    · cases h
    · rename_i hopen
      cases h
      rw [himplicit] at hopen
      simp [Engine.command, ← hblock, hopen, Session.Alike, Block.marks, hview, hbegun, hsavepoints,
        himplicit]
  | rollbackTo name =>
    simp only [Engine.command, Engine.atSavepoint, hsavepoints, himplicit] at h ⊢
    split at h
    · cases h
    · rename_i hopen
      simp only [if_neg hopen]
      split at h
      · cases h
      · cases h
        exact ⟨_, rfl, rfl, by simp [Block.marks, hbegun]⟩
  | release name =>
    simp only [Engine.command, Engine.atSavepoint, haborted, ← hblock, Bool.false_eq_true, if_false,
      hsavepoints, himplicit] at h ⊢
    split at h
    · cases h
    · rename_i hopen
      simp only [if_neg hopen]
      split at h
      · cases h
      · cases h
        exact ⟨_, rfl, hview, by simp [Block.marks, hbegun]⟩
  | statement text =>
    simp only [Engine.command, haborted, Bool.false_eq_true, if_false] at h
    split at h
    · rename_i view hperform
      cases h
      rw [hview] at hperform
      simp [Engine.command, ← hblock, hperform, Session.Alike, Block.marks, hbegun, hsavepoints,
        haborted, himplicit]
    · cases h

theorem Engine.close_live (hsettle : ∀ v : View δ κ, K v → K { v with settings := E.settle v.settings })
    (hs : s.Live K) (h : E.close s = (.ok (), s')) : s'.Live K := by
  simp only [Engine.close] at h
  split at h
  · cases h
    exact hs
  · rename_i b hblock
    split at h
    · simp only [Engine.commit, (hs.2 b hblock).1, Bool.false_eq_true, if_false] at h
      split at h
      · cases h
        exact ⟨hsettle _ hs.1, fun b hb => (by cases hb)⟩
      · cases h
    · cases h
      exact hs

theorem Engine.close_alike (hs : s.Live K) (hst : s.Alike t) (h : E.close s = (.ok (), s')) :
    ∃ t', E.close t = (.ok (), t') ∧ s'.Alike t' := by
  obtain ⟨hview, hblock⟩ := hst
  simp only [Engine.close] at h
  split at h
  · rename_i hnone
    cases h
    rw [hnone] at hblock
    have ht : t.block = none := by simpa using hblock.symm
    exact ⟨t, by simp [Engine.close, ht], hview, by simp [hnone, ht]⟩
  · rename_i b hsome
    have hlive := (hs.2 b hsome).1
    rw [hsome] at hblock
    obtain ⟨b', ht, hmarks⟩ := Option.map_eq_some_iff.1 hblock.symm
    simp only [Block.marks, Prod.mk.injEq, hlive] at hmarks
    obtain ⟨hbegun, hsavepoints, haborted, himplicit⟩ := hmarks
    split at h
    · rename_i hends
      simp only [Engine.commit, hlive, Bool.false_eq_true, if_false] at h
      split at h
      · rename_i hdeferred
        cases h
        rw [hview, ← hbegun] at hdeferred
        simp [Engine.close, Engine.commit, ht, himplicit, hends, haborted, hdeferred, Session.Alike, hview]
      · cases h
    · rename_i hends
      cases h
      refine ⟨t, by simp [Engine.close, ht, himplicit, hends], hview, ?_⟩
      simp [hsome, ht, Block.marks, hbegun, hsavepoints, haborted, himplicit, hlive]

theorem Engine.query_live {commands : List (Command τ)} (hrollback : .rollback ∉ commands)
    (hkeeps : ∀ c ∈ commands, E.Keeps K c)
    (hsettle : ∀ v : View δ κ, K v → K { v with settings := E.settle v.settings })
    (hs : s.Live K) (h : E.query commands s = (.ok (), s')) : s'.Live K := by
  induction commands generalizing s with
  | nil => exact E.close_live hsettle hs h
  | cons c commands ih =>
    simp only [Engine.query] at h
    split at h
    · rename_i u s₁ hrun
      have hne : c ≠ .rollback := fun hc => hrollback (hc ▸ List.mem_cons_self)
      have hfirst := E.command_live hne (hkeeps c List.mem_cons_self) hsettle hs hrun
      exact ih (fun hmem => hrollback (List.mem_cons_of_mem _ hmem))
        (fun other hother => hkeeps other (List.mem_cons_of_mem _ hother)) hfirst h
    · cases h

theorem Engine.query_alike {commands : List (Command τ)} (hrollback : .rollback ∉ commands)
    (hkeeps : ∀ c ∈ commands, E.Keeps K c)
    (hsettle : ∀ v : View δ κ, K v → K { v with settings := E.settle v.settings })
    (hs : s.Live K) (hst : s.Alike t) (h : E.query commands s = (.ok (), s')) :
    ∃ t', E.query commands t = (.ok (), t') ∧ s'.Alike t' := by
  induction commands generalizing s t with
  | nil => exact E.close_alike hs hst h
  | cons c commands ih =>
    simp only [Engine.query] at h
    split at h
    · rename_i u s₁ hrun
      have hne : c ≠ .rollback := fun hc => hrollback (hc ▸ List.mem_cons_self)
      have hfirst := E.command_live hne (hkeeps c List.mem_cons_self) hsettle hs hrun
      obtain ⟨t₁, ht₁, halike⟩ := E.command_alike hne hs hst hrun
      obtain ⟨t', ht', hend⟩ := ih (fun hmem => hrollback (List.mem_cons_of_mem _ hmem))
        (fun other hother => hkeeps other (List.mem_cons_of_mem _ hother)) hfirst halike h
      exact ⟨t', by simp only [Engine.query, ht₁, ht'], hend⟩
    · cases h

theorem Engine.submit_live {commands : Except ε (List (Command τ))}
    (hrollback : ∀ cs, commands = .ok cs → .rollback ∉ cs)
    (hkeeps : ∀ cs, commands = .ok cs → ∀ c ∈ cs, E.Keeps K c)
    (hsettle : ∀ v : View δ κ, K v → K { v with settings := E.settle v.settings })
    (hs : s.Live K) (h : E.submit commands s = (.ok (), s')) : s'.Live K := by
  cases commands with
  | ok cs => exact E.query_live (hrollback cs rfl) (hkeeps cs rfl) hsettle hs h
  | error e => cases h

theorem Engine.submit_alike {commands : Except ε (List (Command τ))}
    (hrollback : ∀ cs, commands = .ok cs → .rollback ∉ cs) (hs : s.Live fun _ => True) (hst : s.Alike t)
    (h : E.submit commands s = (.ok (), s')) : ∃ t', E.submit commands t = (.ok (), t') ∧ s'.Alike t' := by
  cases commands with
  | ok cs =>
    have hkeeps : ∀ c ∈ cs, E.Keeps (fun _ => True) c := fun _ _ _ _ _ _ _ _ => trivial
    exact E.query_alike (hrollback cs rfl) hkeeps (fun _ _ => trivial) hs hst h
  | error e => cases h

/-- The statement of a query of one, when it is answered. -/
theorem Engine.submit_statement {text : τ} (h : E.submit (.ok [.statement text]) s = (.ok (), s')) :
    ∃ v, E.perform text s.view = .ok v ∧
      (s'.view = v ∨ s'.view = { v with settings := E.settle v.settings }) := by
  simp only [Engine.submit, Engine.query, Engine.command] at h
  split at h
  · rename_i u s₁ hstep
    split at hstep
    · cases hstep
    · rename_i haborted
      have hlive : s.opened.aborted = false := by simpa using haborted
      split at hstep
      · rename_i v hperform
        cases hstep
        refine ⟨v, hperform, ?_⟩
        simp only [Engine.close] at h
        split at h
        · simp only [Engine.commit, hlive, Bool.false_eq_true, if_false] at h
          split at h
          · cases h
            exact .inr rfl
          · cases h
        · cases h
          exact .inl rfl
      · cases hstep
  · cases h

theorem Engine.submit_commit_live (hs : s.Live K) (h : E.submit (.ok [.commit]) s = (.ok (), s')) :
    s' = ⟨{ s.view with settings := E.settle s.view.settings }, none⟩ := by
  simp only [Engine.submit, Engine.query, Engine.command, Engine.commit, hs.opened.1,
    Bool.false_eq_true, if_false] at h
  cases hdeferred : E.deferred s.opened.begun.data s.view.data with
  | none =>
    simp only [hdeferred] at h
    cases h
    rfl
  | some e =>
    simp only [hdeferred] at h
    cases h

end Alike

/-- An answer comes over an open connection, from what the server did. -/
theorem Engine.respond_ok {E : Engine τ δ κ ε} {settings : κ} {commands : Except ε (List (Command τ))}
    {ending : Exchange ε} {c c' : ClientConnection δ κ}
    (h : E.respond settings commands ending c = some (.ok (), c')) :
    c.isOpen = true ∧ E.submit commands c.session = (.ok (), c'.session) ∧ c'.isOpen = true := by
  cases ending with
  | answered =>
    simp only [Engine.respond, Option.ite_none_right_eq_some] at h
    obtain ⟨hopen, h⟩ := h
    obtain ⟨hreply, rfl⟩ := Prod.mk.inj (Option.some.inj h)
    exact ⟨hopen, Prod.ext hreply rfl, hopen⟩
  | refused n e =>
    simp only [Engine.respond] at h
    split_ifs at h <;> cases h
  | lost n e =>
    simp only [Engine.respond] at h
    split_ifs at h <;> cases h

theorem Engine.respond_answered {E : Engine τ δ κ ε} {settings : κ}
    {commands : Except ε (List (Command τ))} {c : ClientConnection δ κ} {s' : Session δ κ}
    (hopen : c.isOpen = true) (h : E.submit commands c.session = (.ok (), s')) :
    E.respond settings commands .answered c = some (.ok (), { c with session := s' }) := by
  simp [Engine.respond, hopen, h]

end Transactions
