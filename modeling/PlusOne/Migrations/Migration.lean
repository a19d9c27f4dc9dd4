import PlusOne.Migrations.Runner

/-! # One migration

What a client that fails or is cut off somewhere in a migration leaves of it. A migration
whose text ends the runner's transaction goes on outside it: until its record is
inserted, a failure leaves its effects without the record. -/

namespace PlusOne

open Interleaving Transactions

def MigrationFile.statements (file : MigrationFile) : List String := splitSqlStatements file.sql

def beforeCommit (passwords : MigrationRolePasswords) (file : MigrationFile) : List MigrationQuery :=
  rolePasswordQueries passwords ++ (statementQueries file ++ [.insertMigration file])

/-- The queries of one migration. -/
def migrationQueries (passwords : MigrationRolePasswords) (file : MigrationFile) : List MigrationQuery :=
  [.resetRole, .begin] ++ (beforeCommit passwords file ++ [.commit file])

/-- What `setRolePasswords` leaves of the settings a client logs in with. -/
def passwordSettings (passwords : MigrationRolePasswords) : SessionSettings :=
  passwords.entries.foldl
    (fun settings entry => settings.setConfig ("plus_one.role_password." ++ entry.1) entry.2) .login

namespace Postgres

variable {S : Type}

/-- The statement ends the transaction that it runs in. -/
def endsTransaction (P : Postgres S) (text : String) : Bool :=
  match P.parse text with
  | .ok commands => commands.any Command.ends
  | .error _ => false

/-- No statement of the migration up to the query has ended the runner's transaction. -/
def inTransaction (P : Postgres S) : MigrationCall → Bool
  | .change (.statement file position _) =>
    !(file.statements.take (position + 1)).any P.endsTransaction
  | .change (.insertMigration file) | .change (.commit file) => !file.statements.any P.endsTransaction
  | _ => true

/-- The client in so far as only queries inside the runner's transaction, or outside every
migration, fail or are lost. -/
def sheltered (P : Postgres S) : Cell MigrationCall MigrationReply Thrown (MigrationConnection S) where
  Choice := Exchange Thrown
  run := fun call ending c =>
    (P.run call ending c).filter fun step => step.1.isOk || P.inTransaction call

/-- The session after queries that are all answered. -/
def changes (P : Postgres S) : List MigrationQuery → Session (MigrationDb S) SessionSettings →
    Except Thrown (Session (MigrationDb S) SessionSettings)
  | [], s => .ok s
  | query :: queries, s =>
    match P.engine.submit (query.commands P) s with
    | (.ok _, s') => P.changes queries s'
    | (.error e, _) => .error e

/-- What one migration does to a database. -/
def effect (P : Postgres S) (passwords : MigrationRolePasswords) (db : MigrationDb S)
    (file : MigrationFile) : Except Thrown (MigrationDb S) :=
  (P.changes (migrationQueries passwords file) (.mk ⟨db, .login⟩ none)).map Session.committed

/-- The text of a migration never rolls back what came before it, leaves the settings of the
session but for its role, and leaves the rows of migrations alone. -/
structure Orderly (P : Postgres S) (file : MigrationFile) : Prop where
  noRollback : ∀ text ∈ file.statements, ∀ commands, P.parse text = .ok commands → .rollback ∉ commands
  keeps : ∀ text ∈ file.statements, ∀ commands, P.parse text = .ok commands →
    ∀ sql, .statement sql ∈ commands → ∀ view view', P.perform sql view = .ok view' →
      view'.settings.config = view.settings.config ∧ view'.data.rows = view.data.rows

end Postgres

section Queries

variable {S : Type} {P : Postgres S} {passwords : MigrationRolePasswords} {file : MigrationFile}
variable {queries : List MigrationQuery} {s s' t : Session (MigrationDb S) SessionSettings}
variable {c c' : MigrationConnection S} {db : MigrationDb S}

variable {more : List MigrationQuery}

theorem changes_append :
    P.changes (queries ++ more) s = (P.changes queries s).bind (P.changes more) := by
  induction queries generalizing s with
  | nil => rfl
  | cons query queries ih =>
    simp only [List.cons_append, Postgres.changes]
    split
    · exact ih
    · rfl

theorem changes_append_ok (h : P.changes (queries ++ more) s = .ok s') :
    ∃ s₁, P.changes queries s = .ok s₁ ∧ P.changes more s₁ = .ok s' := by
  rw [changes_append] at h
  cases hfirst : P.changes queries s with
  | ok s₁ =>
    rw [hfirst] at h
    exact ⟨s₁, rfl, h⟩
  | error e =>
    rw [hfirst] at h
    cases h

variable {query : MigrationQuery}

theorem changes_cons_ok (h : P.changes (query :: queries) s = .ok s') :
    ∃ s₁, P.engine.submit (query.commands P) s = (.ok (), s₁) ∧ P.changes queries s₁ = .ok s' := by
  simp only [Postgres.changes] at h
  split at h
  · rename_i s₁ hsubmit
    exact ⟨s₁, hsubmit, h⟩
  · cases h

/-- The queries end no transaction. -/
def Postgres.Open (P : Postgres S) (query : MigrationQuery) : Prop :=
  ∀ commands, query.commands P = .ok commands → ∀ c ∈ commands, c.ends = false

theorem changes_within (hqueries : ∀ query ∈ queries, P.Open query) (hs : s.Within db)
    (h : P.changes queries s = .ok s') : s'.Within db := by
  induction queries generalizing s with
  | nil =>
    cases h
    exact hs
  | cons query queries ih =>
    obtain ⟨s₁, hsubmit, hrest⟩ := changes_cons_ok h
    have hfirst := P.engine.submit_within (hqueries query List.mem_cons_self) hs
    rw [hsubmit] at hfirst
    exact ih (fun other hother => hqueries other (List.mem_cons_of_mem _ hother)) hfirst hrest

/-- The queries roll nothing back. -/
def Postgres.Forward (P : Postgres S) (query : MigrationQuery) : Prop :=
  ∀ commands, query.commands P = .ok commands → .rollback ∉ commands

theorem changes_live {K : MigrationView S → Prop} (hforward : ∀ query ∈ queries, P.Forward query)
    (hkeeps : ∀ query ∈ queries, ∀ commands, query.commands P = .ok commands →
      ∀ c ∈ commands, P.engine.Keeps K c)
    (hsettle : ∀ v : MigrationView S, K v → K { v with settings := v.settings.settle })
    (hs : s.Live K) (h : P.changes queries s = .ok s') : s'.Live K := by
  induction queries generalizing s with
  | nil =>
    cases h
    exact hs
  | cons query queries ih =>
    obtain ⟨s₁, hsubmit, hrest⟩ := changes_cons_ok h
    have hfirst := P.engine.submit_live (hforward query List.mem_cons_self)
      (hkeeps query List.mem_cons_self) hsettle hs hsubmit
    exact ih (fun other hother => hforward other (List.mem_cons_of_mem _ hother))
      (fun other hother => hkeeps other (List.mem_cons_of_mem _ hother)) hfirst hrest

theorem changes_alike (hforward : ∀ query ∈ queries, P.Forward query) (hs : s.Live fun _ => True)
    (hst : s.Alike t) (h : P.changes queries s = .ok s') :
    ∃ t', P.changes queries t = .ok t' ∧ s'.Alike t' := by
  induction queries generalizing s t with
  | nil =>
    cases h
    exact ⟨t, rfl, hst⟩
  | cons query queries ih =>
    obtain ⟨s₁, hsubmit, hrest⟩ := changes_cons_ok h
    have hlive := P.engine.submit_live (hforward query List.mem_cons_self)
      (fun _ _ _ _ _ _ _ _ _ _ => trivial) (fun _ _ => trivial) hs hsubmit
    obtain ⟨t₁, ht₁, hst₁⟩ := P.engine.submit_alike (hforward query List.mem_cons_self) hs hst hsubmit
    obtain ⟨t', ht', hend⟩ := ih (fun other hother => hforward other (List.mem_cons_of_mem _ hother))
      hlive hst₁ hrest
    exact ⟨t', by simp only [Postgres.changes, ht₁, ht'], hend⟩

/-! ## Which statements end the transaction -/

theorem Command.ofText_ends (c : Command String) : (Command.ofText c).ends = c.ends := by
  cases c <;> rfl

theorem mem_statementQueries (h : query ∈ statementQueries file) :
    ∃ position text, query = .statement file position text ∧ file.statements[position]? = some text := by
  obtain ⟨⟨text, position⟩, hmem, rfl⟩ := List.mem_map.1 h
  exact ⟨position, text, rfl, List.mem_zipIdx_iff_getElem?.1 hmem⟩

theorem statement_commands {text : String} {commands : List (Command Sql)}
    (h : (P.parse text).map (·.map Command.ofText) = .ok commands) :
    ∃ parsed, P.parse text = .ok parsed ∧ commands = parsed.map Command.ofText := by
  cases hparse : P.parse text with
  | ok parsed =>
    rw [hparse] at h
    cases h
    exact ⟨parsed, rfl, rfl⟩
  | error e =>
    rw [hparse] at h
    cases h

theorem open_of_inTransaction (hmem : query ∈ beforeCommit passwords file)
    (h : P.inTransaction (.change query) = true) : P.Open query := by
  intro commands hcommands c hc
  simp only [beforeCommit, List.mem_append, List.mem_singleton] at hmem
  rcases hmem with hpassword | hstatement | rfl
  · obtain ⟨entry, _, rfl⟩ := List.mem_map.1 hpassword
    cases hcommands
    rw [List.mem_singleton.1 hc]
    rfl
  · obtain ⟨position, text, rfl, htext⟩ := mem_statementQueries hstatement
    obtain ⟨parsed, hparsed, rfl⟩ := statement_commands hcommands
    obtain ⟨command, hcommand, rfl⟩ := List.mem_map.1 hc
    obtain ⟨hlt, hget⟩ := List.getElem?_eq_some_iff.1 htext
    have htaken : text ∈ file.statements.take (position + 1) := by
      rw [List.mem_take_iff_getElem]
      exact ⟨position, by omega, hget⟩
    have hnone : P.endsTransaction text = false := by
      simp only [Postgres.inTransaction, Bool.not_eq_true', List.any_eq_false] at h
      simpa using h text htaken
    simp only [Postgres.endsTransaction, hparsed, List.any_eq_false] at hnone
    rw [Command.ofText_ends]
    simpa using hnone command hcommand
  · cases hcommands
    rw [List.mem_singleton.1 hc]
    rfl

theorem inTransaction_password (h : query ∈ rolePasswordQueries passwords) :
    P.inTransaction (.change query) = true := by
  obtain ⟨entry, _, rfl⟩ := List.mem_map.1 h
  rfl

theorem inTransaction_statement (h : query ∈ statementQueries file)
    (hnone : (!file.statements.any P.endsTransaction) = true) : P.inTransaction (.change query) = true := by
  obtain ⟨position, text, rfl, _⟩ := mem_statementQueries h
  simp only [Bool.not_eq_true', List.any_eq_false] at hnone
  simp only [Postgres.inTransaction, Bool.not_eq_true', List.any_eq_false]
  exact fun other hother => hnone other (List.mem_of_mem_take hother)

theorem inTransaction_of_commit (hmem : query ∈ beforeCommit passwords file)
    (h : P.inTransaction (.change (.commit file)) = true) : P.inTransaction (.change query) = true := by
  simp only [beforeCommit, List.mem_append, List.mem_singleton] at hmem
  rcases hmem with hpassword | hstatement | rfl
  · exact inTransaction_password hpassword
  · exact inTransaction_statement hstatement h
  · exact h

/-- A migration that is inside the transaction at one of its queries was so at those before it. -/
theorem inTransaction_pairwise : (beforeCommit passwords file).Pairwise fun query later =>
    P.inTransaction (.change later) = true → P.inTransaction (.change query) = true := by
  have hpasswords : (rolePasswordQueries passwords).Pairwise fun query later =>
      P.inTransaction (.change later) = true → P.inTransaction (.change query) = true := by
    refine List.pairwise_of_forall_mem_list ?_
    intro query hquery later _ _
    exact inTransaction_password hquery
  have hstatements : (statementQueries file).Pairwise fun query later =>
      P.inTransaction (.change later) = true → P.inTransaction (.change query) = true := by
    have hpositions : (splitSqlStatements file.sql).zipIdx.Pairwise fun a b => a.2 < b.2 := by
      have hrange : ((splitSqlStatements file.sql).zipIdx.map Prod.snd).Pairwise (· < ·) := by
        rw [List.zipIdx_map_snd]
        exact List.pairwise_lt_range'
      exact List.pairwise_map.1 hrange
    rw [statementQueries, List.pairwise_map]
    refine hpositions.imp ?_
    intro a b hlt h
    simp only [Postgres.inTransaction, Bool.not_eq_true', List.any_eq_false] at h ⊢
    intro text htext
    exact h text ((List.take_sublist_take_left (by omega)).mem htext)
  refine List.pairwise_append.2 ⟨hpasswords, List.pairwise_append.2 ⟨hstatements, ?_, ?_⟩, ?_⟩
  · exact List.pairwise_singleton _ _
  · intro query hquery later hlater h
    rw [List.mem_singleton.1 hlater] at h
    exact inTransaction_statement hquery h
  · intro query hquery later _ _
    exact inTransaction_password hquery

/-! ## The settings of a migration -/

@[ext] theorem SessionSettings.ext_fields {σ σ' : SessionSettings} (hrole : σ.role = σ'.role)
    (hconfig : σ.config = σ'.config) (hlocalRole : σ.localRole = σ'.localRole)
    (hlocalConfig : σ.localConfig = σ'.localConfig) : σ = σ' := by
  cases σ
  cases σ'
  simp_all

theorem passwordSettings_again : passwords.entries.foldl
    (fun settings entry => settings.setConfig ("plus_one.role_password." ++ entry.1) entry.2)
    (passwordSettings passwords) = passwordSettings passwords := by
  ext name
  · rfl
  · simp only [passwordSettings, MigrationRolePasswords.entries, List.foldl_cons, List.foldl_nil,
      SessionSettings.setConfig]
    split_ifs <;> rfl
  · rfl
  · rfl

theorem changes_setConfig {entries : List (String × String)} {view : MigrationView S}
    {b : Block (MigrationDb S) SessionSettings} (hlive : b.aborted = false) (hopen : b.implicit = false) :
    P.changes (entries.map fun entry => .setConfig ("plus_one.role_password." ++ entry.1) entry.2)
      ⟨view, some b⟩ =
    .ok ⟨⟨view.data, entries.foldl
      (fun settings entry => settings.setConfig ("plus_one.role_password." ++ entry.1) entry.2)
      view.settings⟩, some b⟩ := by
  induction entries generalizing view with
  | nil => rfl
  | cons entry entries ih =>
    simp [Postgres.changes, MigrationQuery.commands, Postgres.engine, Engine.submit, Engine.query,
      Engine.command, Session.opened, Engine.close, hlive, hopen, ih]

/-- The session in which the statements of a migration start. -/
def startedAt (passwords : MigrationRolePasswords) (settings : SessionSettings) (db : MigrationDb S) :
    Session (MigrationDb S) SessionSettings :=
  ⟨⟨db, passwordSettings passwords⟩, some ⟨⟨db, settings⟩, [], false, false⟩⟩

/-- The runner's client between two migrations. -/
structure ReadyClient (passwords : MigrationRolePasswords) (db : MigrationDb S) (c : MigrationConnection S) :
    Prop where
  isOpen : c.isOpen = true
  session : ∃ settings, (settings = .login ∨ settings = passwordSettings passwords) ∧
    c.session = ⟨⟨db, settings⟩, none⟩

theorem ready_login : ReadyClient passwords db (.login .login db) :=
  ⟨rfl, .login, .inl rfl, rfl⟩

theorem ReadyClient.standing (h : ReadyClient passwords db c) : c.session.Standing db := by
  obtain ⟨_, settings, _, hsession⟩ := h
  simp [Session.Standing, hsession]

theorem ReadyClient.begun (h : ReadyClient passwords db c) : ∃ settings,
    P.changes [.resetRole, .begin] c.session = .ok ⟨⟨db, settings⟩, some ⟨⟨db, settings⟩, [], false, false⟩⟩ ∧
    P.changes (rolePasswordQueries passwords) ⟨⟨db, settings⟩, some ⟨⟨db, settings⟩, [], false, false⟩⟩ =
      .ok (startedAt passwords settings db) := by
  obtain ⟨_, settings, hsettings, hsession⟩ := h
  have hclean : settings.resetRole.settle = settings := by
    rcases hsettings with rfl | rfl
    · rfl
    · rfl
  have hset : passwords.entries.foldl
      (fun settings entry => settings.setConfig ("plus_one.role_password." ++ entry.1) entry.2) settings =
      passwordSettings passwords := by
    rcases hsettings with rfl | rfl
    · rfl
    · exact passwordSettings_again
  refine ⟨settings, ?_, ?_⟩
  · have hdeferred := P.deferred_self db
    simp [Postgres.changes, MigrationQuery.commands, Postgres.engine, Engine.submit, Engine.query,
      Engine.command, Session.opened, Engine.close, Engine.commit, hsession, hdeferred, hclean]
  · rw [rolePasswordQueries, changes_setConfig rfl rfl, hset]
    rfl

/-! ## One migration that goes through -/

/-- What the views of a migration keep: the passwords are set and the recorded rows are `rows`. -/
def Recording (passwords : MigrationRolePasswords) (rows : List MigrationRow) (view : MigrationView S) :
    Prop :=
  view.settings.config = (passwordSettings passwords).config ∧ view.data.rows = rows

theorem startedAt_live {settings : SessionSettings} :
    (startedAt passwords settings db).Live (Recording passwords db.rows) := by
  refine ⟨⟨rfl, rfl⟩, ?_⟩
  rintro b ⟨⟩
  exact ⟨rfl, fun savepoint hsavepoint => by cases hsavepoint⟩

theorem forward_statement (hfile : P.Orderly file) (h : query ∈ statementQueries file) : P.Forward query := by
  intro commands hcommands hmem
  obtain ⟨position, text, rfl, htext⟩ := mem_statementQueries h
  obtain ⟨parsed, hparsed, rfl⟩ := statement_commands hcommands
  obtain ⟨command, hcommand, hrollback⟩ := List.mem_map.1 hmem
  have hback : command = .rollback := by
    cases command with
    | rollback => rfl
    | _ => cases hrollback
  exact hfile.noRollback text (List.mem_of_getElem? htext) parsed hparsed (hback ▸ hcommand)

theorem keeps_statement (hfile : P.Orderly file) {rows : List MigrationRow} (h : query ∈ statementQueries file)
    {commands : List (Command Sql)} (hcommands : query.commands P = .ok commands) :
    ∀ c ∈ commands, P.engine.Keeps (Recording passwords rows) c := by
  intro c hc sql hsql v v' hv hperform
  obtain ⟨position, text, rfl, htext⟩ := mem_statementQueries h
  obtain ⟨parsed, hparsed, rfl⟩ := statement_commands hcommands
  obtain ⟨command, hcommand, rfl⟩ := List.mem_map.1 hc
  cases command with
  | statement written =>
    cases hsql
    obtain ⟨hconfig, hrows⟩ :=
      hfile.keeps text (List.mem_of_getElem? htext) parsed hparsed written hcommand v v' hperform
    exact ⟨hconfig.trans hv.1, hrows.trans hv.2⟩
  | _ => cases hsql

theorem settle_recording {rows : List MigrationRow} (v : MigrationView S)
    (hv : Recording passwords rows v) :
    Recording passwords rows { v with settings := v.settings.settle } := hv

theorem insertMigration_ok {row : MigrationRow} {view view' : MigrationView S}
    (h : P.insertMigration row view = .ok view') :
    view'.data.rows = view.data.rows ++ [row] ∧ view'.settings = view.settings := by
  unfold Postgres.insertMigration at h
  split at h
  · cases h
  · rename_i rows hrows
    split at h
    · cases h
    · split at h
      · cases h
      · cases h
        simp [MigrationDb.rows, hrows]

/-- The statements of a migration's text with its record and its COMMIT. -/
theorem changes_work (hfile : P.Orderly file) (hs : s.Live (Recording passwords db.rows))
    (h : P.changes (statementQueries file ++ [.insertMigration file, .commit file]) s = .ok s') :
    ∃ view : MigrationView S, s' = ⟨view, none⟩ ∧ view.data.rows = db.rows ++ [file.row] ∧
      view.settings.config = (passwordSettings passwords).config := by
  obtain ⟨s₁, hstatements, hrest⟩ := changes_append_ok h
  have hlive : s₁.Live (Recording passwords db.rows) :=
    changes_live (fun query hquery => forward_statement hfile hquery)
      (fun query hquery commands hcommands => keeps_statement hfile hquery hcommands) settle_recording
      hs hstatements
  obtain ⟨s₂, hinsert, hlast⟩ := changes_cons_ok hrest
  have hinserted : s₂.Live fun _ => True := by
    refine P.engine.submit_live ?_ (fun _ _ _ _ _ _ _ _ _ _ => trivial) (fun _ _ => trivial) hlive.forget hinsert
    rintro commands ⟨⟩
    simp
  obtain ⟨view, hperform, hview⟩ := P.engine.submit_statement hinsert
  obtain ⟨hrows, hsettings⟩ := insertMigration_ok hperform
  obtain ⟨s₃, hcommit, hend⟩ := changes_cons_ok hlast
  cases hend
  have hs' := P.engine.submit_commit_live hinserted hcommit
  refine ⟨_, hs', ?_⟩
  rcases hview with hview | hview
  · rw [hview]
    exact ⟨hrows.trans (by rw [hlive.1.2]), (congrArg SessionSettings.config hsettings).trans hlive.1.1⟩
  · rw [hview]
    exact ⟨hrows.trans (by rw [hlive.1.2]), (congrArg SessionSettings.config hsettings).trans hlive.1.1⟩

theorem forward_work (hfile : P.Orderly file) :
    ∀ query ∈ statementQueries file ++ [.insertMigration file, .commit file], P.Forward query := by
  intro query hquery
  rcases List.mem_append.1 hquery with hstatement | hlast
  · exact forward_statement hfile hstatement
  · rcases List.mem_cons.1 hlast with rfl | hlast
    · rintro commands ⟨⟩
      simp
    · rw [List.mem_singleton.1 hlast]
      rintro commands ⟨⟩
      simp

theorem changes_append_of_ok (h : P.changes queries s = .ok t) :
    P.changes (queries ++ more) s = P.changes more t := by
  rw [changes_append, h]
  rfl

theorem changes_migration {settings : SessionSettings}
    (hbegin : P.changes [.resetRole, .begin] s = .ok ⟨⟨db, settings⟩, some ⟨⟨db, settings⟩, [], false, false⟩⟩)
    (hpasswords : P.changes (rolePasswordQueries passwords)
      ⟨⟨db, settings⟩, some ⟨⟨db, settings⟩, [], false, false⟩⟩ = .ok (startedAt passwords settings db)) :
    P.changes (migrationQueries passwords file) s =
      P.changes (statementQueries file ++ [.insertMigration file, .commit file])
        (startedAt passwords settings db) := by
  have hsplit : beforeCommit passwords file ++ [.commit file] =
      rolePasswordQueries passwords ++ (statementQueries file ++ [.insertMigration file, .commit file]) := by
    simp [beforeCommit]
  rw [migrationQueries, changes_append_of_ok hbegin, hsplit, changes_append_of_ok hpasswords]

theorem startedAt_alike (settings settings' : SessionSettings) :
    (startedAt passwords settings db).Alike (startedAt passwords settings' db) := ⟨rfl, rfl⟩

/-- What a migration does is the same on every client that is ready for it. -/
theorem changes_effect (hfile : P.Orderly file) (hc : ReadyClient passwords db c)
    (h : P.changes (migrationQueries passwords file) c.session = .ok s') :
    P.effect passwords db file = .ok s'.committed ∧
      ∃ view : MigrationView S, s' = ⟨view, none⟩ ∧ view.data.rows = db.rows ++ [file.row] ∧
        view.settings.config = (passwordSettings passwords).config := by
  obtain ⟨settings, hbegin, hpasswords⟩ := hc.begun (P := P)
  have hlogged : ReadyClient passwords db (.login .login db) := ready_login
  obtain ⟨settings', hbegin', hpasswords'⟩ := hlogged.begun (P := P)
  rw [changes_migration hbegin hpasswords] at h
  obtain ⟨t', ht', halike⟩ := changes_alike (forward_work hfile) startedAt_live.forget
    (startedAt_alike settings settings') h
  refine ⟨?_, changes_work hfile startedAt_live h⟩
  have hlogin : P.changes (migrationQueries passwords file) (.mk ⟨db, .login⟩ none) = .ok t' :=
    (changes_migration hbegin' hpasswords').trans ht'
  rw [Postgres.effect, hlogin, halike.committed]
  rfl

theorem changes_of_effect (hfile : P.Orderly file) (hc : ReadyClient passwords db c) {db' : MigrationDb S}
    (h : P.effect passwords db file = .ok db') :
    ∃ s', P.changes (migrationQueries passwords file) c.session = .ok s' ∧ s'.committed = db' := by
  obtain ⟨settings, hbegin, hpasswords⟩ := hc.begun (P := P)
  have hlogged : ReadyClient passwords db (.login .login db) := ready_login
  obtain ⟨settings', hbegin', hpasswords'⟩ := hlogged.begun (P := P)
  have hlogin : P.changes (migrationQueries passwords file) (.mk ⟨db, .login⟩ none) =
      P.changes (statementQueries file ++ [.insertMigration file, .commit file])
        (startedAt passwords settings' db) := changes_migration hbegin' hpasswords'
  rw [Postgres.effect, hlogin] at h
  cases hwork : P.changes (statementQueries file ++ [.insertMigration file, .commit file])
      (startedAt passwords settings' db) with
  | error e =>
    rw [hwork] at h
    cases h
  | ok t =>
    rw [hwork] at h
    cases h
    obtain ⟨s', hs', halike⟩ := changes_alike (forward_work hfile) startedAt_live.forget
      (startedAt_alike settings' settings) hwork
    exact ⟨s', (changes_migration hbegin hpasswords).trans hs', halike.committed.symm⟩

end Queries

/-! ## The programs -/

section Programs

variable {S : Type} {P : Postgres S} {passwords : MigrationRolePasswords} {file : MigrationFile}
variable {queries : List MigrationQuery} {c c' : MigrationConnection S} {db : MigrationDb S}
variable {out : Except Thrown Unit}

variable {ending : Exchange Thrown}

theorem sheltered_run {call : MigrationCall} {r : Except Thrown (MigrationReply call)}
    (h : P.sheltered.run call ending c = some (r, c')) :
    P.run call ending c = some (r, c') ∧ (r.isOk || P.inTransaction call) = true :=
  Option.filter_eq_some_iff.1 h

theorem issueAll_append (more : List MigrationQuery) :
    issueAll (queries ++ more) = (issueAll queries).bind fun _ => issueAll more := by
  induction queries with
  | nil => rfl
  | cons query queries ih =>
    have hrest : issueAll (query :: (queries ++ more)) =
        ((MigrationCall.change query).send).bind fun _ => issueAll (queries ++ more) := rfl
    rw [List.cons_append, hrest, ih]
    exact (Prog.bind_assoc _ _ _).symm

theorem attemptMigration_eq : attemptMigration passwords file =
    (issueAll (beforeCommit passwords file)).bind fun _ => issueAll [.commit file] := by
  have hall : attemptMigration passwords file = issueAll
      (rolePasswordQueries passwords ++ (statementQueries file ++ [.insertMigration file, .commit file])) := by
    rw [issueAll_append, issueAll_append]
    rfl
  have hsplit : rolePasswordQueries passwords ++
      (statementQueries file ++ [.insertMigration file, .commit file]) =
      beforeCommit passwords file ++ [.commit file] := by
    simp [beforeCommit]
  rw [hall, hsplit, issueAll_append]

/-- Queries one after the other are all answered, or one of them is not. -/
theorem issueAll_exec (hopen : c.isOpen = true) (h : Exec P.sheltered (issueAll queries) c out c') :
    (out = .ok () ∧ P.changes queries c.session = .ok c'.session ∧ c'.isOpen = true) ∨
    ∃ before query after c₁ ending e, queries = before ++ query :: after ∧
      P.changes before c.session = .ok c₁.session ∧
      P.engine.respond .login (query.commands P) ending c₁ = some (.error e, c') ∧
      P.inTransaction (.change query) = true ∧ out = .error e := by
  induction queries generalizing c with
  | nil =>
    cases h
    exact .inl ⟨rfl, rfl, hopen⟩
  | cons query queries ih =>
    rcases Exec.bind_inv h with ⟨u, c₁, hfirst, hrest⟩ | ⟨e, hfirst, rfl⟩
    · obtain ⟨ending, hrun⟩ := Exec.perform_inv hfirst
      obtain ⟨hrun, _⟩ := sheltered_run hrun
      obtain ⟨_, hsubmit, hopen₁⟩ := Engine.respond_ok hrun
      have hstep : ∀ more, P.changes (query :: more) c.session = P.changes more c₁.session := by
        intro more
        simp only [Postgres.changes, hsubmit]
      rcases ih hopen₁ hrest with ⟨rfl, hchanges, hend⟩ |
        ⟨before, failing, after, c₂, ending', e, rfl, hbefore, hfail, hinside, rfl⟩
      · exact .inl ⟨rfl, (hstep _).trans hchanges, hend⟩
      · exact .inr ⟨query :: before, failing, after, c₂, ending', e, rfl, (hstep _).trans hbefore,
          hfail, hinside, rfl⟩
    · obtain ⟨ending, hrun⟩ := Exec.perform_inv hfirst
      obtain ⟨hrun, hinside⟩ := sheltered_run hrun
      exact .inr ⟨[], query, queries, c, ending, e, rfl, rfl, hrun, hinside, rfl⟩

/-- The query changes no data. -/
def Postgres.IdleQuery (P : Postgres S) (query : MigrationQuery) : Prop :=
  ∃ commands, query.commands P = .ok commands ∧ ∀ c ∈ commands, P.engine.Idle c

theorem idle_resetRole : P.IdleQuery .resetRole := by
  refine ⟨_, rfl, ?_⟩
  intro c hc
  rw [List.mem_singleton.1 hc]
  refine .inr (.inr ⟨_, rfl, ?_⟩)
  rintro v v' ⟨⟩
  rfl

theorem idle_begin : P.IdleQuery .begin := by
  refine ⟨_, rfl, ?_⟩
  intro c hc
  exact .inl (List.mem_singleton.1 hc)

theorem idle_rollback : P.IdleQuery .rollback := by
  refine ⟨_, rfl, ?_⟩
  intro c hc
  exact .inr (.inl (List.mem_singleton.1 hc))

/-- However queries end that change no data, the database is what it was. -/
theorem issueAll_standing (hidle : ∀ query ∈ queries, P.IdleQuery query)
    (hc : c.session.Standing db) (h : Exec P.sheltered (issueAll queries) c out c') :
    c'.session.Standing db := by
  induction queries generalizing c with
  | nil =>
    cases h
    exact hc
  | cons query queries ih =>
    obtain ⟨commands, hcommands, hall⟩ := hidle query List.mem_cons_self
    have hstep : ∀ {r c₁}, Exec P.sheltered (MigrationCall.change query).send c r c₁ →
        c₁.session.Standing db := by
      intro r c₁ hexec
      obtain ⟨ending, hrun⟩ := Exec.perform_inv hexec
      have hrun := (sheltered_run hrun).1
      simp only [Postgres.run, hcommands] at hrun
      exact P.engine.respond_standing hall hc hrun
    rcases Exec.bind_inv h with ⟨u, c₁, hfirst, hrest⟩ | ⟨e, hfirst, rfl⟩
    · exact ih (fun other hother => hidle other (List.mem_cons_of_mem _ hother)) (hstep hfirst) hrest
    · exact hstep hfirst

/-- An attempt that fails leaves the database as it was, or with all of the migration. -/
theorem attempt_failed {e : Thrown} (hc : c.session.Within db) (hopen : c.isOpen = true)
    (h : Exec P.sheltered (attemptMigration passwords file) c (.error e) c') :
    c'.session.Standing db ∨
      ∃ s, P.changes (beforeCommit passwords file ++ [.commit file]) c.session = .ok s ∧
        c'.session.Standing s.committed := by
  rw [attemptMigration_eq] at h
  have hearlier : ∀ before query after, beforeCommit passwords file = before ++ query :: after →
      P.inTransaction (.change query) = true → ∀ other ∈ before, P.Open other := by
    intro before query after hsplit hinside other hother
    have hpairs : (beforeCommit passwords file).Pairwise fun query later =>
        P.inTransaction (.change later) = true → P.inTransaction (.change query) = true :=
      inTransaction_pairwise
    rw [hsplit] at hpairs
    have hother' := (List.pairwise_append.1 hpairs).2.2 other hother query List.mem_cons_self hinside
    have hmem : other ∈ beforeCommit passwords file := by
      rw [hsplit]
      exact List.mem_append_left _ hother
    exact open_of_inTransaction hmem hother'
  rcases Exec.bind_inv h with ⟨u, c₁, hfirst, hcommit⟩ | ⟨e', hfirst, _⟩
  · rcases issueAll_exec hopen hfirst with ⟨_, hchanges, hopen₁⟩ | ⟨_, _, _, _, _, _, _, _, _, _, hout⟩
    · rcases issueAll_exec hopen₁ hcommit with ⟨hout, _, _⟩ |
        ⟨before, query, after, c₂, ending, e', hsplit, hbefore, hfail, hinside, _⟩
      · cases hout
      · have hhead : before = [] ∧ query = .commit file := by
          cases before with
          | nil =>
            simp only [List.nil_append, List.cons.injEq] at hsplit
            exact ⟨rfl, hsplit.1.symm⟩
          | cons other before =>
            have hlength := congrArg List.length hsplit
            simp at hlength
        obtain ⟨rfl, rfl⟩ := hhead
        have hwithin : c₁.session.Within db := by
          refine changes_within ?_ hc hchanges
          intro query hquery
          exact open_of_inTransaction hquery (inTransaction_of_commit hquery hinside)
        have hsame : c₂.session = c₁.session := (Except.ok.inj hbefore).symm
        rw [← hsame] at hwithin hchanges
        rcases P.engine.respond_commit hwithin hfail with ⟨hstanding, _⟩ | ⟨s, hsubmit, hstanding⟩
        · exact .inl hstanding
        · refine .inr ⟨s, ?_, hstanding⟩
          rw [changes_append_of_ok hchanges]
          simp only [Postgres.changes, MigrationQuery.commands, hsubmit]
    · cases hout
  · rcases issueAll_exec hopen hfirst with ⟨hout, _, _⟩ |
      ⟨before, query, after, c₁, ending, e', hsplit, hbefore, hfail, hinside, _⟩
    · cases hout
    · have hwithin : c₁.session.Within db := changes_within (hearlier _ _ _ hsplit hinside) hc hbefore
      have hmem : query ∈ beforeCommit passwords file := by
        rw [hsplit]
        exact List.mem_append_right _ List.mem_cons_self
      exact .inl (P.engine.respond_within (open_of_inTransaction hmem hinside) hwithin hfail)

theorem attempt_done (hopen : c.isOpen = true)
    (h : Exec P.sheltered (attemptMigration passwords file) c (.ok ()) c') :
    P.changes (beforeCommit passwords file ++ [.commit file]) c.session = .ok c'.session ∧
      c'.isOpen = true := by
  rw [attemptMigration_eq, ← issueAll_append] at h
  rcases issueAll_exec hopen h with ⟨_, hchanges, hopen'⟩ | ⟨_, _, _, _, _, _, _, _, _, _, hout⟩
  · exact ⟨hchanges, hopen'⟩
  · cases hout

/-- RESET ROLE after a migration makes the client ready for the next one. -/
theorem ready_of_resetRole {view : MigrationView S} (hopen : c.isOpen = true)
    (hsession : c.session = ⟨view, none⟩)
    (hconfig : view.settings.config = (passwordSettings passwords).config)
    (h : Exec P.sheltered (issueAll [.resetRole]) c (.ok ()) c') :
    ReadyClient passwords view.data c' := by
  rcases issueAll_exec hopen h with ⟨_, hchanges, hopen'⟩ | ⟨_, _, _, _, _, _, _, _, _, _, hout⟩
  · have hsettings : view.settings.resetRole.settle = passwordSettings passwords := by
      ext name
      · rfl
      · exact congrFun hconfig name ▸ Iff.rfl
      · rfl
      · rfl
    have hdeferred := P.deferred_self view.data
    have hafter : P.changes [.resetRole] c.session = .ok ⟨⟨view.data, passwordSettings passwords⟩, none⟩ := by
      simp [Postgres.changes, MigrationQuery.commands, Postgres.engine, Engine.submit, Engine.query,
        Engine.command, Session.opened, Engine.close, Engine.commit, hsession, hdeferred, hsettings]
    rw [hafter] at hchanges
    exact ⟨hopen', _, .inr rfl, (Except.ok.inj hchanges).symm⟩
  · cases hout

/-- One migration that is not recorded: it goes through, or leaves nothing, or leaves all of it. -/
theorem applyMigration_exec (hfile : P.Orderly file) (hc : ReadyClient passwords db c)
    (h : Exec P.sheltered (applyMigration passwords file) c out c') :
    (∃ e, out = .error e ∧ c'.session.committed = db) ∨
      ∃ db', P.effect passwords db file = .ok db' ∧ db'.rows = db.rows ++ [file.row] ∧
        c'.session.committed = db' ∧ (out = .ok () → ReadyClient passwords db' c') := by
  obtain ⟨settings, hbegin, hpasswords⟩ := hc.begun (P := P)
  rcases Exec.bind_inv h with ⟨u, c₁, hstart, htry⟩ | ⟨e, hstart, rfl⟩
  · rcases issueAll_exec hc.isOpen hstart with ⟨_, hchanges, hopen₁⟩ | ⟨_, _, _, _, _, _, _, _, _, _, hout⟩
    · have hsession : c₁.session = ⟨⟨db, settings⟩, some ⟨⟨db, settings⟩, [], false, false⟩⟩ := by
        rw [hbegin] at hchanges
        exact (Except.ok.inj hchanges).symm
      have hwithin : c₁.session.Within db := by
        rw [hsession]
        exact ⟨_, rfl, rfl, rfl⟩
      have hwhole : ∀ s, P.changes (beforeCommit passwords file ++ [.commit file]) c₁.session = .ok s →
          P.changes (migrationQueries passwords file) c.session = .ok s := by
        intro s hs
        rw [migrationQueries, changes_append_of_ok hbegin, ← hsession, hs]
      have hreset : ∀ query ∈ [MigrationQuery.resetRole], P.IdleQuery query := by simp [idle_resetRole]
      have hback : ∀ query ∈ [MigrationQuery.rollback], P.IdleQuery query := by simp [idle_rollback]
      rcases Exec.handle_inv htry with ⟨u, c₂, hattempt, hlast⟩ | ⟨e, c₂, hattempt, hlast⟩
      · -- The migration went through: only RESET ROLE is left.
        rcases Exec.tryCatch_inv hattempt with ⟨u', hdone, _⟩ | ⟨e, c₃, _, hhandler⟩
        · obtain ⟨hchanges, hopen₂⟩ := attempt_done hopen₁ hdone
          obtain ⟨heffect, view, hview, hrows, hconfig⟩ :=
            changes_effect hfile hc (hwhole _ hchanges)
          have hcommitted : c₂.session.committed = view.data := by rw [hview]; rfl
          have hstanding : c₂.session.Standing view.data := by rw [hview]; rfl
          refine .inr ⟨view.data, hcommitted ▸ heffect, hrows,
            (issueAll_standing hreset hstanding hlast).committed, ?_⟩
          rintro rfl
          exact ready_of_resetRole hopen₂ hview hconfig hlast
        · rcases Exec.bind_inv hhandler with ⟨_, _, _, hthrow⟩ | ⟨_, _, hout⟩
          · cases hthrow
          · cases hout
      · -- It failed: ROLLBACK, RESET ROLE and the error.
        rcases Exec.tryCatch_inv hattempt with ⟨_, _, hout⟩ | ⟨e', c₃, hfailed, hhandler⟩
        · cases hout
        · have hend : ∀ d, c₃.session.Standing d → c'.session.Standing d := by
            intro d hd
            have hrolled : c₂.session.Standing d := by
              rcases Exec.bind_inv hhandler with ⟨_, _, hrollback, hthrow⟩ | ⟨_, hrollback, _⟩
              · cases hthrow
                exact issueAll_standing hback hd hrollback
              · exact issueAll_standing hback hd hrollback
            rcases Exec.bind_inv hlast with ⟨_, _, hrole, hthrow⟩ | ⟨_, hrole, _⟩
            · cases hthrow
              exact issueAll_standing hreset hrolled hrole
            · exact issueAll_standing hreset hrolled hrole
          have hout : ∃ e, out = .error e := by
            rcases Exec.bind_inv hlast with ⟨_, _, _, hthrow⟩ | ⟨e'', _, hout⟩
            · cases hthrow
              exact ⟨e, rfl⟩
            · exact ⟨e'', hout⟩
          rcases attempt_failed hwithin hopen₁ hfailed with hnothing | ⟨s, hs, hall⟩
          · obtain ⟨e'', rfl⟩ := hout
            exact .inl ⟨e'', rfl, (hend db hnothing).committed⟩
          · obtain ⟨heffect, view, hview, hrows, _⟩ := changes_effect hfile hc (hwhole _ hs)
            have hcommitted : s.committed = view.data := by rw [hview]; rfl
            rw [hcommitted] at heffect hall
            refine .inr ⟨view.data, heffect, hrows, (hend _ hall).committed, ?_⟩
            obtain ⟨e'', rfl⟩ := hout
            exact fun hok => by cases hok
    · cases hout
  · have hidle : ∀ query ∈ [MigrationQuery.resetRole, .begin], P.IdleQuery query := by
      simp [idle_resetRole, idle_begin]
    exact .inl ⟨e, rfl, (issueAll_standing hidle hc.standing hstart).committed⟩

theorem answer_standing {α : Type} {a : α} {r : Except Thrown α} (hc : c.session.Standing db)
    (h : P.answer ending c a = some (r, c')) : c'.session.Standing db := by
  obtain ⟨⟨r', c''⟩, hrespond, hstep⟩ := Option.map_eq_some_iff.1 h
  cases hstep
  refine P.engine.respond_standing ?_ hc hrespond
  intro command hcommand
  rw [List.mem_singleton.1 hcommand]
  refine .inr (.inr ⟨_, rfl, ?_⟩)
  rintro v v' ⟨⟩
  rfl

theorem submit_read (hc : ReadyClient passwords db c) :
    P.engine.submit (.ok [.statement .read]) c.session = (.ok (), c.session) := by
  obtain ⟨_, settings, hsettings, hsession⟩ := hc
  have hclean : settings.settle = settings := by
    rcases hsettings with rfl | rfl
    · rfl
    · rfl
  have hdeferred := P.deferred_self db
  simp [Postgres.engine, Engine.submit, Engine.query, Engine.command, Session.opened, Engine.close,
    Engine.commit, hsession, hdeferred, hclean]

theorem answer_ready {α : Type} {a b : α} (hc : ReadyClient passwords db c)
    (h : P.answer ending c a = some (.ok b, c')) : b = a ∧ ReadyClient passwords db c' := by
  obtain ⟨⟨r', c''⟩, hrespond, hstep⟩ := Option.map_eq_some_iff.1 h
  cases r' with
  | error e => cases hstep
  | ok u =>
    cases hstep
    obtain ⟨_, hsubmit, hopen⟩ := Engine.respond_ok hrespond
    rw [submit_read hc] at hsubmit
    have hsame : c.session = c''.session := (Prod.mk.inj hsubmit).2
    exact ⟨rfl, hopen, hsame ▸ hc.session⟩

theorem answer_answered {α : Type} {a : α} (hc : ReadyClient passwords db c) :
    P.answer .answered c a = some (.ok a, c) := by
  have hrespond : P.engine.respond SessionSettings.login (.ok [.statement .read]) .answered c =
      some (.ok (), c) := Engine.respond_answered hc.isOpen (submit_read hc)
  rw [Postgres.answer, hrespond]
  rfl

/-- The migration is recorded with the checksum it has. -/
def Recorded (db : MigrationDb S) (file : MigrationFile) : Prop :=
  (db.rows.find? fun row => row.filename == file.filename).map MigrationRow.checksum = some file.checksum

def Unrecorded (db : MigrationDb S) (file : MigrationFile) : Prop :=
  ∀ row ∈ db.rows, row.filename ≠ file.filename

theorem Unrecorded.find? (h : Unrecorded db file) :
    (db.rows.find? fun row => row.filename == file.filename) = none := by
  rw [List.find?_eq_none]
  intro row hrow
  simpa using h row hrow

theorem Recorded.isSome (h : Recorded db file) : db.migrations.isSome = true := by
  cases hrows : db.migrations with
  | some rows => rfl
  | none => simp [Recorded, MigrationDb.rows, hrows] at h

/-- A recorded migration is passed over. -/
theorem migrate_recorded {out : Except Thrown (List String)} (hfile : Recorded db file)
    (hc : ReadyClient passwords db c) (h : Exec P.sheltered (migrate passwords file) c out c') :
    (out = .ok [] ∧ ReadyClient passwords db c') ∨ ∃ e, out = .error e ∧ c'.session.committed = db := by
  rcases Exec.bind_inv h with ⟨tableExists, c₁, hfirst, hrest⟩ | ⟨e, hfirst, rfl⟩
  · obtain ⟨ending, hrun⟩ := Exec.perform_inv hfirst
    obtain ⟨rfl, hc₁⟩ := answer_ready hc (sheltered_run hrun).1
    have hexists : c.session.view.data.migrations.isSome = true := by
      obtain ⟨settings, _, hsession⟩ := hc.session
      rw [hsession]
      exact hfile.isSome
    rw [hexists] at hrest
    rcases Exec.bind_inv hrest with ⟨checksum, c₂, hsecond, hlast⟩ | ⟨e, hsecond, rfl⟩
    · obtain ⟨ending', hrun'⟩ := Exec.perform_inv hsecond
      obtain ⟨rfl, hc₂⟩ := answer_ready hc₁ (sheltered_run hrun').1
      have hrecorded : (c₁.session.view.data.rows.find? fun row => row.filename == file.filename).map
          MigrationRow.checksum = some file.checksum := by
        obtain ⟨settings, _, hsession⟩ := hc₁.session
        rw [hsession]
        exact hfile
      rw [hrecorded] at hlast
      simp only [bne_self_eq_false, Bool.false_eq_true, if_false] at hlast
      cases hlast
      exact .inl ⟨rfl, hc₂⟩
    · obtain ⟨ending', hrun'⟩ := Exec.perform_inv hsecond
      exact .inr ⟨e, rfl, (answer_standing hc₁.standing (sheltered_run hrun').1).committed⟩
  · obtain ⟨ending, hrun⟩ := Exec.perform_inv hfirst
    exact .inr ⟨e, rfl, (answer_standing hc.standing (sheltered_run hrun).1).committed⟩

/-- A migration that is not recorded is applied. -/
theorem migrate_unrecorded {out : Except Thrown (List String)} (hfile : P.Orderly file)
    (hnew : Unrecorded db file) (hc : ReadyClient passwords db c)
    (h : Exec P.sheltered (migrate passwords file) c out c') :
    (∃ e, out = .error e ∧ c'.session.committed = db) ∨
      ∃ db', P.effect passwords db file = .ok db' ∧ db'.rows = db.rows ++ [file.row] ∧
        c'.session.committed = db' ∧
        ∀ names, out = .ok names → names = [file.filename] ∧ ReadyClient passwords db' c' := by
  have happly : ∀ c₁, ReadyClient passwords db c₁ →
      Exec P.sheltered ((applyMigration passwords file).bind fun _ => .ret [file.filename]) c₁ out c' →
      (∃ e, out = .error e ∧ c'.session.committed = db) ∨
        ∃ db', P.effect passwords db file = .ok db' ∧ db'.rows = db.rows ++ [file.row] ∧
          c'.session.committed = db' ∧
          ∀ names, out = .ok names → names = [file.filename] ∧ ReadyClient passwords db' c' := by
    intro c₁ hc₁ hexec
    rcases Exec.bind_inv hexec with ⟨u, c₂, happly, hret⟩ | ⟨e, happly, rfl⟩
    · cases hret
      rcases applyMigration_exec hfile hc₁ happly with ⟨_, hout, _⟩ | ⟨db', heffect, hrows, hdb', hready⟩
      · cases hout
      · refine .inr ⟨db', heffect, hrows, hdb', ?_⟩
        rintro names ⟨⟩
        exact ⟨rfl, hready rfl⟩
    · rcases applyMigration_exec hfile hc₁ happly with ⟨e', _, hdb⟩ | ⟨db', heffect, hrows, hdb', _⟩
      · exact .inl ⟨e, rfl, hdb⟩
      · exact .inr ⟨db', heffect, hrows, hdb', fun names hok => by cases hok⟩
  rcases Exec.bind_inv h with ⟨tableExists, c₁, hfirst, hrest⟩ | ⟨e, hfirst, rfl⟩
  · obtain ⟨ending, hrun⟩ := Exec.perform_inv hfirst
    obtain ⟨rfl, hc₁⟩ := answer_ready hc (sheltered_run hrun).1
    cases hexists : c.session.view.data.migrations.isSome with
    | false =>
      rw [hexists] at hrest
      exact happly c₁ hc₁ hrest
    | true =>
      rw [hexists] at hrest
      rcases Exec.bind_inv hrest with ⟨checksum, c₂, hsecond, hlast⟩ | ⟨e, hsecond, rfl⟩
      · obtain ⟨ending', hrun'⟩ := Exec.perform_inv hsecond
        obtain ⟨rfl, hc₂⟩ := answer_ready hc₁ (sheltered_run hrun').1
        have hnone : (c₁.session.view.data.rows.find? fun row => row.filename == file.filename).map
            MigrationRow.checksum = none := by
          obtain ⟨settings, _, hsession⟩ := hc₁.session
          rw [hsession, hnew.find?]
          rfl
        rw [hnone] at hlast
        exact happly c₂ hc₂ hlast
      · obtain ⟨ending', hrun'⟩ := Exec.perform_inv hsecond
        exact .inl ⟨e, rfl, (answer_standing hc₁.standing (sheltered_run hrun').1).committed⟩
  · obtain ⟨ending, hrun⟩ := Exec.perform_inv hfirst
    exact .inl ⟨e, rfl, (answer_standing hc.standing (sheltered_run hrun).1).committed⟩

end Programs

end PlusOne
