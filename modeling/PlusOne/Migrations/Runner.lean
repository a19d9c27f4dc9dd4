import Mathlib.Data.List.Sort
import Mathlib.Data.String.Basic
import PlusOne.Contracts.Time
import PlusOne.Database.Errors
import PlusOne.Interleaving.Exclusive
import PlusOne.Transactions.Sessions

/-! # The migration runner

`runMigrations` over the queries it sends on its one client. What the statements of a
migration's text do to the schema is left to the database server; the runner's own
statements, and the transaction control in the text, are defined here. -/

namespace PlusOne

open Interleaving Transactions

structure MigrationFile where
  filename : String
  checksum : String
  sql : String
  deriving DecidableEq

structure MigrationRolePasswords where
  accounting : String
  planning : String
  operations : String
  query : String
  memory : String

/-- `Object.entries(passwords)` -/
def MigrationRolePasswords.entries (passwords : MigrationRolePasswords) : List (String × String) :=
  [("accounting", passwords.accounting), ("planning", passwords.planning),
    ("operations", passwords.operations), ("query", passwords.query), ("memory", passwords.memory)]

/-! ## The migration directory -/

def isFilenameChar (c : Char) : Bool := c.isLower || c.isDigit || c == '_'

/-- `MIGRATION_FILENAME.test(name)` -/
def isMigrationFilename (name : String) : Bool :=
  let digits := name.toList.take 4
  let rest := name.toList.drop 4
  let body := (rest.drop 1).takeWhile isFilenameChar
  digits.length == 4 && digits.all Char.isDigit && rest.head? == some '_' && !body.isEmpty &&
    (rest.drop 1).drop body.length == ".sql".toList

/-- The directory as its file names with their contents. -/
def listMigrationFiles (sha256 : String → String) (directory : List (String × String)) :
    List MigrationFile :=
  let entries := (directory.filter fun entry => isMigrationFilename entry.1).insertionSort
    fun a b => a.1 ≤ b.1
  entries.map fun entry => ⟨entry.1, sha256 entry.2, entry.2⟩

theorem listMigrationFiles_nodup {sha256 : String → String} {directory : List (String × String)}
    (h : (directory.map Prod.fst).Nodup) :
    ((listMigrationFiles sha256 directory).map MigrationFile.filename).Nodup := by
  have hnames : (listMigrationFiles sha256 directory).map MigrationFile.filename =
      ((directory.filter fun entry => isMigrationFilename entry.1).insertionSort
        fun a b => a.1 ≤ b.1).map Prod.fst := by
    simp [listMigrationFiles, Function.comp_def]
  have hperm := List.perm_insertionSort (fun a b : String × String => a.1 ≤ b.1)
    (directory.filter fun entry => isMigrationFilename entry.1)
  have hfiltered : ((directory.filter fun entry => isMigrationFilename entry.1).map Prod.fst).Nodup :=
    h.sublist (List.filter_sublist.map Prod.fst)
  rw [hnames]
  exact (hperm.map Prod.fst).nodup_iff.2 hfiltered

/-! ## Splitting a text into statements -/

def apostrophe : Char := Char.ofNat 39

def isTagChar (c : Char) : Bool := c.isAlphanum || c == '_'

/-- The dollar quote that the text starts with: `/^\$[A-Za-z0-9_]*\$/` -/
def dollarQuoteMatch : List Char → Option (List Char)
  | '$' :: tail =>
    let name := tail.takeWhile isTagChar
    if (tail.drop name.length).head? = some '$' then some ('$' :: name ++ ['$']) else none
  | _ => none

inductive Quoting
  | plain
  | singleQuoted
  | dollarQuoted (tag : List Char)

/-- The loop of `splitSqlStatements`: what is left of the text, the current statement, and how
many characters are taken as they are because the index has moved past them. -/
def scanStatements : List Char → List Char → Nat → Quoting → List (List Char)
  | [], current, _, _ => [current]
  | c :: rest, current, skipped + 1, quoting => scanStatements rest (current ++ [c]) skipped quoting
  | c :: rest, current, 0, .dollarQuoted tag =>
    if tag.isPrefixOf (c :: rest) then scanStatements rest (current ++ [c]) (tag.length - 1) .plain
    else scanStatements rest (current ++ [c]) 0 (.dollarQuoted tag)
  | c :: rest, current, 0, .singleQuoted =>
    if c = apostrophe then
      if rest.head? = some apostrophe then scanStatements rest (current ++ [c]) 1 .singleQuoted
      else scanStatements rest (current ++ [c]) 0 .plain
    else scanStatements rest (current ++ [c]) 0 .singleQuoted
  | c :: rest, current, 0, .plain =>
    match dollarQuoteMatch (c :: rest) with
    | some tag => scanStatements rest (current ++ [c]) (tag.length - 1) (.dollarQuoted tag)
    | none =>
      if c = apostrophe then scanStatements rest (current ++ [c]) 0 .singleQuoted
      else if c = ';' then current :: scanStatements rest [] 0 .plain
      else scanStatements rest (current ++ [c]) 0 .plain

def splitSqlStatements (sql : String) : List String :=
  ((scanStatements sql.toList [] 0 .plain).map fun statement => trim (String.ofList statement)).filter
    fun statement => statement != ""

example : splitSqlStatements "SET ROLE o;\nDO $$ BEGIN; END $$;" = ["SET ROLE o", "DO $$ BEGIN; END $$"] := by
  decide +kernel

/-! ## The server -/

/-- A row of `operations.schema_migrations`. -/
structure MigrationRow where
  filename : String
  checksum : String
  deriving DecidableEq

def MigrationFile.row (file : MigrationFile) : MigrationRow := ⟨file.filename, file.checksum⟩

/-- The database: the table of migrations, once there is one, and the rest of the schema. -/
structure MigrationDb (S : Type) where
  migrations : Option (List MigrationRow)
  schema : S
  deriving DecidableEq

namespace MigrationDb

variable {S : Type}

def rows (db : MigrationDb S) : List MigrationRow := db.migrations.getD []

end MigrationDb

/-- What a session has set, for itself and for the transaction it is in. -/
structure SessionSettings where
  role : Option String
  config : String → Option String
  localRole : Option String
  localConfig : String → Option String

namespace SessionSettings

def login : SessionSettings := ⟨none, fun _ => none, none, fun _ => none⟩

/-- Local settings end with their transaction. -/
def settle (settings : SessionSettings) : SessionSettings :=
  { settings with localRole := none, localConfig := fun _ => none }

def resetRole (settings : SessionSettings) : SessionSettings :=
  { settings with role := none, localRole := none }

def setConfig (key value : String) (settings : SessionSettings) : SessionSettings :=
  { settings with config := fun name => if name = key then some value else settings.config name }

end SessionSettings

abbrev MigrationView (S : Type) := View (MigrationDb S) SessionSettings

/-- How the server reads the texts of queries, what the statements of migrations do, what a
commit of some changes checks, and whether the role in force may write the table of migrations. -/
structure Postgres (S : Type) where
  parse : String → Except Thrown (List (Command String))
  perform : String → MigrationView S → Except Thrown (MigrationView S)
  deferred : MigrationDb S → MigrationDb S → Option Thrown
  deferred_self : ∀ db, deferred db db = none
  mayRecord : MigrationView S → Option Thrown

/-- The statements of the migration client. -/
inductive Sql
  | text (statement : String)
  | resetRole
  | setConfig (key value : String)
  | insertMigration (row : MigrationRow)
  | read

def Thrown.sqlState (code message : String) : Thrown := .pg ⟨some code, none, message⟩

namespace Postgres

variable {S : Type}

/-- `INSERT INTO operations.schema_migrations` -/
def insertMigration (P : Postgres S) (row : MigrationRow) (view : MigrationView S) :
    Except Thrown (MigrationView S) :=
  match view.data.migrations with
  | none => .error (.sqlState "42P01" "relation \"operations.schema_migrations\" does not exist")
  | some rows =>
    match P.mayRecord view with
    | some e => .error e
    | none =>
      if rows.any fun other => other.filename == row.filename then
        .error (.pg ⟨some "23505", some "schema_migrations_pkey", "duplicate key"⟩)
      else .ok { view with data := { view.data with migrations := some (rows ++ [row]) } }

def engine (P : Postgres S) : Engine Sql (MigrationDb S) SessionSettings Thrown where
  perform := fun sql view =>
    match sql with
    | .text statement => P.perform statement view
    | .resetRole => .ok { view with settings := view.settings.resetRole }
    | .setConfig key value => .ok { view with settings := view.settings.setConfig key value }
    | .insertMigration row => P.insertMigration row view
    | .read => .ok view
  deferred := P.deferred
  deferred_self := P.deferred_self
  settle := SessionSettings.settle
  inFailedTransaction := .sqlState "25P02" "current transaction is aborted"
  noTransaction := .sqlState "25P01" "can only be used in transaction blocks"
  noSavepoint := .sqlState "3B001" "savepoint does not exist"

end Postgres

/-- A command on the texts of a migration, among the statements of the client. -/
def Command.ofText : Command String → Command Sql
  | .begin => .begin
  | .commit => .commit
  | .rollback => .rollback
  | .savepoint name => .savepoint name
  | .rollbackTo name => .rollbackTo name
  | .release name => .release name
  | .statement text => .statement (.text text)

/-! ## The runner -/

/-- The queries that answer with nothing. The file and the position of a statement, and the file
of a COMMIT, are what only conditions on runs read. -/
inductive MigrationQuery
  | resetRole
  | begin
  | setConfig (key value : String)
  | statement (file : MigrationFile) (position : Nat) (text : String)
  | insertMigration (file : MigrationFile)
  | commit (file : MigrationFile)
  | rollback
  deriving DecidableEq

inductive MigrationCall
  | connect
  | tableExists
  | recordedChecksum (filename : String)
  | change (query : MigrationQuery)
  deriving DecidableEq

@[reducible] def MigrationReply : MigrationCall → Type
  | .connect | .change _ => Unit
  | .tableExists => Bool
  | .recordedChecksum _ => Option String

abbrev MigrationProgram := Prog MigrationCall MigrationReply Thrown

def MigrationCall.send (call : MigrationCall) : MigrationProgram (MigrationReply call) :=
  Prog.perform call

/-- Changes one after the other. -/
def issueAll : List MigrationQuery → MigrationProgram Unit
  | [] => pure ()
  | query :: queries => do
    (MigrationCall.change query).send
    issueAll queries

/-- `migrationTableExists` -/
def migrationTableExists : MigrationProgram Bool := MigrationCall.tableExists.send

/-- The queries of `setRolePasswords`. -/
def rolePasswordQueries (passwords : MigrationRolePasswords) : List MigrationQuery :=
  passwords.entries.map fun entry => .setConfig ("plus_one.role_password." ++ entry.1) entry.2

/-- The queries of `executeSqlStatements`. -/
def statementQueries (file : MigrationFile) : List MigrationQuery :=
  (splitSqlStatements file.sql).zipIdx.map fun statement => .statement file statement.2 statement.1

def migrationChecksumMismatch (file : MigrationFile) : Thrown :=
  .plusOne
    { category := .constraint_violation
      code := "migration_checksum_mismatch"
      message := "An applied migration no longer matches its recorded checksum"
      retry := .never
      receiptLookupRequired := false
      details := [("filename", .text file.filename)] }

/-- What is tried between BEGIN and the end of a migration. -/
def attemptMigration (passwords : MigrationRolePasswords) (file : MigrationFile) : MigrationProgram Unit := do
  issueAll (rolePasswordQueries passwords)
  issueAll (statementQueries file)
  issueAll [.insertMigration file, .commit file]

/-- One migration that is not recorded yet. -/
def applyMigration (passwords : MigrationRolePasswords) (file : MigrationFile) : MigrationProgram Unit := do
  issueAll [.resetRole, .begin]
  let attempted := (attemptMigration passwords file).tryCatch fun error => do
    issueAll [.rollback]
    throw error
  attempted.handle (fun _ => issueAll [.resetRole]) fun error => do
    issueAll [.resetRole]
    throw error

/-- One turn of the loop: the filename, when the migration was applied now. -/
def migrate (passwords : MigrationRolePasswords) (file : MigrationFile) : MigrationProgram (List String) := do
  let tableExists ← migrationTableExists
  let checksum ←
    if tableExists then (MigrationCall.recordedChecksum file.filename).send
    else pure none
  match checksum with
  | some checksum => if checksum != file.checksum then throw (migrationChecksumMismatch file) else pure []
  | none => do
    applyMigration passwords file
    pure [file.filename]

def migrateAll (passwords : MigrationRolePasswords) : List MigrationFile → MigrationProgram (List String)
  | [] => pure []
  | file :: files => do
    let now ← migrate passwords file
    let later ← migrateAll passwords files
    pure (now ++ later)

def runMigrations (passwords : MigrationRolePasswords) (files : List MigrationFile) :
    MigrationProgram (List String) :=
  Prog.tryCatch
    (do
      MigrationCall.connect.send
      migrateAll passwords files)
    fun error => throw (.plusOne (normalizeDatabaseError error { operation := "run-migrations" }))

/-! ## What the queries do -/

/-- The commands that a query has the server carry out. -/
def MigrationQuery.commands {S : Type} (P : Postgres S) : MigrationQuery → Except Thrown (List (Command Sql))
  | .resetRole => .ok [.statement .resetRole]
  | .begin => .ok [.begin]
  | .setConfig key value => .ok [.statement (.setConfig key value)]
  | .statement _ _ text => (P.parse text).map (·.map Command.ofText)
  | .insertMigration file => .ok [.statement (.insertMigration file.row)]
  | .commit _ => .ok [.commit]
  | .rollback => .ok [.rollback]

abbrev MigrationConnection (S : Type) := ClientConnection (MigrationDb S) SessionSettings

namespace Postgres

variable {S : Type}

/-- A query that only reads, and its answer. -/
def answer {α : Type} (P : Postgres S) (ending : Exchange Thrown) (c : MigrationConnection S) (a : α) :
    Option (Except Thrown α × MigrationConnection S) :=
  (P.engine.respond .login (.ok [.statement .read]) ending c).map fun step => (step.1.map fun _ => a, step.2)

def run (P : Postgres S) (call : MigrationCall) (ending : Exchange Thrown) (c : MigrationConnection S) :
    Option (Except Thrown (MigrationReply call) × MigrationConnection S) :=
  match call with
  | .connect => P.answer ending c ()
  | .tableExists => P.answer ending c c.session.view.data.migrations.isSome
  | .recordedChecksum filename =>
    let row := c.session.view.data.rows.find? fun row => row.filename == filename
    P.answer ending c (row.map MigrationRow.checksum)
  | .change query => P.engine.respond .login (query.commands P) ending c

/-- The runner's client, whose queries may fail or be lost at any point. -/
def client (P : Postgres S) : Cell MigrationCall MigrationReply Thrown (MigrationConnection S) :=
  ⟨Exchange Thrown, P.run⟩

end Postgres

end PlusOne
