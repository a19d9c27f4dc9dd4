import Mathlib.Logic.Relation
import PlusOne.Migrations.Migration

/-! # Runs of the migration runner

What a run leaves that fails or is cut off, and what the run after it does. A run over
migrations of which the first are recorded applies some of the rest; without a failure
it applies them all. -/

namespace PlusOne

open Interleaving Transactions

namespace Postgres

variable {S : Type}

/-- What migrations do to a database, one after the other. -/
def applied (P : Postgres S) (passwords : MigrationRolePasswords) (db : MigrationDb S)
    (files : List MigrationFile) : Except Thrown (MigrationDb S) :=
  files.foldlM (P.effect passwords) db

end Postgres

/-- A run of the runner on a database, and the database after it. -/
def RunLeaves {S : Type} (C : Cell MigrationCall MigrationReply Thrown (MigrationConnection S))
    (passwords : MigrationRolePasswords) (files : List MigrationFile) (db : MigrationDb S)
    (out : Except Thrown (List String)) (db' : MigrationDb S) : Prop :=
  ∃ c, Exec C (runMigrations passwords files) (.login .login db) out c ∧ c.session.committed = db'

section Programs

variable {S : Type} {P : Postgres S} {passwords : MigrationRolePasswords} {file : MigrationFile}
variable {queries : List MigrationQuery} {c c' : MigrationConnection S} {db : MigrationDb S}

/-! ## Runs -/

variable {files : List MigrationFile} {db' : MigrationDb S}

theorem applied_cons (h : P.effect passwords db file = .ok db') :
    P.applied passwords db (file :: files) = P.applied passwords db' files := by
  rw [Postgres.applied, List.foldlM_cons, h]
  rfl

variable {final : MigrationDb S}

theorem applied_cons_ok (h : P.applied passwords db (file :: files) = .ok final) :
    ∃ db', P.effect passwords db file = .ok db' ∧ P.applied passwords db' files = .ok final := by
  rw [Postgres.applied, List.foldlM_cons] at h
  cases heffect : P.effect passwords db file with
  | ok db' =>
    rw [heffect] at h
    exact ⟨db', rfl, h⟩
  | error e =>
    rw [heffect] at h
    cases h

theorem applied_append {files more : List MigrationFile} (h : P.applied passwords db files = .ok db') :
    P.applied passwords db (files ++ more) = P.applied passwords db' more := by
  induction files generalizing db with
  | nil =>
    cases h
    rfl
  | cons file files ih =>
    obtain ⟨db₁, heffect, hrest⟩ := applied_cons_ok h
    rw [List.cons_append, applied_cons heffect, ih hrest]

variable {out : Except Thrown (List String)}

theorem migrateAll_recorded {files more : List MigrationFile} (hfiles : ∀ file ∈ files, Recorded db file)
    (hc : ReadyClient passwords db c) (h : Exec P.sheltered (migrateAll passwords (files ++ more)) c out c') :
    (∃ c₁, ReadyClient passwords db c₁ ∧ Exec P.sheltered (migrateAll passwords more) c₁ out c') ∨
      ∃ e, out = .error e ∧ c'.session.committed = db := by
  induction files generalizing c out with
  | nil => exact .inl ⟨c, hc, h⟩
  | cons file files ih =>
    rcases Exec.bind_inv h with ⟨now, c₁, hfirst, hrest⟩ | ⟨e, hfirst, rfl⟩
    · rcases migrate_recorded (hfiles file List.mem_cons_self) hc hfirst with ⟨hnow, hc₁⟩ | ⟨_, hout, _⟩
      · cases hnow
        have hlater : Exec P.sheltered (migrateAll passwords (files ++ more)) c₁ out c' := by
          rcases Exec.bind_inv hrest with ⟨later, c₂, hlast, hret⟩ | ⟨e, hlast, rfl⟩
          · cases hret
            exact hlast
          · exact hlast
        exact ih (fun other hother => hfiles other (List.mem_cons_of_mem _ hother)) hc₁ hlater
      · cases hout
    · rcases migrate_recorded (hfiles file List.mem_cons_self) hc hfirst with ⟨hout, _⟩ | ⟨e', hout, hdb⟩
      · cases hout
      · cases hout
        exact .inr ⟨e, rfl, hdb⟩

theorem unrecorded_later (hnew : ∀ other ∈ file :: files, Unrecorded db other)
    (hnames : ((file :: files).map MigrationFile.filename).Nodup) (hrows : db'.rows = db.rows ++ [file.row]) :
    ∀ other ∈ files, Unrecorded db' other := by
  intro other hother row hrow
  rw [hrows] at hrow
  rcases List.mem_append.1 hrow with hold | hlast
  · exact hnew other (List.mem_cons_of_mem _ hother) row hold
  · rw [List.mem_singleton.1 hlast]
    intro hsame
    exact (List.nodup_cons.1 hnames).1 (List.mem_map.2 ⟨other, hother, hsame.symm⟩)

/-- A run over migrations that are not recorded applies the first of them, and all when it ends. -/
theorem migrateAll_unrecorded (hfiles : ∀ file ∈ files, P.Orderly file) (hnew : ∀ file ∈ files, Unrecorded db file)
    (hnames : (files.map MigrationFile.filename).Nodup) (hc : ReadyClient passwords db c)
    (h : Exec P.sheltered (migrateAll passwords files) c out c') :
    ∃ n ≤ files.length, P.applied passwords db (files.take n) = .ok c'.session.committed ∧
      c'.session.committed.rows = db.rows ++ (files.take n).map MigrationFile.row ∧
      ∀ names, out = .ok names → n = files.length ∧ names = files.map MigrationFile.filename := by
  induction files generalizing c db out with
  | nil =>
    cases h
    refine ⟨0, Nat.le_refl 0, ?_⟩
    have hdb : c'.session.committed = db := hc.standing.committed
    simp [Postgres.applied, hdb]
    rfl
  | cons file files ih =>
    have hfailed : ∀ e, out = .error e → c'.session.committed = db →
        ∃ n ≤ (file :: files).length,
          P.applied passwords db ((file :: files).take n) = .ok c'.session.committed ∧
          c'.session.committed.rows = db.rows ++ ((file :: files).take n).map MigrationFile.row ∧
          ∀ names, out = .ok names → n = (file :: files).length ∧
            names = (file :: files).map MigrationFile.filename := by
      rintro e rfl hdb
      refine ⟨0, Nat.zero_le _, ?_, ?_, fun names hok => by cases hok⟩
      · rw [hdb]
        rfl
      · simp [hdb]
    have hfile := hfiles file List.mem_cons_self
    have hunrecorded := hnew file List.mem_cons_self
    rcases Exec.bind_inv h with ⟨now, c₁, hfirst, hlater⟩ | ⟨e, hfirst, rfl⟩
    · rcases migrate_unrecorded hfile hunrecorded hc hfirst with ⟨_, hout, _⟩ |
        ⟨db', heffect, hrows, hdb', hready⟩
      · cases hout
      · obtain ⟨rfl, hc₁⟩ := hready now rfl
        have hend : ∃ out', Exec P.sheltered (migrateAll passwords files) c₁ out' c' ∧
            ∀ names, out = .ok names → ∃ later, out' = .ok later ∧ names = file.filename :: later := by
          rcases Exec.bind_inv hlater with ⟨later, c₂, hlast, hret⟩ | ⟨e, hlast, rfl⟩
          · cases hret
            exact ⟨.ok later, hlast, fun names hok => ⟨later, rfl, (Except.ok.inj hok).symm⟩⟩
          · exact ⟨.error e, hlast, fun names hok => by cases hok⟩
        obtain ⟨out', hexec, hout'⟩ := hend
        obtain ⟨n, hn, happlied, hallRows, hall⟩ := ih
          (fun other hother => hfiles other (List.mem_cons_of_mem _ hother))
          (unrecorded_later hnew hnames hrows) (List.nodup_cons.1 hnames).2 hc₁ hexec
        refine ⟨n + 1, by simpa using hn, ?_, ?_, ?_⟩
        · rw [List.take_succ_cons, applied_cons heffect]
          exact happlied
        · rw [hallRows, hrows]
          simp
        · intro names hok
          obtain ⟨later, rfl, rfl⟩ := hout' names hok
          obtain ⟨rfl, rfl⟩ := hall later rfl
          exact ⟨rfl, rfl⟩
    · rcases migrate_unrecorded hfile hunrecorded hc hfirst with ⟨e', hout, hdb⟩ |
        ⟨db', heffect, hrows, hdb', hready⟩
      · exact hfailed e rfl hdb
      · refine ⟨1, by simp, ?_, ?_, fun names hok => by cases hok⟩
        · rw [List.take_succ_cons, applied_cons heffect, hdb']
          rfl
        · rw [hdb', hrows]
          simp

theorem runMigrations_exec {recorded files : List MigrationFile} (hrecorded : ∀ file ∈ recorded, Recorded db file)
    (hfiles : ∀ file ∈ files, P.Orderly file) (hnew : ∀ file ∈ files, Unrecorded db file)
    (hnames : (files.map MigrationFile.filename).Nodup)
    (h : Exec P.sheltered (runMigrations passwords (recorded ++ files)) (.login .login db) out c') :
    ∃ n ≤ files.length, P.applied passwords db (files.take n) = .ok c'.session.committed ∧
      c'.session.committed.rows = db.rows ++ (files.take n).map MigrationFile.row ∧
      ∀ names, out = .ok names → n = files.length ∧ names = files.map MigrationFile.filename := by
  have hlogin : ReadyClient passwords db (.login .login db) := ready_login
  have hbefore : c'.session.committed = db → (∀ names, out ≠ .ok names) →
      ∃ n ≤ files.length, P.applied passwords db (files.take n) = .ok c'.session.committed ∧
        c'.session.committed.rows = db.rows ++ (files.take n).map MigrationFile.row ∧
        ∀ names, out = .ok names → n = files.length ∧ names = files.map MigrationFile.filename := by
    intro hdb hout
    refine ⟨0, Nat.zero_le _, ?_, ?_, fun names hok => absurd hok (hout names)⟩
    · rw [hdb]
      rfl
    · simp [hdb]
  have hrun : ∃ out', Exec P.sheltered (do
      MigrationCall.connect.send
      migrateAll passwords (recorded ++ files)) (.login .login db) out' c' ∧
      ∀ names, out = .ok names → out' = .ok names := by
    rcases Exec.tryCatch_inv h with ⟨names, hdone, rfl⟩ | ⟨e, c₁, hfailed, hthrow⟩
    · exact ⟨.ok names, hdone, fun other hok => hok⟩
    · cases hthrow
      exact ⟨.error e, hfailed, fun other hok => by cases hok⟩
  obtain ⟨out', hexec, hout'⟩ := hrun
  have hnot : ∀ e, out' = .error e → ∀ names, out ≠ .ok names := by
    rintro e rfl names hok
    cases hout' names hok
  rcases Exec.bind_inv hexec with ⟨u, c₁, hconnect, hall⟩ | ⟨e, hconnect, rfl⟩
  · obtain ⟨ending, hstep⟩ := Exec.perform_inv hconnect
    obtain ⟨_, hc₁⟩ := answer_ready hlogin (sheltered_run hstep).1
    rcases migrateAll_recorded hrecorded hc₁ hall with ⟨c₂, hc₂, hrest⟩ | ⟨e, rfl, hdb⟩
    · obtain ⟨n, hn, happlied, hrows, hend⟩ := migrateAll_unrecorded hfiles hnew hnames hc₂ hrest
      exact ⟨n, hn, happlied, hrows, fun names hok => hend names (hout' names hok)⟩
    · exact hbefore hdb (hnot e rfl)
  · obtain ⟨ending, hstep⟩ := Exec.perform_inv hconnect
    exact hbefore (answer_standing hlogin.standing (sheltered_run hstep).1).committed (hnot e rfl)

/-! ## Runs that nothing disturbs -/

theorem answering_sheltered {α : Type} {p : MigrationProgram α} {out : Except Thrown α}
    (h : Exec P.client.answering p c out c') : Exec P.sheltered p c out c' := by
  refine Exec.mono ?_ h
  intro call ending r d d' hrun
  obtain ⟨a, rfl, hstep⟩ := Cell.answering_run hrun
  exact ⟨ending, Option.filter_eq_some_iff.2 ⟨hstep, rfl⟩⟩

theorem send_answering {call : MigrationCall} {a : MigrationReply call}
    (h : P.run call .answered c = some (.ok a, c')) : Exec P.client.answering call.send c (.ok a) c' := by
  have hstep : P.client.answering.run call .answered c = some (.ok a, c') :=
    Option.filter_eq_some_iff.2 ⟨h, rfl⟩
  exact .call hstep (.ret a c')

theorem issueAll_answering {s' : Session (MigrationDb S) SessionSettings} (hopen : c.isOpen = true)
    (h : P.changes queries c.session = .ok s') :
    Exec P.client.answering (issueAll queries) c (.ok ()) { c with session := s' } := by
  induction queries generalizing c with
  | nil =>
    cases h
    exact .ret () c
  | cons query queries ih =>
    obtain ⟨s₁, hsubmit, hrest⟩ := changes_cons_ok h
    have hrespond : P.engine.respond SessionSettings.login (query.commands P) .answered c =
        some (.ok (), { c with session := s₁ }) := Engine.respond_answered hopen hsubmit
    have hrun : P.run (.change query) .answered c = some (.ok (), { c with session := s₁ }) := hrespond
    exact Exec.bind_ok (send_answering hrun) (ih (c := { c with session := s₁ }) hopen hrest)

theorem applyMigration_answering (hfile : P.Orderly file) (hc : ReadyClient passwords db c)
    (h : P.effect passwords db file = .ok db') :
    ∃ c', Exec P.client.answering (applyMigration passwords file) c (.ok ()) c' ∧
      ReadyClient passwords db' c' := by
  obtain ⟨s', hchanges, hdb'⟩ := changes_of_effect hfile hc h
  obtain ⟨_, view, rfl, _, hconfig⟩ := changes_effect hfile hc hchanges
  obtain ⟨s₁, hbegin, hrest⟩ := changes_append_ok hchanges
  obtain rfl : view.data = db' := hdb'
  have hstart := issueAll_answering hc.isOpen hbegin
  have hattempt : Exec P.client.answering (attemptMigration passwords file) { c with session := s₁ }
      (.ok ()) { c with session := ⟨view, none⟩ } := by
    rw [attemptMigration_eq, ← issueAll_append]
    exact issueAll_answering hc.isOpen hrest
  have hdeferred := P.deferred_self view.data
  have hreset : P.changes [.resetRole] (Session.mk view none) =
      .ok ⟨⟨view.data, view.settings.resetRole.settle⟩, none⟩ := by
    simp [Postgres.changes, MigrationQuery.commands, Postgres.engine, Engine.submit, Engine.query,
      Engine.command, Session.opened, Engine.close, Engine.commit, hdeferred]
  have hlast : Exec P.client.answering (issueAll [.resetRole]) { c with session := ⟨view, none⟩ }
      (.ok ()) _ := issueAll_answering hc.isOpen hreset
  have hopen : (ClientConnection.mk (Session.mk view none) c.isOpen).isOpen = true := hc.isOpen
  have hready := ready_of_resetRole hopen rfl hconfig
    (answering_sheltered hlast)
  exact ⟨_, Exec.bind_ok hstart (Exec.handle_ok (Exec.tryCatch_ok hattempt) hlast), hready⟩

theorem tableExists_answering (hc : ReadyClient passwords db c) :
    Exec P.client.answering migrationTableExists c (.ok db.migrations.isSome) c := by
  obtain ⟨settings, _, hsession⟩ := hc.session
  have hanswer : P.run .tableExists .answered c = some (.ok c.session.view.data.migrations.isSome, c) :=
    answer_answered hc
  rw [hsession] at hanswer
  exact send_answering hanswer

theorem checksum_answering (hc : ReadyClient passwords db c) (filename : String) :
    Exec P.client.answering (MigrationCall.recordedChecksum filename).send c
      (.ok ((db.rows.find? fun row => row.filename == filename).map MigrationRow.checksum)) c := by
  obtain ⟨settings, _, hsession⟩ := hc.session
  have hanswer : P.run (.recordedChecksum filename) .answered c = some
      (.ok ((c.session.view.data.rows.find? fun row => row.filename == filename).map
        MigrationRow.checksum), c) := answer_answered hc
  rw [hsession] at hanswer
  exact send_answering hanswer

theorem migrate_recorded_answering (hfile : Recorded db file) (hc : ReadyClient passwords db c) :
    Exec P.client.answering (migrate passwords file) c (.ok []) c := by
  refine Exec.bind_ok (tableExists_answering hc) ?_
  rw [hfile.isSome]
  have hchecksum := checksum_answering (P := P) hc file.filename
  rw [show (db.rows.find? fun row => row.filename == file.filename).map MigrationRow.checksum =
    some file.checksum from hfile] at hchecksum
  refine Exec.bind_ok hchecksum ?_
  simp only [bne_self_eq_false, Bool.false_eq_true, if_false]
  exact .ret [] c

theorem migrate_unrecorded_answering (hfile : P.Orderly file) (hnew : Unrecorded db file)
    (hc : ReadyClient passwords db c) (h : P.effect passwords db file = .ok db') :
    ∃ c', Exec P.client.answering (migrate passwords file) c (.ok [file.filename]) c' ∧
      ReadyClient passwords db' c' := by
  obtain ⟨c', happly, hready⟩ := applyMigration_answering hfile hc h
  refine ⟨c', Exec.bind_ok (tableExists_answering hc) ?_, hready⟩
  have hlast : Exec P.client.answering ((applyMigration passwords file).bind fun _ => .ret [file.filename])
      c (.ok [file.filename]) c' := Exec.bind_ok happly (.ret [file.filename] c')
  cases db.migrations.isSome with
  | false => exact hlast
  | true =>
    have hchecksum := checksum_answering (P := P) hc file.filename
    rw [hnew.find?] at hchecksum
    exact Exec.bind_ok hchecksum hlast

theorem effect_rows (hfile : P.Orderly file) (h : P.effect passwords db file = .ok db') :
    db'.rows = db.rows ++ [file.row] := by
  have hlogin : ReadyClient passwords db (.login .login db) := ready_login
  obtain ⟨s', hchanges, hdb'⟩ := changes_of_effect hfile hlogin h
  obtain ⟨_, view, rfl, hrows, _⟩ := changes_effect hfile hlogin hchanges
  have hview : view.data = db' := hdb'
  rw [← hview, hrows]

theorem migrateAll_unrecorded_answering (hfiles : ∀ file ∈ files, P.Orderly file)
    (hnew : ∀ file ∈ files, Unrecorded db file) (hnames : (files.map MigrationFile.filename).Nodup)
    (hc : ReadyClient passwords db c) (h : P.applied passwords db files = .ok final) :
    ∃ c', Exec P.client.answering (migrateAll passwords files) c
      (.ok (files.map MigrationFile.filename)) c' ∧ c'.session.committed = final := by
  induction files generalizing c db with
  | nil =>
    cases h
    exact ⟨c, .ret [] c, hc.standing.committed⟩
  | cons file files ih =>
    obtain ⟨db', heffect, hrest⟩ := applied_cons_ok h
    have hfile := hfiles file List.mem_cons_self
    obtain ⟨c₁, hfirst, hc₁⟩ := migrate_unrecorded_answering hfile (hnew file List.mem_cons_self) hc heffect
    have hlater := unrecorded_later hnew hnames (effect_rows hfile heffect)
    rw [List.map_cons, List.nodup_cons] at hnames
    obtain ⟨c', hlast, hfinal⟩ := ih (fun other hother => hfiles other (List.mem_cons_of_mem _ hother))
      hlater hnames.2 hc₁ hrest
    exact ⟨c', Exec.bind_ok hfirst (Exec.bind_ok hlast (.ret _ c')), hfinal⟩

theorem migrateAll_recorded_answering {files more : List MigrationFile} {names : List String}
    (hfiles : ∀ file ∈ files, Recorded db file) (hc : ReadyClient passwords db c)
    (h : Exec P.client.answering (migrateAll passwords more) c (.ok names) c') :
    Exec P.client.answering (migrateAll passwords (files ++ more)) c (.ok names) c' := by
  induction files with
  | nil => exact h
  | cons file files ih =>
    have hrest := ih fun other hother => hfiles other (List.mem_cons_of_mem _ hother)
    exact Exec.bind_ok (migrate_recorded_answering (hfiles file List.mem_cons_self) hc)
      (Exec.bind_ok hrest (.ret _ c'))

theorem runMigrations_answering {recorded files : List MigrationFile}
    (hrecorded : ∀ file ∈ recorded, Recorded db file) (hfiles : ∀ file ∈ files, P.Orderly file)
    (hnew : ∀ file ∈ files, Unrecorded db file) (hnames : (files.map MigrationFile.filename).Nodup)
    (h : P.applied passwords db files = .ok final) :
    RunLeaves P.client.answering passwords (recorded ++ files) db
      (.ok (files.map MigrationFile.filename)) final := by
  have hlogin : ReadyClient passwords db (.login .login db) := ready_login
  obtain ⟨c', hexec, hfinal⟩ := migrateAll_unrecorded_answering hfiles hnew hnames hlogin h
  have hall := migrateAll_recorded_answering hrecorded hlogin hexec
  have hanswer : P.run .connect .answered (.login .login db) = some (.ok (), .login .login db) :=
    answer_answered hlogin
  exact ⟨c', Exec.tryCatch_ok (Exec.bind_ok (send_answering hanswer) hall), hfinal⟩

/-! ## Histories of runs -/

/-- The database holds the effects of the first `n` migrations, and their records. -/
def Postgres.HoldsPrefix (P : Postgres S) (passwords : MigrationRolePasswords)
    (files : List MigrationFile) (db₀ db : MigrationDb S) (n : Nat) : Prop :=
  P.applied passwords db₀ (files.take n) = .ok db ∧
    db.rows = db₀.rows ++ (files.take n).map MigrationFile.row

section Histories

variable {files : List MigrationFile} {db₀ db' : MigrationDb S} {n : Nat}

theorem find?_filename {files : List MigrationFile} (hnames : (files.map MigrationFile.filename).Nodup)
    (hfile : file ∈ files) : files.find? ((fun row : MigrationRow => row.filename == file.filename) ∘
      MigrationFile.row) = some file := by
  induction files with
  | nil => cases hfile
  | cons other files ih =>
    rw [List.map_cons, List.nodup_cons] at hnames
    rcases List.mem_cons.1 hfile with rfl | hmem
    · simp [MigrationFile.row]
    · have hne : other.filename ≠ file.filename := fun hsame =>
        hnames.1 (List.mem_map.2 ⟨file, hmem, hsame.symm⟩)
      have hfalse : (((fun row : MigrationRow => row.filename == file.filename) ∘ MigrationFile.row) other) =
          false := by simpa [MigrationFile.row] using hne
      rw [List.find?_cons, hfalse]
      exact ih hnames.2 hmem

theorem recorded_of_split (hnames : (files.map MigrationFile.filename).Nodup)
    (hnew : ∀ file ∈ files, Unrecorded db₀ file) (h : P.HoldsPrefix passwords files db₀ db n) :
    ∀ file ∈ files.take n, Recorded db file := by
  intro file hfile
  have hmem : file ∈ files := List.mem_of_mem_take hfile
  have hrow : (db.rows.find? fun row => row.filename == file.filename) = some file.row := by
    have hnone := (hnew file hmem).find?
    rw [h.2, List.find?_append, hnone, Option.none_or, List.find?_map]
    have htaken : ((files.take n).map MigrationFile.filename).Nodup :=
      hnames.sublist ((List.take_sublist n files).map _)
    have hfound : (files.take n).find? ((fun row : MigrationRow => row.filename == file.filename) ∘
        MigrationFile.row) = some file := find?_filename htaken hfile
    rw [hfound]
    rfl
  rw [Recorded, hrow]
  rfl

theorem unrecorded_of_split (hnames : (files.map MigrationFile.filename).Nodup)
    (hnew : ∀ file ∈ files, Unrecorded db₀ file) (h : P.HoldsPrefix passwords files db₀ db n) :
    ∀ file ∈ files.drop n, Unrecorded db file := by
  intro file hfile row hrow
  have hmem : file ∈ files := List.mem_of_mem_drop hfile
  rw [h.2] at hrow
  rcases List.mem_append.1 hrow with hold | hrecord
  · exact hnew file hmem row hold
  · obtain ⟨other, hother, rfl⟩ := List.mem_map.1 hrecord
    intro hsame
    rw [← List.take_append_drop n files, List.map_append, List.nodup_append] at hnames
    exact hnames.2.2 _ (List.mem_map_of_mem hother) _ (List.mem_map_of_mem hfile) hsame

/-- A run over a prefix leaves a longer prefix. -/
theorem prefix_of_run {out : Except Thrown (List String)} (hfiles : ∀ file ∈ files, P.Orderly file)
    (hnames : (files.map MigrationFile.filename).Nodup) (hnew : ∀ file ∈ files, Unrecorded db₀ file)
    (h : P.HoldsPrefix passwords files db₀ db n) (hn : n ≤ files.length)
    (hrun : RunLeaves P.sheltered passwords files db out db') :
    ∃ m, n + m ≤ files.length ∧ P.HoldsPrefix passwords files db₀ db' (n + m) ∧
      ∀ names, out = .ok names → n + m = files.length ∧
        names = (files.drop n).map MigrationFile.filename := by
  obtain ⟨c, hexec, rfl⟩ := hrun
  have hlater : ∀ file ∈ files.drop n, P.Orderly file := fun file hfile =>
    hfiles file (List.mem_of_mem_drop hfile)
  have hlaterNames : ((files.drop n).map MigrationFile.filename).Nodup :=
    hnames.sublist ((List.drop_sublist n files).map _)
  rw [← List.take_append_drop n files] at hexec
  obtain ⟨m, hm, happlied, hrows, hend⟩ := runMigrations_exec (recorded_of_split hnames hnew h) hlater
    (unrecorded_of_split hnames hnew h) hlaterNames hexec
  rw [List.length_drop] at hm
  have htake : files.take (n + m) = files.take n ++ (files.drop n).take m := by
    rw [List.take_add]
  refine ⟨m, by omega, ⟨?_, ?_⟩, ?_⟩
  · rw [htake, applied_append h.1, happlied]
  · rw [hrows, h.2, htake, List.map_append, List.append_assoc]
  · intro names hok
    obtain ⟨hlength, hnames'⟩ := hend names hok
    rw [List.length_drop] at hlength
    exact ⟨by omega, hnames'⟩

/-- Runs of the runner one after the other, each of which may end early. -/
def MigrationHistory (C : Cell MigrationCall MigrationReply Thrown (MigrationConnection S))
    (passwords : MigrationRolePasswords) (files : List MigrationFile) :
    MigrationDb S → MigrationDb S → Prop :=
  Relation.ReflTransGen fun db db' => ∃ out, RunLeaves C passwords files db out db'

/-- What is promised of every history: the effects of a prefix and just its records are left, and
one more run that nothing disturbs ends where a first run would have. -/
def Postgres.AllOrNothing (P : Postgres S) (passwords : MigrationRolePasswords)
    (files : List MigrationFile) (db₀ db : MigrationDb S) : Prop :=
  ∃ n ≤ files.length, P.HoldsPrefix passwords files db₀ db n ∧
    ∀ names final, RunLeaves P.client.answering passwords files db₀ (.ok names) final →
      RunLeaves P.client.answering passwords files db (.ok (names.drop n)) final

/-- Histories whose failures all strike while the runner's transaction is the one it opened keep
the promise, when the migrations are orderly. -/
theorem migrations_all_or_nothing (P : Postgres S) (passwords : MigrationRolePasswords)
    (files : List MigrationFile) (db₀ db : MigrationDb S) (hfiles : ∀ file ∈ files, P.Orderly file)
    (hnames : (files.map MigrationFile.filename).Nodup) (hnew : ∀ file ∈ files, Unrecorded db₀ file)
    (h : MigrationHistory P.sheltered passwords files db₀ db) : P.AllOrNothing passwords files db₀ db := by
  have hprefix : ∃ n ≤ files.length, P.HoldsPrefix passwords files db₀ db n := by
    induction h with
    | refl => exact ⟨0, Nat.zero_le _, rfl, by simp⟩
    | tail _ hrun ih =>
      obtain ⟨n, hn, hbefore⟩ := ih
      obtain ⟨out, hrun⟩ := hrun
      obtain ⟨m, hm, hafter, _⟩ := prefix_of_run hfiles hnames hnew hbefore hn hrun
      exact ⟨n + m, hm, hafter⟩
  obtain ⟨n, hn, hprefix⟩ := hprefix
  refine ⟨n, hn, hprefix, ?_⟩
  rintro names final ⟨c, hexec, rfl⟩
  have hstart : P.HoldsPrefix passwords files db₀ db₀ 0 := ⟨rfl, by simp⟩
  have hrun : RunLeaves P.sheltered passwords files db₀ (.ok names) c.session.committed :=
    ⟨c, answering_sheltered hexec, rfl⟩
  obtain ⟨m, _, hfinal, hend⟩ := prefix_of_run hfiles hnames hnew hstart (Nat.zero_le _) hrun
  obtain ⟨hm, rfl⟩ := hend names rfl
  have hrest : P.applied passwords db (files.drop n) = .ok c.session.committed := by
    have hall := hfinal.1
    rw [hm, List.take_length, ← List.take_append_drop n files, applied_append hprefix.1] at hall
    exact hall
  have hlater : ∀ file ∈ files.drop n, P.Orderly file := fun file hfile =>
    hfiles file (List.mem_of_mem_drop hfile)
  have hlaterNames : ((files.drop n).map MigrationFile.filename).Nodup :=
    hnames.sublist ((List.drop_sublist n files).map _)
  have hlast := runMigrations_answering (recorded_of_split hnames hnew hprefix) hlater
    (unrecorded_of_split hnames hnew hprefix) hlaterNames hrest
  rw [List.take_append_drop] at hlast
  simpa only [List.drop_zero, List.map_drop] using hlast

end Histories

end Programs

/-! ## A database of tables -/

namespace TestMigrations

/-- Two kinds of statements: one makes the table of migrations, the others make the table they
name. -/
def perform (text : String) (view : MigrationView (List String)) :
    Except Thrown (MigrationView (List String)) :=
  if text = "CREATE TABLE operations.schema_migrations" then
    if view.data.migrations.isSome then .error (.sqlState "42P07" "relation already exists")
    else .ok { view with data := { view.data with migrations := some [] } }
  else if text ∈ view.data.schema then .error (.sqlState "42P07" "relation already exists")
  else .ok { view with data := { view.data with schema := view.data.schema ++ [text] } }

def parse (text : String) : Except Thrown (List (Command String)) :=
  if text = "BEGIN" then .ok [.begin]
  else if text = "COMMIT" then .ok [.commit]
  else .ok [.statement text]

def server : Postgres (List String) := ⟨parse, perform, fun _ _ => none, fun _ => rfl, fun _ => none⟩

def passwords : MigrationRolePasswords := ⟨"a", "p", "o", "q", "m"⟩

def foundation : MigrationFile :=
  ⟨"0001_platform_foundation.sql", "c1", "CREATE TABLE operations.schema_migrations;"⟩

def planning : MigrationFile :=
  ⟨"0008_planning.sql", "c8", "BEGIN;\nCREATE TABLE planning.budgets;\nCOMMIT;\n"⟩

def files : List MigrationFile := [foundation, planning]

def empty : MigrationDb (List String) := ⟨none, []⟩

def timeout : Thrown := .sqlState "57014" "canceling statement due to statement timeout"

/-- The statement that fails for once. -/
def failingAt (query : MigrationQuery) (call : MigrationCall) : Exchange Thrown :=
  if call = .change query then .refused 0 timeout else .answered

/-- The record of the second migration cannot be written, after its own COMMIT. -/
def left : MigrationDb (List String) := ⟨some [foundation.row], ["CREATE TABLE planning.budgets"]⟩

def leaves (C : Cell MigrationCall MigrationReply Thrown (MigrationConnection (List String)))
    (choose : MigrationCall → C.Choice) (before after : MigrationDb (List String)) : Bool :=
  (C.playBy choose (runMigrations passwords files) (.login .login before)).any fun step =>
    !step.1.isOk && step.2.session.committed == after

theorem exists_of_leaves {C : Cell MigrationCall MigrationReply Thrown (MigrationConnection (List String))}
    {choose : MigrationCall → C.Choice} {before after : MigrationDb (List String)}
    (h : leaves C choose before after = true) :
    ∃ e, RunLeaves C passwords files before (.error e) after := by
  obtain ⟨⟨out, c⟩, hplay, hleft⟩ := (Option.any_eq_true _ _).1 h
  simp only [Bool.and_eq_true, Bool.not_eq_true', beq_iff_eq] at hleft
  cases out with
  | ok names => cases hleft.1
  | error e => exact ⟨e, c, Exec.of_playBy hplay, hleft.2⟩

/-- Failing between a migration's own COMMIT and its record leaves effects without a record, and
the run after it fails on them. -/
theorem effects_without_record : MigrationHistory server.client passwords files empty left ∧
    ¬ server.AllOrNothing passwords files empty left ∧
    ∃ e, RunLeaves server.client passwords files left (.error e) left := by
  have hfirst : leaves server.client (failingAt (.insertMigration planning)) empty left = true := by
    decide +kernel
  have hagain : leaves server.client (fun _ => .answered) left left = true := by decide +kernel
  obtain ⟨e, hrun⟩ := exists_of_leaves hfirst
  refine ⟨.single ⟨.error e, hrun⟩, ?_, exists_of_leaves hagain⟩
  rintro ⟨n, hn, ⟨happlied, hrows⟩, _⟩
  have hlast : n ≤ 2 := hn
  match n with
  | 0 =>
    revert hrows
    decide +kernel
  | 1 =>
    revert happlied
    decide +kernel
  | 2 =>
    revert hrows
    decide +kernel
  | n + 3 => omega

theorem perform_keeps {text : String} {view view' : MigrationView (List String)}
    (h : perform text view = .ok view') :
    view'.settings.config = view.settings.config ∧ view'.data.rows = view.data.rows := by
  unfold perform at h
  split_ifs at h with hmigrations hsome hmem
  · cases h
    refine ⟨rfl, ?_⟩
    have hnone : view.data.migrations = none := by simpa using hsome
    simp [MigrationDb.rows, hnone]
  · cases h
    exact ⟨rfl, rfl⟩

theorem server_orderly (file : MigrationFile) : server.Orderly file := by
  have hparse : ∀ text commands, parse text = .ok commands →
      .rollback ∉ commands ∧ ∀ sql, .statement sql ∈ commands → sql = text := by
    intro text commands h
    unfold parse at h
    split_ifs at h <;> cases h <;> simp
  refine ⟨?_, ?_⟩
  · intro text _ commands hcommands
    exact (hparse text commands hcommands).1
  · intro text _ commands hcommands sql hsql view view' hperform
    exact perform_keeps hperform

/-- The same files, with the failure before the migration's COMMIT. -/
theorem migrations_all_or_nothing_inside :
    ∃ db, MigrationHistory server.sheltered passwords files empty db ∧
      server.AllOrNothing passwords files empty db := by
  have hfirst : leaves server.sheltered
      (failingAt (.statement planning 1 "CREATE TABLE planning.budgets")) empty
      ⟨some [foundation.row], []⟩ = true := by
    decide +kernel
  obtain ⟨e, hrun⟩ := exists_of_leaves hfirst
  have hhistory : MigrationHistory server.sheltered passwords files empty ⟨some [foundation.row], []⟩ :=
    .single ⟨.error e, hrun⟩
  exact ⟨_, hhistory, migrations_all_or_nothing server passwords files empty _
    (fun file _ => server_orderly file) (by decide +kernel)
    (fun file _ row hrow => by cases hrow) hhistory⟩

end TestMigrations

end PlusOne
