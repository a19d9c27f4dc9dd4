import PlusOne.Verification.Coverage

/-! # Verified means checked

Every call of the ledger keeps the tables checked, as long as a transition it asks for rests on what
it needs. The operations of the runtime ask for no other transition, since nothing comes between what
an operation reads or records and its move. -/

namespace PlusOne

open Interleaving

/-! ## Calls -/

namespace Ledger

variable {l l' : Ledger}

theorem createTask_checked {input : CreateTaskRecord} {result : Option TaskRow} (h : l.db.Checked)
    (hcreate : l.createTask input = .ok (result, l')) : l'.db.Checked := by
  obtain rfl | ⟨task, row, hid, _, hfree, hstatus, _, hmaker, _, rfl⟩ := createTask_ok hcreate
  · exact h
  · apply h.addTask _ hstatus hmaker
    intro old hold
    rw [hid]
    exact hfree old hold

theorem transition_checked {input : Db.TransitionRecord} {outcome : Db.TransitionOutcome}
    (h : l.db.Checked) (hedge : AllowedTransition input.expectedFrom input.toStatus)
    (hmove : l.db.MayMove input.key input.toStatus) (hmoved : l.transition input = .ok (outcome, l')) :
    l'.db.Checked := by
  obtain rfl | ⟨current, hcurrent, hkey, hfrom, _, rfl⟩ := transition_ok hmoved
  · exact h
  · exact h.replace ((h.covered current hcurrent).move hcurrent hkey hfrom hedge hmove)

theorem selectExecutionContract_checked {input : ContractSelection} {n : Nat} (h : l.db.Checked)
    (hselect : l.selectExecutionContract input = .ok (n, l')) : l'.db.Checked := by
  unfold selectExecutionContract at hselect
  split at hselect
  · cases hselect
    exact h
  rename_i task hfind
  have htask := (Db.findTask_some (input.householdId, input.taskId) hfind).1
  split_ifs at hselect
  · cases hselect
    exact h
  · cases hselect
    exact h.replace ((h.covered task htask).touch rfl rfl rfl)

theorem linkMakerArtifact_checked {key : TaskKey} {artifactId : ArtifactId}
    {artifactHash : ArtifactHash} {n : Nat} (h : l.db.Checked)
    (hlink : l.linkMakerArtifact key artifactId artifactHash = .ok (n, l')) : l'.db.Checked := by
  unfold linkMakerArtifact at hlink
  split at hlink
  · cases hlink
    exact h
  rename_i db hdb
  split_ifs at hlink with hartifact
  cases hlink
  unfold Db.linkMakerArtifact at hdb
  split at hdb
  · rename_i task hfind
    obtain ⟨htask, hkey⟩ := Db.findTask_some key hfind
    split_ifs at hdb with hstatus
    cases hdb
    apply h.replace
    apply (h.covered task htask).link hstatus
    rw [show task.householdId = key.1 from congrArg Prod.fst hkey,
      show task.taskId = key.2 from congrArg Prod.snd hkey]
    exact Option.isSome_iff_ne_none.2 (by simpa using hartifact)
  · cases hdb

theorem recordCheckerVerdict_checked {key : TaskKey} {checkerArtifactId : ArtifactId}
    {verdict : CheckerVerdict} {outcome : VerdictOutcome} (h : l.db.Checked)
    (hrecord : l.recordCheckerVerdict key checkerArtifactId verdict = .ok (outcome, l')) :
    l'.db.Checked ∧ (outcome = .recorded → ∀ task ∈ l'.db.tasks, task.key = key →
      ∃ row ∈ l'.db.verdicts, row.Covers task) := by
  unfold recordCheckerVerdict at hrecord
  split at hrecord
  · cases hrecord
    exact ⟨h, (fun hclash => by cases hclash)⟩
  split at hrecord
  · cases hrecord
    exact ⟨h, (fun hclash => by cases hclash)⟩
  split at hrecord
  · rename_i db hdb
    cases hrecord
    exact ⟨h.recordCheckerVerdict hdb, fun _ task htask hkey => Db.recordCheckerVerdict_covers hdb htask hkey⟩
  · split_ifs at hrecord
    cases hrecord
    exact ⟨h, (fun hclash => by cases hclash)⟩

theorem insertArtifact_checked {artifact : ArtifactEnvelope} {n : Nat} (h : l.db.Checked)
    (hinsert : l.insertArtifact artifact = .ok (n, l')) : l'.db.Checked := by
  unfold insertArtifact at hinsert
  split_ifs at hinsert
  · cases hinsert
    exact h
  · cases hinsert
    exact h.addArtifact _

end Ledger

/-- What a call of the runtime needs: a transition is an edge and rests on what it has to. -/
def AnyCall.Rests (call : AnyCall) (db : Db) : Prop :=
  match call with
  | .inl (.transition input) =>
    AllowedTransition input.expectedFrom input.toStatus ∧ db.MayMove input.key input.toStatus
  | .inl _ => True
  | .inr (.findLatestVerdict _ _) => True
  | .inr _ => False

/-- Calls that are no transition. -/
def AnyCall.steady : AnyCall → Bool
  | .inl (.transition _) => false
  | .inl _ => true
  | .inr (.findLatestVerdict _ _) => true
  | .inr _ => false

theorem AnyCall.rests_of_steady {call : AnyCall} {db : Db} (h : call.steady = true) : call.Rests db := by
  cases call with
  | inl call =>
    cases call with
    | transition input => cases h
    | _ => trivial
  | inr call =>
    cases call with
    | findLatestVerdict householdId taskId => trivial
    | _ => cases h

theorem Ledger.perform_checked {l l' : Ledger} {call : LedgerCall} {reply : LedgerReply call}
    (h : l.db.Checked) (hrests : AnyCall.Rests (.inl call) l.db)
    (hperform : call.perform l = .ok (reply, l')) : l'.db.Checked := by
  cases call with
  | createTask input => exact createTask_checked h hperform
  | selectExecutionContract input => exact selectExecutionContract_checked h hperform
  | linkMakerArtifact key artifactId artifactHash => exact linkMakerArtifact_checked h hperform
  | recordCheckerVerdict key checkerArtifactId verdict =>
    exact (recordCheckerVerdict_checked h hperform).1
  | transition input => exact transition_checked h hrests.1 hrests.2 hperform
  | findTask key =>
    cases hperform
    exact h
  | insertArtifact artifact => exact insertArtifact_checked h hperform
  | findByTaskAndHash key artifactHash =>
    cases hperform
    exact h

variable {ι : Type} [DecidableEq ι] {i : ι} {s s' : LedgerSys ι} {jsonIn : String → Option Json}

omit [DecidableEq ι] in
/-- A reply of a call is what the call came to. -/
theorem LedgerSys.perform_ok {call : LedgerCall} {choice : Choice} {a : LedgerReply call}
    (h : s.perform call choice = some (.ok a, s')) :
    ∃ l, call.perform s.ledger = .ok (a, l) ∧ s' = s.withLedger l := by
  unfold perform at h
  split at h
  · cases h
  split_ifs at h
  split at h
  · rename_i hok _
    cases h
    exact ⟨_, hok, rfl⟩
  · cases h
  · cases h
  · cases h
  · cases h

/-- The step lemma: a call that rests on what it needs keeps the tables checked. -/
theorem LedgerSys.run_checked {call : AnyCall} {choice : Choice} {r : Except Thrown (AnyReply call)}
    (h : s.sys.db.Checked) (hrests : call.Rests s.sys.db)
    (hrun : s.run jsonIn i call choice = some (r, s')) : s'.sys.db.Checked := by
  cases call with
  | inl call =>
    rcases perform_some hrun with rfl | rfl | ⟨a, l, hok, rfl⟩
    · exact h
    · exact h
    · exact Ledger.perform_checked (l := s.ledger) h hrests hok
  | inr call =>
    cases call with
    | findLatestVerdict householdId taskId =>
      obtain ⟨⟨r', sys⟩, hsys, hs⟩ := Option.map_eq_some_iff.1 hrun
      cases hs
      rcases Sys.findLatestVerdict_read hsys with ⟨rfl, _⟩ | ⟨_, rfl⟩
      · exact h
      · exact h
    | _ => exact hrests.elim

/-! ## Programs -/

/-- The operations of one process against the ledger. -/
abbrev ledgerCell (i : ι) (jsonIn : String → Option Json) : Cell AnyCall AnyReply Thrown (LedgerSys ι) :=
  (ledgerSystem ι jsonIn).cell i

section Programs

variable {α : Type} {key : TaskKey}

/-- The calls of the program need nothing. -/
abbrev Moveless (p : LedgerProgram α) : Prop := p.Calls fun call => call.steady = true

/-- Every call of the program, run alone, has what it needs. -/
abbrev Restful (i : ι) (jsonIn : String → Option Json) (p : LedgerProgram α) (s : LedgerSys ι) : Prop :=
  p.Safe (ledgerCell i jsonIn) (fun call s => call.Rests s.sys.db) s

theorem Moveless.restful {p : LedgerProgram α} (h : Moveless p) (s : LedgerSys ι) : Restful i jsonIn p s := by
  apply Prog.Safe.of_calls
  apply h.mono
  intro call hsteady s
  exact AnyCall.rests_of_steady hsteady

theorem ask_steady {call : LedgerCall} (h : AnyCall.steady (.inl call) = true) : Moveless (ask call) :=
  Prog.Calls.perform (P := fun call : AnyCall => call.steady = true) h

theorem findLatestVerdict_steady :
    Moveless ((findLatestVerdict key.1 key.2).inr : LedgerProgram (Option CheckerVerdict)) := by
  apply Prog.Calls.inr
  apply Prog.Calls.bind
  · exact Prog.Calls.perform (P := fun call : Call => AnyCall.steady (.inr call) = true) rfl
  intro row
  cases row with
  | none => exact .ret _
  | some row =>
    simp only
    split
    · exact .throw _
    · split
      · exact .throw _
      · exact .ret _

open VerificationRuntime

theorem requireTask_steady : Moveless (requireTask key) := by
  apply (ask_steady rfl).bind
  intro task
  cases task with
  | none => exact .throw _
  | some task => exact .ret _

theorem requireStatus_steady {expected : TaskStatus} : Moveless (requireStatus key expected) := by
  apply requireTask_steady.bind
  intro task
  split
  · exact .throw _
  · exact .ret _

theorem save_steady {P : Platform} {artifact : ArtifactEnvelope} : Moveless (ArtifactStore.save P artifact) := by
  unfold ArtifactStore.save
  split
  · exact .throw _
  have hinsert : Moveless (ArtifactStore.insert artifact) := by
    apply (ask_steady rfl).bind
    intro rowCount
    split
    · exact .throw _
    · exact .ret _
  apply (hinsert.bind fun _ => .ret _).tryCatch
  intro error
  unfold ArtifactStore.existing
  split
  · exact .throw _
  apply (ask_steady rfl).bind
  intro existing
  cases existing with
  | none => exact .throw _
  | some existing => exact .ret _

/-- A move that rests on what it has to. -/
theorem move_restful {source target : TaskStatus} {reasonCode : String} {options : MoveOptions}
    (h : s.sys.db.MayMove key target) : Restful i jsonIn (move key source target reasonCode options) s := by
  unfold move
  cases hassert : assertAllowedTransition source target with
  | error e => trivial
  | ok u =>
    have hedge : AllowedTransition source target := assertAllowedTransition_ok hassert
    constructor
    · exact ⟨hedge, h⟩
    · intro choice r s' _
      cases r with
      | error e => trivial
      | ok outcome => cases outcome <;> trivial

theorem move_plain {source target : TaskStatus} {reasonCode : String} {options : MoveOptions}
    (hvalidated : target ≠ .checker_validated) (hrevised : target ≠ .revision_requested)
    (hverified : target ≠ .verified) (s : LedgerSys ι) :
    Restful i jsonIn (move key source target reasonCode options) s :=
  move_restful (.of_other hvalidated hrevised hverified)

/-- The verdict that is read is the latest one. -/
theorem findLatestVerdict_inv {verdict : Option CheckerVerdict} (h : s.sys.db.Checked)
    (hexec : Exec (ledgerCell i jsonIn)
      ((findLatestVerdict key.1 key.2).inr : LedgerProgram (Option CheckerVerdict)) s (.ok verdict) s') :
    s'.sys.db = s.sys.db ∧ ∀ found, verdict = some found →
      ∃ row, s.sys.db.latestVerdict key.1 key.2 = some row ∧ row.verdict = found.verdict := by
  cases hexec with
  | @call _ _ choice r _ s₁ _ _ hstep hrest =>
    obtain ⟨⟨r', sys⟩, hsys, hs⟩ := Option.map_eq_some_iff.1 hstep
    cases hs
    rcases Sys.findLatestVerdict_read hsys with ⟨_, e, rfl⟩ | ⟨rfl, rfl⟩
    · cases hrest
    · cases hfound : s.sys.db.findLatestVerdict key.1 key.2 with
      | none =>
        rw [hfound] at hrest
        cases hrest
        exact ⟨rfl, fun found hclash => by cases hclash⟩
      | some found =>
        obtain ⟨row, payload⟩ := found
        rw [hfound] at hrest
        have hlatest := Db.findLatestVerdict_some h.vetted hfound
        cases hparsed : CheckerVerdict.parse payload with
        | none =>
          simp only [Prog.ret_bind, hparsed] at hrest
          cases hrest
        | some parsed =>
          simp only [Prog.ret_bind, hparsed] at hrest
          split_ifs at hrest with hmismatch
          · cases hrest
          · cases hrest
            refine ⟨rfl, ?_⟩
            intro found hsame
            cases hsame
            have hverdict : parsed.verdict = row.verdict := by
              by_contra hne
              exact hmismatch (.inl hne)
            exact ⟨row, hlatest, hverdict.symm⟩

theorem step_checked : ∀ (call : AnyCall) (choice : Choice) (s : LedgerSys ι)
    (r : Except Thrown (AnyReply call)) (s' : LedgerSys ι), s.sys.db.Checked → call.Rests s.sys.db →
    (ledgerCell i jsonIn).run call choice s = some (r, s') → s'.sys.db.Checked :=
  fun _ _ _ _ _ hs hrests hrun => LedgerSys.run_checked hs hrests hrun

theorem checked_of_exec {p : LedgerProgram α} {out : Except Thrown α} (h : s.sys.db.Checked)
    (hrestful : Restful i jsonIn p s) (hexec : Exec (ledgerCell i jsonIn) p s out s') :
    s'.sys.db.Checked :=
  hexec.toPrefix.invariant step_checked h hrestful

/-- A recorded verdict covers the artifact of its task. -/
theorem recordCheckerVerdict_inv {checkerArtifactId : ArtifactId} {verdict : CheckerVerdict} {u : Unit}
    (h : s.sys.db.Checked) (hexec : Exec (ledgerCell i jsonIn)
      (VerificationLedger.recordCheckerVerdict key checkerArtifactId verdict) s (.ok u) s') :
    ∀ task ∈ s'.sys.db.tasks, task.key = key → ∃ row ∈ s'.sys.db.verdicts, row.Covers task := by
  cases hexec with
  | @call _ _ choice r _ s₁ _ _ hstep hrest =>
    cases r with
    | error e => cases hrest
    | ok outcome =>
      obtain ⟨l, hperform, rfl⟩ := LedgerSys.perform_ok hstep
      have hrecorded := (Ledger.recordCheckerVerdict_checked (l := s.ledger) h hperform).2
      cases outcome with
      | notFound => cases hrest
      | coverageMismatch => cases hrest
      | conflict => cases hrest
      | recorded =>
        cases hrest
        exact hrecorded rfl

theorem validateChecker_restful {P : Platform} {checkerArtifactId : ArtifactId} {payload : Json}
    (h : s.sys.db.Checked) : Restful i jsonIn (validateChecker P key checkerArtifactId payload) s := by
  apply (requireStatus_steady.restful s).bind
  intro task s₁ hrequired
  have hs₁ := checked_of_exec h (requireStatus_steady.restful s) hrequired
  cases hverdict : parseVerdict payload with
  | error e => trivial
  | ok verdict =>
    cases hartifact : ArtifactStore.createArtifactEnvelope P key checkerArtifactId .checker_output
        ⟨"checker-verdict", 1⟩ payload with
    | error e => trivial
    | ok artifact =>
      apply (save_steady.restful s₁).bind
      intro stored s₂ hsaved
      have hs₂ := checked_of_exec hs₁ (save_steady.restful s₁) hsaved
      have hrecord : Moveless (VerificationLedger.recordCheckerVerdict key stored.artifactId verdict) := by
        apply (ask_steady rfl).bind
        intro outcome
        cases outcome with
        | notFound => exact .throw _
        | coverageMismatch => exact .throw _
        | conflict => exact .throw _
        | recorded => exact .ret _
      apply (hrecord.restful s₂).bind
      intro u s₃ hrecorded
      have hcovers := recordCheckerVerdict_inv hs₂ hrecorded
      have hmove : s₃.sys.db.MayMove key .checker_validated :=
        ⟨(fun _ => hcovers), (fun hclash => by cases hclash), (fun hclash => by cases hclash)⟩
      apply (move_restful hmove).bind
      exact fun _ _ _ => trivial

theorem requestRevision_restful (h : s.sys.db.Checked) :
    Restful i jsonIn (requestRevision key) s := by
  apply (findLatestVerdict_steady.restful s).bind
  intro verdict s₁ hread
  obtain ⟨hdb, hlatest⟩ := findLatestVerdict_inv h hread
  split
  · trivial
  · rename_i hrevision
    obtain ⟨found, hfound, hrequested⟩ := Option.map_eq_some_iff.1 (not_not.1 hrevision)
    obtain ⟨row, hrow, hverdict⟩ := hlatest found hfound
    have hmove : s₁.sys.db.MayMove key .revision_requested := by
      refine ⟨(fun hclash => by cases hclash), ?_, (fun hclash => by cases hclash)⟩
      intro _ other hother
      rw [hdb, hrow] at hother
      cases hother
      rw [hverdict, hrequested]
      decide
    exact move_restful hmove

theorem complete_restful {completion : Completion} (h : s.sys.db.Checked) :
    Restful i jsonIn (complete key completion) s := by
  apply (requireTask_steady.restful s).bind
  intro task s₁ hrequired
  have hs₁ := checked_of_exec h (requireTask_steady.restful s) hrequired
  apply (findLatestVerdict_steady.restful s₁).bind
  intro verdict s₂ hread
  obtain ⟨hdb, hlatest⟩ := findLatestVerdict_inv hs₁ hread
  split
  · trivial
  · rename_i hrefused
    have hmove : s₂.sys.db.MayMove key completion.status := by
      refine ⟨?_, ?_, ?_⟩
      · intro hclash
        cases completion <;> cases hclash
      · intro hclash
        cases completion <;> cases hclash
      · intro hverified
        have hcompletion : completion = .verified := by
          cases completion with
          | verified => rfl
          | _ => cases hverified
        have haccepted : verdict.map CheckerVerdict.verdict = some .accepted := by
          by_contra hne
          exact hrefused ⟨hcompletion, hne⟩
        obtain ⟨found, hfound, hfoundAccepted⟩ := Option.map_eq_some_iff.1 haccepted
        obtain ⟨row, hrow, hverdict⟩ := hlatest found hfound
        rw [hdb]
        exact ⟨row, hrow, hverdict.trans hfoundAccepted⟩
    exact move_restful hmove

theorem validateMaker_restful {P : Platform} {artifactId : ArtifactId} {schema : SchemaIdentity}
    {payload : Json} : Restful i jsonIn (validateMaker P key artifactId schema payload) s := by
  apply (requireStatus_steady.restful s).bind
  intro task s₁ _
  cases hartifact : ArtifactStore.createArtifactEnvelope P key artifactId .maker_output schema payload with
  | error e => trivial
  | ok artifact =>
    apply (save_steady.restful s₁).bind
    intro stored s₂ _
    have hlink : Moveless (VerificationLedger.linkMakerArtifact key stored.artifactId
        stored.artifactHash) := by
      apply (ask_steady rfl).bind
      intro rowCount
      split
      · exact .throw _
      · exact .ret _
    apply (hlink.restful s₂).bind
    intro u s₃ _
    apply (move_plain (by decide) (by decide) (by decide) s₃).bind
    exact fun _ _ _ => trivial

theorem selectContract_restful {policies : List PolicyIdentity} {input : ContractSelection} :
    Restful i jsonIn (selectContract policies input) s := by
  unfold selectContract
  cases hpolicy : resolvePolicy policies input.policy with
  | error e => trivial
  | ok policy =>
    have hselect : Moveless (VerificationLedger.selectExecutionContract { input with policy }) := by
      apply (ask_steady rfl).bind
      intro rowCount
      split
      · exact .throw _
      · exact .ret _
    apply (hselect.restful s).bind
    exact fun _ s₁ _ => move_plain (by decide) (by decide) (by decide) s₁

theorem beginMaker_restful : Restful i jsonIn (beginMaker key) s := by
  apply (requireTask_steady.restful s).bind
  intro task s₁ _
  split
  · trivial
  · exact move_plain (by decide) (by decide) (by decide) s₁

end Programs

/-! ## Runs -/

/-- The operations of `VerificationRuntime`; a reconciliation is none. -/
def TaskOperation.ofRuntime : TaskOperation → Bool
  | .reconcile _ => false
  | .createTask _ | .selectContract _ | .beginMaker _ | .validateMaker .. | .beginChecker _
  | .validateChecker .. | .requestRevision _ | .complete .. | .fail .. => true

abbrev RuntimeOperation := { operation : TaskOperation // operation.ofRuntime = true }

def RuntimeOperation.program (P : Platform) (policies : List PolicyIdentity)
    (operation : RuntimeOperation) : LedgerProgram Unit :=
  operation.1.program P policies

theorem RuntimeOperation.restful (P : Platform) (policies : List PolicyIdentity)
    (operation : RuntimeOperation) (h : s.sys.db.Checked) :
    Restful i jsonIn (operation.program P policies) s := by
  obtain ⟨operation, hruntime⟩ := operation
  cases operation with
  | createTask input =>
    have hcreate : Moveless (VerificationRuntime.createTask input) := by
      apply (ask_steady rfl).bind
      intro inserted
      cases inserted with
      | none => exact .throw _
      | some task => exact .ret _
    exact (hcreate.restful s).bind fun _ _ _ => trivial
  | selectContract input => exact selectContract_restful.bind fun _ _ _ => trivial
  | beginMaker key => exact beginMaker_restful.bind fun _ _ _ => trivial
  | validateMaker key artifactId schema payload =>
    exact validateMaker_restful.bind fun _ _ _ => trivial
  | beginChecker key =>
    exact (move_plain (by decide) (by decide) (by decide) s).bind fun _ _ _ => trivial
  | validateChecker key checkerArtifactId verdict =>
    exact (validateChecker_restful h).bind fun _ _ _ => trivial
  | requestRevision key => exact (requestRevision_restful h).bind fun _ _ _ => trivial
  | complete key completion => exact (complete_restful h).bind fun _ _ _ => trivial
  | fail key expectedFrom failureCategory resumable =>
    exact (move_plain (by decide) (by decide) (by decide) s).bind fun _ _ _ => trivial
  | reconcile key => cases hruntime

/-- In every run of runtime operations, each of which may be cut off between two of its calls: a task
whose checker was validated has an artifact that a recorded verdict covers, and a verified task one
that an accepting verdict covers. -/
theorem verified_means_checked (P : Platform) (policies : List PolicyIdentity) (i : ι)
    (s₀ s : LedgerSys ι) (h₀ : s₀.sys.db.Checked)
    (hrun : CrashRun (ledgerCell i P.jsonIn) (RuntimeOperation.program P policies) s₀ s) :
    ∀ task ∈ s.sys.db.tasks,
      (task.status = .checker_validated ∨ task.status = .verified →
        ∃ artifact ∈ s.sys.db.artifacts, artifact.householdId = task.householdId ∧
          artifact.taskId = task.taskId ∧
          task.currentMakerArtifact = some (artifact.artifactId, artifact.artifactHash)) ∧
      (task.status = .checker_validated → ∃ row ∈ s.sys.db.verdicts, row.Covers task) ∧
      (task.status = .verified → ∃ row ∈ s.sys.db.verdicts, row.verdict = .accepted ∧ row.Covers task) := by
  have hsafe : ∀ (operation : RuntimeOperation) (s : LedgerSys ι), s.sys.db.Checked →
      Restful i P.jsonIn (operation.program P policies) s :=
    fun operation _ hs => operation.restful P policies hs
  have hchecked : s.sys.db.Checked := hrun.invariant step_checked hsafe h₀
  intro task htask
  have hcovered := hchecked.covered task htask
  refine ⟨?_, hcovered.validated, hcovered.verified⟩
  intro hstatus
  have hcovers : ∃ row : VerdictRow, row.Covers task := by
    rcases hstatus with hvalidated | hverified
    · obtain ⟨row, _, hrow⟩ := hcovered.validated hvalidated
      exact ⟨row, hrow⟩
    · obtain ⟨row, _, _, hrow⟩ := hcovered.verified hverified
      exact ⟨row, hrow⟩
  obtain ⟨row, hrow⟩ := hcovers
  obtain ⟨artifact, hartifact, hhousehold, hid, hartifactId, hhash⟩ :=
    hcovered.exists_artifact _ _ hrow.artifact
  refine ⟨artifact, hartifact, hhousehold, hid, ?_⟩
  rw [hartifactId, hhash]
  exact hrow.artifact

/-! ## A task that is revised, and one that is verified -/

namespace TestCommand

theorem unused_checked : unused.sys.db.Checked := by
  refine ⟨⟨?_, ?_⟩, ?_, ?_, ?_⟩ <;> simp [unused, Sys.atRest]

def taskKey : TaskKey := (householdId, taskId)

def reviewPayload (verdict : Verdict) : Json :=
  .obj [("verdict", .str verdict.text), ("coveredArtifactId", .str proposalId.text),
    ("coveredArtifactHash", .str proposalHash.hex), ("findings", .arr [])]

/-- The operations on the task up to its verdict. -/
def reviewing (verdict : Verdict) : List RuntimeOperation :=
  [⟨.createTask ⟨householdId, taskId, none, 3⟩, rfl⟩,
    ⟨.selectContract ⟨householdId, taskId, ⟨"skill", 1, proposalHash.hex⟩, schema, schema, policy⟩, rfl⟩,
    ⟨.beginMaker taskKey, rfl⟩,
    ⟨.validateMaker taskKey proposalId ⟨"maker-artifact", 1⟩ makerArtifactPayload, rfl⟩,
    ⟨.beginChecker taskKey, rfl⟩,
    ⟨.validateChecker taskKey checkerArtifactId (reviewPayload verdict), rfl⟩]

attribute [local instance] Interleaving.threeThreads in
def played (operations : List RuntimeOperation) : Option (LedgerSys (Fin 3)) :=
  (ledgerSystem (Fin 3) platform.jsonIn).soloAll 0 (fun _ => .normal)
    (operations.map (RuntimeOperation.program platform [policy])) unused

theorem crashRun_of_played {operations : List RuntimeOperation} {s : LedgerSys (Fin 3)}
    (h : played operations = some s) :
    CrashRun (ledgerCell 0 platform.jsonIn) (RuntimeOperation.program platform [policy]) unused s :=
  System.crashRun_of_soloAll h

/-- The checker of a task is validated with a verdict that asks for a revision. -/
theorem checker_validated_unaccepted :
    ∃ s, CrashRun (ledgerCell 0 platform.jsonIn) (RuntimeOperation.program platform [policy]) unused s ∧
      ∃ task ∈ s.sys.db.tasks, task.status = .checker_validated ∧
        ¬∃ row ∈ s.sys.db.verdicts, row.verdict = .accepted ∧ row.Covers task := by
  have hplayed : (played (reviewing .revision_requested)).map (fun s =>
      (s.sys.db.tasks.map TaskRow.status, s.sys.db.verdicts.map VerdictRow.verdict)) =
      some ([.checker_validated], [.revision_requested]) := by
    decide +kernel
  obtain ⟨s, hs, hend⟩ := Option.map_eq_some_iff.1 hplayed
  simp only [Prod.mk.injEq] at hend
  refine ⟨s, crashRun_of_played hs, ?_⟩
  have hstatus : TaskStatus.checker_validated ∈ s.sys.db.tasks.map TaskRow.status := by
    rw [hend.1]
    exact List.mem_singleton.2 rfl
  obtain ⟨task, htask, hvalidated⟩ := List.mem_map.1 hstatus
  refine ⟨task, htask, hvalidated, ?_⟩
  intro haccepted
  obtain ⟨row, hrow, hverdict, _⟩ := haccepted
  have hmem : row.verdict ∈ s.sys.db.verdicts.map VerdictRow.verdict := List.mem_map_of_mem hrow
  rw [hend.2, hverdict] at hmem
  cases List.mem_singleton.1 hmem

theorem verified_means_checked_accepted :
    ∃ s, played (reviewing .accepted ++ [⟨.complete taskKey .verified, rfl⟩]) = some s ∧
      ∃ task ∈ s.sys.db.tasks, task.status = .verified ∧
        ∃ row ∈ s.sys.db.verdicts, row.verdict = .accepted ∧ row.Covers task := by
  have hplayed : (played (reviewing .accepted ++ [⟨.complete taskKey .verified, rfl⟩])).map (fun s =>
      s.sys.db.tasks.map TaskRow.status) = some [.verified] := by
    decide +kernel
  obtain ⟨s, hs, hend⟩ := Option.map_eq_some_iff.1 hplayed
  have hstatus : TaskStatus.verified ∈ s.sys.db.tasks.map TaskRow.status := by
    rw [hend]
    exact List.mem_singleton.2 rfl
  obtain ⟨task, htask, hverified⟩ := List.mem_map.1 hstatus
  have hchecked := verified_means_checked platform [policy] 0 unused s unused_checked
    (crashRun_of_played hs) task htask
  exact ⟨s, hs, task, htask, hverified, hchecked.2.2 hverified⟩

end TestCommand

end PlusOne
