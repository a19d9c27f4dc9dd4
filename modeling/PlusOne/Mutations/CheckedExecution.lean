import PlusOne.Mutations.ExactlyOnce
import PlusOne.Mutations.Review

/-! # Nothing unchecked executes

What `execute` has read by the time it calls a handler still holds there: the artifact
is stored and is what the command proposes, its task's latest verdict accepts it, and
the confirmation that the handler requires or the envelope names is recorded. The
verdict is read once, at the start, and the insert drops a confirmation that is not
recorded, so two conditions on the run are needed. -/

namespace PlusOne

open Interleaving Sys

variable {ι : Type} [DecidableEq ι] {jsonIn : String → Option Json} {exec : ι → Executor}
variable {s s' : Sys ι} {i : ι} {α : Type}

/-- What has to hold where a handler is called. -/
structure Eligible (exec : Executor) (handler : HandlerIdentity) (command : CheckedCommand)
    (db : Db) : Prop where
  artifact : ∃ artifact ∈ db.artifacts, ∃ output,
    artifact.artifactId = command.checkedProposalId ∧
    artifact.artifactHash = command.checkedProposalHash ∧
    artifact.householdId = command.householdId ∧ artifact.taskId = command.taskId ∧
    makerOutput artifact.payload = some output ∧
    exec.platform.canonicalize output = exec.platform.canonicalize command.payload
  verdict : db.Accepts command.householdId command.taskId command.checkedProposalId
    command.checkedProposalHash
  allowlisted : ∃ found ∈ exec.registry.handlers, found.toHandlerIdentity = handler ∧
    handler.commandType = command.commandType ∧
    handler.inputSchemaIdentity = command.payloadSchema
  confirmation : handler.confirmation = .required ∨ command.confirmationId ≠ none →
    db.Confirms command.householdId command.taskId command.checkedProposalId
      command.checkedProposalHash command.confirmationId

/-- A command is inserted only under a confirmation that is recorded, and while an execution rests
on an acceptance only acceptances of the same artifact are recorded for its task. -/
def reviewGuard (ι : Type) [DecidableEq ι] (jsonIn : String → Option Json) :
    Guard (mutationSystem ι jsonIn) where
  call _ call _ s := ∀ input confirmationRequired, call = .insertCommand input confirmationRequired →
    ∀ confirmationId, input.confirmationId = some confirmationId →
      ∃ row ∈ s.db.confirmations, row.householdId = input.householdId ∧
        row.confirmationId = confirmationId
  env move s := ∀ householdId taskId checkerArtifactId verdict,
    move = .recordCheckerVerdict householdId taskId checkerArtifactId verdict →
    ∀ i artifactId artifactHash,
      s.checked i = some (householdId, taskId, artifactId, artifactHash) →
      verdict.verdict = .accepted ∧ verdict.coveredArtifactId = artifactId ∧
        verdict.coveredArtifactHash = artifactHash

/-- The others keep what was reviewed, and the acceptance a thread rests on the latest verdict. -/
structure KeepsReview (i : ι) (s s' : Sys ι) : Prop where
  db : s.db.Keeps s'.db
  checked : s'.checked i = s.checked i
  accepts : ∀ householdId taskId artifactId artifactHash,
    s.checked i = some (householdId, taskId, artifactId, artifactHash) →
    s.db.Accepts householdId taskId artifactId artifactHash →
    s'.db.Accepts householdId taskId artifactId artifactHash

omit [DecidableEq ι] in
theorem KeepsReview.refl (i : ι) (s : Sys ι) : KeepsReview i s s :=
  ⟨.refl s.db, rfl, fun _ _ _ _ _ h => h⟩

omit [DecidableEq ι] in
theorem KeepsReview.trans {s'' : Sys ι} (h : KeepsReview i s s') (h' : KeepsReview i s' s'') :
    KeepsReview i s s'' := by
  refine ⟨h.db.trans h'.db, h'.checked.trans h.checked, fun household task id hash hchecked haccepts => ?_⟩
  exact h'.accepts household task id hash (h.checked.trans hchecked)
    (h.accepts household task id hash hchecked haccepts)

theorem Db.Accepts.congr {db db' : Db} {householdId : HouseholdId} {taskId : TaskId}
    {artifactId : ArtifactId} {artifactHash : ArtifactHash} (hverdicts : db'.verdicts = db.verdicts)
    (h : db.Accepts householdId taskId artifactId artifactHash) :
    db'.Accepts householdId taskId artifactId artifactHash := by
  obtain ⟨row, hrow, haccepts⟩ := h
  refine ⟨row, ?_, haccepts⟩
  rw [← hrow, latestVerdict, latestVerdict, hverdicts]

/-- Another verdict is either for another task or, for this one, an acceptance of the same artifact. -/
theorem Db.Accepts.append {db db' : Db} {householdId : HouseholdId} {taskId : TaskId}
    {artifactId : ArtifactId} {artifactHash : ArtifactHash} {row : VerdictRow}
    (hverdicts : db'.verdicts = db.verdicts ++ [row])
    (hsame : row.householdId = householdId → row.taskId = taskId → row.verdict = .accepted ∧
      row.coveredArtifactId = artifactId ∧ row.coveredArtifactHash = artifactHash)
    (h : db.Accepts householdId taskId artifactId artifactHash) :
    db'.Accepts householdId taskId artifactId artifactHash := by
  by_cases htask : row.householdId = householdId ∧ row.taskId = taskId
  · refine ⟨row, ?_, hsame htask.1 htask.2⟩
    rw [latestVerdict, hverdicts, List.reverse_append, List.reverse_singleton,
      List.singleton_append, List.find?_cons_of_pos (by simp [htask.1, htask.2])]
  · obtain ⟨old, hold, haccepts⟩ := h
    refine ⟨old, ?_, haccepts⟩
    rw [latestVerdict, hverdicts, List.reverse_append, List.reverse_singleton,
      List.singleton_append, List.find?_cons_of_neg (by simpa using htask)]
    exact hold

/-- The discipline of a review. -/
def reviewDiscipline (ι : Type) [DecidableEq ι] (jsonIn : String → Option Json)
    (exec : ι → Executor) : Discipline (mutationSystem ι jsonIn) (reviewGuard ι jsonIn) where
  Inv s := s.db.Vetted
  rely := KeepsReview
  allowed i call s := ∀ handler command, call = .handlerCall handler command →
    Eligible (exec i) handler command s.db
  rely_refl := KeepsReview.refl
  rely_trans := KeepsReview.trans

theorem keepsReview_of_call {j : ι} {call : Call} {choice : Choice} {r : Except Thrown (Reply call)}
    (hij : j ≠ i) (hrun : s.run jsonIn j call choice = some (r, s')) : KeepsReview i s s' := by
  obtain ⟨hreviewed, _⟩ := run_reviewed hrun
  exact ⟨hreviewed.keeps, run_checked_ne hij hrun, fun _ _ _ _ _ h => h.congr hreviewed.verdicts⟩

theorem keepsReview_of_env {move : Move ι} (hG : (reviewGuard ι jsonIn).env move s)
    (hmove : s.env move = some s') : KeepsReview i s s' := by
  have hstep := env_reviewed hmove
  refine ⟨hstep.keeps, by rw [hstep.checked], fun household task id hash hchecked haccepts => ?_⟩
  rcases hstep.verdicts with hsame | ⟨_, _, checker, verdict, row, rfl, rfl, rfl, hverdict, hid,
    hhash, hnew⟩
  · exact haccepts.congr hsame
  · refine haccepts.append hnew fun hhousehold htask => ?_
    rw [hverdict, hid, hhash]
    exact hG row.householdId row.taskId checker verdict rfl i id hash
      (by rw [hhousehold, htask]; exact hchecked)

theorem reviewDiscipline_sound : (reviewDiscipline ι jsonIn exec).Sound where
  inv_call hInv _ _ hrun := (run_reviewed hrun).1.vetted hInv
  rely_call _ _ _ hrun hij := keepsReview_of_call hij hrun
  inv_env hInv _ hmove := (env_reviewed hmove).vetted hInv
  rely_env _ hG hmove := keepsReview_of_env hG hmove
  inv_leave hInv := hInv
  rely_leave _ hij :=
    ⟨.refl _, Function.update_of_ne hij.symm _ _, fun _ _ _ _ _ h => h⟩

/-! ## What an execution knows -/

section Knows

variable {P : Platform} {command : CheckedCommand} {required : Bool}

/-- A triple of the review discipline. -/
abbrev ReviewSpec (jsonIn : String → Option Json) (exec : ι → Executor) (i : ι) (P : Sys ι → Prop)
    (p : Program α) (Q : α → Sys ι → Prop) (E : Thrown → Sys ι → Prop) : Prop :=
  (reviewDiscipline ι jsonIn exec).Triple i P p Q E

/-- The artifact that the command proposes is stored. -/
def Proposed (P : Platform) (command : CheckedCommand) (s : Sys ι) : Prop :=
  ∃ artifact ∈ s.db.artifacts, matchesArtifact P command artifact = true

/-- The thread rests on an acceptance of the command's artifact. -/
def RestsOn (i : ι) (command : CheckedCommand) (s : Sys ι) : Prop :=
  s.checked i = some (command.householdId, command.taskId, command.checkedProposalId,
      command.checkedProposalHash) ∧
    s.db.Accepts command.householdId command.taskId command.checkedProposalId
      command.checkedProposalHash

/-- The confirmation is recorded, when one is required or named. -/
def Backed (required : Bool) (command : CheckedCommand) (s : Sys ι) : Prop :=
  required = true ∨ command.confirmationId ≠ none →
    s.db.Confirms command.householdId command.taskId command.checkedProposalId
      command.checkedProposalHash command.confirmationId

theorem stable_proposed : (reviewDiscipline ι jsonIn exec).Stable i (Proposed P command) := by
  rintro s s' _ hkeeps ⟨artifact, hartifact, hmatches⟩
  exact ⟨artifact, hkeeps.db.artifacts artifact hartifact, hmatches⟩

theorem stable_restsOn : (reviewDiscipline ι jsonIn exec).Stable i (RestsOn i command) := by
  rintro s s' _ hkeeps ⟨hchecked, haccepts⟩
  exact ⟨hkeeps.checked.trans hchecked, hkeeps.accepts _ _ _ _ hchecked haccepts⟩

theorem stable_backed : (reviewDiscipline ι jsonIn exec).Stable i (Backed required command) := by
  intro s s' _ hkeeps h hneeds
  exact (h hneeds).keeps hkeeps.db

theorem keepsReview_of_own {call : Call} {choice : Choice} {r : Except Thrown (Reply call)}
    (hread : call.readsVerdict = false) (hrun : s.run jsonIn i call choice = some (r, s')) :
    KeepsReview i s s' := by
  obtain ⟨hreviewed, hchecked⟩ := run_reviewed hrun
  exact ⟨hreviewed.keeps, by rw [hchecked hread], fun _ _ _ _ _ h => h.congr hreviewed.verdicts⟩

theorem OnPool.reviewed {p : Program α} (hp : OnPool p) {R : Sys ι → Prop}
    (hR : (reviewDiscipline ι jsonIn exec).Stable i R) :
    ReviewSpec jsonIn exec i R p (fun _ => R) fun _ => R := by
  refine Discipline.Triple.of_calls hp hR ?_ ?_
  · rintro call hpool s _ _ handler command rfl
    cases hpool
  · intro call hpool s choice r s' _ hRs _ hrun hInv'
    simp only [Call.onPool, Bool.and_eq_true, Bool.not_eq_true'] at hpool
    exact hR s s' hInv' (keepsReview_of_own hpool.2 hrun) hRs

/-! ## Eligibility -/

theorem reviewed_getVerified {artifactId : ArtifactId} :
    ReviewSpec jsonIn exec i (fun _ => True) (getVerified P artifactId)
      (fun artifact s => artifact ∈ s.db.artifacts) fun _ _ => True := by
  refine .bind (R := fun (row : Option ArtifactEnvelope) s => ∀ artifact, row = some artifact →
    artifact ∈ s.db.artifacts) ?_ fun row => ?_
  · refine Discipline.Triple.perform (.pure True) (fun _ _ _ _ _ h => by cases h) ?_ ?_
    · intro s choice row s' _ _ _ hrun _ artifact hartifact
      obtain ⟨rfl, hrow | ⟨e, he⟩⟩ := select_some (f := (·.findArtifact artifactId)) hrun
      · cases hrow
        exact List.mem_of_find?_eq_some hartifact
      · cases he
    · exact fun _ _ _ _ _ _ _ _ _ => trivial
  · cases row with
    | none => exact .throw fun _ _ _ => trivial
    | some artifact =>
      simp only [Prog.pure_eq]
      split
      · exact .throw fun _ _ _ => trivial
      · exact .ret fun _ _ h => h artifact rfl

theorem reviewed_assertExactArtifact {artifact : ArtifactEnvelope} :
    ReviewSpec jsonIn exec i (fun s => artifact ∈ s.db.artifacts)
      (assertExactArtifact P command artifact) (fun _ => Proposed P command) fun _ _ => True := by
  unfold assertExactArtifact
  split
  · rename_i hmatches
    exact .ret fun _ _ h => ⟨artifact, h, hmatches⟩
  · exact .throw fun _ _ _ => trivial

/-- What is known once the latest verdict was read. -/
def HasRead (i : ι) (householdId : HouseholdId) (taskId : TaskId)
    (row : Option (VerdictRow × Json)) (s : Sys ι) : Prop :=
  ∀ verdict payload, row = some (verdict, payload) → verdict.verdict = .accepted →
    s.checked i = some (householdId, taskId, verdict.coveredArtifactId,
        verdict.coveredArtifactHash) ∧
      s.db.Accepts householdId taskId verdict.coveredArtifactId verdict.coveredArtifactHash

theorem hasRead_findLatestVerdict {householdId : HouseholdId} {taskId : TaskId} {choice : Choice}
    {row : Option (VerdictRow × Json)} (hs : s.db.Vetted)
    (hrun : s.run jsonIn i (.findLatestVerdict householdId taskId) choice = some (.ok row, s')) :
    HasRead i householdId taskId row s' := by
  intro verdict payload hrow haccepted
  rcases findLatestVerdict_read hrun with ⟨_, e, he⟩ | ⟨hok, rfl⟩
  · cases he
  cases hok
  have hlatest := Db.findLatestVerdict_some hs hrow
  have hkeys := List.find?_some hlatest
  simp only [Bool.and_eq_true, beq_iff_eq] at hkeys
  refine ⟨?_, verdict, hlatest, haccepted, rfl, rfl⟩
  simp [remember, hrow, haccepted, hkeys.1, hkeys.2]

theorem reviewed_requireAcceptance :
    ReviewSpec jsonIn exec i (Proposed P command) (requireAcceptance command)
      (fun _ s => Proposed P command s ∧ RestsOn i command s) fun _ _ => True := by
  refine .bind (R := fun (verdict : Option CheckerVerdict) s => Proposed P command s ∧
    (verdict.any (acceptsExactly command) = true → RestsOn i command s)) ?_ fun verdict => ?_
  · refine .bind (R := fun row s => Proposed P command s ∧
      HasRead i command.householdId command.taskId row s) ?_ fun row => ?_
    · refine Discipline.Triple.perform stable_proposed (fun _ _ _ _ _ h => by cases h) ?_ ?_
      · intro s choice row s' hs hproposed _ hstep _
        have hrun : s.run jsonIn i (.findLatestVerdict command.householdId command.taskId) choice =
          some (.ok row, s') := hstep
        refine ⟨?_, hasRead_findLatestVerdict hs hrun⟩
        obtain ⟨artifact, hartifact, hmatches⟩ := hproposed
        exact ⟨artifact, (run_reviewed hrun).1.keeps.artifacts artifact hartifact, hmatches⟩
      · exact fun _ _ _ _ _ _ _ _ _ => trivial
    · cases row with
      | none => exact .ret fun _ _ h => ⟨h.1, fun hany => by cases hany⟩
      | some row =>
        obtain ⟨row, payload⟩ := row
        simp only [Prog.pure_eq]
        split
        · exact .throw fun _ _ _ => trivial
        · rename_i parsed _
          split
          · exact .throw fun _ _ _ => trivial
          · rename_i hsame
            refine .ret fun s _ h => ⟨h.1, fun hany => ?_⟩
            simp only [not_or, not_not] at hsame
            obtain ⟨hverdict, hid, hhash⟩ := hsame
            simp only [Option.any_some, acceptsExactly, Bool.and_eq_true, beq_iff_eq] at hany
            obtain ⟨⟨haccepted, hproposal⟩, hproposalHash⟩ := hany
            have hread := h.2 row payload rfl (hverdict ▸ haccepted)
            rw [← hid, ← hhash, hproposal, hproposalHash] at hread
            exact hread
  · split
    · rename_i hany
      exact .ret fun _ _ h => ⟨h.1, h.2 hany⟩
    · exact .throw fun _ _ _ => trivial

/-! ## Registration -/

/-- The confirmation of a command found under an idempotency key. -/
def RecordBacked (command : CheckedCommand) (record : MutationCommandRecord) (s : Sys ι) : Prop :=
  record.householdId = command.householdId ∧
    (record.confirmationRequired = true ∨ record.confirmationId ≠ none →
      s.db.Confirms record.householdId record.taskId record.checkedProposalId
        record.checkedProposalHash record.confirmationId)

theorem reviewed_findByIdempotency :
    ReviewSpec jsonIn exec i (fun _ => True)
      (findByIdempotency command.householdId command.idempotencyKey)
      (fun found s => ∀ record, found = some record → RecordBacked command record s)
      fun _ _ => True := by
  refine .bind (R := fun (row : Option CommandRow) s => ∀ record, row.map mapCommand = some record →
    RecordBacked command record s) ?_ fun row => .ret fun _ _ h => h
  refine Discipline.Triple.perform (.pure True) (fun _ _ _ _ _ h => by cases h) ?_ ?_
  · intro s choice row s' hs _ _ hrun _ record hrecord
    obtain ⟨rfl, hrow | ⟨e, he⟩⟩ := select_some
      (f := (·.findByIdempotency command.householdId command.idempotencyKey)) hrun
    · cases hrow
      obtain ⟨row, hrow, rfl⟩ := Option.map_eq_some_iff.1 hrecord
      obtain ⟨hmem, hhousehold, _⟩ := Db.findByIdempotency_some hrow
      exact ⟨hhousehold, hs.commands row hmem⟩
    · cases he
  · exact fun _ _ _ _ _ _ _ _ _ => trivial

theorem reviewed_validateReplay {record : MutationCommandRecord} :
    ReviewSpec jsonIn exec i (RecordBacked command record) (validateReplay P record command required)
      (fun _ => Backed required command) fun _ _ => True := by
  unfold validateReplay
  split
  · rename_i henvelope
    simp only [sameEnvelope, Bool.and_eq_true, beq_iff_eq] at henvelope
    obtain ⟨⟨⟨⟨⟨⟨⟨⟨⟨_, htask⟩, _⟩, hproposal⟩, hhash⟩, hrequired⟩, hconfirmation⟩, _⟩, _⟩, _⟩ := henvelope
    refine .ret fun s _ h hneeds => ?_
    obtain ⟨hhousehold, hconfirms⟩ := h
    rw [← hhousehold, ← htask, ← hproposal, ← hhash, ← hconfirmation]
    exact hconfirms (by rw [hrequired, hconfirmation]; exact hneeds)
  · exact .throw fun _ _ _ => trivial

theorem joinConfirmation_eq {db : Db} {input : CheckedCommand}
    (h : ∀ confirmationId, input.confirmationId = some confirmationId →
      ∃ row ∈ db.confirmations, row.householdId = input.householdId ∧
        row.confirmationId = confirmationId) : db.joinConfirmation input = input.confirmationId := by
  unfold Db.joinConfirmation
  cases hid : input.confirmationId with
  | none => rfl
  | some confirmationId =>
    obtain ⟨row, hrow, hhousehold, hname⟩ := h confirmationId hid
    rw [Option.filter_some, if_pos]
    simp only [List.any_eq_true, Bool.and_eq_true, beq_iff_eq]
    exact ⟨row, hrow, hhousehold, hname⟩

theorem reviewed_insertRegistered :
    ReviewSpec jsonIn exec i (fun _ => True) (insertRegistered command required)
      (fun _ => Backed required command) fun _ _ => True := by
  refine .bind (R := fun (row : Option CommandRow) s => row.isSome → Backed required command s) ?_
    fun row => ?_
  · refine Discipline.Triple.perform (.pure True) (fun _ _ _ _ _ h => by cases h) ?_ ?_
    · intro s choice row s' _ _ hG hstep _ hsome hneeds
      have hrun : s.run jsonIn i (.insertCommand command required) choice = some (.ok row, s') :=
        hstep
      have hkeeps := (run_reviewed hrun).1.keeps
      have hjoin := joinConfirmation_eq (hG command required rfl)
      rcases autocommit_some (f := (·.insertCommand jsonIn command required)) hrun with
        ⟨_, e, he⟩ | ⟨a, db, hinsert, _, ha | ⟨e, he⟩⟩
      · cases he
      · cases ha
        rcases Db.insertCommand_ok hinsert with ⟨rfl, _⟩ | ⟨payload, _, hvalid, _⟩
        · cases hsome
        · have hconfirms := (Db.validateMutationCommandInsert_ok hvalid).2.2
          rw [hjoin] at hconfirms
          exact (hconfirms hneeds).keeps hkeeps
      · cases he
    · exact fun _ _ _ _ _ _ _ _ _ => trivial
  · cases row with
    | none => exact .throw fun _ _ _ => trivial
    | some row => exact .ret fun _ _ h => h rfl

/-- A registered command has the confirmation it needs. -/
theorem reviewed_register :
    ReviewSpec jsonIn exec i (fun _ => True) (register P command required)
      (fun _ => Backed required command) fun _ _ => True := by
  unfold register parseCheckedCommand
  split
  · simp only [Prog.bind_eq, Prog.ret_bind]
    refine .bind reviewed_findByIdempotency fun found => ?_
    cases found with
    | some record => exact reviewed_validateReplay.pre fun _ _ h => h record rfl
    | none =>
      refine .tryCatch (reviewed_insertRegistered.pre fun _ _ _ => trivial) fun error => ?_
      unfold registrationFailed
      split
      · refine .bind reviewed_findByIdempotency fun replay => ?_
        cases replay with
        | some record => exact reviewed_validateReplay.pre fun _ _ h => h record rfl
        | none => exact .throw fun _ _ _ => trivial
      · exact .throw fun _ _ _ => trivial
  · exact .throw fun _ _ _ => trivial

/-! ## The handler's call -/

omit [DecidableEq ι] in
theorem eligible_of_reviewed {prepared : PreparedCommand}
    (hprepared : (exec i).registry.prepare command = .ok prepared)
    (h : (Proposed (exec i).platform command s ∧ RestsOn i command s) ∧
      Backed (prepared.handler.confirmation == .required) command s) :
    Eligible (exec i) prepared.handler.toHandlerIdentity command s.db := by
  obtain ⟨⟨⟨artifact, hartifact, hmatches⟩, hrests⟩, hbacked⟩ := h
  obtain ⟨hmem, htype, hschema, _⟩ := CommandRegistry.prepare_ok hprepared
  simp only [matchesArtifact, Bool.and_eq_true, beq_iff_eq] at hmatches
  obtain ⟨⟨⟨⟨⟨hid, hhousehold⟩, htask⟩, hhash⟩, _⟩, houtput⟩ := hmatches
  refine ⟨?_, hrests.2, ⟨prepared.handler, hmem, rfl, htype, hschema⟩, fun hneeds => ?_⟩
  · split at houtput
    · cases houtput
    · rename_i output hmaker
      simp only [Bool.and_eq_true, beq_iff_eq] at houtput
      exact ⟨artifact, hartifact, output, hid, hhash, hhousehold, htask, hmaker, houtput.2⟩
  · exact hbacked (hneeds.imp_left fun hrequired => by simp [hrequired])

theorem reviewed_executeRegistered {prepared : PreparedCommand} {registered : MutationCommandRecord}
    (hprepared : (exec i).registry.prepare command = .ok prepared) :
    ReviewSpec jsonIn exec i
      (fun s => (Proposed (exec i).platform command s ∧ RestsOn i command s) ∧
        Backed (prepared.handler.confirmation == .required) command s)
      (executeRegistered (exec i) command prepared registered) (fun _ _ => True)
      fun _ _ => True := by
  have hcovers : Covers (fun call => call.readsVerdict = false ∧ ∀ handler other,
      call = .handlerCall handler other → handler = prepared.handler.toHandlerIdentity ∧
        other = command) prepared.handler command := by
    refine ⟨?_, ?_, ?_, ?_⟩
    · intro call hpool
      have hread : call.readsVerdict = false := by
        simp only [Call.onPool, Bool.and_eq_true, Bool.not_eq_true'] at hpool
        exact hpool.2
      refine ⟨hread, ?_⟩
      rintro handler other rfl
      cases hpool
    · intro call hclient hnot
      refine ⟨?_, fun handler other hcall => absurd hcall (hnot handler other)⟩
      cases call <;> first | rfl | cases hclient
    · refine ⟨rfl, ?_⟩
      rintro handler other ⟨⟩
      exact ⟨rfl, rfl⟩
    · intro failureCode
      exact ⟨rfl, fun _ _ h => by cases h⟩
  have hstable : (reviewDiscipline ι jsonIn exec).Stable i fun s =>
      (Proposed (exec i).platform command s ∧ RestsOn i command s) ∧
        Backed (prepared.handler.confirmation == .required) command s :=
    (stable_proposed.and stable_restsOn).and stable_backed
  refine (Discipline.Triple.of_calls (calls_executeRegistered hcovers) hstable ?_ ?_).post
    (fun _ _ _ _ => trivial) fun _ _ _ _ => trivial
  · rintro _ ⟨_, hcall⟩ s _ hs handler other rfl
    obtain ⟨rfl, rfl⟩ := hcall handler other rfl
    exact eligible_of_reviewed hprepared hs
  · intro call hcall s choice r s' _ hs _ hrun hInv'
    exact hstable s s' hInv' (keepsReview_of_own hcall.1 hrun) hs

theorem reviewed_execute :
    ReviewSpec jsonIn exec i (fun _ => True) (CheckedMutationExecutor.execute (exec i) command)
      (fun _ _ => True) fun _ _ => True := by
  unfold CheckedMutationExecutor.execute parseCheckedCommand
  split
  · simp only [Prog.bind_eq, Prog.ret_bind]
    refine .bind reviewed_getVerified fun artifact => .bind reviewed_assertExactArtifact fun _ =>
      .bind reviewed_requireAcceptance fun _ => .bind (R := fun prepared s =>
        (exec i).registry.prepare command = .ok prepared ∧
          Proposed (exec i).platform command s ∧ RestsOn i command s) ?_ fun prepared => ?_
    · exact .ofExcept (fun prepared hprepared _ _ h => ⟨hprepared, h⟩) fun _ _ _ _ _ => trivial
    refine .of_pure fun hprepared => ?_
    have hstable : (reviewDiscipline ι jsonIn exec).Stable i fun s =>
        Proposed (exec i).platform command s ∧ RestsOn i command s :=
      stable_proposed.and stable_restsOn
    refine .bind (((register_pool.reviewed hstable).and_post
      (reviewed_register.pre fun _ _ _ => trivial)).post (fun _ _ _ h => h)
      fun _ _ _ _ => trivial) fun registered => ?_
    exact reviewed_executeRegistered hprepared
  · exact .throw fun _ _ _ => trivial

end Knows

/-! ## Runs -/

/-- In every run that meets `reviewGuard`, a handler is called only where its command is eligible. -/
theorem execute_only_eligible (jsonIn : String → Option Json) (exec : ι → Executor)
    (candidate : ι → CheckedCommand) (db : Db) (hdb : db.Vetted)
    (c : Config ι Call Reply Thrown Verified (Sys ι))
    (hc : Reachable (reviewGuard ι jsonIn) (.initial (Sys.atRest db) (executions exec candidate)) c)
    (i : ι) (handler : HandlerIdentity) (command : CheckedCommand)
    (k : Except Thrown Unit → Program Verified)
    (hi : c.threads i = .running (.call (.handlerCall handler command) k)) :
    Eligible (exec i) handler command c.state.db := by
  have hok : (reviewDiscipline ι jsonIn exec).ConfigOk (fun _ _ _ => True) (fun _ _ _ => True) c := by
    have hsound : (reviewDiscipline ι jsonIn exec).Sound := reviewDiscipline_sound
    have hvetted : (reviewDiscipline ι jsonIn exec).Inv (Sys.atRest db) := hdb
    refine Discipline.run (P := fun _ _ => True) hsound ?_ ?_ ?_ ?_ hvetted (fun _ => trivial)
      (fun i => reviewed_execute) hc
    · exact fun _ _ => .pure True
    · exact fun _ _ => .pure True
    · exact fun _ _ _ _ _ => trivial
    · exact fun _ _ _ _ _ => trivial
  exact hok.allowed hi handler command rfl

/-! ## Runs of the test command -/

/-- The handler call a thread is about to make. -/
def callsHandler : Thread Call Reply Thrown α → Option (HandlerIdentity × CheckedCommand)
  | .running (.call (.handlerCall handler command) _) => some (handler, command)
  | _ => none

theorem callsHandler_eq_some {t : Thread Call Reply Thrown α} {handler : HandlerIdentity}
    {command : CheckedCommand} (h : callsHandler t = some (handler, command)) :
    ∃ k, t = .running (.call (.handlerCall handler command) k) := by
  unfold callsHandler at h
  split at h
  · cases h
    exact ⟨_, rfl⟩
  · cases h

/-- Whether a call inserts no command under a confirmation that is not recorded. -/
def insertsConfirmed (_ : ι) (call : Call) (_ : Choice) (s : Sys ι) : Bool :=
  match call with
  | .insertCommand input _ => input.confirmationId.all fun confirmationId =>
      s.db.confirmations.any fun row => row.householdId == input.householdId &&
        row.confirmationId == confirmationId
  | _ => true

theorem reviewGuard_of_check {call : Call} {choice : Choice}
    (h : insertsConfirmed i call choice s = true) : (reviewGuard ι jsonIn).call i call choice s := by
  rintro input confirmationRequired rfl confirmationId hid
  simpa [insertsConfirmed, hid] using h

namespace TestCommand

theorem seeded_vetted : seeded.Vetted := by
  refine ⟨?_, ?_⟩
  · intro row hrow
    rw [List.mem_singleton.1 hrow]
    exact ⟨_, List.mem_cons_of_mem _ (List.mem_singleton.2 rfl), rfl, rfl, rfl⟩
  · intro row hrow
    cases hrow

theorem handler_reached :
    (((start 1).play (mutationSystem (Fin 1) platform.jsonIn) (steps 0 16)).bind fun c =>
      callsHandler (c.threads 0)) = some (handler.toHandlerIdentity, checkedCommand) ∧
    (start 1).passes (mutationSystem (Fin 1) platform.jsonIn) insertsConfirmed (steps 0 16) =
      true := by
  decide +kernel

theorem execute_only_eligible_seeded :
    ∃ c k, (start 1).play (mutationSystem (Fin 1) platform.jsonIn) (steps 0 16) = some c ∧
      c.threads 0 = .running
        (.call (.handlerCall handler.toHandlerIdentity checkedCommand) k) ∧
      Eligible executor handler.toHandlerIdentity checkedCommand c.state.db := by
  obtain ⟨c, hc, hcalls⟩ := Option.bind_eq_some_iff.1 handler_reached.1
  obtain ⟨k, hk⟩ := callsHandler_eq_some hcalls
  have hadmitted : Admitted (reviewGuard (Fin 1) platform.jsonIn) (start 1) (steps 0 16) := by
    refine .of_passes (fun i call choice s h => reviewGuard_of_check h) ?_ handler_reached.2
    intro move hmove
    cases List.eq_of_mem_replicate hmove
  exact ⟨c, k, hc, hk, execute_only_eligible platform.jsonIn (fun _ => executor)
    (fun _ => checkedCommand) seeded seeded_vetted c (.of_play hadmitted hc) 0 _ _ k hk⟩

def confirmationId : ConfirmationId := ⟨suffix, by decide⟩

/-- The test command under a confirmation that nobody has recorded. -/
def unconfirmedCommand : CheckedCommand :=
  { checkedCommand with confirmationId := some confirmationId }

def moveTask (expectedFrom toStatus : TaskStatus) : Event (Fin 1) Choice (Move (Fin 1)) :=
  .env (.transitionTask
    { householdId, taskId, expectedFrom, toStatus, reasonCode := "revision"
      responsibleComponent := "runtime", terminal := false, failureCategory := none
      resumable := none })

def revisedId : ArtifactId := ⟨"01JNZQ4A9B8C7D6E5F4G3H2J3K", by decide⟩

def revisedCheckerId : ArtifactId := ⟨"01JNZQ4A9B8C7D6E5F4G3H2J4K", by decide⟩

/-- A revision of the proposal is made and rejected. -/
def rejectedRevision : List (Event (Fin 1) Choice (Move (Fin 1))) :=
  [moveTask .checker_validated .revision_requested, moveTask .revision_requested .maker_running,
    .env (.saveArtifact ⟨revisedId, householdId, taskId, .maker_output, ⟨"maker-artifact", 1⟩,
      proposalHash, makerArtifactPayload⟩),
    .env (.linkMakerArtifact householdId taskId revisedId proposalHash),
    moveTask .maker_running .maker_validated, moveTask .maker_validated .checker_running,
    .env (.saveArtifact ⟨revisedCheckerId, householdId, taskId, .checker_output,
      ⟨"checker-verdict", 1⟩, recordHash, verdictPayload⟩),
    .env (.recordCheckerVerdict householdId taskId revisedCheckerId
      ⟨.rejected, revisedId, proposalHash⟩),
    moveTask .checker_running .checker_validated]

/-- A handler is called for a command whose envelope names a confirmation that is not recorded; and
for one whose task's latest verdict, recorded after `execute` had read the one before, is a
rejection. -/
theorem handler_called_unchecked :
    (((Config.initial (Sys.atRest seeded) (executions (fun _ => executor)
        fun _ => unconfirmedCommand) : Config (Fin 1) Call Reply Thrown Verified (Sys (Fin 1))).play
      (mutationSystem (Fin 1) platform.jsonIn) (steps 0 16)).bind fun c =>
        (callsHandler (c.threads 0)).map fun called => (called, c.state.db.confirmations)) =
      some ((handler.toHandlerIdentity, unconfirmedCommand), []) ∧
    (((start 1).play (mutationSystem (Fin 1) platform.jsonIn)
      (steps 0 2 ++ rejectedRevision ++ steps 0 14)).bind fun c =>
        (callsHandler (c.threads 0)).map fun called => (called,
          (c.state.db.latestVerdict householdId taskId).map VerdictRow.verdict)) =
      some ((handler.toHandlerIdentity, checkedCommand), some .rejected) := by
  decide +kernel

end TestCommand

end PlusOne
