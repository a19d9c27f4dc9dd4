import PlusOne.Mutations.Pool

/-! # What a command was reviewed with

An execution rests on the maker artifact, on the latest verdict of its task and on a
confirmation. Artifacts, verdicts and confirmations are only ever added, none of them
by an execution itself, and a command is registered only with the confirmation its row
names. -/

namespace PlusOne

open Interleaving

namespace Db

variable {db db' db'' : Db} {householdId : HouseholdId} {taskId : TaskId}

/-- The verdict recorded last for a task. -/
def latestVerdict (db : Db) (householdId : HouseholdId) (taskId : TaskId) : Option VerdictRow :=
  db.verdicts.reverse.find? fun row => row.householdId == householdId && row.taskId == taskId

/-- The latest verdict of the task accepts exactly this artifact. -/
def Accepts (db : Db) (householdId : HouseholdId) (taskId : TaskId) (artifactId : ArtifactId)
    (artifactHash : ArtifactHash) : Prop :=
  ∃ row, db.latestVerdict householdId taskId = some row ∧ row.verdict = .accepted ∧
    row.coveredArtifactId = artifactId ∧ row.coveredArtifactHash = artifactHash

/-- A confirmation of exactly this artifact is recorded under the identifier. -/
def Confirms (db : Db) (householdId : HouseholdId) (taskId : TaskId) (artifactId : ArtifactId)
    (artifactHash : ArtifactHash) (confirmationId : Option ConfirmationId) : Prop :=
  ∃ row ∈ db.confirmations, row.householdId = householdId ∧ row.taskId = taskId ∧
    row.checkedProposalId = artifactId ∧ row.checkedProposalHash = artifactHash ∧
    confirmationId = some row.confirmationId

/-- What the foreign keys and the insert trigger keep: verdicts come with their checker artifact,
and commands that need or name a confirmation have one. -/
structure Vetted (db : Db) : Prop where
  verdicts : ∀ row ∈ db.verdicts, ∃ artifact ∈ db.artifacts,
    artifact.householdId = row.householdId ∧ artifact.taskId = row.taskId ∧
      artifact.artifactId = row.checkerArtifactId
  commands : ∀ row ∈ db.commands, row.confirmationRequired = true ∨ row.confirmationId ≠ none →
    db.Confirms row.householdId row.taskId row.checkedProposalId row.checkedProposalHash
      row.confirmationId

/-- Nothing that a review rests on is taken away. -/
structure Keeps (db db' : Db) : Prop where
  artifacts : ∀ row ∈ db.artifacts, row ∈ db'.artifacts
  confirmations : ∀ row ∈ db.confirmations, row ∈ db'.confirmations

theorem Keeps.refl (db : Db) : db.Keeps db := ⟨fun _ h => h, fun _ h => h⟩

theorem Keeps.trans (h : db.Keeps db') (h' : db'.Keeps db'') : db.Keeps db'' :=
  ⟨fun row hrow => h'.artifacts row (h.artifacts row hrow),
    fun row hrow => h'.confirmations row (h.confirmations row hrow)⟩

theorem Confirms.keeps {artifactId : ArtifactId} {artifactHash : ArtifactHash}
    {confirmationId : Option ConfirmationId} (hkeeps : db.Keeps db')
    (h : db.Confirms householdId taskId artifactId artifactHash confirmationId) :
    db'.Confirms householdId taskId artifactId artifactHash confirmationId := by
  obtain ⟨row, hrow, hbound⟩ := h
  exact ⟨row, hkeeps.confirmations row hrow, hbound⟩

/-! ## Reading the latest verdict -/

/-- Where every row that is looked for has a partner, joining skips none of them. -/
theorem find?_of_head?_filterMap {α β : Type} {p : α → Prop} [DecidablePred p] {partner : α → Option β}
    {rows : List α} {row : α} {b : β} (hpartner : ∀ row ∈ rows, (partner row).isSome)
    (h : (rows.filterMap fun row => if p row then (partner row).map fun b => (row, b) else none).head? =
      some (row, b)) : rows.find? (fun row => decide (p row)) = some row := by
  induction rows with
  | nil => simp at h
  | cons first rest ih =>
    by_cases hp : p first
    · obtain ⟨found, hfound⟩ := Option.isSome_iff_exists.1 (hpartner first (List.mem_cons_self ..))
      simp only [List.filterMap_cons, if_pos hp, hfound, Option.map_some, List.head?_cons,
        Option.some.injEq, Prod.mk.injEq] at h
      rw [List.find?_cons_of_pos (by simpa using hp), h.1]
    · simp only [List.filterMap_cons, if_neg hp] at h
      have hrest := ih (fun row hrow => hpartner row (List.mem_cons_of_mem _ hrow)) h
      simpa [hp] using hrest

/-- The joined read finds the verdict recorded last. -/
theorem findLatestVerdict_some (h : db.Vetted) {row : VerdictRow} {payload : Json}
    (hrow : db.findLatestVerdict householdId taskId = some (row, payload)) :
    db.latestVerdict householdId taskId = some row := by
  let partner : VerdictRow → Option Json := fun row => (db.artifacts.find? fun artifact =>
    artifact.householdId == row.householdId && artifact.taskId == row.taskId &&
      artifact.artifactId == row.checkerArtifactId).map fun artifact => artifact.payload
  have hpartner : ∀ row ∈ db.verdicts.reverse, (partner row).isSome := by
    intro row hmem
    obtain ⟨artifact, hartifact, hhousehold, htask, hid⟩ := h.verdicts row (List.mem_reverse.1 hmem)
    rw [Option.isSome_map, List.find?_isSome]
    exact ⟨artifact, hartifact, by simp [hhousehold, htask, hid]⟩
  have hhead : (db.verdicts.reverse.filterMap fun row : VerdictRow =>
      if row.householdId = householdId ∧ row.taskId = taskId then
        (partner row).map fun payload => (row, payload) else none).head? = some (row, payload) := by
    simpa [partner, findLatestVerdict, Option.map_map, Function.comp_def] using hrow
  have hfound := find?_of_head?_filterMap hpartner hhead
  rw [latestVerdict, ← hfound]
  congr 1
  funext row
  rw [Bool.eq_iff_iff]
  simp

/-! ## Statements that leave a review alone -/

/-- The statement changed nothing that a review rests on, and left every command under the
confirmation it had, or registered it under one that is recorded. -/
structure Reviewed (db db' : Db) : Prop where
  artifacts : db'.artifacts = db.artifacts
  verdicts : db'.verdicts = db.verdicts
  confirmations : db'.confirmations = db.confirmations
  vetted : db.Vetted → db'.Vetted

theorem Reviewed.refl (db : Db) : db.Reviewed db := ⟨rfl, rfl, rfl, fun h => h⟩

theorem Reviewed.keeps (h : db.Reviewed db') : db.Keeps db' :=
  ⟨fun _ hrow => h.artifacts ▸ hrow, fun _ hrow => h.confirmations ▸ hrow⟩

theorem Reviewed.of_rows (hartifacts : db'.artifacts = db.artifacts)
    (hverdicts : db'.verdicts = db.verdicts) (hconfirmations : db'.confirmations = db.confirmations)
    (hrows : ∀ row' ∈ db'.commands, (∃ row ∈ db.commands, row'.SameIdentity row) ∨
      (row'.confirmationRequired = true ∨ row'.confirmationId ≠ none →
        db.Confirms row'.householdId row'.taskId row'.checkedProposalId row'.checkedProposalHash
          row'.confirmationId)) : db.Reviewed db' := by
  have hkeeps : db.Keeps db' :=
    ⟨fun _ hrow => hartifacts ▸ hrow, fun _ hrow => hconfirmations ▸ hrow⟩
  refine ⟨hartifacts, hverdicts, hconfirmations, fun h => ⟨?_, fun row' hrow' hneeds => ?_⟩⟩
  · rw [hverdicts, hartifacts]
    exact h.verdicts
  · rcases hrows row' hrow' with ⟨row, hrow, hid⟩ | hconfirms
    · rw [hid] at hneeds ⊢
      exact (h.commands row hrow hneeds).keeps hkeeps
    · exact (hconfirms hneeds).keeps hkeeps

theorem Reviewed.of_same (hartifacts : db'.artifacts = db.artifacts)
    (hverdicts : db'.verdicts = db.verdicts) (hconfirmations : db'.confirmations = db.confirmations)
    (hcommands : db'.commands = db.commands) : db.Reviewed db' :=
  .of_rows hartifacts hverdicts hconfirmations fun row hrow =>
    .inl ⟨row, hcommands ▸ hrow, rfl⟩

theorem Reviewed.replace {old new : CommandRow} (hold : old ∈ db.commands)
    (hid : new.SameIdentity old) : db.Reviewed (db.replaceCommand new) := by
  refine .of_rows rfl rfl rfl fun row hrow => .inl ?_
  obtain ⟨row', hrow', hreplaced⟩ := List.mem_map.1 hrow
  split_ifs at hreplaced
  · exact ⟨old, hold, hreplaced ▸ hid⟩
  · exact ⟨row', hrow', hreplaced ▸ rfl⟩

theorem Reviewed.of_update {key : CommandKey} {expected status : CommandStatus}
    {failureCode : CommandRow → Option String} {n : Nat} (hedge : StatusEdge expected status)
    (hcommitted : status ≠ .committed)
    (h : db.updateCommand key expected status failureCode = .ok (n, db')) : db.Reviewed db' := by
  rcases updateCommand_step hedge hcommitted h with ⟨_, rfl, _⟩ | ⟨old, new, _, hfind, _, hnew, rfl⟩
  · exact .refl db'
  · exact .replace (findCommand_some hfind).1 (by rw [hnew]; rfl)

theorem Reviewed.of_readback {result : ReadbackResult} {n : Nat}
    (h : db.recordReadback householdId result = .ok (n, db')) : db.Reviewed db' := by
  rcases recordReadback_ok h with ⟨_, rfl⟩ | ⟨old, new, _, _, hfind, _, _, _, hnew, _, rfl⟩
  · exact .refl db'
  · have hinserted : db.Reviewed { db with readbacks := db.readbacks ++ [⟨householdId, result⟩] } :=
      .of_same rfl rfl rfl rfl
    have hreplaced : ({ db with readbacks := db.readbacks ++ [⟨householdId, result⟩] } : Db).Reviewed
        (({ db with readbacks := db.readbacks ++ [⟨householdId, result⟩] } : Db).replaceCommand
          new) := .replace (findCommand_some hfind).1 (by rw [hnew]; rfl)
    exact ⟨hreplaced.artifacts, hreplaced.verdicts, hreplaced.confirmations,
      fun h => hreplaced.vetted (hinserted.vetted h)⟩

theorem Reviewed.commitTx {tx : Tx} : db.Reviewed (db.commitTx tx) := by
  refine .of_rows rfl rfl rfl fun row hrow => .inl ?_
  obtain ⟨row', hrow', rfl⟩ := List.mem_map.1 hrow
  refine ⟨row', hrow', ?_⟩
  unfold committedRow
  split <;> rfl

theorem validateMutationCommandInsert_ok {new : NewCommand}
    (h : db.validateMutationCommandInsert new = .ok ()) :
    (∃ artifact, db.findExactArtifact new.input.householdId new.input.taskId
        new.input.checkedProposalId new.input.checkedProposalHash = some artifact ∧
      exactOutput artifact new = true) ∧
    db.accepted new.input = true ∧
    (new.confirmationRequired = true ∨ new.confirmationId ≠ none →
      db.Confirms new.input.householdId new.input.taskId new.input.checkedProposalId
        new.input.checkedProposalHash new.confirmationId) := by
  unfold validateMutationCommandInsert at h
  simp only at h
  split_ifs at h with hartifact haccepted hconfirmation
  refine ⟨?_, by simpa using haccepted, fun hneeds => ?_⟩
  · simpa [Option.any_eq_true] using hartifact
  · have hneeded : (new.confirmationRequired || new.confirmationId.isSome) = true := by
      simpa [Option.isSome_iff_ne_none] using hneeds
    have hexact : db.exactConfirmation new = true := by simpa [hneeded] using hconfirmation
    unfold exactConfirmation at hexact
    split at hexact
    · cases hexact
    · rename_i confirmationId hid
      simp only [List.any_eq_true, Bool.and_eq_true, beq_iff_eq] at hexact
      obtain ⟨row, hrow, ⟨⟨⟨hhousehold, hname⟩, htask⟩, hproposal⟩, hhash⟩ := hexact
      exact ⟨row, hrow, hhousehold, htask, hproposal, hhash, by rw [hid, hname]⟩

theorem Reviewed.of_insert {jsonIn : String → Option Json} {input : CheckedCommand}
    {confirmationRequired : Bool} {result : Option CommandRow}
    (h : db.insertCommand jsonIn input confirmationRequired = .ok (result, db')) :
    db.Reviewed db' := by
  rcases insertCommand_ok h with ⟨_, rfl, _⟩ | ⟨payload, _, hvalid, _, _, _, rfl⟩
  · exact .refl db'
  · refine .of_rows rfl rfl rfl fun row hrow => ?_
    rcases List.mem_append.1 hrow with hold | hnew
    · exact .inl ⟨row, hold, rfl⟩
    · rw [List.mem_singleton.1 hnew]
      exact .inr (validateMutationCommandInsert_ok hvalid).2.2

end Db

namespace Sys

variable {ι : Type} [DecidableEq ι] {α : Type} {s s' : Sys ι} {i j : ι}
variable {jsonIn : String → Option Json}

/-! ## Calls -/

theorem Failed.unread (h : Failed s i s') : s'.checked = s.checked ∧ s'.db = s.db := by
  rcases h.2 with rfl | ⟨c, _, rfl⟩ <;> exact ⟨rfl, rfl⟩

theorem plain_same {a : α} {choice : Choice} {r : Except Thrown α}
    (h : s.plain a s choice = some (r, s')) : s' = s := by
  unfold plain at h
  split at h <;> cases h <;> rfl

theorem findLatestVerdict_read {householdId : HouseholdId} {taskId : TaskId} {choice : Choice}
    {r : Except Thrown (Option (VerdictRow × Json))}
    (h : s.run jsonIn i (.findLatestVerdict householdId taskId) choice = some (r, s')) :
    (s' = s ∧ ∃ e, r = .error e) ∨
    r = .ok (s.db.findLatestVerdict householdId taskId) ∧
      s' = s.remember i (s.db.findLatestVerdict householdId taskId) := by
  simp only [run, Option.map_eq_some_iff] at h
  obtain ⟨⟨r', s₁⟩, hselect, hr⟩ := h
  obtain ⟨rfl, hok | ⟨e, he⟩⟩ := select_some hselect
  · subst hok
    cases hr
    exact .inr ⟨rfl, rfl⟩
  · subst he
    cases hr
    exact .inl ⟨rfl, _, rfl⟩

/-- A call on the runner's client leaves the database alone, or commits a transaction. -/
theorem run_client {call : Call} {choice : Choice} {r : Except Thrown (Reply call)}
    (hclient : call.onClient = true) (h : s.run jsonIn i call choice = some (r, s')) :
    s'.checked = s.checked ∧ (s'.db = s.db ∨ ∃ tx, s'.db = s.db.commitTx tx) := by
  cases call with
  | connect role =>
    rcases connect_some h with ⟨rfl, _⟩ | ⟨rfl, _⟩ <;> exact ⟨rfl, .inl rfl⟩
  | begin =>
    rcases begin_some h with ⟨_, _, rfl⟩ | ⟨_, _, rfl⟩ | ⟨_, _, rfl | rfl⟩ <;>
      exact ⟨rfl, .inl rfl⟩
  | setTimeouts =>
    rcases inTransaction_some (f := s.look i) h with ⟨_, hfailed⟩ | ⟨tx, a, _, hf, _⟩
    · exact ⟨hfailed.unread.1, .inl hfailed.unread.2⟩
    · cases hf
      exact ⟨rfl, .inl rfl⟩
  | claim key =>
    rcases inTransaction_some (f := s.claim i key) h with ⟨_, hfailed⟩ | ⟨tx, a, _, hf, _⟩
    · exact ⟨hfailed.unread.1, .inl hfailed.unread.2⟩
    · rcases claim_ok hf with ⟨_, _, rfl⟩ | ⟨row, _, _, _, _, _, rfl⟩ <;> exact ⟨rfl, .inl rfl⟩
  | handlerCall handler command =>
    obtain ⟨_, hs⟩ := inProcess_some h
    subst hs
    split <;> exact ⟨rfl, .inl rfl⟩
  | statement layer query =>
    rcases inTransaction_some (f := s.statement i query choice.answer) h with
      ⟨_, hfailed⟩ | ⟨tx, a, _, hf, _⟩
    · exact ⟨hfailed.unread.1, .inl hfailed.unread.2⟩
    · cases hf
      exact ⟨rfl, .inl rfl⟩
  | commitCommand input =>
    rcases inTransaction_some (f := s.commitCommand i input) h with ⟨_, hfailed⟩ | ⟨tx, a, _, hf, _⟩
    · exact ⟨hfailed.unread.1, .inl hfailed.unread.2⟩
    · obtain ⟨row, _, _, _, _, _, _, _, rfl⟩ := commitCommand_ok hf
      exact ⟨rfl, .inl rfl⟩
  | commit =>
    rcases commit_some h with ⟨_, _, hfailed⟩ | ⟨_, rfl, _⟩ | ⟨tx, _, hcommit⟩
    · exact ⟨hfailed.unread.1, .inl hfailed.unread.2⟩
    · exact ⟨rfl, .inl rfl⟩
    · rcases hcommit with ⟨_, rfl⟩ | ⟨_, _, rfl⟩ | ⟨_, _, rfl⟩
      · exact ⟨rfl, .inr ⟨tx, rfl⟩⟩
      · exact ⟨rfl, .inr ⟨tx, rfl⟩⟩
      · exact ⟨rfl, .inl rfl⟩
  | rollback =>
    obtain ⟨c, _, rfl⟩ := rollback_some h
    exact ⟨rfl, .inl rfl⟩
  | release =>
    rw [(inProcess_some h).2]
    exact ⟨rfl, .inl rfl⟩
  | findArtifact | findLatestVerdict | findByIdempotency | findCommand | findReceipt | findReadback
  | findTask | insertCommand | markExecutionPending | markExecutionFailed | recordReadback
  | transition | readConnect | readQuery | now | sleep | newReadbackId | handlerThrow =>
    cases hclient

/-- No call of an execution changes what a review rests on, and only reading the verdict changes
the acceptance a thread rests on. -/
theorem run_reviewed {call : Call} {choice : Choice} {r : Except Thrown (Reply call)}
    (h : s.run jsonIn i call choice = some (r, s')) :
    s.db.Reviewed s'.db ∧ (call.readsVerdict = false → s'.checked = s.checked) := by
  by_cases hclient : call.onClient = true
  · obtain ⟨hchecked, hdb | ⟨tx, hdb⟩⟩ := run_client hclient h
    · exact ⟨hdb ▸ .refl s.db, fun _ => hchecked⟩
    · exact ⟨hdb ▸ .commitTx, fun _ => hchecked⟩
  cases call with
  | findLatestVerdict householdId taskId =>
    refine ⟨?_, fun hread => by cases hread⟩
    rcases findLatestVerdict_read h with ⟨rfl, _⟩ | ⟨_, rfl⟩ <;> exact .refl _
  | findArtifact | findByIdempotency | findCommand | findReceipt | findReadback | findTask =>
    rw [(select_some h).1]
    exact ⟨.refl s.db, fun _ => rfl⟩
  | insertCommand input confirmationRequired =>
    rcases autocommit_some (f := (·.insertCommand jsonIn input confirmationRequired)) h with
      ⟨rfl, _⟩ | ⟨row, db, hf, rfl, _⟩
    · exact ⟨.refl s'.db, fun _ => rfl⟩
    · exact ⟨.of_insert hf, fun _ => rfl⟩
  | markExecutionPending key site =>
    rcases updating_some (f := (·.markExecutionPending key)) h with ⟨rfl, _⟩ | ⟨_, n, db, hf, rfl, _⟩
    · exact ⟨.refl s'.db, fun _ => rfl⟩
    · exact ⟨.of_update .pending (by decide) hf, fun _ => rfl⟩
  | markExecutionFailed key failureCode =>
    rcases updating_some (f := (·.markExecutionFailed key failureCode)) h with
      ⟨rfl, _⟩ | ⟨_, n, db, hf, rfl, _⟩
    · exact ⟨.refl s'.db, fun _ => rfl⟩
    · exact ⟨.of_update .failed (by decide) hf, fun _ => rfl⟩
  | recordReadback householdId result =>
    rcases updating_some (f := (·.recordReadback householdId result)) h with
      ⟨rfl, _⟩ | ⟨_, n, db, hf, rfl, _⟩
    · exact ⟨.refl s'.db, fun _ => rfl⟩
    · exact ⟨.of_readback hf, fun _ => rfl⟩
  | transition input site =>
    rcases autocommit_some (f := (·.transition input)) h with ⟨rfl, _⟩ | ⟨outcome, db, hf, rfl, _⟩
    · exact ⟨.refl s'.db, fun _ => rfl⟩
    · rcases Db.transition_ok hf with ⟨_, rfl, _⟩ | ⟨_, _, _, _, rfl⟩ | ⟨_, _, _, _, rfl⟩ <;>
        exact ⟨.of_same rfl rfl rfl rfl, fun _ => rfl⟩
  | readConnect role =>
    rw [plain_same h]
    exact ⟨.refl s.db, fun _ => rfl⟩
  | readQuery query =>
    rw [readRows_some h]
    exact ⟨.refl s.db, fun _ => rfl⟩
  | now | sleep | handlerThrow =>
    rw [(inProcess_some h).2]
    exact ⟨.refl s.db, fun _ => rfl⟩
  | newReadbackId =>
    rw [newReadbackId_some h]
    exact ⟨.refl s.db, fun _ => rfl⟩
  | connect | begin | setTimeouts | claim | handlerCall | statement | commitCommand | commit
  | rollback | release => exact absurd rfl hclient

theorem run_checked_ne {call : Call} {choice : Choice} {r : Except Thrown (Reply call)}
    (hij : j ≠ i) (h : s.run jsonIn j call choice = some (r, s')) : s'.checked i = s.checked i := by
  by_cases hread : call.readsVerdict = false
  · rw [(run_reviewed h).2 hread]
  cases call <;> simp only [Call.readsVerdict, not_true_eq_false] at hread
  rcases findLatestVerdict_read h with ⟨rfl, _⟩ | ⟨_, rfl⟩
  · rfl
  · exact Function.update_of_ne hij.symm _ _

/-! ## Outside moves -/

/-- What an outside move does to a review: it may add an artifact, a verdict or a confirmation. -/
structure ReviewStep (s : Sys ι) (move : Move ι) (s' : Sys ι) : Prop where
  checked : s'.checked = s.checked
  keeps : s.db.Keeps s'.db
  vetted : s.db.Vetted → s'.db.Vetted
  verdicts : s'.db.verdicts = s.db.verdicts ∨
    ∃ householdId taskId checkerArtifactId verdict row,
      move = .recordCheckerVerdict householdId taskId checkerArtifactId verdict ∧
      row.householdId = householdId ∧ row.taskId = taskId ∧ row.verdict = verdict.verdict ∧
      row.coveredArtifactId = verdict.coveredArtifactId ∧
      row.coveredArtifactHash = verdict.coveredArtifactHash ∧
      s'.db.verdicts = s.db.verdicts ++ [row]

theorem ReviewStep.of_reviewed {move : Move ι} (hchecked : s'.checked = s.checked)
    (h : s.db.Reviewed s'.db) : ReviewStep s move s' :=
  ⟨hchecked, h.keeps, h.vetted, .inl h.verdicts⟩

theorem ReviewStep.of_onDb {move : Move ι} {db : Option Db} (h : s.onDb db = some s')
    (hdb : ∀ db', db = some db' → s.db.Reviewed db') : ReviewStep s move s' := by
  obtain ⟨db', hdb', rfl⟩ := Option.map_eq_some_iff.1 h
  exact .of_reviewed rfl (hdb db' hdb')

theorem ReviewStep.of_verdict {householdId : HouseholdId} {taskId : TaskId}
    {checkerArtifactId : ArtifactId} {verdict : CheckerVerdict}
    (h : s.onDb (s.db.recordCheckerVerdict householdId taskId checkerArtifactId verdict) = some s') :
    ReviewStep s (.recordCheckerVerdict householdId taskId checkerArtifactId verdict) s' := by
  obtain ⟨db, hdb, rfl⟩ := Option.map_eq_some_iff.1 h
  obtain ⟨task, linked, _, _, _, _, rfl | ⟨⟨artifact, hartifact, hids⟩, rfl⟩⟩ :=
    Db.recordCheckerVerdict_some hdb
  · exact .of_reviewed rfl (.of_same rfl rfl rfl rfl)
  · refine ⟨rfl, ⟨fun _ h => h, fun _ h => h⟩, fun hvetted => ⟨?_, hvetted.commands⟩,
      .inr ⟨householdId, taskId, checkerArtifactId, verdict, _, rfl, rfl, rfl, rfl, rfl, rfl, rfl⟩⟩
    intro row hrow
    rcases List.mem_append.1 hrow with hold | hnew
    · exact hvetted.verdicts row hold
    · rw [List.mem_singleton.1 hnew]
      exact ⟨artifact, hartifact, hids⟩

theorem ReviewStep.of_artifact {artifact : ArtifactEnvelope}
    (h : s.onDb (s.db.saveArtifact artifact) = some s') :
    ReviewStep s (.saveArtifact artifact) s' := by
  obtain ⟨db, hdb, rfl⟩ := Option.map_eq_some_iff.1 h
  unfold Db.saveArtifact at hdb
  split_ifs at hdb
  cases hdb
  have hkeeps : s.db.Keeps { s.db with artifacts := s.db.artifacts ++
      [{ artifact with payload := artifact.payload.jsonb }] } :=
    ⟨fun row hrow => List.mem_append_left _ hrow, fun _ hrow => hrow⟩
  refine ⟨rfl, hkeeps, fun hvetted => ⟨fun row hrow => ?_, hvetted.commands⟩, .inl rfl⟩
  obtain ⟨checker, hchecker, hids⟩ := hvetted.verdicts row hrow
  exact ⟨checker, hkeeps.artifacts checker hchecker, hids⟩

theorem ReviewStep.of_confirmation {row : ConfirmationRow}
    (h : s.onDb (s.db.recordConfirmation row) = some s') :
    ReviewStep s (.recordConfirmation row) s' := by
  obtain ⟨db, hdb, rfl⟩ := Option.map_eq_some_iff.1 h
  unfold Db.recordConfirmation at hdb
  split_ifs at hdb
  cases hdb
  have hkeeps : s.db.Keeps { s.db with confirmations := s.db.confirmations ++ [row] } :=
    ⟨fun _ hrow => hrow, fun _ hrow => List.mem_append_left _ hrow⟩
  exact ⟨rfl, hkeeps, fun hvetted => ⟨hvetted.verdicts, fun command hcommand hneeds =>
    (hvetted.commands command hcommand hneeds).keeps hkeeps⟩, .inl rfl⟩

theorem env_reviewed {move : Move ι} (h : s.env move = some s') : ReviewStep s move s' := by
  cases move with
  | disconnect j =>
    cases h
    exact .of_reviewed rfl (.refl s.db)
  | resolve n committed =>
    obtain ⟨tx, _, rfl⟩ := Option.map_eq_some_iff.1 h
    cases committed
    · exact .of_reviewed rfl (.refl s.db)
    · exact .of_reviewed rfl .commitTx
  | tick milliseconds =>
    refine .of_onDb h fun db' hdb => ?_
    cases hdb
    exact .of_same rfl rfl rfl rfl
  | createHousehold householdId =>
    refine .of_onDb h fun db' hdb => ?_
    split_ifs at hdb
    cases hdb
    exact .of_same rfl rfl rfl rfl
  | createTask householdId taskId =>
    refine .of_onDb h fun db' hdb => ?_
    unfold Db.createTask at hdb
    split_ifs at hdb
    cases hdb
    exact .of_same rfl rfl rfl rfl
  | transitionTask input =>
    simp only [env] at h
    split at h
    · rename_i hdone
      refine .of_onDb h fun db' hdb => ?_
      cases hdb
      rcases Db.transition_ok hdone with ⟨_, rfl, _⟩ | ⟨_, _, _, _, rfl⟩ | ⟨_, _, _, _, rfl⟩ <;>
        exact .of_same rfl rfl rfl rfl
    · cases h
  | linkMakerArtifact householdId taskId artifactId artifactHash =>
    refine .of_onDb h fun db' hdb => ?_
    unfold Db.linkMakerArtifact at hdb
    split at hdb
    · split_ifs at hdb
      cases hdb
      exact .of_same rfl rfl rfl rfl
    · cases hdb
  | saveArtifact artifact => exact .of_artifact h
  | recordCheckerVerdict householdId taskId checkerArtifactId verdict => exact .of_verdict h
  | recordConfirmation row => exact .of_confirmation h

end Sys

end PlusOne
