import PlusOne.Mutations.ExecutorSpec

/-! # A command executes exactly once

Any number of executions run interleaved, crash between any two of their calls, meet
serialization failures, and lose their connection before or after COMMIT. In every
configuration this leads to, a command has committed its effects at most once, it has
a receipt exactly when they are committed, its status has only moved forward, and an
execution that succeeded returned that receipt. -/

namespace PlusOne

open Interleaving Sys

namespace Db

variable {db db' : Db} {key : CommandKey} {tx : Tx}

/-- No command has gone further than its registration. -/
structure Unexecuted (db : Db) : Prop where
  unique : db.UniqueCommands
  registered : ∀ row ∈ db.commands, row.status = .registered
  receipts : db.receipts = []
  effects : db.effects = []

theorem Unexecuted.consistent (h : db.Unexecuted) : db.Consistent := by
  have hzero : ∀ key, db.settledCount key = 0 := by
    intro key
    unfold settledCount
    cases hrow : db.findCommand key with
    | none => rfl
    | some row =>
      have hstatus := h.registered row (findCommand_some hrow).1
      simp [hstatus, CommandStatus.settled]
  refine ⟨h.unique, fun key => ?_, fun key => ?_⟩
  · simp [receiptsOf, h.receipts, hzero]
  · simp [effectsOf, h.effects, hzero]

/-- The command under `key` has status committed, readback_verified or readback_failed. -/
def Settled (db : Db) (key : CommandKey) : Prop :=
  ∃ row, db.findCommand key = some row ∧ row.status.settled = true

theorem settledCount_eq_one : db.settledCount key = 1 ↔ db.Settled key := by
  unfold settledCount Settled
  cases hrow : db.findCommand key <;> simp

/-- Effects, receipt and status of a command tell the same. -/
structure ExactlyOnce (db : Db) (key : CommandKey) : Prop where
  effects_le : db.effectsOf key ≤ 1
  receipts_le : db.receiptsOf key ≤ 1
  receipt_iff : (∃ receipt ∈ db.receipts, receipt.key = key) ↔ db.Settled key
  effect_iff : (∃ effect ∈ db.effects, effect.key = key) ↔ db.Settled key

theorem Consistent.exactlyOnce (h : db.Consistent) (key : CommandKey) : db.ExactlyOnce key := by
  have hle := db.settledCount_le key
  have hreceipts := h.receipts key
  have heffects := h.effects key
  refine ⟨by omega, by omega, ?_, ?_⟩
  · have hpos : (∃ receipt ∈ db.receipts, receipt.key = key) ↔ 0 < db.receiptsOf key := by
      simp [receiptsOf, List.countP_pos_iff]
    rw [hpos, ← settledCount_eq_one]
    omega
  · have hpos : (∃ effect ∈ db.effects, effect.key = key) ↔ 0 < db.effectsOf key := by
      simp [effectsOf, List.countP_pos_iff]
    rw [hpos, ← settledCount_eq_one]
    omega

/-! ## The status only moves along its edges -/

/-- What one step does to the command under `key`: a new one is registered, and one that is there
keeps its identity and moves along at most one edge. -/
structure MovesAlong (db db' : Db) (key : CommandKey) : Prop where
  new : db.findCommand key = none → ∀ row', db'.findCommand key = some row' →
    row'.status = .registered
  old : ∀ row, db.findCommand key = some row → ∃ row', db'.findCommand key = some row' ∧
    row'.SameIdentity row ∧ (row'.status = row.status ∨ StatusEdge row.status row'.status)

theorem MovesAlong.refl (db : Db) (key : CommandKey) : db.MovesAlong db key :=
  ⟨fun hnone row' hrow' => by simp [hnone] at hrow', fun row hrow => ⟨row, hrow, rfl, .inl rfl⟩⟩

theorem CommandsStep.movesAlong {free : CommandKey → Prop} (h : CommandsStep free db db')
    (key : CommandKey) : db.MovesAlong db' key := by
  refine ⟨fun hnone row' hrow' => h.find_new hnone hrow', fun row hrow => ?_⟩
  obtain ⟨row', hrow', hid, rfl | ⟨hedge, _⟩⟩ := h.find_some hrow
  · exact ⟨row', hrow', hid, .inl rfl⟩
  · exact ⟨row', hrow', hid, .inr hedge⟩

theorem MovesAlong.commitTx (htx : TxOk db tx) (hcomplete : tx.Complete) (key : CommandKey) :
    db.MovesAlong (db.commitTx tx) key := by
  obtain ⟨receipt, hcomplete⟩ := hcomplete
  refine ⟨fun hnone row' hrow' => ?_, fun row hrow => ?_⟩
  · rw [findCommand_commitTx, hnone] at hrow'
    cases hrow'
  · by_cases hkey : receipt.key = key
    · subst hkey
      obtain ⟨row', hrow', hpending⟩ := htx.pending receipt.key (by simp [hcomplete.1])
      rw [hrow] at hrow'
      cases hrow'
      exact ⟨_, findCommand_commitTx_self hcomplete hrow, rfl, .inr (hpending ▸ .committed)⟩
    · exact ⟨row, by rw [findCommand_commitTx_ne hcomplete hkey, hrow], rfl, .inl rfl⟩

end Db

variable {ι : Type} [DecidableEq ι] {s s' : Sys ι} {i : ι}

theorem Sys.movesAlong_of_call {call : Call} (h : s.Disciplined) (hallowed : allowed i call s)
    (hstep : CallStep s i call s') (key : CommandKey) : s.db.MovesAlong s'.db key := by
  cases hstep with
  | pool hpool => exact hpool.commands.movesAlong key
  | ended | opened | looked | claimed | executed | receipted | detached => exact .refl s.db key
  | committed tx c htx hc => exact .commitTx (h.sessions i tx htx) (hallowed tx htx) key

theorem Sys.movesAlong_of_env {move : Move ι} (h : s.Disciplined) (hmove : s.env move = some s')
    (key : CommandKey) : s.db.MovesAlong s'.db key := by
  rcases env_step hmove with hpool | ⟨j, rfl⟩ | ⟨n, committed, hresolve⟩
  · exact hpool.commands.movesAlong key
  · exact .refl s.db key
  · obtain ⟨tx, htx, rfl⟩ := Option.map_eq_some_iff.1 hresolve
    obtain ⟨hok, hcomplete⟩ := h.travelling tx (List.mem_of_getElem? htx)
    cases committed
    · exact .refl s.db key
    · exact .commitTx hok hcomplete key

/-! ## The command of the test helpers -/

namespace TestCommand

def suffix : String := "01JNZQ4A9B8C7D6E5F4G3H2J1K"

def householdId : HouseholdId := ⟨suffix, by decide⟩

def taskId : TaskId := ⟨suffix, by decide⟩

def proposalId : ArtifactId := ⟨suffix, by decide⟩

def checkerArtifactId : ArtifactId := ⟨"01JNZQ4A9B8C7D6E5F4G3H2J2K", by decide⟩

def readbackId : MutationReadbackId := ⟨"00000000000000000000000001", by decide⟩

def schema : SchemaIdentity := ⟨"test-command-input", 1⟩

def proposalPayload : Json :=
  .obj [("schemaName", .str "test-command-input"), ("schemaVersion", .ofNat 1),
    ("amount", .str "20.00")]

def makerArtifactPayload : Json :=
  .obj [("schemaName", .str "maker-artifact"), ("schemaVersion", .ofNat 1),
    ("outputSchema", .obj [("schemaName", .str "test-command-input"), ("schemaVersion", .ofNat 1)]),
    ("output", proposalPayload),
    ("claims", .arr [.obj [("claimId", .str "test-proposal"),
      ("text", .str "Test proposal is ready."), ("evidenceArtifactIds", .arr [])]]),
    ("assumptions", .arr []), ("uncertainty", .arr [])]

def proposalText : String :=
  "\x7b\"amount\":\"20.00\",\"schemaName\":\"test-command-input\",\"schemaVersion\":1\x7d"

def makerArtifactText : String :=
  "\x7b\"assumptions\":[],\"claims\":[\x7b\"claimId\":\"test-proposal\",\"evidenceArtifactIds\":[],\"text\":\"Test proposal is ready.\"\x7d],\"output\":" ++
    proposalText ++
    ",\"outputSchema\":\x7b\"schemaName\":\"test-command-input\",\"schemaVersion\":1\x7d,\"schemaName\":\"maker-artifact\",\"schemaVersion\":1,\"uncertainty\":[]\x7d"

def proposalHash : ArtifactHash :=
  ⟨"4e41841f7683ab8b53be177f3be3d31ca4698ac700d147c1a134fe8cc5ab0b7f", by decide⟩

/-- The hash of `{"recordId":"record_1"}`. -/
def recordHash : ArtifactHash :=
  ⟨"224444a4cb3f2eef0120684b545f924dc0d9ccf8da6c0a2c92fd79a031e12590", by decide⟩

/-- The canonical texts and hashes of the payloads in use, which differ in their number of fields. -/
def platform : Platform where
  canonicalize
    | .obj [_, _, _] => proposalText
    | .obj [_, _, _, _, _, _, _] => makerArtifactText
    | value => String.ofList (stableJson compare value)
  sha256 text := if text = makerArtifactText then proposalHash else recordHash
  localeCompare := compare
  jsonIn _ := none

def checkedCommand : CheckedCommand where
  commandId := ⟨suffix, by decide⟩
  householdId := householdId
  taskId := taskId
  checkedProposalId := proposalId
  checkedProposalHash := proposalHash
  commandType := "test_command"
  idempotencyKey := ⟨suffix, by decide⟩
  confirmationId := none
  payloadSchema := schema
  payload := proposalPayload
  payload_keyed := by decide

def recordState : Json := .obj [("recordId", .str "record_1")]

def handler : MutationCommandHandler where
  commandType := "test_command"
  domainRole := .accounting
  inputSchemaIdentity := schema
  confirmation := .optional
  inputSchema payload := if payload.isObject then some payload else none
  requiredReadbackChecks := [.row_values, .idempotency_receipt]
  execute input _ :=
    .query .raw ⟨"INSERT INTO test.records (record_id, payload) VALUES ($1, $2)",
      [.str "record_1", input]⟩ fun _ => .done ⟨[⟨"test.record", "record_1"⟩], recordState⟩
  readback _ _ :=
    .query .raw ⟨"SELECT record_id FROM test.records WHERE record_id = $1", [.str "record_1"]⟩
      fun _ => .done ⟨[⟨.row_values, .passed, none⟩], [], recordState⟩

def executor : Executor where
  platform := platform
  registry := ⟨[handler], by decide, by decide⟩
  policy := defaultPolicy

def verdictPayload : Json :=
  .obj [("verdict", .str "accepted"), ("coveredArtifactId", .str proposalId.text),
    ("coveredArtifactHash", .str proposalHash.hex), ("findings", .arr [])]

/-- The database `seedCheckedProposal` leaves, with the verdict's own payload. -/
def seeded : Db where
  households := [householdId]
  artifacts :=
    [⟨proposalId, householdId, taskId, .maker_output, ⟨"maker-artifact", 1⟩, proposalHash,
        makerArtifactPayload.jsonb⟩,
      ⟨checkerArtifactId, householdId, taskId, .checker_output, ⟨"checker-verdict", 1⟩, recordHash,
        verdictPayload.jsonb⟩]
  verdicts := [⟨householdId, taskId, checkerArtifactId, proposalId, proposalHash, .accepted⟩]
  confirmations := []
  tasks := [⟨householdId, taskId, .checker_validated, some (proposalId, proposalHash), none, none,
    false, none, 0⟩]
  commands := []
  receipts := []
  readbacks := []
  effects := []
  now := 0

theorem seeded_unexecuted : seeded.Unexecuted := by
  refine ⟨?_, ?_, rfl, rfl⟩ <;> simp [seeded, Db.UniqueCommands]

/-- The next `n` calls of a thread, none of which fails. -/
def steps {ι : Type} (i : ι) (n : Nat) : List (Event ι Choice (Move ι)) :=
  List.replicate n (.call i .normal)

end TestCommand

/-! ## All executions together -/

/-- Thread `i` executes `candidate i` with the dependencies of `exec i`. -/
def executions (exec : ι → Executor) (candidate : ι → CheckedCommand) (i : ι) : Program Verified :=
  CheckedMutationExecutor.execute (exec i) (candidate i)

theorem disciplined_atRest {db : Db} (hdb : db.Unexecuted) :
    (Sys.atRest db : Sys ι).Disciplined := by
  refine ⟨hdb.consistent, ?_, ?_, ?_, ?_, ?_⟩ <;> simp [Sys.atRest]

omit [DecidableEq ι] in
theorem quiet_atRest {db : Db} : Quiet i (Sys.atRest db) := by
  intro tx htx
  simp [Sys.atRest] at htx

theorem executions_ok {jsonIn : String → Option Json} {exec : ι → Executor}
    {candidate : ι → CheckedCommand} {db : Db} (hdb : db.Unexecuted)
    {c : Config ι Call Reply Thrown Verified (Sys ι)}
    (hc : Reachable (Guard.all (mutationSystem ι jsonIn))
      (.initial (Sys.atRest db) (executions exec candidate)) c) :
    (sessionDiscipline ι jsonIn).ConfigOk
      (fun i verified s => s.db.Receipted (candidate i).key verified.receipt)
      (fun _ _ _ => True) c := by
  refine Discipline.run (P := fun i => Quiet i) (sessionDiscipline_sound ι jsonIn) ?_ ?_ ?_ ?_
    (disciplined_atRest hdb) (fun i => quiet_atRest) (fun i => spec_execute) hc
  · exact fun i verified => lasting_receipted.steady
  · exact fun i error => .pure True
  · exact fun i verified s _ h => h
  · exact fun i error s _ h => h

/-- Exactly-once execution, in every configuration that any interleaving of executions reaches
from a database in which nothing has been executed. -/
theorem execute_exactly_once (jsonIn : String → Option Json) (exec : ι → Executor)
    (candidate : ι → CheckedCommand) (db : Db) (hdb : db.Unexecuted)
    (c : Config ι Call Reply Thrown Verified (Sys ι))
    (hc : Reachable (Guard.all (mutationSystem ι jsonIn))
      (.initial (Sys.atRest db) (executions exec candidate)) c) :
    (∀ key, c.state.db.ExactlyOnce key) ∧
    (∀ c', Step (Guard.all (mutationSystem ι jsonIn)) c c' →
      ∀ key, c.state.db.MovesAlong c'.state.db key) ∧
    (∀ i verified, c.threads i = .finished (.ok verified) →
      c.state.db.Receipted (candidate i).key verified.receipt) := by
  have hok := executions_ok hdb hc
  refine ⟨fun key => hok.1.consistent.exactlyOnce key, fun c' hstep key => ?_,
    fun i verified hi => ?_⟩
  · refine hok.step_rel (T := fun s s' => s.db.MovesAlong s'.db key) hstep ?_ ?_ ?_
    · exact fun i call choice r s hallowed _ hrun =>
        movesAlong_of_call hok.1 hallowed (run_step hrun) key
    · exact fun i => .refl c.state.db key
    · exact fun move s _ hmove => movesAlong_of_env hok.1 hmove key
  · simpa [hi, Discipline.ThreadOk] using hok.2 i

namespace TestCommand

def start (n : Nat) : Config (Fin n) Call Reply Thrown Verified (Sys (Fin n)) :=
  .initial (.atRest seeded) (executions (fun _ => executor) fun _ => checkedCommand)

/-- Thread 1 crashes while its handler is to run; thread 0 then executes the command. -/
def takeover : List (Event (Fin 2) Choice (Move (Fin 2))) :=
  steps 1 16 ++ [.crash 1, .env (.disconnect 1)] ++ steps 0 26 ++
    [.call 0 (.readbackId readbackId)] ++ steps 0 4 ++ [.finish 0]

theorem takeover_verified :
    (((start 2).play (mutationSystem (Fin 2) platform.jsonIn) takeover).bind fun c =>
      (c.threads 0).value?).isSome = true := by
  decide +kernel

theorem execute_exactly_once_takeover :
    ∃ c verified, (start 2).play (mutationSystem (Fin 2) platform.jsonIn) takeover = some c ∧
      c.threads 0 = .finished (.ok verified) ∧
      (∀ key, c.state.db.ExactlyOnce key) ∧
      (∀ c', Step (Guard.all (mutationSystem (Fin 2) platform.jsonIn)) c c' →
        ∀ key, c.state.db.MovesAlong c'.state.db key) ∧
      c.state.db.Receipted checkedCommand.key verified.receipt := by
  obtain ⟨verified, hrun⟩ := Option.isSome_iff_exists.1 takeover_verified
  obtain ⟨c, hc, hverified⟩ := Option.bind_eq_some_iff.1 hrun
  have hfinished := Thread.value?_eq_some.1 hverified
  obtain ⟨honce, hmoves, hreceipt⟩ := execute_exactly_once platform.jsonIn (fun _ => executor)
    (fun _ => checkedCommand) seeded seeded_unexecuted c (.of_play_all hc)
  exact ⟨c, verified, hc, hfinished, honce, hmoves, hreceipt 0 verified hfinished⟩

end TestCommand

end PlusOne
