import PlusOne.Mutations.CallSteps

/-! # Consistency of commands, receipts and effects

The database part of the exactly-once argument: a command has one receipt and one
committed effect once it is settled, and none before. -/

namespace PlusOne

namespace Db

variable {db db' : Db} {key : CommandKey} {tx : Tx}

def receiptsOf (db : Db) (key : CommandKey) : Nat := db.receipts.countP fun row => row.key == key

/-- How often the effects of a handler call for the command under `key` have been committed. -/
def effectsOf (db : Db) (key : CommandKey) : Nat := db.effects.countP fun row => row.key == key

def settledCount (db : Db) (key : CommandKey) : Nat :=
  if (db.findCommand key).any fun row => row.status.settled then 1 else 0

structure Consistent (db : Db) : Prop where
  unique : db.UniqueCommands
  receipts : ∀ key, db.receiptsOf key = db.settledCount key
  effects : ∀ key, db.effectsOf key = db.settledCount key

theorem settledCount_le (db : Db) (key : CommandKey) : db.settledCount key ≤ 1 := by
  unfold settledCount
  split_ifs <;> omega

theorem settledCount_congr (h : db'.findCommand key = db.findCommand key) :
    db'.settledCount key = db.settledCount key := by rw [settledCount, settledCount, h]

/-- What every later state of a database keeps of an earlier one. -/
structure Extends (db db' : Db) : Prop where
  commands : ∀ key row, db.findCommand key = some row → ∃ row', db'.findCommand key = some row' ∧
    row'.SameIdentity row ∧ Relation.ReflTransGen StatusEdge row.status row'.status
  receipts : ∀ key receipt, db.findReceipt key = some receipt → db'.findReceipt key = some receipt

theorem Extends.refl (db : Db) : db.Extends db :=
  ⟨fun _ row h => ⟨row, h, .refl row, .refl⟩, fun _ _ h => h⟩

theorem Extends.trans {db'' : Db} (h : db.Extends db') (h' : db'.Extends db'') :
    db.Extends db'' := by
  refine ⟨fun key row hrow => ?_, fun key receipt hr => h'.receipts _ _ (h.receipts _ _ hr)⟩
  obtain ⟨row', hrow', hid, hstatus⟩ := h.commands key row hrow
  obtain ⟨row'', hrow'', hid', hstatus'⟩ := h'.commands key row' hrow'
  exact ⟨row'', hrow'', hid.trans hid', hstatus.trans hstatus'⟩

theorem Extends.selectReceipt {receipt : MutationReceipt} (h : db.Extends db')
    (hr : db.selectReceipt key = some receipt) : db'.selectReceipt key = some receipt := by
  simp only [Db.selectReceipt, Option.bind_eq_bind, Option.bind_eq_some_iff] at hr ⊢
  obtain ⟨row, hrow, command, hcommand, hreceipt⟩ := hr
  obtain ⟨command', hcommand', hid, _⟩ := h.commands key command hcommand
  refine ⟨row, h.receipts _ _ hrow, command', hcommand', ?_⟩
  rw [hid]
  exact hreceipt

/-! ## Statements of the operations pool -/

section Pool

variable {free : CommandKey → Prop}

theorem settled_of_edge {old new : CommandStatus} (h : StatusEdge old new)
    (hcommitted : new ≠ .committed) : new.settled = old.settled := by
  cases h <;> first | rfl | contradiction

theorem CommandsStep.settledCount (h : CommandsStep free db db') (key : CommandKey) :
    db'.settledCount key = db.settledCount key := by
  unfold Db.settledCount
  cases hold : db.findCommand key with
  | none =>
    cases hnew : db'.findCommand key with
    | none => rfl
    | some row => simp [h.find_new hold hnew, CommandStatus.settled]
  | some row =>
    obtain ⟨row', hrow', _, rfl | ⟨hedge, hcommitted⟩⟩ := h.find_some hold
    · rw [hrow']
    · simp [hrow', settled_of_edge hedge hcommitted]

theorem CommandsStep.consistent (h : CommandsStep free db db')
    (hreceipts : db'.receipts = db.receipts) (heffects : db'.effects = db.effects)
    (hdb : db.Consistent) : db'.Consistent where
  unique := h.unique hdb.unique
  receipts key := by rw [receiptsOf, hreceipts, h.settledCount]; exact hdb.receipts key
  effects key := by rw [effectsOf, heffects, h.settledCount]; exact hdb.effects key

theorem CommandsStep.extends (h : CommandsStep free db db')
    (hreceipts : db'.receipts = db.receipts) : db.Extends db' := by
  refine ⟨fun key row hrow => ?_, fun key receipt hr => by rwa [findReceipt, hreceipts]⟩
  obtain ⟨row', hrow', hid, rfl | ⟨hedge, _⟩⟩ := h.find_some hrow
  · exact ⟨row', hrow', hid, .refl⟩
  · exact ⟨row', hrow', hid, .single hedge⟩

end Pool

/-! ## Commits -/

theorem key_committedRow (db : Db) (tx : Tx) (row : CommandRow) :
    (db.committedRow tx row).key = row.key := by
  unfold committedRow
  split_ifs <;> rfl

theorem findCommand_commitTx (db : Db) (tx : Tx) (key : CommandKey) :
    (db.commitTx tx).findCommand key = (db.findCommand key).map (db.committedRow tx) := by
  unfold findCommand commitTx
  simp only
  induction db.commands with
  | nil => rfl
  | cons row rows ih =>
    have hkey := key_committedRow db tx row
    rw [List.map_cons]
    by_cases hrow : row.key = key
    · rw [List.find?_cons_of_pos (by simp [hkey, hrow]), List.find?_cons_of_pos (by simp [hrow])]
      rfl
    · rw [List.find?_cons_of_neg (by simp [hkey, hrow]), List.find?_cons_of_neg (by simp [hrow])]
      exact ih

end Db

/-- A transaction that may commit: one handler call and the receipt of its command. -/
def Tx.CompleteFor (tx : Tx) (receipt : ReceiptRow) : Prop :=
  tx.executed = [receipt.key] ∧ tx.receipts = [receipt]

def Tx.Complete (tx : Tx) : Prop := ∃ receipt, tx.CompleteFor receipt

/-- The rows a transaction claimed are as its snapshot has them, and the commands its handler
ran for are among them and still pending. -/
structure TxOk (db : Db) (tx : Tx) : Prop where
  current : ∀ key ∈ tx.claimed, ∃ snapshot row, tx.snapshot = some snapshot ∧
    snapshot.findCommand key = some row ∧ db.findCommand key = some row
  executed : ∀ key ∈ tx.executed, key ∈ tx.claimed ∧
    ∀ row, db.findCommand key = some row → row.status = .execution_pending

theorem TxOk.fresh (db : Db) : TxOk db .fresh := ⟨by simp [Tx.fresh], by simp [Tx.fresh]⟩

theorem TxOk.congr {db db' : Db} {tx : Tx} (h : TxOk db tx)
    (hfind : ∀ key ∈ tx.claimed, db'.findCommand key = db.findCommand key) : TxOk db' tx := by
  refine ⟨fun key hkey => ?_, fun key hkey => ?_⟩
  · rw [hfind key hkey]
    exact h.current key hkey
  · obtain ⟨hclaimed, hpending⟩ := h.executed key hkey
    exact ⟨hclaimed, fun row hrow => hpending row (by rwa [hfind key hclaimed] at hrow)⟩

theorem TxOk.snapshot_eq {db db' : Db} {tx : Tx} {key : CommandKey} (h : TxOk db tx)
    (hkey : key ∈ tx.claimed) : some (tx.snapshot.getD db') = tx.snapshot := by
  obtain ⟨snapshot, _, hsnapshot, _⟩ := h.current key hkey
  rw [hsnapshot, Option.getD_some]

theorem TxOk.pending {db : Db} {tx : Tx} (h : TxOk db tx) (key : CommandKey)
    (hkey : key ∈ tx.executed) :
    ∃ row, db.findCommand key = some row ∧ row.status = .execution_pending := by
  obtain ⟨hclaimed, hpending⟩ := h.executed key hkey
  obtain ⟨_, row, _, _, hrow⟩ := h.current key hclaimed
  exact ⟨row, hrow, hpending row hrow⟩

namespace Db

variable {db : Db} {tx : Tx} {receipt : ReceiptRow}

theorem findCommand_commitTx_ne {key : CommandKey} (hcomplete : tx.CompleteFor receipt)
    (hkey : receipt.key ≠ key) : (db.commitTx tx).findCommand key = db.findCommand key := by
  rw [findCommand_commitTx]
  cases hrow : db.findCommand key with
  | none => rfl
  | some row =>
    have hrowKey : row.key = key := (findCommand_some hrow).2
    simp [committedRow, hcomplete.2, hrowKey, hkey]

theorem findCommand_commitTx_self {row : CommandRow} (hcomplete : tx.CompleteFor receipt)
    (hrow : db.findCommand receipt.key = some row) :
    (db.commitTx tx).findCommand receipt.key =
      some { row with status := .committed, updatedAt := db.now } := by
  have hrowKey : row.key = receipt.key := (findCommand_some hrow).2
  rw [findCommand_commitTx, hrow]
  simp [committedRow, hcomplete.2, hrowKey]

theorem receiptsOf_commitTx (hcomplete : tx.CompleteFor receipt) (key : CommandKey) :
    (db.commitTx tx).receiptsOf key = db.receiptsOf key + if receipt.key = key then 1 else 0 := by
  simp [receiptsOf, commitTx, hcomplete.2, List.countP_append, List.countP_cons]

theorem effectsOf_commitTx (hcomplete : tx.CompleteFor receipt) (key : CommandKey) :
    (db.commitTx tx).effectsOf key = db.effectsOf key + if receipt.key = key then 1 else 0 := by
  simp [effectsOf, commitTx, hcomplete.1, List.countP_append, List.countP_cons]

theorem settledCount_commitTx (htx : TxOk db tx) (hcomplete : tx.CompleteFor receipt)
    (key : CommandKey) :
    (db.commitTx tx).settledCount key =
      db.settledCount key + if receipt.key = key then 1 else 0 := by
  by_cases hkey : receipt.key = key
  · subst hkey
    obtain ⟨row, hrow, hpending⟩ := htx.pending receipt.key (by simp [hcomplete.1])
    have hbefore : db.settledCount receipt.key = 0 := by
      simp [settledCount, hrow, hpending, CommandStatus.settled]
    rw [hbefore, settledCount, findCommand_commitTx_self hcomplete hrow]
    simp [CommandStatus.settled]
  · rw [settledCount_congr (findCommand_commitTx_ne hcomplete hkey), if_neg hkey, Nat.add_zero]

theorem unique_commitTx (h : db.UniqueCommands) : (db.commitTx tx).UniqueCommands := by
  have hids : (db.commitTx tx).commands.map CommandRow.commandId =
      db.commands.map CommandRow.commandId := by
    simp only [commitTx, List.map_map]
    apply List.map_congr_left
    intro row _
    exact congrArg Prod.snd (key_committedRow db tx row)
  unfold UniqueCommands at *
  rwa [hids]

theorem Consistent.commitTx (h : db.Consistent) (htx : TxOk db tx) (hcomplete : tx.Complete) :
    (db.commitTx tx).Consistent := by
  obtain ⟨receipt, hcomplete⟩ := hcomplete
  refine ⟨unique_commitTx h.unique, fun key => ?_, fun key => ?_⟩
  · rw [receiptsOf_commitTx hcomplete, settledCount_commitTx htx hcomplete, h.receipts]
  · rw [effectsOf_commitTx hcomplete, settledCount_commitTx htx hcomplete, h.effects]

theorem Extends.commitTx (htx : TxOk db tx) (hcomplete : tx.Complete) :
    db.Extends (db.commitTx tx) := by
  obtain ⟨receipt, hcomplete⟩ := hcomplete
  refine ⟨fun key row hrow => ?_, fun key old hold => ?_⟩
  · by_cases hkey : receipt.key = key
    · subst hkey
      obtain ⟨row', hrow', hpending⟩ := htx.pending receipt.key (by simp [hcomplete.1])
      rw [hrow] at hrow'
      cases hrow'
      exact ⟨_, findCommand_commitTx_self hcomplete hrow, rfl, .single (hpending ▸ .committed)⟩
    · exact ⟨row, by rw [findCommand_commitTx_ne hcomplete hkey, hrow], .refl row, .refl⟩
  · simp only [findReceipt, Db.commitTx, List.find?_append] at hold ⊢
    rw [hold, Option.some_or]

/-- What a commit leaves under the key of its receipt. -/
theorem findReceipt_commitTx (h : db.Consistent) (htx : TxOk db tx)
    (hcomplete : tx.CompleteFor receipt) :
    (db.commitTx tx).findReceipt receipt.key = some receipt := by
  obtain ⟨row, hrow, hpending⟩ := htx.pending receipt.key (by simp [hcomplete.1])
  have hnone : db.findReceipt receipt.key = none := by
    have hzero : db.receiptsOf receipt.key = 0 := by
      rw [h.receipts]
      simp [settledCount, hrow, hpending, CommandStatus.settled]
    rw [receiptsOf, List.countP_eq_zero] at hzero
    exact List.find?_eq_none.2 hzero
  simp only [findReceipt, Db.commitTx, hcomplete.2, List.find?_append] at hnone ⊢
  rw [hnone]
  simp

end Db

end PlusOne
