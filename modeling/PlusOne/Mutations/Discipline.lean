import PlusOne.Interleaving.RelyGuarantee
import PlusOne.Mutations.Consistency

/-! # The sessions of the mutation path keep their discipline

The global invariant ties the database to the open transactions through the row
locks. A call is allowed when the caller has claimed the command it runs a handler
for, and commits nothing but one handler call together with its receipt. -/

namespace PlusOne

open Interleaving

variable {ι : Type}

namespace Sys

/-- Commands, receipts and effects agree; open transactions hold the rows they claimed; no two
transactions claim one row. -/
structure Disciplined (s : Sys ι) : Prop where
  consistent : s.db.Consistent
  sessions : ∀ i tx, s.conn i = .active tx → TxOk s.db tx
  held : ∀ i tx, s.conn i = .active tx → ∀ key ∈ tx.claimed, s.locks key = some (.session i)
  travelling : ∀ tx ∈ s.inflight, TxOk s.db tx ∧ tx.Complete
  detached : ∀ tx ∈ s.inflight, ∀ key ∈ tx.claimed, s.locks key = some .detached
  apart : s.inflight.Pairwise fun a b => ∀ key ∈ a.claimed, key ∉ b.claimed

/-- Where a call may be made. -/
def allowed (i : ι) (call : Call) (s : Sys ι) : Prop :=
  match call with
  | .handlerCall _ command => ∀ tx, s.conn i = .active tx → command.key ∈ tx.claimed ∧
      ∀ row, s.db.findCommand command.key = some row → row.status = .execution_pending
  | .commit => ∀ tx, s.conn i = .active tx → tx.Complete
  | _ => True

/-- What thread `i` relies on: only the server may take its session away, and the database grows. -/
structure Rely (i : ι) (s s' : Sys ι) : Prop where
  conn : s'.conn i = s.conn i ∨ s'.conn i = .lost
  db : s.db.Extends s'.db

theorem Rely.refl (i : ι) (s : Sys ι) : Rely i s s := ⟨.inl rfl, .refl s.db⟩

theorem Rely.trans {i : ι} {s s' s'' : Sys ι} (h : Rely i s s') (h' : Rely i s' s'') :
    Rely i s s'' := by
  refine ⟨?_, h.db.trans h'.db⟩
  rcases h'.conn with hconn | hlost
  · rw [hconn]
    exact h.conn
  · exact .inr hlost

variable [DecidableEq ι] {s s' : Sys ι} {i j : ι}

/-! ## Locks -/

variable {key : CommandKey}

theorem free_of_lockedByOther (h : s.lockedByOther i key = false) :
    s.locks key = none ∨ s.locks key = some (.session i) := by
  unfold lockedByOther at h
  cases hlock : s.locks key with
  | none => exact .inl rfl
  | some holder =>
    rw [hlock] at h
    simp only [Option.any_some, bne_eq_false_iff_eq] at h
    rw [h]
    exact .inr rfl

theorem Disciplined.not_held_by {tx : Tx} (h : s.Disciplined) (hij : j ≠ i) (hfree : s.lockedByOther i key = false)
    (htx : s.conn j = .active tx) : key ∉ tx.claimed := by
  intro hkey
  have hlock := h.held j tx htx key hkey
  rcases free_of_lockedByOther hfree with hnone | hself
  · rw [hlock] at hnone
    cases hnone
  · rw [hlock] at hself
    cases hself
    exact hij rfl

theorem Disciplined.not_detached {tx : Tx} (h : s.Disciplined) (hfree : s.lockedByOther i key = false)
    (htx : tx ∈ s.inflight) : key ∉ tx.claimed := by
  intro hkey
  have hlock := h.detached tx htx key hkey
  rcases free_of_lockedByOther hfree with hnone | hself
  · rw [hlock] at hnone
    cases hnone
  · rw [hlock] at hself
    cases hself

omit [DecidableEq ι] in
theorem Disciplined.claims_apart {tx tx' : Tx} (h : s.Disciplined) (hij : j ≠ i) (htx : s.conn i = .active tx)
    (htx' : s.conn j = .active tx') (hkey : key ∈ tx.claimed) : key ∉ tx'.claimed := by
  intro hkey'
  have hlock := h.held i tx htx key hkey
  rw [h.held j tx' htx' key hkey'] at hlock
  cases hlock
  exact hij rfl

omit [DecidableEq ι] in
theorem Disciplined.claims_detached {tx tx' : Tx} (h : s.Disciplined) (htx : s.conn i = .active tx)
    (htx' : tx' ∈ s.inflight) (hkey : key ∈ tx.claimed) :
    key ∉ tx'.claimed := by
  intro hkey'
  have hlock := h.held i tx htx key hkey
  rw [h.detached tx' htx' key hkey'] at hlock
  cases hlock

/-! ## Each step keeps the invariant -/

omit [DecidableEq ι] in
/-- A database in which every claimed row is as it was. -/
theorem Disciplined.of_db (h : s.Disciplined) (hconn : s'.conn = s.conn)
    (hlocks : s'.locks = s.locks) (hinflight : s'.inflight = s.inflight)
    (hdb : s'.db.Consistent)
    (hfind : ∀ key, s.locks key ≠ none → ∀ row, s.db.findCommand key = some row →
      s'.db.findCommand key = some row) : s'.Disciplined := by
  have hkeep : ∀ tx, TxOk s.db tx → (∀ key ∈ tx.claimed, s.locks key ≠ none) → TxOk s'.db tx := by
    intro tx htx hheld
    refine htx.congr fun key hkey => ?_
    obtain ⟨_, row, _, _, hrow⟩ := htx.current key hkey
    rw [hfind key (hheld key hkey) row hrow, hrow]
  refine ⟨hdb, fun i tx htx => ?_, fun i tx htx => ?_, fun tx htx => ?_, fun tx htx => ?_, ?_⟩
  · rw [hconn] at htx
    exact hkeep tx (h.sessions i tx htx) fun key hkey => by simp [h.held i tx htx key hkey]
  · rw [hconn] at htx
    rw [hlocks]
    exact h.held i tx htx
  · rw [hinflight] at htx
    exact ⟨hkeep tx (h.travelling tx htx).1 fun key hkey => by simp [h.detached tx htx key hkey],
      (h.travelling tx htx).2⟩
  · rw [hinflight] at htx
    rw [hlocks]
    exact h.detached tx htx
  · rw [hinflight]
    exact h.apart

omit [DecidableEq ι] in
theorem Disciplined.pool {fails : Bool} (h : s.Disciplined) (hstep : PoolStep fails s s') : s'.Disciplined :=
  h.of_db hstep.conn hstep.locks hstep.inflight
    (hstep.commands.consistent hstep.receipts hstep.effects h.consistent)
    fun _ hheld _ hrow => hstep.commands.find_held hheld hrow

/-- Ending a transaction without a trace. -/
theorem Disciplined.endTx (h : s.Disciplined) {c : Connection} (hc : ∀ tx, c ≠ .active tx) :
    (s.endTx i c).Disciplined := by
  have hother : ∀ j tx, (s.endTx i c).conn j = .active tx → j ≠ i ∧ s.conn j = .active tx := by
    intro j tx htx
    by_cases hj : j = i
    · subst hj
      exact absurd htx (quiet_endTx hc tx)
    · exact ⟨hj, by simpa [Sys.endTx, hj] using htx⟩
  refine ⟨h.consistent, fun j tx htx => h.sessions j tx (hother j tx htx).2, fun j tx htx => ?_,
    h.travelling, fun tx htx key hkey => ?_, h.apart⟩
  · intro key hkey
    obtain ⟨hj, htx⟩ := hother j tx htx
    simp [Sys.endTx, h.held j tx htx key hkey, hj]
  · simp [Sys.endTx, h.detached tx htx key hkey]

/-- A new state of the transaction of thread `i`, on the same database and locks. -/
theorem Disciplined.setTx {tx : Tx} (h : s.Disciplined) (htx : TxOk s.db tx)
    (hheld : ∀ key ∈ tx.claimed, s.locks key = some (.session i)) : (s.setTx i tx).Disciplined := by
  refine ⟨h.consistent, fun j tx' htx' => ?_, fun j tx' htx' => ?_, h.travelling, h.detached,
    h.apart⟩
  · by_cases hj : j = i
    · subst hj
      simp only [Sys.setTx, Function.update_self, Connection.active.injEq] at htx'
      subst htx'
      exact htx
    · exact h.sessions j tx' (by simpa [Sys.setTx, hj] using htx')
  · by_cases hj : j = i
    · subst hj
      simp only [Sys.setTx, Function.update_self, Connection.active.injEq] at htx'
      subst htx'
      exact hheld
    · exact h.held j tx' (by simpa [Sys.setTx, hj] using htx')

/-- Locking a row that nobody else holds. -/
theorem Disciplined.lock (h : s.Disciplined) (hfree : s.lockedByOther i key = false) :
    (s.lock i key).Disciplined := by
  refine ⟨h.consistent, h.sessions, fun j tx htx key' hkey' => ?_, h.travelling,
    fun tx htx key' hkey' => ?_, h.apart⟩
  · by_cases hk : key' = key
    · subst hk
      by_cases hj : j = i
      · simp [Sys.lock, hj]
      · exact absurd hkey' (h.not_held_by hj hfree htx)
    · simpa [Sys.lock, hk] using h.held j tx htx key' hkey'
  · by_cases hk : key' = key
    · subst hk
      exact absurd hkey' (h.not_detached hfree htx)
    · simpa [Sys.lock, hk] using h.detached tx htx key' hkey'

/-- Claiming a row whose current version is the snapshot's. -/
theorem Disciplined.claim {tx tx' : Tx} {row : CommandRow} (h : s.Disciplined) (htx : s.conn i = .active tx)
    (hsnapshot : (tx.snapshot.getD s.db).findCommand key = some row) (hfree : s.lockedByOther i key = false)
    (hcurrent : s.db.findCommand key = some row) (hclaimed : tx'.claimed = key :: tx.claimed)
    (hsnapshot' : tx'.snapshot = some (tx.snapshot.getD s.db)) (hexecuted : tx'.executed = tx.executed) :
    ((s.lock i key).setTx i tx').Disciplined := by
  have hok := h.sessions i tx htx
  refine (h.lock hfree).setTx ⟨fun key' hkey' => ?_, fun key' hkey' => ?_⟩ fun key' hkey' => ?_
  · rw [hclaimed, List.mem_cons] at hkey'
    rcases hkey' with rfl | hkey'
    · exact ⟨_, row, hsnapshot', hsnapshot, hcurrent⟩
    · obtain ⟨snapshot, row', hs, hrow⟩ := hok.current key' hkey'
      exact ⟨snapshot, row', by rw [hsnapshot', hs, Option.getD_some], hrow⟩
  · rw [hexecuted] at hkey'
    obtain ⟨hmem, hpending⟩ := hok.executed key' hkey'
    exact ⟨by rw [hclaimed]; exact List.mem_cons_of_mem _ hmem, hpending⟩
  · rw [hclaimed, List.mem_cons] at hkey'
    by_cases hk : key' = key
    · simp [Sys.lock, hk]
    · simpa [Sys.lock, hk] using h.held i tx htx key' (hkey'.resolve_left hk)

/-- Committing a complete transaction, then ending it. -/
theorem Disciplined.commit {tx : Tx} {c : Connection} (h : s.Disciplined)
    (htx : s.conn i = .active tx) (hcomplete : tx.Complete) (hc : ∀ tx, c ≠ .active tx) :
    ({ s with db := s.db.commitTx tx }.endTx i c).Disciplined := by
  have hok := h.sessions i tx htx
  obtain ⟨receipt, hreceipt⟩ := id hcomplete
  have hclaimed : receipt.key ∈ tx.claimed :=
    (hok.executed receipt.key (by simp [hreceipt.1])).1
  have hkeep : ∀ tx', TxOk s.db tx' → receipt.key ∉ tx'.claimed → TxOk (s.db.commitTx tx) tx' := by
    intro tx' htx' hkey
    exact htx'.congr fun key hmem =>
      Db.findCommand_commitTx_ne hreceipt fun heq => hkey (heq ▸ hmem)
  have hother : ∀ j tx', ({ s with db := s.db.commitTx tx }.endTx i c).conn j = .active tx' →
      j ≠ i ∧ s.conn j = .active tx' := by
    intro j tx' htx'
    by_cases hj : j = i
    · subst hj
      exact absurd htx' (quiet_endTx hc tx')
    · exact ⟨hj, by simpa [Sys.endTx, hj] using htx'⟩
  refine ⟨h.consistent.commitTx hok hcomplete, fun j tx' htx' => ?_, fun j tx' htx' => ?_,
    fun tx' htx' => ?_, fun tx' htx' key hkey => ?_, h.apart⟩
  · obtain ⟨hj, htx'⟩ := hother j tx' htx'
    exact hkeep tx' (h.sessions j tx' htx') (h.claims_apart hj htx htx' hclaimed)
  · intro key hkey
    obtain ⟨hj, htx'⟩ := hother j tx' htx'
    simp [Sys.endTx, h.held j tx' htx' key hkey, hj]
  · exact ⟨hkeep tx' (h.travelling tx' htx').1 (h.claims_detached htx htx' hclaimed),
      (h.travelling tx' htx').2⟩
  · simp [Sys.endTx, h.detached tx' htx' key hkey]

/-- Losing sight of a complete transaction. -/
theorem Disciplined.detach {tx : Tx} (h : s.Disciplined) (htx : s.conn i = .active tx)
    (hcomplete : tx.Complete) : (s.detach i tx).Disciplined := by
  have hother : ∀ j tx', (s.detach i tx).conn j = .active tx' →
      j ≠ i ∧ s.conn j = .active tx' := by
    intro j tx' htx'
    by_cases hj : j = i
    · subst hj
      simp [Sys.detach] at htx'
    · exact ⟨hj, by simpa [Sys.detach, hj] using htx'⟩
  refine ⟨h.consistent, fun j tx' htx' => h.sessions j tx' (hother j tx' htx').2,
    fun j tx' htx' => ?_, fun tx' htx' => ?_, fun tx' htx' => ?_, ?_⟩
  · intro key hkey
    obtain ⟨hj, htx'⟩ := hother j tx' htx'
    simp [Sys.detach, h.held j tx' htx' key hkey, hj]
  · simp only [Sys.detach, List.mem_append, List.mem_singleton] at htx'
    rcases htx' with htx' | rfl
    · exact h.travelling tx' htx'
    · exact ⟨h.sessions i tx' htx, hcomplete⟩
  · intro key hkey
    simp only [Sys.detach, List.mem_append, List.mem_singleton] at htx'
    rcases htx' with htx' | rfl
    · simp [Sys.detach, h.detached tx' htx' key hkey]
    · simp [Sys.detach, h.held i tx' htx key hkey]
  · simp only [Sys.detach, List.pairwise_append, List.pairwise_singleton, List.mem_singleton,
      true_and]
    refine ⟨h.apart, fun a ha b hb key hkey hkey' => ?_⟩
    subst hb
    exact h.claims_detached htx ha hkey' hkey

/-- A COMMIT on its way arrives or is dropped. -/
theorem Disciplined.resolve {n : Nat} {committed : Bool} (h : s.Disciplined)
    (hs : s.resolve n committed = some s') : s'.Disciplined ∧ ∀ j, Rely j s s' := by
  obtain ⟨tx, htx, rfl⟩ := Option.map_eq_some_iff.1 hs
  have hmem : tx ∈ s.inflight := List.mem_of_getElem? htx
  obtain ⟨hok, hcomplete⟩ := h.travelling tx hmem
  obtain ⟨receipt, hreceipt⟩ := id hcomplete
  have hclaimed : receipt.key ∈ tx.claimed :=
    (hok.executed receipt.key (by simp [hreceipt.1])).1
  have hn : n < s.inflight.length := (List.getElem?_eq_some_iff.1 htx).1
  have hget : s.inflight[n] = tx := (List.getElem?_eq_some_iff.1 htx).2
  -- no other transaction claims a row of the one that is resolved
  have hsession : ∀ j tx', s.conn j = .active tx' → ∀ key ∈ tx'.claimed, key ∉ tx.claimed :=
    fun j tx' htx' key hkey => h.claims_detached htx' hmem hkey
  have herase : ∀ tx' ∈ s.inflight.eraseIdx n, tx' ∈ s.inflight ∧
      ∀ key ∈ tx'.claimed, key ∉ tx.claimed := by
    intro tx' htx'
    obtain ⟨m, hm, hmn, rfl⟩ := List.mem_eraseIdx_iff_getElem.1 htx'
    have happart := List.pairwise_iff_getElem.1 h.apart
    refine ⟨List.getElem_mem hm, fun key hkey hkey' => ?_⟩
    rw [← hget] at hkey'
    rcases Nat.lt_or_gt_of_ne hmn with hlt | hgt
    · exact happart m n hm hn hlt key hkey hkey'
    · exact happart n m hn hm hgt key hkey' hkey
  have hkeep : ∀ tx', TxOk s.db tx' → (∀ key ∈ tx'.claimed, key ∉ tx.claimed) →
      TxOk (if committed then s.db.commitTx tx else s.db) tx' := by
    intro tx' htx' hapart
    cases committed
    · exact htx'
    · exact htx'.congr fun key hkey =>
        Db.findCommand_commitTx_ne hreceipt fun heq => hapart key hkey (heq ▸ hclaimed)
  refine ⟨⟨?_, fun j tx' htx' => ?_, fun j tx' htx' key hkey => ?_, fun tx' htx' => ?_,
    fun tx' htx' key hkey => ?_, ?_⟩, fun j => ⟨.inl rfl, ?_⟩⟩
  · cases committed
    · exact h.consistent
    · exact h.consistent.commitTx hok hcomplete
  · exact hkeep tx' (h.sessions j tx' htx') (hsession j tx' htx')
  · simp [hsession j tx' htx' key hkey, h.held j tx' htx' key hkey]
  · obtain ⟨hmem', hapart⟩ := herase tx' htx'
    exact ⟨hkeep tx' (h.travelling tx' hmem').1 hapart, (h.travelling tx' hmem').2⟩
  · obtain ⟨hmem', hapart⟩ := herase tx' htx'
    simp [hapart key hkey, h.detached tx' hmem' key hkey]
  · exact h.apart.sublist (List.eraseIdx_sublist _ _)
  · cases committed
    · exact .refl s.db
    · exact .commitTx hok hcomplete

/-- One allowed call keeps the invariant. -/
theorem Disciplined.call {call : Call} (h : s.Disciplined) (hallowed : allowed i call s)
    (hstep : CallStep s i call s') : s'.Disciplined := by
  cases hstep with
  | pool hpool => exact h.pool hpool
  | ended c hc => exact h.endTx hc
  | opened hquiet => exact h.setTx (.fresh s.db) (by simp [Tx.fresh])
  | looked tx statements htx =>
    have hok := h.sessions i tx htx
    refine h.setTx ⟨fun key hkey => ?_, hok.executed⟩ (h.held i tx htx)
    rw [hok.snapshot_eq hkey]
    exact hok.current key hkey
  | claimed tx key row htx hsnapshot hstatus hfree hcurrent =>
    exact h.claim htx hsnapshot hfree hcurrent rfl rfl rfl
  | @executed handler command tx htx =>
    have hok := h.sessions i tx htx
    refine h.setTx ⟨hok.current, fun key hkey => ?_⟩ (h.held i tx htx)
    rcases List.mem_append.1 hkey with hkey | hkey
    · exact hok.executed key hkey
    · rw [List.mem_singleton.1 hkey]
      exact hallowed tx htx
  | receipted tx row receipt htx hsnapshot hstatus hfree hcurrent hkey =>
    exact h.claim htx hsnapshot hfree hcurrent rfl rfl rfl
  | committed tx c htx hc => exact h.commit htx (hallowed tx htx) hc
  | detached tx htx => exact h.detach htx (hallowed tx htx)

/-- One allowed call is something every other thread can rely on. -/
theorem Rely.of_call {call : Call} (h : s.Disciplined) (hallowed : allowed i call s)
    (hstep : CallStep s i call s') (hij : i ≠ j) : Rely j s s' := by
  have hself : ∀ c : Connection, Function.update s.conn i c j = s.conn j :=
    fun c => Function.update_of_ne hij.symm c s.conn
  cases hstep with
  | pool hpool =>
    exact ⟨.inl (by rw [hpool.conn]), hpool.commands.extends hpool.receipts⟩
  | ended c hc => exact ⟨.inl (hself c), .refl s.db⟩
  | opened hquiet => exact ⟨.inl (hself _), .refl s.db⟩
  | looked tx statements htx => exact ⟨.inl (hself _), .refl s.db⟩
  | claimed tx key row htx hsnapshot hstatus hfree hcurrent => exact ⟨.inl (hself _), .refl s.db⟩
  | executed tx htx => exact ⟨.inl (hself _), .refl s.db⟩
  | receipted tx row receipt htx hsnapshot hstatus hfree hcurrent hkey =>
    exact ⟨.inl (hself _), .refl s.db⟩
  | committed tx c htx hc =>
    exact ⟨.inl (hself c), .commitTx (h.sessions i tx htx) (hallowed tx htx)⟩
  | detached tx htx => exact ⟨.inl (hself _), .refl s.db⟩

/-! ## Outside moves -/

theorem poolStep_of_onDb {db : Option Db} (h : s.onDb db = some s')
    (hcommands : ∀ db', db = some db' → db'.commands = s.db.commands ∧
      db'.receipts = s.db.receipts ∧ db'.effects = s.db.effects) : PoolStep false s s' := by
  obtain ⟨db', hdb, rfl⟩ := Option.map_eq_some_iff.1 h
  obtain ⟨hc, hr, he⟩ := hcommands db' hdb
  exact .of_db hr he (.same hc) fun _ => .same hc

theorem env_step {move : Move ι} (h : s.env move = some s') :
    PoolStep false s s' ∨ (∃ j, s' = s.sever j) ∨ ∃ n committed, s.resolve n committed = some s' := by
  cases move with
  | disconnect j =>
    cases h
    exact .inr (.inl ⟨j, rfl⟩)
  | resolve n committed => exact .inr (.inr ⟨n, committed, h⟩)
  | tick milliseconds =>
    refine .inl (poolStep_of_onDb h fun db' hdb => ?_)
    cases hdb
    exact ⟨rfl, rfl, rfl⟩
  | createHousehold householdId =>
    refine .inl (poolStep_of_onDb h fun db' hdb => ?_)
    split_ifs at hdb
    cases hdb
    exact ⟨rfl, rfl, rfl⟩
  | createTask householdId taskId =>
    refine .inl (poolStep_of_onDb h fun db' hdb => ?_)
    unfold Db.createTask at hdb
    split_ifs at hdb
    cases hdb
    exact ⟨rfl, rfl, rfl⟩
  | transitionTask input =>
    simp only [env] at h
    split at h
    · rename_i hdone
      refine .inl (poolStep_of_onDb h fun db' hdb => ?_)
      cases hdb
      rcases Db.transition_ok hdone with ⟨_, rfl, _⟩ | ⟨_, _, _, _, rfl⟩ | ⟨_, _, _, _, rfl⟩ <;>
        exact ⟨rfl, rfl, rfl⟩
    · cases h
  | linkMakerArtifact householdId taskId artifactId artifactHash =>
    refine .inl (poolStep_of_onDb h fun db' hdb => ?_)
    unfold Db.linkMakerArtifact at hdb
    split at hdb
    · split_ifs at hdb
      cases hdb
      exact ⟨rfl, rfl, rfl⟩
    · cases hdb
  | saveArtifact artifact =>
    refine .inl (poolStep_of_onDb h fun db' hdb => ?_)
    unfold Db.saveArtifact at hdb
    split_ifs at hdb
    cases hdb
    exact ⟨rfl, rfl, rfl⟩
  | recordCheckerVerdict householdId taskId checkerArtifactId verdict =>
    refine .inl (poolStep_of_onDb h fun db' hdb => ?_)
    obtain ⟨_, linked, _, _, _, _, rfl | ⟨_, rfl⟩⟩ := Db.recordCheckerVerdict_some hdb <;>
      exact ⟨rfl, rfl, rfl⟩
  | recordConfirmation row =>
    refine .inl (poolStep_of_onDb h fun db' hdb => ?_)
    unfold Db.recordConfirmation at hdb
    split_ifs at hdb
    cases hdb
    exact ⟨rfl, rfl, rfl⟩

theorem Disciplined.env {move : Move ι} (h : s.Disciplined) (hmove : s.env move = some s') :
    s'.Disciplined ∧ ∀ j, Rely j s s' := by
  rcases env_step hmove with hpool | ⟨j, rfl⟩ | ⟨n, committed, hresolve⟩
  · exact ⟨h.pool hpool, fun i => ⟨.inl (by rw [hpool.conn]), hpool.commands.extends hpool.receipts⟩⟩
  · refine ⟨h.endTx (by simp), fun i => ⟨?_, .refl s.db⟩⟩
    by_cases hij : i = j
    · exact .inr (by simp [Sys.sever, Sys.endTx, hij])
    · exact .inl (by simp [Sys.sever, Sys.endTx, hij])
  · exact h.resolve hresolve

theorem Disciplined.leave (h : s.Disciplined) (i : ι) : (Sys.leave i s).Disciplined :=
  h.of_db rfl rfl rfl h.consistent fun _ _ _ hrow => hrow

end Sys

/-- The discipline of the mutation path, in every environment. -/
def sessionDiscipline (ι : Type) [DecidableEq ι] (jsonIn : String → Option Json) :
    Discipline (mutationSystem ι jsonIn) (Guard.all _) where
  Inv := Sys.Disciplined
  rely := Sys.Rely
  allowed := Sys.allowed
  rely_refl := Sys.Rely.refl
  rely_trans := Sys.Rely.trans

theorem sessionDiscipline_sound (ι : Type) [DecidableEq ι] (jsonIn : String → Option Json) :
    (sessionDiscipline ι jsonIn).Sound where
  inv_call hInv hallowed _ hrun := hInv.call hallowed (Sys.run_step hrun)
  rely_call hInv hallowed _ hrun hij := .of_call hInv hallowed (Sys.run_step hrun) hij
  inv_env hInv _ henv := (Sys.Disciplined.env hInv henv).1
  rely_env hInv _ henv := (Sys.Disciplined.env hInv henv).2 _
  inv_leave hInv := Sys.Disciplined.leave hInv _
  rely_leave _ _ := ⟨.inl rfl, .refl _⟩

/-! ## More demands on the same sessions -/

section More

variable [DecidableEq ι] {jsonIn : String → Option Json}

/-- The same sessions in runs that meet `G`, with calls that also meet `A`. -/
def sessionWith (G : Guard (mutationSystem ι jsonIn)) (A : ι → Call → Sys ι → Prop) :
    Discipline (mutationSystem ι jsonIn) G :=
  { sessionDiscipline ι jsonIn with
    allowed := fun i call s => Sys.allowed i call s ∧ A i call s }

/-- What remains to be shown of a program for `A`; that its calls are allowed is assumed. -/
def sessionUnder (G : Guard (mutationSystem ι jsonIn)) (A : ι → Call → Sys ι → Prop) :
    Discipline (mutationSystem ι jsonIn) (G.assuming Sys.allowed) :=
  { sessionDiscipline ι jsonIn with allowed := A }

variable {G G' : Guard (mutationSystem ι jsonIn)} {A A' : ι → Call → Sys ι → Prop} {i : ι}
variable {α : Type}

theorem sessionWith_sound : (sessionWith G A).Sound where
  inv_call hInv hallowed _ hrun :=
    (sessionDiscipline_sound ι jsonIn).inv_call hInv hallowed.1 trivial hrun
  rely_call hInv hallowed _ hrun hij :=
    (sessionDiscipline_sound ι jsonIn).rely_call hInv hallowed.1 trivial hrun hij
  inv_env hInv _ henv := (sessionDiscipline_sound ι jsonIn).inv_env hInv trivial henv
  rely_env hInv _ henv := (sessionDiscipline_sound ι jsonIn).rely_env hInv trivial henv
  inv_leave := (sessionDiscipline_sound ι jsonIn).inv_leave
  rely_leave := (sessionDiscipline_sound ι jsonIn).rely_leave

/-- What a thread keeps to everywhere and what it keeps to under `G` together, in runs that meet
`G` wherever this thread is concerned. -/
theorem sessionWith_triple {P : Sys ι → Prop} {p : Prog Call Reply Thrown α}
    {Q Q' : α → Sys ι → Prop} {E E' : Thrown → Sys ι → Prop}
    (hG : ∀ call choice s, G'.call i call choice s → G.call i call choice s)
    (hA : ∀ call s, A i call s → A' i call s)
    (h : (sessionDiscipline ι jsonIn).Triple i P p Q E)
    (h' : (sessionUnder G A).Triple i P p Q' E') :
    (sessionWith G' A').Triple i P p (fun a s => Q a s ∧ Q' a s) (fun e s => E e s ∧ E' e s) := by
  refine Discipline.Triple.combine ?_ ?_ ?_ ?_ h h'
  · exact fun _ hs => ⟨hs, hs⟩
  · exact fun _ _ hr => ⟨hr, hr⟩
  · exact fun call s _ ha ha' => ⟨ha, hA call s ha'⟩
  · exact fun call choice s ha _ hcall => ⟨trivial, hG call choice s hcall, ha⟩

end More

end PlusOne
