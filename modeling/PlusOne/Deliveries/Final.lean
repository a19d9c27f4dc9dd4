import PlusOne.Deliveries.AtMostOnce

/-! # Delivered is final

Neither mark looks at the stored status, so a delivered record stays as it is only where
nobody is left to mark it again: no other call under way has the record, no unfinished
statement marks it, and the caller of the mark gets to know of it. -/

namespace PlusOne

open Interleaving

/-! ## What a statement leaves of the records -/

/-- The records that a statement writes. -/
def DeliveryStatement.marks : DeliveryStatement → DeliveryRow → Bool
  | .insertDelivery _, _ | .findByIdempotency _, _ => false
  | .markDelivered householdId deliveryId _, row
  | .markDeliveryFailed householdId deliveryId _ _, row =>
    row.householdId == householdId && row.deliveryId == deliveryId

theorem DeliveryStatement.marks_congr {row row' : DeliveryRow} (hkey : row'.key = row.key)
    (hid : row'.deliveryId = row.deliveryId) (statement : DeliveryStatement) :
    statement.marks row' = statement.marks row := by
  have hhousehold : row'.householdId = row.householdId := congrArg Prod.fst hkey
  cases statement <;> simp [marks, hhousehold, hid]

namespace DeliveryDb

variable {db db' : DeliveryDb} {statement : DeliveryStatement} {answer : Option DeliveryRow}

/-- The unique constraints of the table. -/
structure Unique (db : DeliveryDb) : Prop where
  keys : (db.rows.map DeliveryRow.key).Nodup
  deliveryIds : (db.rows.map DeliveryRow.deliveryId).Nodup

theorem Unique.eq_of_key (h : db.Unique) {row row' : DeliveryRow} (hrow : row ∈ db.rows)
    (hrow' : row' ∈ db.rows) (hkey : row.key = row'.key) : row = row' :=
  List.inj_on_of_nodup_map h.keys hrow hrow' hkey

theorem Unique.eq_of_deliveryId (h : db.Unique) {row row' : DeliveryRow} (hrow : row ∈ db.rows)
    (hrow' : row' ∈ db.rows) (hid : row.deliveryId = row'.deliveryId) : row = row' :=
  List.inj_on_of_nodup_map h.deliveryIds hrow hrow' hid

variable {row : DeliveryRow}

theorem find_mem {key : DeliveryKey} (h : db.findByIdempotency key = some row) :
    row ∈ db.rows ∧ row.key = key := by
  have hkey : (row.key == key) = true := by simpa using List.find?_some h
  exact ⟨List.mem_of_find?_eq_some h, beq_iff_eq.1 hkey⟩

theorem Unique.find_key (h : db.Unique) (hrow : row ∈ db.rows) :
    db.findByIdempotency row.key = some row := by
  cases hfind : db.findByIdempotency row.key with
  | none =>
    have hnone := List.find?_eq_none.1 hfind row hrow
    simp at hnone
  | some found =>
    obtain ⟨hmem, hkey⟩ := find_mem hfind
    rw [h.eq_of_key hmem hrow hkey]

/-- A statement leaves the table alone, adds a record still to be sent, or assigns the records it
marks. -/
theorem perform_rows (h : statement.perform db = .ok (answer, db')) :
    db'.rows = db.rows ∨
    (∃ row : DeliveryRow, db'.rows = db.rows ++ [row] ∧ row.status = .pending ∧
      ∀ old ∈ db.rows, old.key ≠ row.key ∧ old.deliveryId ≠ row.deliveryId) ∨
    ∃ assigned : DeliveryRow → DeliveryRow,
      db'.rows = db.rows.map (fun row => if statement.marks row then assigned row else row) ∧
      ∀ row, (assigned row).key = row.key ∧ (assigned row).deliveryId = row.deliveryId ∧
        ((assigned row).status = .delivered →
          ∃ householdId deliveryId platformMessageId,
            statement = .markDelivered householdId deliveryId platformMessageId) := by
  cases statement with
  | insertDelivery input =>
    simp only [DeliveryStatement.perform, insertDelivery] at h
    split_ifs at h with hconversation hkey hid <;> cases h
    · exact .inl rfl
    · exact .inl rfl
    · have hfresh : ∀ old ∈ db.rows, old.key ≠ (db.reservedRow input).key ∧
          old.deliveryId ≠ (db.reservedRow input).deliveryId := by
        intro old hold
        have hkey' : ¬(old.key == input.key) = true := fun h => hkey (List.any_eq_true.2 ⟨old, hold, h⟩)
        have hid' : ¬(old.deliveryId == input.deliveryId) = true :=
          fun h => hid (List.any_eq_true.2 ⟨old, hold, h⟩)
        simp only [beq_iff_eq] at hkey' hid'
        exact ⟨hkey', hid'⟩
      exact .inr (.inl ⟨db.reservedRow input, rfl, rfl, hfresh⟩)
  | findByIdempotency key =>
    cases h
    exact .inl rfl
  | markDelivered householdId deliveryId platformMessageId =>
    cases h
    exact .inr (.inr ⟨_, rfl, fun row => ⟨rfl, rfl, fun _ => ⟨_, _, _, rfl⟩⟩⟩)
  | markDeliveryFailed householdId deliveryId status failureCategory =>
    cases h
    have hstatus : status.status ≠ .delivered := by
      cases status <;> simp [FailedStatus.status]
    exact .inr (.inr ⟨_, rfl, fun row => ⟨rfl, rfl, fun h => absurd h hstatus⟩⟩)

theorem Unique.perform (hdb : db.Unique) (h : statement.perform db = .ok (answer, db')) :
    db'.Unique := by
  rcases perform_rows h with hsame | ⟨row, hrows, _, hfresh⟩ | ⟨assigned, hrows, hassigned⟩
  · exact ⟨hsame ▸ hdb.keys, hsame ▸ hdb.deliveryIds⟩
  · have hkey : row.key ∉ db.rows.map DeliveryRow.key := by
      intro hmem
      obtain ⟨old, hold, heq⟩ := List.mem_map.1 hmem
      exact (hfresh old hold).1 heq
    have hid : row.deliveryId ∉ db.rows.map DeliveryRow.deliveryId := by
      intro hmem
      obtain ⟨old, hold, heq⟩ := List.mem_map.1 hmem
      exact (hfresh old hold).2 heq
    constructor
    · rw [hrows, List.map_append, List.map_singleton, ← List.concat_eq_append]
      exact hdb.keys.concat hkey
    · rw [hrows, List.map_append, List.map_singleton, ← List.concat_eq_append]
      exact hdb.deliveryIds.concat hid
  · have hkeys : db'.rows.map DeliveryRow.key = db.rows.map DeliveryRow.key := by
      rw [hrows, List.map_map]
      apply List.map_congr_left
      intro row _
      simp only [Function.comp_apply]
      split_ifs
      · exact (hassigned row).1
      · rfl
    have hids : db'.rows.map DeliveryRow.deliveryId = db.rows.map DeliveryRow.deliveryId := by
      rw [hrows, List.map_map]
      apply List.map_congr_left
      intro row _
      simp only [Function.comp_apply]
      split_ifs
      · exact (hassigned row).2.1
      · rfl
    exact ⟨hkeys ▸ hdb.keys, hids ▸ hdb.deliveryIds⟩

theorem mem_perform (h : statement.perform db = .ok (answer, db')) (hrow : row ∈ db.rows)
    (hmarks : statement.marks row = false) : row ∈ db'.rows := by
  rcases perform_rows h with hsame | ⟨_, hrows, _, _⟩ | ⟨assigned, hrows, _⟩
  · exact hsame ▸ hrow
  · rw [hrows]
    exact List.mem_append_left _ hrow
  · rw [hrows]
    have hkept : (if statement.marks row then assigned row else row) = row := by simp [hmarks]
    exact List.mem_map.2 ⟨row, hrow, hkept⟩

/-- Every record keeps its identity. -/
theorem identity_perform (h : statement.perform db = .ok (answer, db')) (hrow : row ∈ db.rows) :
    ∃ row' ∈ db'.rows, row'.deliveryId = row.deliveryId ∧ row'.key = row.key := by
  rcases perform_rows h with hsame | ⟨_, hrows, _, _⟩ | ⟨assigned, hrows, hassigned⟩
  · exact ⟨row, hsame ▸ hrow, rfl, rfl⟩
  · exact ⟨row, hrows ▸ List.mem_append_left _ hrow, rfl, rfl⟩
  · have hmem : (if statement.marks row then assigned row else row) ∈ db'.rows := by
      rw [hrows]
      exact List.mem_map_of_mem hrow
    by_cases hmarks : statement.marks row = true
    · rw [if_pos hmarks] at hmem
      exact ⟨assigned row, hmem, (hassigned row).2.1, (hassigned row).1⟩
    · rw [if_neg hmarks] at hmem
      exact ⟨row, hmem, rfl, rfl⟩

/-- Only `markDelivered` makes a record delivered. -/
theorem delivered_perform (h : statement.perform db = .ok (answer, db')) {row' : DeliveryRow}
    (hrow' : row' ∈ db'.rows) (hdelivered : row'.status = .delivered) :
    row' ∈ db.rows ∨ ∃ row ∈ db.rows, row'.key = row.key ∧ row'.deliveryId = row.deliveryId ∧
      statement.marks row = true ∧ ∃ householdId deliveryId platformMessageId,
        statement = .markDelivered householdId deliveryId platformMessageId := by
  rcases perform_rows h with hsame | ⟨new, hrows, hpending, _⟩ | ⟨assigned, hrows, hassigned⟩
  · exact .inl (hsame ▸ hrow')
  · rw [hrows] at hrow'
    rcases List.mem_append.1 hrow' with hold | hnew
    · exact .inl hold
    · rw [List.mem_singleton.1 hnew, hpending] at hdelivered
      cases hdelivered
  · rw [hrows] at hrow'
    obtain ⟨row, hrow, rfl⟩ := List.mem_map.1 hrow'
    by_cases hmarks : statement.marks row = true
    · rw [if_pos hmarks] at hdelivered ⊢
      obtain ⟨hkey, hid, hby⟩ := hassigned row
      exact .inr ⟨row, hrow, hkey, hid, hmarks, hby hdelivered⟩
    · rw [if_neg hmarks]
      exact .inl hrow

/-- The record that a reserving statement answers with. -/
theorem reserves_perform {key : DeliveryKey} (hreserves : statement.reserves = some key)
    (h : statement.perform db = .ok (some row, db')) :
    row ∈ db'.rows ∧ row.key = key := by
  cases statement with
  | insertDelivery input =>
    cases hreserves
    simp only [DeliveryStatement.perform, insertDelivery] at h
    split_ifs at h <;> cases h
    exact ⟨List.mem_append_right _ (List.mem_singleton_self _), rfl⟩
  | findByIdempotency other =>
    cases hreserves
    simp only [DeliveryStatement.perform, Except.ok.injEq, Prod.mk.injEq] at h
    obtain ⟨hfind, rfl⟩ := h
    exact find_mem hfind
  | markDelivered | markDeliveryFailed => cases hreserves

end DeliveryDb

/-! ## The discipline -/

/-- The runs in which a record is marked delivered only when nobody is left to mark it again. -/
def markedLast (ι : Type) [DecidableEq ι] : Guard (deliverySystem ι) where
  call i call choice s :=
    ∀ householdId deliveryId platformMessageId ending,
      call = .statement (.markDelivered householdId deliveryId platformMessageId) →
      choice = .statement ending → ending.carried = true → ∀ row ∈ s.store.current.rows,
        row.householdId = householdId → row.deliveryId = deliveryId →
          ending = .answered ∧ lengthBetween 1 512 platformMessageId = true ∧
          (∀ j, (j, row.key) ∈ s.handed → j = i) ∧
          ∀ other ∈ s.store.unfinished, other.marks row = false
  env move s :=
    ∀ n householdId deliveryId platformMessageId, move = .resolve n true →
      s.store.unfinished[n]? = some (.markDelivered householdId deliveryId platformMessageId) →
      ∀ row ∈ s.store.current.rows, row.householdId = householdId → row.deliveryId = deliveryId →
        (∀ j, (j, row.key) ∉ s.handed) ∧
        ∀ other ∈ s.store.unfinished.eraseIdx n, other.marks row = false

/-- The call has the record, and nobody marked it delivered. -/
def Undelivered {ι : Type} (i : ι) (key : DeliveryKey) (s : DeliverySys ι) : Prop :=
  (i, key) ∈ s.handed ∧ ∀ row ∈ s.store.current.rows, row.key = key → row.status ≠ .delivered

/-- The identifier is the one of the key's record. -/
def Identifies {ι : Type} (deliveryId : DeliveryId) (key : DeliveryKey) (s : DeliverySys ι) : Prop :=
  ∃ row ∈ s.store.current.rows, row.deliveryId = deliveryId ∧ row.key = key

/-- No mark is ahead of a delivered record. -/
def NoMarkAhead (db : DeliveryDb) (unfinished : List DeliveryStatement) : Prop :=
  ∀ row ∈ db.rows, row.status = .delivered → ∀ other ∈ unfinished, other.marks row = false

/-- A delivered record has no mark ahead of it, and no call marks one. -/
def finalDiscipline (ι : Type) [DecidableEq ι] : Discipline (deliverySystem ι) (markedLast ι) where
  Inv s := s.store.current.Unique ∧ NoMarkAhead s.store.current s.store.unfinished
  rely i s s' := ∀ key, (Undelivered i key s → Undelivered i key s') ∧
    ∀ deliveryId, Identifies deliveryId key s → Identifies deliveryId key s'
  allowed _ call s := ∀ statement, call = .statement statement →
    ∀ row ∈ s.store.current.rows, row.status = .delivered → statement.marks row = false
  rely_refl := fun _ _ _ => ⟨fun h => h, fun _ h => h⟩
  rely_trans := fun h h' key =>
    ⟨fun hkey => (h' key).1 ((h key).1 hkey), fun id hid => (h' key).2 id ((h key).2 id hid)⟩

namespace DeliverySys

variable {ι : Type} {s s' : DeliverySys ι} {i : ι}

theorem perform_of_store {statement : DeliveryStatement} {db : DeliveryDb}
    {result : Option DeliveryRow × DeliveryDb} (h : deliveryStore.perform statement db = .ok result) :
    statement.perform db = .ok result := by
  simp only [deliveryStore] at h
  cases hperform : statement.perform db with
  | ok result' =>
    rw [hperform] at h
    cases h
    rfl
  | error e =>
    rw [hperform] at h
    cases h

/-- What a call leaves of the store. -/
theorem run_store {call : DeliveryCall} {choice : DeliveryChoice}
    {r : Except DeliveryThrown (DeliveryReply call)} (h : s.run i call choice = some (r, s')) :
    (s'.store.current = s.store.current ∧ s'.store.unfinished = s.store.unfinished) ∨
    (∃ statement, call = .statement statement ∧ s'.store.current = s.store.current ∧
      s'.store.unfinished = s.store.unfinished ++ [statement]) ∨
    ∃ statement ending answer, call = .statement statement ∧ choice = .statement ending ∧
      ending.carried = true ∧ s'.store.unfinished = s.store.unfinished ∧
      statement.perform s.store.current = .ok (answer, s'.store.current) := by
  cases call with
  | statement statement =>
    cases choice with
    | statement ending =>
      obtain ⟨⟨r', store⟩, hstore, heq⟩ := Option.map_eq_some_iff.1 h
      cases heq
      rcases Store.run_some hstore with ⟨hcurrent, hunfinished, _⟩ | ⟨answer, db, hcarried, hok, rfl, _⟩
      · rcases hunfinished with hsame | happend
        · exact .inl ⟨hcurrent, hsame⟩
        · exact .inr (.inl ⟨statement, rfl, hcurrent, happend⟩)
      · exact .inr (.inr ⟨statement, ending, answer, rfl, rfl, hcarried, rfl,
          perform_of_store hok⟩)
    | signal | sent => cases h
  | aborted =>
    cases choice with
    | signal aborted =>
      cases h
      exact .inl ⟨rfl, rfl⟩
    | statement | sent => cases h
  | send key input =>
    cases choice with
    | sent outcome =>
      cases h
      exact .inl ⟨rfl, rfl⟩
    | statement | signal => cases h

/-- What the outside leaves of the store. -/
theorem env_store {move : StoreMove DeliveryMove} (h : s.env move = some s') :
    s'.handed = s.handed ∧
    ((s'.store.current.rows = s.store.current.rows ∧
      ∀ other ∈ s'.store.unfinished, other ∈ s.store.unfinished) ∨
    ∃ n statement answer, move = .resolve n true ∧ s.store.unfinished[n]? = some statement ∧
      s'.store.unfinished = s.store.unfinished.eraseIdx n ∧
      statement.perform s.store.current = .ok (answer, s'.store.current)) := by
  obtain ⟨store, hstore, rfl⟩ := Option.map_eq_some_iff.1 h
  refine ⟨rfl, ?_⟩
  cases move with
  | outside move =>
    obtain ⟨db, hdb, rfl⟩ := Option.map_eq_some_iff.1 hstore
    cases move <;> cases hdb <;> exact .inl ⟨rfl, fun _ h => h⟩
  | resolve n carried =>
    obtain ⟨hunfinished, hcurrent⟩ := Store.resolve_some hstore
    rcases hcurrent with hsame | ⟨statement, answer, rfl, hstatement, hok⟩
    · have hrest : ∀ other ∈ store.unfinished, other ∈ s.store.unfinished := by
        intro other hother
        rw [hunfinished] at hother
        exact List.mem_of_mem_eraseIdx hother
      exact .inl ⟨congrArg DeliveryDb.rows hsame, hrest⟩
    · exact .inr ⟨n, statement, answer, rfl, hstatement, hunfinished, perform_of_store hok⟩

theorem handed_run {call : DeliveryCall} {choice : DeliveryChoice}
    {r : Except DeliveryThrown (DeliveryReply call)} (h : s.run i call choice = some (r, s'))
    {handed : ι × DeliveryKey} (hmem : handed ∈ s.handed) : handed ∈ s'.handed := by
  rcases run_some h with ⟨_, hh⟩ | ⟨_, _, _, _, _, _, hh⟩ | ⟨_, _, _, _, hh⟩
  · exact hh ▸ hmem
  · rw [hh]
    exact List.mem_cons_of_mem _ hmem
  · exact hh ▸ hmem

end DeliverySys

theorem DeliveryStatement.marks_markDelivered {householdId : HouseholdId} {deliveryId : DeliveryId}
    {platformMessageId : String} {row : DeliveryRow} :
    (markDelivered householdId deliveryId platformMessageId).marks row = true ↔
      row.householdId = householdId ∧ row.deliveryId = deliveryId := by
  simp [marks]

section Soundness

variable {ι : Type} {s s' : DeliverySys ι} {i : ι} {key : DeliveryKey}

theorem Undelivered.of_rows (h : Undelivered i key s)
    (hrows : s'.store.current.rows = s.store.current.rows)
    (hhanded : (i, key) ∈ s'.handed) : Undelivered i key s' := by
  have hundelivered := h.2
  rw [← hrows] at hundelivered
  exact ⟨hhanded, hundelivered⟩

variable {statement : DeliveryStatement} {answer : Option DeliveryRow}

/-- A carried statement marks a record of the call only where `markDelivered` meets it. -/
theorem Undelivered.perform (h : Undelivered i key s) (hhanded : (i, key) ∈ s'.handed)
    (hperform : statement.perform s.store.current = .ok (answer, s'.store.current))
    (hfree : ∀ householdId deliveryId platformMessageId,
      statement = .markDelivered householdId deliveryId platformMessageId →
      ∀ row ∈ s.store.current.rows, row.householdId = householdId → row.deliveryId = deliveryId →
        row.key ≠ key) : Undelivered i key s' := by
  refine ⟨hhanded, ?_⟩
  intro row' hrow' hkey hdelivered
  rcases DeliveryDb.delivered_perform hperform hrow' hdelivered with hold |
    ⟨row, hrow, hsame, _, hmarks, householdId, deliveryId, platformMessageId, rfl⟩
  · exact h.2 row' hold hkey hdelivered
  · obtain ⟨hhousehold, hid⟩ := DeliveryStatement.marks_markDelivered.1 hmarks
    exact hfree _ _ _ rfl row hrow hhousehold hid (hsame.symm.trans hkey)

theorem Identifies.of_rows {deliveryId : DeliveryId} (h : Identifies deliveryId key s)
    (hrows : s'.store.current.rows = s.store.current.rows) : Identifies deliveryId key s' := by
  obtain ⟨row, hrow, hid⟩ := h
  exact ⟨row, hrows ▸ hrow, hid⟩

theorem Identifies.perform {deliveryId : DeliveryId} (h : Identifies deliveryId key s)
    (hperform : statement.perform s.store.current = .ok (answer, s'.store.current)) :
    Identifies deliveryId key s' := by
  obtain ⟨row, hrow, hid, hkey⟩ := h
  obtain ⟨row', hrow', hid', hkey'⟩ := DeliveryDb.identity_perform hperform hrow
  exact ⟨row', hrow', hid'.trans hid, hkey'.trans hkey⟩

theorem NoMarkAhead.perform {db db' : DeliveryDb} {unfinished : List DeliveryStatement}
    (h : NoMarkAhead db unfinished) (hperform : statement.perform db = .ok (answer, db'))
    (hfree : ∀ householdId deliveryId platformMessageId,
      statement = .markDelivered householdId deliveryId platformMessageId →
      ∀ row ∈ db.rows, row.householdId = householdId → row.deliveryId = deliveryId →
        ∀ other ∈ unfinished, other.marks row = false) : NoMarkAhead db' unfinished := by
  intro row' hrow' hdelivered other hother
  rcases DeliveryDb.delivered_perform hperform hrow' hdelivered with hold |
    ⟨row, hrow, hkey, hsame, hmarks, householdId, deliveryId, platformMessageId, rfl⟩
  · exact h row' hold hdelivered other hother
  · obtain ⟨hhousehold, hid⟩ := DeliveryStatement.marks_markDelivered.1 hmarks
    rw [DeliveryStatement.marks_congr hkey hsame]
    exact hfree _ _ _ rfl row hrow hhousehold hid other hother

variable [DecidableEq ι]

theorem finalDiscipline_sound : (finalDiscipline ι).Sound where
  inv_call := by
    intro i call choice s r s' hinv hallowed hguard hrun
    obtain ⟨hunique, hahead⟩ := hinv
    rcases DeliverySys.run_store hrun with ⟨hcurrent, hunfinished⟩ |
      ⟨statement, hcall, hcurrent, hunfinished⟩ |
      ⟨statement, ending, answer, hcall, hchoice, hcarried, hunfinished, hperform⟩
    · simp only [finalDiscipline, hcurrent, hunfinished]
      exact ⟨hunique, hahead⟩
    · simp only [finalDiscipline, hcurrent, hunfinished]
      refine ⟨hunique, ?_⟩
      intro row hrow hdelivered other hother
      rcases List.mem_append.1 hother with hold | hlast
      · exact hahead row hrow hdelivered other hold
      · rw [List.mem_singleton.1 hlast]
        exact hallowed statement hcall row hrow hdelivered
    · have hkept : NoMarkAhead s'.store.current s.store.unfinished := by
        apply NoMarkAhead.perform hahead hperform
        intro householdId deliveryId platformMessageId heq row hrow hhousehold hid
        rw [heq] at hcall
        exact (hguard _ _ _ _ hcall hchoice hcarried row hrow hhousehold hid).2.2.2
      simp only [finalDiscipline, hunfinished]
      exact ⟨hunique.perform hperform, hkept⟩
  rely_call := by
    intro i j call choice s r s' hinv hallowed hguard hrun hne key
    rcases DeliverySys.run_store hrun with ⟨hcurrent, _⟩ | ⟨_, _, hcurrent, _⟩ |
      ⟨statement, ending, answer, hcall, hchoice, hcarried, _, hperform⟩
    · have hrows := congrArg DeliveryDb.rows hcurrent
      exact ⟨fun h => h.of_rows hrows (DeliverySys.handed_run hrun h.1), fun _ h => h.of_rows hrows⟩
    · have hrows := congrArg DeliveryDb.rows hcurrent
      exact ⟨fun h => h.of_rows hrows (DeliverySys.handed_run hrun h.1), fun _ h => h.of_rows hrows⟩
    · refine ⟨?_, fun _ h => h.perform hperform⟩
      intro h
      apply h.perform (DeliverySys.handed_run hrun h.1) hperform
      intro householdId deliveryId platformMessageId heq row hrow hhousehold hid hkey
      rw [heq] at hcall
      have hmine := (hguard _ _ _ _ hcall hchoice hcarried row hrow hhousehold hid).2.2.1
      rw [hkey] at hmine
      exact hne (hmine i h.1).symm
  inv_env := by
    intro move s s' hinv hguard henv
    obtain ⟨hunique, hahead⟩ := hinv
    obtain ⟨_, ⟨hrows, hunfinished⟩ | ⟨n, statement, answer, rfl, hstatement, hunfinished, hperform⟩⟩ :=
      DeliverySys.env_store henv
    · refine ⟨⟨hrows ▸ hunique.keys, hrows ▸ hunique.deliveryIds⟩, ?_⟩
      intro row hrow hdelivered other hother
      exact hahead row (hrows ▸ hrow) hdelivered other (hunfinished other hother)
    · have hrest : NoMarkAhead s.store.current (s.store.unfinished.eraseIdx n) :=
        fun row hrow hdelivered other hother =>
          hahead row hrow hdelivered other (List.mem_of_mem_eraseIdx hother)
      have hkept : NoMarkAhead s'.store.current (s.store.unfinished.eraseIdx n) := by
        apply hrest.perform hperform
        intro householdId deliveryId platformMessageId heq row hrow hhousehold hid
        rw [heq] at hstatement
        exact (hguard n _ _ _ rfl hstatement row hrow hhousehold hid).2
      simp only [finalDiscipline, hunfinished]
      exact ⟨hunique.perform hperform, hkept⟩
  rely_env := by
    intro i move s s' hinv hguard henv key
    obtain ⟨hhanded, ⟨hrows, _⟩ | ⟨n, statement, answer, rfl, hstatement, _, hperform⟩⟩ :=
      DeliverySys.env_store henv
    · exact ⟨fun h => h.of_rows hrows (hhanded ▸ h.1), fun _ h => h.of_rows hrows⟩
    · refine ⟨?_, fun _ h => h.perform hperform⟩
      intro h
      apply h.perform (hhanded ▸ h.1) hperform
      intro householdId deliveryId platformMessageId heq row hrow hhousehold hid hkey
      rw [heq] at hstatement
      have hnobody := (hguard n _ _ _ rfl hstatement row hrow hhousehold hid).1
      rw [hkey] at hnobody
      exact hnobody i h.1
  inv_leave := fun hinv => hinv
  rely_leave := by
    intro i j s _ hne key
    refine ⟨?_, fun _ h => h⟩
    intro h
    exact ⟨List.mem_filter.2 ⟨h.1, decide_eq_true hne.symm⟩, h.2⟩

end Soundness

/-! ## The programs -/

section Programs

variable {ι : Type} [DecidableEq ι] {i : ι} {H : DeliveryHandler} {T : TimeFormats}
variable {input : DeliverInput} {key : DeliveryKey} {deliveryId : DeliveryId}

/-- The call has the record of the key, and knows its identifier. -/
def Holding (i : ι) (key : DeliveryKey) (deliveryId : DeliveryId) (s : DeliverySys ι) : Prop :=
  Undelivered i key s ∧ Identifies deliveryId key s

theorem stable_holding : (finalDiscipline ι).Stable i (Holding i key deliveryId) :=
  fun _ _ _ hrely h => ⟨(hrely key).1 h.1, (hrely key).2 deliveryId h.2⟩

theorem Holding.allowed {s : DeliverySys ι} {statement : DeliveryStatement}
    (h : Holding i key deliveryId s) (hunique : s.store.current.Unique)
    (hmarks : ∀ row, statement.marks row = true → row.deliveryId = deliveryId) :
    (finalDiscipline ι).allowed i (.statement statement) s := by
  intro statement' heq row hrow hdelivered
  cases heq
  rw [Bool.eq_false_iff]
  intro hmarked
  obtain ⟨row', hrow', hid, hkey⟩ := h.2
  have hsame : row = row' :=
    hunique.eq_of_deliveryId hrow hrow' ((hmarks row hmarked).trans hid.symm)
  exact h.1.2 row hrow (hsame ▸ hkey) hdelivered

/-- A call that issues no statement. -/
def DeliveryCall.Aside (call : DeliveryCall) : Prop := ∀ statement, call ≠ .statement statement

omit [DecidableEq ι] in
theorem DeliveryCall.Aside.store {call : DeliveryCall} (hcall : call.Aside) {s s' : DeliverySys ι}
    {choice : DeliveryChoice} {r : Except DeliveryThrown (DeliveryReply call)}
    (hrun : s.run i call choice = some (r, s')) : s'.store.current = s.store.current := by
  rcases DeliverySys.run_store hrun with ⟨hcurrent, _⟩ | ⟨statement, heq, _⟩ | ⟨statement, _, _, heq, _⟩
  · exact hcurrent
  · exact absurd heq (hcall statement)
  · exact absurd heq (hcall statement)

theorem holding_triple {α : Type} {p : DeliveryProgram α} (hp : p.Calls DeliveryCall.Aside) :
    (finalDiscipline ι).Triple i (Holding i key deliveryId) p (fun _ => Holding i key deliveryId)
      (fun _ => Holding i key deliveryId) := by
  apply Discipline.Triple.of_calls hp stable_holding
  · intro call hcall s _ _ statement heq
    exact absurd heq (hcall statement)
  · intro call hcall s choice r s' _ hholding _ hrun _
    have hrows := congrArg DeliveryDb.rows (hcall.store hrun)
    exact ⟨hholding.1.of_rows hrows (DeliverySys.handed_run hrun hholding.1.1),
      hholding.2.of_rows hrows⟩

theorem aside_triple {α : Type} {p : DeliveryProgram α} (hp : p.Calls DeliveryCall.Aside) :
    (finalDiscipline ι).Triple i (fun _ => True) p (fun _ _ => True) (fun _ _ => True) :=
  Discipline.Triple.of_calls hp (fun _ _ _ _ _ => trivial)
    (fun _ hcall _ _ _ statement heq => absurd heq (hcall statement))
    (fun _ _ _ _ _ _ _ _ _ _ _ => trivial)

theorem isAborted_aside (signal : Bool) : (isAborted signal).Calls DeliveryCall.Aside := by
  unfold isAborted
  split_ifs
  · exact Prog.Calls.perform (by intro statement h; cases h)
  · exact .ret _

theorem throwIfAborted_aside (signal : Bool) : (throwIfAborted signal).Calls DeliveryCall.Aside := by
  apply (isAborted_aside signal).bind
  intro aborted
  split_ifs
  · exact .throw _
  · exact .ret _

/-- A statement that hands out a record still to be sent hands it to its call. -/
theorem reserving_holding {statement : DeliveryStatement} (hkey : statement.reserves = some key) :
    (finalDiscipline ι).Triple i (fun _ => True) (issueStatement statement)
      (fun answer s => ∀ row, answer = some row → row.status.toBeSent = true →
        row.key = key ∧ Holding i key row.deliveryId s) (fun _ _ => True) := by
  have hallowed : ∀ s, (finalDiscipline ι).allowed i (.statement statement) s := by
    intro s statement' heq row _ _
    cases heq
    cases statement with
    | insertDelivery | findByIdempotency => rfl
    | markDelivered | markDeliveryFailed => cases hkey
  apply Discipline.Triple.perform (fun _ _ _ _ _ => trivial) (fun s _ _ => hallowed s)
  · intro s choice answer s' _ _ _ hrun hinv row hrow hsent
    cases choice with
    | statement ending =>
      obtain ⟨⟨r, store⟩, hstore, heq⟩ := Option.map_eq_some_iff.1 hrun
      cases heq
      rcases Store.run_some hstore with ⟨_, _, e, he⟩ | ⟨answer', db, _, hok, rfl, ha | ⟨e, he⟩⟩
      · cases he
      · cases ha
        subst hrow
        have hhands : statement.hands (.ok (some row)) = some key := by
          simp only [DeliveryStatement.hands, hsent, hkey, if_true]
        obtain ⟨hmem, hrowkey⟩ := DeliveryDb.reserves_perform hkey (DeliverySys.perform_of_store hok)
        have hunique : db.Unique := hinv.1
        refine ⟨hrowkey, ⟨?_, ?_⟩, row, hmem, rfl, hrowkey⟩
        · simp [hhands]
        · intro other hother hotherkey hdelivered
          have hsame : other = row := hunique.eq_of_key hother hmem (hotherkey.trans hrowkey.symm)
          rw [hsame] at hdelivered
          rw [hdelivered] at hsent
          cases hsent
      · cases he
    | signal | sent => cases hrun
  · exact fun _ _ _ _ _ _ _ _ _ => trivial

/-- What a call has of a delivery before it sends. -/
def HoldsDelivery (i : ι) (key : DeliveryKey) (delivery : DeliveryRow) (s : DeliverySys ι) : Prop :=
  lengthBetween 1 512 key.2 = true ∧ Holding i key delivery.deliveryId s

omit [DecidableEq ι] in
theorem DeliveryRow.valid_iff {row : DeliveryRow} :
    row.valid = true ↔ lengthBetween 1 512 row.idempotencyKey = true ∧
      row.platformMessageId.all (lengthBetween 1 512) = true ∧
      row.failureCategory.all (lengthBetween 1 256) = true := by
  simp only [valid, Bool.and_eq_true, and_assoc]

theorem reserved_holding (row : DeliveryRow) :
    (finalDiscipline ι).Triple i
      (fun s => row.status.toBeSent = true → row.key = key ∧ Holding i key row.deliveryId s)
      (deliveryRecord row)
      (fun delivery s => delivery.status.toBeSent = true → HoldsDelivery i key delivery s)
      (fun _ _ => True) := by
  unfold deliveryRecord
  split_ifs with hvalid
  · apply Discipline.Triple.ret
    intro s _ h hsent
    obtain ⟨hkey, hholding⟩ := h hsent
    have hlength := (DeliveryRow.valid_iff.1 hvalid).1
    exact ⟨hkey ▸ hlength, hholding⟩
  · exact Discipline.Triple.throw fun _ _ _ => trivial

theorem reserveDelivery_holding {response : FinalResponse} {idempotencyKey : String} :
    (finalDiscipline ι).Triple i (fun _ => True)
      (reserveDelivery T deliveryId idempotencyKey response)
      (fun delivery s => delivery.status.toBeSent = true →
        HoldsDelivery i (response.householdId, idempotencyKey) delivery s) (fun _ _ => True) := by
  unfold reserveDelivery
  split_ifs
  · apply (reserving_holding rfl).bind
    intro answer
    cases answer with
    | some row => exact (reserved_holding row).pre fun _ _ h => h row rfl
    | none =>
      apply ((reserving_holding rfl).pre fun _ _ _ => trivial).bind
      intro found
      cases found with
      | some row => exact (reserved_holding row).pre fun _ _ h => h row rfl
      | none => exact Discipline.Triple.throw fun _ _ _ => trivial
  · exact Discipline.Triple.throw fun _ _ _ => trivial

omit [DecidableEq ι] in
/-- The record of the key is the one that the mark is answered with. -/
theorem Identifies.markDelivered {s : DeliverySys ι} (h : Identifies deliveryId key s)
    (hunique : s.store.current.Unique) (platformMessageId : String) :
    ∃ row ∈ s.store.current.rows, row.householdId = key.1 ∧ row.deliveryId = deliveryId ∧
      row.idempotencyKey = key.2 ∧
      (s.store.current.markDelivered key.1 deliveryId platformMessageId).1 =
        some { row with
          status := .delivered, platformMessageId := some platformMessageId, failureCategory := none
          attemptCount := row.attemptCount + 1, updatedAt := s.store.current.now } := by
  obtain ⟨row, hrow, hid, hkey⟩ := h
  have hhousehold : row.householdId = key.1 := congrArg Prod.fst hkey
  have hfind : s.store.current.rows.find?
      (fun old => old.householdId == key.1 && old.deliveryId == deliveryId) = some row := by
    cases hfound : s.store.current.rows.find?
        (fun old => old.householdId == key.1 && old.deliveryId == deliveryId) with
    | none =>
      have hnone := List.find?_eq_none.1 hfound row hrow
      simp [hhousehold, hid] at hnone
    | some found =>
      have hmatches := List.find?_some hfound
      simp only [Bool.and_eq_true, beq_iff_eq] at hmatches
      have hmem := List.mem_of_find?_eq_some hfound
      rw [hunique.eq_of_deliveryId hmem hrow (hmatches.2.trans hid.symm)]
  have hanswer := congrArg (Option.map fun old : DeliveryRow => { old with
    status := .delivered, platformMessageId := some platformMessageId, failureCategory := none
    attemptCount := old.attemptCount + 1, updatedAt := s.store.current.now }) hfind
  exact ⟨row, hrow, hhousehold, hid, congrArg Prod.snd hkey, hanswer⟩

/-- A call that is told that its mark did not work still has the record. -/
theorem markDelivered_triple (hlength : lengthBetween 1 512 key.2 = true)
    (platformMessageId : String) :
    (finalDiscipline ι).Triple i (Holding i key deliveryId)
      (markDelivered key.1 deliveryId platformMessageId) (fun _ _ => True)
      (fun _ => Holding i key deliveryId) := by
  apply Discipline.Triple.bind
    (R := fun answer _ => ∃ row, answer = some row ∧ DeliveryRow.valid row = true)
  · apply Discipline.Triple.perform stable_holding
    · intro s hinv hholding
      apply hholding.allowed hinv.1
      intro row hmarks
      exact (DeliveryStatement.marks_markDelivered.1 hmarks).2
    · intro s choice answer s' hinv hholding hguard hrun _
      obtain ⟨row, hrow, hhousehold, hid, hidempotency, hanswer⟩ :=
        hholding.2.markDelivered hinv.1 platformMessageId
      cases choice with
      | statement ending =>
        obtain ⟨⟨r, store⟩, hstore, heq⟩ := Option.map_eq_some_iff.1 hrun
        cases heq
        rcases Store.run_some hstore with ⟨_, _, e, he⟩ | ⟨answer', db, hcarried, hok, _, ha | ⟨e, he⟩⟩
        · cases he
        · cases ha
          obtain ⟨_, hmessage, _⟩ := hguard _ _ _ _ rfl rfl hcarried row hrow hhousehold hid
          have hrows := DeliverySys.perform_of_store hok
          simp only [DeliveryStatement.perform, Except.ok.injEq] at hrows
          have hsome := (congrArg Prod.fst hrows).symm.trans hanswer
          refine ⟨_, hsome, ?_⟩
          rw [DeliveryRow.valid_iff]
          simp [hidempotency, hlength, hmessage]
        · cases he
      | signal | sent => cases hrun
    · intro s choice e s' hinv hholding hguard hrun _
      obtain ⟨row, hrow, hhousehold, hid, _, _⟩ := hholding.2.markDelivered hinv.1 platformMessageId
      cases choice with
      | statement ending =>
        obtain ⟨⟨r, store⟩, hstore, heq⟩ := Option.map_eq_some_iff.1 hrun
        cases heq
        rcases Store.run_some hstore with ⟨hcurrent, _⟩ | ⟨answer, db, hcarried, hok, _, _⟩
        · have hrows := congrArg DeliveryDb.rows hcurrent
          exact ⟨hholding.1.of_rows hrows (List.mem_append_right _ hholding.1.1),
            hholding.2.of_rows hrows⟩
        · obtain ⟨rfl, _⟩ := hguard _ _ _ _ rfl rfl hcarried row hrow hhousehold hid
          simp only [Store.run, hok] at hstore
          cases hstore
      | signal | sent => cases hrun
  · intro answer
    cases answer with
    | none =>
      apply Discipline.Triple.throw
      intro s _ hrow
      obtain ⟨row, hrow, _⟩ := hrow
      cases hrow
    | some row =>
      simp only [deliveryRecord]
      split_ifs with hvalid
      · exact Discipline.Triple.ret fun _ _ _ => trivial
      · apply Discipline.Triple.throw
        intro s _ hrow
        obtain ⟨row', hrow, hvalid'⟩ := hrow
        cases hrow
        exact absurd hvalid' hvalid

theorem markDeliveryFailed_triple (status : FailedStatus) (failureCategory : String) :
    (finalDiscipline ι).Triple i (Holding i key deliveryId)
      (markDeliveryFailed key.1 deliveryId status failureCategory) (fun _ _ => True)
      (fun _ _ => True) := by
  apply Discipline.Triple.bind (R := fun _ _ => True)
  · apply Discipline.Triple.perform stable_holding
    · intro s hinv hholding
      apply hholding.allowed hinv.1
      intro row hmarks
      simp only [DeliveryStatement.marks, Bool.and_eq_true, beq_iff_eq] at hmarks
      exact hmarks.2
    · exact fun _ _ _ _ _ _ _ _ _ => trivial
    · exact fun _ _ _ _ _ _ _ _ _ => trivial
  · intro answer
    cases answer with
    | none => exact Discipline.Triple.throw fun _ _ _ => trivial
    | some row =>
      simp only [deliveryRecord]
      split_ifs
      · exact Discipline.Triple.ret fun _ _ _ => trivial
      · exact Discipline.Triple.throw fun _ _ _ => trivial

namespace FinalDeliveryHandler

theorem sendAndMark_holding (delivery : DeliveryRow)
    (hlength : lengthBetween 1 512 (H.deliveryKey input.response).2 = true) :
    (finalDiscipline ι).Triple i (Holding i (H.deliveryKey input.response) delivery.deliveryId)
      (sendAndMark H input delivery) (fun _ _ => True)
      (fun _ => Holding i (H.deliveryKey input.response) delivery.deliveryId) := by
  have hsend : (Prog.perform (DeliveryCall.send (H.deliveryKey input.response)
      ⟨input.response.body, input.response.delivery.destination, input.response.delivery.format⟩) :
        DeliveryProgram String).Calls DeliveryCall.Aside :=
    Prog.Calls.perform (by intro statement h; cases h)
  apply (holding_triple hsend).bind
  intro platformMessageId
  apply (holding_triple (throwIfAborted_aside input.signal)).bind
  intro _
  apply (markDelivered_triple hlength platformMessageId).bind
  exact fun _ => Discipline.Triple.ret fun _ _ _ => trivial

theorem sendFailed_holding (delivery : DeliveryRow) (sendAttempted : Bool) (error : DeliveryThrown) :
    (finalDiscipline ι).Triple i (Holding i (H.deliveryKey input.response) delivery.deliveryId)
      (sendFailed input delivery sendAttempted error) (fun _ _ => True) (fun _ _ => True) := by
  have hmark : ∀ status failureCategory, (finalDiscipline ι).Triple i
      (Holding i (H.deliveryKey input.response) delivery.deliveryId)
      (markDeliveryFailed input.response.householdId delivery.deliveryId status failureCategory)
      (fun _ _ => True) (fun _ _ => True) :=
    fun status failureCategory => markDeliveryFailed_triple status failureCategory
  apply Discipline.Triple.bind
  · exact (holding_triple (isAborted_aside input.signal)).post (fun _ _ _ h => h)
      fun _ _ _ _ => trivial
  · intro aborted
    cases aborted with
    | false =>
      exact (hmark _ _).bind fun _ => Discipline.Triple.ret fun _ _ _ => trivial
    | true =>
      cases sendAttempted with
      | false => exact Discipline.Triple.throw fun _ _ _ => trivial
      | true =>
        exact (hmark _ _).handle (fun _ => Discipline.Triple.throw fun _ _ _ => trivial)
          fun _ => Discipline.Triple.throw fun _ _ _ => trivial

theorem dispatch_holding (delivery : DeliveryRow) :
    (finalDiscipline ι).Triple i
      (fun s => delivery.status.toBeSent = true →
        HoldsDelivery i (H.deliveryKey input.response) delivery s)
      (dispatch H input delivery) (fun _ _ => True) (fun _ _ => True) := by
  have hattempt : (finalDiscipline ι).Triple i
      (HoldsDelivery i (H.deliveryKey input.response) delivery)
      ((throwIfAborted input.signal).handle
        (fun _ => (sendAndMark H input delivery).tryCatch (sendFailed input delivery true))
        (sendFailed input delivery false)) (fun _ _ => True) (fun _ _ => True) := by
    apply Discipline.Triple.of_pure
    intro hlength
    apply (holding_triple (throwIfAborted_aside input.signal)).handle
    · intro _
      exact (sendAndMark_holding delivery hlength).tryCatch (sendFailed_holding delivery true)
    · exact fun error => sendFailed_holding delivery false error
  unfold dispatch
  cases delivery.status with
  | pending | sending => exact hattempt.pre fun _ _ h => h rfl
  | delivered | failed | ambiguous => exact Discipline.Triple.ret fun _ _ _ => trivial

/-- A call marks only the record that it was handed, and not after it is known to be delivered. -/
theorem deliver_holding : (finalDiscipline ι).Triple i (fun _ => True) (deliver H T input)
    (fun _ _ => True) (fun _ _ => True) := by
  apply (aside_triple (throwIfAborted_aside input.signal)).bind
  intro _
  apply (aside_triple (Prog.Calls.ofExcept _)).bind
  intro processed
  split_ifs
  · exact Discipline.Triple.ret fun _ _ _ => trivial
  apply (aside_triple (throwIfAborted_aside input.signal)).bind
  intro _
  apply reserveDelivery_holding.bind
  intro delivery
  by_cases hsent : delivery.status.toBeSent = true
  · apply Discipline.Triple.bind (R := fun _ => HoldsDelivery i (H.deliveryKey input.response) delivery)
    · have hholds : (finalDiscipline ι).Triple i
          (HoldsDelivery i (H.deliveryKey input.response) delivery) (throwIfAborted input.signal)
          (fun _ => HoldsDelivery i (H.deliveryKey input.response) delivery) (fun _ _ => True) := by
        apply Discipline.Triple.of_pure
        intro hlength
        exact (holding_triple (throwIfAborted_aside input.signal)).post
          (fun _ _ _ h => ⟨hlength, h⟩) fun _ _ _ _ => trivial
      exact hholds.pre fun _ _ h => h hsent
    · exact fun _ => (dispatch_holding delivery).pre fun _ _ h _ => h
  · apply Discipline.Triple.bind (R := fun _ _ => True)
    · exact (aside_triple (throwIfAborted_aside input.signal)).pre fun _ _ _ => trivial
    · exact fun _ => (dispatch_holding delivery).pre fun _ _ _ h => absurd h hsent

end FinalDeliveryHandler

end Programs

/-! ## Runs -/

section Runs

variable {ι : Type} [DecidableEq ι]

theorem DeliveryDb.Unique.find_delivered {db db' : DeliveryDb} {statement : DeliveryStatement}
    {answer : Option DeliveryRow} (hdb : db.Unique) (h : statement.perform db = .ok (answer, db'))
    (hmarks : ∀ row ∈ db.rows, row.status = .delivered → statement.marks row = false)
    {key : DeliveryKey} {row : DeliveryRow} (hfind : db.findByIdempotency key = some row)
    (hdelivered : row.status = .delivered) : db'.findByIdempotency key = some row := by
  obtain ⟨hmem, hkey⟩ := find_mem hfind
  have hkept := mem_perform h hmem (hmarks row hmem hdelivered)
  rw [← hkey]
  exact (hdb.perform h).find_key hkept

/-- The delivered records of the first state are in the second as they were. -/
def KeepsDelivered (s s' : DeliverySys ι) : Prop :=
  ∀ key row, s.store.current.findByIdempotency key = some row → row.status = .delivered →
    s'.store.current.findByIdempotency key = some row

omit [DecidableEq ι] in
theorem KeepsDelivered.of_rows {s s' : DeliverySys ι}
    (h : s'.store.current.rows = s.store.current.rows) : KeepsDelivered s s' := by
  intro key row hfind _
  simp only [DeliveryDb.findByIdempotency, h] at hfind ⊢
  exact hfind

abbrev FinalOk (c : DeliveryConfig ι) : Prop :=
  (finalDiscipline ι).ConfigOk (fun _ _ _ => True) (fun _ _ _ => True) c

variable {c c' : DeliveryConfig ι}

theorem FinalOk.step (hok : FinalOk c) (hstep : Step (markedLast ι) c c') : FinalOk c' :=
  Discipline.ConfigOk.step finalDiscipline_sound (fun _ _ _ _ _ _ _ => trivial)
    (fun _ _ _ _ _ _ _ => trivial) (fun _ _ _ _ _ => trivial) (fun _ _ _ _ _ => trivial) hok hstep

theorem FinalOk.keeps (hok : FinalOk c) (hstep : Step (markedLast ι) c c') : KeepsDelivered c.state c'.state := by
  obtain ⟨hunique, hahead⟩ := hok.1
  apply hok.step_rel hstep
  · intro i call choice r s hallowed _ hrun
    rcases DeliverySys.run_store hrun with ⟨hcurrent, _⟩ | ⟨_, _, hcurrent, _⟩ |
      ⟨statement, _, _, hcall, _, _, _, hperform⟩
    · exact .of_rows (congrArg DeliveryDb.rows hcurrent)
    · exact .of_rows (congrArg DeliveryDb.rows hcurrent)
    · exact fun _ _ => hunique.find_delivered hperform (hallowed statement hcall)
  · exact fun _ => .of_rows rfl
  · intro move s _ henv
    obtain ⟨_, ⟨hrows, _⟩ | ⟨n, statement, _, rfl, hstatement, _, hperform⟩⟩ :=
      DeliverySys.env_store henv
    · exact .of_rows hrows
    · have hmem : statement ∈ c.state.store.unfinished := List.mem_of_getElem? hstatement
      exact fun _ _ => hunique.find_delivered hperform
        fun row hrow hdelivered => hahead row hrow hdelivered statement hmem

theorem FinalOk.run (hok : FinalOk c) (hrun : Reachable (markedLast ι) c c') :
    FinalOk c' ∧ KeepsDelivered c.state c'.state := by
  induction hrun with
  | refl => exact ⟨hok, fun _ _ hfind _ => hfind⟩
  | tail _ hstep ih =>
    obtain ⟨hok', hkeeps⟩ := ih
    have hlast := hok'.keeps hstep
    exact ⟨hok'.step hstep, fun key row hfind hdelivered =>
      hlast key row (hkeeps key row hfind hdelivered) hdelivered⟩

/-- In every run in which a record is marked delivered only when nobody is left to mark it again,
no later step changes a delivered record. -/
theorem delivered_final {H : DeliveryHandler} {T : TimeFormats} {inputs : ι → DeliverInput}
    {db : DeliveryDb} (hdb : db.Unique) {c c' : DeliveryConfig ι}
    (hrun : Reachable (markedLast ι) (startDeliveries H T inputs db) c)
    (hlater : Reachable (markedLast ι) c c') {key : DeliveryKey} {row : DeliveryRow}
    (hrow : c.state.store.current.findByIdempotency key = some row)
    (hdelivered : row.status = .delivered) :
    c'.state.store.current.findByIdempotency key = some row := by
  have hstart : FinalOk (startDeliveries H T inputs db) := by
    refine ⟨⟨hdb, ?_⟩, ?_⟩
    · intro _ _ _ other hother
      cases hother
    · exact fun i => FinalDeliveryHandler.deliver_holding _ ⟨hdb, fun _ _ _ _ h => by cases h⟩ trivial
  have hok : FinalOk c := (hstart.run hrun).1
  exact (hok.run hlater).2 key row hrow hdelivered

end Runs

namespace TestDelivery

open TestInteraction (response times)

/-- The guard of the runs as a test on one call. -/
def marksLast (i : Fin 3) (call : DeliveryCall) (choice : DeliveryChoice) (s : DeliverySys (Fin 3)) :
    Bool :=
  match call, choice with
  | .statement (.markDelivered householdId deliveryId platformMessageId), .statement ending =>
    !ending.carried || s.store.current.rows.all fun row =>
      !(row.householdId == householdId && row.deliveryId == deliveryId) ||
        (ending.heard && lengthBetween 1 512 platformMessageId &&
          s.handed.all (fun handed => handed.2 != row.key || handed.1 == i) &&
          s.store.unfinished.all fun other => !other.marks row)
  | _, _ => true

theorem marksLast_sound (i : Fin 3) (call : DeliveryCall) (choice : DeliveryChoice)
    (s : DeliverySys (Fin 3)) (h : marksLast i call choice s = true) :
    (markedLast (Fin 3)).call i call choice s := by
  intro householdId deliveryId platformMessageId ending hcall hchoice hcarried row hrow hhousehold hid
  subst hcall hchoice
  simp only [marksLast, hcarried, Bool.not_true, Bool.false_or] at h
  have hall := List.all_eq_true.1 h
  have hpass := hall row hrow
  simp only [hhousehold, hid, beq_self_eq_true, Bool.and_self, Bool.not_true, Bool.false_or,
    Bool.and_eq_true, List.all_eq_true] at hpass
  obtain ⟨⟨⟨hheard, hlength⟩, hhanded⟩, hunfinished⟩ := hpass
  refine ⟨?_, hlength, ?_, ?_⟩
  · cases ending with
    | answered => rfl
    | refused | unheard | unfinished => cases hheard
  · intro j hj
    have hmine := hhanded _ hj
    simpa using hmine
  · intro other hother
    have hother' := hunfinished other hother
    simpa using hother'

attribute [local instance] Interleaving.threeThreads in
/-- The first call delivers. -/
def delivering : List (Event (Fin 3) DeliveryChoice (StoreMove DeliveryMove)) :=
  [.call 0 (.statement .answered), .call 0 (.sent (.ok "42")), .call 0 (.statement .answered),
    .finish 0]

attribute [local instance] Interleaving.threeThreads in
/-- The second finds the record delivered. -/
def redelivering : List (Event (Fin 3) DeliveryChoice (StoreMove DeliveryMove)) :=
  [.call 1 (.statement .answered), .call 1 (.statement .answered), .finish 1]

theorem admitted_of_marksLast {c : DeliveryConfig (Fin 3)}
    {es : List (Event (Fin 3) DeliveryChoice (StoreMove DeliveryMove))}
    (hcalls : es.all fun e => match e with | .env _ => false | _ => true)
    (h : c.passes (deliverySystem (Fin 3)) marksLast es = true) :
    Admitted (markedLast (Fin 3)) c es := by
  apply Admitted.of_passes marksLast_sound _ h
  intro move hmove
  have hnone := List.all_eq_true.1 hcalls _ hmove
  cases hnone

theorem delivered_final_redelivered :
    ∃ c c', start.play (deliverySystem (Fin 3)) delivering = some c ∧
      c.play (deliverySystem (Fin 3)) redelivering = some c' ∧
      ∃ row, row.status = .delivered ∧
        c.state.store.current.findByIdempotency (handler.deliveryKey response) = some row ∧
        c'.state.store.current.findByIdempotency (handler.deliveryKey response) = some row := by
  have hplayed : ((start.play (deliverySystem (Fin 3)) delivering).bind fun c =>
      (c.play (deliverySystem (Fin 3)) redelivering).map fun _ =>
        (start.passes (deliverySystem (Fin 3)) marksLast delivering,
          c.passes (deliverySystem (Fin 3)) marksLast redelivering,
          (c.state.store.current.findByIdempotency (handler.deliveryKey response)).map
            DeliveryRow.status)) = some (true, true, some .delivered) := by
    decide +kernel
  obtain ⟨c, hc, hrest⟩ := Option.bind_eq_some_iff.1 hplayed
  obtain ⟨c', hc', hstate⟩ := Option.map_eq_some_iff.1 hrest
  simp only [Prod.mk.injEq] at hstate
  obtain ⟨hfirst, hsecond, hfound⟩ := hstate
  obtain ⟨row, hrow, hdelivered⟩ := Option.map_eq_some_iff.1 hfound
  have hunique : db.Unique := ⟨List.nodup_nil, List.nodup_nil⟩
  have hrun := Reachable.of_play (admitted_of_marksLast (by decide) hfirst) hc
  have hlater := Reachable.of_play (admitted_of_marksLast (by decide) hsecond) hc'
  exact ⟨c, c', hc, hc', row, hdelivered, hrow, delivered_final hunique hrun hlater hrow hdelivered⟩

attribute [local instance] Interleaving.threeThreads in
/-- One call with a signal: its message is sent and its mark takes effect, and the abort comes
before the mark is answered. -/
def abortedMark : List (Event (Fin 3) DeliveryChoice (StoreMove DeliveryMove)) :=
  [.call 0 (.signal false), .call 0 (.signal false), .call 0 (.statement .answered),
    .call 0 (.signal false), .call 0 (.signal false), .call 0 (.sent (.ok "42")),
    .call 0 (.signal false), .call 0 (.statement (.unheard .abort))]

attribute [local instance] Interleaving.threeThreads in
/-- The mark of the `catch`. -/
def ambiguousMark : List (Event (Fin 3) DeliveryChoice (StoreMove DeliveryMove)) :=
  [.call 0 (.signal true), .call 0 (.statement .answered), .finish 0]

theorem delivered_overwritten :
    ∃ c c', Reachable (Guard.all (deliverySystem (Fin 3)))
        (startDeliveries handler times (fun i => ⟨response, true, deliveryIds i⟩) db) c ∧
      Reachable (Guard.all (deliverySystem (Fin 3))) c c' ∧
      (c.state.store.current.findByIdempotency (handler.deliveryKey response)).map
        DeliveryRow.status = some .delivered ∧
      (c'.state.store.current.findByIdempotency (handler.deliveryKey response)).map
        DeliveryRow.status = some .ambiguous := by
  have hplayed : (((startDeliveries handler times (fun i => ⟨response, true, deliveryIds i⟩)
      db).play (deliverySystem (Fin 3)) abortedMark).bind fun c =>
      (c.play (deliverySystem (Fin 3)) ambiguousMark).map fun c' =>
        ((c.state.store.current.findByIdempotency (handler.deliveryKey response)).map
            DeliveryRow.status,
          (c'.state.store.current.findByIdempotency (handler.deliveryKey response)).map
            DeliveryRow.status)) = some (some .delivered, some .ambiguous) := by
    decide +kernel
  obtain ⟨c, hc, hrest⟩ := Option.bind_eq_some_iff.1 hplayed
  obtain ⟨c', hc', hstate⟩ := Option.map_eq_some_iff.1 hrest
  simp only [Prod.mk.injEq] at hstate
  exact ⟨c, c', .of_play_all hc, .of_play_all hc', hstate.1, hstate.2⟩

-- two calls on one record, and the message of the second is refused
example :
    ((start.play (deliverySystem (Fin 3))
      [.call 0 (.statement .answered), .call 1 (.statement .answered), .call 1 (.statement .answered),
        .call 0 (.sent (.ok "42")), .call 0 (.statement .answered), .finish 0,
        .call 1 (.sent (.error (.transportSendError ⟨.rate_limited, true, false⟩))),
        .call 1 (.statement .answered), .finish 1]).map
      fun c => c.state.store.current.rows.map DeliveryRow.status) = some [.failed] := by
  decide +kernel

end TestDelivery

end PlusOne
