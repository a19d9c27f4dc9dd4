import PlusOne.Interactions.LifecycleRuns
import PlusOne.Interleaving.Solo

/-! # Reading back what was created

`create` and then `findById`, with nothing in between. What comes back is the value
itself when the columns print its instants as they were written. -/

namespace PlusOne

open Interleaving PendingInteractionRepository

/-- `Date.parse` and `timestamptz` agree on which of two printed instants comes first. -/
def TimeFormats.SameOrder (T : TimeFormats) : Prop :=
  ∀ a b, T.canonical a = true → T.canonical b = true → ∀ m n x y,
    T.dateParse a = some m → T.dateParse b = some n → T.timestamptz a = some x →
      T.timestamptz b = some y → m < n → x < y

def ResolvedMutation.entry? : ResolvedMutation → Option WorkingMemoryEntry
  | create _ entry | replace _ entry => some entry
  | delete _ | clear => none

/-! ## The same value -/

namespace PendingInteraction

/-- The value with the keys of its objects in the order of a `jsonb` column. -/
def stored (interaction : PendingInteraction) : PendingInteraction :=
  { interaction with
    pendingWorkingMemoryMutation := interaction.pendingWorkingMemoryMutation.stored
    resolutionResponse := interaction.resolutionResponse.map FinalResponse.stored }

/-- Equal as JavaScript values: the order of the keys of an object does not count. -/
def Same (left right : PendingInteraction) : Prop := left.stored = right.stored

/-- Parsing leaves the texts of the value as they are. -/
def Trimmed (interaction : PendingInteraction) : Prop :=
  ∀ entry, interaction.pendingWorkingMemoryMutation.mutation.entry? = some entry →
    trim entry.summary = entry.summary

def scope (interaction : PendingInteraction) : HouseholdId × ConversationId × String :=
  (interaction.householdId, interaction.conversationId, interaction.speakerPrincipalRef)

end PendingInteraction

theorem WorkingMemoryEntry.stored_stored (entry : WorkingMemoryEntry) :
    entry.stored.stored = entry.stored := by
  simp only [stored, Json.jsonb_idem]

theorem ResolvedMutation.mapEntry_congr {f g : WorkingMemoryEntry → WorkingMemoryEntry}
    {mutation : ResolvedMutation} (h : ∀ entry, mutation.entry? = some entry → f entry = g entry) :
    mutation.mapEntry f = mutation.mapEntry g := by
  cases mutation with
  | create entryId entry => simp only [mapEntry, h entry rfl]
  | replace entryId entry => simp only [mapEntry, h entry rfl]
  | delete entryId => rfl
  | clear => rfl

theorem ResolvedMutation.mapEntry_mapEntry {f g : WorkingMemoryEntry → WorkingMemoryEntry}
    (mutation : ResolvedMutation) :
    (mutation.mapEntry f).mapEntry g = mutation.mapEntry fun entry => g (f entry) := by
  cases mutation <;> rfl

theorem ResolvedMutation.mapEntry_id (mutation : ResolvedMutation) :
    mutation.mapEntry (fun entry => entry) = mutation := by
  cases mutation <;> rfl

namespace PendingInteraction

variable {T : TimeFormats} {candidate input interaction : PendingInteraction}

theorem parse_eq_some_iff : candidate.parse T = some input ↔
    candidate.valid T = true ∧ input =
      { candidate with
        pendingWorkingMemoryMutation :=
          candidate.pendingWorkingMemoryMutation.mapEntry WorkingMemoryEntry.trimmed } := by
  unfold parse
  split_ifs with hvalid
  · simp [hvalid, eq_comm]
  · simp [hvalid]

/-- What parsing a trimmed value makes of it is the value. -/
theorem parse_of_trimmed (hvalid : candidate.valid T = true) (htrimmed : candidate.Trimmed) :
    candidate.parse T = some candidate := by
  have hentry : ∀ entry, candidate.pendingWorkingMemoryMutation.mutation.entry? = some entry →
      entry.trimmed = entry := by
    intro entry hsome
    simp only [WorkingMemoryEntry.trimmed, htrimmed entry hsome]
  have hmutation := ResolvedMutation.mapEntry_congr hentry
  rw [ResolvedMutation.mapEntry_id] at hmutation
  have hpayload : candidate.pendingWorkingMemoryMutation.mapEntry WorkingMemoryEntry.trimmed =
      candidate.pendingWorkingMemoryMutation := by
    simp only [PendingMutation.mapEntry, hmutation]
  rw [parse_eq_some_iff, hpayload]
  exact ⟨hvalid, rfl⟩

end PendingInteraction

/-! ## The two calls, each alone -/

/-- A program of the repository with nothing beside it; every statement is answered. -/
def answeredAlone (T : TimeFormats) {α : Type} (p : InteractionProgram α)
    (s : Stored InteractionCall InteractionDb) :
    Option (Except Thrown α × Stored InteractionCall InteractionDb) :=
  (interactionSystem Unit T).solo () (fun _ => .answered) p s

section Alone

variable {P : Platform} {T : TimeFormats} {s s' : Stored InteractionCall InteractionDb}
variable {α β : Type} {p : InteractionProgram α}
variable {candidate created : PendingInteraction} {row : InteractionRow}

@[simp] theorem ret_alone (a : α) : answeredAlone T (.ret a) s = some (.ok a, s) := rfl

@[simp] theorem throw_alone (e : Thrown) :
    answeredAlone T (.throw e : InteractionProgram α) s = some (.error e, s) := rfl

theorem bind_alone {f : α → InteractionProgram β} {b : β} :
    answeredAlone T (p.bind f) s = some (.ok b, s') ↔ ∃ a t,
      answeredAlone T p s = some (.ok a, t) ∧ answeredAlone T (f a) t = some (.ok b, s') :=
  System.solo_bind_eq_ok

theorem query_alone {call : InteractionCall} {answer : Option InteractionRow} :
    answeredAlone T (query call) s = some (.ok answer, s') ↔
      ∃ db, call.perform T s.current = .ok (answer, db) ∧ s' = { s with current := db } := by
  have hrun : ((interactionSystem Unit T).run () call .answered s = some (.ok answer, s')) ↔
      ∃ db, call.perform T s.current = .ok (answer, db) ∧ s' = { s with current := db } := by
    change Store.run (interactionStore T) Thrown.pg call .answered s = some (.ok answer, s') ↔ _
    simp only [Store.run, interactionStore]
    cases hperform : call.perform T s.current with
    | ok x => simp [Prod.ext_iff, eq_comm, and_comm]
    | error e => simp
  exact System.solo_perform_eq_ok.trans hrun

theorem mapPendingInteraction_alone : answeredAlone T (mapPendingInteraction T row) s =
    some (.ok created, s') ↔ row.decode T = some created ∧ s' = s := by
  unfold mapPendingInteraction
  cases hdecode : row.decode T with
  | none => simp
  | some interaction => simp [eq_comm]

theorem findById_alone {key : InteractionKey} {found : Option PendingInteraction} :
    answeredAlone T (findById T key) s = some (.ok found, s') ↔ s' = s ∧
      match s.current.find key with
      | none => found = none
      | some row => ∃ interaction, row.decode T = some interaction ∧ found = some interaction := by
  have hquery : ∀ answer t, answeredAlone T (query (.findById key)) s = some (.ok answer, t) ↔
      answer = s.current.find key ∧ t = s := by
    intro answer t
    rw [query_alone]
    simp only [InteractionCall.perform, Except.ok.injEq, Prod.mk.injEq]
    constructor
    · rintro ⟨db, ⟨rfl, rfl⟩, rfl⟩
      exact ⟨rfl, rfl⟩
    · rintro ⟨rfl, rfl⟩
      exact ⟨_, ⟨rfl, rfl⟩, rfl⟩
  simp only [findById, bind_alone, hquery]
  cases hfind : s.current.find key with
  | none => simp [mapFound, eq_comm, and_comm]
  | some row =>
    simp only [and_assoc, exists_and_left, exists_eq_left, mapFound, bind_alone,
      mapPendingInteraction_alone, ret_alone, Option.some.injEq, Prod.mk.injEq, Except.ok.injEq]
    constructor
    · rintro ⟨interaction, hdecode, rfl, rfl⟩
      exact ⟨rfl, interaction, hdecode, rfl⟩
    · rintro ⟨rfl, interaction, hdecode, rfl⟩
      exact ⟨interaction, hdecode, rfl, rfl⟩

theorem replay_alone (input : PendingInteraction) :
    answeredAlone T ((findById T (input.householdId, input.interactionId)).bind fun existing =>
      match existing with
      | some existing =>
        if sameInteraction P existing input then pure existing
        else .throw (.plusOne (idempotencyConflict input.interactionId))
      | none =>
        .throw (.plusOne (PendingInteractionRepository.householdNotFound input.householdId))) s =
      some (.ok created, s') ↔
      ∃ row, s.current.find (input.householdId, input.interactionId) = some row ∧
        row.decode T = some created ∧ sameInteraction P created input = true ∧ s' = s := by
  rw [bind_alone]
  simp only [findById_alone]
  cases hfind : s.current.find (input.householdId, input.interactionId) with
  | none =>
    constructor
    · rintro ⟨found, t, ⟨rfl, rfl⟩, hrest⟩
      cases hrest
    · rintro ⟨row, hrow, _⟩
      cases hrow
  | some row =>
    constructor
    · rintro ⟨found, t, ⟨rfl, interaction, hdecode, rfl⟩, hrest⟩
      simp only at hrest
      split_ifs at hrest with hsame
      · cases hrest
        exact ⟨row, rfl, hdecode, hsame, rfl⟩
      · cases hrest
    · rintro ⟨_, hrow, hdecode, hsame, rfl⟩
      cases hrow
      refine ⟨some created, s', ⟨rfl, created, hdecode, rfl⟩, ?_⟩
      simp [hsame]

/-- `create` ends with a value in two ways: it has inserted the row, or another call had. -/
theorem create_alone : answeredAlone T (PendingInteractionRepository.create P T candidate) s =
    some (.ok created, s') ↔ ∃ input, candidate.parse T = some input ∧
      ∃ answer db, s.current.insert T input = .ok (answer, db) ∧
        match answer with
        | some row => row.decode T = some created ∧ s' = { s with current := db }
        | none => ∃ row, db.find (input.householdId, input.interactionId) = some row ∧
          row.decode T = some created ∧ sameInteraction P created input = true ∧
          s' = { s with current := db } := by
  unfold PendingInteractionRepository.create
  cases hparse : candidate.parse T with
  | none => simp
  | some input =>
    have hthrows : ∀ error : Thrown, ∃ error', (if error.code = some "23505" ∧
        error.constraint = some "pending_interactions_open_scope_unique" then
          (.throw (.plusOne (scopeConflict input)) : InteractionProgram PendingInteraction)
        else .throw error) = .throw error' := by
      intro error
      split_ifs
      · exact ⟨_, rfl⟩
      · exact ⟨_, rfl⟩
    have hcatch : answeredAlone T ((insertOrReplay P T input).tryCatch fun error =>
        if error.code = some "23505" ∧
            error.constraint = some "pending_interactions_open_scope_unique" then
          .throw (.plusOne (scopeConflict input))
        else .throw error) s = some (.ok created, s') ↔
        answeredAlone T (insertOrReplay P T input) s = some (.ok created, s') :=
      System.solo_tryCatch_eq_ok hthrows
    simp only [Option.some.injEq, exists_eq_left', hcatch]
    simp only [insertOrReplay, Prog.bind_eq, bind_alone, query_alone]
    constructor
    · rintro ⟨answer, t, ⟨db, hinsert, rfl⟩, hrest⟩
      refine ⟨answer, db, hinsert, ?_⟩
      cases answer with
      | some row => exact mapPendingInteraction_alone.1 hrest
      | none => exact (replay_alone (s := ⟨db, s.unfinished⟩) input).1 hrest
    · rintro ⟨answer, db, hinsert, hrest⟩
      refine ⟨answer, _, ⟨db, hinsert, rfl⟩, ?_⟩
      cases answer with
      | some row => exact mapPendingInteraction_alone.2 hrest
      | none => exact (replay_alone (s := ⟨db, s.unfinished⟩) input).2 hrest

end Alone

/-! ## What the new row decodes to -/

theorem PendingMutation.stored_stored (pending : PendingMutation) :
    pending.stored.stored = pending.stored := by
  simp only [stored, mapEntry, ResolvedMutation.mapEntry_mapEntry,
    WorkingMemoryEntry.stored_stored]

theorem PendingMutation.trimmed_stored (pending : PendingMutation) :
    pending.stored.mapEntry WorkingMemoryEntry.trimmed =
      (pending.mapEntry WorkingMemoryEntry.trimmed).stored := by
  have hentry : ∀ entry : WorkingMemoryEntry, entry.stored.trimmed = entry.trimmed.stored :=
    fun _ => rfl
  simp only [stored, mapEntry, ResolvedMutation.mapEntry_mapEntry, hentry]

theorem PendingMutation.trimmed_trimmed (pending : PendingMutation) :
    (pending.mapEntry WorkingMemoryEntry.trimmed).mapEntry WorkingMemoryEntry.trimmed =
      pending.mapEntry WorkingMemoryEntry.trimmed := by
  have hentry : ∀ entry : WorkingMemoryEntry, entry.trimmed.trimmed = entry.trimmed := by
    intro entry
    simp only [WorkingMemoryEntry.trimmed, trim_trim]
  simp only [mapEntry, ResolvedMutation.mapEntry_mapEntry, hentry]

namespace PendingInteraction

variable {T : TimeFormats} {candidate input created : PendingInteraction}

theorem stored_stored (hresponse : input.resolutionResponse = none) :
    input.stored.stored = input.stored := by
  simp only [stored, PendingMutation.stored_stored, hresponse, Option.map_none]

/-- Where the stored value is that of the parsed one, parsing has trimmed nothing. -/
theorem trimmed_of_same (hparse : candidate.parse T = some input)
    (hsame : input.stored = candidate.stored) : candidate.Trimmed := by
  obtain ⟨_, rfl⟩ := parse_eq_some_iff.1 hparse
  have hmutation := congrArg (fun interaction =>
    interaction.pendingWorkingMemoryMutation.mutation.entry?.map WorkingMemoryEntry.summary) hsame
  intro entry hentry
  simp only [stored, PendingMutation.stored, PendingMutation.mapEntry,
    ResolvedMutation.mapEntry_mapEntry] at hmutation
  cases hwhich : candidate.pendingWorkingMemoryMutation.mutation with
  | create entryId other | replace entryId other =>
    rw [hwhich] at hmutation hentry
    cases hentry
    simpa [ResolvedMutation.mapEntry, ResolvedMutation.entry?, WorkingMemoryEntry.stored,
      WorkingMemoryEntry.trimmed] using hmutation
  | delete entryId | clear =>
    rw [hwhich] at hentry
    cases hentry

theorem no_evidence (hvalid : input.valid T = true) (hpending : input.status = .pending) :
    input.resolutionExternalMessageId = none ∧ input.resolutionDecision = none ∧
      input.resolutionCode = none ∧ input.resolutionResponse = none ∧ input.resolvedAt = none := by
  obtain ⟨_, _, _, _, _, _, _, _, _, _, hevidence⟩ := valid_iff.1 hvalid
  simpa [evidenced, hpending, and_assoc] using hevidence

end PendingInteraction

theorem InteractionDb.decode_insertedRow {T : TimeFormats} {db : InteractionDb}
    {candidate input created : PendingInteraction} {createdAt expiresAt : Nat}
    (hparse : candidate.parse T = some input) (hpending : candidate.status = .pending)
    (hcreated : T.timestamptz input.createdAt = some createdAt)
    (hexpires : T.timestamptz input.expiresAt = some expiresAt) :
    (db.insertedRow input createdAt expiresAt).decode T = some created ↔
      T.canonical input.createdAt = true ∧ T.canonical input.expiresAt = true ∧
        created = input.stored := by
  have hdecodes : ((db.insertedRow input createdAt expiresAt).decode T).isSome = true ↔
      input.status = .pending ∧ T.canonical input.createdAt = true ∧
        T.canonical input.expiresAt = true := isSome_decode_insertedRow hparse hcreated hexpires
  have hvalid := PendingInteraction.parse_some hparse
  have hinput := (PendingInteraction.parse_eq_some_iff.1 hparse).2
  have hstatus : input.status = .pending := by rw [hinput]; exact hpending
  obtain ⟨hmessage, hdecision, hcode, hresponse, hresolved⟩ :=
    PendingInteraction.no_evidence hvalid hstatus
  have hpayload : input.pendingWorkingMemoryMutation.mapEntry WorkingMemoryEntry.trimmed =
      input.pendingWorkingMemoryMutation := by
    rw [hinput]
    exact PendingMutation.trimmed_trimmed _
  have hvalue : ∀ value, (db.insertedRow input createdAt expiresAt).decode T = some value →
      T.canonical input.createdAt = true → T.canonical input.expiresAt = true →
      value = input.stored := by
    intro value hdecode hfrom huntil
    have hprintsFrom : T.toChar createdAt = input.createdAt := by
      simpa [TimeFormats.canonical, hcreated] using hfrom
    have hprintsUntil : T.toChar expiresAt = input.expiresAt := by
      simpa [TimeFormats.canonical, hexpires] using huntil
    obtain ⟨_, hparsed⟩ := PendingInteraction.parse_eq_some_iff.1 hdecode
    rw [hparsed]
    simp only [InteractionRow.interaction, insertedRow, PendingInteraction.stored,
      PendingMutation.trimmed_stored, hpayload, hprintsFrom, hprintsUntil, hmessage, hdecision,
      hcode, hresponse, hresolved, Option.map_none]
  constructor
  · intro hdecode
    obtain ⟨_, hfrom, huntil⟩ := hdecodes.1 (by rw [hdecode]; rfl)
    exact ⟨hfrom, huntil, hvalue created hdecode hfrom huntil⟩
  · rintro ⟨hfrom, huntil, rfl⟩
    obtain ⟨value, hdecode⟩ := Option.isSome_iff_exists.1 (hdecodes.2 ⟨hstatus, hfrom, huntil⟩)
    rw [hdecode, hvalue value hdecode hfrom huntil]

/-! ## The insertion -/

namespace InteractionDb

variable {T : TimeFormats} {db db' : InteractionDb} {input : PendingInteraction}
variable {row : InteractionRow}

/-- A statement that inserts a row finds the household and an unused identifier. -/
theorem insert_some (h : db.insert T input = .ok (some row, db')) :
    db.households.contains input.householdId = true ∧
    (∀ old ∈ db.rows, old.interactionId ≠ input.interactionId) ∧
    db' = { db with rows := db.rows ++ [row] } ∧
    ∃ createdAt expiresAt, T.timestamptz input.createdAt = some createdAt ∧
      T.timestamptz input.expiresAt = some expiresAt ∧
      row = db.insertedRow input createdAt expiresAt := by
  unfold insert at h
  split at h
  · rename_i createdAt expiresAt hcreated hexpires
    simp only at h
    split_ifs at h with hhousehold hexpiry hused hopen <;> cases h
    have hfresh : ∀ old ∈ db.rows, old.interactionId ≠ input.interactionId := by
      intro old hold hsame
      exact hused (List.any_eq_true.2 ⟨old, hold, by simp [hsame]⟩)
    exact ⟨by simpa using hhousehold, hfresh, rfl, createdAt, expiresAt, hcreated, hexpires, rfl⟩
  · cases h

theorem insert_none (h : db.insert T input = .ok (none, db')) : db' = db := by
  unfold insert at h
  split at h
  · simp only at h
    split_ifs at h <;> cases h
    · rfl
    · rfl
  · cases h

theorem find_inserted (hfresh : ∀ old ∈ db.rows, old.interactionId ≠ row.interactionId) :
    ({ db with rows := db.rows ++ [row] } : InteractionDb).find row.key = some row := by
  have hnone : db.rows.find? (fun old => old.key == row.key) = none := by
    rw [List.find?_eq_none]
    intro old hold hkey
    have hsame : old.key = row.key := by simpa using hkey
    exact hfresh old hold (congrArg Prod.snd hsame)
  simp [find, List.find?_append, hnone]

theorem insert_eq_some {createdAt expiresAt : Nat}
    (hcreated : T.timestamptz input.createdAt = some createdAt)
    (hexpires : T.timestamptz input.expiresAt = some expiresAt)
    (hhousehold : db.households.contains input.householdId = true)
    (hexpiry : createdAt < expiresAt)
    (hfresh : ∀ old ∈ db.rows, old.interactionId ≠ input.interactionId)
    (hscope : ∀ old ∈ db.rows, old.scope = input.scope → old.status.isOpen = false) :
    db.insert T input = .ok (some (db.insertedRow input createdAt expiresAt),
      { db with rows := db.rows ++ [db.insertedRow input createdAt expiresAt] }) := by
  have hunused : (db.rows.any fun old => old.interactionId == input.interactionId) = false := by
    rw [List.any_eq_false]
    intro old hold hsame
    exact hfresh old hold (by simpa using hsame)
  have hnone : (db.rows.any fun old => old.status.isOpen &&
      old.scope == (db.insertedRow input createdAt expiresAt).scope) = false := by
    rw [List.any_eq_false]
    intro old hold hboth
    simp only [Bool.and_eq_true, beq_iff_eq] at hboth
    have hclosed := hscope old hold hboth.2
    rw [hboth.1] at hclosed
    cases hclosed
  have hlate : ¬expiresAt ≤ createdAt := by omega
  have hknown : input.householdId ∈ db.households := by simpa using hhousehold
  simp [insert, hcreated, hexpires, hknown, hlate, hunused, hnone]

end InteractionDb

/-! ## Create, then find -/

/-- The value and the table are such that the value can be stored and read back. -/
structure PendingInteraction.Storable (T : TimeFormats) (db : InteractionDb)
    (interaction : PendingInteraction) : Prop where
  household : db.households.contains interaction.householdId = true
  fresh : ∀ row ∈ db.rows, row.interactionId ≠ interaction.interactionId
  createdAt : T.canonical interaction.createdAt = true
  expiresAt : T.canonical interaction.expiresAt = true
  trimmed : interaction.Trimmed

/-- A proposal's life is not empty, so neither is that of its row. -/
theorem PendingInteraction.Storable.expiry {T : TimeFormats} {db : InteractionDb}
    {interaction : PendingInteraction} {createdAt expiresAt : Nat}
    (hstorable : interaction.Storable T db) (horder : T.SameOrder)
    (hvalid : interaction.valid T = true)
    (hcreated : T.timestamptz interaction.createdAt = some createdAt)
    (hexpires : T.timestamptz interaction.expiresAt = some expiresAt) : createdAt < expiresAt := by
  obtain ⟨_, hpayload, _, _, _, _, _, _, _, hproposal, _⟩ := PendingInteraction.valid_iff.1 hvalid
  simp only [matchesProposal, Bool.and_eq_true, beq_iff_eq] at hproposal
  simp only [PendingMutation.valid, Bool.and_eq_true, ← hproposal.1.2, ← hproposal.2] at hpayload
  have hlife := hpayload.2
  unfold expiresInTime at hlife
  split at hlife
  · rename_i from_ until_ hfrom huntil
    simp only [Bool.and_eq_true, decide_eq_true_eq] at hlife
    have hlt : from_ < until_ := by omega
    exact horder _ _ hstorable.createdAt hstorable.expiresAt _ _ _ _ hfrom huntil hcreated
      hexpires hlt
  · cases hlife

/-- `create` returns the value, and `findById` returns it again. -/
def ReturnsTwice (P : Platform) (T : TimeFormats) (s : Stored InteractionCall InteractionDb)
    (interaction : PendingInteraction) : Prop :=
  ∃ created found s' s'',
    answeredAlone T (PendingInteractionRepository.create P T interaction) s =
      some (.ok created, s') ∧ created.Same interaction ∧
    answeredAlone T (findById T (interaction.householdId, interaction.interactionId)) s' =
      some (.ok (some found), s'') ∧ found.Same interaction

section RoundTrip

variable {P : Platform} {T : TimeFormats} {s : Stored InteractionCall InteractionDb}
variable {candidate : PendingInteraction}

theorem returnsTwice_of_storable (horder : T.SameOrder) (hvalid : candidate.valid T = true)
    (hpending : candidate.status = .pending)
    (hscope : ∀ row ∈ s.current.rows, row.scope = candidate.scope → row.status.isOpen = false)
    (hstorable : candidate.Storable T s.current) : ReturnsTwice P T s candidate := by
  have hparse := PendingInteraction.parse_of_trimmed hvalid hstorable.trimmed
  have hresponse := (PendingInteraction.no_evidence hvalid hpending).2.2.2.1
  obtain ⟨createdAt, hcreated, _⟩ : ∃ createdAt,
      T.timestamptz candidate.createdAt = some createdAt ∧
      T.toChar createdAt = candidate.createdAt := by
    simpa [TimeFormats.canonical] using hstorable.createdAt
  obtain ⟨expiresAt, hexpires, _⟩ : ∃ expiresAt,
      T.timestamptz candidate.expiresAt = some expiresAt ∧
      T.toChar expiresAt = candidate.expiresAt := by
    simpa [TimeFormats.canonical] using hstorable.expiresAt
  have hexpiry := hstorable.expiry horder hvalid hcreated hexpires
  have hinsert := InteractionDb.insert_eq_some hcreated hexpires hstorable.household hexpiry
    hstorable.fresh hscope
  have hdecode : (s.current.insertedRow candidate createdAt expiresAt).decode T =
      some candidate.stored :=
    (InteractionDb.decode_insertedRow hparse hpending hcreated hexpires).2
      ⟨hstorable.createdAt, hstorable.expiresAt, rfl⟩
  have hfresh : ∀ old ∈ s.current.rows, old.interactionId ≠
      (s.current.insertedRow candidate createdAt expiresAt).interactionId := hstorable.fresh
  have hfind := InteractionDb.find_inserted hfresh
  have hsame : candidate.stored.Same candidate := PendingInteraction.stored_stored hresponse
  refine ⟨candidate.stored, candidate.stored, _, _,
    create_alone.2 ⟨candidate, hparse, _, _, hinsert, hdecode, rfl⟩, hsame,
    findById_alone.2 ⟨rfl, ?_⟩, hsame⟩
  simp only [InteractionRow.key, InteractionDb.insertedRow] at hfind
  simp only [InteractionDb.insertedRow, hfind]
  exact ⟨candidate.stored, hdecode, rfl⟩

theorem storable_of_returnsTwice (hvalid : candidate.valid T = true)
    (hpending : candidate.status = .pending)
    (hscope : ∀ row ∈ s.current.rows, row.scope = candidate.scope → row.status.isOpen = false)
    (h : ReturnsTwice P T s candidate) : candidate.Storable T s.current := by
  obtain ⟨created, _, s', _, hcreate, hsame, _, _⟩ := h
  obtain ⟨input, hparse, answer, db, hinsert, hanswer⟩ := create_alone.1 hcreate
  have hinput := (PendingInteraction.parse_eq_some_iff.1 hparse).2
  cases answer with
  | some row =>
    obtain ⟨hhousehold, hfresh, _, createdAt, expiresAt, hcreated, hexpires, rfl⟩ :=
      InteractionDb.insert_some hinsert
    obtain ⟨hfrom, huntil, rfl⟩ :=
      (InteractionDb.decode_insertedRow hparse hpending hcreated hexpires).1 hanswer.1
    have hresponse : input.resolutionResponse = none := by
      rw [hinput]
      exact (PendingInteraction.no_evidence hvalid hpending).2.2.2.1
    have hstored : input.stored = candidate.stored := by
      rw [← PendingInteraction.stored_stored hresponse]
      exact hsame
    rw [hinput] at hhousehold hfresh hfrom huntil
    exact ⟨hhousehold, hfresh, hfrom, huntil, PendingInteraction.trimmed_of_same hparse hstored⟩
  | none =>
    -- the value of an older row of the scope would have to be pending
    obtain ⟨row, hfind, hdecode, _, _⟩ := hanswer
    rw [InteractionDb.insert_none hinsert] at hfind
    have hrow : row ∈ s.current.rows := List.mem_of_find?_eq_some hfind
    have hvalue := (PendingInteraction.parse_eq_some_iff.1 hdecode).2
    have hstatus : row.status = candidate.status := by
      have := congrArg PendingInteraction.status hsame
      rw [hvalue] at this
      exact this
    have hopen : row.scope = candidate.scope := by
      have := congrArg PendingInteraction.scope hsame
      rw [hvalue] at this
      exact this
    have hclosed := hscope row hrow hopen
    rw [hstatus, hpending] at hclosed
    cases hclosed

end RoundTrip

namespace TestInteraction

open TestCommand (platform)

theorem times_sameOrder : times.SameOrder := by
  have hinstant : ∀ text microseconds, times.timestamptz text = some microseconds →
      times.dateParse text = some ((microseconds / 1000 : Nat) : Int) := by
    intro text microseconds hread
    have hlookup : instants.lookup text = some microseconds := hread
    simp [times, hlookup]
  intro a b _ _ m n x y hm hn hx hy hlt
  rw [hinstant a x hx] at hm
  rw [hinstant b y hy] at hn
  obtain rfl := Option.some.inj hm
  obtain rfl := Option.some.inj hn
  omega

end TestInteraction

end PlusOne
