import PlusOne.Interactions.Decoding

/-! # The life of an interaction

What one statement can write, and what every statement keeps: interactions are
unique, a scope has one open interaction, an interaction is claimed once, and a row
that has left its last open status stays as it is. -/

namespace PlusOne

open Interleaving

/-! ## Rows by key -/

namespace InteractionDb

variable {T : TimeFormats} {db db' : InteractionDb} {key : InteractionKey} {row row' : InteractionRow}

theorem find_some (h : db.find key = some row) : row ∈ db.rows ∧ row.key = key := by
  unfold find at h
  have hkey : (row.key == key) = true := by simpa using List.find?_some h
  exact ⟨List.mem_of_find?_eq_some h, beq_iff_eq.1 hkey⟩

theorem eq_of_interactionId (hids : (db.rows.map InteractionRow.interactionId).Nodup)
    (hrow : row ∈ db.rows) (hrow' : row' ∈ db.rows)
    (h : row.interactionId = row'.interactionId) : row = row' :=
  List.inj_on_of_nodup_map hids hrow hrow' h

theorem find_key (hids : (db.rows.map InteractionRow.interactionId).Nodup) (hrow : row ∈ db.rows) :
    db.find row.key = some row := by
  cases hfind : db.find row.key with
  | none =>
    have hnone := List.find?_eq_none.1 hfind row hrow
    simp at hnone
  | some found =>
    obtain ⟨hmem, hkey⟩ := find_some hfind
    have hid : found.interactionId = row.interactionId := congrArg Prod.snd hkey
    rw [eq_of_interactionId hids hmem hrow hid]

theorem mem_replaceRow {old : InteractionRow} (h : old ∈ (db.replaceRow row).rows) :
    old = row ∨ old ∈ db.rows ∧ old.interactionId ≠ row.interactionId := by
  obtain ⟨original, horiginal, rfl⟩ := List.mem_map.1 h
  split_ifs with hid
  · exact .inl rfl
  · exact .inr ⟨horiginal, hid⟩

theorem replaceRow_ids (row' : InteractionRow) :
    (db.replaceRow row').rows.map InteractionRow.interactionId =
      db.rows.map InteractionRow.interactionId := by
  simp only [replaceRow, List.map_map]
  apply List.map_congr_left
  intro old _
  simp only [Function.comp_apply]
  split_ifs with hid
  · exact hid.symm
  · rfl

/-- Every key keeps its row, but for the one that was replaced. -/
theorem find_replaceRow (hfind : db.find key = some row) (hkey : row'.key = row.key)
    (hids : (db.rows.map InteractionRow.interactionId).Nodup) {other : InteractionKey}
    {old : InteractionRow} (hold : db.find other = some old) :
    (db.replaceRow row').find other = some (if other = key then row' else old) := by
  have hrow := find_some hfind
  have hother := find_some hold
  have hid : row'.interactionId = row.interactionId := congrArg Prod.snd hkey
  have hids' : ((db.replaceRow row').rows.map InteractionRow.interactionId).Nodup := by
    rw [replaceRow_ids]
    exact hids
  split_ifs with hsame
  · have hmem : row' ∈ (db.replaceRow row').rows := by
      refine List.mem_map.2 ⟨row, hrow.1, ?_⟩
      rw [if_pos hid.symm]
    have hfound := find_key hids' hmem
    rwa [hkey, hrow.2, ← hsame] at hfound
  · have hne : old.interactionId ≠ row'.interactionId := by
      intro heq
      have hrows : old = row := eq_of_interactionId hids hother.1 hrow.1 (heq.trans hid)
      rw [← hother.2, ← hrow.2, hrows] at hsame
      exact hsame rfl
    have hmem : old ∈ (db.replaceRow row').rows := by
      refine List.mem_map.2 ⟨old, hother.1, ?_⟩
      rw [if_neg hne]
    have hfound := find_key hids' hmem
    rwa [hother.2] at hfound

theorem find_replaced (hfind : db.find key = some row) (hkey : row'.key = row.key)
    (hids : (db.rows.map InteractionRow.interactionId).Nodup) :
    (db.replaceRow row').find key = some row' := by
  rw [find_replaceRow hfind hkey hids hfind, if_pos rfl]

end InteractionDb

/-! ## What a statement writes -/

/-- A statement that changed the table, with the guard it had passed. -/
inductive InteractionDb.Written (T : TimeFormats) (db : InteractionDb) : InteractionCall → InteractionDb → Prop
  | inserted {input createdAt expiresAt}
    (hcreated : T.timestamptz input.createdAt = some createdAt)
    (hexpires : T.timestamptz input.expiresAt = some expiresAt)
    (hfresh : ∀ old ∈ db.rows, old.interactionId ≠ input.interactionId)
    (hscope : input.status.isOpen = true → ∀ old ∈ db.rows, old.status.isOpen = true →
      old.scope ≠ (db.insertedRow input createdAt expiresAt).scope) :
    InteractionDb.Written T db (.insert input)
      { db with rows := db.rows ++ [db.insertedRow input createdAt expiresAt] }
  | claimed {input row} (hfind : db.find input.key = some row) (hstatus : row.status = .pending)
    (hversion : row.version = input.expectedVersion) :
    InteractionDb.Written T db (.claim input)
      { db.replaceRow (db.claimedRow row input) with
        claims := db.claims ++ [⟨row.key, input.externalMessageId⟩] }
  | expired {input row resolvedAt} (hfind : db.find input.key = some row)
    (hresolved : T.timestamptz input.resolvedAt = some resolvedAt)
    (hstatus : row.status.isOpen = true) (hversion : row.version = input.expectedVersion)
    (hcode : isResolutionCode input.resolutionCode = true) :
    InteractionDb.Written T db (.expire input) (db.replaceRow (db.expiredRow row input resolvedAt))
  | completed {input row resolvedAt} (hfind : db.find input.key = some row)
    (hresolved : T.timestamptz input.resolvedAt = some resolvedAt)
    (hstatus : row.status = .resolving) (hversion : row.version = input.expectedVersion)
    (hcode : isResolutionCode input.resolutionCode = true) :
    InteractionDb.Written T db (.complete input) (db.replaceRow (db.completedRow row input resolvedAt))

namespace InteractionDb

variable {T : TimeFormats} {db db' : InteractionDb} {answer : Option InteractionRow}

theorem insert_ok {input : PendingInteraction} (h : db.insert T input = .ok (answer, db')) :
    db' = db ∨ Written T db (.insert input) db' := by
  unfold insert at h
  split at h
  · rename_i createdAt expiresAt hcreated hexpires
    simp only at h
    split_ifs at h with hhousehold hexpiry hconflict hscope <;> cases h
    · exact .inl rfl
    · exact .inl rfl
    · refine .inr (.inserted hcreated hexpires ?_ ?_)
      · intro old hold hid
        exact hconflict (List.any_eq_true.2 ⟨old, hold, beq_iff_eq.2 hid⟩)
      · intro hopen old hold holdOpen hsame
        have htaken : (db.rows.any fun old => old.status.isOpen &&
            old.scope == (db.insertedRow input createdAt expiresAt).scope) = true :=
          List.any_eq_true.2 ⟨old, hold, by simp [holdOpen, hsame]⟩
        have hopen' : (db.insertedRow input createdAt expiresAt).status.isOpen = true := hopen
        exact hscope (by rw [hopen', htaken]; rfl)
  · cases h

/-- A claim that takes effect answers with the row it wrote. -/
theorem claim_ok {input : ClaimInput} (h : db.claim input = .ok (answer, db')) :
    (answer = none ∧ db' = db) ∨ ∃ row, db.find input.key = some row ∧ row.status = .pending ∧
      row.version = input.expectedVersion ∧
      answer = some { db.claimedRow row input with resolvedAt := none } ∧
      db' = { db.replaceRow (db.claimedRow row input) with
        claims := db.claims ++ [⟨row.key, input.externalMessageId⟩] } := by
  unfold claim at h
  split at h
  · cases h
    exact .inl ⟨rfl, rfl⟩
  · rename_i row hrow
    obtain ⟨hfind, hguard⟩ := Option.filter_eq_some_iff.1 hrow
    simp only [Bool.and_eq_true, beq_iff_eq] at hguard
    split_ifs at h
    cases h
    exact .inr ⟨row, hfind, hguard.1, hguard.2, rfl, rfl⟩

theorem expire_ok {input : ExpireInput} (h : db.expire T input = .ok (answer, db')) :
    db' = db ∨ Written T db (.expire input) db' := by
  unfold expire at h
  split at h
  · cases h
  · rename_i resolvedAt hresolved
    split at h
    · cases h
      exact .inl rfl
    · rename_i row hrow
      obtain ⟨hfind, hguard⟩ := Option.filter_eq_some_iff.1 hrow
      simp only [Bool.and_eq_true, beq_iff_eq, decide_eq_true_eq] at hguard
      split_ifs at h with hcode
      cases h
      exact .inr (.expired hfind hresolved hguard.1.1 hguard.1.2 (by simpa using hcode))

theorem complete_ok {input : CompleteInput} (h : db.complete T input = .ok (answer, db')) :
    db' = db ∨ Written T db (.complete input) db' := by
  unfold complete at h
  split at h
  · cases h
  · rename_i resolvedAt hresolved
    split at h
    · cases h
      exact .inl rfl
    · rename_i row hrow
      obtain ⟨hfind, hguard⟩ := Option.filter_eq_some_iff.1 hrow
      simp only [Bool.and_eq_true, beq_iff_eq] at hguard
      split_ifs at h with hcode
      cases h
      exact .inr (.completed hfind hresolved hguard.1 hguard.2 (by simpa using hcode))

end InteractionDb

theorem InteractionCall.perform_ok {T : TimeFormats} {db db' : InteractionDb}
    {call : InteractionCall} {answer : Option InteractionRow}
    (h : call.perform T db = .ok (answer, db')) :
    db' = db ∨ InteractionDb.Written T db call db' := by
  cases call with
  | insert input => exact InteractionDb.insert_ok h
  | claim input =>
    rcases InteractionDb.claim_ok h with ⟨_, rfl⟩ | ⟨row, hfind, hstatus, hversion, _, rfl⟩
    · exact .inl rfl
    · exact .inr (.claimed hfind hstatus hversion)
  | expire input => exact InteractionDb.expire_ok h
  | complete input => exact InteractionDb.complete_ok h
  | findById | findOpen | findExpired | findByResolutionMessage =>
    cases h
    exact .inl rfl

/-! ## What a step keeps -/

/-- A row after the update that closed it or claimed it. -/
structure InteractionRow.Advanced (row row' : InteractionRow) : Prop where
  wasOpen : row.status.isOpen = true
  version : row'.version = row.version + 1
  edge : row.status = .pending ∧ row'.status = .resolving ∨ row'.status.isOpen = false
  key : row'.key = row.key
  scope : row'.scope = row.scope
  payload : row'.payload = row.payload
  instants : row'.createdAt = row.createdAt ∧ row'.expiresAt = row.expiresAt
  message : ∀ message, row.resolutionExternalMessageId = some message →
    row'.resolutionExternalMessageId = some message
  decision : row.status = .resolving → row'.resolutionDecision = row.resolutionDecision

/-- One step of the table: every interaction stays, as it was or advanced. -/
def InteractionDb.Moves (db db' : InteractionDb) : Prop :=
  ∀ key row, db.find key = some row →
    ∃ row', db'.find key = some row' ∧ (row' = row ∨ row.Advanced row')

namespace InteractionDb

variable {T : TimeFormats} {db db' : InteractionDb} {row : InteractionRow}

theorem Moves.refl (db : InteractionDb) : db.Moves db :=
  fun _ row h => ⟨row, h, .inl rfl⟩

theorem advanced_claimedRow {input : ClaimInput} (hstatus : row.status = .pending)
    (hmessage : row.resolutionExternalMessageId = none) :
    row.Advanced (db.claimedRow row input) where
  wasOpen := by rw [hstatus]; rfl
  version := rfl
  edge := .inl ⟨hstatus, rfl⟩
  key := rfl
  scope := rfl
  payload := rfl
  instants := ⟨rfl, rfl⟩
  message := fun message h => by simp [hmessage] at h
  decision := fun h => by simp [hstatus] at h

theorem advanced_expiredRow {input : ExpireInput} {resolvedAt : Nat}
    (hstatus : row.status.isOpen = true) : row.Advanced (db.expiredRow row input resolvedAt) where
  wasOpen := hstatus
  version := rfl
  edge := .inr rfl
  key := rfl
  scope := rfl
  payload := rfl
  instants := ⟨rfl, rfl⟩
  message := fun message h => by simp [expiredRow, h]
  decision := fun _ => rfl

theorem advanced_completedRow {input : CompleteInput} {resolvedAt : Nat}
    (hstatus : row.status = .resolving) :
    row.Advanced (db.completedRow row input resolvedAt) where
  wasOpen := by rw [hstatus]; rfl
  version := rfl
  edge := .inr (by cases hinput : input.status <;> simp [completedRow, hinput] <;> rfl)
  key := rfl
  scope := rfl
  payload := rfl
  instants := ⟨rfl, rfl⟩
  message := fun message h => h
  decision := fun _ => rfl

theorem moves_replaceRow {key : InteractionKey} {row' : InteractionRow}
    (hids : (db.rows.map InteractionRow.interactionId).Nodup) (hfind : db.find key = some row)
    (hadvanced : row.Advanced row') : db.Moves (db.replaceRow row') := by
  intro other old hold
  refine ⟨_, find_replaceRow hfind hadvanced.key hids hold, ?_⟩
  split_ifs with hsame
  · rw [hsame, hfind] at hold
    cases hold
    exact .inr hadvanced
  · exact .inl rfl

end InteractionDb

/-! ## Statements whose rows decode -/

/-- What the repository has checked before it issues a statement. -/
def InteractionCall.Checked (T : TimeFormats) : InteractionCall → Prop
  | .insert input => ∃ candidate : PendingInteraction, candidate.parse T = some input
  | .expire input => input.resolutionResponse.valid T = true
  | .complete input => input.resolutionResponse.valid T = true
  | _ => True

/-- When the row a statement writes decodes. -/
def InteractionCall.Decodable (T : TimeFormats) (db : InteractionDb) : InteractionCall → Prop
  | .insert input =>
    input.status = .pending ∧ T.canonical input.createdAt = true ∧
      T.canonical input.expiresAt = true
  | .claim input =>
    lengthBetween 1 512 input.externalMessageId = true ∧ input.expectedVersion < 9007199254740991
  | .expire input =>
    (((db.find input.key).any fun row => row.resolutionExternalMessageId.isSome) = true ∨
      lengthBetween 1 512 input.externalMessageId = true) ∧
    input.expectedVersion < 9007199254740991 ∧
    (T.timestamptz input.resolvedAt).all (fun at_ => T.isUtcInstant (T.toChar at_)) = true
  | .complete input =>
    input.expectedVersion < 9007199254740991 ∧
    (T.timestamptz input.resolvedAt).all (fun at_ => T.isUtcInstant (T.toChar at_)) = true
  | _ => True

instance (T : TimeFormats) (db : InteractionDb) : (call : InteractionCall) → Decidable (call.Decodable T db)
  | .insert _ => inferInstanceAs (Decidable (_ ∧ _ ∧ _))
  | .claim _ => inferInstanceAs (Decidable (_ ∧ _))
  | .expire _ => inferInstanceAs (Decidable (_ ∧ _ ∧ _))
  | .complete _ => inferInstanceAs (Decidable (_ ∧ _))
  | .findById _ | .findOpen _ | .findExpired _ | .findByResolutionMessage .. =>
    inferInstanceAs (Decidable True)

/-- A statement that writes nothing, or a row that decodes. -/
def InteractionCall.Clean (T : TimeFormats) (call : InteractionCall) (db : InteractionDb) : Prop :=
  ∀ db', InteractionDb.Written T db call db' → call.Decodable T db

def InteractionDb.AllDecode (T : TimeFormats) (db : InteractionDb) : Prop :=
  ∀ row ∈ db.rows, (row.decode T).isSome = true

namespace InteractionDb

variable {T : TimeFormats} {db : InteractionDb} {row row' : InteractionRow}

theorem allDecode_replaceRow {key : InteractionKey} (hdb : db.AllDecode T)
    (hfind : db.find key = some row) (hid : row'.interactionId = row.interactionId) :
    (db.replaceRow row').AllDecode T ↔ (row'.decode T).isSome = true := by
  have hrow := (find_some hfind).1
  constructor
  · intro hall
    have hmem : row' ∈ (db.replaceRow row').rows := by
      refine List.mem_map.2 ⟨row, hrow, ?_⟩
      rw [if_pos hid.symm]
    exact hall row' hmem
  · intro hdecode old hold
    rcases mem_replaceRow hold with rfl | ⟨hmem, _⟩
    · exact hdecode
    · exact hdb old hmem

/-- A statement keeps every row decodable exactly when the row it writes is. -/
theorem Written.allDecode_iff {call : InteractionCall} {db' : InteractionDb}
    (hdb : db.AllDecode T) (hchecked : call.Checked T) (h : Written T db call db') :
    db'.AllDecode T ↔ call.Decodable T db := by
  cases h with
  | @inserted input createdAt expiresAt hcreated hexpires _ _ =>
    obtain ⟨candidate, hparse⟩ := hchecked
    have hinserted : ((db.insertedRow input createdAt expiresAt).decode T).isSome = true ↔
        InteractionCall.Decodable T db (.insert input) :=
      isSome_decode_insertedRow hparse hcreated hexpires
    rw [← hinserted]
    constructor
    · intro hall
      exact hall _ (List.mem_append_right _ (List.mem_singleton_self _))
    · intro hdecode old hold
      rcases List.mem_append.1 hold with hmem | hlast
      · exact hdb old hmem
      · rw [List.mem_singleton.1 hlast]
        exact hdecode
  | @claimed input row hfind hstatus hversion =>
    have hrow := hdb row (find_some hfind).1
    have hreplace : (db.replaceRow (db.claimedRow row input)).AllDecode T ↔
        ((db.claimedRow row input).decode T).isSome = true := allDecode_replaceRow hdb hfind rfl
    have hclaimed : ((db.claimedRow row input).decode T).isSome = true ↔
        InteractionCall.Decodable T db (.claim input) := by
      rw [isSome_decode_claimedRow hrow hstatus, hversion]
      rfl
    rw [← hclaimed, ← hreplace]
    rfl
  | @expired input row resolvedAt hfind hresolved hstatus hversion hcode =>
    have hrow := hdb row (find_some hfind).1
    have hreplace : (db.replaceRow (db.expiredRow row input resolvedAt)).AllDecode T ↔
        ((db.expiredRow row input resolvedAt).decode T).isSome = true :=
      allDecode_replaceRow hdb hfind rfl
    rw [hreplace, isSome_decode_expiredRow hrow hcode hchecked]
    simp only [InteractionCall.Decodable, hresolved, Option.all_some, hfind, Option.any_some, ← hversion]
    cases row.resolutionExternalMessageId <;> simp
  | @completed input row resolvedAt hfind hresolved hstatus hversion hcode =>
    have hrow := hdb row (find_some hfind).1
    have hreplace : (db.replaceRow (db.completedRow row input resolvedAt)).AllDecode T ↔
        ((db.completedRow row input resolvedAt).decode T).isSome = true :=
      allDecode_replaceRow hdb hfind rfl
    rw [hreplace, isSome_decode_completedRow hrow hstatus hcode hchecked]
    simp only [InteractionCall.Decodable, hresolved, Option.all_some, ← hversion]

end InteractionDb

/-! ## The invariant -/

/-- What holds of the table in every state. -/
structure InteractionDb.WellFormed (T : TimeFormats) (db : InteractionDb) : Prop where
  ids : (db.rows.map InteractionRow.interactionId).Nodup
  openUnique : ∀ row ∈ db.rows, ∀ other ∈ db.rows, row.status.isOpen = true →
    other.status.isOpen = true → row.scope = other.scope → row = other
  claimedOnce : (db.claims.map ClaimEvent.key).Nodup
  claimed : ∀ event ∈ db.claims, ∃ row, db.find event.key = some row ∧ row.status ≠ .pending ∧
    row.resolutionExternalMessageId = some event.externalMessageId
  decodes : db.AllDecode T

namespace InteractionDb

variable {T : TimeFormats} {db db' : InteractionDb} {row row' : InteractionRow}

theorem AllDecode.unclaimed (hdb : db.AllDecode T) (hrow : row ∈ db.rows)
    (hstatus : row.status = .pending) : row.resolutionExternalMessageId = none := by
  obtain ⟨_, _, _, _, _, _, hevidence⟩ := InteractionRow.isSome_decode_iff.1 (hdb row hrow)
  simp only [InteractionRow.evidenced, hstatus, Bool.and_eq_true, Option.isNone_iff_eq_none] at hevidence
  exact hevidence.1.1.1.1

/-- A row that has left `pending` keeps its message. -/
theorem Moves.claimed {key : InteractionKey} {message : String} (hmoves : db.Moves db')
    (h : ∃ row, db.find key = some row ∧ row.status ≠ .pending ∧
      row.resolutionExternalMessageId = some message) :
    ∃ row, db'.find key = some row ∧ row.status ≠ .pending ∧
      row.resolutionExternalMessageId = some message := by
  obtain ⟨row, hfind, hstatus, hmessage⟩ := h
  obtain ⟨row', hfind', rfl | hadvanced⟩ := hmoves key row hfind
  · exact ⟨row', hfind', hstatus, hmessage⟩
  · refine ⟨row', hfind', ?_, hadvanced.message message hmessage⟩
    rcases hadvanced.edge with ⟨hpending, _⟩ | hclosed
    · exact absurd hpending hstatus
    · intro hpending
      rw [hpending] at hclosed
      cases hclosed

theorem openUnique_replaceRow {key : InteractionKey}
    (hunique : ∀ row ∈ db.rows, ∀ other ∈ db.rows, row.status.isOpen = true →
      other.status.isOpen = true → row.scope = other.scope → row = other)
    (hfind : db.find key = some row) (hadvanced : row.Advanced row') :
    ∀ one ∈ (db.replaceRow row').rows, ∀ other ∈ (db.replaceRow row').rows,
      one.status.isOpen = true → other.status.isOpen = true → one.scope = other.scope →
      one = other := by
  have hrow := (find_some hfind).1
  have hid : row'.interactionId = row.interactionId := congrArg Prod.snd hadvanced.key
  have halone : ∀ other ∈ db.rows, other.interactionId ≠ row'.interactionId →
      other.status.isOpen = true → other.scope ≠ row'.scope := by
    intro other hother hne hopen hscope
    rw [hadvanced.scope] at hscope
    have hsame := hunique other hother row hrow hopen hadvanced.wasOpen hscope
    exact hne (by rw [hsame, hid])
  intro one hone other hother honeOpen hotherOpen hscope
  rcases mem_replaceRow hone with heqOne | ⟨hmemOne, hneOne⟩ <;>
    rcases mem_replaceRow hother with heqOther | ⟨hmemOther, hneOther⟩
  · rw [heqOne, heqOther]
  · rw [heqOne] at hscope
    exact absurd hscope.symm (halone other hmemOther hneOther hotherOpen)
  · rw [heqOther] at hscope
    exact absurd hscope (halone one hmemOne hneOne honeOpen)
  · exact hunique one hmemOne other hmemOther honeOpen hotherOpen hscope

theorem Written.moves {call : InteractionCall} (hdb : db.WellFormed T)
    (h : Written T db call db') : db.Moves db' := by
  cases h with
  | inserted =>
    intro key row hfind
    refine ⟨row, ?_, .inl rfl⟩
    simp only [find, List.find?_append] at hfind ⊢
    rw [hfind]
    rfl
  | claimed hfind hstatus =>
    have hmessage := hdb.decodes.unclaimed (find_some hfind).1 hstatus
    exact moves_replaceRow hdb.ids hfind (advanced_claimedRow hstatus hmessage)
  | expired hfind _ hstatus => exact moves_replaceRow hdb.ids hfind (advanced_expiredRow hstatus)
  | completed hfind _ hstatus => exact moves_replaceRow hdb.ids hfind (advanced_completedRow hstatus)

theorem WellFormed.replaceRow {key : InteractionKey} (hdb : db.WellFormed T)
    (hfind : db.find key = some row) (hadvanced : row.Advanced row')
    (hdecodes : (db.replaceRow row').AllDecode T) : (db.replaceRow row').WellFormed T where
  ids := by
    rw [replaceRow_ids]
    exact hdb.ids
  openUnique := openUnique_replaceRow hdb.openUnique hfind hadvanced
  claimedOnce := hdb.claimedOnce
  claimed := fun event hevent =>
    (moves_replaceRow hdb.ids hfind hadvanced).claimed (hdb.claimed event hevent)
  decodes := hdecodes

theorem Written.wellFormed {call : InteractionCall} (hdb : db.WellFormed T)
    (hdecodes : db'.AllDecode T) (h : Written T db call db') : db'.WellFormed T := by
  have hmoves := h.moves hdb
  cases h with
  | @inserted input createdAt expiresAt _ _ hfresh hscope =>
    refine ⟨?_, ?_, hdb.claimedOnce, fun event hevent => hmoves.claimed (hdb.claimed event hevent),
      hdecodes⟩
    · rw [List.map_append]
      refine List.nodup_append.2 ⟨hdb.ids, List.nodup_singleton _, ?_⟩
      intro id hid last hlast heq
      obtain ⟨old, hold, rfl⟩ := List.mem_map.1 hid
      rw [List.mem_singleton.1 hlast] at heq
      exact hfresh old hold heq
    · intro one hone other hother honeOpen hotherOpen heq
      rcases List.mem_append.1 hone with hone | hone <;>
        rcases List.mem_append.1 hother with hother | hother
      · exact hdb.openUnique one hone other hother honeOpen hotherOpen heq
      · rw [List.mem_singleton.1 hother] at hotherOpen heq
        exact absurd heq (hscope hotherOpen one hone honeOpen)
      · rw [List.mem_singleton.1 hone] at honeOpen heq
        exact absurd heq.symm (hscope honeOpen other hother hotherOpen)
      · rw [List.mem_singleton.1 hone, List.mem_singleton.1 hother]
  | @claimed input row hfind hstatus hversion =>
    have hrow := find_some hfind
    have hmessage := hdb.decodes.unclaimed hrow.1 hstatus
    have hadvanced : row.Advanced (db.claimedRow row input) := advanced_claimedRow hstatus hmessage
    have hreplaced : (db.replaceRow (db.claimedRow row input)).WellFormed T :=
      hdb.replaceRow hfind hadvanced hdecodes
    refine ⟨hreplaced.ids, hreplaced.openUnique, ?_, ?_, hdecodes⟩
    · rw [List.map_append]
      refine List.nodup_append.2 ⟨hdb.claimedOnce, List.nodup_singleton _, ?_⟩
      intro key hkey last hlast heq
      obtain ⟨event, hevent, rfl⟩ := List.mem_map.1 hkey
      obtain ⟨old, hold, hnot, _⟩ := hdb.claimed event hevent
      rw [heq, List.mem_singleton.1 hlast] at hold
      simp only at hold
      rw [hrow.2, hfind] at hold
      cases hold
      exact hnot hstatus
    · intro event hevent
      rcases List.mem_append.1 hevent with hold | hlast
      · exact hreplaced.claimed event hold
      · rw [List.mem_singleton.1 hlast]
        refine ⟨db.claimedRow row input, ?_, by simp [claimedRow], rfl⟩
        have hfound := find_replaced hfind hadvanced.key hdb.ids
        rw [hrow.2]
        exact hfound
  | @expired input row resolvedAt hfind _ hstatus =>
    exact hdb.replaceRow hfind (advanced_expiredRow hstatus) hdecodes
  | @completed input row resolvedAt hfind _ hstatus =>
    exact hdb.replaceRow hfind (advanced_completedRow hstatus) hdecodes

/-- Statements that write decodable rows keep the invariant and only advance rows. -/
theorem steps (T : TimeFormats) : (interactionStore T).Steps (InteractionCall.Checked T)
    (InteractionCall.Clean T) (WellFormed T) Moves where
  refl := Moves.refl
  perform := by
    intro call db answer db' hchecked hclean hdb hok
    rcases InteractionCall.perform_ok hok with rfl | hwritten
    · exact ⟨hdb, Moves.refl _⟩
    · have hdecodes := (hwritten.allDecode_iff hdb.decodes hchecked).2 (hclean _ hwritten)
      exact ⟨hwritten.wellFormed hdb hdecodes, hwritten.moves hdb⟩
  outside := by
    intro move db db' hdb hok
    cases move with
    | tick microseconds =>
      cases hok
      exact ⟨⟨hdb.ids, hdb.openUnique, hdb.claimedOnce, hdb.claimed, hdb.decodes⟩, Moves.refl db⟩
    | createHousehold householdId =>
      simp only [interactionStore, InteractionMove.apply] at hok
      split_ifs at hok
      cases hok
      exact ⟨⟨hdb.ids, hdb.openUnique, hdb.claimedOnce, hdb.claimed, hdb.decodes⟩, Moves.refl db⟩

end InteractionDb

end PlusOne
