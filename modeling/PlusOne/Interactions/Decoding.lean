import PlusOne.Interactions.Repository

/-! # Which rows decode

A row decodes when the interaction it spells out passes the schema. What a `jsonb`
column does to a payload keeps its checks, so whether a new row decodes depends on the
few fields its statement writes. -/

namespace PlusOne

/-! ## Checks and `jsonb` -/

theorem length_jsonbItems (items : List Json) : (Json.jsonbItems items).length = items.length := by
  induction items with
  | nil => rfl
  | cons item items ih => simp [Json.jsonbItems, ih]

mutual

/-- The checks on a value do not see what `jsonb` does to it. -/
theorem isWorkingMemoryValue_jsonb {depth : Nat} : (value : Json) → value.keyed = true →
    isWorkingMemoryValue depth value.jsonb = isWorkingMemoryValue depth value
  | .null, _ | .bool _, _ | .num _, _ | .str _, _ => rfl
  | .arr items, h => by
    have hitems : areWorkingMemoryItems (depth + 1) (Json.jsonbItems items) =
        areWorkingMemoryItems (depth + 1) items := areWorkingMemoryItems_jsonb items h
    simp only [Json.jsonb, isWorkingMemoryValue, length_jsonbItems, hitems]
  | .obj fields, h => by
    simp only [Json.keyed, Bool.and_eq_true, decide_eq_true_eq] at h
    have hperm := jsonbFields_perm h.1
    have hlength : (Json.jsonbFields fields).length = fields.length := by
      rw [hperm.length_eq, List.length_map]
    have hfields : areWorkingMemoryFields (depth + 1) (Json.jsonbFields fields) =
        areWorkingMemoryFields (depth + 1) fields := by
      rw [Bool.eq_iff_iff, areWorkingMemoryFields_iff, areWorkingMemoryFields_iff]
      have hvalues : ∀ entry ∈ fields, isWorkingMemoryValue (depth + 1) entry.2.jsonb =
          isWorkingMemoryValue (depth + 1) entry.2 := areWorkingMemoryFields_jsonb fields h.2
      constructor
      · intro hall entry hentry
        have hmem : (entry.1, entry.2.jsonb) ∈ Json.jsonbFields fields :=
          hperm.mem_iff.2 (List.mem_map_of_mem hentry)
        have hchecked := hall _ hmem
        rw [hvalues entry hentry] at hchecked
        exact hchecked
      · intro hall entry hentry
        obtain ⟨original, horiginal, rfl⟩ := List.mem_map.1 (hperm.mem_iff.1 hentry)
        rw [hvalues original horiginal]
        exact hall original horiginal
    simp only [Json.jsonb, isWorkingMemoryValue, hlength, hfields]

theorem areWorkingMemoryItems_jsonb {depth : Nat} : (items : List Json) →
    Json.keyedItems items = true →
    areWorkingMemoryItems depth (Json.jsonbItems items) = areWorkingMemoryItems depth items
  | [], _ => rfl
  | item :: items, h => by
    simp only [Json.keyedItems, Bool.and_eq_true] at h
    simp only [Json.jsonbItems, areWorkingMemoryItems, isWorkingMemoryValue_jsonb item h.1,
      areWorkingMemoryItems_jsonb items h.2]

theorem areWorkingMemoryFields_jsonb {depth : Nat} : (fields : List (String × Json)) →
    Json.keyedFields fields = true →
    ∀ entry ∈ fields, isWorkingMemoryValue depth entry.2.jsonb = isWorkingMemoryValue depth entry.2
  | [], _ => by simp
  | (key, value) :: fields, h => by
    simp only [Json.keyedFields, Bool.and_eq_true] at h
    intro entry hentry
    rcases List.mem_cons.1 hentry with rfl | hrest
    · exact isWorkingMemoryValue_jsonb value h.1
    · exact areWorkingMemoryFields_jsonb fields h.2 entry hrest

end

variable {T : TimeFormats}

theorem WorkingMemoryEntry.valid_stored (entry : WorkingMemoryEntry) :
    entry.stored.valid T = entry.valid T := by
  simp only [valid, stored, isWorkingMemoryValue_jsonb entry.value entry.value_keyed]

theorem WorkingMemoryEntry.valid_trimmed (entry : WorkingMemoryEntry) :
    entry.trimmed.valid T = entry.valid T := by
  simp only [valid, trimmed, trim_trim]

theorem PendingMutation.valid_mapEntry {f : WorkingMemoryEntry → WorkingMemoryEntry}
    (hf : ∀ entry, (f entry).valid T = entry.valid T) (pending : PendingMutation) :
    (pending.mapEntry f).valid T = pending.valid T := by
  have hmutation : (pending.mutation.mapEntry f).valid T = pending.mutation.valid T := by
    cases pending.mutation <;> simp [ResolvedMutation.mapEntry, ResolvedMutation.valid, hf]
  simp only [valid, mapEntry, hmutation]

theorem FinalResponse.valid_stored (response : FinalResponse) :
    response.stored.valid T = response.valid T := rfl

/-! ## Decoding -/

namespace PendingInteraction

theorem valid_iff {interaction : PendingInteraction} : interaction.valid T = true ↔
    lengthBetween 1 512 interaction.speakerPrincipalRef = true ∧
    interaction.pendingWorkingMemoryMutation.valid T = true ∧
    interaction.version ≤ 9007199254740991 ∧
    interaction.resolutionExternalMessageId.all (lengthBetween 1 512) = true ∧
    interaction.resolutionCode.all isResolutionCode = true ∧
    interaction.resolutionResponse.all (FinalResponse.valid T) = true ∧
    T.isUtcInstant interaction.createdAt = true ∧ T.isUtcInstant interaction.expiresAt = true ∧
    interaction.resolvedAt.all T.isUtcInstant = true ∧ interaction.matchesProposal = true ∧
    interaction.evidenced = true := by
  simp only [valid, Bool.and_eq_true, decide_eq_true_eq, and_assoc]

theorem isSome_parse {interaction : PendingInteraction} :
    (interaction.parse T).isSome = interaction.valid T := by
  unfold parse
  split_ifs with h <;> simp [h]

/-- What `parse` returns has passed the checks, and passes them again. -/
theorem parse_some {interaction parsed : PendingInteraction} (h : interaction.parse T = some parsed) :
    parsed.valid T = true := by
  unfold parse at h
  split_ifs at h with hvalid
  cases h
  have hparts := valid_iff.1 hvalid
  rw [valid_iff]
  refine ⟨hparts.1, ?_, hparts.2.2.1, hparts.2.2.2.1, hparts.2.2.2.2.1, hparts.2.2.2.2.2.1,
    hparts.2.2.2.2.2.2.1, hparts.2.2.2.2.2.2.2.1, hparts.2.2.2.2.2.2.2.2.1,
    hparts.2.2.2.2.2.2.2.2.2.1, hparts.2.2.2.2.2.2.2.2.2.2⟩
  simp only
  rw [PendingMutation.valid_mapEntry WorkingMemoryEntry.valid_trimmed]
  exact hparts.2.1

end PendingInteraction

theorem InteractionRow.isSome_decode {row : InteractionRow} :
    (row.decode T).isSome = (row.interaction T).valid T :=
  PendingInteraction.isSome_parse

/-- What each status asks of the evidence columns. -/
def InteractionRow.evidenced (row : InteractionRow) : Bool :=
  match row.status with
  | .pending =>
    row.resolutionExternalMessageId.isNone && row.resolutionDecision.isNone &&
      row.resolutionCode.isNone && row.resolutionResponse.isNone && row.resolvedAt.isNone
  | .resolving =>
    row.resolutionExternalMessageId.isSome && row.resolutionCode.isNone &&
      row.resolutionResponse.isNone && row.resolvedAt.isNone
  | _ =>
    row.resolutionExternalMessageId.isSome && row.resolutionCode.isSome &&
      row.resolutionResponse.isSome && row.resolvedAt.isSome

theorem InteractionRow.evidenced_interaction (row : InteractionRow) :
    (row.interaction T).evidenced = row.evidenced := by
  cases hstatus : row.status <;>
    simp [PendingInteraction.evidenced, InteractionRow.evidenced, InteractionRow.interaction, hstatus]

/-- The part of a row that no update touches decodes. -/
structure InteractionRow.Founded (T : TimeFormats) (row : InteractionRow) : Prop where
  speaker : lengthBetween 1 512 row.speakerPrincipalRef = true
  payload : row.payload.valid T = true
  createdAt : T.isUtcInstant (T.toChar row.createdAt) = true
  expiresAt : T.isUtcInstant (T.toChar row.expiresAt) = true
  proposal : (row.interaction T).matchesProposal = true

theorem InteractionRow.isSome_decode_iff {row : InteractionRow} :
    (row.decode T).isSome = true ↔ row.Founded T ∧ row.version ≤ 9007199254740991 ∧
      row.resolutionExternalMessageId.all (lengthBetween 1 512) = true ∧
      row.resolutionCode.all isResolutionCode = true ∧
      row.resolutionResponse.all (FinalResponse.valid T) = true ∧
      (row.resolvedAt.all fun at_ => T.isUtcInstant (T.toChar at_)) = true ∧
      row.evidenced = true := by
  have hresolved : (row.resolvedAt.map T.toChar).all T.isUtcInstant =
      row.resolvedAt.all fun at_ => T.isUtcInstant (T.toChar at_) := by
    cases row.resolvedAt <;> rfl
  rw [isSome_decode, PendingInteraction.valid_iff, evidenced_interaction]
  simp only [interaction, hresolved]
  constructor
  · rintro ⟨hspeaker, hpayload, hversion, hmessage, hcode, hresponse, hcreated, hexpires,
      hresolvedAt, hproposal, hevidence⟩
    exact ⟨⟨hspeaker, hpayload, hcreated, hexpires, hproposal⟩, hversion, hmessage, hcode,
      hresponse, hresolvedAt, hevidence⟩
  · rintro ⟨hfounded, hversion, hmessage, hcode, hresponse, hresolvedAt, hevidence⟩
    exact ⟨hfounded.speaker, hfounded.payload, hversion, hmessage, hcode, hresponse,
      hfounded.createdAt, hfounded.expiresAt, hresolvedAt, hfounded.proposal, hevidence⟩

namespace InteractionDb

variable {db : InteractionDb} {row : InteractionRow}

/-- A new row decodes when it is pending and its instants are printed as they were given. -/
theorem isSome_decode_insertedRow {candidate input : PendingInteraction} {createdAt expiresAt : Nat}
    (hparse : candidate.parse T = some input)
    (hcreated : T.timestamptz input.createdAt = some createdAt)
    (hexpires : T.timestamptz input.expiresAt = some expiresAt) :
    ((db.insertedRow input createdAt expiresAt).decode T).isSome = true ↔
      input.status = .pending ∧ T.canonical input.createdAt = true ∧
        T.canonical input.expiresAt = true := by
  obtain ⟨hspeaker, hpayload, hversion, _, _, _, hcreatedAt, hexpiresAt, _, hproposal, _⟩ :=
    PendingInteraction.valid_iff.1 (PendingInteraction.parse_some hparse)
  have hcanonical : (T.canonical input.createdAt = true ↔ T.toChar createdAt = input.createdAt) ∧
      (T.canonical input.expiresAt = true ↔ T.toChar expiresAt = input.expiresAt) := by
    simp [TimeFormats.canonical, hcreated, hexpires]
  have hmatches : ((db.insertedRow input createdAt expiresAt).interaction T).matchesProposal = true ↔
      T.toChar createdAt = input.createdAt ∧ T.toChar expiresAt = input.expiresAt := by
    simp only [PendingInteraction.matchesProposal, Bool.and_eq_true, beq_iff_eq] at hproposal
    simp only [PendingInteraction.matchesProposal, InteractionRow.interaction, insertedRow,
      PendingMutation.stored, PendingMutation.mapEntry, Bool.and_eq_true, beq_iff_eq]
    obtain ⟨⟨⟨⟨⟨hid, hhousehold⟩, hconversation⟩, hprincipal⟩, hfrom⟩, huntil⟩ := hproposal
    simp only [hid, hhousehold, hconversation, hprincipal, hfrom, huntil, true_and]
  have hevidence : (db.insertedRow input createdAt expiresAt).evidenced = true ↔
      input.status = .pending := by
    cases hstatus : input.status <;>
      simp [InteractionRow.evidenced, insertedRow, hstatus]
  rw [InteractionRow.isSome_decode_iff, hevidence, hcanonical.1, hcanonical.2]
  constructor
  · rintro ⟨hfounded, _, _, _, _, _, hstatus⟩
    have hprinted := hmatches.1 hfounded.proposal
    exact ⟨hstatus, hprinted⟩
  · rintro ⟨hstatus, hprinted⟩
    have hstored : input.pendingWorkingMemoryMutation.stored.valid T = true := by
      rw [PendingMutation.stored, PendingMutation.valid_mapEntry WorkingMemoryEntry.valid_stored]
      exact hpayload
    refine ⟨⟨hspeaker, hstored, ?_, ?_, hmatches.2 hprinted⟩, hversion, rfl, rfl, rfl, rfl, hstatus⟩
    · simp only [insertedRow, hprinted.1, hcreatedAt]
    · simp only [insertedRow, hprinted.2, hexpiresAt]

theorem isSome_decode_claimedRow {input : ClaimInput} (hrow : (row.decode T).isSome = true)
    (hstatus : row.status = .pending) :
    ((db.claimedRow row input).decode T).isSome = true ↔
      lengthBetween 1 512 input.externalMessageId = true ∧ row.version < 9007199254740991 := by
  obtain ⟨hfounded, _, _, _, _, _, hevidence⟩ := InteractionRow.isSome_decode_iff.1 hrow
  simp only [InteractionRow.evidenced, hstatus, Bool.and_eq_true, Option.isNone_iff_eq_none] at hevidence
  obtain ⟨⟨⟨⟨_, _⟩, hcode⟩, hresponse⟩, hresolved⟩ := hevidence
  have hsame : (db.claimedRow row input).Founded T :=
    ⟨hfounded.speaker, hfounded.payload, hfounded.createdAt, hfounded.expiresAt, hfounded.proposal⟩
  rw [InteractionRow.isSome_decode_iff, and_iff_right hsame]
  simp only [claimedRow, hcode, hresponse, hresolved, InteractionRow.evidenced]
  simp
  rw [Nat.lt_succ_iff (m := row.version) (n := 9007199254740990)]
  exact and_comm

theorem isSome_decode_expiredRow {input : ExpireInput} {resolvedAt : Nat}
    (hrow : (row.decode T).isSome = true) (hcode : isResolutionCode input.resolutionCode = true)
    (hresponse : input.resolutionResponse.valid T = true) :
    ((db.expiredRow row input resolvedAt).decode T).isSome = true ↔
      (row.resolutionExternalMessageId = none →
        lengthBetween 1 512 input.externalMessageId = true) ∧
      row.version < 9007199254740991 ∧ T.isUtcInstant (T.toChar resolvedAt) = true := by
  obtain ⟨hfounded, _, hmessage, _, _, _, _⟩ := InteractionRow.isSome_decode_iff.1 hrow
  have hsame : (db.expiredRow row input resolvedAt).Founded T :=
    ⟨hfounded.speaker, hfounded.payload, hfounded.createdAt, hfounded.expiresAt, hfounded.proposal⟩
  rw [InteractionRow.isSome_decode_iff, and_iff_right hsame]
  simp only [expiredRow, InteractionRow.evidenced, FinalResponse.valid_stored, hcode,
    hresponse, Option.all_some, Option.isSome_some, Bool.and_true, true_and, and_true]
  cases hheld : row.resolutionExternalMessageId with
  | none =>
    simp
    rw [Nat.lt_succ_iff (m := row.version) (n := 9007199254740990)]
    exact and_left_comm
  | some message =>
    rw [hheld] at hmessage
    simp only [Option.all_some] at hmessage
    have hversion : row.version + 1 ≤ 9007199254740991 ↔ row.version < 9007199254740991 :=
      Nat.lt_iff_add_one_le.symm
    simp only [Option.getD_some, hmessage, hversion, reduceCtorEq, false_implies,
      true_and]

theorem isSome_decode_completedRow {input : CompleteInput} {resolvedAt : Nat}
    (hrow : (row.decode T).isSome = true) (hstatus : row.status = .resolving)
    (hcode : isResolutionCode input.resolutionCode = true)
    (hresponse : input.resolutionResponse.valid T = true) :
    ((db.completedRow row input resolvedAt).decode T).isSome = true ↔
      row.version < 9007199254740991 ∧ T.isUtcInstant (T.toChar resolvedAt) = true := by
  obtain ⟨hfounded, _, hmessage, _, _, _, hevidence⟩ := InteractionRow.isSome_decode_iff.1 hrow
  simp only [InteractionRow.evidenced, hstatus, Bool.and_eq_true] at hevidence
  have hsame : (db.completedRow row input resolvedAt).Founded T :=
    ⟨hfounded.speaker, hfounded.payload, hfounded.createdAt, hfounded.expiresAt, hfounded.proposal⟩
  rw [InteractionRow.isSome_decode_iff, and_iff_right hsame]
  have hterminal : (db.completedRow row input resolvedAt).evidenced = true := by
    cases hinput : input.status <;>
      simp [InteractionRow.evidenced, completedRow, Resolution.status, hinput, hevidence.1.1.1]
  rw [hterminal]
  simp only [completedRow, FinalResponse.valid_stored, hcode, hresponse, hmessage,
    Option.all_some, true_and, and_true]
  rw [Nat.lt_iff_add_one_le]

end InteractionDb

end PlusOne
