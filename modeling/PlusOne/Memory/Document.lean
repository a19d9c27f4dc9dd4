import PlusOne.Memory.Taxonomy

/-! # The working memory document

A document keeps its entries under distinct identifiers, in the order in which they were added. It is
always what its schema gave: every entry is valid and its summary is trimmed. -/

namespace PlusOne

/-! ## Entries under their identifiers -/

abbrev MemoryEntries := List (WorkingMemoryEntryId × WorkingMemoryEntry)

namespace MemoryEntries

/-- `entries[entryId]` -/
def entryOf (entryId : WorkingMemoryEntryId) (entries : MemoryEntries) : Option WorkingMemoryEntry :=
  (entries.find? fun item => item.1 == entryId).map Prod.snd

/-- `entries[entryId] = entry`; a new identifier is added at the end. -/
def put (entryId : WorkingMemoryEntryId) (entry : WorkingMemoryEntry) : MemoryEntries → MemoryEntries
  | [] => [(entryId, entry)]
  | item :: rest => if item.1 = entryId then (entryId, entry) :: rest else item :: put entryId entry rest

/-- `delete entries[entryId]` -/
def drop (entryId : WorkingMemoryEntryId) (entries : MemoryEntries) : MemoryEntries :=
  entries.filter fun item => item.1 != entryId

variable {entryId other : WorkingMemoryEntryId} {entry : WorkingMemoryEntry} {entries : MemoryEntries}

@[simp] theorem entryOf_nil : entryOf entryId [] = none := rfl

theorem entryOf_cons (item : WorkingMemoryEntryId × WorkingMemoryEntry) :
    entryOf entryId (item :: entries) = if item.1 = entryId then some item.2 else entryOf entryId entries := by
  by_cases h : item.1 = entryId <;> simp [entryOf, h]

@[simp] theorem entryOf_put_self : entryOf entryId (put entryId entry entries) = some entry := by
  induction entries with
  | nil => simp [put, entryOf_cons]
  | cons item rest ih =>
    by_cases h : item.1 = entryId
    · simp [put, h, entryOf_cons]
    · simp [put, h, entryOf_cons, ih]

theorem entryOf_put_of_ne (hne : other ≠ entryId) :
    entryOf other (put entryId entry entries) = entryOf other entries := by
  induction entries with
  | nil => simp [put, entryOf_cons, hne.symm]
  | cons item rest ih =>
    by_cases h : item.1 = entryId
    · have hother : item.1 ≠ other := by
        rintro rfl
        exact hne h
      simp [put, h, entryOf_cons, hne.symm]
    · simp [put, h, entryOf_cons, ih]

@[simp] theorem entryOf_drop_self : entryOf entryId (drop entryId entries) = none := by
  simp only [entryOf, drop, Option.map_eq_none_iff, List.find?_eq_none, List.mem_filter]
  rintro item ⟨-, hne⟩
  simpa using hne

theorem entryOf_drop_of_ne (hne : other ≠ entryId) :
    entryOf other (drop entryId entries) = entryOf other entries := by
  induction entries with
  | nil => rfl
  | cons item rest ih =>
    by_cases h : item.1 = entryId
    · have hother : item.1 ≠ other := by
        rintro rfl
        exact hne h
      have hdrop : drop entryId (item :: rest) = drop entryId rest := by simp [drop, h]
      rw [hdrop, ih, entryOf_cons, if_neg hother]
    · have hdrop : drop entryId (item :: rest) = item :: drop entryId rest := by simp [drop, h]
      rw [hdrop, entryOf_cons, entryOf_cons, ih]

theorem mem_of_entryOf (h : entryOf entryId entries = some entry) : (entryId, entry) ∈ entries := by
  simp only [entryOf, Option.map_eq_some_iff] at h
  obtain ⟨item, hitem, rfl⟩ := h
  have hkey : item.1 = entryId := by simpa using List.find?_some hitem
  rw [← hkey]
  exact List.mem_of_find?_eq_some hitem

theorem keys_put_subset {key : WorkingMemoryEntryId} (h : key ∈ (put entryId entry entries).map Prod.fst) :
    key = entryId ∨ key ∈ entries.map Prod.fst := by
  induction entries with
  | nil => simpa [put] using h
  | cons item rest ih =>
    by_cases hkey : item.1 = entryId
    · simp only [put, hkey, if_true, List.map_cons, List.mem_cons] at h ⊢
      tauto
    · simp only [put, hkey, if_false, List.map_cons, List.mem_cons] at h ⊢
      rcases h with h | h
      · exact Or.inr (Or.inl h)
      · have := ih h
        tauto

theorem nodup_put (h : (entries.map Prod.fst).Nodup) : ((put entryId entry entries).map Prod.fst).Nodup := by
  induction entries with
  | nil => simp [put]
  | cons item rest ih =>
    rw [List.map_cons, List.nodup_cons] at h
    by_cases hkey : item.1 = entryId
    · rw [put, if_pos hkey, List.map_cons, List.nodup_cons, ← hkey]
      exact h
    · rw [put, if_neg hkey, List.map_cons, List.nodup_cons]
      constructor
      · intro hmem
        rcases keys_put_subset hmem with heq | hrest
        · exact hkey heq
        · exact h.1 hrest
      · exact ih h.2

theorem nodup_drop (h : (entries.map Prod.fst).Nodup) : ((drop entryId entries).map Prod.fst).Nodup :=
  h.sublist (List.filter_sublist.map _)

/-- Parsing trims every summary. -/
def trimmed (entries : MemoryEntries) : MemoryEntries :=
  entries.map fun item => (item.1, item.2.trimmed)

theorem entryOf_trimmed : entryOf entryId entries.trimmed = (entryOf entryId entries).map
    WorkingMemoryEntry.trimmed := by
  induction entries with
  | nil => rfl
  | cons item rest ih =>
    rw [trimmed, List.map_cons, entryOf_cons, entryOf_cons]
    by_cases h : item.1 = entryId
    · simp [h]
    · simpa [h, trimmed] using ih

theorem keys_trimmed : entries.trimmed.map Prod.fst = entries.map Prod.fst := by
  simp [trimmed, Function.comp_def]

def toJson (entries : MemoryEntries) : Json :=
  .obj [("version", .ofNat 1),
    ("entries", .obj (entries.map fun item => (item.1.text, item.2.toJson)))]

/-- `validateWorkingMemoryDocumentBounds` -/
def bounded (entries : MemoryEntries) : Bool :=
  decide (entries.length ≤ 50) && decide ((stringify entries.toJson).utf8ByteSize ≤ 64 * 1024)

/-- The bytes of a text. -/
def byteSize (chars : List Char) : Nat := (String.ofList chars).utf8ByteSize

theorem byteSize_append (chars others : List Char) : byteSize (chars ++ others) = byteSize chars + byteSize others := by
  simp [byteSize, String.ofList_append, String.utf8ByteSize_append]

theorem byteSize_cons (c : Char) (chars : List Char) : byteSize (c :: chars) = byteSize [c] + byteSize chars :=
  byteSize_append [c] chars

theorem byteSize_eq (chars : List Char) : byteSize chars = (chars.map Char.utf8Size).sum := by
  induction chars with
  | nil => rfl
  | cons c chars ih =>
    have hone : byteSize [c] = c.utf8Size := String.utf8ByteSize_singleton
    rw [byteSize_cons, hone, ih, List.map_cons, List.sum_cons]

theorem bounded_eq (entries : MemoryEntries) : entries.bounded = (decide (entries.length ≤ 50) &&
    decide (((stableJson (fun _ _ => .eq) entries.toJson).map Char.utf8Size).sum ≤ 64 * 1024)) := by
  rw [← byteSize_eq]
  rfl

end MemoryEntries

namespace WorkingMemoryEntry

variable {T : TimeFormats} {entry : WorkingMemoryEntry}

theorem trimmed_trimmed : entry.trimmed.trimmed = entry.trimmed := by
  simp [trimmed, trim_trim]

theorem trimmed_valid : entry.trimmed.valid T = entry.valid T := by
  simp [valid, trimmed, trim_trim]

/-- The entry is what its schema gives. -/
def parsed (T : TimeFormats) (entry : WorkingMemoryEntry) : Bool :=
  entry.valid T && entry.trimmed == entry

theorem parsed_trimmed (h : entry.valid T = true) : entry.trimmed.parsed T = true := by
  simp [parsed, trimmed_valid, trimmed_trimmed, h]

theorem trimmed_of_parsed (h : entry.parsed T = true) : entry.trimmed = entry := by
  simp only [parsed, Bool.and_eq_true, beq_iff_eq] at h
  exact h.2

/-- `canAccessWorkingMemoryEntry` -/
def canAccess (entry : WorkingMemoryEntry) (principalRef : String) : Bool :=
  entry.scope == .household || entry.ownerPrincipalRef == some principalRef

end WorkingMemoryEntry

structure FlexibleWorkingMemory (T : TimeFormats) where
  entries : MemoryEntries
  distinct : (entries.map Prod.fst).Nodup
  parsed : (entries.all fun item => item.2.parsed T) = true
  bounded : entries.bounded = true

namespace FlexibleWorkingMemory

variable {T : TimeFormats}

@[ext] theorem ext {document other : FlexibleWorkingMemory T} (h : document.entries = other.entries) :
    document = other := by
  cases document
  cases other
  cases h
  rfl

instance : DecidableEq (FlexibleWorkingMemory T) := fun document other =>
  decidable_of_iff (document.entries = other.entries) ⟨ext, fun h => h ▸ rfl⟩

theorem parsed_entry (document : FlexibleWorkingMemory T) {entryId : WorkingMemoryEntryId}
    {entry : WorkingMemoryEntry} (h : document.entries.entryOf entryId = some entry) :
    entry.parsed T = true := by
  have hall := List.all_eq_true.1 document.parsed
  have hmem := MemoryEntries.mem_of_entryOf h
  exact hall (entryId, entry) hmem

theorem parsed_trimmed {entries : MemoryEntries} (h : (entries.all fun item => item.2.valid T) = true) :
    (entries.trimmed.all fun item => item.2.parsed T) = true := by
  simp only [MemoryEntries.trimmed, List.all_map, List.all_eq_true, Function.comp_apply] at h ⊢
  intro item hitem
  exact WorkingMemoryEntry.parsed_trimmed (h item hitem)

/-- `FlexibleWorkingMemorySchema.safeParse` -/
def safeParse (T : TimeFormats) (entries : MemoryEntries) (distinct : (entries.map Prod.fst).Nodup) :
    Option (FlexibleWorkingMemory T) :=
  if hvalid : (entries.all fun item => item.2.valid T) = true then
    if hbounded : entries.trimmed.bounded = true then
      some ⟨entries.trimmed, MemoryEntries.keys_trimmed.symm ▸ distinct, parsed_trimmed hvalid, hbounded⟩
    else none
  else none

theorem entries_of_safeParse {entries : MemoryEntries} {distinct : (entries.map Prod.fst).Nodup}
    {document : FlexibleWorkingMemory T} (h : safeParse T entries distinct = some document) :
    document.entries = entries.trimmed := by
  unfold safeParse at h
  split_ifs at h
  cases h
  rfl

end FlexibleWorkingMemory

/-- `emptyWorkingMemoryDocument` -/
def emptyWorkingMemoryDocument (T : TimeFormats) : FlexibleWorkingMemory T where
  entries := []
  distinct := List.nodup_nil
  parsed := rfl
  bounded := by decide +kernel

def workingMemoryRevision {T : TimeFormats} (P : Platform) (document : FlexibleWorkingMemory T) :
    ArtifactHash :=
  hashArtifact P document.entries.toJson

/-! ## What a principal sees -/

structure InspectedEntry where
  entryId : WorkingMemoryEntryId
  kind : WorkingMemoryKind
  summary : String
  scope : MemoryScope
  value : Json

/-- The entries a principal may access, in the order of the document. -/
def FlexibleWorkingMemory.accessible {T : TimeFormats} (document : FlexibleWorkingMemory T)
    (principalRef : String) : MemoryEntries :=
  document.entries.filter fun item => item.2.canAccess principalRef

def visibleWorkingMemoryEntries {T : TimeFormats} (document : FlexibleWorkingMemory T)
    (principalRef : String) : List InspectedEntry :=
  (document.accessible principalRef).map fun (entryId, entry) =>
    { entryId, kind := entry.kind, summary := entry.summary, scope := entry.scope, value := entry.value }

/-! ## Mutations -/

/-- A candidate for `WorkingMemoryMutationDraftSchema`. -/
inductive MutationDraft
  | create (basedOnRevision : String) (kind : WorkingMemoryKind) (summary : String)
      (scope : MemoryScope) (value : Json) (value_keyed : value.keyed = true)
  | replace (basedOnRevision : String) (entryId : WorkingMemoryEntryId) (kind : WorkingMemoryKind)
      (summary : String) (value : Json) (value_keyed : value.keyed = true)
  | delete (basedOnRevision : String) (entryId : WorkingMemoryEntryId)
  | clear (basedOnRevision : String)

def MutationDraft.basedOnRevision : MutationDraft → String
  | create basedOnRevision .. | replace basedOnRevision .. | delete basedOnRevision _
  | clear basedOnRevision => basedOnRevision

def MutationDraft.valid (draft : MutationDraft) : Bool :=
  lengthBetween 1 128 (trim draft.basedOnRevision) &&
    match draft with
    | create _ _ summary _ value _ | replace _ _ _ summary value _ =>
      lengthBetween 1 500 (trim summary) && isWorkingMemoryValue 0 value
    | delete .. | clear _ => true

/-- The codes resolving and applying a mutation can fail with, without their common prefix. -/
inductive MutationFailure
  | mutation_invalid | revision_conflict | entry_not_found | entry_forbidden | write_rejected
  deriving DecidableEq

def MutationFailure.code : MutationFailure → String
  | mutation_invalid => "working_memory_mutation_invalid"
  | revision_conflict => "working_memory_revision_conflict"
  | entry_not_found => "working_memory_entry_not_found"
  | entry_forbidden => "working_memory_entry_forbidden"
  | write_rejected => "working_memory_write_rejected"

structure ResolvedOutcome where
  mutation : ResolvedMutation
  requiresConfirmation : Bool
  deriving DecidableEq

section Resolve

variable {T : TimeFormats} (P : Platform) (document : FlexibleWorkingMemory T) (principalRef : String)

/-- The entry a `replace` or a `delete` is about, when the principal may access it. -/
def accessibleEntry (entryId : WorkingMemoryEntryId) : Except MutationFailure WorkingMemoryEntry :=
  match document.entries.entryOf entryId with
  | none => .error .entry_not_found
  | some existing =>
    if existing.canAccess principalRef then .ok existing else .error .entry_forbidden

/-- `resolveWorkingMemoryMutation`; the identifier is the next one of `ids`. -/
def resolveWorkingMemoryMutation (nextEntryId : WorkingMemoryEntryId) (draft : MutationDraft) :
    Except MutationFailure ResolvedOutcome := do
  if !draft.valid then .error .mutation_invalid
  else if trim draft.basedOnRevision ≠ (workingMemoryRevision P document).hex then
    .error .revision_conflict
  else match draft with
    | .create _ kind summary scope value value_keyed =>
      return {
        mutation := .create nextEntryId
          { kind, summary := trim summary, scope
            ownerPrincipalRef := if scope = .member then some principalRef else none
            value, value_keyed, lifecycle := none }
        requiresConfirmation := (visibleWorkingMemoryEntries document principalRef).any fun item =>
          item.kind == kind }
    | .clear _ => return { mutation := .clear, requiresConfirmation := true }
    | .delete _ entryId =>
      let _ ← accessibleEntry document principalRef entryId
      return { mutation := .delete entryId, requiresConfirmation := true }
    | .replace _ entryId kind summary value value_keyed =>
      let existing ← accessibleEntry document principalRef entryId
      return {
        mutation := .replace entryId
          { kind, summary := trim summary, scope := existing.scope
            ownerPrincipalRef := if existing.scope = .member then existing.ownerPrincipalRef else none
            value, value_keyed, lifecycle := none }
        requiresConfirmation := true }

end Resolve

/-- `workingMemoryLifecycleForMutation`, before it is parsed. -/
def workingMemoryLifecycleForMutation (existing : Option WorkingMemoryLifecycle) (now : String) :
    WorkingMemoryLifecycle :=
  { createdAt := (existing.map WorkingMemoryLifecycle.createdAt).getD now
    updatedAt := now
    lastReviewedAt := existing.bind WorkingMemoryLifecycle.lastReviewedAt
    expiresAt := existing.bind WorkingMemoryLifecycle.expiresAt }

/-- `withMutationLifecycle`, whose parsing can throw. -/
def withMutationLifecycle (T : TimeFormats) (entry : WorkingMemoryEntry)
    (existing : Option WorkingMemoryLifecycle) (now : String) : Except Thrown WorkingMemoryEntry :=
  let stamped := { entry with lifecycle := some (workingMemoryLifecycleForMutation existing now) }
  if stamped.valid T then .ok stamped.trimmed else .error .zodError

inductive ApplyResult (T : TimeFormats)
  | succeeded (document : FlexibleWorkingMemory T)
  | failed (code : MutationFailure)
  deriving DecidableEq

/-- The end of `applyResolvedWorkingMemoryMutation`: the changed entries are parsed again. -/
def reparsed (T : TimeFormats) (entries : MemoryEntries) (distinct : (entries.map Prod.fst).Nodup) :
    ApplyResult T :=
  match FlexibleWorkingMemory.safeParse T entries distinct with
  | some document => .succeeded document
  | none => .failed .write_rejected

/-- `applyResolvedWorkingMemoryMutation`, with the current time as `toISOString` prints it. -/
def applyResolvedWorkingMemoryMutation {T : TimeFormats} (document : FlexibleWorkingMemory T)
    (mutation : ResolvedMutation) (principalRef now : String) : Except Thrown (ApplyResult T) := do
  if !mutation.valid T then return .failed .mutation_invalid
  else match mutation.mapEntry WorkingMemoryEntry.trimmed with
    | .clear => return .succeeded (emptyWorkingMemoryDocument T)
    | .create entryId entry =>
      if (document.entries.entryOf entryId).isSome then return .failed .write_rejected
      else if !entry.canAccess principalRef then return .failed .entry_forbidden
      else
        let stamped ← withMutationLifecycle T entry none now
        return reparsed T (document.entries.put entryId stamped) (MemoryEntries.nodup_put document.distinct)
    | .delete entryId =>
      match accessibleEntry document principalRef entryId with
      | .error code => return .failed code
      | .ok _ => return reparsed T (document.entries.drop entryId) (MemoryEntries.nodup_drop document.distinct)
    | .replace entryId entry =>
      match accessibleEntry document principalRef entryId with
      | .error code => return .failed code
      | .ok existing =>
        if existing.scope ≠ entry.scope ∨ existing.ownerPrincipalRef ≠ entry.ownerPrincipalRef then
          return .failed .entry_forbidden
        else
          let stamped ← withMutationLifecycle T entry existing.lifecycle now
          return reparsed T (document.entries.put entryId stamped)
            (MemoryEntries.nodup_put document.distinct)

end PlusOne
