import PlusOne.Interleaving.Exclusive
import PlusOne.Memory.Document

/-! # The stored text of a working memory

A text is read as a document, as what older versions of the engine stored, or not at all. Reading
can add the lifecycles that a document lacks and draws identifiers for the entries it makes. -/

namespace PlusOne

open Interleaving

/-! ## What older versions stored -/

inductive GoalPriority
  | low | medium | high

def GoalPriority.text : GoalPriority → String
  | low => "low"
  | medium => "medium"
  | high => "high"

inductive SavingStyle
  | aggressive | balanced | conservative

def SavingStyle.text : SavingStyle → String
  | aggressive => "aggressive"
  | balanced => "balanced"
  | conservative => "conservative"

structure LegacyGoal where
  summary : String
  horizon : Option String
  priority : Option GoalPriority

structure LegacySavingPreferences where
  style : Option SavingStyle
  priorities : Option (List String)
  cadence : Option String
  constraints : Option (List String)

structure LegacyCommunication where
  tone : Option String
  detail : Option String
  reminders : Option String

structure LegacyMemberCommunication where
  tone : Option String
  detail : Option String

structure LegacyMember where
  nickname : Option String
  preferredName : Option String
  communication : Option LegacyMemberCommunication

/-- What `LegacyHouseholdWorkingMemorySchema` gives. -/
structure LegacyHouseholdWorkingMemory where
  goals : Option (List (String × LegacyGoal))
  savingPreferences : Option LegacySavingPreferences
  communication : Option LegacyCommunication
  conventions : Option (List (String × String))
  members : Option (List (String × LegacyMember))

def LegacyGoal.toJson (goal : LegacyGoal) : Json :=
  .obj ([("summary", .str goal.summary)] ++ optionalField "horizon" (goal.horizon.map .str) ++
    optionalField "priority" (goal.priority.map fun priority => .str priority.text))

def textsToJson (texts : List String) : Json := .arr (texts.map .str)

def LegacySavingPreferences.toJson (preferences : LegacySavingPreferences) : Json :=
  .obj (optionalField "style" (preferences.style.map fun style => .str style.text) ++
    optionalField "priorities" (preferences.priorities.map textsToJson) ++
    optionalField "cadence" (preferences.cadence.map .str) ++
    optionalField "constraints" (preferences.constraints.map textsToJson))

def LegacyCommunication.toJson (communication : LegacyCommunication) : Json :=
  .obj (optionalField "tone" (communication.tone.map .str) ++
    optionalField "detail" (communication.detail.map .str) ++
    optionalField "reminders" (communication.reminders.map .str))

def LegacyMemberCommunication.toJson (communication : LegacyMemberCommunication) : Json :=
  .obj (optionalField "tone" (communication.tone.map .str) ++
    optionalField "detail" (communication.detail.map .str))

def LegacyMember.toJson (member : LegacyMember) : Json :=
  .obj (optionalField "nickname" (member.nickname.map .str) ++
    optionalField "preferredName" (member.preferredName.map .str) ++
    optionalField "communication" (member.communication.map LegacyMemberCommunication.toJson))

def conventionToJson (key convention : String) : Json :=
  .obj [("key", .str key), ("convention", .str convention)]

theorem textsToJson_keyed (texts : List String) : (textsToJson texts).keyed = true := by
  have hitems : Json.keyedItems (texts.map .str) = true := by
    induction texts with
    | nil => rfl
    | cons text texts ih => simpa [Json.keyedItems, Json.keyed] using ih
  simpa [textsToJson, Json.keyed] using hitems

theorem LegacyGoal.toJson_keyed (goal : LegacyGoal) : goal.toJson.keyed = true := by
  obtain ⟨summary, horizon, priority⟩ := goal
  cases horizon <;> cases priority <;>
    simp [toJson, optionalField, Json.keyed, Json.keyedFields]

theorem LegacySavingPreferences.toJson_keyed (preferences : LegacySavingPreferences) :
    preferences.toJson.keyed = true := by
  obtain ⟨style, priorities, cadence, constraints⟩ := preferences
  cases style <;> cases priorities <;> cases cadence <;> cases constraints <;>
    simp [toJson, optionalField, Json.keyed, Json.keyedFields, textsToJson_keyed]

theorem LegacyCommunication.toJson_keyed (communication : LegacyCommunication) :
    communication.toJson.keyed = true := by
  obtain ⟨tone, detail, reminders⟩ := communication
  cases tone <;> cases detail <;> cases reminders <;>
    simp [toJson, optionalField, Json.keyed, Json.keyedFields]

theorem LegacyMemberCommunication.toJson_keyed (communication : LegacyMemberCommunication) :
    communication.toJson.keyed = true := by
  obtain ⟨tone, detail⟩ := communication
  cases tone <;> cases detail <;> simp [toJson, optionalField, Json.keyed, Json.keyedFields]

theorem LegacyMember.toJson_keyed (member : LegacyMember) : member.toJson.keyed = true := by
  obtain ⟨nickname, preferredName, communication⟩ := member
  cases nickname <;> cases preferredName <;> cases communication <;>
    simp [toJson, optionalField, Json.keyed, Json.keyedFields,
      LegacyMemberCommunication.toJson_keyed]

theorem conventionToJson_keyed (key convention : String) :
    (conventionToJson key convention).keyed = true := by
  simp [conventionToJson, Json.keyed, Json.keyedFields]

/-! ## Reading -/

/-- What `JSON.parse` and the two schemas make of a text: no JSON they know, a document, or the known
keys of an older one beside its other fields. -/
inductive StoredContent (T : TimeFormats)
  | unreadable
  | flexible (document : FlexibleWorkingMemory T)
  | legacy (known : LegacyHouseholdWorkingMemory) (unknown : List (String × Json))
      (unknown_keyed : (Json.obj unknown).keyed = true)

/-- What an operation on a working memory does outside itself; `nextEntryId` answers with the first
identifier of the generator that is not taken. -/
inductive MemoryCall
  | get
  | update (workingMemory : String)
  | now
  | nextEntryId (taken : List WorkingMemoryEntryId)

abbrev MemoryReply : MemoryCall → Type
  | .get => Option String
  | .update _ => Unit
  | .now => String
  | .nextEntryId _ => WorkingMemoryEntryId

abbrev MemoryProgram := Prog MemoryCall MemoryReply Thrown

/-- The storage answers or fails; the clock and the generator give what they give. -/
inductive MemoryChoice
  | answer
  | fail (error : Thrown)
  | time (now : String)
  | entryId (entryId : WorkingMemoryEntryId)

/-- The stored text of one resource. -/
def memoryCell : Cell MemoryCall MemoryReply Thrown (Option String) where
  Choice := MemoryChoice
  run
    | .get, .answer, stored => some (.ok stored, stored)
    | .get, .fail error, stored => some (.error error, stored)
    | .update workingMemory, .answer, _ => some (.ok (), some workingMemory)
    | .update _, .fail error, stored => some (.error error, stored)
    | .now, .time now, stored => some (.ok now, stored)
    | .nextEntryId taken, .entryId entryId, stored =>
      if entryId ∈ taken then none else some (.ok entryId, stored)
    | _, _, _ => none

structure DecodedWorkingMemory (T : TimeFormats) where
  document : FlexibleWorkingMemory T
  migrated : Bool

/-- Entries under distinct identifiers. -/
def DistinctEntries := { entries : MemoryEntries // (entries.map Prod.fst).Nodup }

def DistinctEntries.put (entries : DistinctEntries) (entryId : WorkingMemoryEntryId)
    (entry : WorkingMemoryEntry) : DistinctEntries :=
  ⟨entries.1.put entryId entry, MemoryEntries.nodup_put entries.2⟩

variable {T : TimeFormats}

def defaultWorkingMemoryLifecycle (T : TimeFormats) (now : String) :
    Except Thrown WorkingMemoryLifecycle :=
  let lifecycle : WorkingMemoryLifecycle :=
    { createdAt := now, updatedAt := now, lastReviewedAt := none, expiresAt := none }
  if lifecycle.valid T then .ok lifecycle else .error .zodError

/-- The entry with a lifecycle. -/
def WorkingMemoryEntry.withLifecycle (entry : WorkingMemoryEntry) (lifecycle : WorkingMemoryLifecycle) :
    WorkingMemoryEntry :=
  { entry with lifecycle := some (entry.lifecycle.getD lifecycle) }

def MemoryEntries.withLifecycles (entries : MemoryEntries) (lifecycle : WorkingMemoryLifecycle) :
    MemoryEntries :=
  entries.map fun item => (item.1, item.2.withLifecycle lifecycle)

theorem MemoryEntries.keys_withLifecycles {entries : MemoryEntries} {lifecycle : WorkingMemoryLifecycle} :
    (entries.withLifecycles lifecycle).map Prod.fst = entries.map Prod.fst := by
  simp [withLifecycles, Function.comp_def]

/-- Some entry has no lifecycle. -/
def FlexibleWorkingMemory.unstamped (document : FlexibleWorkingMemory T) : Bool :=
  document.entries.any fun item => item.2.lifecycle.isNone

/-- A document read from its text: the lifecycles it lacks are added, and it is parsed again. -/
def decodeFlexible (document : FlexibleWorkingMemory T) (lifecycle : WorkingMemoryLifecycle) :
    Except Thrown (DecodedWorkingMemory T) :=
  match FlexibleWorkingMemory.safeParse T (document.entries.withLifecycles lifecycle)
      (MemoryEntries.keys_withLifecycles.symm ▸ document.distinct) with
  | some filled => .ok ⟨filled, document.unstamped⟩
  | none => .error .zodError

/-- The entries for the known keys of an older document, in the order in which they are added. -/
def legacyEntries (known : LegacyHouseholdWorkingMemory) (lifecycle : WorkingMemoryLifecycle) :
    List WorkingMemoryEntry :=
  ((known.goals.getD []).map fun (_, goal) =>
    { kind := .goal, summary := goal.summary, scope := .household, ownerPrincipalRef := none
      value := goal.toJson, value_keyed := goal.toJson_keyed, lifecycle := some lifecycle }) ++
  (known.savingPreferences.toList.map fun preferences =>
    { kind := .saving_preference, summary := "Saving preferences", scope := .household
      ownerPrincipalRef := none, value := preferences.toJson, value_keyed := preferences.toJson_keyed
      lifecycle := some lifecycle }) ++
  (known.communication.toList.map fun communication =>
    { kind := .communication_preference, summary := "Communication preferences", scope := .household
      ownerPrincipalRef := none, value := communication.toJson
      value_keyed := communication.toJson_keyed, lifecycle := some lifecycle }) ++
  ((known.conventions.getD []).map fun (key, convention) =>
    { kind := .convention, summary := convention, scope := .household, ownerPrincipalRef := none
      value := conventionToJson key convention, value_keyed := conventionToJson_keyed key convention
      lifecycle := some lifecycle }) ++
  (known.members.getD []).map fun (ownerPrincipalRef, member) =>
    { kind := .member_context
      summary := (member.preferredName.orElse fun _ => member.nickname).getD
        ("Member " ++ ownerPrincipalRef)
      scope := .member, ownerPrincipalRef := some ownerPrincipalRef
      value := member.toJson, value_keyed := member.toJson_keyed, lifecycle := some lifecycle }

def addEntry (T : TimeFormats) (entries : DistinctEntries) (entry : WorkingMemoryEntry) :
    MemoryProgram DistinctEntries := do
  let entryId ← Prog.perform (.nextEntryId (entries.1.map Prod.fst))
  if entry.valid T then return entries.put entryId entry.trimmed else throw .zodError

def addEntries (T : TimeFormats) : DistinctEntries → List WorkingMemoryEntry →
    MemoryProgram DistinctEntries
  | entries, [] => return entries
  | entries, entry :: rest => do
    let entries ← addEntry T entries entry
    addEntries T entries rest

/-- The end of reading an older document. -/
def migratedDocument (T : TimeFormats) (entries : DistinctEntries) : Option (DecodedWorkingMemory T) :=
  (FlexibleWorkingMemory.safeParse T entries.1 entries.2).map fun document => ⟨document, true⟩

def decodeLegacy (T : TimeFormats) (known : LegacyHouseholdWorkingMemory) (unknown : List (String × Json))
    (unknown_keyed : (Json.obj unknown).keyed = true) (lifecycle : WorkingMemoryLifecycle) :
    MemoryProgram (Option (DecodedWorkingMemory T)) := do
  let entries ← addEntries T ⟨[], List.nodup_nil⟩ (legacyEntries known lifecycle)
  if unknown.isEmpty then return migratedDocument T entries
  else if isWorkingMemoryValue 0 (.obj unknown) then
    let entries ← addEntry T entries
      { kind := .other, summary := "Legacy working memory", scope := .household
        ownerPrincipalRef := none, value := .obj unknown, value_keyed := unknown_keyed
        lifecycle := some lifecycle }
    return migratedDocument T entries
  else return none

/-- `decodeStoredWorkingMemory`; `none` is its failure, `working_memory_read_failed`. -/
def decodeStoredWorkingMemory (contentOf : String → StoredContent T) (stored : Option String)
    (now : String) : MemoryProgram (Option (DecodedWorkingMemory T)) := do
  let lifecycle ← Prog.ofExcept (defaultWorkingMemoryLifecycle T now)
  match stored with
  | none => return some ⟨emptyWorkingMemoryDocument T, false⟩
  | some text =>
    match contentOf text with
    | .unreadable => return none
    | .flexible document =>
      let decoded ← Prog.ofExcept (decodeFlexible document lifecycle)
      return some decoded
    | .legacy known unknown unknown_keyed => decodeLegacy T known unknown unknown_keyed lifecycle

/-! ## The document of a text -/

/-- The document a stored text stands for; a text that still has to be migrated has none. -/
def storedDocument (contentOf : String → StoredContent T) :
    Option String → Option (FlexibleWorkingMemory T)
  | none => some (emptyWorkingMemoryDocument T)
  | some text =>
    match contentOf text with
    | .flexible document => if document.unstamped then none else some document
    | .unreadable | .legacy .. => none

section Decoding

variable {contentOf : String → StoredContent T} {document : FlexibleWorkingMemory T}
  {lifecycle : WorkingMemoryLifecycle} {decoded : DecodedWorkingMemory T}

theorem FlexibleWorkingMemory.withLifecycles_of_stamped (h : document.unstamped = false) :
    document.entries.withLifecycles lifecycle = document.entries := by
  have hsame : ∀ item ∈ document.entries, (item.1, item.2.withLifecycle lifecycle) = id item := by
    intro item hitem
    have hstamped : ¬item.2.lifecycle.isNone = true := List.any_eq_false.1 h item hitem
    obtain ⟨entryId, kind, summary, scope, owner, value, keyed, existing⟩ := item
    cases existing with
    | none => exact absurd rfl hstamped
    | some existing => rfl
  rw [MemoryEntries.withLifecycles, List.map_congr_left hsame, List.map_id]

theorem MemoryEntries.trimmed_of_parsed (document : FlexibleWorkingMemory T) :
    document.entries.trimmed = document.entries := by
  have hsame : ∀ item ∈ document.entries, (item.1, item.2.trimmed) = id item := by
    intro item hitem
    have hparsed := List.all_eq_true.1 document.parsed item hitem
    rw [WorkingMemoryEntry.trimmed_of_parsed hparsed]
    rfl
  rw [MemoryEntries.trimmed, List.map_congr_left hsame, List.map_id]

theorem migrated_of_decodeFlexible (hdecoded : decodeFlexible document lifecycle = .ok decoded) :
    decoded.migrated = document.unstamped := by
  unfold decodeFlexible at hdecoded
  split at hdecoded
  · cases hdecoded
    rfl
  · cases hdecoded

theorem decodeFlexible_of_stamped (h : document.unstamped = false)
    (hdecoded : decodeFlexible document lifecycle = .ok decoded) : decoded.document = document := by
  unfold decodeFlexible at hdecoded
  split at hdecoded
  · next filled hfilled =>
    cases hdecoded
    have hentries := FlexibleWorkingMemory.entries_of_safeParse hfilled
    rw [FlexibleWorkingMemory.withLifecycles_of_stamped h, MemoryEntries.trimmed_of_parsed] at hentries
    exact FlexibleWorkingMemory.ext hentries
  · cases hdecoded

/-- Reading leaves the text as it is. -/
theorem decodeStoredWorkingMemory_calls (contentOf : String → StoredContent T) (stored : Option String)
    (now : String) :
    (decodeStoredWorkingMemory contentOf stored now).Calls fun op => ∃ taken, op = .nextEntryId taken := by
  have hadd : ∀ entries entry, (addEntry T entries entry).Calls fun op => ∃ taken, op = .nextEntryId taken := by
    intro entries entry
    apply Prog.Calls.bind (Prog.Calls.perform ⟨_, rfl⟩)
    intro entryId
    split
    · exact .ret _
    · exact .throw _
  have hall : ∀ rest entries,
      (addEntries T entries rest).Calls fun op => ∃ taken, op = .nextEntryId taken := by
    intro rest
    induction rest with
    | nil => exact fun entries => .ret _
    | cons entry rest ih => exact fun entries => (hadd entries entry).bind ih
  apply Prog.Calls.bind (Prog.Calls.ofExcept _)
  intro lifecycle
  cases stored with
  | none => exact .ret _
  | some text =>
    simp only
    split
    · exact .ret _
    · exact (Prog.Calls.ofExcept _).bind fun _ => .ret _
    · apply (hall _ _).bind
      intro entries
      split_ifs
      · exact .ret _
      · exact (hadd _ _).bind fun _ => .ret _
      · exact .ret _

end Decoding

end PlusOne
