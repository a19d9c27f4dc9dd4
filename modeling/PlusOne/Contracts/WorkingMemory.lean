import PlusOne.Contracts.Channels

/-! # Working memory proposals -/

namespace PlusOne

def dangerousWorkingMemoryKeys : List String := ["__proto__", "prototype", "constructor"]

def isWorkingMemoryKey (key : String) : Bool :=
  decide (Json.utf16Length key ≤ 128) && !dangerousWorkingMemoryKeys.contains key

mutual

/-- `WorkingMemoryValueSchema` on a value that lies at a depth. -/
def isWorkingMemoryValue (depth : Nat) : Json → Bool
  | .null | .bool _ | .num _ => decide (depth ≤ 6)
  | .str s => decide (depth ≤ 6) && decide (Json.utf16Length s ≤ 500)
  | .arr items =>
    decide (depth ≤ 6) && decide (items.length ≤ 20) && areWorkingMemoryItems (depth + 1) items
  | .obj fields =>
    decide (depth ≤ 6) && decide (fields.length ≤ 50) && areWorkingMemoryFields (depth + 1) fields

def areWorkingMemoryItems (depth : Nat) : List Json → Bool
  | [] => true
  | item :: items => isWorkingMemoryValue depth item && areWorkingMemoryItems depth items

def areWorkingMemoryFields (depth : Nat) : List (String × Json) → Bool
  | [] => true
  | (key, value) :: fields =>
    isWorkingMemoryKey key && isWorkingMemoryValue depth value && areWorkingMemoryFields depth fields

end

theorem areWorkingMemoryItems_iff {depth : Nat} {items : List Json} :
    areWorkingMemoryItems depth items = true ↔
      ∀ item ∈ items, isWorkingMemoryValue depth item = true := by
  induction items with
  | nil => simp [areWorkingMemoryItems]
  | cons item items ih => simp [areWorkingMemoryItems, ih]

theorem areWorkingMemoryFields_iff {depth : Nat} {fields : List (String × Json)} :
    areWorkingMemoryFields depth fields = true ↔ ∀ entry ∈ fields,
      isWorkingMemoryKey entry.1 = true ∧ isWorkingMemoryValue depth entry.2 = true := by
  induction fields with
  | nil => simp [areWorkingMemoryFields]
  | cons field fields ih =>
    obtain ⟨key, value⟩ := field
    simp [areWorkingMemoryFields, ih, and_assoc]

inductive WorkingMemoryKind
  | goal | saving_preference | communication_preference | convention | member_context | other
  deriving DecidableEq

def WorkingMemoryKind.text : WorkingMemoryKind → String
  | goal => "goal"
  | saving_preference => "saving_preference"
  | communication_preference => "communication_preference"
  | convention => "convention"
  | member_context => "member_context"
  | other => "other"

inductive MemoryScope
  | household | member
  deriving DecidableEq

def MemoryScope.text : MemoryScope → String
  | household => "household"
  | member => "member"

structure WorkingMemoryLifecycle where
  createdAt : String
  updatedAt : String
  lastReviewedAt : Option String
  expiresAt : Option String
  deriving DecidableEq

structure WorkingMemoryEntry where
  kind : WorkingMemoryKind
  summary : String
  scope : MemoryScope
  ownerPrincipalRef : Option String
  value : Json
  value_keyed : value.keyed = true
  lifecycle : Option WorkingMemoryLifecycle

instance : DecidableEq WorkingMemoryEntry := fun a b =>
  decidable_of_iff (a.kind = b.kind ∧ a.summary = b.summary ∧ a.scope = b.scope ∧
      a.ownerPrincipalRef = b.ownerPrincipalRef ∧ a.value = b.value ∧ a.lifecycle = b.lifecycle) <| by
    cases a
    cases b
    simp

inductive ResolvedMutation
  | create (entryId : WorkingMemoryEntryId) (entry : WorkingMemoryEntry)
  | replace (entryId : WorkingMemoryEntryId) (entry : WorkingMemoryEntry)
  | delete (entryId : WorkingMemoryEntryId)
  | clear
  deriving DecidableEq

/-- A candidate for `PendingWorkingMemoryMutationSchema`. -/
structure PendingMutation where
  proposalId : WorkingMemoryProposalId
  householdId : HouseholdId
  conversationId : ConversationId
  speakerPrincipalRef : String
  mutation : ResolvedMutation
  basedOnRevision : ArtifactHash
  createdAt : String
  expiresAt : String

def WorkingMemoryLifecycle.valid (T : TimeFormats) (lifecycle : WorkingMemoryLifecycle) : Bool :=
  T.isUtcInstant lifecycle.createdAt && T.isUtcInstant lifecycle.updatedAt &&
    lifecycle.lastReviewedAt.all T.isUtcInstant && lifecycle.expiresAt.all T.isUtcInstant

def WorkingMemoryEntry.valid (T : TimeFormats) (entry : WorkingMemoryEntry) : Bool :=
  lengthBetween 1 500 (trim entry.summary) && entry.ownerPrincipalRef.all (lengthBetween 1 512) &&
    isWorkingMemoryValue 0 entry.value && entry.lifecycle.all (WorkingMemoryLifecycle.valid T) &&
    (entry.scope == .member) == entry.ownerPrincipalRef.isSome

/-- Parsing trims the summary. -/
def WorkingMemoryEntry.trimmed (entry : WorkingMemoryEntry) : WorkingMemoryEntry :=
  { entry with summary := trim entry.summary }

def ResolvedMutation.valid (T : TimeFormats) : ResolvedMutation → Bool
  | create _ entry | replace _ entry => entry.valid T
  | delete _ | clear => true

def ResolvedMutation.mapEntry (f : WorkingMemoryEntry → WorkingMemoryEntry) :
    ResolvedMutation → ResolvedMutation
  | create entryId entry => create entryId (f entry)
  | replace entryId entry => replace entryId (f entry)
  | delete entryId => delete entryId
  | clear => clear

/-- A proposal lives for at most a quarter of an hour. -/
def expiresInTime (T : TimeFormats) (createdAt expiresAt : String) : Bool :=
  match T.dateParse createdAt, T.dateParse expiresAt with
  | some created, some expires =>
    decide (0 < expires - created) && decide (expires - created ≤ 15 * 60000)
  | _, _ => false

/-- What `PendingWorkingMemoryMutationSchema` checks beyond the types of the fields. -/
def PendingMutation.valid (T : TimeFormats) (pending : PendingMutation) : Bool :=
  lengthBetween 1 512 pending.speakerPrincipalRef && pending.mutation.valid T &&
    T.isUtcInstant pending.createdAt && T.isUtcInstant pending.expiresAt &&
    expiresInTime T pending.createdAt pending.expiresAt

def PendingMutation.mapEntry (f : WorkingMemoryEntry → WorkingMemoryEntry)
    (pending : PendingMutation) : PendingMutation :=
  { pending with mutation := pending.mutation.mapEntry f }

/-! ## As JSON -/

def WorkingMemoryLifecycle.toJson (lifecycle : WorkingMemoryLifecycle) : Json :=
  .obj ([("createdAt", .str lifecycle.createdAt), ("updatedAt", .str lifecycle.updatedAt)] ++
    optionalField "lastReviewedAt" (lifecycle.lastReviewedAt.map .str) ++
    optionalField "expiresAt" (lifecycle.expiresAt.map .str))

def WorkingMemoryEntry.toJson (entry : WorkingMemoryEntry) : Json :=
  .obj ([("kind", .str entry.kind.text), ("summary", .str entry.summary),
      ("scope", .str entry.scope.text)] ++
    optionalField "ownerPrincipalRef" (entry.ownerPrincipalRef.map .str) ++
    [("value", entry.value)] ++
    optionalField "lifecycle" (entry.lifecycle.map WorkingMemoryLifecycle.toJson))

def ResolvedMutation.toJson : ResolvedMutation → Json
  | create entryId entry =>
    .obj [("operation", .str "create"), ("entryId", .str entryId.text), ("entry", entry.toJson)]
  | replace entryId entry =>
    .obj [("operation", .str "replace"), ("entryId", .str entryId.text), ("entry", entry.toJson)]
  | delete entryId => .obj [("operation", .str "delete"), ("entryId", .str entryId.text)]
  | clear => .obj [("operation", .str "clear")]

def PendingMutation.toJson (pending : PendingMutation) : Json :=
  .obj [("proposalId", .str pending.proposalId.text), ("householdId", .str pending.householdId.text),
    ("conversationId", .str pending.conversationId.text),
    ("speakerPrincipalRef", .str pending.speakerPrincipalRef),
    ("mutation", pending.mutation.toJson), ("basedOnRevision", .str pending.basedOnRevision.hex),
    ("createdAt", .str pending.createdAt), ("expiresAt", .str pending.expiresAt)]

end PlusOne
