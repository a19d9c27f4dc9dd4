import PlusOne.Contracts.PendingInteraction
import PlusOne.Database.Tables
import PlusOne.Interleaving.Store

/-! # The table of pending interactions

Each statement of the repository is a function of the whole table. The history of the
claims that took effect is kept beside the rows; no statement reads it. -/

namespace PlusOne

open Interleaving

structure InteractionRow where
  interactionId : WorkingMemoryProposalId
  householdId : HouseholdId
  conversationId : ConversationId
  speakerPrincipalRef : String
  payload : PendingMutation
  status : InteractionStatus
  version : Nat
  resolutionExternalMessageId : Option String
  resolutionDecision : Option Decision
  resolutionCode : Option String
  resolutionResponse : Option FinalResponse
  createdAt : Nat
  expiresAt : Nat
  resolvedAt : Option Nat
  updatedAt : Nat

/-- The columns of `pending_interactions_open_scope_unique`; the kind is the same in all rows. -/
def InteractionRow.scope (row : InteractionRow) : HouseholdId × ConversationId × String :=
  (row.householdId, row.conversationId, row.speakerPrincipalRef)

abbrev InteractionKey := HouseholdId × WorkingMemoryProposalId

def InteractionRow.key (row : InteractionRow) : InteractionKey := (row.householdId, row.interactionId)

/-- A claim that took effect. -/
structure ClaimEvent where
  key : InteractionKey
  externalMessageId : String

structure InteractionDb where
  households : List HouseholdId
  rows : List InteractionRow
  claims : List ClaimEvent
  now : Nat

structure ClaimInput where
  householdId : HouseholdId
  interactionId : WorkingMemoryProposalId
  externalMessageId : String
  decision : Decision
  expectedVersion : Nat

def ClaimInput.key (input : ClaimInput) : InteractionKey := (input.householdId, input.interactionId)

/-- The statuses `complete` can set. -/
inductive Resolution
  | applied | rejected | expired | stale | failed

def Resolution.status : Resolution → InteractionStatus
  | applied => .applied
  | rejected => .rejected
  | expired => .expired
  | stale => .stale
  | failed => .failed

structure ExpireInput where
  householdId : HouseholdId
  interactionId : WorkingMemoryProposalId
  externalMessageId : String
  expectedVersion : Nat
  resolutionCode : String
  resolutionResponse : FinalResponse
  resolvedAt : String

def ExpireInput.key (input : ExpireInput) : InteractionKey := (input.householdId, input.interactionId)

structure CompleteInput where
  householdId : HouseholdId
  interactionId : WorkingMemoryProposalId
  expectedVersion : Nat
  status : Resolution
  resolutionCode : String
  resolutionResponse : FinalResponse
  resolvedAt : String

def CompleteInput.key (input : CompleteInput) : InteractionKey :=
  (input.householdId, input.interactionId)

/-! ## What a `jsonb` column keeps -/

def WorkingMemoryEntry.stored (entry : WorkingMemoryEntry) : WorkingMemoryEntry :=
  { entry with value := entry.value.jsonb, value_keyed := entry.value.keyed_jsonb }

def PendingMutation.stored (pending : PendingMutation) : PendingMutation :=
  pending.mapEntry WorkingMemoryEntry.stored

def JsonRecord.stored (record : JsonRecord) : JsonRecord :=
  ⟨Json.jsonbFields record.fields, (Json.obj record.fields).keyed_jsonb⟩

def FinalResponse.stored (response : FinalResponse) : FinalResponse :=
  { response with
    delivery := { response.delivery with destination := response.delivery.destination.stored } }

/-! ## Statements -/

def invalidDatetime : PgFailure := ⟨some "22007", none, "invalid input syntax for type timestamp with time zone"⟩

def resolutionCodeFailure : PgFailure :=
  constraintFailure "23514" "pending_interactions_resolution_code_check"
    "new row for relation \"pending_interactions\" violates check constraint"

namespace InteractionDb

variable (T : TimeFormats) (db : InteractionDb)

def find (key : InteractionKey) : Option InteractionRow :=
  db.rows.find? fun row => row.key == key

/-- The last row of a scope that satisfies a condition. -/
def findInScope (scope : HouseholdId × ConversationId × String) (p : InteractionRow → Bool) :
    Option InteractionRow :=
  (db.rows.filter fun row => row.scope == scope && row.status.isOpen && p row).getLast?

def findByResolutionMessage (householdId : HouseholdId) (conversationId : ConversationId)
    (externalMessageId : String) : Option InteractionRow :=
  db.rows.find? fun row => row.householdId == householdId && row.conversationId == conversationId &&
    row.resolutionExternalMessageId == some externalMessageId

def replaceRow (row : InteractionRow) : InteractionDb :=
  { db with rows := db.rows.map fun old =>
      if old.interactionId = row.interactionId then row else old }

def insertedRow (input : PendingInteraction) (createdAt expiresAt : Nat) : InteractionRow :=
  { interactionId := input.interactionId, householdId := input.householdId
    conversationId := input.conversationId, speakerPrincipalRef := input.speakerPrincipalRef
    payload := input.pendingWorkingMemoryMutation.stored, status := input.status
    version := input.version, resolutionExternalMessageId := none, resolutionDecision := none
    resolutionCode := none, resolutionResponse := none, createdAt, expiresAt, resolvedAt := none
    updatedAt := db.now }

/-- `INSERT … ON CONFLICT (interaction_id) DO NOTHING RETURNING …` -/
def insert (input : PendingInteraction) :
    Except PgFailure (Option InteractionRow × InteractionDb) :=
  match T.timestamptz input.createdAt, T.timestamptz input.expiresAt with
  | some createdAt, some expiresAt =>
    let row := db.insertedRow input createdAt expiresAt
    if !db.households.contains input.householdId then .ok (none, db)
    else if expiresAt ≤ createdAt then
      .error (constraintFailure "23514" "pending_interactions_expiry"
        "new row for relation \"pending_interactions\" violates check constraint")
    else if db.rows.any fun old => old.interactionId == input.interactionId then .ok (none, db)
    else if row.status.isOpen &&
        db.rows.any fun old => old.status.isOpen && old.scope == row.scope then
      .error (uniqueViolation "pending_interactions_open_scope_unique")
    else .ok (some row, { db with rows := db.rows ++ [row] })
  | _, _ => .error invalidDatetime

/-- The other unique index: a message resolves one interaction of a conversation. -/
def messageTaken (row : InteractionRow) : Bool :=
  row.resolutionExternalMessageId.any fun message =>
    db.rows.any fun old => old.interactionId != row.interactionId &&
      old.householdId == row.householdId && old.conversationId == row.conversationId &&
      old.resolutionExternalMessageId == some message

def messageTakenFailure : PgFailure :=
  uniqueViolation "pending_interactions_resolution_message_unique"

def claimedRow (row : InteractionRow) (input : ClaimInput) : InteractionRow :=
  { row with
    status := .resolving, version := row.version + 1
    resolutionExternalMessageId := some input.externalMessageId
    resolutionDecision := some input.decision, updatedAt := db.now }

def claim (input : ClaimInput) : Except PgFailure (Option InteractionRow × InteractionDb) :=
  match (db.find input.key).filter fun row =>
      row.status == .pending && row.version == input.expectedVersion with
  | none => .ok (none, db)
  | some row =>
    if db.messageTaken (db.claimedRow row input) then .error messageTakenFailure
    else .ok (some { db.claimedRow row input with resolvedAt := none },
      { db.replaceRow (db.claimedRow row input) with
        claims := db.claims ++ [⟨row.key, input.externalMessageId⟩] })

def expiredRow (row : InteractionRow) (input : ExpireInput) (resolvedAt : Nat) : InteractionRow :=
  { row with
    status := .expired, version := row.version + 1
    resolutionExternalMessageId :=
      some (row.resolutionExternalMessageId.getD input.externalMessageId)
    resolutionCode := some input.resolutionCode
    resolutionResponse := some input.resolutionResponse.stored, resolvedAt := some resolvedAt
    updatedAt := db.now }

def expire (input : ExpireInput) : Except PgFailure (Option InteractionRow × InteractionDb) :=
  match T.timestamptz input.resolvedAt with
  | none => .error invalidDatetime
  | some resolvedAt =>
    match (db.find input.key).filter fun row => row.status.isOpen &&
        row.version == input.expectedVersion && decide (row.expiresAt ≤ db.now) with
    | none => .ok (none, db)
    | some row =>
      if !isResolutionCode input.resolutionCode then .error resolutionCodeFailure
      else if db.messageTaken (db.expiredRow row input resolvedAt) then .error messageTakenFailure
      else .ok (some (db.expiredRow row input resolvedAt),
        db.replaceRow (db.expiredRow row input resolvedAt))

def completedRow (row : InteractionRow) (input : CompleteInput) (resolvedAt : Nat) :
    InteractionRow :=
  { row with
    status := input.status.status, version := row.version + 1
    resolutionCode := some input.resolutionCode
    resolutionResponse := some input.resolutionResponse.stored, resolvedAt := some resolvedAt
    updatedAt := db.now }

def complete (input : CompleteInput) : Except PgFailure (Option InteractionRow × InteractionDb) :=
  match T.timestamptz input.resolvedAt with
  | none => .error invalidDatetime
  | some resolvedAt =>
    match (db.find input.key).filter fun row =>
        row.status == .resolving && row.version == input.expectedVersion with
    | none => .ok (none, db)
    | some row =>
      if !isResolutionCode input.resolutionCode then .error resolutionCodeFailure
      else .ok (some (db.completedRow row input resolvedAt),
        db.replaceRow (db.completedRow row input resolvedAt))

end InteractionDb

/-- The statements of the repository. Every one of them answers with at most one row. -/
inductive InteractionCall
  | insert (input : PendingInteraction)
  | findById (key : InteractionKey)
  | findOpen (scope : HouseholdId × ConversationId × String)
  | findExpired (scope : HouseholdId × ConversationId × String)
  | findByResolutionMessage (householdId : HouseholdId) (conversationId : ConversationId)
      (externalMessageId : String)
  | claim (input : ClaimInput)
  | expire (input : ExpireInput)
  | complete (input : CompleteInput)

def InteractionCall.perform (T : TimeFormats) :
    InteractionCall → InteractionDb → Except PgFailure (Option InteractionRow × InteractionDb)
  | .insert input, db => db.insert T input
  | .findById key, db => .ok (db.find key, db)
  | .findOpen scope, db => .ok (db.findInScope scope fun row => decide (db.now < row.expiresAt), db)
  | .findExpired scope, db =>
    .ok (db.findInScope scope fun row => decide (row.expiresAt ≤ db.now), db)
  | .findByResolutionMessage householdId conversationId externalMessageId, db =>
    .ok (db.findByResolutionMessage householdId conversationId externalMessageId, db)
  | .claim input, db => db.claim input
  | .expire input, db => db.expire T input
  | .complete input, db => db.complete T input

inductive InteractionMove
  | tick (microseconds : Nat)
  | createHousehold (householdId : HouseholdId)

def InteractionMove.apply : InteractionMove → InteractionDb → Option InteractionDb
  | .tick microseconds, db => some { db with now := db.now + microseconds }
  | .createHousehold householdId, db =>
    if db.households.contains householdId then none
    else some { db with households := db.households ++ [householdId] }

/-- The table with its statements. -/
def interactionStore (T : TimeFormats) :
    Store InteractionCall (fun _ => Option InteractionRow) PgFailure InteractionMove InteractionDb where
  perform := InteractionCall.perform T
  outside := InteractionMove.apply

end PlusOne
