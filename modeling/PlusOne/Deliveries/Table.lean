import PlusOne.Contracts.Channels
import PlusOne.Contracts.Errors
import PlusOne.Database.Errors
import PlusOne.Interactions.Table

/-! # The table of outbound deliveries

A delivery is found under its household and idempotency key. The statements of the
repository are functions of the whole table; all of them answer with at most one row. -/

namespace PlusOne

open Interleaving

inductive DeliveryStatus
  | pending | sending | delivered | failed | ambiguous
  deriving DecidableEq

structure DeliveryRow where
  deliveryId : DeliveryId
  householdId : HouseholdId
  conversationId : ConversationId
  channel : ChannelKind
  idempotencyKey : String
  responseHash : ArtifactHash
  status : DeliveryStatus
  destination : JsonRecord
  platformMessageId : Option String
  attemptCount : Nat
  failureCategory : Option String
  createdAt : Nat
  updatedAt : Nat
  deriving DecidableEq

abbrev DeliveryKey := HouseholdId × String

def DeliveryRow.key (row : DeliveryRow) : DeliveryKey := (row.householdId, row.idempotencyKey)

/-- What `DeliveryRecordSchemaV1` checks of a row beyond the types of its columns. -/
def DeliveryRow.valid (row : DeliveryRow) : Bool :=
  lengthBetween 1 512 row.idempotencyKey && row.platformMessageId.all (lengthBetween 1 512) &&
    row.failureCategory.all (lengthBetween 1 256)

/-- What is inserted of a delivery; the stored response is not read again. -/
structure ReservedDelivery where
  deliveryId : DeliveryId
  householdId : HouseholdId
  conversationId : ConversationId
  idempotencyKey : String
  responseHash : ArtifactHash
  channel : ChannelKind
  destination : JsonRecord

def ReservedDelivery.key (input : ReservedDelivery) : DeliveryKey :=
  (input.householdId, input.idempotencyKey)

structure DeliveryDb where
  conversations : List (HouseholdId × ConversationId)
  rows : List DeliveryRow
  now : Nat

/-- The two statuses of `markDeliveryFailed`. -/
inductive FailedStatus
  | failed | ambiguous
  deriving DecidableEq

def FailedStatus.status : FailedStatus → DeliveryStatus
  | failed => .failed
  | ambiguous => .ambiguous

namespace DeliveryDb

variable (db : DeliveryDb)

def findByIdempotency (key : DeliveryKey) : Option DeliveryRow :=
  db.rows.find? fun row => row.key == key

def reservedRow (input : ReservedDelivery) : DeliveryRow :=
  { deliveryId := input.deliveryId, householdId := input.householdId
    conversationId := input.conversationId, channel := input.channel
    idempotencyKey := input.idempotencyKey, responseHash := input.responseHash, status := .pending
    destination := input.destination.stored, platformMessageId := none, attemptCount := 0
    failureCategory := none, createdAt := db.now, updatedAt := db.now }

/-- `INSERT … ON CONFLICT (household_id, idempotency_key) DO NOTHING RETURNING …` -/
def insertDelivery (input : ReservedDelivery) : Except PgFailure (Option DeliveryRow × DeliveryDb) :=
  if !db.conversations.contains (input.householdId, input.conversationId) then .ok (none, db)
  else if db.rows.any fun row => row.key == input.key then .ok (none, db)
  else if db.rows.any fun row => row.deliveryId == input.deliveryId then
    .error (uniqueViolation "outbound_deliveries_public_unique")
  else .ok (some (db.reservedRow input), { db with rows := db.rows ++ [db.reservedRow input] })

/-- `updateDelivery`, which counts the attempt. -/
def updateDelivery (householdId : HouseholdId) (deliveryId : DeliveryId)
    (assignment : DeliveryRow → DeliveryRow) : Option DeliveryRow × DeliveryDb :=
  let assigned (row : DeliveryRow) : DeliveryRow :=
    { assignment row with attemptCount := row.attemptCount + 1, updatedAt := db.now }
  let matching (row : DeliveryRow) : Bool :=
    row.householdId == householdId && row.deliveryId == deliveryId
  ((db.rows.find? matching).map assigned,
    { db with rows := db.rows.map fun row => if matching row then assigned row else row })

def markDelivered (householdId : HouseholdId) (deliveryId : DeliveryId)
    (platformMessageId : String) : Option DeliveryRow × DeliveryDb :=
  db.updateDelivery householdId deliveryId fun row =>
    { row with
      status := .delivered, platformMessageId := some platformMessageId, failureCategory := none }

def markDeliveryFailed (householdId : HouseholdId) (deliveryId : DeliveryId)
    (status : FailedStatus) (failureCategory : String) : Option DeliveryRow × DeliveryDb :=
  db.updateDelivery householdId deliveryId fun row =>
    { row with status := status.status, failureCategory := some failureCategory }

end DeliveryDb

inductive DeliveryStatement
  | insertDelivery (input : ReservedDelivery)
  | findByIdempotency (key : DeliveryKey)
  | markDelivered (householdId : HouseholdId) (deliveryId : DeliveryId) (platformMessageId : String)
  | markDeliveryFailed (householdId : HouseholdId) (deliveryId : DeliveryId) (status : FailedStatus)
      (failureCategory : String)

def DeliveryStatement.perform :
    DeliveryStatement → DeliveryDb → Except PgFailure (Option DeliveryRow × DeliveryDb)
  | .insertDelivery input, db => db.insertDelivery input
  | .findByIdempotency key, db => .ok (db.findByIdempotency key, db)
  | .markDelivered householdId deliveryId platformMessageId, db =>
    .ok (db.markDelivered householdId deliveryId platformMessageId)
  | .markDeliveryFailed householdId deliveryId status failureCategory, db =>
    .ok (db.markDeliveryFailed householdId deliveryId status failureCategory)

/-- The delivery that a reserving statement answers with. -/
def DeliveryStatement.reserves : DeliveryStatement → Option DeliveryKey
  | .insertDelivery input => some input.key
  | .findByIdempotency key => some key
  | .markDelivered .. | .markDeliveryFailed .. => none

inductive DeliveryMove
  | tick (milliseconds : Nat)
  | startConversation (householdId : HouseholdId) (conversationId : ConversationId)

def DeliveryMove.apply : DeliveryMove → DeliveryDb → Option DeliveryDb
  | .tick milliseconds, db => some { db with now := db.now + milliseconds }
  | .startConversation householdId conversationId, db =>
    some { db with conversations := db.conversations ++ [(householdId, conversationId)] }

end PlusOne
