import PlusOne.Contracts.Errors
import PlusOne.Contracts.Identifiers
import PlusOne.Contracts.Json
import PlusOne.Contracts.Mutations
import PlusOne.Contracts.Time
import PlusOne.Interleaving.Store
import PlusOne.Relational.Insert

/-! # Pairing a channel with a household

`PostgresChannelPairingRepository` and `TelegramPairingService`. A transaction of the repository locks
the row of the request before it reads it, so it is one statement here. -/

namespace PlusOne

open Interleaving Relational

inductive PairableChannel
  | telegram | slack
  deriving DecidableEq

structure ChannelPrincipal where
  id : Nat
  channel : PairableChannel
  externalUserId : String
  externalChatId : String
  householdId : HouseholdId
  displayName : Option String
  username : Option String
  approvedAt : UtcInstant
  approvedBy : String
  revokedAt : Option UtcInstant
  metadata : List (String × Json)

structure PendingChannelPairing where
  id : Nat
  channel : PairableChannel
  externalUserId : String
  externalChatId : String
  codeHash : ArtifactHash
  codeSalt : String
  displayName : Option String
  username : Option String
  expiresAt : UtcInstant
  consumedAt : Option UtcInstant
  lastSentAt : UtcInstant
  failedApprovalAttemptCount : Nat
  approvalLockedUntil : Option UtcInstant
  metadata : List (String × Json)
  deriving DecidableEq

structure PairingDb where
  now : UtcInstant
  households : List HouseholdId
  requests : List PendingChannelPairing
  principals : List ChannelPrincipal

namespace PendingChannelPairing

/-- `consumed_at IS NULL AND expires_at > now` -/
def isPending (now : UtcInstant) (request : PendingChannelPairing) : Bool :=
  request.consumedAt.isNone && decide (now < request.expiresAt)

/-- `isApprovalLocked` -/
def isApprovalLocked (request : PendingChannelPairing) (now : UtcInstant) : Bool :=
  request.approvalLockedUntil.any fun lockedUntil => decide (now < lockedUntil)

/-- What the index `channel_pairing_requests_active_user_unique` is about, for a row not consumed. -/
def key (request : PendingChannelPairing) : PairableChannel × String × Option UtcInstant :=
  (request.channel, request.externalUserId, request.consumedAt)

end PendingChannelPairing

/-- What the index `channel_principals_active_unique` is about, for a row not revoked. -/
def ChannelPrincipal.key (principal : ChannelPrincipal) : PairableChannel × String × Option UtcInstant :=
  (principal.channel, principal.externalUserId, principal.revokedAt)

/-! ## The statements -/

structure UpsertPendingRequestInput where
  channel : PairableChannel
  externalUserId : String
  externalChatId : String
  codeHash : ArtifactHash
  codeSalt : String
  displayName : Option String
  username : Option String
  expiresAt : UtcInstant
  lastSentAt : UtcInstant
  metadata : List (String × Json)

structure ConsumePendingInput where
  pendingRequestId : Nat
  householdId : HouseholdId
  approvedBy : String
  approvedAt : UtcInstant

/-- The clock and the statements. A consumption comes with the request as its caller saw it, which the
statement does not read. -/
inductive PairingCall
  | now
  | findActivePrincipal (channel : PairableChannel) (externalUserId : String)
  | upsertPendingRequest (input : UpsertPendingRequestInput)
  | listPendingRequests (channel : PairableChannel) (now : UtcInstant)
  | consumePendingAndApprove (input : ConsumePendingInput) (seen : PendingChannelPairing)
  | recordFailedApprovalAttempt (pendingRequestId : Nat) (lockUntil : Option UtcInstant)
  | revokePrincipal (channel : PairableChannel) (externalUserId : String) (revokedAt : UtcInstant)

abbrev PairingCall.Reply : PairingCall → Type
  | now => UtcInstant
  | findActivePrincipal _ _ => Option ChannelPrincipal
  | upsertPendingRequest _ => PendingChannelPairing
  | listPendingRequests _ _ => List PendingChannelPairing
  | consumePendingAndApprove _ _ => ChannelPrincipal
  | recordFailedApprovalAttempt _ _ => PendingChannelPairing
  | revokePrincipal _ _ _ => Unit

def pairingNotFound (code : String) (id : String) : Thrown :=
  .plusOne {
    category := .validation_rejected
    code := code
    message := "Channel pairing record was not found"
    retry := .never
    receiptLookupRequired := false
    details := [("id", .text id)] }

/-- `code_salt ~ '^[0-9a-f]{32}$'` -/
def isCodeSalt (text : String) : Bool := decide (text.length = 32) && text.toList.all isHexDigit

namespace PairingDb

variable (db : PairingDb)

def findActivePrincipal (channel : PairableChannel) (externalUserId : String) : Option ChannelPrincipal :=
  find ChannelPrincipal.key (channel, externalUserId, none) db.principals

def listPendingRequests (channel : PairableChannel) (now : UtcInstant) : List PendingChannelPairing :=
  db.requests.filter fun request => request.channel == channel && request.isPending now

def newRequest (input : UpsertPendingRequestInput) : PendingChannelPairing where
  id := nextIdentity (db.requests.map PendingChannelPairing.id)
  channel := input.channel
  externalUserId := input.externalUserId
  externalChatId := input.externalChatId
  codeHash := input.codeHash
  codeSalt := input.codeSalt
  displayName := input.displayName
  username := input.username
  expiresAt := input.expiresAt
  consumedAt := none
  lastSentAt := input.lastSentAt
  failedApprovalAttemptCount := 0
  approvalLockedUntil := none
  metadata := input.metadata

/-- `DO UPDATE SET`: everything but the identity and the place in the order of creation. -/
def replaceRequest (excluded old : PendingChannelPairing) : Except Thrown PendingChannelPairing :=
  .ok { excluded with id := old.id }

def upsertPendingRequest (input : UpsertPendingRequestInput) :
    Except Thrown (PendingChannelPairing × PairingDb) := do
  require (isCodeSalt input.codeSalt)
    (.pg ⟨some "23514", some "channel_pairing_requests_code_salt_format", "new row violates check constraint"⟩)
  let row := db.newRequest input
  let requests ← upsert PendingChannelPairing.key (replaceRequest row) row db.requests
  let written := (find PendingChannelPairing.key row.key requests).getD row
  return (written, { db with requests })

/-- `SET consumed_at = … WHERE id = … AND consumed_at IS NULL` -/
def consumeRequest (input : ConsumePendingInput) (row : PendingChannelPairing) : PendingChannelPairing :=
  if row.id = input.pendingRequestId ∧ row.consumedAt = none then
    { row with consumedAt := some input.approvedAt }
  else row

def newPrincipal (request : PendingChannelPairing) (input : ConsumePendingInput) : ChannelPrincipal where
  id := nextIdentity (db.principals.map ChannelPrincipal.id)
  channel := request.channel
  externalUserId := request.externalUserId
  externalChatId := request.externalChatId
  householdId := input.householdId
  displayName := request.displayName
  username := request.username
  approvedAt := input.approvedAt
  approvedBy := input.approvedBy
  revokedAt := none
  metadata := request.metadata

def replacePrincipal (excluded old : ChannelPrincipal) : Except Thrown ChannelPrincipal :=
  .ok { excluded with id := old.id }

def consumePendingAndApprove (input : ConsumePendingInput) : Except Thrown (ChannelPrincipal × PairingDb) := do
  let some request := db.requests.find? fun request =>
      request.id == input.pendingRequestId && request.consumedAt.isNone
    | throw (pairingNotFound "pending_pairing_not_found" (toString input.pendingRequestId))
  let requests := db.requests.map (consumeRequest input)
  require (decide (input.householdId ∈ db.households))
    (pairingNotFound "household_not_found" input.householdId.text)
  let row := db.newPrincipal request input
  let principals ← upsert ChannelPrincipal.key (replacePrincipal row) row db.principals
  let written := (find ChannelPrincipal.key row.key principals).getD row
  return (written, { db with requests, principals })

/-- `COALESCE` keeps a lock that is there when no new one comes. -/
def countFailure (pendingRequestId : Nat) (lockUntil : Option UtcInstant) (row : PendingChannelPairing) :
    PendingChannelPairing :=
  if row.id = pendingRequestId then
    { row with
      failedApprovalAttemptCount := row.failedApprovalAttemptCount + 1
      approvalLockedUntil := lockUntil <|> row.approvalLockedUntil }
  else row

def recordFailedApprovalAttempt (pendingRequestId : Nat) (lockUntil : Option UtcInstant) :
    Except Thrown (PendingChannelPairing × PairingDb) := do
  let some request := find PendingChannelPairing.id pendingRequestId db.requests
    | throw (pairingNotFound "pending_pairing_not_found" (toString pendingRequestId))
  return (countFailure pendingRequestId lockUntil request,
    { db with requests := db.requests.map (countFailure pendingRequestId lockUntil) })

def revokePrincipal (channel : PairableChannel) (externalUserId : String) (revokedAt : UtcInstant) : PairingDb :=
  { db with principals := db.principals.map fun row =>
      if row.key = (channel, externalUserId, none) then { row with revokedAt := some revokedAt } else row }

def perform : (call : PairingCall) → PairingDb → Except Thrown (call.Reply × PairingDb)
  | .now, db => .ok (db.now, db)
  | .findActivePrincipal channel externalUserId, db => .ok (db.findActivePrincipal channel externalUserId, db)
  | .upsertPendingRequest input, db => db.upsertPendingRequest input
  | .listPendingRequests channel now, db => .ok (db.listPendingRequests channel now, db)
  | .consumePendingAndApprove input _, db => db.consumePendingAndApprove input
  | .recordFailedApprovalAttempt pendingRequestId lockUntil, db =>
    db.recordFailedApprovalAttempt pendingRequestId lockUntil
  | .revokePrincipal channel externalUserId revokedAt, db =>
    .ok ((), db.revokePrincipal channel externalUserId revokedAt)

/-- Time passes. -/
def tick (milliseconds : Nat) (db : PairingDb) : Option PairingDb :=
  some { db with now := db.now + milliseconds }

end PairingDb

def pairingStore : Store PairingCall PairingCall.Reply Thrown Nat PairingDb where
  perform := PairingDb.perform
  outside := PairingDb.tick

/-! ## `TelegramPairingService` -/

abbrev PairingProgram (α : Type) := Prog PairingCall PairingCall.Reply Thrown α

def repository (call : PairingCall) : PairingProgram call.Reply := .perform call

def codeTtlMs : Nat := 60 * 60 * 1000

def rateLimitMs : Nat := 10 * 60 * 1000

def lockoutMs : Nat := 60 * 60 * 1000

def maxPending : Nat := 3

def maxFailedAttempts : Nat := 5

/-- SHA-256 and the upper case of a text. -/
structure PairingCrypto where
  sha256 : String → ArtifactHash
  toUpperCase : String → String

/-- `hashCode` -/
def PairingCrypto.hashCode (K : PairingCrypto) (code salt : String) : ArtifactHash :=
  K.sha256 (salt ++ ":" ++ K.toUpperCase (trim code))

structure CreatePairingRequestInput where
  externalUserId : String
  externalChatId : String
  displayName : Option String
  username : Option String
  metadata : List (String × Json)

structure ApproveCodeInput where
  code : String
  householdId : HouseholdId
  approvedBy : String

inductive PairingRequestResult
  | created (code : String) (expiresAt : UtcInstant)
  | rateLimited (retryAfter : UtcInstant)
  | tooManyPending

inductive PairingApprovalResult
  | approved (principal : ChannelPrincipal)
  | invalidCode
  | locked (lockedUntil : UtcInstant)

namespace TelegramPairingService

variable (K : PairingCrypto)

def findPrincipal (externalUserId : String) : PairingProgram (Option ChannelPrincipal) :=
  repository (.findActivePrincipal .telegram externalUserId)

/-- The code and the salt are what the generators give. -/
def createPairingRequest (input : CreatePairingRequestInput) (code salt : String) :
    PairingProgram PairingRequestResult := do
  let now : UtcInstant ← repository .now
  let pending : List PendingChannelPairing ← repository (.listPendingRequests .telegram now)
  let existing := pending.find? fun request => request.externalUserId == input.externalUserId
  match existing.filter fun request => decide (now < request.lastSentAt + rateLimitMs) with
  | some request => return .rateLimited (request.lastSentAt + rateLimitMs)
  | none =>
    if maxPending ≤ pending.length ∧ existing = none then
      return .tooManyPending
    else
      let expiresAt := now + codeTtlMs
      let _ ← repository (.upsertPendingRequest {
        channel := .telegram
        externalUserId := input.externalUserId
        externalChatId := input.externalChatId
        codeHash := K.hashCode code salt
        codeSalt := salt
        displayName := input.displayName
        username := input.username
        expiresAt
        lastSentAt := now
        metadata := input.metadata })
      return .created code expiresAt

/-- A code that no pending request has counts against the first one that is not locked. -/
def failedAttempt (pending : List PendingChannelPairing) (now : UtcInstant) :
    PairingProgram PairingApprovalResult := do
  let locked := pending.find? fun request => request.isApprovalLocked now
  let fallback : PairingApprovalResult :=
    match locked.bind PendingChannelPairing.approvalLockedUntil with
    | some lockedUntil => .locked lockedUntil
    | none => .invalidCode
  match pending.find? fun request => !request.isApprovalLocked now with
  | none => return fallback
  | some first =>
    let failedCount := first.failedApprovalAttemptCount + 1
    let lockUntil := if maxFailedAttempts ≤ failedCount then some (now + lockoutMs) else none
    let _ ← repository (.recordFailedApprovalAttempt first.id lockUntil)
    match lockUntil with
    | some lockedUntil => return .locked lockedUntil
    | none => return fallback

def approveCode (input : ApproveCodeInput) : PairingProgram PairingApprovalResult := do
  let now : UtcInstant ← repository .now
  let pending : List PendingChannelPairing ← repository (.listPendingRequests .telegram now)
  match pending.find? fun request => decide (K.hashCode input.code request.codeSalt = request.codeHash) with
  | some request =>
    match request.approvalLockedUntil.filter fun lockedUntil => decide (now < lockedUntil) with
    | some lockedUntil => return .locked lockedUntil
    | none =>
      let principal : ChannelPrincipal ← repository (.consumePendingAndApprove {
        pendingRequestId := request.id
        householdId := input.householdId
        approvedBy := input.approvedBy
        approvedAt := now } request)
      return .approved principal
  | none => failedAttempt pending now

def revoke (externalUserId : String) : PairingProgram Unit := do
  let now : UtcInstant ← repository .now
  repository (.revokePrincipal .telegram externalUserId now)

def listPending : PairingProgram (List PendingChannelPairing) := do
  let now : UtcInstant ← repository .now
  repository (.listPendingRequests .telegram now)

end TelegramPairingService

end PlusOne
