import Mathlib.Data.List.Sort
import PlusOne.Mutations.Registry

/-! # The mutation command repository -/

namespace PlusOne

open Interleaving

/-- What the code takes from outside the repository: RFC 8785 canonicalisation, SHA-256, the
default collation of strings, and the JSON input function of the database. -/
structure Platform where
  canonicalize : Json → String
  sha256 : String → ArtifactHash
  localeCompare : String → String → Ordering
  jsonIn : String → Option Json

def hashArtifact (P : Platform) (value : Json) : ArtifactHash := P.sha256 (P.canonicalize value)

/-! ## Stable JSON text -/

def hexDigit (n : Nat) : Char := Nat.digitChar n

/-- One character inside a JSON string literal. -/
def escapeChar (c : Char) : List Char :=
  if c = '"' then ['\\', '"']
  else if c = '\\' then ['\\', '\\']
  else if c.toNat = 8 then ['\\', 'b']
  else if c.toNat = 9 then ['\\', 't']
  else if c.toNat = 10 then ['\\', 'n']
  else if c.toNat = 12 then ['\\', 'f']
  else if c.toNat = 13 then ['\\', 'r']
  else if c.toNat < 32 then ['\\', 'u', '0', '0', hexDigit (c.toNat / 16), hexDigit (c.toNat % 16)]
  else [c]

def quoteJson (s : String) : List Char := '"' :: s.toList.flatMap escapeChar ++ ['"']

/-- `parts.join(',')` -/
def joinComma : List (List Char) → List Char
  | [] => []
  | [part] => part
  | part :: parts => part ++ ',' :: joinComma parts

/-- The comparison `entries.sort` is given, as an order on keys. -/
def localeLe (localeCompare : String → String → Ordering) (entry other : String × List Char) : Prop :=
  localeCompare entry.1 other.1 ≠ .gt

instance (localeCompare : String → String → Ordering) : DecidableRel (localeLe localeCompare) :=
  fun _ _ => inferInstanceAs (Decidable (_ ≠ _))

def entryText (entry : String × List Char) : List Char := quoteJson entry.1 ++ ':' :: entry.2

mutual

/-- The text of a value with the entries of every object in collation order. -/
def stableJson (localeCompare : String → String → Ordering) : Json → List Char
  | .null => "null".toList
  | .bool true => "true".toList
  | .bool false => "false".toList
  | .num n => n.text.toList
  | .str s => quoteJson s
  | .arr items => '[' :: joinComma (stableItems localeCompare items) ++ [']']
  | .obj fields =>
    let entries := (stableFields localeCompare fields).insertionSort (localeLe localeCompare)
    '{' :: joinComma (entries.map entryText) ++ ['}']

def stableItems (localeCompare : String → String → Ordering) : List Json → List (List Char)
  | [] => []
  | item :: items => stableJson localeCompare item :: stableItems localeCompare items

def stableFields (localeCompare : String → String → Ordering) :
    List (String × Json) → List (String × List Char)
  | [] => []
  | (key, value) :: fields =>
    (key, stableJson localeCompare value) :: stableFields localeCompare fields

end

/-! ## Records -/

structure MutationCommandRecord where
  commandId : MutationCommandId
  householdId : HouseholdId
  taskId : TaskId
  commandType : String
  checkedProposalId : ArtifactId
  checkedProposalHash : ArtifactHash
  idempotencyKey : IdempotencyKey
  confirmationRequired : Bool
  confirmationId : Option ConfirmationId
  payloadSchema : SchemaIdentity
  payload : Json
  status : CommandStatus
  failureCategory : Option String
  registeredAt : UtcInstant
  updatedAt : UtcInstant

def MutationCommandRecord.key (record : MutationCommandRecord) : CommandKey :=
  (record.householdId, record.commandId)

def mapCommand (row : CommandRow) : MutationCommandRecord :=
  { commandId := row.commandId, householdId := row.householdId, taskId := row.taskId
    commandType := row.commandType, checkedProposalId := row.checkedProposalId
    checkedProposalHash := row.checkedProposalHash, idempotencyKey := row.idempotencyKey
    confirmationRequired := row.confirmationRequired, confirmationId := row.confirmationId
    payloadSchema := row.payloadSchema, payload := row.payload, status := row.status
    failureCategory := row.failureCode, registeredAt := row.registeredAt
    updatedAt := row.updatedAt }

def sameEnvelope (P : Platform) (record : MutationCommandRecord) (input : CheckedCommand)
    (confirmationRequired : Bool) : Bool :=
  record.commandId == input.commandId && record.taskId == input.taskId &&
    record.commandType == input.commandType &&
    record.checkedProposalId == input.checkedProposalId &&
    record.checkedProposalHash == input.checkedProposalHash &&
    record.confirmationRequired == confirmationRequired &&
    record.confirmationId == input.confirmationId &&
    record.payloadSchema.schemaName == input.payloadSchema.schemaName &&
    record.payloadSchema.schemaVersion == input.payloadSchema.schemaVersion &&
    stableJson P.localeCompare record.payload == stableJson P.localeCompare input.payload

/-! ## Errors -/

def householdNotFound (householdId : HouseholdId) : PlusOneError :=
  { category := .validation_rejected
    code := "mutation_command_household_not_found"
    message := "Mutation command household was not found"
    retry := .never
    receiptLookupRequired := false
    details := [("householdId", .text householdId.text)] }

def idempotencyKeyReused (idempotencyKey : IdempotencyKey) : PlusOneError :=
  { category := .duplicate_replay
    code := "idempotency_key_reused"
    message := "Idempotency key is already bound to a different command envelope"
    retry := .never
    receiptLookupRequired := true
    details := [("idempotencyKey", .text idempotencyKey.text)] }

def checkedProposalAlreadyCommanded : PlusOneError :=
  { category := .duplicate_replay
    code := "checked_proposal_already_commanded"
    message := "The exact checked proposal is already bound to a mutation command"
    retry := .never
    receiptLookupRequired := true
    details := [] }

def stateConflict (commandId : MutationCommandId) (expected : String) : PlusOneError :=
  { category := .serialization_conflict
    code := "mutation_command_state_conflict"
    message := "Mutation command state changed before the operation completed"
    retry := .after_state_resolution
    receiptLookupRequired := true
    details := [("commandId", .text commandId.text), ("expected", .text expected)] }

def normalizeRegistrationError (error : Thrown) : PlusOneError :=
  match error with
  | .plusOne error => error
  | error =>
    if error.code = some "23505" ∧
        error.constraint = some "mutation_commands_checked_proposal_once" then
      checkedProposalAlreadyCommanded
    else normalizeMutationDatabaseError error

/-! ## Operations -/

/-- `CheckedCommandSchemaV1.parse` -/
def parseCheckedCommand (candidate : CheckedCommand) : Program CheckedCommand :=
  if candidate.valid then .ret candidate else .throw .zodError

def validateReplay (P : Platform) (record : MutationCommandRecord) (input : CheckedCommand)
    (confirmationRequired : Bool) : Program MutationCommandRecord :=
  if sameEnvelope P record input confirmationRequired then .ret record
  else .throw (.plusOne (idempotencyKeyReused input.idempotencyKey))

def findByIdempotency (householdId : HouseholdId) (idempotencyKey : IdempotencyKey) :
    Program (Option MutationCommandRecord) := do
  let row : Option CommandRow ← issue (.findByIdempotency householdId idempotencyKey)
  return row.map mapCommand

def findByCommandId (key : CommandKey) : Program (Option MutationCommandRecord) := do
  let row : Option CommandRow ← issue (.findCommand key)
  return row.map mapCommand

/-- The constraints whose violation may mean that the same command was registered meanwhile. -/
def racedConstraints : List String :=
  ["mutation_commands_public_unique", "mutation_commands_idempotency_unique"]

/-- The `catch` of `register`. -/
def registrationFailed (P : Platform) (input : CheckedCommand) (confirmationRequired : Bool)
    (error : Thrown) : Program MutationCommandRecord := do
  if error.code = some "23505" ∧ error.constraint.getD "" ∈ racedConstraints then
    let replay ← findByIdempotency input.householdId input.idempotencyKey
    match replay with
    | some replay => validateReplay P replay input confirmationRequired
    | none => .throw (.plusOne (normalizeRegistrationError error))
  else .throw (.plusOne (normalizeRegistrationError error))

/-- The `try` of `register`; the returned row carries the confirmation of the input. -/
def insertRegistered (input : CheckedCommand) (confirmationRequired : Bool) :
    Program MutationCommandRecord := do
  let inserted : Option CommandRow ← issue (.insertCommand input confirmationRequired)
  match inserted with
  | none => .throw (.plusOne (householdNotFound input.householdId))
  | some row => return { mapCommand row with confirmationId := input.confirmationId }

def register (P : Platform) (candidate : CheckedCommand) (confirmationRequired : Bool) :
    Program MutationCommandRecord := do
  let input ← parseCheckedCommand candidate
  let preexisting ← findByIdempotency input.householdId input.idempotencyKey
  match preexisting with
  | some preexisting => validateReplay P preexisting input confirmationRequired
  | none =>
    (insertRegistered input confirmationRequired).tryCatch
      (registrationFailed P input confirmationRequired)

def markExecutionPending (key : CommandKey) (site : ReconcileSite) : Program Unit := do
  let rowCount : Nat ← issue (.markExecutionPending key site)
  if rowCount ≠ 1 then .throw (.plusOne (stateConflict key.2 "registered"))
  else return ()

def markExecutionFailed (key : CommandKey) (failureCode : String) : Program Unit := do
  let rowCount : Nat ← issue (.markExecutionFailed key failureCode)
  if rowCount ≠ 1 then .throw (.plusOne (stateConflict key.2 "execution_pending"))
  else return ()

def recordReadback (householdId : HouseholdId) (candidate : ReadbackResult) : Program Unit := do
  if !candidate.valid then .throw .zodError
  else
    let rowCount : Nat ← (issue (.recordReadback householdId candidate)).tryCatch fun error =>
      .throw (.plusOne (normalizeMutationDatabaseError error))
    if rowCount ≠ 1 then .throw (.plusOne (stateConflict candidate.commandId "committed"))
    else return ()

def findReceiptByCommand (key : CommandKey) : Program (Option MutationReceipt) := do
  let receipt : Option MutationReceipt ← issue (.findReceipt key)
  match receipt with
  | none => return none
  | some receipt => if receipt.valid then return some receipt else .throw .zodError

def findReadbackByCommand (key : CommandKey) : Program (Option ReadbackResult) := do
  let readback : Option ReadbackResult ← issue (.findReadback key)
  match readback with
  | none => return none
  | some readback => if readback.valid then return some readback else .throw .zodError

end PlusOne
