import PlusOne.Interactions.Table
import PlusOne.Mutations.Repository

/-! # The pending-interaction repository -/

namespace PlusOne

open Interleaving

/-- Code of the repository: a program over the statements on its table. -/
abbrev InteractionProgram (α : Type) :=
  Prog InteractionCall (fun _ => Option InteractionRow) Thrown α

def query (call : InteractionCall) : InteractionProgram (Option InteractionRow) := .perform call

/-- The candidate that `mapPendingInteraction` hands to the schema. -/
def InteractionRow.interaction (T : TimeFormats) (row : InteractionRow) : PendingInteraction :=
  { interactionId := row.interactionId, householdId := row.householdId
    conversationId := row.conversationId, speakerPrincipalRef := row.speakerPrincipalRef
    pendingWorkingMemoryMutation := row.payload, status := row.status, version := row.version
    resolutionExternalMessageId := row.resolutionExternalMessageId
    resolutionDecision := row.resolutionDecision, resolutionCode := row.resolutionCode
    resolutionResponse := row.resolutionResponse, createdAt := T.toChar row.createdAt
    expiresAt := T.toChar row.expiresAt, resolvedAt := row.resolvedAt.map T.toChar }

/-- `mapPendingInteraction`, up to the error it throws. -/
def InteractionRow.decode (T : TimeFormats) (row : InteractionRow) : Option PendingInteraction :=
  (row.interaction T).parse T

inductive ClaimResult
  | claimed (interaction : PendingInteraction)
  | replay (interaction : PendingInteraction)

namespace PendingInteractionRepository

def scopeConflict (input : PendingInteraction) : PlusOneError :=
  { category := .serialization_conflict
    code := "pending_interaction_scope_conflict"
    message := "An open Working Memory confirmation already exists for this authenticated scope."
    retry := .after_state_resolution
    receiptLookupRequired := true
    details := [("householdId", .text input.householdId.text),
      ("conversationId", .text input.conversationId.text)] }

def idempotencyConflict (interactionId : WorkingMemoryProposalId) : PlusOneError :=
  { category := .duplicate_replay
    code := "pending_interaction_idempotency_conflict"
    message := "Interaction ID is already bound to a different pending interaction."
    retry := .never
    receiptLookupRequired := true
    details := [("interactionId", .text interactionId.text)] }

def householdNotFound (householdId : HouseholdId) : PlusOneError :=
  { category := .validation_rejected
    code := "pending_interaction_household_not_found"
    message := "Pending interaction household was not found."
    retry := .never
    receiptLookupRequired := false
    details := [("householdId", .text householdId.text)] }

def notFound (interactionId : WorkingMemoryProposalId) : PlusOneError :=
  { category := .validation_rejected
    code := "pending_interaction_not_found"
    message := "Pending interaction was not found in the authenticated household."
    retry := .never
    receiptLookupRequired := false
    details := [("interactionId", .text interactionId.text)] }

def stateConflict (interactionId : WorkingMemoryProposalId) (expectedVersion : Nat) :
    PlusOneError :=
  { category := .serialization_conflict
    code := "pending_interaction_state_conflict"
    message := "Pending interaction state changed before the operation completed."
    retry := .after_state_resolution
    receiptLookupRequired := true
    details := [("interactionId", .text interactionId.text),
      ("expectedVersion", .number expectedVersion)] }

variable (P : Platform) (T : TimeFormats)

def mapPendingInteraction (row : InteractionRow) : InteractionProgram PendingInteraction :=
  match row.decode T with
  | some interaction => .ret interaction
  | none => .throw .zodError

def mapFound : Option InteractionRow → InteractionProgram (Option PendingInteraction)
  | none => .ret none
  | some row => (mapPendingInteraction T row).bind fun interaction => .ret (some interaction)

def findById (key : InteractionKey) : InteractionProgram (Option PendingInteraction) :=
  (query (.findById key)).bind (mapFound T)

def findOpen (scope : HouseholdId × ConversationId × String) :
    InteractionProgram (Option PendingInteraction) :=
  (query (.findOpen scope)).bind (mapFound T)

def findExpired (scope : HouseholdId × ConversationId × String) :
    InteractionProgram (Option PendingInteraction) :=
  (query (.findExpired scope)).bind (mapFound T)

def findByResolutionMessage (householdId : HouseholdId) (conversationId : ConversationId)
    (externalMessageId : String) : InteractionProgram (Option PendingInteraction) :=
  (query (.findByResolutionMessage householdId conversationId externalMessageId)).bind (mapFound T)

/-- Whether an interaction found under the same identifier is the one to be created. -/
def sameInteraction (existing input : PendingInteraction) : Bool :=
  stableJson P.localeCompare existing.toJson == stableJson P.localeCompare input.toJson

/-- The `try` of `create`. -/
def insertOrReplay (input : PendingInteraction) : InteractionProgram PendingInteraction := do
  let row ← query (.insert input)
  match row with
  | some row => mapPendingInteraction T row
  | none =>
    let existing ← findById T (input.householdId, input.interactionId)
    match existing with
    | some existing =>
      if sameInteraction P existing input then return existing
      else .throw (.plusOne (idempotencyConflict input.interactionId))
    | none => .throw (.plusOne (householdNotFound input.householdId))

def create (candidate : PendingInteraction) : InteractionProgram PendingInteraction :=
  match candidate.parse T with
  | none => .throw .zodError
  | some input =>
    (insertOrReplay P T input).tryCatch fun error =>
      if error.code = some "23505" ∧
          error.constraint = some "pending_interactions_open_scope_unique" then
        .throw (.plusOne (scopeConflict input))
      else .throw error

/-- What `claim` returns when it moved no row. -/
def replayOf (input : ClaimInput) : Option PendingInteraction → InteractionProgram ClaimResult
  | none => .throw (.plusOne (notFound input.interactionId))
  | some existing =>
    if existing.resolutionExternalMessageId = some input.externalMessageId then
      .ret (.replay existing)
    else .throw (.plusOne (stateConflict input.interactionId input.expectedVersion))

def claim (input : ClaimInput) : InteractionProgram ClaimResult := do
  let row ← query (.claim input)
  match row with
  | some row =>
    let interaction ← mapPendingInteraction T row
    return .claimed interaction
  | none =>
    let existing ← findById T (input.householdId, input.interactionId)
    replayOf input existing

/-- The row an update returned, or the conflict when it moved none. -/
def moved (interactionId : WorkingMemoryProposalId) (expectedVersion : Nat) :
    Option InteractionRow → InteractionProgram PendingInteraction
  | some row => mapPendingInteraction T row
  | none => .throw (.plusOne (stateConflict interactionId expectedVersion))

def expire (input : ExpireInput) : InteractionProgram PendingInteraction :=
  if input.resolutionResponse.valid T then
    (query (.expire input)).bind (moved T input.interactionId input.expectedVersion)
  else .throw .zodError

def complete (input : CompleteInput) : InteractionProgram PendingInteraction :=
  if input.resolutionResponse.valid T then
    (query (.complete input)).bind (moved T input.interactionId input.expectedVersion)
  else .throw .zodError

end PendingInteractionRepository

/-! ## The calls of the repository -/

inductive InteractionOperation
  | create (candidate : PendingInteraction)
  | claim (input : ClaimInput)
  | expire (input : ExpireInput)
  | complete (input : CompleteInput)
  | findById (key : InteractionKey)
  | findOpen (scope : HouseholdId × ConversationId × String)
  | findExpired (scope : HouseholdId × ConversationId × String)
  | findByResolutionMessage (householdId : HouseholdId) (conversationId : ConversationId)
      (externalMessageId : String)

inductive InteractionResult
  | interaction (interaction : PendingInteraction)
  | claim (result : ClaimResult)
  | found (interaction : Option PendingInteraction)

open PendingInteractionRepository in
/-- The code of a call, with its result in one type. -/
def InteractionOperation.program (P : Platform) (T : TimeFormats) :
    InteractionOperation → InteractionProgram InteractionResult
  | .create candidate => (PendingInteractionRepository.create P T candidate).bind fun i => .ret (.interaction i)
  | .claim input => (PendingInteractionRepository.claim T input).bind fun r => .ret (.claim r)
  | .expire input => (PendingInteractionRepository.expire T input).bind fun i => .ret (.interaction i)
  | .complete input => (PendingInteractionRepository.complete T input).bind fun i => .ret (.interaction i)
  | .findById key => (PendingInteractionRepository.findById T key).bind fun i => .ret (.found i)
  | .findOpen scope => (PendingInteractionRepository.findOpen T scope).bind fun i => .ret (.found i)
  | .findExpired scope =>
    (PendingInteractionRepository.findExpired T scope).bind fun i => .ret (.found i)
  | .findByResolutionMessage householdId conversationId externalMessageId =>
    (PendingInteractionRepository.findByResolutionMessage T householdId conversationId
      externalMessageId).bind fun i => .ret (.found i)

end PlusOne
