import PlusOne.Contracts.WorkingMemory

/-! # Pending interactions -/

namespace PlusOne

inductive InteractionStatus
  | pending | resolving | applied | rejected | expired | stale | failed
  deriving DecidableEq

namespace InteractionStatus

def text : InteractionStatus → String
  | pending => "pending"
  | resolving => "resolving"
  | applied => "applied"
  | rejected => "rejected"
  | expired => "expired"
  | stale => "stale"
  | failed => "failed"

/-- The statuses the unique index on open scopes speaks about. -/
def isOpen : InteractionStatus → Bool
  | pending | resolving => true
  | _ => false

end InteractionStatus

inductive Decision
  | approve | reject
  deriving DecidableEq

def Decision.text : Decision → String
  | approve => "approve"
  | reject => "reject"

/-- A candidate for `PendingInteractionSchemaV1`. -/
structure PendingInteraction where
  interactionId : WorkingMemoryProposalId
  householdId : HouseholdId
  conversationId : ConversationId
  speakerPrincipalRef : String
  pendingWorkingMemoryMutation : PendingMutation
  status : InteractionStatus
  version : Nat
  resolutionExternalMessageId : Option String
  resolutionDecision : Option Decision
  resolutionCode : Option String
  resolutionResponse : Option FinalResponse
  createdAt : String
  expiresAt : String
  resolvedAt : Option String

/-- `^[a-z0-9_]{1,160}$` -/
def isResolutionCode (code : String) : Bool :=
  decide (1 ≤ code.length) && decide (code.length ≤ 160) &&
    code.toList.all fun c => isLower c || c.isDigit || c == '_'

namespace PendingInteraction

/-- The fields an interaction repeats from its proposal. -/
def matchesProposal (interaction : PendingInteraction) : Bool :=
  let proposal := interaction.pendingWorkingMemoryMutation
  interaction.interactionId == proposal.proposalId &&
    interaction.householdId == proposal.householdId &&
    interaction.conversationId == proposal.conversationId &&
    interaction.speakerPrincipalRef == proposal.speakerPrincipalRef &&
    interaction.createdAt == proposal.createdAt && interaction.expiresAt == proposal.expiresAt

/-- The evidence of a resolution that goes with each status. -/
def evidenced (interaction : PendingInteraction) : Bool :=
  match interaction.status with
  | .pending =>
    interaction.resolutionExternalMessageId.isNone && interaction.resolutionDecision.isNone &&
      interaction.resolutionCode.isNone && interaction.resolutionResponse.isNone &&
      interaction.resolvedAt.isNone
  | .resolving =>
    interaction.resolutionExternalMessageId.isSome && interaction.resolutionCode.isNone &&
      interaction.resolutionResponse.isNone && interaction.resolvedAt.isNone
  | _ =>
    interaction.resolutionExternalMessageId.isSome && interaction.resolutionCode.isSome &&
      interaction.resolutionResponse.isSome && interaction.resolvedAt.isSome

/-- What `PendingInteractionSchemaV1` checks beyond the types of the fields; an integer is at most
`Number.MAX_SAFE_INTEGER`. -/
def valid (T : TimeFormats) (interaction : PendingInteraction) : Bool :=
  lengthBetween 1 512 interaction.speakerPrincipalRef &&
    interaction.pendingWorkingMemoryMutation.valid T &&
    decide (interaction.version ≤ 9007199254740991) &&
    interaction.resolutionExternalMessageId.all (lengthBetween 1 512) &&
    interaction.resolutionCode.all isResolutionCode &&
    interaction.resolutionResponse.all (FinalResponse.valid T) &&
    T.isUtcInstant interaction.createdAt && T.isUtcInstant interaction.expiresAt &&
    interaction.resolvedAt.all T.isUtcInstant && interaction.matchesProposal &&
    interaction.evidenced

/-- `PendingInteractionSchemaV1.safeParse` -/
def parse (T : TimeFormats) (interaction : PendingInteraction) : Option PendingInteraction :=
  if interaction.valid T then
    some { interaction with
      pendingWorkingMemoryMutation :=
        interaction.pendingWorkingMemoryMutation.mapEntry WorkingMemoryEntry.trimmed }
  else none

def toJson (interaction : PendingInteraction) : Json :=
  .obj ([("schemaName", .str "pending-interaction"), ("schemaVersion", .ofNat 1),
      ("interactionId", .str interaction.interactionId.text),
      ("kind", .str "working_memory_confirmation"),
      ("householdId", .str interaction.householdId.text),
      ("conversationId", .str interaction.conversationId.text),
      ("speakerPrincipalRef", .str interaction.speakerPrincipalRef),
      ("pendingWorkingMemoryMutation", interaction.pendingWorkingMemoryMutation.toJson),
      ("status", .str interaction.status.text), ("version", .ofNat interaction.version)] ++
    optionalField "resolutionExternalMessageId"
      (interaction.resolutionExternalMessageId.map .str) ++
    optionalField "resolutionDecision"
      (interaction.resolutionDecision.map fun decision => .str decision.text) ++
    optionalField "resolutionCode" (interaction.resolutionCode.map .str) ++
    optionalField "resolutionResponse" (interaction.resolutionResponse.map FinalResponse.toJson) ++
    [("createdAt", .str interaction.createdAt), ("expiresAt", .str interaction.expiresAt)] ++
    optionalField "resolvedAt" (interaction.resolvedAt.map .str))

end PendingInteraction

end PlusOne
