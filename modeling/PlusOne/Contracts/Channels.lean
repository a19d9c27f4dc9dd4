import PlusOne.Contracts.Identifiers
import PlusOne.Contracts.Json
import PlusOne.Contracts.Time

/-! # Channels and final responses -/

namespace PlusOne

inductive ChannelKind
  | telegram | slack
  deriving DecidableEq

def ChannelKind.text : ChannelKind → String
  | telegram => "telegram"
  | slack => "slack"

inductive MessageFormat
  | plain_text | mrkdwn

def MessageFormat.text : MessageFormat → String
  | plain_text => "plain_text"
  | mrkdwn => "mrkdwn"

inductive PolicyBoundary
  | personalized_finance | informational_only | unsupported_capability | operational

def PolicyBoundary.text : PolicyBoundary → String
  | personalized_finance => "personalized_finance"
  | informational_only => "informational_only"
  | unsupported_capability => "unsupported_capability"
  | operational => "operational"

inductive UnsupportedCapability
  | tax | insurance

def UnsupportedCapability.text : UnsupportedCapability → String
  | tax => "tax"
  | insurance => "insurance"

/-- The value of a record schema: an object whose entries have distinct keys. -/
structure JsonRecord where
  fields : List (String × Json)
  keyed : (Json.obj fields).keyed = true
  deriving DecidableEq

def JsonRecord.toJson (record : JsonRecord) : Json := .obj record.fields

structure DeliveryTarget where
  channel : ChannelKind
  destination : JsonRecord
  format : MessageFormat

structure Citation where
  label : String
  artifactId : Option ArtifactId
  sourceRef : Option String

/-- A candidate for `OrchestratorFinalResponseSchemaV1`. -/
structure FinalResponse where
  responseId : String
  householdId : HouseholdId
  conversationId : ConversationId
  taskId : Option TaskId
  body : String
  policyBoundary : PolicyBoundary
  citations : List Citation
  assumptions : List String
  freshness : List String
  disclaimer : String
  unsupportedCapabilities : List UnsupportedCapability
  recommendationActions : List String
  delivery : DeliveryTarget
  responseHash : ArtifactHash
  createdAt : String

/-- `z.string().min(lo).max(hi)` -/
def lengthBetween (lo hi : Nat) (text : String) : Bool :=
  decide (lo ≤ Json.utf16Length text) && decide (Json.utf16Length text ≤ hi)

def Citation.valid (citation : Citation) : Bool :=
  lengthBetween 1 512 citation.label && citation.sourceRef.all (lengthBetween 1 512)

/-- What `OrchestratorFinalResponseSchemaV1` checks beyond the types of the fields. -/
def FinalResponse.valid (T : TimeFormats) (response : FinalResponse) : Bool :=
  lengthBetween 1 256 response.responseId && lengthBetween 1 32000 response.body &&
    !response.citations.isEmpty && response.citations.all Citation.valid &&
    response.assumptions.all (lengthBetween 1 2000) && !response.freshness.isEmpty &&
    response.freshness.all (lengthBetween 1 2000) && lengthBetween 1 2000 response.disclaimer &&
    response.recommendationActions.all (lengthBetween 1 2000) && T.isUtcInstant response.createdAt

/-! ## Inbound messages -/

structure Speaker where
  principalRef : String
  displayName : Option String

/-- A candidate for `InboundChannelMessageSchemaV1`. -/
structure InboundMessage where
  conversationId : ConversationId
  householdId : HouseholdId
  channel : ChannelKind
  externalMessageId : String
  receivedAt : String
  speaker : Speaker
  body : String
  attachments : List JsonRecord
  metadata : JsonRecord

/-- What `InboundChannelMessageSchemaV1` checks beyond the types of the fields. -/
def InboundMessage.valid (T : TimeFormats) (message : InboundMessage) : Bool :=
  lengthBetween 1 512 message.externalMessageId && T.isUtcInstant message.receivedAt &&
    lengthBetween 1 512 message.speaker.principalRef &&
    message.speaker.displayName.all (lengthBetween 1 256) && lengthBetween 1 32000 message.body

/-! ## As JSON -/

/-- An optional entry of an object. -/
def optionalField (key : String) (value : Option Json) : List (String × Json) :=
  (value.map fun value => (key, value)).toList

def Json.ofStrings (texts : List String) : Json := .arr (texts.map .str)

def Citation.toJson (citation : Citation) : Json :=
  .obj ([("label", .str citation.label)] ++
    optionalField "artifactId" (citation.artifactId.map fun id => .str id.text) ++
    optionalField "sourceRef" (citation.sourceRef.map .str))

def DeliveryTarget.toJson (target : DeliveryTarget) : Json :=
  .obj [("channel", .str target.channel.text), ("destination", target.destination.toJson),
    ("format", .str target.format.text)]

def FinalResponse.toJson (response : FinalResponse) : Json :=
  .obj ([("schemaName", .str "orchestrator-final-response"), ("schemaVersion", .ofNat 1),
      ("responseId", .str response.responseId), ("householdId", .str response.householdId.text),
      ("conversationId", .str response.conversationId.text)] ++
    optionalField "taskId" (response.taskId.map fun id => .str id.text) ++
    [("body", .str response.body), ("policyBoundary", .str response.policyBoundary.text),
      ("citations", .arr (response.citations.map Citation.toJson)),
      ("assumptions", .ofStrings response.assumptions),
      ("freshness", .ofStrings response.freshness), ("disclaimer", .str response.disclaimer),
      ("unsupportedCapabilities",
        .ofStrings (response.unsupportedCapabilities.map UnsupportedCapability.text)),
      ("recommendationActions", .ofStrings response.recommendationActions),
      ("delivery", response.delivery.toJson), ("responseHash", .str response.responseHash.hex),
      ("createdAt", .str response.createdAt)])

end PlusOne
