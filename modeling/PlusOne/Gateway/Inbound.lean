import PlusOne.Contracts.Channels
import PlusOne.Contracts.Errors
import PlusOne.Deliveries.Handler
import PlusOne.Gateway.Registry
import PlusOne.Interleaving.Store

/-! # Inbound messages

The tables that a call of `handleInbound` reads and writes, and the call itself as a
program: a command is handled at once; any other message is recorded, and a message that
was not there before is submitted as a turn of its conversation. -/

namespace PlusOne

open Interleaving

/-- What the platform calls one message. -/
abbrev MessageKey := HouseholdId × ChannelKind × String

def InboundMessage.key (message : InboundMessage) : MessageKey :=
  (message.householdId, message.channel, message.externalMessageId)

/-! ## Tables -/

inductive ChannelType
  | direct | group | channel | thread

structure ConversationLane where
  householdId : HouseholdId
  channel : ChannelKind
  externalConversationId : String
  externalThreadId : String
  deriving DecidableEq

structure ConversationRow where
  conversationId : ConversationId
  lane : ConversationLane
  channelType : ChannelType
  destination : JsonRecord

/-- What `ChannelConversationSchemaV1` checks of a row beyond the types of its columns. -/
def ConversationRow.valid (row : ConversationRow) : Bool :=
  lengthBetween 1 512 row.lane.externalConversationId &&
    (row.lane.externalThreadId == "" || lengthBetween 1 512 row.lane.externalThreadId)

structure StartNewConversationInput where
  householdId : HouseholdId
  conversationId : ConversationId
  channel : ChannelKind
  channelType : ChannelType
  externalConversationId : String
  externalThreadId : Option String
  destination : JsonRecord

def StartNewConversationInput.row (input : StartNewConversationInput) : ConversationRow :=
  { conversationId := input.conversationId
    lane :=
      { householdId := input.householdId, channel := input.channel
        externalConversationId := input.externalConversationId
        externalThreadId := input.externalThreadId.getD "" }
    channelType := input.channelType, destination := input.destination.stored }

/-- The tables, with the messages whose commands have been carried out. -/
structure InboundDb where
  households : List HouseholdId
  conversations : List ConversationRow
  activeLanes : List (ConversationLane × ConversationId)
  messages : List MessageKey
  commanded : List MessageKey

namespace InboundDb

variable (db : InboundDb)

def hasConversation (householdId : HouseholdId) (conversationId : ConversationId) : Bool :=
  db.conversations.any fun row =>
    row.lane.householdId == householdId && row.conversationId == conversationId

/-- `INSERT … ON CONFLICT (household_id, channel, external_message_id) DO NOTHING`, which answers
whether there is a new row. -/
def insertMessage (message : InboundMessage) : Bool × InboundDb :=
  if db.hasConversation message.householdId message.conversationId &&
      !db.messages.contains message.key then
    (true, { db with messages := db.messages ++ [message.key] })
  else (false, db)

/-- The upsert of the active conversation of a lane. -/
def activate (lane : ConversationLane) (conversationId : ConversationId) : InboundDb :=
  if db.activeLanes.any fun entry => entry.1 == lane then
    { db with
      activeLanes := db.activeLanes.map fun entry =>
        if entry.1 == lane then (lane, conversationId) else entry }
  else { db with activeLanes := db.activeLanes ++ [(lane, conversationId)] }

/-- The transaction of `startNewConversation`; without the household it is rolled back. -/
def startNewConversation (input : StartNewConversationInput) :
    Except PgFailure (Option ConversationRow × InboundDb) :=
  if !db.households.contains input.householdId then .ok (none, db)
  else if db.conversations.any fun row => row.conversationId == input.conversationId then
    .error (uniqueViolation "channel_conversations_public_unique")
  else
    let inserted := { db with conversations := db.conversations ++ [input.row] }
    .ok (some input.row, inserted.activate input.row.lane input.conversationId)

end InboundDb

/-- The statements of a call. A command names the message that gives it. -/
inductive InboundStatement
  | insertMessage (message : InboundMessage)
  | findMessage (key : MessageKey)
  | startNewConversation (command : MessageKey) (input : StartNewConversationInput)

namespace InboundStatement

abbrev Answer : InboundStatement → Type
  | insertMessage _ | findMessage _ => Bool
  | startNewConversation .. => Option ConversationRow

def perform : (statement : InboundStatement) → InboundDb →
    Except PgFailure (statement.Answer × InboundDb)
  | insertMessage message, db => .ok (db.insertMessage message)
  | findMessage key, db => .ok (db.messages.contains key, db)
  | startNewConversation command input, db =>
    match db.startNewConversation input with
    | .ok (some row, started) =>
      .ok (some row, { started with commanded := started.commanded ++ [command] })
    | .ok (none, _) => .ok (none, db)
    | .error failure => .error failure

end InboundStatement

/-- What other code does with the tables. -/
inductive InboundMove
  | addHousehold (householdId : HouseholdId)
  | startNewConversation (input : StartNewConversationInput)

def InboundMove.apply : InboundMove → InboundDb → Option InboundDb
  | .addHousehold householdId, db => some { db with households := db.households ++ [householdId] }
  | .startNewConversation input, db =>
    match db.startNewConversation input with
    | .ok (_, started) => some started
    | .error _ => none

/-! ## Programs -/

/-- How `submit` of the registry ends for its caller; a started turn is then waited for. -/
inductive Submitted
  | started | queued | closed

def Registry.submitted {κ ω : Type} [DecidableEq κ] (s : Registry κ ω) (key : κ) : Submitted :=
  if !s.accepting then .closed
  else match (s.objectOf key).bind fun i => s.objects[i]? with
    | some slot => if slot.active || slot.drain then .queued else .started
    | none => .started

/-- What a turn comes to. -/
inductive TurnResult
  | failed (error : String)
  | delivery (result : DeliveryResult)
  deriving DecidableEq

/-- What a call of `handleInbound` asks of the rest of the system: a statement, a submission to its
gateway's registry, and the result of the turn it has started. -/
inductive InboundCall
  | statement (statement : InboundStatement)
  | submit (conversationId : ConversationId) (message : MessageKey)
  | turn (message : MessageKey)

abbrev InboundReply : InboundCall → Type
  | .statement statement => statement.Answer
  | .submit .. => Submitted
  | .turn _ => TurnResult

abbrev InboundProgram (α : Type) := Prog InboundCall InboundReply Thrown α

def InboundStatement.issue (statement : InboundStatement) : InboundProgram statement.Answer :=
  .perform (InboundCall.statement statement)

/-! ### Commands -/

/-- `value[key]`, where it is an object. -/
def JsonRecord.record? (record : JsonRecord) (key : String) : Option JsonRecord :=
  match record.toJson.field? key with
  | some (.obj fields) => if h : (Json.obj fields).keyed = true then some ⟨fields, h⟩ else none
  | _ => none

/-- `value[key]`, where it is a string with something in it. -/
def JsonRecord.text? (record : JsonRecord) (key : String) : Option String :=
  match record.toJson.field? key with
  | some (.str text) => if text = "" then none else some text
  | _ => none

def isNewCommand (body : String) : Bool :=
  trim body == "/new" || startsWith (trim body) "/new "

def destinationFromMessage (message : InboundMessage) : JsonRecord :=
  (message.metadata.record? "destination").getD ⟨[("chatId", .str "")], by decide⟩

def telegramChatIdMissing : PlusOneError :=
  { category := .validation_rejected
    code := "telegram_chat_id_missing"
    message := "Telegram /new command requires destination.chatId."
    retry := .never
    receiptLookupRequired := false
    details := [] }

def externalConversationIdFromDestination (destination : JsonRecord) : Except Thrown String :=
  match destination.text? "chatId" with
  | some chatId => .ok chatId
  | none => .error (.plusOne telegramChatIdMissing)

def externalThreadIdFromMessage (message : InboundMessage) : Option String :=
  message.metadata.text? "externalThreadId"

/-- The only command is `new`; its status is always `handled`. -/
structure ChannelCommandResult where
  householdId : HouseholdId
  conversationId : ConversationId
  delivery : DeliveryTarget
  body : String

/-- `startNewConversation` of the repository. The row is read after the transaction. -/
def startNewConversation (command : MessageKey) (input : StartNewConversationInput) :
    InboundProgram ConversationRow :=
  (InboundStatement.startNewConversation command input).issue.bind fun
    | some row => if row.valid then .ret row else .throw .zodError
    | none => .throw (.plusOne (notFound "household_not_found" input.householdId.text))

/-- `ChannelCommandHandler.handle`, with the next conversation id it would take. -/
def handleCommand (message : InboundMessage) (nextConversationId : ConversationId) :
    InboundProgram (Option ChannelCommandResult) :=
  if message.channel ≠ .telegram || !isNewCommand message.body then .ret none
  else do
    let destination := destinationFromMessage message
    let externalConversationId ← .ofExcept (externalConversationIdFromDestination destination)
    let externalThreadId := externalThreadIdFromMessage message
    let conversation ← startNewConversation message.key
      { householdId := message.householdId, conversationId := nextConversationId
        channel := message.channel
        channelType := if externalThreadId = none then .direct else .thread
        externalConversationId, externalThreadId, destination }
    return some
      { householdId := message.householdId, conversationId := conversation.conversationId
        delivery := { channel := message.channel, destination, format := .plain_text }
        body := "Started a new thread." }

/-! ### The gateway -/

def recordInboundMessage (T : TimeFormats) (message : InboundMessage) : InboundProgram Bool :=
  if message.valid T then do
    let inserted ← (InboundStatement.insertMessage message).issue
    if inserted then return true
    let existing ← (InboundStatement.findMessage message.key).issue
    if existing then return false
    throw (.plusOne (notFound "channel_conversation_not_found" message.conversationId.text))
  else throw .zodError

inductive ChannelGatewayResult
  | duplicate
  | queued
  | closed
  | commandHandled (body : String) (conversationId : ConversationId)
  | turn (result : TurnResult)
  deriving DecidableEq

/-- One call of `handleInbound`: the gateway it is made on, and the id a new conversation takes. -/
structure InboundInput where
  gateway : Nat
  message : InboundMessage
  nextConversationId : ConversationId

/-- `this.turns.submit(…)`, with the result of a turn it has started. -/
def submitMessage (message : InboundMessage) : InboundProgram ChannelGatewayResult := do
  match ← Prog.perform (InboundCall.submit message.conversationId message.key) with
  | .closed => return .closed
  | .queued => return .queued
  | .started =>
    let result ← Prog.perform (InboundCall.turn message.key)
    return .turn result

/-- `this.dependencies.commands?.handle(message)`; `commands` says whether there is a handler. -/
def gatewayCommand (commands : Bool) (input : InboundInput) :
    InboundProgram (Option ChannelCommandResult) :=
  if commands then handleCommand input.message input.nextConversationId else .ret none

def handleValidatedInbound (T : TimeFormats) (commands : Bool) (input : InboundInput) :
    InboundProgram ChannelGatewayResult := do
  match ← gatewayCommand commands input with
  | some command => return .commandHandled command.body command.conversationId
  | none =>
    let inserted ← recordInboundMessage T input.message
    if inserted then submitMessage input.message else return .duplicate

def handleInbound (T : TimeFormats) (commands : Bool) (input : InboundInput) :
    InboundProgram ChannelGatewayResult :=
  if input.message.valid T then handleValidatedInbound T commands input else .throw .zodError

end PlusOne
