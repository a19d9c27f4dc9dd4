import PlusOne.Deliveries.Table
import PlusOne.Interleaving.Program

/-! # The final delivery handler

One program for each call of `deliver`: it reserves the delivery, sends the message when
the reserved record is still to be sent, and marks the record. -/

namespace PlusOne

open Interleaving

inductive TransportFailureCategory
  | too_long | bad_format | forbidden | not_found | rate_limited | transient | ambiguous | unknown
  deriving DecidableEq

def TransportFailureCategory.text : TransportFailureCategory → String
  | too_long => "too_long"
  | bad_format => "bad_format"
  | forbidden => "forbidden"
  | not_found => "not_found"
  | rate_limited => "rate_limited"
  | transient => "transient"
  | ambiguous => "ambiguous"
  | unknown => "unknown"

/-- A failure without its message, which nothing here reads. -/
structure TransportFailure where
  category : TransportFailureCategory
  retryable : Bool
  receiptLookupRequired : Bool

/-- What a call of `deliver` can throw: an `Error` of the repository, a `TransportSendError`, a
`TypeError`, the reason of an aborted signal, or another value. -/
inductive DeliveryThrown
  | error (error : Thrown)
  | transportSendError (failure : TransportFailure)
  | typeError
  | abort
  | value

def transportFailureFromUnknown : DeliveryThrown → TransportFailure
  | .transportSendError failure => failure
  | .typeError => ⟨.ambiguous, true, true⟩
  | .error _ | .abort => ⟨.transient, true, false⟩
  | .value => ⟨.unknown, false, false⟩

/-! ## Output processors -/

inductive ProcessorStatus
  | passed | blocked
  deriving DecidableEq

structure OutputProcessorResult where
  processorName : String
  processorVersion : Nat
  status : ProcessorStatus
  reason : String
  issues : List String
  retryable : Bool
  deriving DecidableEq

abbrev OutputProcessor := FinalResponse → Except DeliveryThrown OutputProcessorResult

/-- `runOutputProcessors`: the first result that blocks, or the one of the whole chain. -/
def runOutputProcessors (response : FinalResponse) :
    List OutputProcessor → Except DeliveryThrown OutputProcessorResult
  | [] => .ok ⟨"processor-chain", 1, .passed, "All output processors passed.", [], false⟩
  | processor :: processors =>
    match processor response with
    | .error e => .error e
    | .ok processed =>
      if processed.status = .blocked then .ok processed else runOutputProcessors response processors

/-! ## Programs -/

structure TransportSendInput where
  body : String
  destination : JsonRecord
  format : MessageFormat

/-- What a call of `deliver` asks of the rest of the system: a statement, whether its signal is
aborted, and a message to be sent (with the delivery it is sent for). -/
inductive DeliveryCall
  | statement (statement : DeliveryStatement)
  | aborted
  | send (delivery : DeliveryKey) (input : TransportSendInput)

abbrev DeliveryReply : DeliveryCall → Type
  | .statement _ => Option DeliveryRow
  | .aborted => Bool
  | .send .. => String

abbrev DeliveryProgram (α : Type) := Prog DeliveryCall DeliveryReply DeliveryThrown α

inductive DeliveryResult
  | blocked (processorResult : OutputProcessorResult)
  | delivered (delivery : DeliveryRow) (sent : Bool)
  | failed (status : FailedStatus) (delivery : DeliveryRow) (sent : Bool)
  deriving DecidableEq

/-- What a handler is made with, and the two functions of the runtime its keys are made with. -/
structure DeliveryHandler where
  processors : List OutputProcessor
  stringify : Json → String
  sha256 : String → ArtifactHash

def createDeliveryKey (H : DeliveryHandler) (response : FinalResponse) : String :=
  (H.sha256 (H.stringify (.obj [("responseId", .str response.responseId),
    ("conversationId", .str response.conversationId.text), ("delivery", response.delivery.toJson),
    ("body", .str response.body), ("responseHash", .str response.responseHash.hex)]))).hex

/-- The key under which a response is delivered. -/
def DeliveryHandler.deliveryKey (H : DeliveryHandler) (response : FinalResponse) : DeliveryKey :=
  (response.householdId, createDeliveryKey H response)

def issueStatement (statement : DeliveryStatement) : DeliveryProgram (Option DeliveryRow) :=
  .perform (DeliveryCall.statement statement)

def notFound (code : String) (id : String) : PlusOneError :=
  { category := .validation_rejected
    code
    message := "Operational delivery record was not found"
    retry := .never
    receiptLookupRequired := false
    details := [("id", .text id)] }

/-- `deliveryRecord` -/
def deliveryRecord (row : DeliveryRow) : DeliveryProgram DeliveryRow :=
  if row.valid then .ret row else .throw (.error .zodError)

def reserveDelivery (T : TimeFormats) (deliveryId : DeliveryId) (idempotencyKey : String)
    (response : FinalResponse) : DeliveryProgram DeliveryRow :=
  if response.valid T then
    (issueStatement (.insertDelivery
      { deliveryId, householdId := response.householdId, conversationId := response.conversationId
        idempotencyKey, responseHash := response.responseHash
        channel := response.delivery.channel, destination := response.delivery.destination })).bind
      fun
      | some row => deliveryRecord row
      | none => (issueStatement (.findByIdempotency (response.householdId, idempotencyKey))).bind
        fun
        | some row => deliveryRecord row
        | none => .throw (.error (.plusOne
            (notFound "delivery_conversation_not_found" response.conversationId.text)))
  else .throw (.error .zodError)

def updateDelivery (deliveryId : DeliveryId) (statement : DeliveryStatement) :
    DeliveryProgram DeliveryRow :=
  (issueStatement statement).bind fun
    | some row => deliveryRecord row
    | none => .throw (.error (.plusOne (notFound "delivery_not_found" deliveryId.text)))

def markDelivered (householdId : HouseholdId) (deliveryId : DeliveryId)
    (platformMessageId : String) : DeliveryProgram DeliveryRow :=
  updateDelivery deliveryId (.markDelivered householdId deliveryId platformMessageId)

def markDeliveryFailed (householdId : HouseholdId) (deliveryId : DeliveryId)
    (status : FailedStatus) (failureCategory : String) : DeliveryProgram DeliveryRow :=
  updateDelivery deliveryId (.markDeliveryFailed householdId deliveryId status failureCategory)

/-- `options.signal?.aborted` -/
def isAborted (signal : Bool) : DeliveryProgram Bool :=
  if signal then .perform DeliveryCall.aborted else .ret false

def throwIfAborted (signal : Bool) : DeliveryProgram Unit :=
  (isAborted signal).bind fun aborted => if aborted then .throw .abort else .ret ()

/-- One call of `deliver`: its response, whether it has a signal, and the identifier that
`ids.nextDeliveryId` gives it. -/
structure DeliverInput where
  response : FinalResponse
  signal : Bool
  deliveryId : DeliveryId

namespace FinalDeliveryHandler

variable (H : DeliveryHandler) (T : TimeFormats) (input : DeliverInput)

/-- From the send to the mark. -/
def sendAndMark (delivery : DeliveryRow) : DeliveryProgram DeliveryResult :=
  (Prog.perform (DeliveryCall.send (H.deliveryKey input.response)
    ⟨input.response.body, input.response.delivery.destination, input.response.delivery.format⟩)).bind
    fun platformMessageId => (throwIfAborted input.signal).bind fun _ =>
      (markDelivered input.response.householdId delivery.deliveryId platformMessageId).bind
        fun delivered => .ret (.delivered delivered true)

/-- The inner `catch` of `deliver`. -/
def sendFailed (delivery : DeliveryRow) (sendAttempted : Bool) (error : DeliveryThrown) :
    DeliveryProgram DeliveryResult :=
  (isAborted input.signal).bind fun aborted =>
    if aborted then
      if sendAttempted then
        (markDeliveryFailed input.response.householdId delivery.deliveryId .ambiguous
          "timeout").handle (fun _ => .throw .abort) fun _ => .throw .abort
      else .throw .abort
    else
      let failure := transportFailureFromUnknown error
      let status := if failure.receiptLookupRequired ∨ failure.category = .ambiguous then
        FailedStatus.ambiguous else .failed
      (markDeliveryFailed input.response.householdId delivery.deliveryId status
        failure.category.text).bind fun failed => .ret (.failed status failed true)

/-- What is done with the record, by its status. -/
def dispatch (delivery : DeliveryRow) : DeliveryProgram DeliveryResult :=
  match delivery.status with
  | .delivered => .ret (.delivered delivery false)
  | .failed => .ret (.failed .failed delivery false)
  | .ambiguous => .ret (.failed .ambiguous delivery false)
  | .pending | .sending =>
    (throwIfAborted input.signal).handle
      (fun _ => (sendAndMark H input delivery).tryCatch (sendFailed input delivery true))
      (sendFailed input delivery false)

def deliver : DeliveryProgram DeliveryResult :=
  (throwIfAborted input.signal).bind fun _ =>
    (Prog.ofExcept (runOutputProcessors input.response H.processors)).bind fun processed =>
      if processed.status = .blocked then .ret (.blocked processed)
      else (throwIfAborted input.signal).bind fun _ =>
        (reserveDelivery T input.deliveryId (createDeliveryKey H input.response)
          input.response).bind fun delivery =>
          (throwIfAborted input.signal).bind fun _ => dispatch H input delivery

end FinalDeliveryHandler

end PlusOne
