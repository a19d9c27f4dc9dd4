import Mathlib.Data.List.Basic
import PlusOne.Transitions.Runs

/-! # Telegram polling

`TelegramPollingReceiver.start` with the queue of updates that Telegram keeps for the bot: an update stays in
the queue, and is delivered again, until an offset above it has reached Telegram. -/

namespace PlusOne

inductive TelegramBotApiErrorCode
  | telegram_api_error | telegram_polling_conflict
  deriving DecidableEq

/-- What a call of the API rejects with. -/
inductive PollingError
  | telegramBotApiError (code : TelegramBotApiErrorCode) (status : Option Nat)
  | error (name : String)
  | notAnError

def isAbortError : PollingError → Bool
  | .error name => name == "AbortError"
  | _ => false

def isInvalidBotTokenError : PollingError → Bool
  | .telegramBotApiError code status => code == .telegram_api_error && (status == some 401 || status == some 403)
  | _ => false

def isPollingConflict : PollingError → Bool
  | .telegramBotApiError code _ => code == .telegram_polling_conflict
  | _ => false

def isTransientPollingError : PollingError → Bool
  | .telegramBotApiError code status => code == .telegram_api_error &&
      status.all fun status => status == 429 || status ≥ 500
  | .error _ => true
  | .notAnError => false

structure PollingInput where
  maxConflictRetries : Nat := 3
  maxNetworkRetries : Nat := 10

/-- How a lifetime ends: `start` resolves, because of the signal or because of an `AbortError`, or it rejects. -/
inductive PollingEnd
  | aborted | abortError | invalidBotToken | conflict | network
  | rethrown (error : PollingError)
  | handlerThrew (updateId : Nat)

inductive PollingPhase
  | clearing (networkRetries : Nat)
  | clearingSleep (networkRetries : Nat)
  | polling (conflictRetries networkRetries : Nat)
  | pollingSleep (conflictRetries networkRetries : Nat)
  | handling (updateId : Nat) (rest : List Nat)
  | ended (reason : PollingEnd)

/-- The queue with the offset that has reached Telegram, and the receiver. `failures` are the errors since a
call of the API last succeeded, the newest first; `asked` and `handed` are the offsets and the updates of this
lifetime, `returned` and `threw` the updates whose handling ended in any lifetime. -/
structure PollingState where
  arrived : List Nat := []
  confirmed : Nat := 0
  aborted : Bool := false
  phase : PollingPhase := .clearing 0
  offset : Option Nat := none
  failures : List PollingError := []
  asked : List Nat := []
  handed : List Nat := []
  returned : List Nat := []
  threw : List Nat := []

inductive PollingEvent
  | arrive (updateId : Nat)
  | abort
  | webhook (error : Option PollingError)
  /-- `getUpdates` resolves with so many of the updates that are due. -/
  | polled (count : Nat)
  /-- `getUpdates` rejects, before or after its offset has reached Telegram. -/
  | pollFailed (error : PollingError) (reached : Bool)
  | wake
  | handled (returns : Bool)
  | restart

namespace PollingState

def finish (s : PollingState) (reason : PollingEnd) : PollingState := { s with phase := .ended reason }

/-- The test of the polling loop, and the call of `getUpdates`. -/
def poll (s : PollingState) (conflictRetries networkRetries : Nat) : PollingState :=
  if s.aborted then s.finish .aborted
  else { s with phase := .polling conflictRetries networkRetries, asked := s.asked ++ s.offset.toList }

/-- The test of the loop that deletes the webhook, and its call. -/
def clear (s : PollingState) (networkRetries : Nat) : PollingState :=
  if s.aborted then s.finish .aborted else { s with phase := .clearing networkRetries }

def webhookDone (s : PollingState) : PollingState := { s with failures := [] }.poll 0 0

def webhookFailed (input : PollingInput) (s : PollingState) (networkRetries : Nat) (error : PollingError) :
    PollingState :=
  if isAbortError error then s.webhookDone
  else
    let s := { s with failures := error :: s.failures }
    if isInvalidBotTokenError error then s.finish .invalidBotToken
    else if !isTransientPollingError error then s.finish (.rethrown error)
    else if networkRetries + 1 > input.maxNetworkRetries then s.finish .network
    else { s with phase := .clearingSleep (networkRetries + 1) }

/-- Telegram takes the offset of a request. -/
def confirm (s : PollingState) : PollingState := { s with confirmed := max s.confirmed (s.offset.getD 0) }

/-- The loop over the updates of one answer, from its next update on. -/
def handOver (s : PollingState) : List Nat → PollingState
  | [] => s.poll 0 0
  | updateId :: rest => { s with phase := .handling updateId rest, handed := s.handed ++ [updateId] }

/-- Telegram answers with the updates that no offset has confirmed, from the earliest on. -/
def due (s : PollingState) (count : Nat) : List Nat := (s.arrived.filter fun id => s.confirmed ≤ id).take count

def polled (s : PollingState) (count : Nat) : PollingState :=
  let s := { s.confirm with failures := [] }
  s.handOver (s.due count)

def pollFailed (input : PollingInput) (s : PollingState) (conflictRetries networkRetries : Nat)
    (error : PollingError) : PollingState :=
  let s := { s with failures := error :: s.failures }
  if isAbortError error then s.finish .abortError
  else if isInvalidBotTokenError error then s.finish .invalidBotToken
  else if isPollingConflict error then
    if conflictRetries + 1 > input.maxConflictRetries then s.finish .conflict
    else { s with phase := .pollingSleep (conflictRetries + 1) networkRetries }
  else if !isTransientPollingError error then s.finish (.rethrown error)
  else if networkRetries + 1 > input.maxNetworkRetries then s.finish .network
  else { s with phase := .pollingSleep conflictRetries (networkRetries + 1) }

def handlingReturned (s : PollingState) (updateId : Nat) (rest : List Nat) : PollingState :=
  { s with offset := some (updateId + 1), returned := s.returned ++ [updateId] }.handOver rest

def handlingThrew (s : PollingState) (updateId : Nat) : PollingState :=
  { s with threw := s.threw ++ [updateId] }.finish (.handlerThrew updateId)

/-- A new receiver, with a signal of its own. -/
def restart (s : PollingState) : PollingState :=
  { arrived := s.arrived, confirmed := s.confirmed, returned := s.returned, threw := s.threw }

end PollingState

def pollingStep (input : PollingInput) (s : PollingState) : PollingEvent → Option PollingState
  | .arrive updateId =>
    if s.arrived.all (· < updateId) then some { s with arrived := s.arrived ++ [updateId] } else none
  | .abort => some { s with aborted := true }
  | .webhook error =>
    match s.phase, error with
    | .clearing _, none => some s.webhookDone
    | .clearing networkRetries, some error => some (s.webhookFailed input networkRetries error)
    | _, _ => none
  | .polled count =>
    match s.phase with
    | .polling _ _ => some (s.polled count)
    | _ => none
  | .pollFailed error reached =>
    match s.phase with
    | .polling conflictRetries networkRetries =>
      some ((if reached then s.confirm else s).pollFailed input conflictRetries networkRetries error)
    | _ => none
  | .wake =>
    match s.phase with
    | .clearingSleep networkRetries => some (s.clear networkRetries)
    | .pollingSleep conflictRetries networkRetries => some (s.poll conflictRetries networkRetries)
    | _ => none
  | .handled returns =>
    match s.phase with
    | .handling updateId rest =>
      some (if returns then s.handlingReturned updateId rest else s.handlingThrew updateId)
    | _ => none
  | .restart => some s.restart

end PlusOne
