import PlusOne.Gateway.Works

/-! # Turns under a deadline

`runRecordedTurn` between its awaits, with the orchestrator's run and the delivery it
starts. At the deadline the gateway stops waiting for either; what the run does then
depends on whether the step it stands at observes the abort signal. The works of the
registry are turns, numbered as they come in. -/

namespace PlusOne

/-! ## One turn -/

/-- How `runRecordedTurn` ends. -/
inductive TurnEnd
  | failed (error : String)
  | blocked
  | delivered
  | undelivered
  | threw
  deriving DecidableEq

/-- `{ status: 'failed', error: 'orchestrator_timed_out', sent: false }` -/
def TurnEnd.timedOut : TurnEnd := .failed "orchestrator_timed_out"

/-- What `orchestrator.run` has in progress, the works it has stopped waiting for included, and
whether what it stands at ends with the abort signal. -/
inductive Execution
  | none
  | running (observes : Bool)
  | ended
  deriving DecidableEq

def Execution.inProgress : Execution → Bool
  | running _ => true
  | none | ended => false

/-- Where `deliver` stands: at the await of a repository call or of the transport. -/
inductive DeliveryStage
  | none
  | reserving
  | sending
  | marking
  | markingFailed
  | ended
  deriving DecidableEq

/-- Where `runRecordedTurn` stands: at an await, or where the continuation of one is due. -/
inductive TurnPhase
  | waiting
  | orchestrating
  | rejected
  | answered
  | announcing
  | announced
  | delivering
  | deliveryRejected
  | deliverySettled (result : TurnEnd)
  | telling (result : TurnEnd)
  | closing (result : TurnEnd)
  | ended (result : TurnEnd)
  deriving DecidableEq

structure ChannelTurn where
  conversation : String
  aborted : Bool
  phase : TurnPhase
  execution : Execution
  delivery : DeliveryStage

/-- What a step of a turn does that others can see. -/
inductive TurnRecord
  | mutation
  | send
  | timedOut
  deriving DecidableEq

def TurnRecord.isEffect : TurnRecord → Bool
  | mutation | send => true
  | timedOut => false

/-- What the awaits of `deliver` can bring: a row to be sent, a row that is settled, the end of the
call, or an error. -/
inductive DeliveryAnswer
  | reserved
  | settled (delivered : Bool)
  | done
  | error
  deriving DecidableEq

/-- A step of the turn, of the orchestrator's run or of the delivery. A step of the run goes on from
an await: it may look at the signal first, start an effect, and come to an await that observes the
signal or not. -/
inductive TurnEvent
  | deadline
  | resume (flag : Bool)
  | execute (checks effect observes : Bool)
  | finish (ok : Bool)
  | deliver (answer : DeliveryAnswer)
  | told

namespace ChannelTurn

/-- A turn as `submit` gets it, its deadline already set. -/
def new (conversation : String) : ChannelTurn := ⟨conversation, false, .waiting, .none, .none⟩

variable (turn : ChannelTurn)

/-- The turn is reported as failed by its deadline. -/
def reportTimeout : ChannelTurn × List TurnRecord :=
  ({ turn with phase := .closing .timedOut }, [.timedOut])

/-- `runRecordedTurn` up to its first await; `observes` is where the orchestrator's run comes to. -/
def call (observes : Bool) : ChannelTurn × List TurnRecord :=
  if turn.aborted then turn.reportTimeout
  else ({ turn with phase := .orchestrating, execution := .running observes }, [])

/-- The signal aborts: every `abortable` await rejects, the gateway's own and those of `deliver`, and
so does what observes the signal in the orchestrator's run. -/
def deadline : Option (ChannelTurn × List TurnRecord) :=
  if turn.aborted then .none
  else
    let execution := if turn.execution = .running true then .ended else turn.execution
    let delivery : DeliveryStage :=
      match turn.delivery with
      | .reserving => .ended
      | .sending | .marking => .markingFailed
      | stage => stage
    let phase : TurnPhase :=
      match turn.phase with
      | .orchestrating => .rejected
      | .announcing => .announced
      | .delivering => .deliveryRejected
      | .telling result => .closing result
      | phase => phase
    some ({ turn with aborted := true, execution, delivery, phase }, [])

/-- The continuation of an await. The flag says whether an error of the orchestrator is one of the
model's that may pass, and whether the processors block the response. -/
def resume (flag : Bool) : Option (ChannelTurn × List TurnRecord) :=
  match turn.phase with
  | .rejected =>
    if turn.aborted then some turn.reportTimeout
    else
      let error := if flag then "model_temporarily_unavailable" else "orchestrator_failed"
      some ({ turn with phase := .closing (.failed error) }, [])
  | .answered => some (if turn.aborted then turn.reportTimeout else ({ turn with phase := .announcing }, []))
  | .announced =>
    if turn.aborted then some turn.reportTimeout
    else if flag then some ({ turn with phase := .deliverySettled .blocked, delivery := .ended }, [])
    else some ({ turn with phase := .delivering, delivery := .reserving }, [])
  | .deliveryRejected =>
    some (if turn.aborted then turn.reportTimeout else ({ turn with phase := .closing .threw }, []))
  | .deliverySettled result =>
    some (if turn.aborted && result != .delivered then turn.reportTimeout
      else ({ turn with phase := .telling result }, []))
  | _ => .none

/-- A step of the orchestrator's run from one await to the next. -/
def execute (checks effect observes : Bool) : Option (ChannelTurn × List TurnRecord) :=
  if turn.execution.inProgress then
    if checks && turn.aborted then some ({ turn with execution := .ended }, [])
    else some ({ turn with execution := .running observes }, if effect then [.mutation] else [])
  else .none

/-- The orchestrator's run ends; the gateway hears of it when it still waits. -/
def finish (ok : Bool) : Option (ChannelTurn × List TurnRecord) :=
  if turn.execution.inProgress then
    let phase := if turn.phase = .orchestrating then if ok then .answered else .rejected else turn.phase
    some ({ turn with execution := .ended, phase }, [])
  else .none

/-- `deliver` returns or throws; the gateway hears of it when it still waits. -/
def settleDelivery (result : Option TurnEnd) : ChannelTurn × List TurnRecord :=
  let phase : TurnPhase :=
    if turn.phase = .delivering then result.elim .deliveryRejected .deliverySettled else turn.phase
  ({ turn with delivery := .ended, phase }, [])

/-- A step of `deliver`, which looks at the signal before it sends. -/
def deliver (answer : DeliveryAnswer) : Option (ChannelTurn × List TurnRecord) :=
  match turn.delivery, answer with
  | .reserving, .reserved =>
    some (if turn.aborted then turn.settleDelivery .none else ({ turn with delivery := .sending }, [.send]))
  | .reserving, .settled delivered =>
    some (turn.settleDelivery (some (if delivered then .delivered else .undelivered)))
  | .reserving, .error => some (turn.settleDelivery .none)
  | .sending, .done =>
    some ({ turn with delivery := if turn.aborted then .markingFailed else .marking }, [])
  | .marking, .done => some (turn.settleDelivery (some .delivered))
  | .sending, .error | .marking, .error => some ({ turn with delivery := .markingFailed }, [])
  | .markingFailed, .done =>
    some (turn.settleDelivery (if turn.aborted then .none else some .undelivered))
  | .markingFailed, .error => some (turn.settleDelivery .none)
  | _, _ => .none

/-- The channel has been told of the end. -/
def told : Option (ChannelTurn × List TurnRecord) :=
  match turn.phase with
  | .telling result => some ({ turn with phase := .closing result }, [])
  | _ => .none

def step : TurnEvent → Option (ChannelTurn × List TurnRecord)
  | .deadline => turn.deadline
  | .resume flag => turn.resume flag
  | .execute checks effect observes => turn.execute checks effect observes
  | .finish ok => turn.finish ok
  | .deliver answer => turn.deliver answer
  | .told => turn.told

/-- The heartbeat is closed and the turn's promise settles. -/
def settle : Option ChannelTurn :=
  match turn.phase with
  | .closing result => some { turn with phase := .ended result }
  | _ => .none

end ChannelTurn

/-! ## The turns of a gateway -/

/-- The registry of a gateway with its turns and what they have done. -/
structure Gateway where
  registry : Registry String Nat
  turns : List ChannelTurn
  log : List (Nat × TurnRecord)

inductive GatewayEvent
  | inbound (conversation : String) (observes : Bool)
  | proceed (object : Nat) (observes : Bool)
  | settle (object n : Nat)
  | close
  | drainCheck
  | turn (i : Nat) (event : TurnEvent)

namespace Gateway

variable (g : Gateway)

def empty : Gateway := ⟨.empty, [], []⟩

/-- Turn `i` takes a step. -/
def record (i : Nat) (progress : ChannelTurn × List TurnRecord) : Gateway :=
  { g with
    turns := g.turns.set i progress.1
    log := g.log ++ progress.2.map fun entry => (i, entry) }

/-- The registry calls a work. -/
def callTurn (observes : Bool) (i : Nat) : Gateway :=
  (g.turns[i]?).elim g fun turn => g.record i (turn.call observes)

/-- The registry has moved on and calls the works it has started. -/
def move (registry : Registry String Nat) (observes : Bool) : Gateway :=
  let started := registry.started.drop g.registry.started.length
  (started.map Prod.snd).foldl (fun g i => g.callTurn observes i) { g with registry }

def step : GatewayEvent → Option Gateway
  | .inbound conversation observes =>
    let accepted := { g with turns := g.turns ++ [ChannelTurn.new conversation] }
    (g.registry.submit conversation g.turns.length).map fun registry => accepted.move registry observes
  | .proceed i observes => (g.registry.step (.proceed i)).map fun registry => g.move registry observes
  | .settle i n =>
    (g.registry.objects[i]?).bind fun slot => (slot.running[n]?).bind fun running =>
      (g.turns[running.work]?).bind fun turn => turn.settle.bind fun turn' =>
        (g.registry.step (.settle i n)).map fun registry =>
          { g with registry, turns := g.turns.set running.work turn' }
  | .close => (g.registry.step .close).map fun registry => { g with registry }
  | .drainCheck => (g.registry.step .drainCheck).map fun registry => { g with registry }
  | .turn i event => (g.turns[i]?).bind fun turn => (turn.step event).map fun progress => g.record i progress

/-- Play a whole list of events. -/
def play : List GatewayEvent → Gateway → Option Gateway
  | [], g => some g
  | event :: events, g => (g.step event).bind (play events)

/-- The turns of a conversation whose orchestrator run is in progress. -/
def inProgress (conversation : String) : List ChannelTurn :=
  g.turns.filter fun turn => turn.conversation == conversation && turn.execution.inProgress

/-- No two orchestrator runs of a conversation are in progress at once. -/
def Exclusive : Prop := ∀ conversation, (g.inProgress conversation).length ≤ 1

/-- A turn that was reported as failed by its deadline starts no effect afterwards. -/
def QuietAfterTimeout : Prop :=
  g.log.Pairwise fun earlier later =>
    earlier.2 = .timedOut → later.1 = earlier.1 → later.2.isEffect = false

end Gateway

end PlusOne
