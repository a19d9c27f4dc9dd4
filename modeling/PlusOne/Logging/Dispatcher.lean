import PlusOne.Contracts.Errors
import PlusOne.Contracts.Json
import PlusOne.Ingestion.SourceExtraction
import PlusOne.Transitions.Runs

/-! # The log dispatcher

Records wait in a bounded queue and are offered to the sinks one after another. The dispatcher reports on
itself with control records, which it puts into the same queue. -/

namespace PlusOne

/-! ## Records -/

inductive LogSeverityText
  | debug | info | warn | error
  deriving DecidableEq

namespace LogSeverityText

def text : LogSeverityText → String
  | debug => "DEBUG"
  | info => "INFO"
  | warn => "WARN"
  | error => "ERROR"

/-- `SEVERITY_ORDER` -/
def order : LogSeverityText → ℕ
  | debug => 0
  | info => 1
  | warn => 2
  | error => 3

/-- `SEVERITY_NUMBER` -/
def number : LogSeverityText → ℕ
  | debug => 5
  | info => 9
  | warn => 13
  | error => 17

def all : List LogSeverityText := [debug, info, warn, error]

end LogSeverityText

structure LogEnvelopeV1 where
  timestamp : String
  observedTimestamp : String
  severityText : LogSeverityText
  severityNumber : ℕ
  eventName : String
  body : String
  resource : List (String × String)
  instrumentationScope : String
  traceId : Option String
  spanId : Option String
  attributes : List (String × Json)
  deriving DecidableEq

/-- The two times of a control record, each as `toISOString` prints it. -/
structure Stamps where
  timestamp : String
  observedTimestamp : String

/-- What the dispatcher reports on itself. -/
inductive ControlEvent
  | recordsDropped (droppedCount : ℕ) (droppedSeverity : String)
  | sinkFailed (sink : String)
  | sinkRecovered (sink : String)

structure LogSink where
  name : String
  matchesRecord : LogEnvelopeV1 → Except Thrown Bool

/-- `sink.matches(record)`, where a failure counts as no. -/
def LogSink.accepts (sink : LogSink) (record : LogEnvelopeV1) : Bool :=
  match sink.matchesRecord record with
  | .ok accepted => accepted
  | .error _ => false

/-- What a dispatcher is made with; its constructor refuses a capacity of zero. -/
structure DispatcherOptions where
  sinks : List LogSink
  capacity : ℕ
  capacity_pos : 1 ≤ capacity
  sanitizeLogString : String → ℕ → String

namespace DispatcherOptions

variable (O : DispatcherOptions)

def sanitizeResource (resource : List (String × String)) : List (String × String) :=
  fromEntries (resource.map fun entry => (O.sanitizeLogString entry.1 200, O.sanitizeLogString entry.2 200))

/-- What `buildLogEnvelope` gives for an event of the component `runtime.logging`. -/
def loggingEnvelope (eventName : String) (severityText : LogSeverityText) (attributes : List (String × Json))
    (stamps : Stamps) (resource : List (String × String)) : LogEnvelopeV1 where
  timestamp := stamps.timestamp
  observedTimestamp := stamps.observedTimestamp
  severityText
  severityNumber := severityText.number
  eventName
  body := eventName
  resource := O.sanitizeResource resource
  instrumentationScope := "runtime.logging"
  traceId := none
  spanId := none
  attributes

/-- `invalidEnvelope` -/
def invalidEnvelope (category : String) : Stamps → List (String × String) → LogEnvelopeV1 :=
  O.loggingEnvelope "logging.event.invalid" .error
    [("logging.component", .str (O.sanitizeLogString "runtime.logging" 200)),
      ("logging.validation.category", .str category)]

/-- `buildLogEnvelope` for a control record; only a count can be outside of what its definition allows. -/
def buildLogEnvelope : ControlEvent → Stamps → List (String × String) → LogEnvelopeV1
  | .recordsDropped droppedCount droppedSeverity =>
    if droppedCount ≤ 9007199254740991 then
      O.loggingEnvelope "logging.records.dropped" .warn
        [("logging.records.dropped.count", .ofNat droppedCount),
          ("logging.records.dropped.reason", .str (O.sanitizeLogString "queue_capacity" 200)),
          ("logging.records.dropped.severity", .str (O.sanitizeLogString droppedSeverity 200))]
    else O.invalidEnvelope "attribute_type_invalid"
  | .sinkFailed sink =>
    O.loggingEnvelope "logging.sink.failed" .error
      [("logging.sink.name", .str (O.sanitizeLogString sink 200)),
        ("failure.category", .str (O.sanitizeLogString "write_failed" 200))]
  | .sinkRecovered sink =>
    O.loggingEnvelope "logging.sink.recovered" .info
      [("logging.sink.name", .str (O.sanitizeLogString sink 200))]

/-- The sinks that take a record, each with its place and its name. -/
def matching (record : LogEnvelopeV1) : List (ℕ × String) :=
  (O.sinks.zipIdx.filter fun sink => sink.1.accepts record).map fun sink => (sink.2, sink.1.name)

end DispatcherOptions

/-! ## The state -/

structure QueuedRecord where
  sequence : ℕ
  record : LogEnvelopeV1
  control : Bool
  deriving DecidableEq

inductive SinkOutcome
  | written | failed
  deriving DecidableEq

structure FlushWaiter where
  id : ℕ
  barrier : ℕ

/-- How far `process` is: it does not run, it is about to take an entry, or it waits for the sinks. -/
inductive Processing
  | idle
  | starting
  | delivering (entry : QueuedRecord) (outstanding : List (ℕ × String))
  deriving DecidableEq

/-- How far `close` is. -/
inductive Closing
  | unclosed
  | flushing (waiter : ℕ)
  | draining
  | drained
  deriving DecidableEq

/-- What a dispatcher did, as seen from outside. -/
inductive Happening
  | entered (entry : QueuedRecord)
  | dropped (entry : QueuedRecord) (displacedBy : Option LogEnvelopeV1)
  | offered (entry : QueuedRecord) (sinks : List ℕ)
  | settled (sequence : ℕ) (sink : ℕ) (outcome : SinkOutcome)
  | delivered (entry : QueuedRecord)
  | flushed (waiter : ℕ)
  | resolved (waiter : ℕ)
  deriving DecidableEq

/-- The fields of a dispatcher, how far its asynchronous functions are, and what it did so far. -/
structure LogDispatcher where
  queue : List QueuedRecord
  pendingSequences : List ℕ
  waiters : List FlushWaiter
  sinkHealthy : String → Bool
  droppedBySeverity : LogSeverityText → ℕ
  sequence : ℕ
  processing : Processing
  scheduled : Bool
  closing : Closing
  droppedSinceControl : ℕ
  flushes : ℕ
  history : List Happening

namespace LogDispatcher

def initial : LogDispatcher where
  queue := []
  pendingSequences := []
  waiters := []
  sinkHealthy _ := true
  droppedBySeverity _ := 0
  sequence := 0
  processing := .idle
  scheduled := false
  closing := .unclosed
  droppedSinceControl := 0
  flushes := 0
  history := []

def note (happening : Happening) (s : LogDispatcher) : LogDispatcher :=
  { s with history := s.history ++ [happening] }

/-! ## Flushes -/

def hasPendingAtOrBelow (s : LogDispatcher) (barrier : ℕ) : Bool :=
  s.pendingSequences.any fun sequence => decide (sequence ≤ barrier)

/-- `checkWaiters`, which goes through the waiters from the last to the first. -/
def checkWaiters (s : LogDispatcher) : LogDispatcher :=
  { s with
    waiters := s.waiters.filter fun waiter => s.hasPendingAtOrBelow waiter.barrier
    history := s.history ++ ((s.waiters.filter fun waiter =>
      !s.hasPendingAtOrBelow waiter.barrier).reverse.map fun waiter => Happening.resolved waiter.id) }

def schedule (s : LogDispatcher) : LogDispatcher :=
  if s.processing ≠ .idle ∨ s.scheduled ∨ s.queue = [] then s else { s with scheduled := true }

def flush (s : LogDispatcher) : LogDispatcher :=
  let waiter : FlushWaiter := ⟨s.flushes, s.sequence⟩
  let s := { s with flushes := s.flushes + 1 }.note (.flushed waiter.id) |>.schedule
  if s.hasPendingAtOrBelow waiter.barrier then { s with waiters := s.waiters ++ [waiter] }
  else s.note (.resolved waiter.id)

/-! ## The queue -/

/-- `noteDrop`, but for what is written to `stderr`. -/
def noteDrop (entry : QueuedRecord) (displacedBy : Option LogEnvelopeV1) (s : LogDispatcher) : LogDispatcher :=
  { s with
    droppedBySeverity := Function.update s.droppedBySeverity entry.record.severityText
      (s.droppedBySeverity entry.record.severityText + 1)
    droppedSinceControl := s.droppedSinceControl + 1 }.note (.dropped entry displacedBy)

/-- The lowest severity that is waiting, when it is below the one of the record that comes in. -/
def lowestWaiting (queue : List QueuedRecord) (incomingOrder : ℕ) : ℕ :=
  queue.foldl (fun lowest entry =>
    if !entry.control && decide (entry.record.severityText.order < lowest) then entry.record.severityText.order
    else lowest) incomingOrder

def displacementIndex (queue : List QueuedRecord) (incoming : LogSeverityText) : Option ℕ :=
  if incoming = .debug then none
  else
    let lowest := lowestWaiting queue incoming.order
    if lowest ≥ incoming.order then none
    else queue.findIdx? fun entry => !entry.control && entry.record.severityText.order == lowest

/-- The entry at the index makes room for a record. -/
def evict (index : ℕ) (displacedBy : LogEnvelopeV1) (s : LogDispatcher) : LogDispatcher :=
  match s.queue[index]? with
  | none => s
  | some evicted =>
    let s := { s with
      queue := s.queue.eraseIdx index
      pendingSequences := s.pendingSequences.filter (· != evicted.sequence) }
    if evicted.control then s else s.noteDrop evicted (some displacedBy)

def push (entry : QueuedRecord) (s : LogDispatcher) : LogDispatcher :=
  { s with queue := s.queue ++ [entry], pendingSequences := s.pendingSequences ++ [entry.sequence] }.schedule

def enqueue (O : DispatcherOptions) (record : LogEnvelopeV1) (control : Bool) (s : LogDispatcher) :
    LogDispatcher :=
  let entry : QueuedRecord := ⟨s.sequence + 1, record, control⟩
  let s := { s with sequence := s.sequence + 1 }.note (.entered entry)
  if s.queue.length ≥ O.capacity + (if control then 1 else 0) then
    match displacementIndex s.queue record.severityText with
    | none => (if control then s else s.noteDrop entry none).checkWaiters
    | some displaced => (s.evict displaced record).push entry
  else s.push entry

/-! ## Delivery -/

def enqueueControl (O : DispatcherOptions) (event : ControlEvent) (stamps : Stamps) (reference : LogEnvelopeV1)
    (s : LogDispatcher) : LogDispatcher :=
  s.enqueue O (O.buildLogEnvelope event stamps reference.resource) true

def enqueueDropControl (O : DispatcherOptions) (stamps : Stamps) (reference : LogEnvelopeV1) (s : LogDispatcher) :
    LogDispatcher :=
  let severity := match LogSeverityText.all.filter fun severity => decide (0 < s.droppedBySeverity severity) with
    | [severity] => severity.text
    | _ => "mixed"
  { s with droppedSinceControl := 0 }.enqueueControl O (.recordsDropped s.droppedSinceControl severity) stamps
    reference

/-- What `deliver` does when the write of one sink has settled. -/
def settleSink (O : DispatcherOptions) (entry : QueuedRecord) (sink : String) (stamps : Stamps) (s : LogDispatcher) :
    SinkOutcome → LogDispatcher
  | .written =>
    if s.sinkHealthy sink then s
    else { s with sinkHealthy := Function.update s.sinkHealthy sink true }.enqueueControl O (.sinkRecovered sink)
      stamps entry.record
  | .failed =>
    if s.sinkHealthy sink then
      let s := { s with sinkHealthy := Function.update s.sinkHealthy sink false }
      if entry.control then s else s.enqueueControl O (.sinkFailed sink) stamps entry.record
    else s

/-- The loop of `process`: the next entry is offered to its sinks, or the loop ends. -/
def takeNext (O : DispatcherOptions) (s : LogDispatcher) : LogDispatcher :=
  match s.queue with
  | [] => { s with processing := .idle }.checkWaiters
  | entry :: rest =>
    { s with queue := rest, processing := .delivering entry (O.matching entry.record) }.note
      (.offered entry ((O.matching entry.record).map Prod.fst))

/-- What `process` does when an entry has been delivered. -/
def complete (O : DispatcherOptions) (entry : QueuedRecord) (stamps : Stamps) (s : LogDispatcher) : LogDispatcher :=
  let s := ({ s with
    processing := .starting
    pendingSequences := s.pendingSequences.filter (· != entry.sequence) }.note (.delivered entry)).checkWaiters
  let s := if !entry.control && decide (0 < s.droppedSinceControl) then s.enqueueDropControl O stamps entry.record
    else s
  s.takeNext O

/-! ## Events -/

/-- What can happen to a dispatcher: a call, or the settling of what one of its functions waits for. -/
inductive Event
  | dispatch (record : LogEnvelopeV1)
  | flush
  | close
  | microtask
  | started
  | settle (sink : ℕ) (outcome : SinkOutcome) (stamps : Stamps)
  | resume (stamps : Stamps)
  | drain

/-- The loop of `drain`, and what comes before it. -/
def drain (s : LogDispatcher) : LogDispatcher :=
  if s.processing ≠ .idle ∨ s.scheduled ∨ s.queue ≠ [] then { s with closing := .draining }.schedule
  else { s with closing := .drained }

def step (O : DispatcherOptions) (s : LogDispatcher) : Event → Option LogDispatcher
  | .dispatch record => some (if s.closing = .unclosed then s.enqueue O record false else s)
  | .flush => some s.flush
  | .close => some (if s.closing = .unclosed then { s with closing := .flushing s.flushes }.flush else s)
  | .microtask =>
    if s.scheduled then
      let s := { s with scheduled := false }
      some (if s.processing = .idle then { s with processing := .starting } else s)
    else none
  | .started => if s.processing = .starting then some (s.takeNext O) else none
  | .settle sink outcome stamps =>
    match s.processing with
    | .delivering entry outstanding =>
      (outstanding.lookup sink).map fun name =>
        ({ s with processing := .delivering entry (outstanding.filter fun other => other.1 != sink) }.note
          (.settled entry.sequence sink outcome)).settleSink O entry name stamps outcome
    | .idle | .starting => none
  | .resume stamps =>
    match s.processing with
    | .delivering entry [] => some (s.complete O entry stamps)
    | .delivering _ (_ :: _) | .idle | .starting => none
  | .drain =>
    match s.closing with
    | .flushing waiter => if s.waiters.any (·.id == waiter) then none else some s.drain
    | .draining => some s.drain
    | .unclosed | .drained => none

end LogDispatcher

end PlusOne
