import Mathlib.Data.List.Sort
import PlusOne.Logging.Flushing

/-! # Every record is accounted for

What is known of a dispatcher after any run: of the records that were dispatched before it was closed, of
the sinks they were offered to, and of the flushes. -/

namespace PlusOne

open Transitions

namespace LogDispatcher

open Happening

variable {O : DispatcherOptions} {s s' : LogDispatcher} {record : LogEnvelopeV1} {control : Bool}
  {entry : QueuedRecord} {history : List Happening}

/-! ## Offers to one sink -/

/-- How often an entry is offered to a sink. -/
def offersTo (history : List Happening) (entry : QueuedRecord) (sink : ℕ) : ℕ :=
  (history.map fun
    | .offered other sinks => if other = entry then sinks.count sink else 0
    | _ => 0).sum

theorem offersTo_eq (h : ∀ entry sinks, .offered entry sinks ∈ history → sinks = (O.matching entry.record).map Prod.fst)
    (entry : QueuedRecord) (sink : ℕ) : offersTo history entry sink =
      (offeredOf history).count entry * ((O.matching entry.record).map Prod.fst).count sink := by
  induction history with
  | nil => simp [offersTo, offeredOf]
  | cons happening history ih =>
    have hrest := ih fun entry sinks hmem => h entry sinks (List.mem_cons_of_mem _ hmem)
    cases happening with
    | offered other sinks =>
      have hsinks := h other sinks (by simp)
      simp only [offersTo, offeredOf, List.map_cons, List.sum_cons, List.filterMap_cons_some, List.count_cons] at hrest ⊢
      rw [hrest, hsinks]
      by_cases hsame : other = entry
      · rw [hsame]
        simp [Nat.add_mul, Nat.add_comm]
      · simp [hsame]
    | _ => simpa [offersTo, offeredOf] using hrest

/-- The sink at this place takes the record. -/
def takes (O : DispatcherOptions) (record : LogEnvelopeV1) (sink : ℕ) : Bool :=
  (O.sinks[sink]?).any fun sink => sink.accepts record

theorem nodup_matching (O : DispatcherOptions) (record : LogEnvelopeV1) :
    ((O.matching record).map Prod.fst).Nodup := by
  have hplaces : (O.sinks.zipIdx.map Prod.snd).Nodup := by
    rw [List.zipIdx_map_snd]
    exact List.nodup_range'
  have hsublist := (List.filter_sublist (l := O.sinks.zipIdx) (p := fun sink => sink.1.accepts record)).map Prod.snd
  rw [DispatcherOptions.matching, List.map_map]
  exact hplaces.sublist hsublist

theorem mem_matching {sink : ℕ} : sink ∈ (O.matching record).map Prod.fst ↔ takes O record sink = true := by
  simp only [DispatcherOptions.matching, takes, List.mem_map, List.mem_filter, Option.any_eq_true,
    List.mem_zipIdx_iff_getElem?]
  constructor
  · rintro ⟨place, ⟨found, ⟨hfound, haccepts⟩, rfl⟩, rfl⟩
    exact ⟨found.1, hfound, haccepts⟩
  · rintro ⟨found, hfound, haccepts⟩
    exact ⟨(sink, found.name), ⟨(found, sink), ⟨hfound, haccepts⟩, rfl⟩, rfl⟩

theorem offersTo_takes (h : Accounts O s) (entry : QueuedRecord) (sink : ℕ) : offersTo s.history entry sink =
    if takes O entry.record sink then (offeredOf s.history).count entry else 0 := by
  rw [offersTo_eq h.matching]
  split
  · next htakes =>
    rw [List.count_eq_one_of_mem (nodup_matching O entry.record) (mem_matching.2 htakes), Nat.mul_one]
  · next htakes =>
    rw [List.count_eq_zero.2 (fun hmem => htakes (mem_matching.1 hmem)), Nat.mul_zero]

/-! ## The order of the offers -/

/-- The entries that are offered come in the order in which they entered. -/
theorem offered_sublist (h : Accounts O s) : (offeredOf s.history).Sublist (enteredOf s.history) := by
  have hantisymm : Std.Antisymm fun a b : QueuedRecord => a.sequence < b.sequence :=
    ⟨fun a b hab hba => absurd (hab.trans hba) (Nat.lt_irrefl _)⟩
  have hordered := h.ordered
  rw [List.map_append, List.pairwise_append] at hordered
  have hoffered := List.pairwise_map.1 hordered.1
  have hentered := List.pairwise_map.1 h.numbered
  have hnodup : (offeredOf s.history).Nodup := hoffered.imp fun hlt => by
    rintro rfl
    exact Nat.lt_irrefl _ hlt
  have hsubset : offeredOf s.history ⊆ enteredOf s.history := by
    intro entry hentry
    exact mem_enteredOf.2 (h.known entry (List.mem_append_left _ hentry))
  exact List.sublist_of_subperm_of_pairwise (hnodup.subperm hsubset) hoffered hentered

/-! ## The records that are dispatched -/

/-- The records of the calls of `dispatch` before the first call of `close`. -/
def dispatchedBeforeClose : List Event → List LogEnvelopeV1
  | [] => []
  | .close :: _ => []
  | .dispatch record :: events => record :: dispatchedBeforeClose events
  | _ :: events => dispatchedBeforeClose events

/-- The records that entered, but for the control records. -/
def dispatchedOf (history : List Happening) : List LogEnvelopeV1 :=
  ((enteredOf history).filter fun entry => !entry.control).map QueuedRecord.record

@[simp] theorem enteredOf_checkWaiters : enteredOf s.checkWaiters.history = enteredOf s.history := by
  simp only [checkWaiters, enteredOf_append]
  have hresolved : enteredOf ((s.waiters.filter fun waiter =>
      !s.hasPendingAtOrBelow waiter.barrier).reverse.map fun waiter => Happening.resolved waiter.id) = [] := by
    simp [enteredOf, List.filterMap_map, Function.comp_def]
  rw [hresolved, List.append_nil]

@[simp] theorem enteredOf_note_entered : enteredOf (s.note (.entered entry)).history = enteredOf s.history ++ [entry] := by
  simp [note]

@[simp] theorem enteredOf_noteDrop {displacedBy : Option LogEnvelopeV1} :
    enteredOf (s.noteDrop entry displacedBy).history = enteredOf s.history := by
  simp [noteDrop, note]

theorem enteredOf_note (happening : Happening) (hne : ∀ entry, happening ≠ .entered entry) :
    enteredOf (s.note happening).history = enteredOf s.history := by
  have hnone : enteredOf [happening] = [] := by
    cases happening with
    | entered entry => exact absurd rfl (hne entry)
    | _ => rfl
  simp [note, hnone]

theorem enteredOf_entering (hentering : Entering O s entry s') :
    enteredOf s'.history = enteredOf s.history ++ [entry] := by
  cases hentering with
  | pushed => simp [push, entering]
  | withheld => simp [entering]
  | refused => simp [entering]
  | displaced => simp [push, entering]

theorem dispatchedOf_enqueue (record : LogEnvelopeV1) (control : Bool) :
    dispatchedOf (s.enqueue O record control).history =
      dispatchedOf s.history ++ if control then [] else [record] := by
  have hentered := enteredOf_entering (enqueue_entering O record control s)
  rw [dispatchedOf, hentered, List.filter_append, List.map_append]
  cases control <;> rfl

theorem dispatchedOf_settleSink (entry : QueuedRecord) (sink : String) (stamps : Stamps) (outcome : SinkOutcome) :
    dispatchedOf (s.settleSink O entry sink stamps outcome).history = dispatchedOf s.history := by
  cases outcome with
  | written =>
    simp only [settleSink, enqueueControl]
    split
    · rfl
    · rw [dispatchedOf_enqueue]
      simp
  | failed =>
    simp only [settleSink, enqueueControl]
    split
    · split
      · rfl
      · rw [dispatchedOf_enqueue]
        simp
    · rfl

theorem enteredOf_takeNext : enteredOf (s.takeNext O).history = enteredOf s.history := by
  unfold takeNext
  split
  · rw [enteredOf_checkWaiters]
  · rw [enteredOf_note _ (by simp)]

theorem dispatchedOf_complete (entry : QueuedRecord) (stamps : Stamps) :
    dispatchedOf (s.complete O entry stamps).history = dispatchedOf s.history := by
  have hdelivering : dispatchedOf (s.delivering entry).checkWaiters.history = dispatchedOf s.history := by
    rw [dispatchedOf, enteredOf_checkWaiters, delivering, enteredOf_note _ (by simp)]
    rfl
  unfold complete
  simp only
  rw [dispatchedOf, enteredOf_takeNext, ← dispatchedOf]
  split
  · simp only [enqueueDropControl, enqueueControl]
    rw [dispatchedOf_enqueue, if_pos rfl, List.append_nil]
    exact hdelivering
  · exact hdelivering

theorem enteredOf_flush : enteredOf s.flush.history = enteredOf s.history := by
  have hflushing : enteredOf s.flushing.history = enteredOf s.history := by
    rw [flushing, schedule_history, enteredOf_note _ (by simp)]
  unfold flush
  simp only
  split
  · exact hflushing
  · rw [enteredOf_note _ (by simp)]
    exact hflushing

/-! ## Closing -/

theorem enqueue_closing (record : LogEnvelopeV1) (control : Bool) :
    (s.enqueue O record control).closing = s.closing :=
  (enqueue_entering O record control s).frame.2.1

theorem settleSink_closing (entry : QueuedRecord) (sink : String) (stamps : Stamps) (outcome : SinkOutcome) :
    (s.settleSink O entry sink stamps outcome).closing = s.closing := by
  cases outcome with
  | written =>
    simp only [settleSink, enqueueControl]
    split
    · rfl
    · rw [enqueue_closing]
  | failed =>
    simp only [settleSink, enqueueControl]
    split
    · split
      · rfl
      · rw [enqueue_closing]
    · rfl

theorem takeNext_closing : (s.takeNext O).closing = s.closing := by
  unfold takeNext
  split <;> rfl

theorem complete_closing (entry : QueuedRecord) (stamps : Stamps) :
    (s.complete O entry stamps).closing = s.closing := by
  unfold complete
  simp only
  rw [takeNext_closing]
  split
  · simp only [enqueueDropControl, enqueueControl]
    rw [enqueue_closing]
    rfl
  · rfl

theorem flush_closing : s.flush.closing = s.closing := by
  unfold flush
  simp only
  split <;> simp [note]

theorem drain_closing : s.drain.closing ≠ .unclosed := by
  unfold drain
  split <;> simp

/-- What a run adds to the records that entered are those that are dispatched before the close. -/
theorem dispatchedOf_run {events : List Event} (h : run (step O) s events = some s') :
    dispatchedOf s'.history = dispatchedOf s.history ++
      if s.closing = .unclosed then dispatchedBeforeClose events else [] := by
  induction events generalizing s with
  | nil =>
    cases h
    simp [dispatchedBeforeClose]
  | cons event events ih =>
    obtain ⟨next, hnext, hrun⟩ := run_cons_eq_some.1 h
    rw [ih hrun]
    cases step_stepped hnext with
    | dispatched record hclosing =>
      rw [enqueue_closing, dispatchedOf_enqueue, hclosing]
      simp [dispatchedBeforeClose]
    | ignored record hclosing => simp [hclosing]
    | flushed =>
      rw [flush_closing, dispatchedOf, enteredOf_flush]
      rfl
    | closed hclosing =>
      rw [flush_closing, dispatchedOf, enteredOf_flush]
      simp [dispatchedBeforeClose, dispatchedOf]
    | closedAgain hclosing => simp [hclosing]
    | begun | skipped => rfl
    | started =>
      rw [takeNext_closing, dispatchedOf, enteredOf_takeNext]
      rfl
    | settled sink outcome stamps entry outstanding name =>
      rw [settleSink_closing, dispatchedOf_settleSink, dispatchedOf, enteredOf_note _ (by simp)]
      rfl
    | resumed stamps entry =>
      rw [complete_closing, dispatchedOf_complete]
      rfl
    | drained hready =>
      have hclosing : s.closing ≠ .unclosed := by
        rcases hready with hready | ⟨waiter, hready, -⟩ <;> simp [hready]
      have hhistory : s.drain.history = s.history := by
        unfold drain
        split <;> simp
      rw [if_neg drain_closing, if_neg hclosing, hhistory]

/-- Once the drain is over nothing is under way any more. -/
def DrainedIdle (s : LogDispatcher) : Prop :=
  s.closing = .drained → s.processing = .idle ∧ s.scheduled = false ∧ s.queue = []

theorem DrainedIdle.step (h : DrainedIdle s) {event : Event} (hstep : s.step O event = some s') : DrainedIdle s' := by
  intro hdrained
  cases step_stepped hstep with
  | dispatched record hclosing =>
    rw [enqueue_closing, hclosing] at hdrained
    cases hdrained
  | ignored | closedAgain => exact h hdrained
  | flushed =>
    rw [flush_closing] at hdrained
    obtain ⟨hidle, hscheduled, hqueue⟩ := h hdrained
    unfold flush
    simp only
    split <;> simp [note, schedule, hidle, hscheduled, hqueue]
  | closed =>
    rw [flush_closing] at hdrained
    cases hdrained
  | begun hscheduled | skipped hscheduled =>
    have hquiet := (h hdrained).2.1
    rw [hscheduled] at hquiet
    cases hquiet
  | started hstarting =>
    rw [takeNext_closing] at hdrained
    have hidle := (h hdrained).1
    rw [hstarting] at hidle
    cases hidle
  | settled sink outcome stamps entry outstanding name hunderWay =>
    rw [settleSink_closing] at hdrained
    have hidle := (h hdrained).1
    rw [hunderWay] at hidle
    cases hidle
  | resumed stamps entry hunderWay =>
    rw [complete_closing] at hdrained
    have hidle := (h hdrained).1
    rw [hunderWay] at hidle
    cases hidle
  | drained =>
    unfold drain at hdrained ⊢
    split
    · next hbusy =>
      rw [if_pos hbusy] at hdrained
      simp at hdrained
    · next hquiet => simpa [not_or] using hquiet

theorem DrainedIdle.reachable (h : Reachable (LogDispatcher.step O) LogDispatcher.initial s) : DrainedIdle s := by
  refine h.invariant (fun _ _ _ hidle hstep => hidle.step hstep) ?_
  intro hdrained
  cases hdrained

/-! ## Accounting for every record -/

/-- Where an entry that was dispatched can be: it waits, it was offered once to every sink that takes its
record, or it was dropped and counted once. -/
inductive RecordFate (O : DispatcherOptions) (s : LogDispatcher) (entry : QueuedRecord) : Prop
  | waiting (queued : s.queue.count entry = 1) (counted : (droppedOf s.history).count entry = 0)
    (offers : ∀ sink, offersTo s.history entry sink = 0)
  | offered (queued : s.queue.count entry = 0) (counted : (droppedOf s.history).count entry = 0)
    (offers : ∀ sink, offersTo s.history entry sink = if takes O entry.record sink then 1 else 0)
  | dropped (queued : s.queue.count entry = 0) (counted : (droppedOf s.history).count entry = 1)
    (offers : ∀ sink, offersTo s.history entry sink = 0)

theorem Accounts.fate (h : Accounts O s) (hentered : .entered entry ∈ s.history) (hcontrol : entry.control = false) :
    RecordFate O s entry := by
  have hnodup : (enteredOf s.history).Nodup := by
    have hnumbered := List.pairwise_map.1 h.numbered
    refine hnumbered.imp fun hlt => ?_
    rintro rfl
    exact Nat.lt_irrefl _ hlt
  have hone := List.count_eq_one_of_mem hnodup (mem_enteredOf.2 hentered)
  have hcounted := h.counted entry hcontrol
  have hoffers := offersTo_takes h entry
  rcases Nat.eq_zero_or_pos ((offeredOf s.history).count entry) with hnone | hoffered
  · have hzero : ∀ sink, offersTo s.history entry sink = 0 := by
      intro sink
      rw [hoffers sink, hnone]
      simp
    rcases Nat.eq_zero_or_pos ((droppedOf s.history).count entry) with hkept | hdropped
    · exact .waiting (by omega) hkept hzero
    · exact .dropped (by omega) (by omega) hzero
  · refine .offered (by omega) (by omega) ?_
    intro sink
    rw [hoffers sink]
    have honce : (offeredOf s.history).count entry = 1 := by omega
    rw [honce]

end LogDispatcher

open LogDispatcher Happening in
/-- After any run of a dispatcher: the queue is within its capacity but for one; what entered is what was
dispatched before the close, and each of these entries waits, was offered once to every sink that takes it, or
was dropped and counted once, and none waits once the drain is over; what was displaced has a lower severity;
the offers come in the order of the entries; and a flush was resolved only when every record dispatched before
it was done with. -/
theorem records_accounted (O : DispatcherOptions) (events : List LogDispatcher.Event) (s : LogDispatcher)
    (h : run (LogDispatcher.step O) LogDispatcher.initial events = some s) :
    s.queue.length ≤ O.capacity + 1 ∧
    dispatchedOf s.history = dispatchedBeforeClose events ∧
    (∀ entry, .entered entry ∈ s.history → entry.control = false → RecordFate O s entry) ∧
    (∀ severity, s.droppedBySeverity severity =
      (droppedOf s.history).countP fun entry => entry.record.severityText == severity) ∧
    (s.closing = .drained → s.queue = []) ∧
    (∀ entry other, .dropped entry (some other) ∈ s.history →
      entry.record.severityText.order < other.severityText.order) ∧
    (offeredOf s.history).Sublist (enteredOf s.history) ∧
    FlushesHonest O s.history := by
  have hreachable : Reachable (LogDispatcher.step O) LogDispatcher.initial s := ⟨events, h⟩
  have hbooks := Accounts.reachable hreachable
  have hflushes := FlushBooks.reachable hreachable
  refine ⟨hbooks.bounded, ?_, ?_, hbooks.drops, ?_, hbooks.lower, offered_sublist hbooks, hflushes.honest⟩
  · rw [dispatchedOf_run h]
    rfl
  · intro entry hentered hcontrol
    exact hbooks.fate hentered hcontrol
  · intro hdrained
    exact (DrainedIdle.reachable hreachable hdrained).2.2

namespace TestLogging

open LogDispatcher

def stamps : Stamps := ⟨"2026-01-01T00:00:00.000Z", "2026-01-01T00:00:00.000Z"⟩

def agent : LogSink := ⟨"agent", fun _ => .ok true⟩

def recordOf (severityText : LogSeverityText) (eventName : String) : LogEnvelopeV1 where
  timestamp := stamps.timestamp
  observedTimestamp := stamps.observedTimestamp
  severityText
  severityNumber := severityText.number
  eventName
  body := eventName
  resource := [("service.name", "plus-one")]
  instrumentationScope := "runtime.test"
  traceId := none
  spanId := none
  attributes := []

def oneSink : DispatcherOptions where
  sinks := [agent]
  capacity := 1
  capacity_pos := Nat.le_refl _
  sanitizeLogString text length := String.ofList (text.toList.take length)

/-- An error displaces what waits, and is written; then the dispatcher is closed. -/
def displacingRun : List Event :=
  [.dispatch (recordOf .info "turn.started"), .dispatch (recordOf .error "turn.failed"), .flush, .microtask, .started,
    .settle 0 .written stamps, .resume stamps, .settle 0 .written stamps, .resume stamps, .close, .drain,
    .dispatch (recordOf .info "turn.started")]

end TestLogging

open TestLogging LogDispatcher Happening in
/-- The displaced record is counted, the other one is written, and nothing is left. -/
theorem records_accounted_displacing :
    ∃ s, run (LogDispatcher.step oneSink) LogDispatcher.initial displacingRun = some s ∧
      dispatchedOf s.history = [recordOf .info "turn.started", recordOf .error "turn.failed"] ∧
      s.droppedBySeverity .info = 1 ∧ s.closing = .drained ∧ s.queue = [] ∧ .resolved 0 ∈ s.history ∧
      FlushesHonest oneSink s.history := by
  have hrun : (run (LogDispatcher.step oneSink) LogDispatcher.initial displacingRun).isSome = true := by
    decide +kernel
  obtain ⟨s, hs⟩ := Option.isSome_iff_exists.1 hrun
  have hseen : (run (LogDispatcher.step oneSink) LogDispatcher.initial displacingRun).map (fun s =>
      (s.droppedBySeverity .info, s.closing, decide (.resolved 0 ∈ s.history))) = some (1, .drained, true) := by
    decide +kernel
  rw [hs] at hseen
  simp only [Option.map_some, Option.some.injEq, Prod.mk.injEq, decide_eq_true_eq] at hseen
  obtain ⟨-, hdispatched, -, -, hdrained, -, -, hhonest⟩ := records_accounted oneSink displacingRun s hs
  exact ⟨s, hs, hdispatched, hseen.1, hseen.2.1, hdrained hseen.2.1, hseen.2.2, hhonest⟩

end PlusOne
