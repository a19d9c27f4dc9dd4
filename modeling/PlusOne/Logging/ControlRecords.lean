import PlusOne.Logging.DispatcherRuns

/-! # The control records of a dispatcher

A sink that fails and recovers makes the dispatcher put further records into its own queue. What is left to
do is measured by a potential, which every step lowers while at most one sink takes the records that report
a recovery. -/

namespace PlusOne

open Transitions

namespace LogDispatcher

open Happening

variable {O : DispatcherOptions} {s s' : LogDispatcher} {record : LogEnvelopeV1} {control : Bool}
  {entry : QueuedRecord}

/-- The record that reports the recovery of a sink. -/
abbrev recovered (O : DispatcherOptions) (sink : LogSink) (stamps : Stamps) (resource : List (String × String)) :
    LogEnvelopeV1 :=
  O.buildLogEnvelope (.sinkRecovered sink.name) stamps resource

/-- At most one sink takes the records that report a recovery. -/
def AtMostOneTakes (O : DispatcherOptions) : Prop :=
  ∀ sink ∈ O.sinks, ∀ stamps resource, (O.matching (recovered O sink stamps resource)).length ≤ 1

/-! ## The potential -/

/-- The control records that entered so far. -/
def controls (s : LogDispatcher) : ℕ := (enteredOf s.history).countP fun entry => entry.control

/-- The names under which writes fail. -/
def unhealthy (O : DispatcherOptions) (s : LogDispatcher) : ℕ :=
  ((O.sinks.map LogSink.name).dedup.filter fun name => !s.sinkHealthy name).length

def isRecovery (entry : QueuedRecord) : Bool := entry.control && entry.record.eventName == "logging.sink.recovered"

/-- What can still follow from a control record: each sink can fail or recover. -/
def controlWeight (O : DispatcherOptions) : ℕ := 1 + 4 * O.sinks.length

/-- What can still follow from the write of an entry to one sink. -/
def writeWeight (O : DispatcherOptions) (entry : QueuedRecord) : ℕ :=
  if entry.control then 4 else controlWeight O + 5

def weight (O : DispatcherOptions) (entry : QueuedRecord) : ℕ :=
  if isRecovery entry then 5
  else if entry.control then controlWeight O
  else 2 + controlWeight O + O.sinks.length * (controlWeight O + 5)

def flightWeight (O : DispatcherOptions) : Processing → ℕ
  | .idle => 0
  | .starting => 1
  | .delivering entry outstanding =>
    1 + outstanding.length * writeWeight O entry + if entry.control then 0 else 1 + controlWeight O

def queueWeight (O : DispatcherOptions) (queue : List QueuedRecord) : ℕ := (queue.map (weight O)).sum

/-- What is left to do, and the control records so far. -/
def potential (O : DispatcherOptions) (s : LogDispatcher) : ℕ :=
  2 * s.scheduled.toNat + flightWeight O s.processing + 3 * unhealthy O s + queueWeight O s.queue + controls s

/-- An event by which the dispatcher gets on. -/
def Event.isWork : Event → Bool
  | .microtask | .started | .settle .. | .resume _ => true
  | .dispatch _ | .flush | .close | .drain => false

def Event.gain (O : DispatcherOptions) : Event → ℕ
  | .dispatch _ => 4 + controlWeight O + O.sinks.length * (controlWeight O + 5)
  | _ => 0

/-! ## What the steps do to it -/

theorem length_matching_le (O : DispatcherOptions) (record : LogEnvelopeV1) :
    (O.matching record).length ≤ O.sinks.length := by
  rw [DispatcherOptions.matching, List.length_map]
  exact (List.length_filter_le _ _).trans_eq List.length_zipIdx

@[simp] theorem queueWeight_append (queue other : List QueuedRecord) :
    queueWeight O (queue ++ other) = queueWeight O queue + queueWeight O other := by
  simp [queueWeight]

@[simp] theorem queueWeight_cons (queue : List QueuedRecord) :
    queueWeight O (entry :: queue) = weight O entry + queueWeight O queue := by
  simp [queueWeight]

@[simp] theorem queueWeight_nil : queueWeight O [] = 0 := rfl

theorem scheduled_schedule_le : s.schedule.scheduled.toNat ≤
    s.scheduled.toNat + if s.processing = .idle then 1 else 0 := by
  unfold schedule
  split
  · exact Nat.le_add_right _ _
  · next hidle =>
    simp only [not_or, not_not] at hidle
    simp [hidle.1]

theorem controls_entering (h : Entering O s entry s') : controls s' = controls s + entry.control.toNat := by
  rw [controls, enteredOf_entering h, List.countP_append, controls]
  cases hcontrol : entry.control <;> simp [hcontrol]

theorem Entering.queueWeight_le (h : Entering O s entry s') :
    queueWeight O s'.queue ≤ queueWeight O s.queue + weight O entry := by
  cases h with
  | pushed => simp [push, entering, note]
  | withheld => simp [entering, note, checkWaiters]
  | refused => simp [entering, note, noteDrop, checkWaiters]
  | displaced before evicted after hqueue =>
    simp [push, entering, note, noteDrop, hqueue]
    omega

theorem Entering.scheduled_le (h : Entering O s entry s') :
    s'.scheduled.toNat ≤ s.scheduled.toNat + if s.processing = .idle then 1 else 0 := by
  cases h with
  | pushed => exact scheduled_schedule_le
  | withheld | refused => exact Nat.le_add_right _ _
  | displaced => exact scheduled_schedule_le

theorem Entering.potential_le (h : Entering O s entry s') : potential O s' ≤
    potential O s + weight O entry + entry.control.toNat + if s.processing = .idle then 2 else 0 := by
  obtain ⟨hprocessing, -, hhealthy, -⟩ := h.frame
  have hqueue := h.queueWeight_le
  have hscheduled := h.scheduled_le
  have hcontrols := controls_entering h
  have hunhealthy : unhealthy O s' = unhealthy O s := by rw [unhealthy, hhealthy, unhealthy]
  rw [potential, potential, hprocessing, hcontrols, hunhealthy]
  split at hscheduled <;> simp_all <;> omega

theorem enqueue_potential_le (record : LogEnvelopeV1) (control : Bool) : potential O (s.enqueue O record control) ≤
    potential O s + weight O (s.nextEntry record control) + control.toNat + if s.processing = .idle then 2 else 0 :=
  (enqueue_entering O record control s).potential_le

/-- What a control event can bring at most. -/
def worth (O : DispatcherOptions) : ControlEvent → ℕ
  | .sinkRecovered _ => 5
  | .sinkFailed _ | .recordsDropped .. => controlWeight O

theorem weight_control (event : ControlEvent) (stamps : Stamps) (resource : List (String × String)) (sequence : ℕ) :
    weight O ⟨sequence, O.buildLogEnvelope event stamps resource, true⟩ ≤ worth O event := by
  cases event with
  | sinkRecovered sink =>
    simp [weight, worth, isRecovery, DispatcherOptions.buildLogEnvelope, DispatcherOptions.loggingEnvelope]
  | sinkFailed sink =>
    simp [weight, worth, isRecovery, DispatcherOptions.buildLogEnvelope, DispatcherOptions.loggingEnvelope]
  | recordsDropped droppedCount droppedSeverity =>
    by_cases hcount : droppedCount ≤ 9007199254740991 <;>
      simp [weight, worth, isRecovery, DispatcherOptions.buildLogEnvelope, hcount, DispatcherOptions.loggingEnvelope,
        DispatcherOptions.invalidEnvelope]

theorem enqueueControl_potential_le (event : ControlEvent) (stamps : Stamps) (reference : LogEnvelopeV1)
    (hbusy : s.processing ≠ .idle) : potential O (s.enqueueControl O event stamps reference) ≤
      potential O s + 1 + worth O event := by
  have hpotential := enqueue_potential_le (O := O) (s := s) (O.buildLogEnvelope event stamps reference.resource) true
  have hweight := weight_control (O := O) event stamps reference.resource (s.sequence + 1)
  rw [if_neg hbusy, Bool.toNat_true] at hpotential
  unfold enqueueControl
  unfold nextEntry at hpotential
  omega

@[simp] theorem potential_checkWaiters : potential O s.checkWaiters = potential O s := by
  have hcontrols : controls s.checkWaiters = controls s := by rw [controls, enteredOf_checkWaiters, controls]
  rw [potential, hcontrols]
  rfl

theorem potential_note (happening : Happening) (hne : ∀ entry, happening ≠ .entered entry) :
    potential O (s.note happening) = potential O s := by
  have hcontrols : controls (s.note happening) = controls s := by
    rw [controls, enteredOf_note happening hne, controls]
  rw [potential, hcontrols]
  rfl

/-- The entry that is taken was worth what its delivery can bring. -/
theorem flightWeight_le (hrecovery : isRecovery entry = true → (O.matching entry.record).length ≤ 1) :
    flightWeight O (.delivering entry (O.matching entry.record)) ≤ weight O entry := by
  have hlength := length_matching_le O entry.record
  unfold flightWeight weight writeWeight
  cases hcontrol : entry.control with
  | false =>
    have hmul := Nat.mul_le_mul_right (controlWeight O + 5) hlength
    simp [isRecovery, hcontrol]
    omega
  | true =>
    by_cases hkind : isRecovery entry = true
    · have hone := hrecovery hkind
      simp [hkind, hcontrol]
      omega
    · simp [hkind, hcontrol, controlWeight]
      omega

theorem takeNext_potential (hrecovery : ∀ entry ∈ s.queue, isRecovery entry = true →
    (O.matching entry.record).length ≤ 1) (hstarting : s.processing = .starting) :
    potential O (s.takeNext O) + 1 ≤ potential O s := by
  unfold takeNext
  split
  · rw [potential_checkWaiters]
    simp only [potential, hstarting, flightWeight, unhealthy, controls]
    omega
  · next entry rest hqueue =>
    have hflight := flightWeight_le (hrecovery entry (by rw [hqueue]; simp))
    rw [potential_note _ (by simp)]
    simp only [potential, hqueue, queueWeight_cons, hstarting, unhealthy, controls] at hflight ⊢
    have hone : flightWeight O .starting = 1 := rfl
    omega

/-! ## Health -/

theorem length_filter_update {names : List String} {name : String} (hnodup : names.Nodup) (hname : name ∈ names)
    (healthy : String → Bool) (value : Bool) :
    (names.filter fun other => !Function.update healthy name value other).length + (!healthy name).toNat =
      (names.filter fun other => !healthy other).length + (!value).toNat := by
  induction names with
  | nil => cases hname
  | cons other names ih =>
    rw [List.nodup_cons] at hnodup
    by_cases hsame : other = name
    · rw [hsame] at hnodup ⊢
      have hrest : (names.filter fun other => !Function.update healthy name value other) =
          names.filter fun other => !healthy other := by
        refine List.filter_congr ?_
        intro other hother
        have hne : other ≠ name := by
          rintro rfl
          exact hnodup.1 hother
        rw [Function.update_of_ne hne]
      cases value <;> cases hhealthy : healthy name <;> simp [List.filter_cons, hrest, hhealthy]
    · have hrest := ih hnodup.2 (by simpa [Ne.symm hsame] using hname)
      have hkept : Function.update healthy name value other = healthy other := Function.update_of_ne hsame _ _
      cases hhealthy : healthy other <;> simp [List.filter_cons, hkept, hhealthy] <;> omega

theorem unhealthy_update {name : String} (hname : name ∈ O.sinks.map LogSink.name) (value : Bool) :
    unhealthy O { s with sinkHealthy := Function.update s.sinkHealthy name value } + (!s.sinkHealthy name).toNat =
      unhealthy O s + (!value).toNat :=
  length_filter_update (List.nodup_dedup _) (List.mem_dedup.2 hname) _ _

theorem potential_health (O : DispatcherOptions) (s : LogDispatcher) (healthy : String → Bool) : potential O { s with sinkHealthy := healthy } +
    3 * unhealthy O s = potential O s + 3 * unhealthy O { s with sinkHealthy := healthy } := by
  simp only [potential, controls]
  omega

/-- The writes to one sink bring at most their weight. -/
theorem settleSink_potential (entry : QueuedRecord) {name : String} (hname : name ∈ O.sinks.map LogSink.name) (stamps : Stamps)
    (outcome : SinkOutcome) (hbusy : s.processing ≠ .idle) :
    potential O (s.settleSink O entry name stamps outcome) + 1 ≤ potential O s + writeWeight O entry := by
  have hfour : 4 ≤ writeWeight O entry := by
    unfold writeWeight
    split <;> omega
  have hupdate := unhealthy_update (O := O) (s := s) hname
  cases outcome with
  | written =>
    simp only [settleSink]
    split
    · omega
    · next hhealthy =>
      rw [Bool.not_eq_true] at hhealthy
      have hhealth := potential_health O s (Function.update s.sinkHealthy name true)
      have hone := hupdate true
      have hcontrol := enqueueControl_potential_le (O := O) (s := { s with
        sinkHealthy := Function.update s.sinkHealthy name true }) (.sinkRecovered name) stamps entry.record hbusy
      simp only [hhealthy, worth, Bool.not_false, Bool.not_true, Bool.toNat_true, Bool.toNat_false] at hone hcontrol
      omega
  | failed =>
    simp only [settleSink]
    split
    · next hhealthy =>
      have hhealth := potential_health O s (Function.update s.sinkHealthy name false)
      have hone := hupdate false
      simp only [hhealthy, Bool.not_false, Bool.not_true, Bool.toNat_true, Bool.toNat_false] at hone
      split
      · omega
      · next hcontrol =>
        have hfailed := enqueueControl_potential_le (O := O) (s := { s with
          sinkHealthy := Function.update s.sinkHealthy name false }) (.sinkFailed name) stamps entry.record hbusy
        have hweight : writeWeight O entry = controlWeight O + 5 := by
          unfold writeWeight
          rw [if_neg hcontrol]
        simp only [worth] at hfailed
        omega
    · omega

/-! ## What holds of every state -/

/-- What the potential needs to know of a state. -/
structure Orderly (O : DispatcherOptions) (s : LogDispatcher) : Prop where
  waiting : s.queue ≠ [] → s.processing ≠ .idle ∨ s.scheduled = true
  recoveries : ∀ entry ∈ s.queue, isRecovery entry = true → (O.matching entry.record).length ≤ 1
  named : ∀ entry outstanding, s.processing = .delivering entry outstanding →
    ∀ sink ∈ outstanding, sink.2 ∈ O.sinks.map LogSink.name

theorem matching_named {sink : ℕ × String} (h : sink ∈ O.matching record) : sink.2 ∈ O.sinks.map LogSink.name := by
  simp only [DispatcherOptions.matching, List.mem_map, List.mem_filter] at h
  obtain ⟨place, ⟨hplace, -⟩, rfl⟩ := h
  exact List.mem_map_of_mem (List.fst_mem_of_mem_zipIdx hplace)

theorem Orderly.congr (h : Orderly O s) (hqueue : s'.queue = s.queue) (hprocessing : s'.processing = s.processing)
    (hscheduled : s'.scheduled = s.scheduled) : Orderly O s' where
  waiting := by rw [hqueue, hprocessing, hscheduled]; exact h.waiting
  recoveries := by rw [hqueue]; exact h.recoveries
  named := by rw [hprocessing]; exact h.named

theorem schedule_scheduled (hqueue : s.queue ≠ []) :
    s.schedule.processing ≠ .idle ∨ s.schedule.scheduled = true := by
  unfold schedule
  split
  · next hnot => simp_all
  · exact Or.inr rfl

theorem Orderly.schedule (h : Orderly O s) : Orderly O s.schedule where
  waiting := by
    rw [schedule_queue]
    exact schedule_scheduled
  recoveries := by rw [schedule_queue]; exact h.recoveries
  named := by rw [schedule_processing]; exact h.named

theorem Orderly.schedule_eq (h : Orderly O s) : s.schedule = s := by
  unfold LogDispatcher.schedule
  split
  · rfl
  · next hnot =>
    simp only [not_or, not_not, Bool.not_eq_true] at hnot
    rcases h.waiting hnot.2.2 with hbusy | hscheduled
    · exact absurd hnot.1 hbusy
    · rw [hnot.2.1] at hscheduled
      cases hscheduled

theorem Orderly.entering (h : Orderly O s)
    (hentry : isRecovery entry = true → (O.matching entry.record).length ≤ 1) (hentering : Entering O s entry s') :
    Orderly O s' := by
  have hpush : ∀ queue : List QueuedRecord, (∀ entry ∈ queue, entry ∈ s.queue) → ∀ other ∈ queue ++ [entry],
      isRecovery other = true → (O.matching other.record).length ≤ 1 := by
    intro queue hqueue other hother
    rcases List.mem_append.1 hother with hold | hnew
    · exact h.recoveries other (hqueue other hold)
    · rw [List.mem_singleton.1 hnew]
      exact hentry
  cases hentering with
  | pushed =>
    refine ⟨fun _ => schedule_scheduled (by simp), ?_, ?_⟩
    · simpa [push, LogDispatcher.entering, note] using hpush s.queue (by simp)
    · simpa [push, LogDispatcher.entering, note] using h.named
  | withheld => exact ⟨h.waiting, h.recoveries, h.named⟩
  | refused => exact ⟨h.waiting, h.recoveries, h.named⟩
  | displaced before evicted after hqueue =>
    refine ⟨fun _ => schedule_scheduled (by simp), ?_, ?_⟩
    · have hkept := hpush (before ++ after) (by
        intro other hother
        rw [hqueue]
        rcases List.mem_append.1 hother with hbefore | hafter
        · exact List.mem_append_left _ hbefore
        · exact List.mem_append_right _ (List.mem_cons_of_mem _ hafter))
      simpa [push, LogDispatcher.entering, note, noteDrop] using hkept
    · simpa [push, LogDispatcher.entering, note, noteDrop] using h.named

theorem Orderly.takeNext (h : Orderly O s) : Orderly O (s.takeNext O) := by
  unfold LogDispatcher.takeNext
  split
  · next hqueue =>
    refine ⟨?_, h.recoveries, ?_⟩
    · intro hne
      exact absurd hqueue hne
    · intro entry outstanding hunderWay
      cases hunderWay
  · next entry rest hqueue =>
    refine ⟨?_, ?_, ?_⟩
    · intro _
      left
      simp [note]
    · intro other hother
      refine h.recoveries other ?_
      rw [hqueue]
      exact List.mem_cons_of_mem _ hother
    · intro other outstanding hunderWay sink hsink
      cases hunderWay
      exact matching_named hsink

section Keeps

variable (hone : AtMostOneTakes O)

include hone

theorem Orderly.enqueueControl (h : Orderly O s) (event : ControlEvent) (stamps : Stamps)
    (reference : LogEnvelopeV1) (hsink : ∀ sink, event = .sinkRecovered sink → sink ∈ O.sinks.map LogSink.name) :
    Orderly O (s.enqueueControl O event stamps reference) := by
  refine h.entering ?_ (enqueue_entering O _ true s)
  intro hrecovery
  cases event with
  | sinkRecovered name =>
    obtain ⟨sink, hmem, rfl⟩ := List.mem_map.1 (hsink name rfl)
    exact hone sink hmem stamps reference.resource
  | sinkFailed name =>
    simp [isRecovery, nextEntry, DispatcherOptions.buildLogEnvelope, DispatcherOptions.loggingEnvelope] at hrecovery
  | recordsDropped droppedCount droppedSeverity =>
    by_cases hcount : droppedCount ≤ 9007199254740991 <;>
      simp [isRecovery, nextEntry, DispatcherOptions.buildLogEnvelope, hcount, DispatcherOptions.loggingEnvelope,
        DispatcherOptions.invalidEnvelope] at hrecovery

theorem Orderly.settleSink (h : Orderly O s) {name : String} (hname : name ∈ O.sinks.map LogSink.name)
    (entry : QueuedRecord) (stamps : Stamps) (outcome : SinkOutcome) :
    Orderly O (s.settleSink O entry name stamps outcome) := by
  cases outcome with
  | written =>
    simp only [LogDispatcher.settleSink]
    split
    · exact h
    · refine Orderly.enqueueControl hone ?_ _ _ _ ?_
      · exact h.congr rfl rfl rfl
      · rintro sink ⟨⟩
        exact hname
  | failed =>
    simp only [LogDispatcher.settleSink]
    split
    · split
      · exact h.congr rfl rfl rfl
      · refine Orderly.enqueueControl hone ?_ _ _ _ (by simp)
        exact h.congr rfl rfl rfl
    · exact h

theorem Orderly.complete (h : Orderly O s) (entry : QueuedRecord) (stamps : Stamps) :
    Orderly O (s.complete O entry stamps) := by
  have hdelivering : Orderly O (s.delivering entry).checkWaiters := by
    refine ⟨fun _ => Or.inl (by simp [delivering, note, checkWaiters]), h.recoveries, ?_⟩
    intro other outstanding hunderWay
    cases hunderWay
  unfold LogDispatcher.complete
  simp only
  split
  · refine Orderly.takeNext (Orderly.enqueueControl hone ?_ _ _ _ (by simp))
    exact hdelivering.congr rfl rfl rfl
  · exact hdelivering.takeNext

omit hone in
theorem Orderly.flush (h : Orderly O s) : Orderly O s.flush := by
  have hflushing : Orderly O s.flushing := by
    refine Orderly.schedule ?_
    exact h.congr rfl rfl rfl
  unfold LogDispatcher.flush
  simp only
  split
  · exact hflushing.congr rfl rfl rfl
  · exact hflushing.congr rfl rfl rfl

theorem Orderly.step (h : Orderly O s) {event : Event} (hstep : s.step O event = some s') : Orderly O s' := by
  cases step_stepped hstep with
  | dispatched record => exact h.entering (by simp [isRecovery, nextEntry]) (enqueue_entering O record false s)
  | ignored | closedAgain => exact h
  | flushed => exact h.flush
  | closed =>
    refine Orderly.flush ?_
    exact h.congr rfl rfl rfl
  | begun =>
    refine ⟨fun _ => Or.inl (by simp), h.recoveries, ?_⟩
    intro other outstanding hunderWay
    cases hunderWay
  | skipped _ hbusy => exact ⟨fun _ => Or.inl hbusy, h.recoveries, h.named⟩
  | started => exact h.takeNext
  | settled sink outcome stamps entry outstanding name hunderWay hname =>
    have hmem : (sink, name) ∈ outstanding := by
      obtain ⟨before, after, rfl, -⟩ := List.lookup_eq_some_iff.1 hname
      simp
    have hnamed := h.named entry outstanding hunderWay
    refine Orderly.settleSink hone ?_ (hnamed _ hmem) _ _ _
    refine ⟨fun _ => Or.inl (by simp [note]), h.recoveries, ?_⟩
    intro other rest hother
    cases hother
    intro sink hsink
    exact hnamed sink (List.mem_of_mem_filter hsink)
  | resumed stamps entry => exact h.complete hone entry stamps
  | drained =>
    unfold drain
    split
    · refine Orderly.schedule ?_
      exact h.congr rfl rfl rfl
    · exact h.congr rfl rfl rfl

end Keeps

/-! ## Every step lowers the potential -/

theorem enqueueDropControl_potential_le (stamps : Stamps) (reference : LogEnvelopeV1)
    (hbusy : s.processing ≠ .idle) :
    potential O (s.enqueueDropControl O stamps reference) ≤ potential O s + 1 + controlWeight O := by
  have hsame : potential O { s with droppedSinceControl := 0 } = potential O s := rfl
  rw [← hsame]
  exact enqueueControl_potential_le _ stamps reference hbusy

theorem enqueueDropControl_processing (stamps : Stamps) (reference : LogEnvelopeV1) :
    (s.enqueueDropControl O stamps reference).processing = s.processing :=
  enqueue_processing _ _ _ _

theorem Orderly.enqueueDropControl (h : Orderly O s) (hone : AtMostOneTakes O) (stamps : Stamps)
    (reference : LogEnvelopeV1) : Orderly O (s.enqueueDropControl O stamps reference) := by
  refine Orderly.enqueueControl hone ?_ _ _ _ (by simp)
  exact h.congr rfl rfl rfl

theorem complete_potential (hone : AtMostOneTakes O) (h : Orderly O s)
    (hunderWay : s.processing = .delivering entry []) (stamps : Stamps) :
    potential O (s.complete O entry stamps) + 1 ≤ potential O s := by
  have hweight : potential O (s.delivering entry).checkWaiters +
      (if entry.control then 0 else 1 + controlWeight O) = potential O s := by
    rw [potential_checkWaiters, delivering, potential_note _ (by simp)]
    simp only [potential, hunderWay, flightWeight, unhealthy, controls, List.length_nil, Nat.zero_mul]
    split <;> omega
  have hdelivering : Orderly O (s.delivering entry).checkWaiters := by
    refine ⟨fun _ => Or.inl (by simp [delivering, note, checkWaiters]), h.recoveries, ?_⟩
    intro other outstanding hother
    cases hother
  unfold complete
  simp only
  split
  · next hdropped =>
    simp only [Bool.and_eq_true, Bool.not_eq_true'] at hdropped
    rw [if_neg (by simp [hdropped.1])] at hweight
    have hcontrol := enqueueDropControl_potential_le (O := O) (s := (s.delivering entry).checkWaiters) stamps
      entry.record (by simp [delivering, note, checkWaiters])
    have horderly := hdelivering.enqueueDropControl hone stamps entry.record
    have hstarting : ((s.delivering entry).checkWaiters.enqueueDropControl O stamps entry.record).processing =
        .starting := enqueueDropControl_processing _ _
    have htaken := takeNext_potential horderly.recoveries hstarting
    unfold delivering at htaken hcontrol hweight
    omega
  · have htaken := takeNext_potential hdelivering.recoveries rfl
    exact htaken.trans (by rw [← hweight]; exact Nat.le_add_right _ _)

theorem flush_potential (h : Orderly O s) : potential O s.flush = potential O s := by
  have hflushing : potential O s.flushing = potential O s := by
    have horderly : Orderly O ({ s with flushes := s.flushes + 1 }.note (.flushed s.flushes)) := h.congr rfl rfl rfl
    rw [flushing, horderly.schedule_eq, potential_note _ (by simp)]
    rfl
  unfold flush
  simp only
  split
  · exact hflushing
  · rw [potential_note _ (by simp)]
    exact hflushing

/-- Every step lowers the potential by its work, but for what a record that is dispatched brings. -/
theorem step_potential (hone : AtMostOneTakes O) (h : Orderly O s) {event : Event}
    (hstep : s.step O event = some s') :
    potential O s' + event.isWork.toNat ≤ potential O s + event.gain O := by
  cases step_stepped hstep with
  | dispatched record =>
    have henqueue := enqueue_potential_le (O := O) (s := s) record false
    have hweight : weight O (s.nextEntry record false) =
        2 + controlWeight O + O.sinks.length * (controlWeight O + 5) := by
      simp [weight, isRecovery, nextEntry]
    simp only [Event.isWork, Event.gain, Bool.toNat_false]
    simp only [Bool.toNat_false] at henqueue
    split at henqueue <;> omega
  | ignored => exact Nat.le_add_right _ _
  | closedAgain => exact Nat.le_refl _
  | flushed => exact (flush_potential h).le
  | closed =>
    have hclosing : Orderly O { s with closing := .flushing s.flushes } := h.congr rfl rfl rfl
    exact (flush_potential hclosing).le
  | begun hscheduled hidle =>
    simp only [potential, hscheduled, hidle, flightWeight, unhealthy, controls, Event.isWork, Event.gain,
      Bool.toNat_true, Bool.toNat_false]
    omega
  | skipped hscheduled =>
    simp only [potential, hscheduled, unhealthy, controls, Event.isWork, Event.gain, Bool.toNat_true,
      Bool.toNat_false]
    omega
  | started hstarting => exact takeNext_potential h.recoveries hstarting
  | settled sink outcome stamps entry outstanding name hunderWay hname =>
    obtain ⟨before, after, hsplit, -⟩ := List.lookup_eq_some_iff.1 hname
    have hnamed : name ∈ O.sinks.map LogSink.name :=
      h.named entry outstanding hunderWay (sink, name) (by rw [hsplit]; simp)
    have hsettled := settleSink_potential (O := O)
      (s := { s with processing := .delivering entry (outstanding.filter fun other => other.1 != sink) }.note
        (.settled entry.sequence sink outcome)) entry hnamed stamps outcome (by simp [note])
    have hshorter : (outstanding.filter fun other => other.1 != sink).length + 1 ≤ outstanding.length := by
      rw [hsplit, List.filter_append, List.filter_cons_of_neg (by simp), List.length_append, List.length_append,
        List.length_cons]
      have hbefore := List.length_filter_le (fun other : ℕ × String => other.1 != sink) before
      have hafter := List.length_filter_le (fun other : ℕ × String => other.1 != sink) after
      omega
    have hflight := Nat.mul_le_mul_right (writeWeight O entry) hshorter
    rw [Nat.add_mul, Nat.one_mul] at hflight
    rw [potential_note _ (by simp)] at hsettled
    have hrest : potential O { s with processing := .delivering entry (outstanding.filter fun other =>
        other.1 != sink) } + writeWeight O entry ≤ potential O s := by
      simp only [potential, hunderWay, flightWeight, unhealthy, controls]
      omega
    simp only [Event.isWork, Event.gain, Bool.toNat_true]
    omega
  | resumed stamps entry hunderWay => exact complete_potential hone h hunderWay stamps
  | drained =>
    unfold drain
    split
    · have hdraining : Orderly O { s with closing := .draining } := h.congr rfl rfl rfl
      rw [hdraining.schedule_eq]
      exact Nat.le_refl _
    · exact Nat.le_refl _

/-! ## Endless runs -/

/-- Only finitely many records are dispatched. -/
def FinitelyDispatched {O : DispatcherOptions} (r : Endless (LogDispatcher.step O) LogDispatcher.initial) : Prop :=
  ∃ N, ∀ n, N ≤ n → ∀ record, r.event n ≠ .dispatch record

theorem Orderly.initial (O : DispatcherOptions) : Orderly O LogDispatcher.initial where
  waiting := by simp [LogDispatcher.initial]
  recoveries := by simp [LogDispatcher.initial]
  named := by simp [LogDispatcher.initial]

section Bounded

variable {r : Endless (LogDispatcher.step O) LogDispatcher.initial}

theorem gain_eq_zero {N : ℕ} (hdispatched : ∀ n, N ≤ n → ∀ record, r.event n ≠ .dispatch record) :
    ∀ n, N ≤ n → (r.event n).gain O = 0 := by
  intro n hn
  have hnot := hdispatched n hn
  cases hevent : r.event n with
  | dispatch record => exact absurd hevent (hnot record)
  | _ => rfl

/-- The work of an event, wherever it happens. -/
def workOf (_ : LogDispatcher) (event : Event) : ℕ := event.isWork.toNat

theorem workOf_potential (hone : AtMostOneTakes O) (s : LogDispatcher) (event : Event) (s' : LogDispatcher)
    (h : Orderly O s) (hstep : s.step O event = some s') :
    potential O s' + workOf s event ≤ potential O s + event.gain O :=
  step_potential hone h hstep

theorem controls_le_potential (s : LogDispatcher) : controls s ≤ potential O s := by
  unfold potential
  omega

/-- While at most one sink takes the reports of recoveries, finitely many control records enter. -/
theorem controls_bounded (hone : AtMostOneTakes O) (hdispatched : FinitelyDispatched r) :
    ∃ bound, ∀ n, controls (r.state n) ≤ bound := by
  obtain ⟨N, hN⟩ := hdispatched
  refine ⟨potential O LogDispatcher.initial + ∑ k ∈ Finset.range N, (r.event k).gain O, ?_⟩
  intro n
  have hpotential := r.potential (fun s event s' h hstep => Orderly.step hone h hstep) (workOf_potential hone)
    (Orderly.initial O) n
  have hgain : ∑ k ∈ Finset.range n, (r.event k).gain O ≤ ∑ k ∈ Finset.range N, (r.event k).gain O := by
    refine Finset.sum_le_sum_of_ne_zero ?_
    intro k _ hk
    by_contra hlate
    rw [Finset.mem_range, not_lt] at hlate
    exact hk (gain_eq_zero hN k hlate)
  have hcontrols := controls_le_potential (O := O) (r.state n)
  omega

theorem work_ends (hone : AtMostOneTakes O) (hdispatched : FinitelyDispatched r) :
    ∃ N, ∀ n, N ≤ n → (r.event n).isWork = false := by
  obtain ⟨N, hN⟩ := hdispatched
  have hbounded := r.bounded (fun s event s' h hstep => Orderly.step hone h hstep) (workOf_potential hone)
    (Orderly.initial O) (gain_eq_zero hN)
  obtain ⟨M, hM⟩ := eventually_zero hbounded
  refine ⟨M, fun n hn => ?_⟩
  have hzero := hM n hn
  cases hwork : (r.event n).isWork
  · rfl
  · simp [workOf, hwork] at hzero

end Bounded

end LogDispatcher

end PlusOne
