import PlusOne.Logging.Closing

/-! # Two sinks that take turns

When two sinks take the reports of recoveries, each can fail on the report of the other: then every report
brings the next one, and a dispatcher never comes to rest. -/

namespace PlusOne

open Transitions

namespace LogDispatcher

open Happening

variable {O : DispatcherOptions} {s t : LogDispatcher} {record : LogEnvelopeV1} {entry : QueuedRecord}
  {outstanding : List (ℕ × String)} {queue : List QueuedRecord} {healthy : String → Bool}

/-! ## A delivery under way -/

/-- An entry is being delivered; nothing was dropped since the last control record. -/
structure Scene (s : LogDispatcher) (entry : QueuedRecord) (outstanding : List (ℕ × String))
    (queue : List QueuedRecord) (healthy : String → Bool) : Prop where
  processing : s.processing = .delivering entry outstanding
  queue : s.queue = queue
  healthy : s.sinkHealthy = healthy
  dropped : s.droppedSinceControl = 0
  closing : s.closing = .unclosed

/-- Work leads from one state to another. -/
def Works (O : DispatcherOptions) (s t : LogDispatcher) : Prop :=
  ∃ events, run (LogDispatcher.step O) s events = some t ∧ ∀ event ∈ events, event.isWork = true

theorem Works.refl (s : LogDispatcher) : Works O s s := ⟨[], rfl, by simp⟩

theorem Works.step {event : Event} (h : s.step O event = some t) (hwork : event.isWork = true) : Works O s t :=
  ⟨[event], run_singleton h, by simpa using hwork⟩

theorem Works.trans {u : LogDispatcher} (h : Works O s t) (h' : Works O t u) : Works O s u := by
  obtain ⟨events, hrun, hwork⟩ := h
  obtain ⟨events', hrun', hwork'⟩ := h'
  refine ⟨events ++ events', by rw [run_append hrun, hrun'], ?_⟩
  intro event hevent
  rcases List.mem_append.1 hevent with hfirst | hsecond
  · exact hwork event hfirst
  · exact hwork' event hsecond

variable {sink : ℕ × String}

theorem lookup_of_mem {sinks : List (ℕ × String)} (hnodup : (sinks.map Prod.fst).Nodup) (hsink : sink ∈ sinks) :
    sinks.lookup sink.1 = some sink.2 := by
  induction sinks with
  | nil => cases hsink
  | cons other sinks ih =>
    rw [List.map_cons, List.nodup_cons] at hnodup
    obtain ⟨place, name⟩ := other
    rcases List.mem_cons.1 hsink with rfl | hrest
    · exact List.lookup_cons_self
    · have hne : (sink.1 == place) = false := by
        rw [beq_eq_false_iff_ne]
        rintro rfl
        exact hnodup.1 (List.mem_map.2 ⟨sink, hrest, rfl⟩)
      rw [List.lookup_cons, hne]
      exact ih hnodup.2 hrest

/-- The state after the write to a sink has settled, before the dispatcher looks at its health. -/
def settling (sink : ℕ × String) (outcome : SinkOutcome) (entry : QueuedRecord) (outstanding : List (ℕ × String))
    (s : LogDispatcher) : LogDispatcher :=
  { s with processing := .delivering entry (outstanding.filter fun other => other.1 != sink.1) }.note
    (.settled entry.sequence sink.1 outcome)

theorem Scene.settle (h : Scene s entry outstanding queue healthy) (hnodup : (outstanding.map Prod.fst).Nodup)
    (hsink : sink ∈ outstanding) (outcome : SinkOutcome) (stamps : Stamps) :
    s.step O (.settle sink.1 outcome stamps) =
      some ((s.settling sink outcome entry outstanding).settleSink O entry sink.2 stamps outcome) := by
  simp [LogDispatcher.step, h.processing, lookup_of_mem hnodup hsink, settling]

theorem Scene.settling (h : Scene s entry outstanding queue healthy) (sink : ℕ × String) (outcome : SinkOutcome) :
    Scene (s.settling sink outcome entry outstanding) entry (outstanding.filter fun other => other.1 != sink.1)
      queue healthy :=
  ⟨rfl, h.queue, h.healthy, h.dropped, h.closing⟩

theorem controls_settling (sink : ℕ × String) (outcome : SinkOutcome) (entry : QueuedRecord)
    (outstanding : List (ℕ × String)) : controls (s.settling sink outcome entry outstanding) = controls s := by
  rw [controls, settling, enteredOf_note _ (by simp), controls]

/-- A write that goes as the last one to its sink did changes nothing else. -/
theorem Scene.steady (h : Scene s entry outstanding queue healthy) (hnodup : (outstanding.map Prod.fst).Nodup)
    (hsink : sink ∈ outstanding) (stamps : Stamps) : ∃ t, Works O s t ∧
      Scene t entry (outstanding.filter fun other => other.1 != sink.1) queue healthy ∧ controls t = controls s := by
  cases hhealthy : healthy sink.2 with
  | true =>
    have hstep := h.settle (O := O) hnodup hsink .written stamps
    refine ⟨_, Works.step hstep rfl, ?_⟩
    have hsame : (s.settling sink .written entry outstanding).settleSink O entry sink.2 stamps .written =
        s.settling sink .written entry outstanding := by
      simp [settleSink, LogDispatcher.settling, note, h.healthy, hhealthy]
    rw [hsame]
    exact ⟨h.settling sink .written, controls_settling sink .written entry outstanding⟩
  | false =>
    have hstep := h.settle (O := O) hnodup hsink .failed stamps
    refine ⟨_, Works.step hstep rfl, ?_⟩
    have hsame : (s.settling sink .failed entry outstanding).settleSink O entry sink.2 stamps .failed =
        s.settling sink .failed entry outstanding := by
      simp [settleSink, LogDispatcher.settling, note, h.healthy, hhealthy]
    rw [hsame]
    exact ⟨h.settling sink .failed, controls_settling sink .failed entry outstanding⟩

/-- All the writes that are left can go as the last ones to their sinks did. -/
theorem Scene.steady_all (h : Scene s entry outstanding queue healthy) (hnodup : (outstanding.map Prod.fst).Nodup)
    (stamps : Stamps) : ∃ t, Works O s t ∧ Scene t entry [] queue healthy ∧ controls t = controls s := by
  induction outstanding generalizing s with
  | nil => exact ⟨s, Works.refl s, h, rfl⟩
  | cons sink rest ih =>
    obtain ⟨next, hnext, hscene, hcontrols⟩ := h.steady (O := O) hnodup (by simp : sink ∈ sink :: rest) stamps
    rw [List.map_cons, List.nodup_cons] at hnodup
    have hrest : (sink :: rest).filter (fun other => other.1 != sink.1) = rest := by
      rw [List.filter_cons_of_neg (by simp), List.filter_eq_self]
      intro other hother
      have hne : other.1 ≠ sink.1 := by
        intro hsame
        rw [← hsame] at hnodup
        exact hnodup.1 (List.mem_map_of_mem hother)
      simpa using hne
    rw [hrest] at hscene
    obtain ⟨t, ht, hlast, hsame⟩ := ih hscene hnodup.2
    exact ⟨t, hnext.trans ht, hlast, hsame.trans hcontrols⟩

theorem enqueue_room {control : Bool} (hroom : s.queue.length < O.capacity + if control then 1 else 0) :
    s.enqueue O record control = (s.entering (s.nextEntry record control)).push (s.nextEntry record control) := by
  have hnot : ¬(s.entering (s.nextEntry record control)).queue.length ≥ O.capacity + if control then 1 else 0 := by
    simpa [entering, note] using hroom
  exact if_neg hnot

theorem Scene.enqueue (h : Scene s entry outstanding queue healthy) (record : LogEnvelopeV1) (control : Bool)
    (hroom : queue.length < O.capacity + if control then 1 else 0) :
    Scene (s.enqueue O record control) entry outstanding (queue ++ [s.nextEntry record control]) healthy := by
  rw [enqueue_room (by rw [h.queue]; exact hroom)]
  refine ⟨?_, ?_, ?_, ?_, ?_⟩
  · simpa [push, entering, note] using h.processing
  · simp [push, entering, note, h.queue]
  · simpa [push, entering, note] using h.healthy
  · have hdropped := h.dropped
    unfold push LogDispatcher.schedule
    split <;> simpa [entering, note] using hdropped
  · simpa [push, entering, note] using h.closing

/-- An unhealthy sink that is written to reports its recovery. -/
theorem Scene.recover (h : Scene s entry outstanding queue healthy) (hnodup : (outstanding.map Prod.fst).Nodup)
    (hsink : sink ∈ outstanding) (hunhealthy : healthy sink.2 = false) (hroom : queue.length < O.capacity + 1)
    (stamps : Stamps) : ∃ t sequence, Works O s t ∧
      Scene t entry (outstanding.filter fun other => other.1 != sink.1)
        (queue ++ [⟨sequence, O.buildLogEnvelope (.sinkRecovered sink.2) stamps entry.record.resource, true⟩])
        (Function.update healthy sink.2 true) ∧
      controls t = controls s + 1 := by
  have hstep := h.settle (O := O) hnodup hsink .written stamps
  have hscene := h.settling sink .written
  have hrecovering : (s.settling sink .written entry outstanding).settleSink O entry sink.2 stamps .written =
      { s.settling sink .written entry outstanding with
        sinkHealthy := Function.update healthy sink.2 true }.enqueue O
          (O.buildLogEnvelope (.sinkRecovered sink.2) stamps entry.record.resource) true := by
    simp [settleSink, LogDispatcher.settling, note, h.healthy, hunhealthy, enqueueControl]
  have hupdated : Scene { s.settling sink .written entry outstanding with
      sinkHealthy := Function.update healthy sink.2 true } entry (outstanding.filter fun other => other.1 != sink.1)
        queue (Function.update healthy sink.2 true) :=
    ⟨hscene.processing, hscene.queue, rfl, hscene.dropped, hscene.closing⟩
  rw [hrecovering] at hstep
  refine ⟨_, _, Works.step hstep rfl, hupdated.enqueue _ true hroom, ?_⟩
  rw [controls_entering (enqueue_entering O _ true _)]
  exact congrArg (· + 1) (controls_settling (s := s) sink .written entry outstanding)

/-- A healthy sink that fails on a control record becomes unhealthy, and that is all. -/
theorem Scene.fail (h : Scene s entry outstanding queue healthy) (hnodup : (outstanding.map Prod.fst).Nodup)
    (hsink : sink ∈ outstanding) (hcontrol : entry.control = true) (stamps : Stamps) :
    ∃ t, Works O s t ∧ Scene t entry (outstanding.filter fun other => other.1 != sink.1) queue
      (Function.update healthy sink.2 false) ∧ controls t = controls s := by
  cases hhealthy : healthy sink.2 with
  | false =>
    obtain ⟨t, ht, hscene, hcontrols⟩ := h.steady (O := O) hnodup hsink stamps
    refine ⟨t, ht, ?_, hcontrols⟩
    rw [← hhealthy, Function.update_eq_self]
    exact hscene
  | true =>
    have hstep := h.settle (O := O) hnodup hsink .failed stamps
    have hscene := h.settling sink .failed
    have hfailing : (s.settling sink .failed entry outstanding).settleSink O entry sink.2 stamps .failed =
        { s.settling sink .failed entry outstanding with
          sinkHealthy := Function.update healthy sink.2 false } := by
      simp [settleSink, LogDispatcher.settling, note, h.healthy, hhealthy, hcontrol]
    rw [hfailing] at hstep
    exact ⟨_, Works.step hstep rfl, ⟨hscene.processing, hscene.queue, rfl, hscene.dropped, hscene.closing⟩,
      controls_settling sink .failed entry outstanding⟩

/-- A healthy sink that fails on a record that was dispatched reports it. -/
theorem Scene.fail_first (h : Scene s entry outstanding queue healthy) (hnodup : (outstanding.map Prod.fst).Nodup)
    (hsink : sink ∈ outstanding) (hcontrol : entry.control = false) (hhealthy : healthy sink.2 = true)
    (hroom : queue.length < O.capacity + 1) (stamps : Stamps) :
    ∃ t failure, Works O s t ∧ failure.control = true ∧
      Scene t entry (outstanding.filter fun other => other.1 != sink.1) (queue ++ [failure])
        (Function.update healthy sink.2 false) := by
  have hstep := h.settle (O := O) hnodup hsink .failed stamps
  have hscene := h.settling sink .failed
  have hfailing : (s.settling sink .failed entry outstanding).settleSink O entry sink.2 stamps .failed =
      { s.settling sink .failed entry outstanding with
        sinkHealthy := Function.update healthy sink.2 false }.enqueue O
          (O.buildLogEnvelope (.sinkFailed sink.2) stamps entry.record.resource) true := by
    simp [settleSink, LogDispatcher.settling, note, h.healthy, hhealthy, hcontrol, enqueueControl]
  have hupdated : Scene { s.settling sink .failed entry outstanding with
      sinkHealthy := Function.update healthy sink.2 false } entry (outstanding.filter fun other => other.1 != sink.1)
        queue (Function.update healthy sink.2 false) :=
    ⟨hscene.processing, hscene.queue, rfl, hscene.dropped, hscene.closing⟩
  rw [hfailing] at hstep
  refine ⟨_, nextEntry _ _ true, Works.step hstep rfl, rfl, hupdated.enqueue _ true hroom⟩

/-- When all writes have settled the next entry is taken. -/
theorem Scene.resume {next : QueuedRecord} (h : Scene s entry [] (next :: queue) healthy) (stamps : Stamps) :
    ∃ t, Works O s t ∧ Scene t next (O.matching next.record) queue healthy ∧ controls t = controls s := by
  have hstep : s.step O (.resume stamps) = some (s.complete O entry stamps) := by
    simp [LogDispatcher.step, h.processing]
  have hcomplete : s.complete O entry stamps = (s.delivering entry).checkWaiters.takeNext O := by
    simp [complete, delivering, note, checkWaiters, h.dropped]
  have hqueue : (s.delivering entry).checkWaiters.queue = next :: queue := h.queue
  refine ⟨s.complete O entry stamps, Works.step hstep rfl, ?_, ?_⟩
  · rw [hcomplete]
    unfold takeNext
    rw [hqueue]
    exact ⟨rfl, rfl, h.healthy, h.dropped, h.closing⟩
  · rw [hcomplete, controls, enteredOf_takeNext, enteredOf_checkWaiters, delivering, enteredOf_note _ (by simp),
      controls]

/-! ## Taking turns -/

/-- A sink takes all reports of recoveries or none. -/
def RecoveriesAlike (O : DispatcherOptions) : Prop :=
  ∀ sink ∈ O.sinks, ∀ a ∈ O.sinks, ∀ b ∈ O.sinks, ∀ stamps stamps' resource resource',
    sink.accepts (recovered O a stamps resource) = sink.accepts (recovered O b stamps' resource')

theorem RecoveriesAlike.matching_eq (h : RecoveriesAlike O) {a b : LogSink} (ha : a ∈ O.sinks) (hb : b ∈ O.sinks)
    (stamps stamps' : Stamps) (resource resource' : List (String × String)) :
    O.matching (recovered O a stamps resource) = O.matching (recovered O b stamps' resource') := by
  unfold DispatcherOptions.matching
  congr 1
  refine List.filter_congr ?_
  intro sink hsink
  exact h sink.1 (List.fst_mem_of_mem_zipIdx hsink) a ha b hb stamps stamps' resource resource'

/-- A report of a recovery is being delivered to two sinks, of which the second is unhealthy, or will be when
the first one fails. -/
def Turn (O : DispatcherOptions) (s : LogDispatcher) : Prop :=
  ∃ entry healthy, Scene s entry (O.matching entry.record) [] healthy ∧ entry.control = true ∧
    (∃ sink ∈ O.sinks, ∃ stamps resource, entry.record = recovered O sink stamps resource) ∧
    ∃ a ∈ O.matching entry.record, ∃ b ∈ O.matching entry.record, a.1 ≠ b.1 ∧
      (healthy b.2 = false ∨ a.2 = b.2)

theorem nodup_filter (hnodup : (outstanding.map Prod.fst).Nodup) (place : ℕ) :
    ((outstanding.filter fun other => other.1 != place).map Prod.fst).Nodup :=
  hnodup.sublist (List.filter_sublist.map _)

variable {a b : ℕ × String}

theorem mem_filter_other (hb : b ∈ outstanding) (hne : a.1 ≠ b.1) :
    b ∈ outstanding.filter fun other => other.1 != a.1 := by
  refine List.mem_filter.2 ⟨hb, ?_⟩
  simpa using hne.symm

theorem Scene.to_report {sequence : ℕ} (h : Scene s entry outstanding [⟨sequence, record, true⟩] healthy)
    (hnodup : (outstanding.map Prod.fst).Nodup) (stamps : Stamps) :
    ∃ t, Works O s t ∧ Scene t ⟨sequence, record, true⟩ (O.matching record) [] healthy ∧ controls t = controls s := by
  obtain ⟨s₁, h₁, hscene₁, hcontrols₁⟩ := h.steady_all (O := O) hnodup stamps
  obtain ⟨s₂, h₂, hscene₂, hcontrols₂⟩ := hscene₁.resume (O := O) stamps
  exact ⟨s₂, h₁.trans h₂, hscene₂, hcontrols₂.trans hcontrols₁⟩

section Alike

variable (halike : RecoveriesAlike O)

include halike

theorem matching_report {sink : LogSink} (hsink : sink ∈ O.sinks) {stamps : Stamps}
    {resource : List (String × String)} (stamps' : Stamps) (resource' : List (String × String)) {b : ℕ × String}
    (hb : b ∈ O.matching (recovered O sink stamps resource)) :
    (∃ other ∈ O.sinks, O.buildLogEnvelope (.sinkRecovered b.2) stamps' resource' =
      recovered O other stamps' resource') ∧
    O.matching (O.buildLogEnvelope (.sinkRecovered b.2) stamps' resource') =
      O.matching (recovered O sink stamps resource) := by
  obtain ⟨other, hother, hname⟩ := List.mem_map.1 (matching_named hb)
  rw [← hname]
  exact ⟨⟨other, hother, rfl⟩, halike.matching_eq hother hsink _ _ _ _⟩

/-- The first sink fails and the second one recovers; then they change places. -/
theorem turn_returns (stamps : Stamps) :
    Returns (LogDispatcher.step O) (Turn O) (fun event => event.isWork = true) controls := by
  rintro s ⟨entry, healthy, hscene, hcontrol, ⟨sink, hsink, stamps', resource, hrecord⟩, a, ha, b, hb, hne, hhealth⟩
  have hnodup := nodup_matching O entry.record
  have hcapacity := O.capacity_pos
  obtain ⟨s₁, h₁, hscene₁, hcontrols₁⟩ := hscene.fail hnodup ha hcontrol stamps
  have hunhealthy : Function.update healthy a.2 false b.2 = false := by
    by_cases hsame : b.2 = a.2
    · rw [hsame, Function.update_self]
    · rw [Function.update_of_ne hsame]
      exact hhealth.resolve_right (Ne.symm hsame)
  obtain ⟨s₂, sequence, h₂, hscene₂, hcontrols₂⟩ := hscene₁.recover (O := O) (nodup_filter hnodup a.1)
    (mem_filter_other hb hne) hunhealthy (by simp) stamps
  obtain ⟨s₃, h₃, hscene₃, hcontrols₃⟩ := hscene₂.to_report (O := O)
    (nodup_filter (nodup_filter hnodup a.1) b.1) stamps
  obtain ⟨events, hrun, hwork⟩ := (h₁.trans h₂).trans h₃
  have hb' : b ∈ O.matching (recovered O sink stamps' resource) := by
    rw [← hrecord]
    exact hb
  obtain ⟨⟨other, hother, hreport⟩, hmatching⟩ := matching_report halike hsink stamps
    entry.record.resource hb'
  rw [← hrecord] at hmatching
  refine ⟨events, s₃, hrun, hwork, ⟨_, _, hscene₃, rfl, ⟨other, hother, stamps, _, hreport⟩, b, ?_, a, ?_, hne.symm,
    ?_⟩, by omega⟩
  · rw [hmatching]
    exact hb
  · rw [hmatching]
    exact ha
  · by_cases hsame : a.2 = b.2
    · exact Or.inr hsame.symm
    · left
      rw [Function.update_of_ne hsame, Function.update_self]

end Alike

/-- The state after the first record has entered. -/
def started (record : LogEnvelopeV1) : LogDispatcher :=
  { LogDispatcher.initial with
    queue := [⟨1, record, false⟩]
    pendingSequences := [1]
    sequence := 1
    scheduled := true
    history := [.entered ⟨1, record, false⟩] }

/-- The first record is offered to its sinks. -/
theorem scene_start (O : DispatcherOptions) (record : LogEnvelopeV1) : ∃ t, run (LogDispatcher.step O)
    LogDispatcher.initial [.dispatch record, .microtask, .started] = some t ∧
      Scene t ⟨1, record, false⟩ (O.matching record) [] (fun _ => true) := by
  have hroom : LogDispatcher.initial.queue.length < O.capacity + if false then 1 else 0 := O.capacity_pos
  have hentered : LogDispatcher.initial.enqueue O record false = started record := by
    rw [enqueue_room hroom]
    rfl
  have hdispatch : LogDispatcher.initial.step O (.dispatch record) = some (started record) := by
    rw [← hentered]
    rfl
  refine ⟨{ started record with scheduled := false, processing := .starting }.takeNext O, ?_, ?_⟩
  · rw [run, hdispatch]
    rfl
  · exact ⟨rfl, rfl, rfl, rfl, rfl⟩

theorem Scene.dispatch (h : Scene s entry outstanding [] healthy) (record : LogEnvelopeV1) : ∃ t sequence,
    s.step O (.dispatch record) = some t ∧ Scene t entry outstanding [⟨sequence, record, false⟩] healthy := by
  refine ⟨s.enqueue O record false, s.sequence + 1, ?_, h.enqueue record false O.capacity_pos⟩
  simp [LogDispatcher.step, h.closing]

/-- After two records two sinks are taking turns. -/
theorem exists_turn (halike : RecoveriesAlike O) {sink : LogSink} (hsink : sink ∈ O.sinks) (stamps : Stamps)
    (resource : List (String × String)) (ha : a ∈ O.matching (recovered O sink stamps resource))
    (hb : b ∈ O.matching (recovered O sink stamps resource)) (hne : a.1 ≠ b.1) :
    ∃ t, Reachable (LogDispatcher.step O) LogDispatcher.initial t ∧ Turn O t := by
  have hcapacity := O.capacity_pos
  have hnodup := nodup_matching O (recovered O sink stamps resource)
  -- the second sink fails on the first record, and everything else goes well
  obtain ⟨s₁, h₁, hscene₁⟩ := scene_start O (recovered O sink stamps resource)
  obtain ⟨s₂, failure, h₂, hfailure, hscene₂⟩ := hscene₁.fail_first hnodup hb rfl rfl (by simp) stamps
  obtain ⟨s₃, h₃, hscene₃, -⟩ := hscene₂.steady_all (O := O) (nodup_filter hnodup b.1) stamps
  obtain ⟨s₄, h₄, hscene₄, -⟩ := hscene₃.resume (O := O) stamps
  -- the second record is taken after the report of the failure
  obtain ⟨s₅, sequence, h₅, hscene₅⟩ := hscene₄.dispatch (O := O) (recovered O sink stamps resource)
  obtain ⟨s₆, h₆, hscene₆, -⟩ := hscene₅.steady_all (O := O) (nodup_matching O failure.record) stamps
  obtain ⟨s₇, h₇, hscene₇, -⟩ := hscene₆.resume (O := O) stamps
  obtain ⟨⟨other, hother, hreport⟩, hmatching⟩ := matching_report halike hsink stamps
    (recovered O sink stamps resource).resource hb
  have hreach₄ : Reachable (LogDispatcher.step O) LogDispatcher.initial s₄ := by
    obtain ⟨events, hrun, -⟩ := (h₂.trans h₃).trans h₄
    exact Reachable.trans ⟨_, h₁⟩ ⟨events, hrun⟩
  have hreach₇ : Reachable (LogDispatcher.step O) LogDispatcher.initial s₇ := by
    obtain ⟨events, hrun, -⟩ := h₆.trans h₇
    exact (hreach₄.next h₅).trans ⟨events, hrun⟩
  have hunhealthy : Function.update (fun _ : String => true) b.2 false b.2 = false := Function.update_self ..
  by_cases hsame : a.2 = b.2
  · obtain ⟨s₈, number, h₈, hscene₈, -⟩ := hscene₇.recover hnodup hb hunhealthy (by simp) stamps
    obtain ⟨s₉, h₉, hscene₉, -⟩ := hscene₈.to_report (O := O) (nodup_filter hnodup b.1) stamps
    obtain ⟨events, hrun, -⟩ := h₈.trans h₉
    refine ⟨s₉, hreach₇.trans ⟨events, hrun⟩, _, _, hscene₉, rfl, ⟨other, hother, stamps, _, hreport⟩, a, ?_, b, ?_,
      hne, Or.inr hsame⟩
    · rw [hmatching]
      exact ha
    · rw [hmatching]
      exact hb
  · have hhealthy : Function.update (fun _ : String => true) b.2 false a.2 = true := by
      rw [Function.update_of_ne hsame]
    obtain ⟨s₈, failure', h₈, hfailure', hscene₈⟩ := hscene₇.fail_first hnodup ha rfl hhealthy (by simp) stamps
    have hunhealthy' : Function.update (Function.update (fun _ : String => true) b.2 false) a.2 false b.2 =
        false := by
      rw [Function.update_of_ne (Ne.symm hsame), hunhealthy]
    obtain ⟨s₉, number, h₉, hscene₉, -⟩ := hscene₈.recover (O := O) (nodup_filter hnodup a.1)
      (mem_filter_other hb hne) hunhealthy' (by simp; omega) stamps
    obtain ⟨s₁₀, h₁₀, hscene₁₀, -⟩ := hscene₉.steady_all (O := O) (nodup_filter (nodup_filter hnodup a.1) b.1) stamps
    obtain ⟨s₁₁, h₁₁, hscene₁₁, -⟩ := hscene₁₀.resume (O := O) stamps
    obtain ⟨s₁₂, h₁₂, hscene₁₂, -⟩ := hscene₁₁.to_report (O := O) (nodup_matching O failure'.record) stamps
    obtain ⟨events, hrun, -⟩ := (((h₈.trans h₉).trans h₁₀).trans h₁₁).trans h₁₂
    refine ⟨s₁₂, hreach₇.trans ⟨events, hrun⟩, _, _, hscene₁₂, rfl, ⟨other, hother, stamps, _, hreport⟩, b, ?_, a, ?_,
      hne.symm, Or.inl ?_⟩
    · rw [hmatching]
      exact hb
    · rw [hmatching]
      exact ha
    · rw [Function.update_of_ne hsame, Function.update_self]

/-- The dispatcher never comes to rest when two sinks take the reports. -/
theorem not_closesFinitely (halike : RecoveriesAlike O) {sink : LogSink} (hsink : sink ∈ O.sinks) (stamps : Stamps)
    (resource : List (String × String)) (ha : a ∈ O.matching (recovered O sink stamps resource))
    (hb : b ∈ O.matching (recovered O sink stamps resource)) (hne : a.1 ≠ b.1) : ¬ClosesFinitely O := by
  obtain ⟨t, ⟨events, hrun⟩, hturn⟩ := exists_turn halike hsink stamps resource ha hb hne
  obtain ⟨r, hwork, hreturns, hgrows⟩ := (turn_returns halike stamps).exists_endless hturn
  obtain ⟨r', hafter⟩ := r.exists_after hrun
  have hworks : ∀ n, ∃ m, n ≤ m ∧ (r'.event m).isWork = true := by
    intro n
    refine ⟨n + events.length, Nat.le_add_right _ _, ?_⟩
    rw [(hafter n).2]
    exact hwork n
  have hunclosed : ∀ n, (r'.state n).closing = .unclosed := by
    intro n
    by_contra hclosing
    have hlater : ∀ m, n ≤ m → (r'.state m).closing ≠ .unclosed := by
      intro m hm
      induction m, hm using Nat.le_induction with
      | base => exact hclosing
      | succ m _ ih => exact step_closing (r'.steps m) ih
    obtain ⟨m, hm, entry, healthy, hscene, -⟩ := hreturns n
    have hstate := (hafter m).1
    refine hlater (m + events.length) (hm.trans (Nat.le_add_right _ _)) ?_
    rw [hstate]
    exact hscene.closing
  have hfair : Fair r' := by
    refine ⟨fun n _ => hworks n, ?_⟩
    intro n hdrain
    simp [LogDispatcher.step, hunclosed n] at hdrain
  have hdispatched : FinitelyDispatched r' := by
    refine ⟨events.length, ?_⟩
    intro n hn record hevent
    obtain ⟨k, rfl⟩ := Nat.exists_eq_add_of_le' hn
    rw [(hafter k).2] at hevent
    have hk := hwork k
    rw [hevent] at hk
    cases hk
  intro hcloses
  obtain ⟨⟨bound, hbound⟩, -⟩ := hcloses r' hfair hdispatched
  obtain ⟨n, hn⟩ := hgrows (bound + 1)
  have hle := hbound (n + events.length)
  rw [(hafter n).1] at hle
  omega

/-- Sinks that take all reports or none can be closed only when at most one takes them. -/
theorem one_of_closesFinitely (halike : RecoveriesAlike O) (hcloses : ClosesFinitely O) : AtMostOneTakes O := by
  intro sink hsink stamps resource
  by_contra hlength
  rw [not_le] at hlength
  cases hmatching : O.matching (recovered O sink stamps resource) with
  | nil => simp [hmatching] at hlength
  | cons a rest =>
    cases rest with
    | nil => simp [hmatching] at hlength
    | cons b rest =>
      have hnodup := nodup_matching O (recovered O sink stamps resource)
      rw [hmatching] at hnodup
      have hne : a.1 ≠ b.1 := by
        intro hsame
        simp [hsame] at hnodup
      exact not_closesFinitely halike hsink stamps resource (by rw [hmatching]; simp) (by rw [hmatching]; simp) hne
        hcloses

end LogDispatcher

open LogDispatcher in
/-- A dispatcher can be closed when at most one of its sinks takes the reports of recoveries; and only then,
when its sinks take all such reports or none. -/
theorem closesFinitely_iff (O : DispatcherOptions) :
    (AtMostOneTakes O → ClosesFinitely O) ∧ (RecoveriesAlike O → ClosesFinitely O → AtMostOneTakes O) :=
  ⟨closesFinitely_of_one, one_of_closesFinitely⟩

open TestLogging LogDispatcher in
/-- A dispatcher with one sink can be closed. -/
theorem closesFinitely_oneSink : ClosesFinitely oneSink := by
  refine (closesFinitely_iff oneSink).1 ?_
  intro sink _ stamps resource
  exact length_matching_le oneSink _

/-! ## The sinks of the application -/

inductive LoggingMode
  | cli | gateway | launcher

/-- The severities that go to the log of errors. -/
def isError (record : LogEnvelopeV1) : Bool :=
  decide (LogSeverityText.warn.order ≤ record.severityText.order)

def isGateway (record : LogEnvelopeV1) : Bool :=
  "gateway.".toList.isPrefixOf record.instrumentationScope.toList || record.instrumentationScope == "engine.gateway"

def defaultSinks (mode : LoggingMode) (stdoutEnabled : Bool) : List LogSink :=
  match mode with
  | .launcher => [⟨"launcher", fun record => .ok (record.instrumentationScope == "engine.gateway.launcher")⟩]
  | .cli => [⟨"agent", fun _ => .ok true⟩, ⟨"errors", fun record => .ok (isError record)⟩]
  | .gateway => [⟨"agent", fun _ => .ok true⟩, ⟨"errors", fun record => .ok (isError record)⟩,
      ⟨"gateway", fun record => .ok (isGateway record)⟩] ++
        if stdoutEnabled then [⟨"stdout", fun _ => .ok true⟩] else []

/-- The dispatcher that `configureLogging` makes when it is given no sinks. -/
def applicationDispatcher (mode : LoggingMode) (stdoutEnabled : Bool) (O : DispatcherOptions) : DispatcherOptions :=
  { O with sinks := defaultSinks mode stdoutEnabled }

section Application

variable (mode : LoggingMode) (stdoutEnabled : Bool) (O : DispatcherOptions)

theorem application_alike : LogDispatcher.RecoveriesAlike (applicationDispatcher mode stdoutEnabled O) := by
  intro sink hsink a _ b _ stamps stamps' resource resource'
  have hsink : sink ∈ defaultSinks mode stdoutEnabled := hsink
  have hreads : ∀ record other : LogEnvelopeV1, record.severityText = other.severityText →
      record.instrumentationScope = other.instrumentationScope → sink.accepts record = sink.accepts other := by
    intro record other hseverity hscope
    cases mode <;> cases stdoutEnabled <;> simp [defaultSinks] at hsink <;>
      rcases hsink with rfl | rfl | rfl | rfl <;> simp [LogSink.accepts, isError, isGateway, hseverity, hscope]
  exact hreads _ _ rfl rfl

/-- The report of a recovery goes to the log of the agent, and to the standard output. -/
theorem application_takes_iff : LogDispatcher.AtMostOneTakes (applicationDispatcher mode stdoutEnabled O) ↔
    ¬(mode = .gateway ∧ stdoutEnabled = true) := by
  have hlength : ∀ sink stamps resource, ((applicationDispatcher mode stdoutEnabled O).matching
      (LogDispatcher.recovered (applicationDispatcher mode stdoutEnabled O) sink stamps resource)).length =
        match mode with
        | .launcher => 0
        | .cli => 1
        | .gateway => if stdoutEnabled then 2 else 1 := by
    intro sink stamps resource
    have hgateway : isGateway (LogDispatcher.recovered (applicationDispatcher mode stdoutEnabled O) sink stamps
        resource) = false := by
      change ("gateway.".toList.isPrefixOf "runtime.logging".toList || "runtime.logging" == "engine.gateway") = false
      decide +kernel
    have hlauncher : (LogDispatcher.recovered (applicationDispatcher mode stdoutEnabled O) sink stamps
        resource).instrumentationScope ≠ "engine.gateway.launcher" := by
      change "runtime.logging" ≠ "engine.gateway.launcher"
      decide
    have herror : isError (LogDispatcher.recovered (applicationDispatcher mode stdoutEnabled O) sink stamps
        resource) = false := rfl
    generalize LogDispatcher.recovered (applicationDispatcher mode stdoutEnabled O) sink stamps resource = record at *
    cases mode <;> cases stdoutEnabled <;>
      simp [DispatcherOptions.matching, applicationDispatcher, defaultSinks, LogSink.accepts, List.zipIdx_cons,
        herror, hgateway, hlauncher]
  constructor
  · rintro hone ⟨rfl, rfl⟩
    have hle := hone ⟨"agent", fun _ => .ok true⟩ List.mem_cons_self ⟨"", ""⟩ []
    rw [hlength] at hle
    simp at hle
  · intro hnot sink _ stamps resource
    rw [hlength]
    cases mode <;> cases stdoutEnabled <;> simp_all

theorem application_closesFinitely_iff :
    LogDispatcher.ClosesFinitely (applicationDispatcher mode stdoutEnabled O) ↔
      ¬(mode = .gateway ∧ stdoutEnabled = true) := by
  rw [← application_takes_iff mode stdoutEnabled O]
  constructor
  · exact LogDispatcher.one_of_closesFinitely (application_alike mode stdoutEnabled O)
  · exact LogDispatcher.closesFinitely_of_one

end Application

open TestLogging in
/-- A gateway that writes to the standard output has a run in which control records enter without end. -/
theorem gateway_never_closes : ¬LogDispatcher.ClosesFinitely (applicationDispatcher .gateway true oneSink) := by
  intro hcloses
  have hone := LogDispatcher.one_of_closesFinitely (application_alike .gateway true oneSink) hcloses
  rw [application_takes_iff] at hone
  exact hone ⟨rfl, rfl⟩

end PlusOne
