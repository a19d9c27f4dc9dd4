import PlusOne.Logging.ControlRecords

/-! # Closing a dispatcher

`close` waits until nothing is left to do. It does so in vain when two sinks take the records that report
recoveries and take turns at failing. -/

namespace PlusOne

open Transitions

namespace LogDispatcher

open Happening

variable {O : DispatcherOptions} {s s' : LogDispatcher} {record : LogEnvelopeV1} {control : Bool}
  {entry : QueuedRecord}

/-- The dispatcher gets on as long as it is busy, since every write settles; and the loop of `close` goes on
as long as it can. -/
structure Fair {O : DispatcherOptions} (r : Endless (LogDispatcher.step O) LogDispatcher.initial) : Prop where
  works : ∀ n, (r.state n).processing ≠ .idle ∨ (r.state n).scheduled = true →
    ∃ m, n ≤ m ∧ (r.event m).isWork = true
  drains : ∀ n, ((r.state n).step O .drain).isSome = true → ∃ m, n ≤ m ∧ r.event m = .drain

/-- In every fair run with finitely many records only finitely many control records enter, and the loop of
`close` ends. -/
def ClosesFinitely (O : DispatcherOptions) : Prop :=
  ∀ r : Endless (LogDispatcher.step O) LogDispatcher.initial, Fair r → FinitelyDispatched r →
    (∃ bound, ∀ n, controls (r.state n) ≤ bound) ∧
    ∀ n, (r.state n).closing ≠ .unclosed → ∃ m, n ≤ m ∧ (r.state m).closing = .drained

/-! ## A dispatcher at rest -/

/-- Only what waits or is under way is pending, and nobody waits for a dispatcher that is at rest. -/
structure Rests (s : LogDispatcher) : Prop where
  pending : ∀ sequence ∈ s.pendingSequences, (∃ entry ∈ s.queue, entry.sequence = sequence) ∨
    ∃ entry outstanding, s.processing = .delivering entry outstanding ∧ entry.sequence = sequence
  waiters : s.processing = .idle → s.queue = [] → s.waiters = []

theorem Rests.initial : Rests LogDispatcher.initial where
  pending := by simp [LogDispatcher.initial]
  waiters := by simp [LogDispatcher.initial]

theorem Rests.congr (h : Rests s) (hpending : s'.pendingSequences = s.pendingSequences) (hqueue : s'.queue = s.queue)
    (hprocessing : s'.processing = s.processing) (hwaiters : s'.waiters = s.waiters) : Rests s' where
  pending := by rw [hpending, hqueue, hprocessing]; exact h.pending
  waiters := by rw [hqueue, hprocessing, hwaiters]; exact h.waiters

theorem Rests.schedule (h : Rests s) : Rests s.schedule :=
  h.congr schedule_pendingSequences schedule_queue schedule_processing schedule_waiters

theorem Rests.checkWaiters (h : Rests s) : Rests s.checkWaiters where
  pending := h.pending
  waiters := by
    intro hidle hqueue
    simp [LogDispatcher.checkWaiters, h.waiters hidle hqueue]

theorem Rests.entering (h : Rests s) (hentering : Entering O s entry s') : Rests s' := by
  cases hentering with
  | pushed =>
    refine Rests.schedule ⟨?_, fun _ hqueue => absurd hqueue (by simp)⟩
    intro sequence hsequence
    rcases List.mem_append.1 hsequence with hold | hnew
    · rcases h.pending sequence hold with ⟨other, hother, hsame⟩ | hflight
      · exact Or.inl ⟨other, List.mem_append_left _ hother, hsame⟩
      · exact Or.inr hflight
    · exact Or.inl ⟨entry, by simp, (List.mem_singleton.1 hnew).symm⟩
  | withheld => exact Rests.checkWaiters (h.congr rfl rfl rfl rfl)
  | refused => exact Rests.checkWaiters (h.congr rfl rfl rfl rfl)
  | displaced before evicted after hqueue =>
    refine Rests.schedule ⟨?_, fun _ hempty => absurd hempty (by simp)⟩
    intro sequence hsequence
    rcases List.mem_append.1 hsequence with hold | hnew
    · have hold : sequence ∈ s.pendingSequences ∧ sequence ≠ evicted.sequence := by
        simpa [noteDrop, note] using hold
      rcases h.pending sequence hold.1 with ⟨other, hother, hsame⟩ | hflight
      · left
        refine ⟨other, List.mem_append_left _ ?_, hsame⟩
        rw [hqueue, List.mem_append, List.mem_cons] at hother
        rcases hother with hbefore | rfl | hafter
        · exact List.mem_append_left _ hbefore
        · exact absurd hsame.symm hold.2
        · exact List.mem_append_right _ hafter
      · exact Or.inr hflight
    · exact Or.inl ⟨entry, by simp, (List.mem_singleton.1 hnew).symm⟩

theorem Rests.takeNext (h : Rests s) (hstarting : s.processing = .starting) : Rests (s.takeNext O) := by
  have hwaiting : ∀ sequence ∈ s.pendingSequences, ∃ entry ∈ s.queue, entry.sequence = sequence := by
    intro sequence hsequence
    rcases h.pending sequence hsequence with hwaiting | ⟨entry, outstanding, hunderWay, -⟩
    · exact hwaiting
    · rw [hstarting] at hunderWay
      cases hunderWay
  unfold LogDispatcher.takeNext
  split
  · next hqueue =>
    rw [hqueue] at hwaiting
    have hnone : s.pendingSequences = [] := by
      refine List.eq_nil_iff_forall_not_mem.2 ?_
      intro sequence hsequence
      obtain ⟨entry, hentry, -⟩ := hwaiting sequence hsequence
      cases hentry
    refine ⟨?_, ?_⟩
    · simp [LogDispatcher.checkWaiters, hnone]
    · simp [LogDispatcher.checkWaiters, hasPendingAtOrBelow, hnone]
  · next entry rest hqueue =>
    refine ⟨?_, fun hidle => by cases hidle⟩
    intro sequence hsequence
    obtain ⟨other, hother, hsame⟩ := hwaiting sequence hsequence
    rw [hqueue, List.mem_cons] at hother
    rcases hother with rfl | hrest
    · exact Or.inr ⟨other, _, rfl, hsame⟩
    · exact Or.inl ⟨other, hrest, hsame⟩

theorem Rests.settleSink (h : Rests s) (entry : QueuedRecord) (sink : String) (stamps : Stamps)
    (outcome : SinkOutcome) : Rests (s.settleSink O entry sink stamps outcome) := by
  cases outcome with
  | written =>
    simp only [LogDispatcher.settleSink]
    split
    · exact h
    · refine Rests.entering ?_ (enqueue_entering O _ true _)
      exact h.congr rfl rfl rfl rfl
  | failed =>
    simp only [LogDispatcher.settleSink]
    split
    · split
      · exact h.congr rfl rfl rfl rfl
      · refine Rests.entering ?_ (enqueue_entering O _ true _)
        exact h.congr rfl rfl rfl rfl
    · exact h

theorem Rests.complete (h : Rests s) (hunderWay : s.processing = .delivering entry []) (stamps : Stamps) :
    Rests (s.complete O entry stamps) := by
  have hdelivering : Rests (s.delivering entry).checkWaiters := by
    refine Rests.checkWaiters ⟨?_, fun hidle => by cases hidle⟩
    intro sequence hsequence
    have hsequence : sequence ∈ s.pendingSequences ∧ sequence ≠ entry.sequence := by
      simpa [delivering, note] using hsequence
    rcases h.pending sequence hsequence.1 with hwaiting | ⟨other, outstanding, hother, hsame⟩
    · exact Or.inl hwaiting
    · rw [hunderWay] at hother
      cases hother
      exact absurd hsame.symm hsequence.2
  unfold LogDispatcher.complete
  simp only
  split
  · refine Rests.takeNext (Rests.entering ?_ (enqueue_entering O _ true _)) ?_
    · exact hdelivering.congr rfl rfl rfl rfl
    · exact enqueueDropControl_processing _ _
  · exact hdelivering.takeNext rfl

theorem Rests.flush (h : Rests s) : Rests s.flush := by
  have hflushing : Rests s.flushing := by
    refine Rests.schedule ?_
    exact h.congr rfl rfl rfl rfl
  have hflush : s.flush = if s.flushing.hasPendingAtOrBelow s.sequence then
      { s.flushing with waiters := s.flushing.waiters ++ [⟨s.flushes, s.sequence⟩] }
      else s.flushing.note (.resolved s.flushes) := rfl
  rw [hflush]
  split
  · next hpending =>
    refine ⟨hflushing.pending, ?_⟩
    intro hidle hqueue
    simp only [hasPendingAtOrBelow, List.any_eq_true] at hpending
    obtain ⟨sequence, hsequence, -⟩ := hpending
    rcases hflushing.pending sequence hsequence with ⟨entry, hentry, -⟩ | ⟨entry, outstanding, hunderWay, -⟩
    · have hempty : s.flushing.queue = [] := hqueue
      rw [hempty] at hentry
      cases hentry
    · have hidle : s.flushing.processing = .idle := hidle
      rw [hidle] at hunderWay
      cases hunderWay
  · exact hflushing.congr rfl rfl rfl rfl

theorem Rests.step (h : Rests s) {event : Event} (hstep : s.step O event = some s') : Rests s' := by
  cases step_stepped hstep with
  | dispatched record => exact h.entering (enqueue_entering O record false s)
  | ignored | closedAgain => exact h
  | flushed => exact h.flush
  | closed =>
    refine Rests.flush ?_
    exact h.congr rfl rfl rfl rfl
  | begun _ hidle =>
    refine ⟨?_, fun hidle => by cases hidle⟩
    intro sequence hsequence
    rcases h.pending sequence hsequence with hwaiting | ⟨entry, outstanding, hunderWay, -⟩
    · exact Or.inl hwaiting
    · rw [hidle] at hunderWay
      cases hunderWay
  | skipped => exact h.congr rfl rfl rfl rfl
  | started hstarting => exact h.takeNext hstarting
  | settled sink outcome stamps entry outstanding name hunderWay =>
    refine Rests.settleSink ⟨?_, fun hidle => by cases hidle⟩ _ _ _ _
    intro sequence hsequence
    rcases h.pending sequence hsequence with hwaiting | ⟨other, rest, hother, hsame⟩
    · exact Or.inl hwaiting
    · rw [hunderWay] at hother
      cases hother
      exact Or.inr ⟨entry, _, rfl, hsame⟩
  | resumed stamps entry hunderWay => exact h.complete hunderWay stamps
  | drained =>
    unfold drain
    split
    · refine Rests.schedule ?_
      exact h.congr rfl rfl rfl rfl
    · exact h.congr rfl rfl rfl rfl

/-- A dispatcher that is being closed stays so. -/
theorem step_closing {event : Event} (hstep : s.step O event = some s') (hclosing : s.closing ≠ .unclosed) :
    s'.closing ≠ .unclosed := by
  cases step_stepped hstep with
  | dispatched record hunclosed => exact absurd hunclosed hclosing
  | closed hunclosed => exact absurd hunclosed hclosing
  | ignored | closedAgain => exact hclosing
  | flushed =>
    rw [flush_closing]
    exact hclosing
  | begun | skipped => exact hclosing
  | started =>
    rw [takeNext_closing]
    exact hclosing
  | settled =>
    rw [settleSink_closing]
    exact hclosing
  | resumed =>
    rw [complete_closing]
    exact hclosing
  | drained => exact drain_closing

theorem drain_at_rest (h : Rests s) (hidle : s.processing = .idle) (hscheduled : s.scheduled = false)
    (hqueue : s.queue = []) (hclosing : s.closing ≠ .unclosed) (hdrained : s.closing ≠ .drained) :
    ∃ s', s.step O .drain = some s' ∧ s'.closing = .drained := by
  have hwaiters := h.waiters hidle hqueue
  have hdrain : s.drain.closing = .drained := by simp [drain, hidle, hscheduled, hqueue]
  cases hphase : s.closing with
  | unclosed => exact absurd hphase hclosing
  | drained => exact absurd hphase hdrained
  | flushing waiter => exact ⟨s.drain, by simp [LogDispatcher.step, hphase, hwaiters], hdrain⟩
  | draining => exact ⟨s.drain, by simp [LogDispatcher.step, hphase], hdrain⟩

theorem closesFinitely_of_one (hone : AtMostOneTakes O) : ClosesFinitely O := by
  intro r hfair hdispatched
  refine ⟨controls_bounded hone hdispatched, ?_⟩
  intro n hn
  obtain ⟨N, hN⟩ := work_ends hone hdispatched
  have hlater : ∀ m, n ≤ m → (r.state m).closing ≠ .unclosed := by
    intro m hm
    induction m, hm using Nat.le_induction with
    | base => exact hn
    | succ m _ ih => exact step_closing (r.steps m) ih
  -- from `N` on the dispatcher is at rest
  have hrest : ∀ m, N ≤ m → (r.state m).processing = .idle ∧ (r.state m).scheduled = false ∧
      (r.state m).queue = [] := by
    intro m hm
    have hquiet : ¬((r.state m).processing ≠ .idle ∨ (r.state m).scheduled = true) := by
      intro hbusy
      obtain ⟨k, hk, hwork⟩ := hfair.works m hbusy
      rw [hN k (hm.trans hk)] at hwork
      cases hwork
    simp only [not_or, not_not, Bool.not_eq_true] at hquiet
    refine ⟨hquiet.1, hquiet.2, ?_⟩
    by_contra hqueue
    have horderly := (r.reachable m).invariant (fun s event s' h hstep => Orderly.step hone h hstep)
      (Orderly.initial O)
    rcases horderly.waiting hqueue with hbusy | hscheduled
    · exact hbusy hquiet.1
    · rw [hquiet.2] at hscheduled
      cases hscheduled
  by_cases hdrained : (r.state (max n N)).closing = .drained
  · exact ⟨max n N, le_max_left _ _, hdrained⟩
  · have hrests : ∀ m, Rests (r.state m) := fun m =>
      (r.reachable m).invariant (fun s event s' h hstep => h.step hstep) Rests.initial
    obtain ⟨hidle, hscheduled, hqueue⟩ := hrest _ (le_max_right n N)
    obtain ⟨next, hnext, -⟩ := drain_at_rest (O := O) (hrests _) hidle hscheduled hqueue
      (hlater _ (le_max_left n N)) hdrained
    obtain ⟨m, hm, hevent⟩ := hfair.drains _ (by rw [hnext]; rfl)
    have hnm : n ≤ m := (le_max_left n N).trans hm
    have hNm : N ≤ m := (le_max_right n N).trans hm
    by_cases hdone : (r.state m).closing = .drained
    · exact ⟨m, hnm, hdone⟩
    · obtain ⟨hidle, hscheduled, hqueue⟩ := hrest m hNm
      obtain ⟨last, hlast, hclosed⟩ := drain_at_rest (O := O) (hrests m) hidle hscheduled hqueue (hlater m hnm) hdone
      have hsteps := r.steps m
      rw [hevent, hlast] at hsteps
      cases hsteps
      exact ⟨m + 1, hnm.trans (Nat.le_succ _), hclosed⟩

end LogDispatcher

end PlusOne
