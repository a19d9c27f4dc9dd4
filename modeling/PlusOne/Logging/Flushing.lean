import PlusOne.Logging.Accounting

/-! # What a flush waits for

A flush is resolved only when nothing is pending that entered before it, and what is not pending any more
has been delivered or dropped. -/

namespace PlusOne

open Transitions

namespace LogDispatcher

open Happening

variable {O : DispatcherOptions} {s s' : LogDispatcher} {record : LogEnvelopeV1} {control : Bool}
  {entry : QueuedRecord} {history : List Happening} {happening : Happening} {id : ℕ}

/-! ## Records that are done with -/

/-- The record has been dropped, or its writes to all matching sinks have settled. -/
def Done (O : DispatcherOptions) (history : List Happening) (entry : QueuedRecord) : Prop :=
  (∃ displacedBy, .dropped entry displacedBy ∈ history) ∨
    .delivered entry ∈ history ∧ ∀ sink ∈ O.matching entry.record,
      ∃ outcome, .settled entry.sequence sink.1 outcome ∈ history

theorem Done.append (h : Done O history entry) (later : List Happening) : Done O (history ++ later) entry := by
  rcases h with ⟨displacedBy, hdropped⟩ | ⟨hdelivered, hsettled⟩
  · exact Or.inl ⟨displacedBy, List.mem_append_left _ hdropped⟩
  · refine Or.inr ⟨List.mem_append_left _ hdelivered, ?_⟩
    intro sink hsink
    obtain ⟨outcome, houtcome⟩ := hsettled sink hsink
    exact ⟨outcome, List.mem_append_left _ houtcome⟩

/-- Every record that entered before the flush is done with. -/
def FlushDone (O : DispatcherOptions) (history : List Happening) (id : ℕ) : Prop :=
  ∀ earlier, earlier ++ [.flushed id] <+: history → ∀ entry, .entered entry ∈ earlier → entry.control = false →
    Done O history entry

/-- Whenever a flush was resolved, every record that had entered before the flush was done with. -/
def FlushesHonest (O : DispatcherOptions) (history : List Happening) : Prop :=
  ∀ earlier id, earlier ++ [.resolved id] <+: history → FlushDone O earlier id

theorem prefix_note {earlier : List Happening} {last : Happening} (hne : happening ≠ last) :
    earlier ++ [last] <+: history ++ [happening] ↔ earlier ++ [last] <+: history := by
  rw [List.prefix_concat_iff]
  constructor
  · rintro (heq | hprefix)
    · have hlast := (List.append_inj' heq rfl).2
      simp only [List.cons.injEq, and_true] at hlast
      exact absurd hlast.symm hne
    · exact hprefix
  · exact Or.inr

theorem prefix_append {earlier later : List Happening} {last : Happening} (hnot : last ∉ later) :
    earlier ++ [last] <+: history ++ later ↔ earlier ++ [last] <+: history := by
  induction later generalizing history with
  | nil => simp
  | cons happening later ih =>
    simp only [List.mem_cons, not_or] at hnot
    have hrest := @ih (history ++ [happening]) hnot.2
    rw [List.append_assoc, List.singleton_append] at hrest
    rw [hrest, prefix_note (Ne.symm hnot.1)]

theorem FlushesHonest.append (h : FlushesHonest O history) {later : List Happening}
    (hnot : ∀ id, .resolved id ∉ later) : FlushesHonest O (history ++ later) := by
  intro earlier id hprefix
  exact h earlier id ((prefix_append (hnot id)).1 hprefix)

theorem FlushesHonest.resolved (h : FlushesHonest O history) (hdone : FlushDone O history id) :
    FlushesHonest O (history ++ [.resolved id]) := by
  intro earlier other hprefix
  rcases List.prefix_concat_iff.1 hprefix with heq | hold
  · obtain ⟨rfl, hlast⟩ := List.append_inj' heq rfl
    simp only [List.cons.injEq, Happening.resolved.injEq, and_true] at hlast
    rw [hlast]
    exact hdone
  · exact h earlier other hold

theorem FlushDone.note (h : FlushDone O history id) (hne : happening ≠ .flushed id) :
    FlushDone O (history ++ [happening]) id := by
  intro earlier hprefix entry hentry hcontrol
  exact (h earlier ((prefix_note hne).1 hprefix) entry hentry hcontrol).append _

theorem FlushesHonest.resolved_all (h : FlushesHonest O history) (waiters : List FlushWaiter)
    (hdone : ∀ waiter ∈ waiters, FlushDone O history waiter.id) :
    FlushesHonest O (history ++ waiters.map fun waiter => .resolved waiter.id) := by
  induction waiters generalizing history with
  | nil => simpa using h
  | cons waiter waiters ih =>
    have hfirst := h.resolved (hdone waiter (by simp))
    have hrest : ∀ other ∈ waiters, FlushDone O (history ++ [.resolved waiter.id]) other.id := by
      intro other hother
      exact (hdone other (by simp [hother])).note (by simp)
    have hall := ih hfirst hrest
    simpa [List.append_assoc] using hall

/-! ## Pending records -/

/-- A waiter's barrier is not below anything that entered before its flush. -/
def WaiterFits (history : List Happening) (waiter : FlushWaiter) : Prop :=
  ∀ earlier, earlier ++ [.flushed waiter.id] <+: history → ∀ entry, .entered entry ∈ earlier →
    entry.sequence ≤ waiter.barrier

theorem WaiterFits.append {waiter : FlushWaiter} (h : WaiterFits history waiter) {later : List Happening}
    (hnot : .flushed waiter.id ∉ later) : WaiterFits (history ++ later) waiter := by
  intro earlier hprefix entry hentry
  exact h earlier ((prefix_append hnot).1 hprefix) entry hentry

/-- What is pending, what is under way, and what the waiters wait for. -/
structure FlushBooks (O : DispatcherOptions) (s : LogDispatcher) : Prop where
  waiting : ∀ entry ∈ s.queue, entry.sequence ∈ s.pendingSequences
  underWay : ∀ entry outstanding, s.processing = .delivering entry outstanding →
    entry.sequence ∈ s.pendingSequences ∧ entry ∈ offeredOf s.history ∧
    ∀ sink ∈ O.matching entry.record,
      sink ∈ outstanding ∨ ∃ outcome, .settled entry.sequence sink.1 outcome ∈ s.history
  offered : ∀ entry ∈ offeredOf s.history, .delivered entry ∈ s.history ∨
    ∃ outstanding, s.processing = .delivering entry outstanding
  delivered : ∀ entry, .delivered entry ∈ s.history → ∀ sink ∈ O.matching entry.record,
    ∃ outcome, .settled entry.sequence sink.1 outcome ∈ s.history
  waiters : ∀ waiter ∈ s.waiters, WaiterFits s.history waiter ∧ waiter.id < s.flushes
  flushes : ∀ id, .flushed id ∈ s.history → id < s.flushes
  honest : FlushesHonest O s.history

theorem FlushBooks.initial (O : DispatcherOptions) : FlushBooks O LogDispatcher.initial where
  waiting := by simp [LogDispatcher.initial]
  underWay := by simp [LogDispatcher.initial]
  offered := by simp [LogDispatcher.initial, offeredOf]
  delivered := by simp [LogDispatcher.initial]
  waiters := by simp [LogDispatcher.initial]
  flushes := by simp [LogDispatcher.initial]
  honest := by simp [FlushesHonest, LogDispatcher.initial]

theorem hasPendingAtOrBelow_eq_false {barrier : ℕ} :
    s.hasPendingAtOrBelow barrier = false ↔ ∀ sequence ∈ s.pendingSequences, barrier < sequence := by
  simp [hasPendingAtOrBelow]

/-- What entered up to the barrier is done with when nothing up to it is pending. -/
theorem FlushBooks.done (h : FlushBooks O s) (hbooks : Accounts O s) {barrier : ℕ}
    (hpending : s.hasPendingAtOrBelow barrier = false) (hentered : .entered entry ∈ s.history)
    (hcontrol : entry.control = false) (hle : entry.sequence ≤ barrier) : Done O s.history entry := by
  rw [hasPendingAtOrBelow_eq_false] at hpending
  have hcounted := hbooks.counted entry hcontrol
  have hcount : 0 < (enteredOf s.history).count entry := List.count_pos_iff.2 (mem_enteredOf.2 hentered)
  have hwaiting : s.queue.count entry = 0 := by
    refine List.count_eq_zero.2 ?_
    intro hqueue
    have hlt := hpending _ (h.waiting entry hqueue)
    omega
  by_cases hdropped : entry ∈ droppedOf s.history
  · exact Or.inl (mem_droppedOf.1 hdropped)
  · have hnone := List.count_eq_zero.2 hdropped
    have hoffered : entry ∈ offeredOf s.history := List.count_pos_iff.1 (by omega)
    rcases h.offered entry hoffered with hdelivered | ⟨outstanding, hunderWay⟩
    · exact Or.inr ⟨hdelivered, h.delivered entry hdelivered⟩
    · have hlt := hpending _ (h.underWay entry outstanding hunderWay).1
      omega

theorem FlushBooks.flushDone (h : FlushBooks O s) (hbooks : Accounts O s) {waiter : FlushWaiter}
    (hfits : WaiterFits s.history waiter) (hpending : s.hasPendingAtOrBelow waiter.barrier = false) :
    FlushDone O s.history waiter.id := by
  intro earlier hprefix entry hentry hcontrol
  have hentered : .entered entry ∈ s.history := hprefix.subset (List.mem_append_left _ hentry)
  exact h.done hbooks hpending hentered hcontrol (hfits earlier hprefix entry hentry)

/-! ## Every step keeps the books -/

/-- The books are about some of the fields only. -/
theorem FlushBooks.congr (h : FlushBooks O s) (hqueue : s'.queue = s.queue)
    (hpending : s'.pendingSequences = s.pendingSequences) (hprocessing : ∀ entry outstanding,
      s'.processing = .delivering entry outstanding ↔ s.processing = .delivering entry outstanding)
    (hwaiters : s'.waiters = s.waiters) (hflushes : s'.flushes = s.flushes) (hhistory : s'.history = s.history) :
    FlushBooks O s' where
  waiting := by rw [hqueue, hpending]; exact h.waiting
  underWay := by
    intro entry outstanding hunderWay
    rw [hpending, hhistory]
    exact h.underWay entry outstanding ((hprocessing _ _).1 hunderWay)
  offered := by
    intro entry hentry
    rw [hhistory] at hentry ⊢
    rcases h.offered entry hentry with hdelivered | ⟨outstanding, hunderWay⟩
    · exact Or.inl hdelivered
    · exact Or.inr ⟨outstanding, (hprocessing _ _).2 hunderWay⟩
  delivered := by rw [hhistory]; exact h.delivered
  waiters := by rw [hwaiters, hhistory, hflushes]; exact h.waiters
  flushes := by rw [hhistory, hflushes]; exact h.flushes
  honest := by rw [hhistory]; exact h.honest

/-- What happens besides the offering, the delivery and the calling of flushes. -/
def IsPlain : Happening → Bool
  | .entered _ | .dropped .. | .settled .. | .resolved _ => true
  | .offered .. | .delivered _ | .flushed _ => false

theorem FlushBooks.plain (h : FlushBooks O s) (later : List Happening)
    (hplain : ∀ happening ∈ later, IsPlain happening = true) (hhonest : FlushesHonest O (s.history ++ later)) :
    FlushBooks O { s with history := s.history ++ later } := by
  have hoffered : offeredOf later = [] := by
    rw [offeredOf, List.filterMap_eq_nil_iff]
    intro happening hmem
    have hkind := hplain happening hmem
    cases happening <;> simp [IsPlain] at hkind ⊢
  have hmem : ∀ happening, IsPlain happening = false → (happening ∈ s.history ++ later ↔ happening ∈ s.history) := by
    intro happening hkind
    rw [List.mem_append]
    constructor
    · rintro (hold | hnew)
      · exact hold
      · rw [hplain happening hnew] at hkind
        cases hkind
    · exact Or.inl
  constructor
  · exact h.waiting
  · intro entry outstanding hunderWay
    obtain ⟨hpending, hentry, hsettled⟩ := h.underWay entry outstanding hunderWay
    refine ⟨hpending, ?_, ?_⟩
    · rw [offeredOf_append]
      exact List.mem_append_left _ hentry
    · intro sink hsink
      rcases hsettled sink hsink with hleft | ⟨outcome, houtcome⟩
      · exact Or.inl hleft
      · exact Or.inr ⟨outcome, List.mem_append_left _ houtcome⟩
  · intro entry hentry
    rw [offeredOf_append, hoffered, List.append_nil] at hentry
    rcases h.offered entry hentry with hdelivered | hunderWay
    · exact Or.inl (List.mem_append_left _ hdelivered)
    · exact Or.inr hunderWay
  · intro entry hdelivered sink hsink
    obtain ⟨outcome, houtcome⟩ := h.delivered entry ((hmem _ rfl).1 hdelivered) sink hsink
    exact ⟨outcome, List.mem_append_left _ houtcome⟩
  · intro waiter hwaiter
    obtain ⟨hfits, hid⟩ := h.waiters waiter hwaiter
    refine ⟨hfits.append ?_, hid⟩
    intro hflushed
    have hkind := hplain _ hflushed
    cases hkind
  · intro id hid
    exact h.flushes id ((hmem _ rfl).1 hid)
  · exact hhonest

theorem FlushBooks.checkWaiters (h : FlushBooks O s) (hbooks : Accounts O s) : FlushBooks O s.checkWaiters := by
  have hhonest := h.honest.resolved_all (s.waiters.filter fun waiter =>
    !s.hasPendingAtOrBelow waiter.barrier).reverse (by
      intro waiter hwaiter
      simp only [List.mem_reverse, List.mem_filter, Bool.not_eq_true'] at hwaiter
      exact h.flushDone hbooks (h.waiters waiter hwaiter.1).1 hwaiter.2)
  have hplain := h.plain _ (by
    intro happening hmem
    obtain ⟨waiter, -, rfl⟩ := List.mem_map.1 hmem
    rfl) hhonest
  refine ⟨hplain.waiting, hplain.underWay, hplain.offered, hplain.delivered, ?_, hplain.flushes, hplain.honest⟩
  intro waiter hwaiter
  exact hplain.waiters waiter (List.mem_of_mem_filter hwaiter)

theorem FlushBooks.schedule (h : FlushBooks O s) : FlushBooks O s.schedule :=
  h.congr schedule_queue schedule_pendingSequences (by simp) schedule_waiters schedule_flushes schedule_history

theorem not_resolved_of_drops {later : List Happening} (hlater : ∀ happening ∈ later, ∃ entry displacedBy,
    happening = .entered entry ∨ happening = .dropped entry displacedBy) (id : ℕ) : .resolved id ∉ later := by
  intro hmem
  obtain ⟨entry, displacedBy, h | h⟩ := hlater _ hmem <;> cases h

/-- A record enters, and entries may be dropped; what is left of the queue is pending. -/
theorem FlushBooks.enter (h : FlushBooks O s) (later : List Happening) (hlater : ∀ happening ∈ later,
      ∃ entry displacedBy, happening = .entered entry ∨ happening = .dropped entry displacedBy)
    (hwaiting : ∀ entry ∈ s'.queue, entry.sequence ∈ s'.pendingSequences)
    (hpending : ∀ entry outstanding, s.processing = .delivering entry outstanding →
      entry.sequence ∈ s'.pendingSequences)
    (hprocessing : s'.processing = s.processing) (hwaiters : s'.waiters = s.waiters)
    (hflushes : s'.flushes = s.flushes) (hhistory : s'.history = s.history ++ later) : FlushBooks O s' := by
  have hplain := h.plain later (by
    intro happening hmem
    obtain ⟨entry, displacedBy, rfl | rfl⟩ := hlater happening hmem <;> rfl)
      (h.honest.append (not_resolved_of_drops hlater))
  constructor
  · exact hwaiting
  · intro entry outstanding hunderWay
    rw [hprocessing] at hunderWay
    rw [hhistory]
    exact ⟨hpending entry outstanding hunderWay, (hplain.underWay entry outstanding hunderWay).2⟩
  · rw [hhistory, hprocessing]
    exact hplain.offered
  · rw [hhistory]
    exact hplain.delivered
  · rw [hhistory, hwaiters, hflushes]
    exact hplain.waiters
  · rw [hhistory, hflushes]
    exact hplain.flushes
  · rw [hhistory]
    exact hplain.honest

theorem FlushBooks.of_entering (h : FlushBooks O s) (hbooks : Accounts O s)
    (hentry : entry = s.nextEntry record control) (hentering : Entering O s entry s') : FlushBooks O s' := by
  cases hentering with
  | pushed room =>
    have hpushed : FlushBooks O { s.entering entry with
        queue := s.queue ++ [entry], pendingSequences := s.pendingSequences ++ [entry.sequence] } := by
      refine h.enter [.entered entry] (by simp) ?_ ?_ rfl rfl rfl rfl
      · intro other hother
        rcases List.mem_append.1 hother with hold | hnew
        · exact List.mem_append_left _ (h.waiting other hold)
        · rw [List.mem_singleton.1 hnew]
          simp
      · intro other outstanding hunderWay
        exact List.mem_append_left _ (h.underWay other outstanding hunderWay).1
    exact hpushed.schedule
  | withheld hcontrol =>
    have hwithheld : FlushBooks O (s.entering entry) :=
      h.enter [.entered entry] (by simp) h.waiting (fun other outstanding hunderWay =>
        (h.underWay other outstanding hunderWay).1) rfl rfl rfl rfl
    exact hwithheld.checkWaiters (hbooks.withheld hentry hcontrol)
  | refused hcontrol =>
    have hrefused : FlushBooks O ((s.entering entry).noteDrop entry none) := by
      refine h.enter [.entered entry, .dropped entry none] ?_ h.waiting (fun other outstanding hunderWay =>
        (h.underWay other outstanding hunderWay).1) rfl rfl rfl ?_
      · intro happening hmem
        simp only [List.mem_cons, List.not_mem_nil, or_false] at hmem
        exact ⟨entry, none, hmem⟩
      · simp [noteDrop, entering, note]
    exact hrefused.checkWaiters (hbooks.refused hentry hcontrol)
  | displaced before evicted after hqueue hcontrol hlower =>
    have hordered := hbooks.ordered
    rw [hqueue, List.map_append, List.map_append, List.map_cons, List.pairwise_append, List.pairwise_append,
      List.pairwise_cons] at hordered
    obtain ⟨-, ⟨-, ⟨hafter, -⟩, hbefore⟩, hoffered⟩ := hordered
    have hdisplaced : FlushBooks O { ({ s.entering entry with
        queue := before ++ after
        pendingSequences := s.pendingSequences.filter (· != evicted.sequence) }.noteDrop evicted
          (some entry.record)) with
        queue := before ++ after ++ [entry]
        pendingSequences := s.pendingSequences.filter (· != evicted.sequence) ++ [entry.sequence] } := by
      refine h.enter [.entered entry, .dropped evicted (some entry.record)] ?_ ?_ ?_ rfl rfl rfl ?_
      · intro happening hmem
        simp only [List.mem_cons, List.not_mem_nil, or_false] at hmem
        rcases hmem with hmem | hmem
        · exact ⟨entry, none, Or.inl hmem⟩
        · exact ⟨evicted, _, Or.inr hmem⟩
      · intro other hother
        rcases List.mem_append.1 hother with hold | hnew
        · have hpending : other.sequence ∈ s.pendingSequences := by
            refine h.waiting other ?_
            rw [hqueue]
            rcases List.mem_append.1 hold with hold | hold
            · exact List.mem_append_left _ hold
            · exact List.mem_append_right _ (List.mem_cons_of_mem _ hold)
          have hne : other.sequence ≠ evicted.sequence := by
            rcases List.mem_append.1 hold with hold | hold
            · exact (hbefore _ (List.mem_map_of_mem hold) _ (by simp)).ne
            · exact (hafter _ (List.mem_map_of_mem hold)).ne'
          refine List.mem_append_left _ (List.mem_filter.2 ⟨hpending, ?_⟩)
          simpa using hne
        · rw [List.mem_singleton.1 hnew]
          simp
      · intro other outstanding hunderWay
        obtain ⟨hpending, hother, -⟩ := h.underWay other outstanding hunderWay
        have hne : other.sequence ≠ evicted.sequence :=
          (hoffered _ (List.mem_map_of_mem hother) _ (by simp)).ne
        refine List.mem_append_left _ (List.mem_filter.2 ⟨hpending, ?_⟩)
        simpa using hne
      · simp [noteDrop, entering, note]
    exact hdisplaced.schedule

theorem FlushBooks.enqueue (h : FlushBooks O s) (hbooks : Accounts O s) (record : LogEnvelopeV1) (control : Bool) :
    FlushBooks O (s.enqueue O record control) :=
  h.of_entering hbooks rfl (enqueue_entering O record control s)

theorem FlushBooks.settleSink (h : FlushBooks O s) (hbooks : Accounts O s) (entry : QueuedRecord) (sink : String)
    (stamps : Stamps) (outcome : SinkOutcome) : FlushBooks O (s.settleSink O entry sink stamps outcome) := by
  cases outcome with
  | written =>
    simp only [LogDispatcher.settleSink]
    split
    · exact h
    · refine FlushBooks.enqueue ?_ ?_ _ true
      · exact h.congr rfl rfl (by simp) rfl rfl rfl
      · exact hbooks.congr rfl rfl rfl rfl
  | failed =>
    simp only [LogDispatcher.settleSink]
    split
    · split
      · exact h.congr rfl rfl (by simp) rfl rfl rfl
      · refine FlushBooks.enqueue ?_ ?_ _ true
        · exact h.congr rfl rfl (by simp) rfl rfl rfl
        · exact hbooks.congr rfl rfl rfl rfl
    · exact h

/-- A sink whose write has settled is not waited for any more. -/
theorem FlushBooks.settle (h : FlushBooks O s) {outstanding : List (ℕ × String)}
    (hunderWay : s.processing = .delivering entry outstanding) (sink : ℕ) (outcome : SinkOutcome) :
    FlushBooks O ({ s with processing := .delivering entry (outstanding.filter fun other => other.1 != sink) }.note
      (.settled entry.sequence sink outcome)) := by
  have hplain := h.plain [.settled entry.sequence sink outcome] (by simp [IsPlain]) (h.honest.append (by simp))
  refine ⟨hplain.waiting, ?_, ?_, hplain.delivered, hplain.waiters, hplain.flushes, hplain.honest⟩
  · intro other rest hother
    cases hother
    obtain ⟨hpending, hoffered, hsettled⟩ := hplain.underWay entry outstanding hunderWay
    refine ⟨hpending, hoffered, ?_⟩
    intro matching hmatching
    rcases hsettled matching hmatching with hleft | hright
    · by_cases hsink : matching.1 = sink
      · right
        rw [hsink]
        exact ⟨outcome, by simp [note]⟩
      · left
        refine List.mem_filter.2 ⟨hleft, ?_⟩
        simpa using hsink
    · exact Or.inr hright
  · intro other hother
    rcases hplain.offered other hother with hdelivered | ⟨rest, hother⟩
    · exact Or.inl hdelivered
    · have hother : s.processing = .delivering other rest := hother
      rw [hunderWay] at hother
      cases hother
      exact Or.inr ⟨_, rfl⟩

theorem FlushBooks.takeNext (h : FlushBooks O s) (hbooks : Accounts O s) (hstarting : s.processing = .starting) :
    FlushBooks O (s.takeNext O) := by
  have hdelivered : ∀ entry ∈ offeredOf s.history, .delivered entry ∈ s.history := by
    intro entry hentry
    rcases h.offered entry hentry with hdelivered | ⟨outstanding, hunderWay⟩
    · exact hdelivered
    · rw [hstarting] at hunderWay
      cases hunderWay
  unfold LogDispatcher.takeNext
  split
  · refine FlushBooks.checkWaiters ?_ ?_
    · exact h.congr rfl rfl (by simp [hstarting]) rfl rfl rfl
    · exact hbooks.congr rfl rfl rfl rfl
  · next entry rest hqueue =>
    have hmem : ∀ happening, (∀ sinks, happening ≠ .offered entry sinks) →
        happening ∈ s.history ++ [.offered entry ((O.matching entry.record).map Prod.fst)] →
          happening ∈ s.history := by
      intro happening hne hmem
      rcases List.mem_append.1 hmem with hold | hnew
      · exact hold
      · exact absurd (List.mem_singleton.1 hnew) (hne _)
    constructor
    · intro other hother
      refine h.waiting other ?_
      rw [hqueue]
      exact List.mem_cons_of_mem _ hother
    · intro other outstanding hunderWay
      cases hunderWay
      refine ⟨h.waiting entry (by rw [hqueue]; simp), by simp [note], fun sink hsink => Or.inl hsink⟩
    · intro other hother
      simp only [note, offeredOf_append, offeredOf_offered, List.mem_append, List.mem_singleton] at hother
      rcases hother with hold | rfl
      · exact Or.inl (List.mem_append_left _ (hdelivered other hold))
      · exact Or.inr ⟨_, rfl⟩
    · intro other hother sink hsink
      have hold := hmem _ (by simp) hother
      obtain ⟨outcome, houtcome⟩ := h.delivered other hold sink hsink
      exact ⟨outcome, List.mem_append_left _ houtcome⟩
    · intro waiter hwaiter
      obtain ⟨hfits, hid⟩ := h.waiters waiter hwaiter
      exact ⟨hfits.append (by simp), hid⟩
    · intro id hid
      exact h.flushes id (hmem _ (by simp) hid)
    · exact h.honest.append (by simp)

/-- What has been delivered is not pending any more. -/
theorem FlushBooks.delivering (h : FlushBooks O s) (hbooks : Accounts O s)
    (hunderWay : s.processing = .delivering entry []) :
    FlushBooks O (s.delivering entry) := by
  obtain ⟨hpending, hoffered, hsettled⟩ := h.underWay entry [] hunderWay
  have hordered := hbooks.ordered
  rw [List.map_append, List.pairwise_append] at hordered
  have hmem : ∀ happening, happening ≠ .delivered entry → happening ∈ s.history ++ [.delivered entry] →
      happening ∈ s.history := by
    intro happening hne hmem
    rcases List.mem_append.1 hmem with hold | hnew
    · exact hold
    · exact absurd (List.mem_singleton.1 hnew) hne
  constructor
  · intro other hother
    have hlt := hordered.2.2 _ (List.mem_map_of_mem hoffered) _ (List.mem_map_of_mem hother)
    refine List.mem_filter.2 ⟨h.waiting other hother, ?_⟩
    simpa using hlt.ne'
  · intro other outstanding hother
    cases hother
  · intro other hother
    left
    have hother : other ∈ offeredOf s.history := by
      rw [mem_offeredOf] at hother ⊢
      obtain ⟨sinks, hsinks⟩ := hother
      exact ⟨sinks, hmem _ (by simp) hsinks⟩
    rcases h.offered other hother with hdelivered | ⟨rest, hsame⟩
    · exact List.mem_append_left _ hdelivered
    · rw [hunderWay] at hsame
      cases hsame
      simp [LogDispatcher.delivering, note]
  · intro other hother sink hsink
    by_cases hsame : other = entry
    · rw [hsame] at hsink ⊢
      rcases hsettled sink hsink with hleft | ⟨outcome, houtcome⟩
      · cases hleft
      · exact ⟨outcome, List.mem_append_left _ houtcome⟩
    · have hold := hmem _ (by simpa using hsame) hother
      obtain ⟨outcome, houtcome⟩ := h.delivered other hold sink hsink
      exact ⟨outcome, List.mem_append_left _ houtcome⟩
  · intro waiter hwaiter
    obtain ⟨hfits, hid⟩ := h.waiters waiter hwaiter
    exact ⟨hfits.append (by simp), hid⟩
  · intro id hid
    exact h.flushes id (hmem _ (by simp) hid)
  · exact h.honest.append (by simp)

theorem enqueue_processing (O : DispatcherOptions) (record : LogEnvelopeV1) (control : Bool) (s : LogDispatcher) :
    (s.enqueue O record control).processing = s.processing :=
  (enqueue_entering O record control s).frame.1

theorem FlushBooks.complete (h : FlushBooks O s) (hbooks : Accounts O s)
    (hunderWay : s.processing = .delivering entry []) (stamps : Stamps) :
    FlushBooks O (s.complete O entry stamps) := by
  have hdelivered := (h.delivering hbooks hunderWay).checkWaiters (hbooks.delivering entry)
  have haccounts := (hbooks.delivering entry).checkWaiters
  unfold LogDispatcher.complete
  simp only
  split
  · refine FlushBooks.takeNext (FlushBooks.enqueue ?_ ?_ _ true) (Accounts.enqueueControl ?_ _ _ _) ?_
    · exact hdelivered.congr rfl rfl (by simp [checkWaiters, LogDispatcher.delivering, note]) rfl rfl rfl
    · exact haccounts.congr rfl rfl rfl rfl
    · exact haccounts.congr rfl rfl rfl rfl
    · exact enqueue_processing _ _ _ _
  · exact hdelivered.takeNext haccounts rfl

/-- A new flush waits for what has entered so far. -/
theorem FlushBooks.flushing (h : FlushBooks O s) (hbooks : Accounts O s) :
    FlushBooks O s.flushing ∧ WaiterFits s.flushing.history ⟨s.flushes, s.sequence⟩ := by
  have hfresh : .flushed s.flushes ∉ s.history := by
    intro hflushed
    exact absurd (h.flushes _ hflushed) (Nat.lt_irrefl _)
  have hmem : ∀ happening, (∀ id, happening ≠ .flushed id) → happening ∈ s.history ++ [.flushed s.flushes] →
      happening ∈ s.history := by
    intro happening hne hmem
    rcases List.mem_append.1 hmem with hold | hnew
    · exact hold
    · exact absurd (List.mem_singleton.1 hnew) (hne _)
  constructor
  · refine FlushBooks.schedule ?_
    constructor
    · exact h.waiting
    · intro entry outstanding hunderWay
      obtain ⟨hpending, hoffered, hsettled⟩ := h.underWay entry outstanding hunderWay
      refine ⟨hpending, ?_, ?_⟩
      · simp only [note, offeredOf_append]
        exact List.mem_append_left _ hoffered
      · intro sink hsink
        rcases hsettled sink hsink with hleft | ⟨outcome, houtcome⟩
        · exact Or.inl hleft
        · exact Or.inr ⟨outcome, List.mem_append_left _ houtcome⟩
    · intro entry hentry
      have hentry : entry ∈ offeredOf s.history := by
        rw [mem_offeredOf] at hentry ⊢
        obtain ⟨sinks, hsinks⟩ := hentry
        exact ⟨sinks, hmem _ (by simp) hsinks⟩
      rcases h.offered entry hentry with hdelivered | hunderWay
      · exact Or.inl (List.mem_append_left _ hdelivered)
      · exact Or.inr hunderWay
    · intro entry hentry sink hsink
      obtain ⟨outcome, houtcome⟩ := h.delivered entry (hmem _ (by simp) hentry) sink hsink
      exact ⟨outcome, List.mem_append_left _ houtcome⟩
    · intro waiter hwaiter
      obtain ⟨hfits, hid⟩ := h.waiters waiter hwaiter
      have hid : waiter.id < s.flushes := hid
      refine ⟨hfits.append ?_, Nat.lt_succ_of_lt hid⟩
      simp only [List.mem_singleton, Happening.flushed.injEq]
      omega
    · intro id hid
      rcases List.mem_append.1 hid with hold | hnew
      · exact Nat.lt_succ_of_lt (h.flushes id hold)
      · have hsame : id = s.flushes := by simpa using hnew
        rw [hsame]
        exact Nat.lt_succ_self _
    · exact h.honest.append (by simp)
  · intro earlier hprefix entry hentry
    have hprefix : earlier ++ [.flushed s.flushes] <+: s.history ++ [.flushed s.flushes] := by
      simpa [LogDispatcher.flushing, note] using hprefix
    rcases List.prefix_concat_iff.1 hprefix with heq | hold
    · obtain ⟨rfl, -⟩ := List.append_inj' heq rfl
      exact hbooks.latest entry hentry
    · exact absurd (hold.subset (by simp)) hfresh

theorem FlushBooks.flush (h : FlushBooks O s) (hbooks : Accounts O s) : FlushBooks O s.flush := by
  obtain ⟨hflushed, hfits⟩ := h.flushing hbooks
  have haccounts := hbooks.flushing
  have hflush : s.flush = if s.flushing.hasPendingAtOrBelow s.sequence then
      { s.flushing with waiters := s.flushing.waiters ++ [⟨s.flushes, s.sequence⟩] }
      else s.flushing.note (.resolved s.flushes) := rfl
  rw [hflush]
  split
  · refine ⟨hflushed.waiting, hflushed.underWay, hflushed.offered, hflushed.delivered, ?_, hflushed.flushes,
      hflushed.honest⟩
    intro waiter hwaiter
    rcases List.mem_append.1 hwaiter with hold | hnew
    · exact hflushed.waiters waiter hold
    · rw [List.mem_singleton.1 hnew]
      refine ⟨hfits, ?_⟩
      simp [LogDispatcher.flushing, note]
  · next hpending =>
    rw [Bool.not_eq_true] at hpending
    have hdone := hflushed.flushDone haccounts hfits hpending
    exact hflushed.plain [.resolved s.flushes] (by simp [IsPlain]) (hflushed.honest.resolved hdone)

theorem FlushBooks.step (h : FlushBooks O s) (hbooks : Accounts O s) {event : Event}
    (hstep : s.step O event = some s') : FlushBooks O s' := by
  cases step_stepped hstep with
  | dispatched record => exact h.enqueue hbooks record false
  | ignored | closedAgain => exact h
  | flushed => exact h.flush hbooks
  | closed =>
    refine FlushBooks.flush ?_ ?_
    · exact h.congr rfl rfl (by simp) rfl rfl rfl
    · exact hbooks.congr rfl rfl rfl rfl
  | begun _ hidle => exact h.congr rfl rfl (by simp [hidle]) rfl rfl rfl
  | skipped => exact h.congr rfl rfl (by simp) rfl rfl rfl
  | started hstarting => exact h.takeNext hbooks hstarting
  | settled sink outcome stamps entry outstanding name hunderWay =>
    refine (h.settle hunderWay sink outcome).settleSink (Accounts.note_aside ?_ rfl) _ _ _ _
    exact hbooks.congr rfl rfl rfl rfl
  | resumed stamps entry hunderWay => exact h.complete hbooks hunderWay stamps
  | drained =>
    unfold drain
    split
    · refine FlushBooks.schedule ?_
      exact h.congr rfl rfl (by simp) rfl rfl rfl
    · exact h.congr rfl rfl (by simp) rfl rfl rfl

theorem FlushBooks.reachable (h : Reachable (LogDispatcher.step O) LogDispatcher.initial s) : FlushBooks O s := by
  have hstart : Accounts O LogDispatcher.initial ∧ FlushBooks O LogDispatcher.initial :=
    ⟨Accounts.initial O, FlushBooks.initial O⟩
  have hboth := h.invariant (P := fun s => Accounts O s ∧ FlushBooks O s) (by
    intro s event s' hs hstep
    exact ⟨hs.1.step hstep, hs.2.step hs.1 hstep⟩) hstart
  exact hboth.2

end LogDispatcher

end PlusOne
