import PlusOne.Logging.Dispatcher

/-! # What becomes of the records

Every record that enters waits, is offered or is dropped, and only one of them. -/

namespace PlusOne

/-! ## What happened -/

namespace Happening

def enteredOf (history : List Happening) : List QueuedRecord :=
  history.filterMap fun
    | entered entry => some entry
    | _ => none

def droppedOf (history : List Happening) : List QueuedRecord :=
  history.filterMap fun
    | dropped entry _ => some entry
    | _ => none

def offeredOf (history : List Happening) : List QueuedRecord :=
  history.filterMap fun
    | offered entry _ => some entry
    | _ => none

variable {history later : List Happening} {entry : QueuedRecord}

@[simp] theorem enteredOf_append : enteredOf (history ++ later) = enteredOf history ++ enteredOf later :=
  List.filterMap_append

@[simp] theorem droppedOf_append : droppedOf (history ++ later) = droppedOf history ++ droppedOf later :=
  List.filterMap_append

@[simp] theorem offeredOf_append : offeredOf (history ++ later) = offeredOf history ++ offeredOf later :=
  List.filterMap_append

@[simp] theorem mem_enteredOf : entry ∈ enteredOf history ↔ entered entry ∈ history := by
  simp only [enteredOf, List.mem_filterMap]
  constructor
  · rintro ⟨happening, hmem, hentry⟩
    cases happening <;> simp at hentry
    rw [← hentry]
    exact hmem
  · intro hmem
    exact ⟨_, hmem, rfl⟩

@[simp] theorem mem_droppedOf : entry ∈ droppedOf history ↔ ∃ displacedBy, dropped entry displacedBy ∈ history := by
  simp only [droppedOf, List.mem_filterMap]
  constructor
  · rintro ⟨happening, hmem, hentry⟩
    cases happening <;> simp at hentry
    rw [← hentry]
    exact ⟨_, hmem⟩
  · rintro ⟨displacedBy, hmem⟩
    exact ⟨_, hmem, rfl⟩

@[simp] theorem mem_offeredOf : entry ∈ offeredOf history ↔ ∃ sinks, offered entry sinks ∈ history := by
  simp only [offeredOf, List.mem_filterMap]
  constructor
  · rintro ⟨happening, hmem, hentry⟩
    cases happening <;> simp at hentry
    rw [← hentry]
    exact ⟨_, hmem⟩
  · rintro ⟨sinks, hmem⟩
    exact ⟨_, hmem, rfl⟩

section Singleton

variable {displacedBy : Option LogEnvelopeV1} {sinks : List ℕ}

@[simp] theorem enteredOf_entered : enteredOf [entered entry] = [entry] := rfl
@[simp] theorem enteredOf_dropped : enteredOf [dropped entry displacedBy] = [] := rfl
@[simp] theorem enteredOf_offered : enteredOf [offered entry sinks] = [] := rfl
@[simp] theorem droppedOf_entered : droppedOf [entered entry] = [] := rfl
@[simp] theorem droppedOf_dropped : droppedOf [dropped entry displacedBy] = [entry] := rfl
@[simp] theorem droppedOf_offered : droppedOf [offered entry sinks] = [] := rfl
@[simp] theorem offeredOf_entered : offeredOf [entered entry] = [] := rfl
@[simp] theorem offeredOf_dropped : offeredOf [dropped entry displacedBy] = [] := rfl
@[simp] theorem offeredOf_offered : offeredOf [offered entry sinks] = [entry] := rfl

end Singleton

end Happening

namespace LogDispatcher

open Happening

variable {O : DispatcherOptions} {s s' : LogDispatcher} {record : LogEnvelopeV1} {control : Bool}
  {entry : QueuedRecord}

/-! ## What scheduling leaves alone -/

theorem schedule_eq (s : LogDispatcher) : ∃ scheduled, s.schedule = { s with scheduled } := by
  unfold schedule
  split
  · exact ⟨s.scheduled, rfl⟩
  · exact ⟨true, rfl⟩

@[simp] theorem schedule_queue : s.schedule.queue = s.queue := by
  obtain ⟨scheduled, h⟩ := s.schedule_eq
  rw [h]

@[simp] theorem schedule_pendingSequences : s.schedule.pendingSequences = s.pendingSequences := by
  obtain ⟨scheduled, h⟩ := s.schedule_eq
  rw [h]

@[simp] theorem schedule_waiters : s.schedule.waiters = s.waiters := by
  obtain ⟨scheduled, h⟩ := s.schedule_eq
  rw [h]

@[simp] theorem schedule_sinkHealthy : s.schedule.sinkHealthy = s.sinkHealthy := by
  obtain ⟨scheduled, h⟩ := s.schedule_eq
  rw [h]

@[simp] theorem schedule_droppedBySeverity : s.schedule.droppedBySeverity = s.droppedBySeverity := by
  obtain ⟨scheduled, h⟩ := s.schedule_eq
  rw [h]

@[simp] theorem schedule_sequence : s.schedule.sequence = s.sequence := by
  obtain ⟨scheduled, h⟩ := s.schedule_eq
  rw [h]

@[simp] theorem schedule_processing : s.schedule.processing = s.processing := by
  obtain ⟨scheduled, h⟩ := s.schedule_eq
  rw [h]

@[simp] theorem schedule_closing : s.schedule.closing = s.closing := by
  obtain ⟨scheduled, h⟩ := s.schedule_eq
  rw [h]

@[simp] theorem schedule_flushes : s.schedule.flushes = s.flushes := by
  obtain ⟨scheduled, h⟩ := s.schedule_eq
  rw [h]

@[simp] theorem schedule_history : s.schedule.history = s.history := by
  obtain ⟨scheduled, h⟩ := s.schedule_eq
  rw [h]

/-! ## The displaced entry -/

/-- What is displaced is no control record, and has a lower severity than what comes in. -/
theorem displacementIndex_eq_some {queue : List QueuedRecord} {incoming : LogSeverityText} {index : ℕ}
    (h : displacementIndex queue incoming = some index) :
    ∃ before evicted after, queue = before ++ evicted :: after ∧ before.length = index ∧
      evicted.control = false ∧ evicted.record.severityText.order < incoming.order := by
  unfold displacementIndex at h
  split at h
  · cases h
  · simp only at h
    split at h
    · cases h
    · next hlower =>
      have hindex := List.findIdx?_eq_some_iff_getElem.1 h
      obtain ⟨hlt, hfound, -⟩ := hindex
      simp only [Bool.and_eq_true, Bool.not_eq_true', beq_iff_eq] at hfound
      refine ⟨queue.take index, queue[index], queue.drop (index + 1), ?_, ?_, hfound.1, ?_⟩
      · rw [List.getElem_cons_drop, List.take_append_drop]
      · exact List.length_take_of_le hlt.le
      · rw [hfound.2]
        omega

/-- The state in which a new entry finds its place. -/
def entering (entry : QueuedRecord) (s : LogDispatcher) : LogDispatcher :=
  { s with sequence := s.sequence + 1 }.note (.entered entry)

/-- The entry that a record enters as. -/
def nextEntry (s : LogDispatcher) (record : LogEnvelopeV1) (control : Bool) : QueuedRecord :=
  ⟨s.sequence + 1, record, control⟩

/-- What can become of a record that enters. -/
inductive Entering (O : DispatcherOptions) (s : LogDispatcher) (entry : QueuedRecord) : LogDispatcher → Prop
  | pushed (room : s.queue.length < O.capacity + 1) : Entering O s entry ((s.entering entry).push entry)
  | withheld (control : entry.control = true) : Entering O s entry (s.entering entry).checkWaiters
  | refused (control : entry.control = false) :
    Entering O s entry ((s.entering entry).noteDrop entry none).checkWaiters
  | displaced (before : List QueuedRecord) (evicted : QueuedRecord) (after : List QueuedRecord)
    (queue : s.queue = before ++ evicted :: after) (control : evicted.control = false)
    (lower : evicted.record.severityText.order < entry.record.severityText.order) :
    Entering O s entry (({ s.entering entry with
      queue := before ++ after
      pendingSequences := s.pendingSequences.filter (· != evicted.sequence) }.noteDrop evicted
        (some entry.record)).push entry)

theorem Entering.frame (h : Entering O s entry s') : s'.processing = s.processing ∧ s'.closing = s.closing ∧
    s'.sinkHealthy = s.sinkHealthy ∧ s'.flushes = s.flushes := by
  cases h <;> simp [push, entering, noteDrop, note, checkWaiters]

theorem enqueue_eq (O : DispatcherOptions) (record : LogEnvelopeV1) (control : Bool) (s : LogDispatcher) :
    s.enqueue O record control =
      if s.queue.length ≥ O.capacity + (if control then 1 else 0) then
        (displacementIndex s.queue record.severityText).elim
          (if control then s.entering (s.nextEntry record control)
            else (s.entering (s.nextEntry record control)).noteDrop (s.nextEntry record control) none).checkWaiters
          fun displaced => ((s.entering (s.nextEntry record control)).evict displaced record).push
            (s.nextEntry record control)
      else (s.entering (s.nextEntry record control)).push (s.nextEntry record control) := by
  unfold enqueue
  simp only [note]
  cases displacementIndex s.queue record.severityText <;> rfl

theorem enqueue_entering (O : DispatcherOptions) (record : LogEnvelopeV1) (control : Bool) (s : LogDispatcher) :
    Entering O s (s.nextEntry record control) (s.enqueue O record control) := by
  rw [enqueue_eq]
  by_cases hroom : s.queue.length ≥ O.capacity + (if control then 1 else 0)
  · rw [if_pos hroom]
    cases hdisplaced : displacementIndex s.queue record.severityText with
    | none =>
      cases control with
      | true => exact .withheld rfl
      | false => exact .refused rfl
    | some index =>
      obtain ⟨before, evicted, after, hqueue, hlength, hcontrol, hlower⟩ :=
        displacementIndex_eq_some hdisplaced
      have hget : (before ++ evicted :: after)[index]? = some evicted := by
        rw [← hlength]
        simp
      have herase : (before ++ evicted :: after).eraseIdx index = before ++ after := by
        rw [← hlength, List.eraseIdx_append_of_length_le (Nat.le_refl _)]
        simp
      have hevicted : (s.entering (s.nextEntry record control)).evict index record =
          { s.entering (s.nextEntry record control) with
            queue := before ++ after
            pendingSequences := s.pendingSequences.filter (· != evicted.sequence) }.noteDrop evicted
              (some record) := by
        simp [evict, entering, note, hqueue, hget, herase, hcontrol]
      simp only [Option.elim_some, hevicted]
      exact .displaced before evicted after hqueue hcontrol hlower
  · rw [if_neg hroom]
    refine .pushed ?_
    cases control <;> simp at hroom <;> omega

/-! ## The books -/

/-- What the queue, the counters and the history have to do with each other. -/
structure Accounts (O : DispatcherOptions) (s : LogDispatcher) : Prop where
  bounded : s.queue.length ≤ O.capacity + 1
  counted : ∀ entry, entry.control = false → (enteredOf s.history).count entry =
    (droppedOf s.history).count entry + (offeredOf s.history).count entry + s.queue.count entry
  numbered : ((enteredOf s.history).map QueuedRecord.sequence).Pairwise (· < ·)
  latest : ∀ entry, .entered entry ∈ s.history → entry.sequence ≤ s.sequence
  ordered : ((offeredOf s.history ++ s.queue).map QueuedRecord.sequence).Pairwise (· < ·)
  known : ∀ entry ∈ offeredOf s.history ++ s.queue, .entered entry ∈ s.history
  drops : ∀ severity, s.droppedBySeverity severity =
    (droppedOf s.history).countP fun entry => entry.record.severityText == severity
  lower : ∀ entry other, .dropped entry (some other) ∈ s.history →
    entry.record.severityText.order < other.severityText.order
  matching : ∀ entry sinks, .offered entry sinks ∈ s.history → sinks = (O.matching entry.record).map Prod.fst
  genuine : ∀ entry displacedBy, .dropped entry displacedBy ∈ s.history → entry.control = false

theorem Accounts.initial (O : DispatcherOptions) : Accounts O initial where
  bounded := Nat.zero_le _
  counted := by simp [LogDispatcher.initial, enteredOf, droppedOf, offeredOf]
  numbered := by simp [LogDispatcher.initial, enteredOf]
  latest := by simp [LogDispatcher.initial]
  ordered := by simp [LogDispatcher.initial, offeredOf]
  known := by simp [LogDispatcher.initial, offeredOf]
  drops := by simp [LogDispatcher.initial, droppedOf]
  lower := by simp [LogDispatcher.initial]
  matching := by simp [LogDispatcher.initial]
  genuine := by simp [LogDispatcher.initial]

theorem Accounts.congr (h : Accounts O s) (hqueue : s'.queue = s.queue) (hsequence : s'.sequence = s.sequence)
    (hdrops : s'.droppedBySeverity = s.droppedBySeverity) (hhistory : s'.history = s.history) : Accounts O s' where
  bounded := by rw [hqueue]; exact h.bounded
  counted := by rw [hqueue, hhistory]; exact h.counted
  numbered := by rw [hhistory]; exact h.numbered
  latest := by rw [hsequence, hhistory]; exact h.latest
  ordered := by rw [hqueue, hhistory]; exact h.ordered
  known := by rw [hqueue, hhistory]; exact h.known
  drops := by rw [hdrops, hhistory]; exact h.drops
  lower := by rw [hhistory]; exact h.lower
  matching := by rw [hhistory]; exact h.matching
  genuine := by rw [hhistory]; exact h.genuine

/-- A happening that is about the place of no record. -/
def IsAside : Happening → Bool
  | .settled .. | .delivered _ | .flushed _ | .resolved _ => true
  | .entered _ | .dropped .. | .offered .. => false

theorem asides_projections {later : List Happening} (h : ∀ happening ∈ later, IsAside happening = true) :
    enteredOf later = [] ∧ droppedOf later = [] ∧ offeredOf later = [] := by
  simp only [enteredOf, droppedOf, offeredOf, List.filterMap_eq_nil_iff]
  refine ⟨?_, ?_, ?_⟩ <;>
  · intro happening hmem
    have haside := h happening hmem
    cases happening <;> simp [IsAside] at haside ⊢

/-- What is noted aside leaves the books as they are. -/
theorem Accounts.aside (h : Accounts O s) (later : List Happening)
    (hlater : ∀ happening ∈ later, IsAside happening = true) :
    Accounts O { s with history := s.history ++ later } := by
  obtain ⟨hentered, hdropped, hoffered⟩ := asides_projections hlater
  have hmem : ∀ happening, IsAside happening = false → (happening ∈ s.history ++ later ↔ happening ∈ s.history) := by
    intro happening haside
    rw [List.mem_append]
    constructor
    · rintro (hold | hnew)
      · exact hold
      · rw [hlater happening hnew] at haside
        cases haside
    · exact Or.inl
  constructor
  · exact h.bounded
  · simpa [hentered, hdropped, hoffered] using h.counted
  · simpa [hentered] using h.numbered
  · intro entry hentry
    exact h.latest entry ((hmem _ rfl).1 hentry)
  · simpa [hoffered] using h.ordered
  · intro entry hentry
    simp only [offeredOf_append, hoffered, List.append_nil] at hentry
    exact (hmem _ rfl).2 (h.known entry hentry)
  · simpa [hdropped] using h.drops
  · intro entry other hentry
    exact h.lower entry other ((hmem _ rfl).1 hentry)
  · intro entry sinks hentry
    exact h.matching entry sinks ((hmem _ rfl).1 hentry)
  · intro entry displacedBy hentry
    exact h.genuine entry displacedBy ((hmem _ rfl).1 hentry)

theorem Accounts.note_aside (h : Accounts O s) {happening : Happening} (haside : IsAside happening = true) :
    Accounts O (s.note happening) := by
  refine h.aside [happening] ?_
  intro other hother
  rw [List.mem_singleton.1 hother]
  exact haside

theorem Accounts.checkWaiters (h : Accounts O s) : Accounts O s.checkWaiters := by
  have haside : ∀ happening ∈ (s.waiters.filter fun waiter =>
      !s.hasPendingAtOrBelow waiter.barrier).reverse.map fun waiter => Happening.resolved waiter.id,
      IsAside happening = true := by
    intro happening hmem
    obtain ⟨waiter, -, rfl⟩ := List.mem_map.1 hmem
    rfl
  exact (h.aside _ haside).congr rfl rfl rfl rfl

theorem Accounts.schedule (h : Accounts O s) : Accounts O s.schedule :=
  h.congr schedule_queue schedule_sequence schedule_droppedBySeverity schedule_history

/-! ## A record enters -/

section Enters

variable (h : Accounts O s) (hentry : entry = s.nextEntry record control)

include h hentry

theorem Accounts.fresh : entry.sequence = s.sequence + 1 := by
  rw [hentry]
  rfl

theorem Accounts.entered_numbered :
    ((enteredOf (s.history ++ [.entered entry])).map QueuedRecord.sequence).Pairwise (· < ·) := by
  have hnew : enteredOf [.entered entry] = [entry] := rfl
  rw [enteredOf_append, hnew, List.map_append, List.pairwise_append]
  refine ⟨h.numbered, by simp, ?_⟩
  intro a ha b hb
  obtain ⟨old, hold, rfl⟩ := List.mem_map.1 ha
  have hle := h.latest old (mem_enteredOf.1 hold)
  have hb : b = entry.sequence := by simpa using hb
  rw [hb, h.fresh hentry]
  omega

theorem Accounts.entered_latest {old : QueuedRecord} (hold : .entered old ∈ s.history ++ [.entered entry]) :
    old.sequence ≤ s.sequence + 1 := by
  rcases List.mem_append.1 hold with hold | hnew
  · exact (h.latest old hold).trans (Nat.le_succ _)
  · have hsame : old = entry := by simpa using hnew
    rw [hsame, h.fresh hentry]

theorem Accounts.ordered_entering :
    ((offeredOf s.history ++ (s.queue ++ [entry])).map QueuedRecord.sequence).Pairwise (· < ·) := by
  rw [← List.append_assoc, List.map_append, List.pairwise_append]
  refine ⟨h.ordered, by simp, ?_⟩
  intro a ha b hb
  obtain ⟨old, hold, rfl⟩ := List.mem_map.1 ha
  have hle := h.latest old (h.known old hold)
  have hb : b = entry.sequence := by simpa using hb
  rw [hb, h.fresh hentry]
  omega

/-- After the entry has entered, what was in the queue or entered is in the queue or dropped. -/
theorem Accounts.enter (dropping : List Happening) (hsequence : s'.sequence = s.sequence + 1)
    (hhistory : s'.history = s.history ++ .entered entry :: dropping)
    (hbounded : s'.queue.length ≤ O.capacity + 1) (hqueue : s'.queue.Sublist (s.queue ++ [entry]))
    (hcounted : ∀ other, other.control = false → s.queue.count other + [entry].count other =
      (droppedOf dropping).count other + s'.queue.count other)
    (hdrops : ∀ severity, s'.droppedBySeverity severity = s.droppedBySeverity severity +
      (droppedOf dropping).countP fun entry => entry.record.severityText == severity)
    (hdropping : ∀ happening ∈ dropping, ∃ out displacedBy, happening = .dropped out displacedBy ∧
      out.control = false ∧
      ∀ other, displacedBy = some other → out.record.severityText.order < other.severityText.order) :
    Accounts O s' := by
  have hsplit : s.history ++ .entered entry :: dropping = s.history ++ [.entered entry] ++ dropping := by simp
  have hnone : enteredOf dropping = [] ∧ offeredOf dropping = [] := by
    simp only [enteredOf, offeredOf, List.filterMap_eq_nil_iff]
    constructor <;>
    · intro happening hmem
      obtain ⟨out, displacedBy, rfl, -⟩ := hdropping happening hmem
      rfl
  have hentered : enteredOf s'.history = enteredOf (s.history ++ [.entered entry]) := by
    rw [hhistory, hsplit, enteredOf_append, hnone.1, List.append_nil]
  have hoffered : offeredOf s'.history = offeredOf s.history := by
    rw [hhistory, hsplit, offeredOf_append, hnone.2, offeredOf_append, offeredOf_entered]
    simp
  have hdropped : droppedOf s'.history = droppedOf s.history ++ droppedOf dropping := by
    rw [hhistory, hsplit, droppedOf_append, droppedOf_append, droppedOf_entered, List.append_nil]
  have hnew : ∀ {happening : Happening}, happening ∈ s'.history → happening ∈ s.history ∨
      happening = .entered entry ∨ happening ∈ dropping := by
    intro happening hmem
    simpa [hhistory] using hmem
  have hkept : ∀ {old : QueuedRecord}, .entered old ∈ s'.history ↔ .entered old ∈ s.history ∨ old = entry := by
    intro old
    rw [← mem_enteredOf, hentered, mem_enteredOf]
    simp
  constructor
  · exact hbounded
  · intro other hcontrol
    have hold := h.counted other hcontrol
    have hmoved := hcounted other hcontrol
    rw [hentered, hoffered, hdropped, enteredOf_append, enteredOf_entered, List.count_append, List.count_append]
    omega
  · rw [hentered]
    exact h.entered_numbered hentry
  · intro old hold
    rw [hsequence]
    refine h.entered_latest hentry ?_
    rw [← mem_enteredOf, ← hentered, mem_enteredOf]
    exact hold
  · rw [hoffered]
    have hsublist : (offeredOf s.history ++ s'.queue).Sublist (offeredOf s.history ++ (s.queue ++ [entry])) :=
      (List.Sublist.refl _).append hqueue
    exact (h.ordered_entering hentry).sublist (hsublist.map _)
  · intro old hold
    rw [hoffered, List.mem_append] at hold
    rw [hkept]
    rcases hold with hold | hold
    · exact Or.inl (h.known old (List.mem_append_left _ hold))
    · rcases List.mem_append.1 (hqueue.subset hold) with hwaiting | hentering
      · exact Or.inl (h.known old (List.mem_append_right _ hwaiting))
      · exact Or.inr (List.mem_singleton.1 hentering)
  · intro severity
    rw [hdrops, h.drops, hdropped, List.countP_append]
  · intro old other hold
    rcases hnew hold with hold | hold | hold
    · exact h.lower old other hold
    · cases hold
    · obtain ⟨out, displacedBy, heq, -, hlower⟩ := hdropping _ hold
      cases heq
      exact hlower other rfl
  · intro old sinks hold
    rcases hnew hold with hold | hold | hold
    · exact h.matching old sinks hold
    · cases hold
    · obtain ⟨out, displacedBy, heq, -⟩ := hdropping _ hold
      cases heq
  · intro old displacedBy hold
    rcases hnew hold with hold | hold | hold
    · exact h.genuine old displacedBy hold
    · cases hold
    · obtain ⟨out, displacedBy, heq, hcontrol, -⟩ := hdropping _ hold
      cases heq
      exact hcontrol

end Enters

theorem noteDrop_droppedBySeverity (severity : LogSeverityText) (displacedBy : Option LogEnvelopeV1) :
    (s.noteDrop entry displacedBy).droppedBySeverity severity = s.droppedBySeverity severity +
      [entry].countP fun entry => entry.record.severityText == severity := by
  by_cases hseverity : entry.record.severityText = severity
  · rw [← hseverity]
    simp [noteDrop, note]
  · have hne : severity ≠ entry.record.severityText := Ne.symm hseverity
    simp [noteDrop, note, hseverity, hne]

section Places

variable (h : Accounts O s) (hentry : entry = s.nextEntry record control)

include h hentry

theorem Accounts.pushed (hroom : s.queue.length < O.capacity + 1) : Accounts O ((s.entering entry).push entry) := by
  have hbooks : Accounts O { s.entering entry with queue := s.queue ++ [entry] } := by
    refine h.enter hentry [] rfl rfl ?_ (List.Sublist.refl _) ?_ ?_ ?_
    · simp
      omega
    · simp [droppedOf]
    · simp [entering, note, droppedOf]
    · simp
  refine Accounts.schedule ?_
  exact hbooks.congr rfl rfl rfl rfl

theorem Accounts.withheld (hcontrol : entry.control = true) : Accounts O (s.entering entry) := by
  refine h.enter hentry [] rfl rfl h.bounded ?_ ?_ ?_ ?_
  · simp [entering, note]
  · intro other hother
    have hne : other ≠ entry := by
      rintro rfl
      rw [hcontrol] at hother
      cases hother
    simp [entering, note, droppedOf, hne.symm]
  · simp [entering, note, droppedOf]
  · simp

theorem Accounts.refused (hcontrol : entry.control = false) :
    Accounts O ((s.entering entry).noteDrop entry none) := by
  refine h.enter hentry [.dropped entry none] rfl ?_ h.bounded ?_ ?_ ?_ ?_
  · simp [noteDrop, entering, note]
  · simp [noteDrop, entering, note]
  · intro other _
    simp only [noteDrop, entering, note, droppedOf_dropped]
    omega
  · intro severity
    exact noteDrop_droppedBySeverity severity none
  · simp [hcontrol]

theorem Accounts.displaced {before after : List QueuedRecord} {evicted : QueuedRecord} {pendingSequences : List ℕ}
    (hqueue : s.queue = before ++ evicted :: after) (hcontrol : evicted.control = false)
    (hlower : evicted.record.severityText.order < entry.record.severityText.order) :
    Accounts O (({ s.entering entry with queue := before ++ after, pendingSequences }.noteDrop evicted
      (some entry.record)).push entry) := by
  have hbooks : Accounts O ({ s.entering entry with queue := before ++ after ++ [entry] }.noteDrop evicted
      (some entry.record)) := by
    refine h.enter hentry [.dropped evicted (some entry.record)] rfl ?_ ?_ ?_ ?_ ?_ ?_
    · simp [noteDrop, entering, note]
    · have hbounded := h.bounded
      rw [hqueue] at hbounded
      simp [noteDrop, note] at hbounded ⊢
      omega
    · rw [hqueue]
      simp [noteDrop, note, List.append_assoc]
    · intro other _
      rw [hqueue]
      simp only [noteDrop, note, droppedOf_dropped, List.count_append, List.count_cons, List.count_nil]
      omega
    · intro severity
      exact noteDrop_droppedBySeverity severity _
    · simp [hcontrol, hlower]
  refine Accounts.schedule ?_
  exact hbooks.congr rfl rfl rfl rfl

end Places

theorem Accounts.of_entering (h : Accounts O s) (hentry : entry = s.nextEntry record control)
    (hentering : Entering O s entry s') : Accounts O s' := by
  cases hentering with
  | pushed room => exact h.pushed hentry room
  | withheld hcontrol => exact (h.withheld hentry hcontrol).checkWaiters
  | refused hcontrol => exact (h.refused hentry hcontrol).checkWaiters
  | displaced before evicted after hqueue hcontrol hlower => exact h.displaced hentry hqueue hcontrol hlower

theorem Accounts.enqueue (h : Accounts O s) (record : LogEnvelopeV1) (control : Bool) :
    Accounts O (s.enqueue O record control) :=
  h.of_entering rfl (enqueue_entering O record control s)

/-! ## Every step keeps the books -/

theorem Accounts.enqueueControl (h : Accounts O s) (event : ControlEvent) (stamps : Stamps)
    (reference : LogEnvelopeV1) : Accounts O (s.enqueueControl O event stamps reference) :=
  h.enqueue _ true

theorem Accounts.settleSink (h : Accounts O s) (entry : QueuedRecord) (sink : String) (stamps : Stamps)
    (outcome : SinkOutcome) : Accounts O (s.settleSink O entry sink stamps outcome) := by
  cases outcome with
  | written =>
    simp only [LogDispatcher.settleSink]
    split
    · exact h
    · refine Accounts.enqueueControl ?_ _ _ _
      exact h.congr rfl rfl rfl rfl
  | failed =>
    simp only [LogDispatcher.settleSink]
    split
    · split
      · exact h.congr rfl rfl rfl rfl
      · refine Accounts.enqueueControl ?_ _ _ _
        exact h.congr rfl rfl rfl rfl
    · exact h

/-- The entry that is taken is the first of the queue. -/
theorem Accounts.takeNext (h : Accounts O s) : Accounts O (s.takeNext O) := by
  unfold LogDispatcher.takeNext
  split
  · refine Accounts.checkWaiters ?_
    exact h.congr rfl rfl rfl rfl
  · next entry rest hqueue =>
    have hbounded := h.bounded
    have hordered := h.ordered
    have hknown := h.known
    rw [hqueue] at hbounded hordered hknown
    constructor
    · simp [note] at hbounded ⊢
      omega
    · intro other hcontrol
      have hcounted := h.counted other hcontrol
      rw [hqueue] at hcounted
      simp only [note, enteredOf_append, droppedOf_append, offeredOf_append, enteredOf_offered, droppedOf_offered,
        offeredOf_offered, List.count_append, List.count_nil, List.count_cons] at hcounted ⊢
      omega
    · simpa [note] using h.numbered
    · simpa [note] using h.latest
    · simpa [note, List.append_assoc] using hordered
    · simpa [note, or_assoc] using hknown
    · simpa [note] using h.drops
    · simpa [note] using h.lower
    · intro other sinks hother
      simp only [note, List.mem_append, List.mem_singleton, Happening.offered.injEq] at hother
      rcases hother with hold | ⟨rfl, rfl⟩
      · exact h.matching other sinks hold
      · rfl
    · simpa [note] using h.genuine

/-- The state in which an entry is no longer being delivered. -/
def delivering (entry : QueuedRecord) (s : LogDispatcher) : LogDispatcher :=
  { s with
    processing := .starting
    pendingSequences := s.pendingSequences.filter (· != entry.sequence) }.note (.delivered entry)

theorem Accounts.delivering (h : Accounts O s) (entry : QueuedRecord) : Accounts O (s.delivering entry) := by
  refine Accounts.note_aside ?_ rfl
  exact h.congr rfl rfl rfl rfl

theorem Accounts.complete (h : Accounts O s) (entry : QueuedRecord) (stamps : Stamps) :
    Accounts O (s.complete O entry stamps) := by
  have hdelivered := (h.delivering entry).checkWaiters
  unfold LogDispatcher.complete
  simp only
  split
  · refine Accounts.takeNext (Accounts.enqueueControl ?_ _ _ _)
    exact hdelivered.congr rfl rfl rfl rfl
  · exact hdelivered.takeNext

/-- The state in which a flush looks at what is pending. -/
def flushing (s : LogDispatcher) : LogDispatcher :=
  ({ s with flushes := s.flushes + 1 }.note (.flushed s.flushes)).schedule

theorem Accounts.flushing (h : Accounts O s) : Accounts O s.flushing := by
  refine Accounts.schedule (Accounts.note_aside ?_ rfl)
  exact h.congr rfl rfl rfl rfl

theorem Accounts.flush (h : Accounts O s) : Accounts O s.flush := by
  have hflushed := h.flushing
  unfold LogDispatcher.flush
  simp only
  split
  · exact hflushed.congr rfl rfl rfl rfl
  · exact hflushed.note_aside rfl

theorem Accounts.drain (h : Accounts O s) : Accounts O s.drain := by
  unfold LogDispatcher.drain
  split
  · refine Accounts.schedule ?_
    exact h.congr rfl rfl rfl rfl
  · exact h.congr rfl rfl rfl rfl

/-- What an event does where it can take place. -/
inductive Stepped (O : DispatcherOptions) (s : LogDispatcher) : Event → LogDispatcher → Prop
  | dispatched (record : LogEnvelopeV1) (unclosed : s.closing = .unclosed) :
    Stepped O s (.dispatch record) (s.enqueue O record false)
  | ignored (record : LogEnvelopeV1) (closed : s.closing ≠ .unclosed) : Stepped O s (.dispatch record) s
  | flushed : Stepped O s .flush s.flush
  | closed (unclosed : s.closing = .unclosed) :
    Stepped O s .close { s with closing := .flushing s.flushes }.flush
  | closedAgain (closed : s.closing ≠ .unclosed) : Stepped O s .close s
  | begun (scheduled : s.scheduled = true) (idle : s.processing = .idle) :
    Stepped O s .microtask { s with scheduled := false, processing := .starting }
  | skipped (scheduled : s.scheduled = true) (busy : s.processing ≠ .idle) :
    Stepped O s .microtask { s with scheduled := false }
  | started (starting : s.processing = .starting) : Stepped O s .started (s.takeNext O)
  | settled (sink : ℕ) (outcome : SinkOutcome) (stamps : Stamps) (entry : QueuedRecord)
    (outstanding : List (ℕ × String)) (name : String) (delivering : s.processing = .delivering entry outstanding)
    (offered : outstanding.lookup sink = some name) :
    Stepped O s (.settle sink outcome stamps)
      (({ s with processing := .delivering entry (outstanding.filter fun other => other.1 != sink) }.note
        (.settled entry.sequence sink outcome)).settleSink O entry name stamps outcome)
  | resumed (stamps : Stamps) (entry : QueuedRecord) (delivering : s.processing = .delivering entry []) :
    Stepped O s (.resume stamps) (s.complete O entry stamps)
  | drained (ready : s.closing = .draining ∨
      ∃ waiter, s.closing = .flushing waiter ∧ ¬s.waiters.any (·.id == waiter) = true) :
    Stepped O s .drain s.drain

theorem step_stepped {event : Event} (hstep : s.step O event = some s') : Stepped O s event s' := by
  cases event with
  | dispatch record =>
    cases hstep
    split
    · next hclosing => exact .dispatched record hclosing
    · next hclosing => exact .ignored record hclosing
  | flush =>
    cases hstep
    exact .flushed
  | close =>
    cases hstep
    split
    · next hclosing => exact .closed hclosing
    · next hclosing => exact .closedAgain hclosing
  | microtask =>
    simp only [LogDispatcher.step] at hstep
    split at hstep
    · next hscheduled =>
      cases hstep
      split
      · next hidle => exact .begun hscheduled hidle
      · next hbusy => exact .skipped hscheduled hbusy
    · cases hstep
  | started =>
    simp only [LogDispatcher.step] at hstep
    split at hstep
    · next hstarting =>
      cases hstep
      exact .started hstarting
    · cases hstep
  | settle sink outcome stamps =>
    simp only [LogDispatcher.step] at hstep
    split at hstep
    · next entry outstanding hdelivering =>
      obtain ⟨name, hname, rfl⟩ := Option.map_eq_some_iff.1 hstep
      exact .settled sink outcome stamps entry outstanding name hdelivering hname
    · cases hstep
    · cases hstep
  | resume stamps =>
    simp only [LogDispatcher.step] at hstep
    split at hstep
    · next entry hdelivering =>
      cases hstep
      exact .resumed stamps entry hdelivering
    · cases hstep
    · cases hstep
    · cases hstep
  | drain =>
    simp only [LogDispatcher.step] at hstep
    split at hstep
    · next waiter hclosing =>
      split at hstep
      · cases hstep
      · next hresolved =>
        cases hstep
        exact .drained (Or.inr ⟨waiter, hclosing, hresolved⟩)
    · next hclosing =>
      cases hstep
      exact .drained (Or.inl hclosing)
    · cases hstep
    · cases hstep

theorem Accounts.step (h : Accounts O s) {event : Event} (hstep : s.step O event = some s') : Accounts O s' := by
  cases step_stepped hstep with
  | dispatched record => exact h.enqueue record false
  | ignored | closedAgain => exact h
  | flushed => exact h.flush
  | closed =>
    refine Accounts.flush ?_
    exact h.congr rfl rfl rfl rfl
  | begun | skipped => exact h.congr rfl rfl rfl rfl
  | started => exact h.takeNext
  | settled sink outcome stamps entry outstanding name =>
    refine Accounts.settleSink (Accounts.note_aside ?_ rfl) _ _ _ _
    exact h.congr rfl rfl rfl rfl
  | resumed stamps entry => exact h.complete entry stamps
  | drained => exact h.drain

theorem Accounts.reachable (h : Transitions.Reachable (LogDispatcher.step O) LogDispatcher.initial s) :
    Accounts O s :=
  h.invariant (fun _ _ _ hbooks hstep => hbooks.step hstep) (Accounts.initial O)

end LogDispatcher

end PlusOne
