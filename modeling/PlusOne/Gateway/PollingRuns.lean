import PlusOne.Gateway.Polling

/-! # Runs of the polling receiver -/

namespace PlusOne

open Transitions

/-! ## What a lifetime ends by -/

/-- What has happened where a lifetime ends: the signal, an error of the API, more failures in a row than are
retried, or a throw of the handler. -/
def PollingEnd.Caused (input : PollingInput) (s : PollingState) : PollingEnd → Prop
  | .aborted => s.aborted = true
  | .abortError => ∃ error ∈ s.failures.head?, isAbortError error
  | .invalidBotToken => ∃ error ∈ s.failures.head?, isInvalidBotTokenError error
  | .conflict => input.maxConflictRetries < s.failures.countP isPollingConflict
  | .network => input.maxNetworkRetries < s.failures.countP isTransientPollingError
  | .rethrown error => s.failures.head? = some error ∧ ¬isAbortError error ∧ ¬isInvalidBotTokenError error ∧
      ¬isTransientPollingError error
  | .handlerThrew updateId => updateId ∈ s.threw

/-- The retry counters count the failures in a row. -/
def FailuresCounted (input : PollingInput) (s : PollingState) : Prop :=
  match s.phase with
  | .clearing networkRetries | .clearingSleep networkRetries =>
    networkRetries = s.failures.countP isTransientPollingError
  | .polling conflictRetries networkRetries | .pollingSleep conflictRetries networkRetries =>
    conflictRetries = s.failures.countP isPollingConflict ∧
      networkRetries = s.failures.countP isTransientPollingError
  | .handling _ _ => s.failures = []
  | .ended reason => reason.Caused input s

theorem PollingEnd.Caused.abort {input : PollingInput} {s : PollingState} {reason : PollingEnd}
    (h : reason.Caused input s) : reason.Caused input { s with aborted := true } := by
  cases reason with
  | aborted => rfl
  | _ => exact h

theorem not_transient_of_conflict {error : PollingError} (h : isPollingConflict error = true) :
    isTransientPollingError error = false := by
  cases error with
  | telegramBotApiError code status => cases code <;> simp_all [isPollingConflict, isTransientPollingError]
  | error name => simp [isPollingConflict] at h
  | notAnError => rfl

section Counting

variable {input : PollingInput} {s : PollingState}

theorem failuresCounted_poll {conflictRetries networkRetries : Nat}
    (hconflicts : conflictRetries = s.failures.countP isPollingConflict)
    (hnetwork : networkRetries = s.failures.countP isTransientPollingError) :
    FailuresCounted input (s.poll conflictRetries networkRetries) := by
  unfold PollingState.poll
  split
  · next habort => exact habort
  · exact ⟨hconflicts, hnetwork⟩

theorem failuresCounted_webhookDone : FailuresCounted input s.webhookDone := failuresCounted_poll rfl rfl

theorem failuresCounted_handOver {rest : List Nat} (h : s.failures = []) :
    FailuresCounted input (s.handOver rest) := by
  cases rest with
  | nil => exact failuresCounted_poll (by simp [h]) (by simp [h])
  | cons updateId rest => exact h

theorem failuresCounted_webhookFailed {networkRetries : Nat} {error : PollingError}
    (h : networkRetries = s.failures.countP isTransientPollingError) :
    FailuresCounted input (s.webhookFailed input networkRetries error) := by
  unfold PollingState.webhookFailed
  split
  · exact failuresCounted_webhookDone
  · next habort =>
    split
    · next hinvalid => exact ⟨error, rfl, hinvalid⟩
    · next hinvalid =>
      split
      · next htransient => exact ⟨rfl, habort, hinvalid, by simpa using htransient⟩
      · next htransient =>
        have hcount : (error :: s.failures).countP isTransientPollingError = networkRetries + 1 := by
          rw [List.countP_cons_of_pos (by simpa using htransient), h]
        split
        · next hmax =>
          have hexhausted : input.maxNetworkRetries < (error :: s.failures).countP isTransientPollingError := by omega
          exact hexhausted
        · exact hcount.symm

theorem failuresCounted_pollFailed {conflictRetries networkRetries : Nat} {error : PollingError}
    (hconflicts : conflictRetries = s.failures.countP isPollingConflict)
    (hnetwork : networkRetries = s.failures.countP isTransientPollingError) :
    FailuresCounted input (s.pollFailed input conflictRetries networkRetries error) := by
  unfold PollingState.pollFailed
  dsimp only
  split
  · next habort => exact ⟨error, rfl, habort⟩
  · next habort =>
    split
    · next hinvalid => exact ⟨error, rfl, hinvalid⟩
    · next hinvalid =>
      split
      · next hconflict =>
        have hcount : (error :: s.failures).countP isPollingConflict = conflictRetries + 1 := by
          rw [List.countP_cons_of_pos hconflict, hconflicts]
        have hsame : (error :: s.failures).countP isTransientPollingError = networkRetries := by
          rw [List.countP_cons_of_neg (by simp [not_transient_of_conflict hconflict]), hnetwork]
        split
        · next hmax =>
          have hexhausted : input.maxConflictRetries < (error :: s.failures).countP isPollingConflict := by omega
          exact hexhausted
        · exact ⟨hcount.symm, hsame.symm⟩
      · next hconflict =>
        split
        · next htransient => exact ⟨rfl, habort, hinvalid, by simpa using htransient⟩
        · next htransient =>
          have hcount : (error :: s.failures).countP isTransientPollingError = networkRetries + 1 := by
            rw [List.countP_cons_of_pos (by simpa using htransient), hnetwork]
          have hsame : (error :: s.failures).countP isPollingConflict = conflictRetries := by
            rw [List.countP_cons_of_neg hconflict, hconflicts]
          split
          · next hmax =>
            have hexhausted : input.maxNetworkRetries < (error :: s.failures).countP isTransientPollingError := by omega
            exact hexhausted
          · exact ⟨hsame.symm, hcount.symm⟩

end Counting

theorem failuresCounted_step {input : PollingInput} {s t : PollingState} {event : PollingEvent}
    (h : FailuresCounted input s) (hstep : pollingStep input s event = some t) : FailuresCounted input t := by
  cases event with
  | arrive updateId =>
    simp only [pollingStep, Option.ite_none_right_eq_some, Option.some.injEq] at hstep
    obtain ⟨-, rfl⟩ := hstep
    exact h
  | abort =>
    cases hstep
    cases hphase : s.phase with
    | ended reason =>
      simp only [FailuresCounted, hphase] at h ⊢
      exact h.abort
    | _ => simpa [FailuresCounted, hphase] using h
  | webhook error =>
    simp only [pollingStep] at hstep
    split at hstep <;> cases hstep
    · exact failuresCounted_webhookDone
    · next hphase =>
      rw [FailuresCounted, hphase] at h
      exact failuresCounted_webhookFailed h
  | polled count =>
    simp only [pollingStep] at hstep
    split at hstep <;> cases hstep
    exact failuresCounted_handOver rfl
  | pollFailed error reached =>
    simp only [pollingStep] at hstep
    split at hstep <;> cases hstep
    next hphase =>
    rw [FailuresCounted, hphase] at h
    cases reached with
    | true => exact failuresCounted_pollFailed h.1 h.2
    | false => exact failuresCounted_pollFailed h.1 h.2
  | wake =>
    simp only [pollingStep] at hstep
    split at hstep <;> cases hstep
    · next hphase =>
      rw [FailuresCounted, hphase] at h
      unfold PollingState.clear
      split
      · next habort => exact habort
      · exact h
    · next hphase =>
      rw [FailuresCounted, hphase] at h
      exact failuresCounted_poll h.1 h.2
  | handled returns =>
    simp only [pollingStep] at hstep
    split at hstep <;> cases hstep
    next hphase =>
    rw [FailuresCounted, hphase] at h
    cases returns with
    | true => exact failuresCounted_handOver h
    | false => exact List.mem_append_right _ (List.mem_singleton_self _)
  | restart =>
    cases hstep
    exact rfl

/-! ## The order of the updates -/

/-- An offset that leaves no update behind: none at all, or the one after an update whose handling returned. -/
def OffsetSettled (returned : List Nat) (offset : Nat) : Prop := offset = 0 ∨ ∃ u ∈ returned, offset = u + 1

/-- The queue, the offsets and the updates of this lifetime, wherever the receiver is. -/
structure PollingKept (s : PollingState) : Prop where
  arrived : s.arrived.Pairwise (· < ·)
  known : ∀ q ∈ s.returned, q ∈ s.arrived
  waits : ∀ q ∈ s.returned, ∀ p ∈ s.arrived, p < q → p ∈ s.returned
  confirmed : OffsetSettled s.returned s.confirmed
  offset : OffsetSettled s.returned (s.offset.getD 0)
  asked : ∀ o ∈ s.asked, OffsetSettled s.returned o
  handed : s.handed.Pairwise (· < ·)

/-- The updates of an answer stand in the queue after updates whose handling returned. -/
def StandsNext (s : PollingState) (updates : List Nat) : Prop :=
  ∃ before after, s.arrived = before ++ updates ++ after ∧ ∀ p ∈ before, p ∈ s.returned

/-- Where the receiver is among the updates that it has handed over. -/
def PollingPosition (s : PollingState) : Prop :=
  match s.phase with
  | .handling updateId rest => StandsNext s (updateId :: rest) ∧ ∀ v ∈ s.handed, v ≤ updateId
  | .ended _ => True
  | _ => ∀ v ∈ s.handed, v < s.offset.getD 0

section Order

variable {s : PollingState}

theorem PollingKept.returned_of_lt (h : PollingKept s) {o p : Nat} (ho : OffsetSettled s.returned o) (hp : p ∈ s.arrived)
    (hlt : p < o) : p ∈ s.returned := by
  obtain rfl | ⟨u, hu, rfl⟩ := ho
  · omega
  · obtain rfl | hlt := Nat.eq_or_lt_of_le (Nat.le_of_lt_succ hlt)
    · exact hu
    · exact h.waits u hu p hp hlt

theorem PollingKept.of_eq (h : PollingKept s) {t : PollingState} (harrived : t.arrived = s.arrived)
    (hconfirmed : t.confirmed = s.confirmed) (hoffset : t.offset = s.offset) (hasked : t.asked = s.asked)
    (hhanded : t.handed = s.handed) (hreturned : t.returned = s.returned) : PollingKept t := by
  obtain ⟨harrived', hknown, hwaits, hconfirmed', hoffset', hasked', hhanded'⟩ := h
  constructor
  · rwa [harrived]
  · rwa [harrived, hreturned]
  · rwa [harrived, hreturned]
  · rwa [hreturned, hconfirmed]
  · rwa [hreturned, hoffset]
  · rwa [hreturned, hasked]
  · rwa [hhanded]

theorem PollingKept.poll (h : PollingKept s) (conflictRetries networkRetries : Nat) :
    PollingKept (s.poll conflictRetries networkRetries) := by
  unfold PollingState.poll
  split
  · exact h.of_eq rfl rfl rfl rfl rfl rfl
  · refine ⟨h.arrived, h.known, h.waits, h.confirmed, h.offset, ?_, h.handed⟩
    intro o ho
    obtain ho | ho := List.mem_append.1 ho
    · exact h.asked o ho
    · have hoffset : s.offset = some o := by simpa using ho
      simpa [hoffset] using h.offset

theorem pollingPosition_poll {conflictRetries networkRetries : Nat} (h : ∀ v ∈ s.handed, v < s.offset.getD 0) :
    PollingPosition (s.poll conflictRetries networkRetries) := by
  unfold PollingState.poll
  split
  · trivial
  · exact h

theorem PollingKept.handOver (h : PollingKept s) {updates : List Nat} (hbelow : ∀ v ∈ s.handed, ∀ u ∈ updates, v < u) :
    PollingKept (s.handOver updates) := by
  cases updates with
  | nil => exact h.poll 0 0
  | cons u rest =>
    refine ⟨h.arrived, h.known, h.waits, h.confirmed, h.offset, h.asked, ?_⟩
    have hlast : ∀ v ∈ s.handed, v < u := fun v hv => hbelow v hv u List.mem_cons_self
    simpa [PollingState.handOver, List.pairwise_append] using ⟨h.handed, hlast⟩

theorem pollingPosition_handOver {updates : List Nat} (hnext : StandsNext s updates)
    (hhanded : ∀ v ∈ s.handed, v < s.offset.getD 0) (hbelow : ∀ v ∈ s.handed, ∀ u ∈ updates, v < u) :
    PollingPosition (s.handOver updates) := by
  cases updates with
  | nil => exact pollingPosition_poll hhanded
  | cons u rest =>
    refine ⟨hnext, ?_⟩
    intro v hv
    obtain hv | hv := List.mem_append.1 hv
    · exact (hbelow v hv u List.mem_cons_self).le
    · exact (List.mem_singleton.1 hv).le

/-- The updates of a sorted queue from some id on are its last ones. -/
theorem filter_lt_append_filter_le {l : List Nat} (h : l.Pairwise (· < ·)) (c : Nat) :
    l = l.filter (fun id => id < c) ++ l.filter (fun id => c ≤ id) := by
  induction l with
  | nil => rfl
  | cons a l ih =>
    obtain ⟨ha, hl⟩ := List.pairwise_cons.1 h
    by_cases hac : a < c
    · simp only [hac, not_le.2 hac, List.filter_cons, decide_true, decide_false, if_true, List.cons_append,
        Bool.false_eq_true, if_false]
      rw [← ih hl]
    · have hnone : l.filter (fun id => id < c) = [] := by
        refine List.filter_eq_nil_iff.2 ?_
        intro b hb
        have hab := ha b hb
        simp only [decide_eq_true_eq]
        omega
      have hall : l.filter (fun id => c ≤ id) = l := by
        refine List.filter_eq_self.2 ?_
        intro b hb
        have hab := ha b hb
        simp only [decide_eq_true_eq]
        omega
      simp [hac, not_lt.1 hac, hnone, hall]

theorem PollingKept.next_due (h : PollingKept s) (count : Nat) : StandsNext s (s.due count) := by
  refine ⟨s.arrived.filter fun id => id < s.confirmed, (s.arrived.filter fun id => s.confirmed ≤ id).drop count, ?_, ?_⟩
  · rw [List.append_assoc, PollingState.due, List.take_append_drop]
    exact filter_lt_append_filter_le h.arrived s.confirmed
  · intro p hp
    obtain ⟨hp, hlt⟩ := List.mem_filter.1 hp
    exact h.returned_of_lt h.confirmed hp (by simpa using hlt)

theorem PollingKept.confirm (h : PollingKept s) : PollingKept s.confirm := by
  refine ⟨h.arrived, h.known, h.waits, ?_, h.offset, h.asked, h.handed⟩
  show OffsetSettled s.returned (max s.confirmed (s.offset.getD 0))
  rcases max_choice s.confirmed (s.offset.getD 0) with hmax | hmax
  · rw [hmax]
    exact h.confirmed
  · rw [hmax]
    exact h.offset

theorem le_of_mem_due_confirm {count u : Nat} (hu : u ∈ s.confirm.due count) : s.offset.getD 0 ≤ u := by
  obtain ⟨-, hle⟩ := List.mem_filter.1 (List.mem_of_mem_take hu)
  have hle : max s.confirmed (s.offset.getD 0) ≤ u := by simpa [PollingState.confirm] using hle
  exact (le_max_right _ _).trans hle

theorem PollingKept.polled (h : PollingKept s) (hhanded : ∀ v ∈ s.handed, v < s.offset.getD 0) (count : Nat) :
    PollingKept (s.polled count) ∧ PollingPosition (s.polled count) := by
  have hconfirm : PollingKept { s.confirm with failures := [] } := h.confirm.of_eq rfl rfl rfl rfl rfl rfl
  have hbelow : ∀ v ∈ s.handed, ∀ u ∈ PollingState.due { s.confirm with failures := [] } count, v < u := by
    intro v hv u hu
    have hlt := hhanded v hv
    have hle : s.offset.getD 0 ≤ u := le_of_mem_due_confirm hu
    omega
  exact ⟨hconfirm.handOver hbelow, pollingPosition_handOver (hconfirm.next_due count) hhanded hbelow⟩

/-- Where the handling of an update returns, the receiver goes on with the next one of the answer. -/
theorem PollingKept.handlingReturned (h : PollingKept s) {u : Nat} {rest : List Nat} (hnext : StandsNext s (u :: rest))
    (hhanded : ∀ v ∈ s.handed, v ≤ u) :
    PollingKept (s.handlingReturned u rest) ∧ PollingPosition (s.handlingReturned u rest) := by
  obtain ⟨before, after, harrived, hbefore⟩ := hnext
  have hsorted := h.arrived
  rw [harrived, List.append_assoc, List.pairwise_append] at hsorted
  obtain ⟨-, hsorted, hfirst⟩ := hsorted
  have hrest : ∀ v ∈ rest ++ after, u < v := (List.pairwise_cons.1 hsorted).1
  have hmem : ∀ p, p ∈ s.arrived ↔ p ∈ before ∨ p = u ∨ p ∈ rest ++ after := by
    intro p
    rw [harrived]
    simp
  let next : PollingState := { s with offset := some (u + 1), returned := s.returned ++ [u] }
  have hkept : PollingKept next := by
    have hsettled : ∀ o, OffsetSettled s.returned o → OffsetSettled (s.returned ++ [u]) o := by
      rintro o (rfl | ⟨v, hv, rfl⟩)
      · exact .inl rfl
      · exact .inr ⟨v, List.mem_append_left _ hv, rfl⟩
    refine ⟨h.arrived, ?_, ?_, hsettled _ h.confirmed, .inr ⟨u, List.mem_append_right _ (List.mem_singleton_self u), rfl⟩,
      fun o ho => hsettled o (h.asked o ho), h.handed⟩
    · intro q hq
      obtain hq | hq := List.mem_append.1 hq
      · exact h.known q hq
      · exact (hmem q).2 (.inr (.inl (List.mem_singleton.1 hq)))
    · intro q hq p hp hlt
      obtain hq | hq := List.mem_append.1 hq
      · exact List.mem_append_left _ (h.waits q hq p hp hlt)
      · obtain rfl := List.mem_singleton.1 hq
        obtain hp | rfl | hp := (hmem p).1 hp
        · exact List.mem_append_left _ (hbefore p hp)
        · exact absurd hlt (lt_irrefl _)
        · have hgt := hrest p hp
          omega
  have hbelow : ∀ v ∈ next.handed, ∀ w ∈ rest, v < w := by
    intro v hv w hw
    have hle := hhanded v hv
    have hlt := hrest w (List.mem_append_left _ hw)
    omega
  have hposition : StandsNext next rest := by
    refine ⟨before ++ [u], after, by simp [next, harrived], ?_⟩
    intro p hp
    obtain hp | hp := List.mem_append.1 hp
    · exact List.mem_append_left _ (hbefore p hp)
    · exact List.mem_append_right _ hp
  refine ⟨hkept.handOver hbelow, pollingPosition_handOver hposition ?_ hbelow⟩
  intro v hv
  exact Nat.lt_succ_of_le (hhanded v hv)

theorem PollingKept.webhookDone (h : PollingKept s) (hhanded : ∀ v ∈ s.handed, v < s.offset.getD 0) :
    PollingKept s.webhookDone ∧ PollingPosition s.webhookDone :=
  ⟨(h.of_eq (t := { s with failures := [] }) rfl rfl rfl rfl rfl rfl).poll 0 0, pollingPosition_poll hhanded⟩

theorem PollingKept.webhookFailed (h : PollingKept s) (hhanded : ∀ v ∈ s.handed, v < s.offset.getD 0)
    (input : PollingInput) (networkRetries : Nat) (error : PollingError) :
    PollingKept (s.webhookFailed input networkRetries error) ∧
      PollingPosition (s.webhookFailed input networkRetries error) := by
  unfold PollingState.webhookFailed
  split
  · exact h.webhookDone hhanded
  split
  · exact ⟨h.of_eq rfl rfl rfl rfl rfl rfl, trivial⟩
  split
  · exact ⟨h.of_eq rfl rfl rfl rfl rfl rfl, trivial⟩
  split
  · exact ⟨h.of_eq rfl rfl rfl rfl rfl rfl, trivial⟩
  · exact ⟨h.of_eq rfl rfl rfl rfl rfl rfl, hhanded⟩

theorem PollingKept.pollFailed (h : PollingKept s) (hhanded : ∀ v ∈ s.handed, v < s.offset.getD 0)
    (input : PollingInput) (conflictRetries networkRetries : Nat) (error : PollingError) :
    PollingKept (s.pollFailed input conflictRetries networkRetries error) ∧
      PollingPosition (s.pollFailed input conflictRetries networkRetries error) := by
  unfold PollingState.pollFailed
  dsimp only
  split
  · exact ⟨h.of_eq rfl rfl rfl rfl rfl rfl, trivial⟩
  split
  · exact ⟨h.of_eq rfl rfl rfl rfl rfl rfl, trivial⟩
  split
  · split
    · exact ⟨h.of_eq rfl rfl rfl rfl rfl rfl, trivial⟩
    · exact ⟨h.of_eq rfl rfl rfl rfl rfl rfl, hhanded⟩
  split
  · exact ⟨h.of_eq rfl rfl rfl rfl rfl rfl, trivial⟩
  split
  · exact ⟨h.of_eq rfl rfl rfl rfl rfl rfl, trivial⟩
  · exact ⟨h.of_eq rfl rfl rfl rfl rfl rfl, hhanded⟩

theorem PollingKept.arrive (h : PollingKept s) {updateId : Nat} (hlast : ∀ p ∈ s.arrived, p < updateId) :
    PollingKept { s with arrived := s.arrived ++ [updateId] } := by
  refine ⟨?_, fun q hq => List.mem_append_left _ (h.known q hq), ?_, h.confirmed, h.offset, h.asked, h.handed⟩
  · simpa [List.pairwise_append] using ⟨h.arrived, hlast⟩
  · intro q hq p hp hlt
    obtain hp | hp := List.mem_append.1 hp
    · exact h.waits q hq p hp hlt
    · have hq := hlast q (h.known q hq)
      rw [List.mem_singleton.1 hp] at hlt
      omega

theorem pollingPosition_arrive (h : PollingPosition s) (updateId : Nat) :
    PollingPosition { s with arrived := s.arrived ++ [updateId] } := by
  unfold PollingPosition at h ⊢
  split
  · next hphase =>
    rw [hphase] at h
    obtain ⟨⟨before, after, harrived, hbefore⟩, hhanded⟩ := h
    refine ⟨⟨before, after ++ [updateId], ?_, hbefore⟩, hhanded⟩
    simp [harrived]
  · trivial
  · next hhandling hended =>
    cases hphase : s.phase with
    | handling u rest => exact absurd hphase (hhandling u rest)
    | ended reason => exact absurd hphase (hended reason)
    | _ => simpa [hphase] using h

theorem PollingKept.step {input : PollingInput} {t : PollingState} {event : PollingEvent} (h : PollingKept s)
    (hposition : PollingPosition s) (hstep : pollingStep input s event = some t) :
    PollingKept t ∧ PollingPosition t := by
  cases event with
  | arrive updateId =>
    simp only [pollingStep, Option.ite_none_right_eq_some, Option.some.injEq] at hstep
    obtain ⟨hlast, rfl⟩ := hstep
    exact ⟨h.arrive (by simpa using hlast), pollingPosition_arrive hposition updateId⟩
  | abort =>
    cases hstep
    exact ⟨h.of_eq rfl rfl rfl rfl rfl rfl, hposition⟩
  | webhook error =>
    simp only [pollingStep] at hstep
    split at hstep <;> cases hstep
    · next hphase =>
      rw [PollingPosition, hphase] at hposition
      exact h.webhookDone hposition
    · next hphase =>
      rw [PollingPosition, hphase] at hposition
      exact h.webhookFailed hposition _ _ _
  | polled count =>
    simp only [pollingStep] at hstep
    split at hstep <;> cases hstep
    next hphase =>
    rw [PollingPosition, hphase] at hposition
    exact h.polled hposition count
  | pollFailed error reached =>
    simp only [pollingStep] at hstep
    split at hstep <;> cases hstep
    next hphase =>
    rw [PollingPosition, hphase] at hposition
    cases reached with
    | true => exact h.confirm.pollFailed hposition _ _ _ _
    | false => exact h.pollFailed hposition _ _ _ _
  | wake =>
    simp only [pollingStep] at hstep
    split at hstep <;> cases hstep
    · next hphase =>
      rw [PollingPosition, hphase] at hposition
      unfold PollingState.clear
      split
      · exact ⟨h.of_eq rfl rfl rfl rfl rfl rfl, trivial⟩
      · exact ⟨h.of_eq rfl rfl rfl rfl rfl rfl, hposition⟩
    · next hphase =>
      rw [PollingPosition, hphase] at hposition
      exact ⟨h.poll _ _, pollingPosition_poll hposition⟩
  | handled returns =>
    simp only [pollingStep] at hstep
    split at hstep <;> cases hstep
    next hphase =>
    rw [PollingPosition, hphase] at hposition
    cases returns with
    | true => exact h.handlingReturned hposition.1 hposition.2
    | false => exact ⟨h.of_eq rfl rfl rfl rfl rfl rfl, trivial⟩
  | restart =>
    cases hstep
    exact ⟨⟨h.arrived, h.known, h.waits, h.confirmed, .inl rfl, by simp [PollingState.restart],
      by simp [PollingState.restart]⟩, by simp [PollingPosition, PollingState.restart]⟩

end Order

/-! ## Updates that are handled in the end -/

/-- When the handler returns for every update of an answer, all of them have been handled. -/
theorem exists_returned_of_handOver (input : PollingInput) {s : PollingState} (updates : List Nat) :
    ∃ t, Reachable (pollingStep input) (s.handOver updates) t ∧ (∀ u ∈ updates, u ∈ t.returned) ∧
      ∀ u ∈ s.returned, u ∈ t.returned := by
  induction updates generalizing s with
  | nil =>
    refine ⟨s.handOver [], .refl, by simp, ?_⟩
    intro u hu
    simp only [PollingState.handOver, PollingState.poll]
    split <;> exact hu
  | cons u rest ih =>
    let next : PollingState :=
      { s.handOver (u :: rest) with offset := some (u + 1), returned := s.returned ++ [u] }
    obtain ⟨t, hreach, hrest, hkeeps⟩ := ih (s := next)
    have hstep : pollingStep input (s.handOver (u :: rest)) (.handled true) = some (next.handOver rest) := rfl
    refine ⟨t, (Reachable.refl.next hstep).trans hreach, ?_, fun v hv => hkeeps v (List.mem_append_left _ hv)⟩
    intro v hv
    obtain rfl | hv := List.mem_cons.1 hv
    · exact hkeeps v (List.mem_append_right _ (List.mem_singleton_self v))
    · exact hrest v hv

/-- After a restart an answer brings every update that has not been handled. -/
theorem PollingKept.exists_returned {input : PollingInput} {s : PollingState} (h : PollingKept s) :
    ∃ t, Reachable (pollingStep input) s t ∧ ∀ u ∈ s.arrived, u ∈ t.returned := by
  let polling : PollingState := s.restart.webhookDone
  let answered : PollingState := { polling.confirm with failures := [] }
  have hrestart : pollingStep input s .restart = some s.restart := rfl
  have hwebhook : pollingStep input s.restart (.webhook none) = some polling := rfl
  have hpolled : pollingStep input polling (.polled s.arrived.length) =
      some (answered.handOver (answered.due s.arrived.length)) := rfl
  obtain ⟨t, hreach, hdue, hkeeps⟩ :=
    exists_returned_of_handOver input (s := answered) (answered.due s.arrived.length)
  refine ⟨t, (((Reachable.refl.next hrestart).next hwebhook).next hpolled).trans hreach, ?_⟩
  intro u hu
  by_cases hconfirmed : u < s.confirmed
  · exact hkeeps u (h.returned_of_lt h.confirmed hu hconfirmed)
  · refine hdue u ?_
    have hlength : (s.arrived.filter fun id => s.confirmed ≤ id).length ≤ s.arrived.length := List.length_filter_le _ _
    have hall : answered.due s.arrived.length = s.arrived.filter fun id => s.confirmed ≤ id := by
      rw [← List.take_of_length_le hlength]
      simp [answered, polling, PollingState.due, PollingState.confirm, PollingState.webhookDone, PollingState.poll,
        PollingState.restart]
    rw [hall]
    exact List.mem_filter.2 ⟨hu, by simpa using hconfirmed⟩

/-! ## What holds in every state -/

section Arrived

variable (input : PollingInput) (s : PollingState)

@[simp] theorem arrived_poll (conflictRetries networkRetries : Nat) :
    (s.poll conflictRetries networkRetries).arrived = s.arrived := by
  unfold PollingState.poll
  split <;> rfl

@[simp] theorem arrived_clear (networkRetries : Nat) : (s.clear networkRetries).arrived = s.arrived := by
  unfold PollingState.clear
  split <;> rfl

@[simp] theorem arrived_webhookDone : s.webhookDone.arrived = s.arrived := arrived_poll _ 0 0

@[simp] theorem arrived_confirm : s.confirm.arrived = s.arrived := rfl

@[simp] theorem arrived_handOver (updates : List Nat) : (s.handOver updates).arrived = s.arrived := by
  cases updates with
  | nil => exact arrived_poll s 0 0
  | cons u rest => rfl

@[simp] theorem arrived_webhookFailed (networkRetries : Nat) (error : PollingError) :
    (s.webhookFailed input networkRetries error).arrived = s.arrived := by
  unfold PollingState.webhookFailed
  split
  · exact arrived_webhookDone s
  · dsimp only
    repeat' split
    all_goals rfl

@[simp] theorem arrived_pollFailed (conflictRetries networkRetries : Nat) (error : PollingError) :
    (s.pollFailed input conflictRetries networkRetries error).arrived = s.arrived := by
  unfold PollingState.pollFailed
  dsimp only
  repeat' split
  all_goals rfl

@[simp] theorem arrived_polled (count : Nat) : (s.polled count).arrived = s.arrived := arrived_handOver _ _

@[simp] theorem arrived_handlingReturned (u : Nat) (rest : List Nat) :
    (s.handlingReturned u rest).arrived = s.arrived := arrived_handOver _ _

/-- Telegram forgets no update. -/
theorem arrived_subset_step {t : PollingState} {event : PollingEvent} (h : pollingStep input s event = some t) :
    s.arrived ⊆ t.arrived := by
  cases event with
  | arrive updateId =>
    simp only [pollingStep, Option.ite_none_right_eq_some, Option.some.injEq] at h
    obtain ⟨-, rfl⟩ := h
    exact List.subset_append_left _ _
  | abort =>
    cases h
    exact List.Subset.refl _
  | webhook error =>
    simp only [pollingStep] at h
    split at h <;> cases h <;> simp
  | polled count =>
    simp only [pollingStep] at h
    split at h <;> cases h
    simp
  | pollFailed error reached =>
    simp only [pollingStep] at h
    split at h <;> cases h
    cases reached <;> simp
  | wake =>
    simp only [pollingStep] at h
    split at h <;> cases h <;> simp
  | handled returns =>
    simp only [pollingStep] at h
    split at h <;> cases h
    cases returns with
    | true => simp
    | false => exact List.Subset.refl _
  | restart =>
    cases h
    exact List.Subset.refl _

end Arrived

/-- The laws of polling: within a lifetime the updates are handed over in order, each at most once, and no
offset asked for leaves an update behind; a lifetime ends by what has caused it; an update whose handling has
not returned is behind no update whose handling has, and can still be handled. -/
structure PollingLaws (input : PollingInput) (s : PollingState) : Prop where
  ordered : s.handed.Pairwise (· < ·)
  asked : ∀ o ∈ s.asked, ∀ u ∈ s.arrived, u < o → u ∈ s.returned
  ends : ∀ reason, s.phase = .ended reason → reason.Caused input s
  waits : ∀ q ∈ s.returned, ∀ p ∈ s.arrived, p < q → p ∈ s.returned
  handled : ∃ t, Reachable (pollingStep input) s t ∧ ∀ u ∈ s.arrived, u ∈ t.returned

theorem telegramPolling_keeps_laws (input : PollingInput) {s : PollingState} (h : Reachable (pollingStep input) {} s) :
    PollingLaws input s := by
  have hinvariant : (FailuresCounted input s ∧ PollingKept s) ∧ PollingPosition s := by
    refine h.invariant (P := fun s => (FailuresCounted input s ∧ PollingKept s) ∧ PollingPosition s) ?_ ?_
    · rintro s event t ⟨⟨hcounted, hkept⟩, hposition⟩ hstep
      obtain ⟨hkept, hposition⟩ := hkept.step hposition hstep
      exact ⟨⟨failuresCounted_step hcounted hstep, hkept⟩, hposition⟩
    · refine ⟨⟨rfl, ?_⟩, by simp [PollingPosition]⟩
      constructor <;> simp [OffsetSettled]
  obtain ⟨⟨hcounted, hkept⟩, -⟩ := hinvariant
  refine ⟨hkept.handed, ?_, ?_, hkept.waits, hkept.exists_returned⟩
  · intro o ho u hu hlt
    exact hkept.returned_of_lt (hkept.asked o ho) hu hlt
  · intro reason hphase
    rw [FailuresCounted, hphase] at hcounted
    exact hcounted

/-- The first of two updates throws. -/
def poisoned : PollingState :=
  { arrived := [1, 2], phase := .ended (.handlerThrew 1), handed := [1], threw := [1] }

theorem reachable_poisoned : Reachable (pollingStep {}) {} poisoned :=
  ⟨[.arrive 1, .arrive 2, .webhook none, .polled 2, .handled false], rfl⟩

theorem telegramPolling_keeps_laws_poisoned : PollingLaws {} poisoned :=
  telegramPolling_keeps_laws {} reachable_poisoned

/-- A throw of the handler ends the lifetime, and in no lifetime is the second update handled before the first. -/
theorem telegramPolling_stops_at_throw : Reachable (pollingStep {}) {} poisoned ∧
    poisoned.phase = .ended (.handlerThrew 1) ∧
    ∀ t, Reachable (pollingStep {}) poisoned t → 1 ∉ t.returned → 2 ∉ t.returned := by
  refine ⟨reachable_poisoned, rfl, ?_⟩
  intro t hreach hthrows hreturned
  have hkept : PollingKept t ∧ PollingPosition t ∧ 1 ∈ t.arrived := by
    refine hreach.invariant (P := fun t => PollingKept t ∧ PollingPosition t ∧ 1 ∈ t.arrived) ?_ ?_
    · rintro s event t ⟨hkept, hposition, hmem⟩ hstep
      obtain ⟨hkept, hposition⟩ := hkept.step hposition hstep
      exact ⟨hkept, hposition, arrived_subset_step {} s hstep hmem⟩
    · refine ⟨?_, trivial, by simp [poisoned]⟩
      constructor <;> simp [poisoned, OffsetSettled]
  exact hthrows (hkept.1.waits 2 hreturned 1 hkept.2.2 (by decide))

end PlusOne
