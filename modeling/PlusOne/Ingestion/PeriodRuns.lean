import PlusOne.Ingestion.Periods
import PlusOne.Mutations.Review
import PlusOne.Reporting.Rebuild

/-! # The history of a period

Closings and reopenings take turns on a period, whatever else happens between them, and the status
of the period is what the latest of them left. -/

namespace PlusOne

open Relational ReconciliationRepository PeriodCloseService

/-- What registering a command that needs a confirmation has checked: the household has the
proposal, and it has the confirmation. -/
def Registered (artifacts : List ArtifactEnvelope) (confirmations : List ConfirmationRow)
    (command : CheckedCommand) : Prop :=
  (∃ artifact ∈ artifacts, artifact.householdId = command.householdId ∧
    artifact.artifactId = command.checkedProposalId) ∧
  ∃ confirmation ∈ confirmations, confirmation.householdId = command.householdId ∧
    command.confirmationId = some confirmation.confirmationId

/-! ## One period -/

/-- The events of a period in the order of their dates, and its status after them. -/
structure PeriodHistory (events : List PeriodEventRow) (isOpen : Bool) : Prop where
  alternating : ∀ i event, events[i]? = some event →
    event.eventType = if i % 2 = 0 then .closed else .reopened
  referring : ∀ i event, events[i]? = some event → event.eventType = .reopened →
    ∃ before, events[i - 1]? = some before ∧ event.priorEventId = some before.periodEventId
  status : isOpen = decide (events.length % 2 = 0)

namespace PeriodHistory

variable {events : List PeriodEventRow} {event : PeriodEventRow}

theorem nil : PeriodHistory [] true := ⟨by simp, by simp, by simp⟩

theorem getElem?_concat {i : Nat} {found : PeriodEventRow} (h : (events ++ [event])[i]? = some found) :
    events[i]? = some found ∨ i = events.length ∧ found = event := by
  rcases Nat.lt_trichotomy i events.length with hi | hi | hi
  · rw [List.getElem?_append_left hi] at h
    exact .inl h
  · subst hi
    simp at h
    exact .inr ⟨rfl, h.symm⟩
  · have hlen : (events ++ [event]).length ≤ i := by simp; omega
    simp [List.getElem?_eq_none hlen] at h

theorem getElem?_append {i : Nat} {found : PeriodEventRow} (h : events[i]? = some found) :
    (events ++ [event])[i]? = some found := by
  have hi : i < events.length := (List.getElem?_eq_some_iff.1 h).1
  rw [List.getElem?_append_left hi, h]

/-- A closing ends the history of an open period. -/
theorem close (h : PeriodHistory events true) (hclosed : event.eventType = .closed) :
    PeriodHistory (events ++ [event]) false := by
  have heven : events.length % 2 = 0 := by simpa using h.status
  constructor
  · intro i found hfound
    rcases getElem?_concat hfound with hold | ⟨rfl, rfl⟩
    · exact h.alternating i found hold
    · rw [if_pos heven, hclosed]
  · intro i found hfound hreopened
    rcases getElem?_concat hfound with hold | ⟨rfl, rfl⟩
    · obtain ⟨before, hbefore, hprior⟩ := h.referring i found hold hreopened
      exact ⟨before, getElem?_append hbefore, hprior⟩
    · rw [hclosed] at hreopened
      cases hreopened
  · simp
    omega

/-- A reopening of the latest closing ends the history of a closed one. -/
theorem reopen {latest : PeriodEventRow} (h : PeriodHistory events false)
    (hreopened : event.eventType = .reopened) (hlatest : events.getLast? = some latest)
    (hprior : event.priorEventId = some latest.periodEventId) : PeriodHistory (events ++ [event]) true := by
  have hodd : events.length % 2 = 1 := by simpa using h.status
  rw [List.getLast?_eq_getElem?] at hlatest
  constructor
  · intro i found hfound
    rcases getElem?_concat hfound with hold | ⟨rfl, rfl⟩
    · exact h.alternating i found hold
    · rw [if_neg (by omega), hreopened]
  · intro i found hfound htype
    rcases getElem?_concat hfound with hold | ⟨rfl, rfl⟩
    · obtain ⟨before, hbefore, hold⟩ := h.referring i found hold htype
      exact ⟨before, getElem?_append hbefore, hold⟩
    · exact ⟨latest, getElem?_append hlatest, hprior⟩
  · simp
    omega

/-- The period is closed just when the latest event closed it. -/
theorem closed_iff {isOpen : Bool} (h : PeriodHistory events isOpen) :
    isOpen = false ↔ ∃ latest, events.getLast? = some latest ∧ latest.eventType = .closed := by
  have hstatus := h.status
  rw [List.getLast?_eq_getElem?]
  constructor
  · intro hclosed
    have hodd : events.length % 2 = 1 := by simpa [hclosed] using hstatus
    have hlt : events.length - 1 < events.length := by omega
    have hlast := List.getElem?_eq_getElem hlt
    have htype := h.alternating _ _ hlast
    rw [if_pos (by omega)] at htype
    exact ⟨_, hlast, htype⟩
  · rintro ⟨latest, hlatest, hclosed⟩
    have hlt : events.length - 1 < events.length := (List.getElem?_eq_some_iff.1 hlatest).1
    have htype := h.alternating _ _ hlatest
    rw [hclosed] at htype
    split_ifs at htype with heven
    have hodd : events.length % 2 ≠ 0 := by omega
    simpa [hodd] using hstatus

end PeriodHistory

/-! ## The tables -/

namespace IngestionDb

/-- What the unique indexes and references of the tables promise. -/
structure Keyed (d : IngestionDb) : Prop where
  artifacts : Distinct ArtifactEnvelope.artifactId d.artifacts
  periods : Distinct PeriodRow.key d.periods
  events : ∀ event ∈ d.periodEvents, ∃ period ∈ d.periods, period.key = event.toPeriodKey

/-- The tables as the commands on periods leave them. -/
structure Settled (d : IngestionDb) : Prop extends Keyed d where
  dated : Dated PeriodEventRow.createdAt d.now d.periodEvents
  history : ∀ period ∈ d.periods, PeriodHistory (d.eventsOf period.key) period.isOpen
  confirmed : ∀ event ∈ d.periodEvents, event.eventType = .reopened →
    ∃ confirmation ∈ d.confirmations, confirmation.householdId = event.householdId ∧
      event.confirmationId = some confirmation.confirmationId

/-- Whatever else is committed: it records no event and moves no period. -/
structure OtherChange (d d' : IngestionDb) : Prop where
  keyed : d'.Keyed
  events : d'.periodEvents = d.periodEvents
  periods : ∃ opened, d'.periods = d.periods ++ opened ∧ ∀ period ∈ opened, period.isOpen = true
  confirmations : d.confirmations ⊆ d'.confirmations
  clock : d.now ≤ d'.now

variable {d d' : IngestionDb} {event : PeriodEventFacts} {isOpen : Bool}

theorem eventsOf_recordEvent (key : PeriodKey) :
    (recordEvent d event isOpen).eventsOf key =
      d.eventsOf key ++ if event.toPeriodKey = key then [joinedEvent d event] else [] := by
  unfold eventsOf recordEvent
  rw [List.filter_append]
  congr 1
  by_cases hkey : event.toPeriodKey = key <;> simp [joinedEvent, hkey]

theorem keys_recordEvent :
    (recordEvent d event isOpen).periods.map PeriodRow.key = d.periods.map PeriodRow.key := by
  unfold recordEvent
  simp only [List.map_map]
  apply List.map_congr_left
  intro old _
  by_cases hold : old.key = event.toPeriodKey
  · simp only [Function.comp_apply, if_pos hold]
    rfl
  · simp only [Function.comp_apply, if_neg hold]

theorem Settled.latest (h : d.Settled) (key : PeriodKey) :
    readLatestPeriodEvent d key = (d.eventsOf key).getLast? := (h.dated.filter _).latest

theorem mem_eventsOf {key : PeriodKey} {event : PeriodEventRow} :
    event ∈ d.eventsOf key ↔ event ∈ d.periodEvents ∧ event.toPeriodKey = key := by
  simp [eventsOf]

/-- A recorded event extends the history of its period and leaves those of the others. -/
theorem Settled.recordEvent {period : PeriodRow} (h : d.Settled) (hperiod : d.findPeriod event.toPeriodKey = some period)
    (hhistory : PeriodHistory (d.eventsOf event.toPeriodKey ++ [joinedEvent d event]) isOpen)
    (hconfirmed : event.eventType = .reopened → ∃ confirmation ∈ d.confirmations,
      confirmation.householdId = event.householdId ∧
        (joinedEvent d event).confirmationId = some confirmation.confirmationId) :
    (recordEvent d event isOpen).Settled := by
  obtain ⟨hmem, hkey⟩ := find_some hperiod
  have hfound : ∀ old ∈ d.periods, ∃ new ∈ (ReconciliationRepository.recordEvent d event isOpen).periods,
      new.key = old.key := by
    intro old hold
    have hmapped : old.key ∈ (ReconciliationRepository.recordEvent d event isOpen).periods.map PeriodRow.key := by
      rw [keys_recordEvent]
      exact List.mem_map_of_mem hold
    exact List.mem_map.1 hmapped
  have hdated : Dated PeriodEventRow.createdAt (d.now + 1) (d.periodEvents ++ [joinedEvent d event]) :=
    h.dated.append rfl (Nat.lt_succ_self _)
  refine ⟨⟨h.artifacts, ?_, ?_⟩, hdated, ?_, ?_⟩
  · unfold Distinct
    rw [keys_recordEvent]
    exact h.periods
  · intro old hold
    rcases List.mem_append.1 hold with hold | hold
    · obtain ⟨period, hperiod, heq⟩ := h.events old hold
      obtain ⟨new, hnew, hsame⟩ := hfound period hperiod
      exact ⟨new, hnew, hsame.trans heq⟩
    · obtain ⟨new, hnew, hsame⟩ := hfound period hmem
      rw [List.mem_singleton.1 hold]
      exact ⟨new, hnew, hsame.trans hkey⟩
  · intro new hnew
    obtain ⟨old, hold, rfl⟩ := List.mem_map.1 hnew
    by_cases hsame : old.key = event.toPeriodKey
    · rw [if_pos hsame, eventsOf_recordEvent]
      have hnewkey : PeriodRow.key { old with isOpen } = event.toPeriodKey := hsame
      rw [hnewkey, if_pos rfl]
      exact hhistory
    · rw [if_neg hsame, eventsOf_recordEvent, if_neg (Ne.symm hsame), List.append_nil]
      exact h.history old hold
  · intro old hold hreopened
    rcases List.mem_append.1 hold with hold | hold
    · exact h.confirmed old hold hreopened
    · rw [List.mem_singleton.1 hold] at hreopened ⊢
      exact hconfirmed hreopened

theorem Settled.close {proposal : PeriodCloseProposal} {context : CheckedCommand}
    {periodEventId : PeriodEventId} {output : PeriodOutput} (h : d.Settled)
    (hclose : close d proposal context periodEventId = .ok (output, d')) : d'.Settled := by
  obtain ⟨period, hperiod, hopen, -, rfl⟩ := close_ok hclose
  obtain ⟨hmem, hkey⟩ := find_some hperiod
  have hhistory := h.history period hmem
  rw [hkey, hopen] at hhistory
  apply h.recordEvent hperiod (hhistory.close rfl)
  intro hreopened
  cases hreopened

theorem Settled.reopen {proposal : PeriodReopenProposal} {context : CheckedCommand}
    {periodEventId : PeriodEventId} {output : PeriodOutput} (h : d.Settled)
    (hregistered : Registered d.artifacts d.confirmations context)
    (hreopen : reopen d proposal context periodEventId = .ok (output, d')) : d'.Settled := by
  obtain ⟨-, ⟨latest, hlatest, hclosed, hid⟩, ⟨artifact, hartifact, hhousehold, hproposal⟩, rfl⟩ :=
    reopen_ok hreopen
  obtain ⟨⟨own, hown, hownHousehold, hownId⟩, confirmation, hconfirmation, hconfirmationHousehold, hnamed⟩ :=
    hregistered
  rw [h.latest] at hlatest
  have hmem : latest ∈ d.eventsOf proposal.toPeriodKey := List.mem_of_getLast? hlatest
  obtain ⟨hevent, hkey⟩ := mem_eventsOf.1 hmem
  -- the proposal is in the command's household: an artifact has one
  have hsame : artifact = own := 
    List.inj_on_of_nodup_map h.artifacts hartifact hown (hproposal.trans hownId.symm)
  have hcommand : context.householdId = proposal.householdId := by
    rw [← hownHousehold, ← hsame, hhousehold]
  obtain ⟨period, hperiodMem, hperiodKey⟩ := h.events latest hevent
  rw [hkey] at hperiodKey
  have hperiod : d.findPeriod proposal.toPeriodKey = some period := by
    unfold findPeriod
    rw [← hperiodKey]
    exact h.periods.find_eq hperiodMem
  have hhistory := h.history period hperiodMem
  rw [hperiodKey] at hhistory
  have hstatus : period.isOpen = false := hhistory.closed_iff.2 ⟨latest, hlatest, hclosed⟩
  rw [hstatus] at hhistory
  have hprior : (joinedEvent d (reopenEvent proposal context periodEventId)).priorEventId =
      some latest.periodEventId := by
    have hjoined : ∃ event ∈ d.periodEvents, event.householdId = proposal.householdId ∧
        event.periodEventId = proposal.priorCloseEventId := ⟨latest, hevent, by rw [← hkey], hid⟩
    rw [hid]
    simpa [joinedEvent, joinPrior, reopenEvent] using hjoined
  apply h.recordEvent hperiod (hhistory.reopen rfl hlatest hprior)
  intro _
  have hconfirmed : confirmation.householdId = proposal.householdId := by
    rw [hconfirmationHousehold, hcommand]
  refine ⟨confirmation, hconfirmation, hconfirmed, ?_⟩
  have hjoined : ∃ row ∈ d.confirmations, row.householdId = proposal.householdId ∧
      row.confirmationId = confirmation.confirmationId := ⟨confirmation, hconfirmation, hconfirmed, rfl⟩
  simpa [joinedEvent, joinConfirmation, reopenEvent, hnamed] using hjoined

theorem Settled.other (h : d.Settled) (hother : d.OtherChange d') : d'.Settled := by
  obtain ⟨opened, hperiods, hopened⟩ := hother.periods
  have hevents : ∀ key, d'.eventsOf key = d.eventsOf key := by
    intro key
    unfold eventsOf
    rw [hother.events]
  refine ⟨hother.keyed, ?_, ?_, ?_⟩
  · rw [hother.events]
    exact h.dated.mono hother.clock
  · intro period hperiod
    rw [hevents]
    rw [hperiods] at hperiod
    rcases List.mem_append.1 hperiod with hold | hnew
    · exact h.history period hold
    · -- no event refers to a period before it is there
      have hnone : d.eventsOf period.key = [] := by
        rw [List.eq_nil_iff_forall_not_mem]
        intro event hevent
        obtain ⟨hmem, hkey⟩ := mem_eventsOf.1 hevent
        obtain ⟨old, hold, holdKey⟩ := h.events event hmem
        have hdistinct := hother.keyed.periods
        rw [Distinct, hperiods, List.map_append, List.nodup_append] at hdistinct
        exact hdistinct.2.2 _ (List.mem_map_of_mem hold) _ (List.mem_map_of_mem hnew) (holdKey.trans hkey)
      rw [hnone, hopened period hnew]
      exact .nil
  · intro event hevent hreopened
    rw [hother.events] at hevent
    obtain ⟨confirmation, hconfirmation, hjoined⟩ := h.confirmed event hevent hreopened
    exact ⟨confirmation, hother.confirmations hconfirmation, hjoined⟩

/-- The tables before any period was closed. -/
structure Unused (d : IngestionDb) : Prop extends Keyed d where
  opened : ∀ period ∈ d.periods, period.isOpen = true
  unused : d.periodEvents = []

theorem Unused.settled (h : d.Unused) : d.Settled := by
  refine ⟨h.toKeyed, ?_, ?_, ?_⟩
  · rw [h.unused]
    exact .nil
  · intro period hperiod
    rw [h.opened period hperiod, eventsOf, h.unused]
    exact .nil
  · rw [h.unused]
    simp

end IngestionDb

/-! ## Runs -/

open IngestionDb

/-- A successful command on some period, or something else that is committed. -/
inductive PeriodStep (d d' : IngestionDb) : Prop
  | closed (proposal : PeriodCloseProposal) (context : CheckedCommand) (periodEventId : PeriodEventId)
    (output : PeriodOutput) (h : close d proposal context periodEventId = .ok (output, d'))
  | reopened (proposal : PeriodReopenProposal) (context : CheckedCommand) (periodEventId : PeriodEventId)
    (output : PeriodOutput) (registered : Registered d.artifacts d.confirmations context)
    (h : reopen d proposal context periodEventId = .ok (output, d'))
  | other (h : d.OtherChange d')

abbrev PeriodRun : IngestionDb → IngestionDb → Prop := Relation.ReflTransGen PeriodStep

/-- The event names exactly the reconciliations of its period, their discrepancies and their
evidence. -/
def CoversPeriod (d : IngestionDb) (event : PeriodEventRow) : Prop :=
  ∃ period, d.findPeriod event.toPeriodKey = some period ∧ period.isOpen = true ∧
    event.reconciliationIds.Perm (coverageOf d period).reconciliationIds ∧
    event.unresolvedDiscrepancyIds.Perm (coverageOf d period).unresolvedDiscrepancyIds ∧
    event.responsibleArtifactIds.Perm (coverageOf d period).responsibleArtifactIds

variable {d₀ d d' : IngestionDb}

theorem perm_of_sameTexts {kind : IdKind} {left right : List (OpaqueId kind)}
    (h : sameSet (left.map OpaqueId.text) (right.map OpaqueId.text) = true) : right.Perm left :=
  ((List.map_perm_map_iff OpaqueId.text_injective).1 (perm_of_sameSet h)).symm

theorem coversPeriod_of_close {proposal : PeriodCloseProposal} {context : CheckedCommand}
    {periodEventId : PeriodEventId} {output : PeriodOutput}
    (h : close d proposal context periodEventId = .ok (output, d')) :
    CoversPeriod d (joinedEvent d (closeEvent proposal context periodEventId)) := by
  obtain ⟨period, hperiod, hopen, hexact, -⟩ := close_ok h
  simp only [exact, Bool.and_eq_true] at hexact
  obtain ⟨⟨hreconciliations, hdiscrepancies⟩, hartifacts⟩ := hexact
  exact ⟨period, hperiod, hopen, perm_of_sameTexts hreconciliations, perm_of_sameTexts hdiscrepancies,
    perm_of_sameTexts hartifacts⟩

/-- A step records at most one event, at the end, and a closing it records covers its period. -/
theorem PeriodStep.events (h : PeriodStep d d') {event : PeriodEventRow} (hevent : event ∈ d'.periodEvents)
    (hclosed : event.eventType = .closed) : event ∈ d.periodEvents ∨ event.createdAt = d.now ∧ CoversPeriod d event := by
  cases h with
  | closed proposal context periodEventId output h =>
    obtain ⟨period, -, -, -, rfl⟩ := close_ok h
    rcases List.mem_append.1 hevent with hold | hnew
    · exact .inl hold
    · rw [List.mem_singleton.1 hnew]
      exact .inr ⟨rfl, coversPeriod_of_close h⟩
  | reopened proposal context periodEventId output registered h =>
    obtain ⟨-, -, -, rfl⟩ := reopen_ok h
    rcases List.mem_append.1 hevent with hold | hnew
    · exact .inl hold
    · rw [List.mem_singleton.1 hnew] at hclosed
      cases hclosed
  | other h =>
    rw [h.events] at hevent
    exact .inl hevent

theorem PeriodStep.settled (h : PeriodStep d d') (hsettled : d.Settled) : d'.Settled := by
  cases h with
  | closed proposal context periodEventId output h => exact hsettled.close h
  | reopened proposal context periodEventId output registered h => exact hsettled.reopen registered h
  | other h => exact hsettled.other h

theorem PeriodRun.settled (h : PeriodRun d₀ d) (hsettled : d₀.Settled) : d.Settled := by
  induction h with
  | refl => exact hsettled
  | tail _ hstep ih => exact hstep.settled ih

/-- Every closing on record was recorded in a step from a state whose coverage it names. -/
theorem PeriodRun.covered (h : PeriodRun d₀ d) (hunused : d₀.Unused) {event : PeriodEventRow}
    (hevent : event ∈ d.periodEvents) (hclosed : event.eventType = .closed) :
    ∃ d₁ d₂, PeriodRun d₀ d₁ ∧ PeriodStep d₁ d₂ ∧ PeriodRun d₂ d ∧ event ∉ d₁.periodEvents ∧
      event ∈ d₂.periodEvents ∧ CoversPeriod d₁ event := by
  induction h with
  | refl =>
    rw [hunused.unused] at hevent
    simp at hevent
  | @tail d d' hrun hstep ih =>
    rcases hstep.events hevent hclosed with hold | ⟨hdate, hcovers⟩
    · obtain ⟨d₁, d₂, hbefore, hrecorded, hafter, hnew, hmem, hcovers⟩ := ih hold
      exact ⟨d₁, d₂, hbefore, hrecorded, hafter.tail hstep, hnew, hmem, hcovers⟩
    · have hnew : event ∉ d.periodEvents := by
        intro hmem
        have hpast := (PeriodRun.settled hrun hunused.settled).dated.past event hmem
        exact ne_of_lt hpast hdate
      exact ⟨d, d', hrun, hstep, .refl, hnew, hevent, hcovers⟩

/-- Whatever commands succeed on the periods: the events of each of them take turns, its status is
that of the latest, a reopening refers to the closing right before it under a confirmation of the
household, and every closing was recorded for exactly what its period had been reconciled with. -/
theorem period_events_alternate (hunused : d₀.Unused) (hrun : PeriodRun d₀ d) :
    (∀ period ∈ d.periods,
      (d.eventsOf period.key).Pairwise (fun event later => event.createdAt < later.createdAt) ∧
      (∀ i event, (d.eventsOf period.key)[i]? = some event →
        event.eventType = if i % 2 = 0 then .closed else .reopened) ∧
      (period.isOpen = false ↔
        ∃ latest, readLatestPeriodEvent d period.key = some latest ∧ latest.eventType = .closed) ∧
      (∀ i event, (d.eventsOf period.key)[i]? = some event → event.eventType = .reopened →
        (∃ closing, (d.eventsOf period.key)[i - 1]? = some closing ∧ closing.eventType = .closed ∧
          event.priorEventId = some closing.periodEventId) ∧
        ∃ confirmation ∈ d.confirmations, confirmation.householdId = event.householdId ∧
          event.confirmationId = some confirmation.confirmationId)) ∧
    ∀ event ∈ d.periodEvents, event.eventType = .closed →
      ∃ d₁ d₂, PeriodRun d₀ d₁ ∧ PeriodStep d₁ d₂ ∧ PeriodRun d₂ d ∧ event ∉ d₁.periodEvents ∧
        event ∈ d₂.periodEvents ∧ CoversPeriod d₁ event := by
  have hsettled := PeriodRun.settled hrun hunused.settled
  constructor
  · intro period hperiod
    have hhistory := hsettled.history period hperiod
    refine ⟨(hsettled.dated.filter _).increasing, hhistory.alternating, ?_, ?_⟩
    · rw [hsettled.latest]
      exact hhistory.closed_iff
    · intro i event hi hreopened
      obtain ⟨closing, hclosing, hprior⟩ := hhistory.referring i event hi hreopened
      have htype := hhistory.alternating i event hi
      have hbefore := hhistory.alternating _ closing hclosing
      rw [hreopened] at htype
      have hodd : i % 2 ≠ 0 := by
        intro heven
        simp [heven] at htype
      rw [if_pos (by omega)] at hbefore
      have hmem := (mem_eventsOf.1 (List.mem_of_getElem? hi)).1
      exact ⟨⟨closing, hclosing, hbefore, hprior⟩, hsettled.confirmed event hmem hreopened⟩
  · intro event hevent hclosed
    exact PeriodRun.covered hrun hunused hevent hclosed

namespace TestPeriods

def checkedArtifact : ArtifactEnvelope where
  artifactId := TestReporting.journal.checkedArtifactId
  householdId := TestReporting.householdId
  taskId := TestReporting.journal.taskId
  artifactType := .maker_output
  schema := ⟨"maker-artifact", 1⟩
  artifactHash := TestReporting.journal.checkedArtifactHash
  payload := .null

def confirmation : ConfirmationRow where
  confirmationId := ⟨"01JNZQ4A9B8C7D6E5F4G3H2JC1", by decide⟩
  householdId := TestReporting.householdId
  taskId := TestReporting.journal.taskId
  checkedProposalId := TestReporting.journal.checkedArtifactId
  checkedProposalHash := TestReporting.journal.checkedArtifactHash

/-- The opening account in January; nobody has reconciled the cash account. -/
def reconciliation : ReconciliationRow where
  reconciliationId := ⟨"01JNZQ4A9B8C7D6E5F4G3H2JN1", by decide⟩
  householdId := TestReporting.householdId
  bookId := TestReporting.bookId
  accountId := TestReporting.opening.accountId
  statementSnapshotId := ⟨"01JNZQ4A9B8C7D6E5F4G3H2JS1", by decide⟩
  periodStart := TestReporting.period.periodStart
  periodEnd := TestReporting.period.periodEnd
  currency := TestReporting.opening.nativeCurrency
  completionStatus := .incomplete
  unresolvedDiscrepancies := []
  balances := ⟨⟨0, by decide⟩, ⟨0, by decide⟩, ⟨0, by decide⟩, ⟨0, by decide⟩⟩
  makerArtifactId := checkedArtifact.artifactId
  checkerArtifactId := checkedArtifact.artifactId

def db : IngestionDb where
  toLedgerDb := { TestReporting.ledger with artifacts := [checkedArtifact] }
  confirmations := [confirmation]
  importBatches := []
  rawRows := []
  normalizedRows := []
  rowDecisions := []
  sourceLinks := []
  statementSnapshots := [⟨reconciliation.statementSnapshotId, reconciliation.householdId,
    reconciliation.accountId⟩]
  statementLines := []
  reconciliations := [reconciliation]
  reconciliationItems := []
  reconciliationEvidence := [⟨reconciliation.reconciliationId, checkedArtifact.artifactId⟩]
  periodEvents := []
  now := 1000

def closeProposal : PeriodCloseProposal where
  toPeriodKey := TestReporting.period.key
  reconciliationIds := [reconciliation.reconciliationId]
  unresolvedDiscrepancyIds := []
  responsibleArtifactIds := [checkedArtifact.artifactId]
  reconciled := by simp
  responsible := by simp

def command (confirmationId : Option ConfirmationId) : CheckedCommand where
  commandId := ⟨"01JNZQ4A9B8C7D6E5F4G3H2JM1", Eq.refl true⟩
  householdId := TestReporting.householdId
  taskId := TestReporting.journal.taskId
  checkedProposalId := checkedArtifact.artifactId
  checkedProposalHash := checkedArtifact.artifactHash
  commandType := "close_accounting_period"
  idempotencyKey := ⟨"01JNZQ4A9B8C7D6E5F4G3H2JK1", Eq.refl true⟩
  confirmationId := confirmationId
  payloadSchema := ⟨"period-close-proposal", 1⟩
  payload := .obj []
  payload_keyed := Eq.refl true

def closeEventId : PeriodEventId := ⟨"01JNZQ4A9B8C7D6E5F4G3H2JE1", by decide⟩

def reopenEventId : PeriodEventId := ⟨"01JNZQ4A9B8C7D6E5F4G3H2JE2", by decide⟩

def reopenProposal : PeriodReopenProposal where
  toPeriodKey := TestReporting.period.key
  reason := "A late statement"
  priorCloseEventId := closeEventId
  reason_length := by decide

def closedDb : IngestionDb := recordEvent db (closeEvent closeProposal (command none) closeEventId) false

/-- Closed while the cash account, which has a posting in the period, is reconciled with nothing,
and the one reconciliation there is has been left incomplete. -/
theorem close_leaves_account_unreconciled :
    (close db closeProposal (command none) closeEventId).map Prod.snd = .ok closedDb ∧
      (readLatestPeriodEvent closedDb TestReporting.period.key).map (fun event => event.eventType) =
        some .closed ∧
      TestReporting.cash ∈ db.accounts ∧ TestReporting.cash.archived = false ∧
      TestReporting.cash.bookId = closeProposal.bookId ∧
      (∃ posting ∈ db.postings, posting.accountId = TestReporting.cash.accountId ∧
        (db.journalOf posting).any (fun journal => journal.periodId == closeProposal.periodId) = true) ∧
      ∀ reconciliation ∈ db.reconciliations, reconciliation.accountId ≠ TestReporting.cash.accountId ∧
        reconciliation.completionStatus = .incomplete := by
  decide +kernel

def reopenCommand : CheckedCommand := command (some confirmation.confirmationId)

def reopenedDb : IngestionDb :=
  recordEvent closedDb (reopenEvent reopenProposal reopenCommand reopenEventId) true

theorem close_reopen : (close db closeProposal (command none) closeEventId).map Prod.snd = .ok closedDb ∧
    (reopen closedDb reopenProposal reopenCommand reopenEventId).map Prod.snd = .ok reopenedDb := by
  decide +kernel

theorem exists_output {result : Except Thrown (PeriodOutput × IngestionDb)} {d : IngestionDb}
    (h : result.map Prod.snd = .ok d) : ∃ output, result = .ok (output, d) := by
  cases result with
  | error error => cases h
  | ok pair =>
    cases h
    exact ⟨pair.1, rfl⟩

theorem run_reopened : PeriodRun db reopenedDb := by
  obtain ⟨closing, hclose⟩ := exists_output close_reopen.1
  obtain ⟨reopening, hreopen⟩ := exists_output close_reopen.2
  have hregistered : Registered closedDb.artifacts closedDb.confirmations reopenCommand :=
    ⟨⟨checkedArtifact, by simp [closedDb, recordEvent, db], rfl, rfl⟩, confirmation,
      by simp [closedDb, recordEvent, db], rfl, rfl⟩
  exact .tail (.tail .refl (.closed _ _ _ _ hclose)) (.reopened _ _ _ _ hregistered hreopen)

theorem db_unused : db.Unused where
  artifacts := by decide
  periods := by decide
  events := by simp [db]
  opened := by decide
  unused := rfl

/-- January closed and reopened. -/
theorem period_events_alternate_reopened :
    (reopenedDb.eventsOf TestReporting.period.key).length = 2 ∧
    ∀ period ∈ reopenedDb.periods, period.isOpen = false ↔
      ∃ latest, readLatestPeriodEvent reopenedDb period.key = some latest ∧ latest.eventType = .closed := by
  constructor
  · decide
  · intro period hperiod
    exact ((period_events_alternate db_unused run_reopened).1 period hperiod).2.2.1

end TestPeriods

end PlusOne
