import PlusOne.Workflows.PendingDecided

/-! # The delegations of one turn

The orchestrator delegates substeps to team leads one after another, each admitted by
`canDelegateAnotherSubstep`, and its turn is made of the results they returned. -/

namespace PlusOne

open Interleaving

/-! ## The code -/

def MAX_DELEGATIONS_PER_TURN : Nat := 4

/-- What of an `OrchestratorInvocation` the delegations read and write. -/
structure OrchestratorInvocation where
  delegationCount : Nat
  delegationFailed : Bool
  teamResults : List TeamResultEnvelope
  transactionCaptureContinuation : Option TransactionContinuation
  deriving DecidableEq

namespace TeamEffect

def isAwaitingConfirmation : TeamEffect → Bool
  | awaiting_confirmation _ _ => true
  | none | unresolved _ _ _ | persisted _ _ _ => false

def isUnresolved : TeamEffect → Bool
  | unresolved _ _ _ => true
  | none | awaiting_confirmation _ _ | persisted _ _ _ => false

end TeamEffect

def canDelegateAnotherSubstep (input : OrchestratorInvocation) : Bool :=
  if input.delegationFailed || decide (input.delegationCount ≥ MAX_DELEGATIONS_PER_TURN) then false
  else !input.teamResults.any fun result =>
    result.status == .failed || result.status == .conflicted ||
      (result.status == .insufficient_evidence && input.transactionCaptureContinuation.isNone) ||
      result.effect.isAwaitingConfirmation || result.effect.isPersisted || result.effect.isUnresolved

/-- What `AccountingDelegateRequestSchemaV1` makes of a request that is not one for budgeting. -/
inductive DelegatedRequest
  | transactionDraft (draft : Json)
  | transactionCapture
  | other

/-- `{ ...fields, ...others }` -/
def spread (fields others : List (String × Json)) : List (String × Json) :=
  fields.map (fun field => (field.1, (others.lookup field.1).getD field.2)) ++
    others.filter fun field => (fields.lookup field.1).isNone

/-- `draft.known` -/
def knownOf (draft : Json) : List (String × Json) :=
  match draft.field? "known" with
  | some (.obj known) => known
  | _ => []

/-- `{ ...current, known: { ...previous.known, ...current.known } }` -/
def mergedDraft (previous current : Json) : Json :=
  match current with
  | .obj fields => .obj (spread fields [("known", .obj (spread (knownOf previous) (knownOf current)))])
  | other => other

/-- The continuation that is left by `requestWithTransactionContinuation`. -/
def requestWithTransactionContinuation (continuation : Option TransactionContinuation) :
    DelegatedRequest → Option TransactionContinuation
  | .other => continuation
  | .transactionCapture => none
  | .transactionDraft current =>
    match continuation with
    | none => some ⟨current⟩
    | some previous => some ⟨mergedDraft previous.request current⟩

/-- What becomes of one call of the tool `delegateTeam`. -/
inductive Delegation
  /-- The input is malformed, or the signal has aborted. -/
  | refused
  /-- There is no such team, or the signal aborts before the lead is run. -/
  | unstarted (request : DelegatedRequest)
  /-- The lead throws. -/
  | threw (request : DelegatedRequest)
  /-- The lead returns a result; what follows it in the tool may still throw. -/
  | returned (request : DelegatedRequest) (result : TeamResultEnvelope) (heard : Bool)

/-- `requestWithTransactionContinuation(active, request)` and `active.delegationCount += 1` -/
def OrchestratorInvocation.started (active : OrchestratorInvocation) (request : DelegatedRequest) :
    OrchestratorInvocation :=
  { active with
    delegationCount := active.delegationCount + 1
    transactionCaptureContinuation :=
      requestWithTransactionContinuation active.transactionCaptureContinuation request }

def OrchestratorInvocation.failed (active : OrchestratorInvocation) : OrchestratorInvocation :=
  { active with delegationFailed := true }

/-- `execute` of the tool. -/
def delegateTeam (active : OrchestratorInvocation) (delegation : Delegation) : OrchestratorInvocation :=
  if active.delegationCount ≥ MAX_DELEGATIONS_PER_TURN then active.failed
  else
    match delegation with
    | .refused => active
    | .unstarted request => active.started request
    | .threw request => (active.started request).failed
    | .returned request result heard =>
      match result.parse with
      | .error _ => (active.started request).failed
      | .ok result =>
        let pushed := { active.started request with teamResults := active.teamResults ++ [result] }
        if heard then pushed else pushed.failed

/-! ## Turns -/

/-- The invocations that the delegations of one turn lead to. -/
inductive Delegated : OrchestratorInvocation → Prop
  | start (continuation : Option TransactionContinuation) : Delegated ⟨0, false, [], continuation⟩
  | step {active : OrchestratorInvocation} (delegation : Delegation) (prior : Delegated active)
      (admitted : canDelegateAnotherSubstep active = true) : Delegated (delegateTeam active delegation)

/-- The turn asks for the confirmation of what awaits it and answers from what is unresolved. -/
structure KeepsPending (active : OrchestratorInvocation) : Prop where
  awaiting : ∀ change : PendingChange, change.result ∈ active.teamResults →
    turnFromTeamResults active.teamResults active.transactionCaptureContinuation =
      .ret (.askUser active.teamResults (some change) active.transactionCaptureContinuation)
  unresolved : ∀ result ∈ active.teamResults, result.effect.isUnresolved = true →
    selectTurnTeamResult active.teamResults active.transactionCaptureContinuation = some result

def TeamEffect.isPending (effect : TeamEffect) : Bool :=
  effect.isAwaitingConfirmation || effect.isUnresolved

/-- A pending result comes last, and then either a transaction is carried on after an earlier result,
or no earlier result has a better status. -/
def PendingLeads (active : OrchestratorInvocation) : Prop :=
  ∀ earlier last, active.teamResults = earlier ++ [last] → last.effect.isPending = true →
    (active.transactionCaptureContinuation.isSome = true ∧ earlier ≠ []) ∨
      ∀ result ∈ earlier, statusRank last.status ≤ statusRank result.status

/-! ## What is selected -/

theorem selectTeamResult_best {results : List TeamResultEnvelope} (hne : results ≠ []) :
    ∃ best ∈ results, selectTeamResult results = some best ∧
      ∀ result ∈ results, statusRank best.status ≤ statusRank result.status := by
  induction results with
  | nil => exact absurd rfl hne
  | cons result results ih =>
    by_cases hnil : results = []
    · subst hnil
      exact ⟨result, by simp, rfl, by simp⟩
    · obtain ⟨best, hmem, hbest, hle⟩ := ih hnil
      by_cases hlt : statusRank result.status < statusRank best.status
      · have hselect : selectTeamResult (result :: results) = some result := by
          simp [selectTeamResult, hbest, hlt]
        refine ⟨result, by simp, hselect, ?_⟩
        intro other hother
        rcases List.mem_cons.1 hother with rfl | hother
        · exact Nat.le_refl _
        · have hother := hle other hother
          omega
      · have hselect : selectTeamResult (result :: results) = some best := by
          simp [selectTeamResult, hbest, hlt]
        refine ⟨best, by simp [hmem], hselect, ?_⟩
        intro other hother
        rcases List.mem_cons.1 hother with rfl | hother
        · omega
        · exact hle other hother

variable {earlier : List TeamResultEnvelope} {last : TeamResultEnvelope}

theorem selectTeamResult_last (h : ∀ result ∈ earlier, statusRank last.status ≤ statusRank result.status) :
    selectTeamResult (earlier ++ [last]) = some last := by
  induction earlier with
  | nil => rfl
  | cons result earlier ih =>
    have hle := h result (by simp)
    have hrest := ih fun other hother => h other (by simp [hother])
    have hlt : ¬ statusRank result.status < statusRank last.status := by omega
    simp [selectTeamResult, hrest, hlt]

/-- The last result is the one selected when nothing before it is better. -/
theorem selectTeamResult_last_iff :
    selectTeamResult (earlier ++ [last]) = some last ↔
      ∀ result ∈ earlier, statusRank last.status ≤ statusRank result.status := by
  constructor
  · intro h result hresult
    have hne : earlier ++ [last] ≠ [] := by simp
    obtain ⟨best, -, hbest, hle⟩ := selectTeamResult_best hne
    have hlast : last = best := by
      rw [h] at hbest
      exact Option.some.inj hbest
    subst hlast
    exact hle result (by simp [hresult])
  · exact selectTeamResult_last

theorem selectTurnTeamResult_last_iff {continuation : Option TransactionContinuation} :
    selectTurnTeamResult (earlier ++ [last]) continuation = some last ↔
      (continuation.isSome = true ∧ earlier ≠ []) ∨
        ∀ result ∈ earlier, statusRank last.status ≤ statusRank result.status := by
  have hlength : 1 < (earlier ++ [last]).length ↔ earlier ≠ [] := by
    cases earlier with
    | nil => simp
    | cons result earlier => simp
  by_cases hcarried : continuation.isSome = true ∧ earlier ≠ []
  · have hlong := hlength.2 hcarried.2
    have hselect : selectTurnTeamResult (earlier ++ [last]) continuation = some last := by
      simp only [selectTurnTeamResult, hcarried.1, hlong, decide_true, Bool.and_self, if_true]
      simp
    simp [hselect, hcarried]
  · have hguard : (continuation.isSome && decide (1 < (earlier ++ [last]).length)) = false := by
      rw [Bool.and_eq_false_iff, decide_eq_false_iff_not, hlength]
      rw [Classical.not_and_iff_not_or_not] at hcarried
      rcases hcarried with hnone | hnil
      · left
        simpa using hnone
      · right
        exact hnil
    have hselect : selectTurnTeamResult (earlier ++ [last]) continuation =
        selectTeamResult (earlier ++ [last]) := by
      simp only [selectTurnTeamResult, hguard, Bool.false_eq_true, if_false]
    rw [hselect, selectTeamResult_last_iff]
    simp only [hcarried, false_or]

/-! ## Only the last result is pending -/

/-- Before the last result there is none whose effect is pending. -/
def OnlyLastPending (results : List TeamResultEnvelope) : Prop :=
  ∀ earlier last, results = earlier ++ [last] → ∀ result ∈ earlier, result.effect.isPending = false

variable {active : OrchestratorInvocation}

theorem not_pending_of_canDelegate (h : canDelegateAnotherSubstep active = true) {result : TeamResultEnvelope}
    (hresult : result ∈ active.teamResults) : result.effect.isPending = false := by
  unfold canDelegateAnotherSubstep at h
  split_ifs at h
  simp only [Bool.not_eq_true', List.any_eq_false] at h
  have hnone := h result hresult
  simp only [Bool.or_eq_true, not_or, Bool.not_eq_true] at hnone
  simp [TeamEffect.isPending, hnone]

/-- What a delegation does to the results: it leaves them, or one is added at the end. -/
theorem teamResults_delegateTeam (active : OrchestratorInvocation) (delegation : Delegation) :
    (delegateTeam active delegation).teamResults = active.teamResults ∨
      ∃ result, (delegateTeam active delegation).teamResults = active.teamResults ++ [result] := by
  unfold delegateTeam
  split_ifs
  · exact Or.inl rfl
  · cases delegation with
    | refused => exact Or.inl rfl
    | unstarted request => exact Or.inl rfl
    | threw request => exact Or.inl rfl
    | returned request result heard =>
      simp only
      cases result.parse with
      | error _ => exact Or.inl rfl
      | ok parsed =>
        right
        cases heard with
        | true => exact ⟨parsed, rfl⟩
        | false => exact ⟨parsed, rfl⟩

theorem Delegated.onlyLastPending (h : Delegated active) :
    OnlyLastPending active.teamResults := by
  induction h with
  | start continuation =>
    intro earlier last hresults
    simp at hresults
  | @step active delegation prior admitted ih =>
    rcases teamResults_delegateTeam active delegation with hsame | ⟨result, hadded⟩
    · rw [hsame]
      exact ih
    · rw [hadded]
      intro earlier last hresults other hother
      have hearlier : active.teamResults = earlier := (List.append_inj' hresults rfl).1
      subst hearlier
      exact not_pending_of_canDelegate admitted hother

/-! ## The turn -/

theorem PendingChange.isPending (change : PendingChange) : change.result.effect.isPending = true := by
  simp [change.awaiting, TeamEffect.isPending, TeamEffect.isAwaitingConfirmation]

theorem turnFromTeamResults_pending_iff {results : List TeamResultEnvelope}
    {continuation : Option TransactionContinuation} {change : PendingChange} :
    turnFromTeamResults results continuation = .ret (.askUser results (some change) continuation) ↔
      selectTurnTeamResult results continuation = some change.result := by
  constructor
  · intro h
    unfold turnFromTeamResults at h
    split at h
    · cases h
    · next result hselect =>
      split at h
      · next proposal command heffect =>
        simp only [Prog.ret.injEq, OrchestratorTurnResult.askUser.injEq, Option.some.injEq, true_and,
          and_true] at h
        rw [hselect, ← h]
      · split_ifs at h <;> simp at h
  · intro h
    obtain ⟨result, proposal, command, heffect⟩ := change
    unfold turnFromTeamResults
    simp only at h
    rw [h]
    simp only
    split
    · next proposal' command' heffect' =>
      have hsame : TeamEffect.awaiting_confirmation proposal' command' =
          .awaiting_confirmation proposal command := heffect'.symm.trans heffect
      cases hsame
      rfl
    · next hnot => exact absurd heffect (hnot proposal command)

/-- A pending result is the last one, so that the turn is from it when the last one is selected. -/
theorem keepsPending_iff_selected (honly : OnlyLastPending active.teamResults)
    (hresults : active.teamResults = earlier ++ [last]) :
    KeepsPending active ↔ (last.effect.isPending = true →
      selectTurnTeamResult active.teamResults active.transactionCaptureContinuation = some last) := by
  have hlast : ∀ result ∈ active.teamResults, result.effect.isPending = true → result = last := by
    intro result hresult hpending
    rw [hresults, List.mem_append] at hresult
    rcases hresult with hearlier | hlast
    · have hnot := honly earlier last hresults result hearlier
      rw [hnot] at hpending
      cases hpending
    · exact List.mem_singleton.1 hlast
  have hmem : last ∈ active.teamResults := by simp [hresults]
  constructor
  · intro h hpending
    cases heffect : last.effect with
    | awaiting_confirmation proposal command =>
      exact turnFromTeamResults_pending_iff.1 (h.awaiting ⟨last, proposal, command, heffect⟩ hmem)
    | unresolved proposal commandId reason =>
      exact h.unresolved last hmem (by simp [heffect, TeamEffect.isUnresolved])
    | none => simp [heffect, TeamEffect.isPending, TeamEffect.isAwaitingConfirmation,
        TeamEffect.isUnresolved] at hpending
    | persisted proposal receipt readback => simp [heffect, TeamEffect.isPending,
        TeamEffect.isAwaitingConfirmation, TeamEffect.isUnresolved] at hpending
  · intro h
    constructor
    · intro change hchange
      have hsame := hlast change.result hchange change.isPending
      rw [turnFromTeamResults_pending_iff, hsame]
      exact h (hsame ▸ change.isPending)
    · intro result hresult hunresolved
      have hpending : result.effect.isPending = true := by simp [TeamEffect.isPending, hunresolved]
      have hsame := hlast result hresult hpending
      rw [hsame]
      exact h (hsame ▸ hpending)

/-- However the delegations of a turn go, the turn keeps what is pending exactly when nothing better
came before it or a transaction is carried on. -/
theorem turn_keepsPending_iff {active : OrchestratorInvocation} (h : Delegated active) :
    KeepsPending active ↔ PendingLeads active := by
  have honly := h.onlyLastPending
  rcases List.eq_nil_or_concat' active.teamResults with hnil | ⟨earlier, last, hresults⟩
  · have hkeeps : KeepsPending active :=
      ⟨fun _ hchange => by simp [hnil] at hchange, fun _ hresult => by simp [hnil] at hresult⟩
    have hleads : PendingLeads active := by
      intro earlier last hresults
      simp [hnil] at hresults
    simp only [hkeeps, hleads]
  · rw [keepsPending_iff_selected honly hresults, hresults, selectTurnTeamResult_last_iff]
    constructor
    · intro hselected earlier' last' hresults' hpending
      obtain ⟨hearlier, hlast⟩ := List.append_inj' (hresults.symm.trans hresults') rfl
      have hlast := List.singleton_inj.1 hlast
      subst hearlier hlast
      exact hselected hpending
    · intro hleads hpending
      exact hleads earlier last hresults hpending

namespace TestDelegations

open TestWorkflow (result)

/-- A checked answer that changes nothing. -/
def answered : TeamResultEnvelope :=
  { result with
    status := .verified
    completionReason := "The accounts were listed."
    effect := .none }

/-- One substep is answered, the next proposes a change. -/
def answeredThenProposed : OrchestratorInvocation :=
  delegateTeam (delegateTeam ⟨0, false, [], none⟩ (.returned .other answered true))
    (.returned .other result true)

theorem answeredThenProposed_eq : answeredThenProposed = ⟨2, false, [answered, result], none⟩ := by
  decide +kernel

theorem proposed_kept : KeepsPending (delegateTeam ⟨0, false, [], none⟩ (.returned .other result true)) := by
  have hproposed : delegateTeam ⟨0, false, [], none⟩ (.returned .other result true) =
      ⟨1, false, [result], none⟩ := by decide +kernel
  refine (turn_keepsPending_iff (.step _ (.start none) rfl)).2 ?_
  rw [hproposed]
  intro earlier last hresults hpending
  have hlength := congrArg List.length hresults
  have hearlier : earlier = [] := by simpa using hlength
  subst hearlier
  exact Or.inr fun _ hresult => absurd hresult (by simp)

/-- The turn ends as final on the first answer, and the proposed change is lost with it. -/
theorem proposed_dropped : Delegated answeredThenProposed ∧ ¬ KeepsPending answeredThenProposed := by
  have hfirst : delegateTeam ⟨0, false, [], none⟩ (.returned .other answered true) =
      ⟨1, false, [answered], none⟩ := by decide +kernel
  constructor
  · refine .step _ (.step _ (.start none) rfl) ?_
    rw [hfirst]
    decide
  · intro h
    rw [answeredThenProposed_eq] at h
    have hselect := turnFromTeamResults_pending_iff.1 (h.awaiting TestWorkflow.change (by decide))
    exact absurd hselect (by decide)

end TestDelegations

end PlusOne
