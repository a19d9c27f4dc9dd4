import PlusOne.Workflows.OrchestratorLoop

/-! # A pending change and its turn

What becomes of a pending change in one turn is settled by the awaits of the turn. Where
the signal does not abort, a turn whose awaits are all answered settles it, and so does
one that asks again; any other turn loses the change unless its task has been closed. -/

namespace PlusOne

open Interleaving

/-! ## What is said of a turn -/

namespace LoopState

variable (s : LoopState)

def AllAnswered : Prop := ∀ entry ∈ s.awaited, entry.2 = true

/-- The reply that asks again after a failure was composed. -/
def AskedAgain : Prop := (.asking, true) ∈ s.awaited

/-- The run was not taken up, the task of the change was closed, or the signal did not abort and
every await was answered or the question asked again. -/
def Undisturbed : Prop :=
  s.taken = false ∨ s.closed = true ∨ (s.aborted = false ∧ (s.AllAnswered ∨ s.AskedAgain))

/-- The change was resumed and the reply is from what the resumption returned, or its task was
closed, or the run is suspended with it. -/
def Decided (change : PendingChange) (out : Except LoopError (List TeamResultEnvelope)) : Prop :=
  (∃ reply result, out = .ok reply ∧ s.resumed = some result ∧ result ∈ reply) ∨ s.closed = true ∨
    ∃ continuation, s.run = .suspendedMutation ⟨change, continuation⟩

end LoopState

/-- What a part of the step leaves that does not resume the change: the awaits it adds count while
the signal has not aborted. -/
structure Hears (s s' : LoopState) (entries : List (LoopAwait × Bool)) : Prop where
  run : s'.run = s.run
  taken : s'.taken = s.taken
  resumed : s'.resumed = s.resumed
  heard : s'.aborted = false → s.aborted = false ∧ s'.awaited = s.awaited ++ entries

theorem Hears.refl (s : LoopState) : Hears s s [] := by
  refine ⟨rfl, rfl, rfl, fun h => ⟨h, ?_⟩⟩
  simp

theorem Hears.trans {s s' s'' : LoopState} {entries entries' : List (LoopAwait × Bool)}
    (h : Hears s s' entries) (h' : Hears s' s'' entries') : Hears s s'' (entries ++ entries') := by
  refine ⟨h'.run.trans h.run, h'.taken.trans h.taken, h'.resumed.trans h.resumed, ?_⟩
  intro hquiet
  obtain ⟨hbefore, hlater⟩ := h'.heard hquiet
  obtain ⟨hstart, hfirst⟩ := h.heard hbefore
  exact ⟨hstart, by rw [hlater, hfirst, List.append_assoc]⟩

theorem hears_strikes {s : LoopState} (strikes : Bool) : Hears s (s.struck strikes) [] := by
  refine ⟨rfl, rfl, rfl, ?_⟩
  intro hquiet
  simp only [LoopState.struck, Bool.or_eq_false_iff] at hquiet
  exact ⟨hquiet.1, by simp [LoopState.struck]⟩

theorem hears_await {s : LoopState} (strikes : Bool) (await : LoopAwait) (ok : Bool) :
    Hears s ((s.struck strikes).hear await ok) [(await, ok)] := by
  refine ⟨rfl, rfl, rfl, ?_⟩
  intro hquiet
  simp only [LoopState.hear, LoopState.struck, Bool.or_eq_false_iff] at hquiet
  exact ⟨hquiet.1, rfl⟩

/-! ## One call -/

section Calls

variable {s s' : LoopState}

theorem loopCall_inv {call : LoopCall} {out : Except LoopError (LoopReply call)}
    (h : Exec loopCell (loopCall call) s out s') : ∃ choice, call.run choice s = some (out, s') :=
  Exec.perform_inv h

theorem signalAborted_inv {out : Except LoopError Bool}
    (h : Exec loopCell (loopCall .signalAborted) s out s') : out = .ok s.aborted ∧ s' = s := by
  obtain ⟨choice, hrun⟩ := loopCall_inv h
  simp only [LoopCall.run, Option.some.injEq, Prod.mk.injEq] at hrun
  exact ⟨hrun.1.symm, hrun.2.symm⟩

theorem generate_hears {role : DispositionRole} {out : Except LoopError PendingDisposition}
    (h : Exec loopCell (loopCall (.generateDisposition role)) s out s') : Hears s s' [] := by
  obtain ⟨⟨strikes, answer⟩, hrun⟩ := loopCall_inv h
  cases answer with
  | disposition disposition =>
    cases hrun
    exact hears_strikes strikes
  | threw =>
    cases hrun
    exact hears_strikes strikes
  | _ => cases hrun

theorem cancel_hears {change : PendingChange} {out : Except LoopError Unit}
    (h : Exec loopCell (loopCall (.cancel change)) s out s') :
    Hears s s' [(.cancelling, out.isOk)] ∧ (out.isOk = true → s'.closed = true) := by
  obtain ⟨⟨strikes, answer⟩, hrun⟩ := loopCall_inv h
  have hawait := fun ok => hears_await (s := s) strikes .cancelling ok
  cases answer with
  | ok =>
    cases hrun
    exact ⟨⟨rfl, rfl, rfl, (hawait true).heard⟩, fun _ => rfl⟩
  | unheard =>
    cases hrun
    exact ⟨⟨rfl, rfl, rfl, (hawait false).heard⟩, fun _ => rfl⟩
  | threw =>
    cases hrun
    exact ⟨hawait false, fun hok => by cases hok⟩
  | _ => cases hrun

theorem runTeamLead_hears {continuation : TransactionContinuation}
    {out : Except LoopError TeamResultEnvelope}
    (h : Exec loopCell (loopCall (.runTeamLead continuation)) s out s') :
    Hears s s' [(.capturing, out.isOk)] := by
  obtain ⟨⟨strikes, answer⟩, hrun⟩ := loopCall_inv h
  cases answer with
  | captured result =>
    cases hrun
    exact hears_await strikes .capturing true
  | threw =>
    cases hrun
    exact hears_await strikes .capturing false
  | _ => cases hrun

theorem synthesize_hears {site : SynthesisSite} {results : List TeamResultEnvelope}
    {out : Except LoopError Unit}
    (h : Exec loopCell (loopCall (.synthesize site results)) s out s') :
    Hears s s' [(site.await, out.isOk)] := by
  obtain ⟨⟨strikes, answer⟩, hrun⟩ := loopCall_inv h
  simp only [LoopCall.run] at hrun
  split_ifs at hrun with haborted hstrikes
  · cases hrun
    exact ⟨rfl, rfl, rfl, fun hquiet => absurd haborted (by simp [hquiet])⟩
  · cases hrun
    exact hears_await true site.await false
  · have hawait := fun ok => hears_await (s := s) false site.await ok
    cases answer with
    | ok =>
      cases hrun
      exact ⟨rfl, rfl, rfl, fun hquiet => ⟨hquiet, rfl⟩⟩
    | threw =>
      cases hrun
      exact ⟨rfl, rfl, rfl, fun hquiet => ⟨hquiet, rfl⟩⟩
    | _ => cases hrun

theorem resume_hears {change : PendingChange} {out : Except LoopError TeamResultEnvelope}
    (h : Exec loopCell (loopCall (.resume change)) s out s') :
    Hears { s with resumed := s'.resumed } s' [(.resuming, out.isOk)] ∧
      ∀ result, out = .ok result → s'.resumed = some result := by
  obtain ⟨⟨strikes, answer⟩, hrun⟩ := loopCall_inv h
  have hawait := fun ok => hears_await (s := s) strikes .resuming ok
  cases answer with
  | persisted receipt readback =>
    cases hrun
    refine ⟨⟨rfl, rfl, rfl, (hawait true).heard⟩, ?_⟩
    rintro result ⟨⟩
    rfl
  | unresolved reason =>
    cases hrun
    refine ⟨⟨rfl, rfl, rfl, (hawait true).heard⟩, ?_⟩
    rintro result ⟨⟩
    rfl
  | threw =>
    cases hrun
    exact ⟨⟨rfl, rfl, rfl, (hawait false).heard⟩, fun result hok => by cases hok⟩
  | _ => cases hrun

end Calls

/-! ## The classification -/

section Classification

variable {s s' : LoopState}

theorem generateDisposition_hears {role : DispositionRole}
    {out : Except LoopError (Option PendingDisposition)}
    (h : Exec loopCell (generateDisposition role) s out s') :
    Hears s s' [] ∧ (s'.aborted = false → out.isOk = true) := by
  rcases h.tryCatch_inv with ⟨disposition, hcall, rfl⟩ | ⟨error, s₁, hcall, hcatch⟩
  · rcases hcall.bind_inv with ⟨answer, s₁, hgenerate, hret⟩ | ⟨error, _, hout⟩
    · cases hret
      exact ⟨generate_hears hgenerate, fun _ => rfl⟩
    · cases hout
  · rcases hcall.bind_inv with ⟨answer, s₂, _, hret⟩ | ⟨error', hgenerate, _⟩
    · cases hret
    · have hhears := generate_hears hgenerate
      rcases hcatch.bind_inv with ⟨aborted, s₂, hsignal, hrest⟩ | ⟨error'', hsignal, _⟩
      · obtain ⟨haborted, rfl⟩ := signalAborted_inv hsignal
        cases haborted
        split_ifs at hrest with haborted
        · cases hrest
          exact ⟨hhears, fun hquiet => absurd haborted (by simp [hquiet])⟩
        · cases hrest
          exact ⟨hhears, fun _ => rfl⟩
      · cases (signalAborted_inv hsignal).1

theorem classify_hears {out : Except LoopError PendingDisposition}
    (h : Exec loopCell classifyPendingInteractionInput s out s') :
    Hears s s' [] ∧ (s'.aborted = false → out.isOk = true) := by
  rcases h.bind_inv with ⟨primary, s₁, hprimary, hrest⟩ | ⟨error, hprimary, rfl⟩
  · have hfirst := (generateDisposition_hears hprimary).1
    cases primary with
    | none =>
      cases hrest
      exact ⟨hfirst, fun _ => rfl⟩
    | some primary =>
      dsimp only at hrest
      split_ifs at hrest with hintent
      · cases hrest
        exact ⟨hfirst, fun _ => rfl⟩
      · rcases hrest.bind_inv with ⟨checker, s₂, hchecker, hlast⟩ | ⟨error, hchecker, rfl⟩
        · have hboth := hfirst.trans (generateDisposition_hears hchecker).1
          cases checker with
          | none =>
            cases hlast
            exact ⟨hboth, fun _ => rfl⟩
          | some checker =>
            cases hlast
            exact ⟨hboth, fun _ => rfl⟩
        · obtain ⟨hlater, hok⟩ := generateDisposition_hears hchecker
          exact ⟨hfirst.trans hlater, fun hquiet => absurd (hok hquiet) (by simp [Except.isOk, Except.toBool])⟩
  · obtain ⟨hfirst, hok⟩ := generateDisposition_hears hprimary
    exact ⟨hfirst, fun hquiet => absurd (hok hquiet) (by simp [Except.isOk, Except.toBool])⟩

end Classification

/-! ## The reply -/

variable {results : List TeamResultEnvelope}

theorem selectTeamResult_isSome (h : results ≠ []) :
    (selectTeamResult results).isSome = true := by
  cases results with
  | nil => exact absurd rfl h
  | cons result results =>
    simp only [selectTeamResult]
    cases selectTeamResult results with
    | none => rfl
    | some best =>
      dsimp only
      split_ifs <;> rfl

theorem selectTurnTeamResult_isSome (h : results ≠ []) (continuation : Option TransactionContinuation) :
    (selectTurnTeamResult results continuation).isSome = true := by
  unfold selectTurnTeamResult
  split_ifs with hlast
  · simp [List.getLast?_isSome, h]
  · exact selectTeamResult_isSome h

theorem turnFromTeamResults_reply (h : results ≠ []) (continuation : Option TransactionContinuation) :
    ∃ turn, turnFromTeamResults results continuation = .ret turn ∧ turn.reply = results := by
  obtain ⟨result, hselect⟩ :=
    Option.isSome_iff_exists.1 (selectTurnTeamResult_isSome h continuation)
  simp only [turnFromTeamResults, hselect]
  split
  · exact ⟨_, rfl, rfl⟩
  · split_ifs
    · exact ⟨_, rfl, rfl⟩
    · exact ⟨_, rfl, rfl⟩

/-- The result that awaits its confirmation asks for it again. -/
theorem turnFromTeamResults_pending (change : PendingChange)
    (continuation : Option TransactionContinuation) :
    turnFromTeamResults [change.result] continuation =
      .ret (.askUser [change.result] (some change) continuation) := by
  obtain ⟨result, proposal, command, awaiting⟩ := change
  have hselect : selectTurnTeamResult [result] continuation = some result := by
    simp [selectTurnTeamResult, selectTeamResult]
  simp only [turnFromTeamResults, hselect]
  split
  · next proposal' command' heffect =>
    have hsame := awaiting.symm.trans heffect
    cases hsame
    rfl
  · next hother => exact absurd awaiting (hother proposal command)

section Answers

variable {s s' : LoopState} {site : SynthesisSite} {continuation : Option TransactionContinuation}

theorem answerFrom_hears {results : List TeamResultEnvelope} (hresults : results ≠ [])
    {out : Except LoopError OrchestratorTurnResult}
    (h : Exec loopCell (answerFrom site results continuation) s out s') :
    Hears s s' [(site.await, out.isOk)] ∧ ∀ turn, out = .ok turn → turn.reply = results := by
  obtain ⟨turn, hturn, hreply⟩ := turnFromTeamResults_reply hresults continuation
  rcases h.bind_inv with ⟨_, s₁, hsynthesize, hrest⟩ | ⟨error, hsynthesize, rfl⟩
  · rw [hturn] at hrest
    cases hrest
    refine ⟨synthesize_hears hsynthesize, ?_⟩
    intro turn' hout
    cases hout
    exact hreply
  · exact ⟨synthesize_hears hsynthesize, fun turn hout => by cases hout⟩

theorem answerFrom_pending {change : PendingChange} {turn : OrchestratorTurnResult}
    (h : Exec loopCell (answerFrom site [change.result] continuation) s (.ok turn) s') :
    turn = .askUser [change.result] (some change) continuation := by
  rcases h.bind_inv with ⟨_, s₁, _, hrest⟩ | ⟨error, _, hout⟩
  · rw [turnFromTeamResults_pending] at hrest
    cases hrest
    rfl
  · cases hout

theorem unlessAborted_inv {α : Type} {p : LoopProgram α} {out : Except LoopError α}
    (h : Exec loopCell (unlessAborted p) s out s') :
    (s.aborted = true ∧ s' = s ∧ out.isOk = false) ∨ Exec loopCell p s out s' := by
  rcases h.bind_inv with ⟨aborted, s₁, hsignal, hrest⟩ | ⟨error, hsignal, _⟩
  · obtain ⟨haborted, rfl⟩ := signalAborted_inv hsignal
    cases haborted
    split_ifs at hrest with haborted
    · cases hrest
      exact .inl ⟨haborted, rfl, rfl⟩
    · exact .inr hrest
  · cases (signalAborted_inv hsignal).1

end Answers

/-! ## The decision -/

/-- The turn reports the change's execution, its task is closed, or the turn asks about it again. -/
def LoopState.Settles (s : LoopState) (change : PendingChange) (turn : OrchestratorTurnResult) : Prop :=
  (∃ result, s.resumed = some result ∧ result ∈ turn.reply) ∨ s.closed = true ∨
    ∃ reply continuation, turn = .askUser reply (some change) continuation

/-- What the decision leaves: while the signal has not aborted, its awaits were all answered or not,
and none of them was to ask again. -/
structure Awaits (s s' : LoopState) (answered : Bool) : Prop where
  taken : s'.taken = s.taken
  heard : s'.aborted = false → s.aborted = false ∧ ∃ entries, s'.awaited = s.awaited ++ entries ∧
    entries.all Prod.snd = answered ∧ ∀ entry ∈ entries, entry.1 ≠ .asking

theorem Hears.awaits_nil {s s' : LoopState} (h : Hears s s' []) : Awaits s s' true := by
  refine ⟨h.taken, fun hquiet => ?_⟩
  obtain ⟨hstart, hawaited⟩ := h.heard hquiet
  exact ⟨hstart, [], hawaited, rfl, by simp⟩

theorem Hears.awaits {s s' : LoopState} {await : LoopAwait} {ok : Bool}
    (h : Hears s s' [(await, ok)]) (hawait : await ≠ .asking) : Awaits s s' ok := by
  refine ⟨h.taken, fun hquiet => ?_⟩
  obtain ⟨hstart, hawaited⟩ := h.heard hquiet
  exact ⟨hstart, [(await, ok)], hawaited, by simp, by simp [hawait]⟩

theorem Awaits.trans {s s' s'' : LoopState} {answered : Bool} (h : Awaits s s' true)
    (h' : Awaits s' s'' answered) : Awaits s s'' answered := by
  refine ⟨h'.taken.trans h.taken, fun hquiet => ?_⟩
  obtain ⟨hbefore, later, hlater, hanswered, hlaterAsk⟩ := h'.heard hquiet
  obtain ⟨hstart, first, hfirst, hall, hfirstAsk⟩ := h.heard hbefore
  have happend : s''.awaited = s.awaited ++ (first ++ later) := by
    rw [hlater, hfirst, List.append_assoc]
  have hboth : (first ++ later).all Prod.snd = answered := by
    rw [List.all_append, hall, hanswered, Bool.true_and]
  refine ⟨hstart, first ++ later, happend, hboth, ?_⟩
  intro entry hentry
  rcases List.mem_append.1 hentry with hmem | hmem
  · exact hfirstAsk entry hmem
  · exact hlaterAsk entry hmem

theorem Awaits.of_aborted {s s' : LoopState} (htaken : s'.taken = s.taken) (h : s'.aborted = true)
    (answered : Bool) : Awaits s s' answered :=
  ⟨htaken, fun hquiet => absurd h (by simp [hquiet])⟩

section Decision

variable {L : LoopContext} {suspended : SuspendedMutation} {s s' : LoopState}
  {out : Except LoopError OrchestratorTurnResult}

theorem answerFrom_awaits {results : List TeamResultEnvelope} (hresults : results ≠ [])
    {continuation : Option TransactionContinuation}
    (h : Exec loopCell (answerFrom .reply results continuation) s out s') :
    Awaits s s' out.isOk ∧ s'.resumed = s.resumed ∧ ∀ turn, out = .ok turn → turn.reply = results := by
  obtain ⟨hhears, hreply⟩ := answerFrom_hears hresults h
  have hawait : SynthesisSite.reply.await ≠ .asking := nofun
  exact ⟨hhears.awaits hawait, hhears.resumed, hreply⟩

theorem resumePendingMutation_awaits {change : PendingChange}
    {out : Except LoopError TeamResultEnvelope}
    (h : Exec loopCell (resumePendingMutation change) s out s') :
    Awaits s s' out.isOk ∧ ∀ result, out = .ok result → s'.resumed = some result := by
  rcases unlessAborted_inv h with ⟨haborted, rfl, herror⟩ | hresume
  · refine ⟨.of_aborted rfl haborted _, ?_⟩
    intro result hout
    subst hout
    cases herror
  · obtain ⟨hhears, hresult⟩ := resume_hears hresume
    have hawait : LoopAwait.resuming ≠ .asking := nofun
    obtain ⟨htaken, hheard⟩ := hhears.awaits hawait
    exact ⟨⟨htaken, hheard⟩, hresult⟩

theorem cancelPendingMutation_awaits {change : PendingChange} {out : Except LoopError Unit}
    (h : Exec loopCell (cancelPendingMutation change) s out s') :
    Awaits s s' out.isOk ∧ (out.isOk = true → s'.closed = true) := by
  rcases unlessAborted_inv h with ⟨haborted, rfl, herror⟩ | hcancel
  · exact ⟨.of_aborted rfl haborted _, fun hok => absurd hok (by simp [herror])⟩
  · obtain ⟨hhears, hclosed⟩ := cancel_hears hcancel
    have hawait : LoopAwait.cancelling ≠ .asking := nofun
    exact ⟨hhears.awaits hawait, hclosed⟩

/-- Every reply of an approval is composed from what the resumption returned. -/
theorem approvePending_awaits (h : Exec loopCell (approvePending L suspended) s out s') :
    Awaits s s' out.isOk ∧
      ∀ turn, out = .ok turn → ∃ result, s'.resumed = some result ∧ result ∈ turn.reply := by
  rcases h.bind_inv with ⟨result, s₁, hresume, hrest⟩ | ⟨error, hresume, rfl⟩
  · obtain ⟨hfirst, hresumed⟩ := resumePendingMutation_awaits hresume
    have hresult := hresumed result rfl
    have hanswer : ∀ {continuation : Option TransactionContinuation},
        Exec loopCell (answerFrom .reply [result] continuation) s₁ out s' → Awaits s s' out.isOk ∧
          ∀ turn, out = .ok turn → ∃ result, s'.resumed = some result ∧ result ∈ turn.reply := by
      intro continuation hanswer
      obtain ⟨hlater, hsame, hreply⟩ := answerFrom_awaits (by simp) hanswer
      refine ⟨hfirst.trans hlater, ?_⟩
      intro turn hout
      exact ⟨result, hsame.trans hresult, by simp [hreply turn hout]⟩
    cases hcategory : categoryContinuation L suspended with
    | none =>
      simp only [hcategory] at hrest
      exact hanswer hrest
    | some continuation =>
      simp only [hcategory] at hrest
      split_ifs at hrest with hverified
      · exact hanswer hrest
      · have hawait : LoopAwait.capturing ≠ .asking := nofun
        rcases hrest.bind_inv with ⟨transaction, s₂, hlead, hlast⟩ | ⟨error, hlead, rfl⟩
        · have hlead := runTeamLead_hears hlead
          obtain ⟨hlater, hsame, hreply⟩ := answerFrom_awaits (by simp) hlast
          refine ⟨hfirst.trans ((hlead.awaits hawait).trans hlater), ?_⟩
          intro turn hout
          exact ⟨result, (hsame.trans hlead.resumed).trans hresult, by simp [hreply turn hout]⟩
        · exact ⟨hfirst.trans ((runTeamLead_hears hlead).awaits hawait), fun turn hout => by cases hout⟩
  · exact ⟨(resumePendingMutation_awaits hresume).1, fun turn hout => by cases hout⟩

theorem decidePending_awaits (h : Exec loopCell (decidePending L suspended) s out s') :
    Awaits s s' out.isOk ∧
      ∀ turn, out = .ok turn → s'.Settles suspended.pendingMutation turn := by
  have hclassify : ∀ {program : LoopProgram PendingDisposition} {out : Except LoopError PendingDisposition}
      {s₁ : LoopState}, program = .ret .ambiguous ∨ program = classifyPendingInteractionInput →
      Exec loopCell program s out s₁ → Hears s s₁ [] ∧ (s₁.aborted = false → out.isOk = true) := by
    intro program out s₁ hprogram hclassify
    rcases hprogram with rfl | rfl
    · cases hclassify
      exact ⟨.refl s, fun _ => rfl⟩
    · exact classify_hears hclassify
  rcases h.bind_inv with ⟨disposition, s₁, hfirst, hrest⟩ | ⟨error, hfirst, rfl⟩
  · have hbefore := (hclassify (by cases L.changeSummary suspended <;> simp) hfirst).1.awaits_nil
    have hask : Exec loopCell (answerFrom .reply [suspended.pendingMutation.result]
        suspended.transactionContinuation) s₁ out s' → Awaits s s' out.isOk ∧
          ∀ turn, out = .ok turn → s'.Settles suspended.pendingMutation turn := by
      intro hanswer
      refine ⟨hbefore.trans (answerFrom_awaits (by simp) hanswer).1, ?_⟩
      intro turn hout
      subst hout
      exact .inr (.inr ⟨_, _, answerFrom_pending hanswer⟩)
    cases disposition with
    | resolve decision =>
      cases decision with
      | approve =>
        obtain ⟨hlater, hreports⟩ := approvePending_awaits hrest
        exact ⟨hbefore.trans hlater, fun turn hout => .inl (hreports turn hout)⟩
      | reject =>
        rcases hrest.bind_inv with ⟨_, s₂, hcancel, hlast⟩ | ⟨error, hcancel, rfl⟩
        · cases hlast
          obtain ⟨hlater, hclosed⟩ := cancelPendingMutation_awaits hcancel
          exact ⟨hbefore.trans hlater, fun turn _ => .inr (.inl (hclosed rfl))⟩
        · exact ⟨hbefore.trans (cancelPendingMutation_awaits hcancel).1,
            fun turn hout => by cases hout⟩
    | new_intent => exact hask hrest
    | ambiguous => exact hask hrest
  · obtain ⟨hhears, hok⟩ := hclassify (by cases L.changeSummary suspended <;> simp) hfirst
    refine ⟨⟨hhears.taken, fun hquiet => ?_⟩, fun turn hout => by cases hout⟩
    exact absurd (hok hquiet) (by simp [Except.isOk, Except.toBool])

/-- How the step ends: with a turn that settles the change, or with an error after an await that was
not answered; unless the signal has aborted. -/
theorem resolvePendingMutation_ends (hstart : s.awaited = [])
    (h : Exec loopCell (resolvePendingMutation L suspended) s out s') : s'.taken = s.taken ∧
      (s'.aborted = false →
        (∃ turn, out = .ok turn ∧ (s'.AllAnswered ∨ s'.AskedAgain) ∧
          s'.Settles suspended.pendingMutation turn) ∨
        (out.isOk = false ∧ ¬ s'.AllAnswered ∧ ¬ s'.AskedAgain)) := by
  have hunanswered : ∀ {s₁ : LoopState} {entries : List (LoopAwait × Bool)}, s₁.awaited = entries →
      entries.all Prod.snd = false → (∀ entry ∈ entries, entry ≠ (.asking, true)) →
      ¬ s₁.AllAnswered ∧ ¬ s₁.AskedAgain := by
    intro s₁ entries hawaited hall hasking
    have hallAnswered : ¬ s₁.AllAnswered := by
      rw [LoopState.AllAnswered, hawaited, ← List.all_eq_true, hall]
      exact Bool.false_ne_true
    have hasked : ¬ s₁.AskedAgain := by
      rw [LoopState.AskedAgain, hawaited]
      exact fun hmem => hasking _ hmem rfl
    exact ⟨hallAnswered, hasked⟩
  rcases h.tryCatch_inv with ⟨turn, hdecide, rfl⟩ | ⟨error, s₁, hdecide, hcatch⟩
  · obtain ⟨hawaits, hsettles⟩ := decidePending_awaits hdecide
    refine ⟨hawaits.taken, fun hquiet => .inl ⟨turn, rfl, .inl ?_, hsettles turn rfl⟩⟩
    obtain ⟨_, entries, hentries, hall, _⟩ := hawaits.heard hquiet
    rw [hstart, List.nil_append] at hentries
    rw [LoopState.AllAnswered, hentries]
    exact List.all_eq_true.1 hall
  · have hawaits := (decidePending_awaits hdecide).1
    rcases hcatch.bind_inv with ⟨aborted, s₂, hsignal, hrest⟩ | ⟨error', hsignal, _⟩
    · obtain ⟨haborted, rfl⟩ := signalAborted_inv hsignal
      cases haborted
      split_ifs at hrest with haborted hcategory
      · cases hrest
        exact ⟨hawaits.taken, fun hquiet => absurd haborted (by simp [hquiet])⟩
      · have hhears := (answerFrom_hears (by simp) hrest).1
        refine ⟨hhears.taken.trans hawaits.taken, fun hquiet => ?_⟩
        obtain ⟨hbefore, hlater⟩ := hhears.heard hquiet
        obtain ⟨_, entries, hentries, hall, hunasked⟩ := hawaits.heard hbefore
        rw [hstart, List.nil_append] at hentries
        rw [hentries] at hlater
        cases out with
        | ok turn =>
          refine .inl ⟨turn, rfl, .inr ?_, .inr (.inr ⟨_, _, answerFrom_pending hrest⟩)⟩
          rw [LoopState.AskedAgain, hlater]
          exact List.mem_append_right _ (List.mem_singleton.2 rfl)
        | error error' =>
          refine .inr ⟨rfl, hunanswered hlater (by simp [List.all_append, Except.isOk, Except.toBool]) ?_⟩
          intro entry hentry hasking
          subst hasking
          rcases List.mem_append.1 hentry with hmem | hmem
          · exact hunasked _ hmem rfl
          · cases List.mem_singleton.1 hmem
      · cases hrest
        refine ⟨hawaits.taken, fun hquiet => .inr ⟨rfl, ?_⟩⟩
        obtain ⟨_, entries, hentries, hall, hunasked⟩ := hawaits.heard hquiet
        rw [hstart, List.nil_append] at hentries
        refine hunanswered hentries hall ?_
        intro entry hentry hasking
        subst hasking
        exact hunasked _ hentry rfl
    · cases (signalAborted_inv hsignal).1

end Decision

/-! ## The turn -/

section Turn

variable {L : LoopContext} {suspended : SuspendedMutation} {s s' : LoopState}

theorem listWorkflowRuns_inv {out : Except LoopError Unit}
    (h : Exec loopCell (loopCall .listWorkflowRuns) s out s') :
    (out = .ok () ∧ s' = s) ∨ (out.isOk = false ∧ s'.taken = s.taken ∧ s'.run = s.run) := by
  obtain ⟨⟨strikes, answer⟩, hrun⟩ := loopCall_inv h
  cases strikes with
  | true =>
    cases hrun
    exact .inr ⟨rfl, rfl, rfl⟩
  | false =>
    cases answer with
    | ok =>
      cases hrun
      exact .inl ⟨rfl, rfl⟩
    | threw =>
      cases hrun
      exact .inr ⟨rfl, rfl, rfl⟩
    | _ => cases hrun

theorem createRun_inv {out : Except LoopError Unit} (h : Exec loopCell (loopCall .createRun) s out s') :
    (out = .ok () ∧ ∃ strikes, s' = { s.struck strikes with taken := true }) ∨
      (out.isOk = false ∧ s'.taken = s.taken ∧ s'.run = s.run) := by
  obtain ⟨⟨strikes, answer⟩, hrun⟩ := loopCall_inv h
  cases answer with
  | ok =>
    cases hrun
    exact .inl ⟨rfl, strikes, rfl⟩
  | threw =>
    cases strikes with
    | true =>
      cases hrun
      exact .inr ⟨rfl, rfl, rfl⟩
    | false =>
      cases hrun
      exact .inr ⟨rfl, rfl, rfl⟩
  | _ => cases hrun

theorem cancelRun_inv {out : Except LoopError Unit} (h : Exec loopCell (loopCall .cancelRun) s out s') :
    out = .ok () ∧ s' = { s with run := .canceled } := by
  obtain ⟨choice, hrun⟩ := loopCall_inv h
  simp only [LoopCall.run, Option.some.injEq, Prod.mk.injEq] at hrun
  exact ⟨hrun.1.symm, hrun.2.symm⟩

theorem startStep_inv {out : Except LoopError Unit} (h : Exec loopCell (loopCall .startStep) s out s') :
    out = .ok () ∧ s' = { s with run := .running } := by
  obtain ⟨choice, hrun⟩ := loopCall_inv h
  simp only [LoopCall.run, Option.some.injEq, Prod.mk.injEq] at hrun
  exact ⟨hrun.1.symm, hrun.2.symm⟩

theorem endStep_inv {run : LoopRun} {out : Except LoopError Unit}
    (h : Exec loopCell (loopCall (.endStep run)) s out s') :
    (out = .ok () ∧ s' = { s with run }) ∨
      (out.isOk = false ∧ s' = { s.struck true with run := .canceled }) := by
  obtain ⟨⟨strikes, answer⟩, hrun⟩ := loopCall_inv h
  cases strikes with
  | true =>
    cases hrun
    exact .inr ⟨rfl, rfl⟩
  | false =>
    cases hrun
    exact .inl ⟨rfl, rfl⟩

/-- The step rejects what it computed once the signal has aborted. -/
theorem orchestratorTurn_ends (hstart : s.awaited = []) {out : Except LoopError OrchestratorTurnResult}
    (h : Exec loopCell (orchestratorTurn L suspended) s out s') : s'.taken = s.taken ∧
      ((∃ turn, out = .ok turn ∧ s'.aborted = false ∧ (s'.AllAnswered ∨ s'.AskedAgain) ∧
          s'.Settles suspended.pendingMutation turn) ∨
        (out.isOk = false ∧ (s'.aborted = false → ¬ s'.AllAnswered ∧ ¬ s'.AskedAgain))) := by
  rcases h.handle_inv with ⟨turn, s₁, hresolve, hrest⟩ | ⟨error, s₁, hresolve, hrest⟩
  · obtain ⟨htaken, hends⟩ := resolvePendingMutation_ends hstart hresolve
    rcases hrest.bind_inv with ⟨aborted, s₂, hsignal, hlast⟩ | ⟨error, hsignal, _⟩
    · obtain ⟨haborted, rfl⟩ := signalAborted_inv hsignal
      cases haborted
      split_ifs at hlast with haborted
      · cases hlast
        exact ⟨htaken, .inr ⟨rfl, fun hquiet => absurd haborted (by simp [hquiet])⟩⟩
      · cases hlast
        have hquiet := Bool.eq_false_iff.2 haborted
        rcases hends hquiet with ⟨turn', hout, hsettled⟩ | ⟨hout, _⟩
        · cases hout
          exact ⟨htaken, .inl ⟨turn, rfl, hquiet, hsettled⟩⟩
        · cases hout
    · cases (signalAborted_inv hsignal).1
  · obtain ⟨htaken, hends⟩ := resolvePendingMutation_ends hstart hresolve
    cases hrest
    refine ⟨htaken, .inr ⟨rfl, fun hquiet => ?_⟩⟩
    rcases hends hquiet with ⟨turn, hout, _⟩ | ⟨_, hunanswered⟩
    · cases hout
    · exact hunanswered

variable {change : PendingChange}

theorem LoopState.Settles.decided {turn : OrchestratorTurnResult} (h : s.Settles change turn) :
    ({ s with run := runAfter turn } : LoopState).Decided change (.ok turn.reply) := by
  rcases h with ⟨result, hresumed, hreply⟩ | hclosed | ⟨reply, continuation, rfl⟩
  · exact .inl ⟨turn.reply, result, rfl, hresumed, hreply⟩
  · exact .inr (.inl hclosed)
  · exact .inr (.inr ⟨continuation, rfl⟩)

variable {out : Except LoopError (List TeamResultEnvelope)}

theorem decided_of_error (hout : out.isOk = false) (hrun : s.run = .failed ∨ s.run = .canceled) :
    s.Decided change out ↔ s.closed = true := by
  refine ⟨?_, fun hclosed => .inr (.inl hclosed)⟩
  intro hdecided
  rcases hdecided with ⟨reply, result, rfl, _⟩ | hclosed | ⟨continuation, hsuspended⟩
  · cases hout
  · exact hclosed
  · rcases hrun with hrun | hrun
    · simp [hrun] at hsuspended
    · simp [hrun] at hsuspended

theorem undisturbed_of_taken (htaken : s.taken = true)
    (hdisturbed : s.aborted = false → ¬ s.AllAnswered ∧ ¬ s.AskedAgain) :
    s.Undisturbed ↔ s.closed = true := by
  refine ⟨?_, fun hclosed => .inr (.inl hclosed)⟩
  intro hundisturbed
  rcases hundisturbed with hnot | hclosed | ⟨hquiet, hheard⟩
  · exact absurd htaken (by simp [hnot])
  · exact hclosed
  · obtain ⟨hanswered, hasked⟩ := hdisturbed hquiet
    exact absurd hheard (by simp [hanswered, hasked])

theorem decided_iff_of_error (hout : out.isOk = false) (hrun : s.run = .failed ∨ s.run = .canceled)
    (htaken : s.taken = true) (hdisturbed : s.aborted = false → ¬ s.AllAnswered ∧ ¬ s.AskedAgain) :
    s.Decided change out ↔ s.Undisturbed :=
  (decided_of_error hout hrun).trans (undisturbed_of_taken htaken hdisturbed).symm

theorem decided_of_untaken (htaken : s.taken = false) (hrun : s.run = .suspendedMutation suspended) :
    s.Decided suspended.pendingMutation out ↔ s.Undisturbed :=
  ⟨fun _ => .inl htaken, fun _ => .inr (.inr ⟨_, hrun⟩)⟩

/-- From the step on. -/
theorem stepped_decided_iff (hstart : s.awaited = []) (htaken : s.taken = true)
    (h : Exec loopCell ((orchestratorTurn L suspended).handle
      (fun result => (loopCall (.endStep (runAfter result))).bind fun _ => .ret result.reply)
      fun error => (loopCall (.endStep .failed)).bind fun _ => .throw error) s out s') :
    s'.Decided suspended.pendingMutation out ↔ s'.Undisturbed := by
  have hcanceled : ∀ {s₁ : LoopState}, s₁.taken = true → out.isOk = false →
      s' = { s₁.struck true with run := .canceled } →
      (s'.Decided suspended.pendingMutation out ↔ s'.Undisturbed) := by
    intro s₁ htaken hout hs'
    subst hs'
    refine decided_iff_of_error hout (.inr rfl) htaken ?_
    intro hquiet
    simp [LoopState.struck] at hquiet
  rcases h.handle_inv with ⟨turn, s₁, hturn, hrest⟩ | ⟨error, s₁, hturn, hrest⟩
  · obtain ⟨hsame, hends⟩ := orchestratorTurn_ends hstart hturn
    have htaken₁ := hsame.trans htaken
    rcases hends with ⟨turn', hout, hquiet, hheard, hsettles⟩ | ⟨hout, _⟩
    · cases hout
      rcases hrest.bind_inv with ⟨_, s₂, hend, hlast⟩ | ⟨error, hend, rfl⟩
      · rcases endStep_inv hend with ⟨_, rfl⟩ | ⟨hout, _⟩
        · cases hlast
          exact ⟨fun _ => .inr (.inr ⟨hquiet, hheard⟩), fun _ => hsettles.decided⟩
        · cases hout
      · rcases endStep_inv hend with ⟨hout, _⟩ | ⟨_, hs'⟩
        · cases hout
        · exact hcanceled htaken₁ rfl hs'
    · cases hout
  · obtain ⟨hsame, hends⟩ := orchestratorTurn_ends hstart hturn
    have htaken₁ := hsame.trans htaken
    rcases hends with ⟨turn', hout, _⟩ | ⟨_, hdisturbed⟩
    · cases hout
    · rcases hrest.bind_inv with ⟨_, s₂, hend, hlast⟩ | ⟨error, hend, rfl⟩
      · cases hlast
        rcases endStep_inv hend with ⟨_, rfl⟩ | ⟨hout, _⟩
        · exact decided_iff_of_error rfl (.inl rfl) htaken₁ hdisturbed
        · cases hout
      · rcases endStep_inv hend with ⟨hout, _⟩ | ⟨_, hs'⟩
        · cases hout
        · exact hcanceled htaken₁ rfl hs'

/-- However the change is classified and whatever fails on the way, a turn on the run that is
suspended for it decides the change exactly when the run was not taken up, the change's task was
closed, or no abort fell into the turn and every await was answered or the question asked again. -/
theorem pending_mutation_decided_iff {out : Except LoopError (List TeamResultEnvelope)}
    (h : Exec loopCell (executeOrchestratorLoop L suspended) (.suspendedOn suspended) out s) :
    s.Decided suspended.pendingMutation out ↔ s.Undisturbed := by
  rcases h.bind_inv with ⟨_, s₁, hlist, hrest⟩ | ⟨error, hlist, rfl⟩
  · rcases listWorkflowRuns_inv hlist with ⟨_, rfl⟩ | ⟨hout, _⟩
    · rcases hrest.bind_inv with ⟨_, s₂, hcreate, hrest⟩ | ⟨error, hcreate, rfl⟩
      · rcases createRun_inv hcreate with ⟨_, strikes, rfl⟩ | ⟨hout, _⟩
        · rcases hrest.bind_inv with ⟨aborted, s₃, hsignal, hrest⟩ | ⟨error, hsignal, _⟩
          · obtain ⟨haborted, rfl⟩ := signalAborted_inv hsignal
            cases haborted
            split_ifs at hrest with haborted
            · rcases hrest.bind_inv with ⟨_, s₄, hcancel, hlast⟩ | ⟨error, hcancel, _⟩
              · obtain ⟨_, rfl⟩ := cancelRun_inv hcancel
                cases hlast
                refine decided_iff_of_error rfl (.inr rfl) rfl ?_
                intro hquiet
                exact Bool.noConfusion (hquiet.symm.trans haborted)
              · cases (cancelRun_inv hcancel).1
            · rcases hrest.bind_inv with ⟨_, s₄, hstartStep, hrest⟩ | ⟨error, hstartStep, _⟩
              · obtain ⟨_, rfl⟩ := startStep_inv hstartStep
                exact stepped_decided_iff rfl rfl hrest
              · cases (startStep_inv hstartStep).1
          · cases (signalAborted_inv hsignal).1
        · cases hout
      · rcases createRun_inv hcreate with ⟨hout, _⟩ | ⟨_, htaken, hrun⟩
        · cases hout
        · exact decided_of_untaken htaken hrun
    · cases hout
  · rcases listWorkflowRuns_inv hlist with ⟨hout, _⟩ | ⟨_, htaken, hrun⟩
    · cases hout
    · exact decided_of_untaken htaken hrun

end Turn

/-! ## An approved change whose reply cannot be composed -/

namespace TestWorkflow

open TestTeam (hash artifact review)

def proposal : CheckedProposalReference := ⟨artifact.taskId, artifact.artifactId, hash⟩

def receipt : MutationReceipt :=
  { TestTeam.receipt with commandType := "apply_chart_of_accounts_change" }

def command : CheckedCommand where
  commandId := receipt.commandId
  householdId := artifact.householdId
  taskId := artifact.taskId
  checkedProposalId := artifact.artifactId
  checkedProposalHash := hash
  commandType := receipt.commandType
  idempotencyKey := receipt.idempotencyKey
  confirmationId := none
  payloadSchema := ⟨"chart-of-accounts-proposal", 1⟩
  payload := .null
  payload_keyed := rfl

def result : TeamResultEnvelope where
  householdId := artifact.householdId
  taskId := artifact.taskId
  team := "accounting"
  status := .partialResult
  claims := [⟨"claim-1", "The account is archived.", [], [artifact.artifactId]⟩]
  assumptions := []
  uncertainty := []
  freshness := []
  coverage := []
  makerArtifacts := [artifact]
  checkerVerdicts := [review]
  selectedSkill := ⟨"chart-of-accounts", 1, hash.hex⟩
  strategyName := "single-maker-checker"
  stopCondition := ⟨"checked-chart-proposal", "Return one checked chart proposal."⟩
  completionReason := "The change awaits its confirmation."
  outstanding := []
  effect := .awaiting_confirmation proposal command

def change : PendingChange := ⟨result, proposal, command, rfl⟩

def suspended : SuspendedMutation := ⟨change, none⟩

def context : LoopContext := ⟨fun _ => some .other, fun _ => some "Archive the chart account."⟩

/-- The change is approved and persisted, and the reply is composed or not. -/
def approved (composed : LoopAnswer) : LoopCall → LoopChoice
  | .generateDisposition _ => ⟨false, .disposition (.resolve .approve)⟩
  | .resume _ => ⟨false, .persisted receipt TestTeam.readback⟩
  | .synthesize _ _ => ⟨false, composed⟩
  | _ => ⟨false, .ok⟩

def persisted : TeamResultEnvelope := change.persisted receipt TestTeam.readback

/-- What an approved turn leaves. -/
def afterApproval (run : LoopRun) (composed : Bool) : LoopState :=
  ⟨false, true, run, some persisted, false, [(.resuming, true), (.replying, composed)]⟩

theorem approved_run : Exec loopCell (executeOrchestratorLoop context suspended)
    (.suspendedOn suspended) (.ok [persisted]) (afterApproval .success true) :=
  Exec.of_playBy (show loopCell.playBy (approved .ok) _ _ = _ from rfl)

theorem uncomposed_run : Exec loopCell (executeOrchestratorLoop context suspended)
    (.suspendedOn suspended) (.error .failed) (afterApproval .failed false) :=
  Exec.of_playBy (show loopCell.playBy (approved .threw) _ _ = _ from rfl)

theorem approved_decided :
    (afterApproval .success true).Decided suspended.pendingMutation (.ok [persisted]) := by
  have hundisturbed : (afterApproval .success true).Undisturbed := by
    refine .inr (.inr ⟨rfl, .inl ?_⟩)
    simp [LoopState.AllAnswered, afterApproval]
  exact (pending_mutation_decided_iff approved_run).2 hundisturbed

/-- The change is persisted, the run has failed, and no reply says so. -/
theorem persisted_undecided : result.valid = true ∧ persisted.valid = true ∧
    ∃ out s, Exec loopCell (executeOrchestratorLoop context suspended) (.suspendedOn suspended) out s ∧
      s.resumed = some persisted ∧ ¬ s.Decided suspended.pendingMutation out := by
  refine ⟨by decide, by decide, .error .failed, afterApproval .failed false, uncomposed_run, rfl, ?_⟩
  intro hdecided
  rcases hdecided with ⟨reply, result, hout, _⟩ | hclosed | ⟨continuation, hsuspended⟩
  · cases hout
  · cases hclosed
  · cases hsuspended

end TestWorkflow

end PlusOne
