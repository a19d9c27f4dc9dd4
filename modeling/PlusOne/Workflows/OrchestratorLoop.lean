import PlusOne.Contracts.Accounting
import PlusOne.Contracts.PendingInteraction
import PlusOne.Interleaving.Exclusive
import PlusOne.Verification.TeamResults

/-! # The orchestrator loop on a pending change

One turn of a workflow run that is suspended for the confirmation of a checked mutation:
`executeOrchestratorLoop`, its step, and `resolvePendingMutation`. Models, repositories
and the workflow engine answer the calls; the signal may abort while one of them is
awaited. -/

namespace PlusOne

open Interleaving

/-! ## What is suspended -/

/-- A team result that awaits its confirmation. -/
structure PendingChange where
  result : TeamResultEnvelope
  proposal : CheckedProposalReference
  command : CheckedCommand
  awaiting : result.effect = .awaiting_confirmation proposal command
  deriving DecidableEq

/-- The transaction that waits for a category, as the lead request it is continued with. -/
structure TransactionContinuation where
  request : Json
  deriving DecidableEq

/-- The payload of kind `mutation_confirmation`. -/
structure SuspendedMutation where
  pendingMutation : PendingChange
  transactionContinuation : Option TransactionContinuation
  deriving DecidableEq

inductive LoopRun
  | suspendedMutation (payload : SuspendedMutation)
  | suspendedClarification
  | running
  | success
  | failed
  | canceled
  deriving DecidableEq

inductive PendingDisposition
  | resolve (decision : Decision)
  | new_intent
  | ambiguous
  deriving DecidableEq

/-- What `ChartOfAccountsProposalSchemaV1` says of the action of a proposal. -/
inductive ChartAction
  | create_account (accountingClass : AccountingClass)
  | other

/-- Code whose inside does not matter to the turn: the parse of a chart proposal, and the summary of
the change that the classifier is given, which may not come about. -/
structure LoopContext where
  chartAction : Json → Option ChartAction
  changeSummary : SuspendedMutation → Option String

/-! ## Calls -/

inductive DispositionRole
  | primary | checker
  deriving DecidableEq

/-- Whether a reply is composed at first, or to ask again after something has failed. -/
inductive SynthesisSite
  | reply | ask
  deriving DecidableEq

inductive LoopCall
  | listWorkflowRuns
  | createRun
  | cancelRun
  | startStep
  | endStep (run : LoopRun)
  | signalAborted
  | generateDisposition (role : DispositionRole)
  | resume (change : PendingChange)
  | cancel (change : PendingChange)
  | runTeamLead (continuation : TransactionContinuation)
  | synthesize (site : SynthesisSite) (results : List TeamResultEnvelope)
  deriving DecidableEq

@[reducible] def LoopReply : LoopCall → Type
  | .listWorkflowRuns | .createRun | .cancelRun | .startStep | .endStep _ | .cancel _
  | .synthesize _ _ => Unit
  | .signalAborted => Bool
  | .generateDisposition _ => PendingDisposition
  | .resume _ | .runTeamLead _ => TeamResultEnvelope

inductive LoopError
  | aborted | failed

abbrev LoopProgram (α : Type) := Prog LoopCall LoopReply LoopError α

def loopCall (call : LoopCall) : LoopProgram (LoopReply call) := Prog.perform call

/-! ## The pending change -/

def adjudicatePendingDisposition (primary checker : PendingDisposition) : PendingDisposition :=
  if primary = .new_intent then primary
  else
    match primary, checker with
    | .resolve decision, .resolve checked => if checked = decision then primary else .ambiguous
    | .ambiguous, .new_intent => checker
    | _, _ => .ambiguous

/-- `generateDisposition`; its failure is taken for no answer unless the signal has aborted. -/
def generateDisposition (role : DispositionRole) : LoopProgram (Option PendingDisposition) :=
  ((loopCall (.generateDisposition role)).bind fun disposition => .ret (some disposition)).tryCatch
    fun error => (loopCall .signalAborted).bind fun aborted =>
      if aborted then .throw error else .ret none

def classifyPendingInteractionInput : LoopProgram PendingDisposition := do
  let primary ← generateDisposition .primary
  match primary with
  | none => return .ambiguous
  | some primary =>
    if primary = .new_intent then return primary
    else
      let checker ← generateDisposition .checker
      match checker with
      | none => return .ambiguous
      | some checker => return adjudicatePendingDisposition primary checker

/-- `resumePendingMutation` and `cancelPendingMutation` look at the signal once, before their call. -/
def unlessAborted {α : Type} (p : LoopProgram α) : LoopProgram α := do
  let aborted ← loopCall .signalAborted
  if aborted then .throw .aborted else p

def resumePendingMutation (change : PendingChange) : LoopProgram TeamResultEnvelope :=
  unlessAborted (loopCall (.resume change))

def cancelPendingMutation (change : PendingChange) : LoopProgram Unit :=
  unlessAborted (loopCall (.cancel change))

def statusRank : TeamResultStatus → Nat
  | .verified => 0
  | .partialResult => 1
  | .insufficient_evidence => 2
  | .conflicted => 3
  | .failed => 4

/-- The last of the results with the best status. -/
def selectTeamResult : List TeamResultEnvelope → Option TeamResultEnvelope
  | [] => none
  | result :: results =>
    match selectTeamResult results with
    | none => some result
    | some best => if statusRank result.status < statusRank best.status then some result else some best

def selectTurnTeamResult (results : List TeamResultEnvelope)
    (continuation : Option TransactionContinuation) : Option TeamResultEnvelope :=
  if continuation.isSome && decide (1 < results.length) then results.getLast?
  else selectTeamResult results

/-- The turn's result, with the team results its reply was composed from. -/
inductive OrchestratorTurnResult
  | askUser (reply : List TeamResultEnvelope) (pending : Option PendingChange)
    (continuation : Option TransactionContinuation)
  | final (reply : List TeamResultEnvelope)

def OrchestratorTurnResult.reply : OrchestratorTurnResult → List TeamResultEnvelope
  | askUser reply _ _ | final reply => reply

def turnFromTeamResults (results : List TeamResultEnvelope)
    (continuation : Option TransactionContinuation) : LoopProgram OrchestratorTurnResult :=
  match selectTurnTeamResult results continuation with
  | none => .throw .failed
  | some result =>
    match h : result.effect with
    | .awaiting_confirmation proposal command =>
      .ret (.askUser results (some ⟨result, proposal, command, h⟩) continuation)
    | _ =>
      .ret (if result.status = .insufficient_evidence then .askUser results none continuation
        else .final results)

/-- `synthesizeTeamResults` and the turn made of its body. -/
def answerFrom (site : SynthesisSite) (results : List TeamResultEnvelope)
    (continuation : Option TransactionContinuation) : LoopProgram OrchestratorTurnResult :=
  (loopCall (.synthesize site results)).bind fun _ => turnFromTeamResults results continuation

def TeamEffect.isPersisted : TeamEffect → Bool
  | persisted _ _ _ => true
  | none | awaiting_confirmation _ _ | unresolved _ _ _ => false

section

variable (L : LoopContext) (suspended : SuspendedMutation)

def isCreateTransactionCategoryProposal (change : PendingChange) : Bool :=
  match L.chartAction change.command.payload with
  | some (.create_account accountingClass) => accountingClass == .expense || accountingClass == .income
  | _ => false

/-- The continuation of a transaction that waits for the category the change creates. -/
def categoryContinuation : Option TransactionContinuation :=
  suspended.transactionContinuation.filter fun _ =>
    isCreateTransactionCategoryProposal L suspended.pendingMutation

/-- `decision === 'approve'` -/
def approvePending : LoopProgram OrchestratorTurnResult := do
  let result ← resumePendingMutation suspended.pendingMutation
  match categoryContinuation L suspended with
  | none => answerFrom .reply [result] none
  | some continuation =>
    if result.status ≠ .verified ∨ result.effect.isPersisted = false then
      answerFrom .reply [result] suspended.transactionContinuation
    else
      let transaction ← loopCall (.runTeamLead continuation)
      answerFrom .reply [result, transaction] suspended.transactionContinuation

/-- The `try` of `resolvePendingMutation`; a trusted text is a reply from no results. -/
def decidePending : LoopProgram OrchestratorTurnResult := do
  let disposition ← (match L.changeSummary suspended with
    | none => .ret .ambiguous
    | some _ => classifyPendingInteractionInput : LoopProgram PendingDisposition)
  match disposition with
  | .resolve .approve => approvePending L suspended
  | .resolve .reject =>
    cancelPendingMutation suspended.pendingMutation
    return .final []
  | .new_intent | .ambiguous =>
    answerFrom .reply [suspended.pendingMutation.result] suspended.transactionContinuation

/-- The `catch` of `resolvePendingMutation`. -/
def askAgain (error : LoopError) : LoopProgram OrchestratorTurnResult := do
  let aborted ← loopCall .signalAborted
  if aborted then .throw error
  else if (categoryContinuation L suspended).isSome then
    answerFrom .ask [suspended.pendingMutation.result] suspended.transactionContinuation
  else .throw error

def resolvePendingMutation : LoopProgram OrchestratorTurnResult :=
  (decidePending L suspended).tryCatch (askAgain L suspended)

/-! ## The loop -/

/-- What the step suspends the run with, or that it succeeds. -/
def runAfter : OrchestratorTurnResult → LoopRun
  | .askUser _ (some change) continuation => .suspendedMutation ⟨change, continuation⟩
  | .askUser _ none _ => .suspendedClarification
  | .final _ => .success

/-- The step of the run; its own await rejects as soon as the signal aborts, while what it awaits
goes on to its end. -/
def orchestratorTurn : LoopProgram OrchestratorTurnResult :=
  (resolvePendingMutation L suspended).handle
    (fun result => (loopCall .signalAborted).bind fun aborted =>
      if aborted then .throw .aborted else .ret result)
    fun error => .throw error

/-- `executeOrchestratorLoop` on the run that is suspended; the team results its reply is from. -/
def executeOrchestratorLoop : LoopProgram (List TeamResultEnvelope) := do
  loopCall .listWorkflowRuns
  loopCall .createRun
  let aborted ← loopCall .signalAborted
  if aborted then
    loopCall .cancelRun
    .throw .aborted
  else
    loopCall .startStep
    (orchestratorTurn L suspended).handle
      (fun result => (loopCall (.endStep (runAfter result))).bind fun _ => .ret result.reply)
      fun error => (loopCall (.endStep .failed)).bind fun _ => .throw error

end

/-! ## What the calls come to -/

/-- The awaits that what becomes of the change depends on. -/
inductive LoopAwait
  | resuming | cancelling | capturing | replying | asking

def SynthesisSite.await : SynthesisSite → LoopAwait
  | reply => .replying
  | ask => .asking

/-- What a call brings. A cancellation may be `unheard`: the task is closed and the call throws. -/
inductive LoopAnswer
  | ok
  | threw
  | disposition (disposition : PendingDisposition)
  | persisted (receipt : MutationReceipt) (readback : ReadbackResult)
  | unresolved (reason : UnresolvedReason)
  | captured (result : TeamResultEnvelope)
  | unheard
  deriving DecidableEq

/-- What a call brings, and whether the signal aborts while it is awaited. -/
structure LoopChoice where
  strikes : Bool
  answer : LoopAnswer
  deriving DecidableEq

/-- The signal, the run, the task of the change, what the resumption returned, and the awaits so far
with whether they were answered. -/
structure LoopState where
  aborted : Bool
  taken : Bool
  run : LoopRun
  resumed : Option TeamResultEnvelope
  closed : Bool
  awaited : List (LoopAwait × Bool)

namespace LoopState

variable (s : LoopState)

/-- Before a turn on a suspended run. -/
def suspendedOn (suspended : SuspendedMutation) : LoopState :=
  ⟨false, false, .suspendedMutation suspended, none, false, []⟩

def struck (strikes : Bool) : LoopState := { s with aborted := s.aborted || strikes }

def hear (await : LoopAwait) (ok : Bool) : LoopState := { s with awaited := s.awaited ++ [(await, ok)] }

end LoopState

/-- The envelope `resume` returns of a change. -/
def PendingChange.persisted (change : PendingChange) (receipt : MutationReceipt)
    (readback : ReadbackResult) : TeamResultEnvelope :=
  { change.result with
    status := .verified
    completionReason := "The checked chart change was committed and read back successfully."
    effect := .persisted change.proposal receipt readback }

def PendingChange.unresolved (change : PendingChange) (reason : UnresolvedReason) : TeamResultEnvelope :=
  { change.result with
    status := .failed
    completionReason := "The mutation outcome requires deterministic reconciliation."
    effect := .unresolved change.proposal change.command.commandId reason }

/-- One call. `run.cancel()` ends a run, also one that is suspended; the run of a step that throws
has failed. -/
def LoopCall.run : (call : LoopCall) → LoopChoice → LoopState →
    Option (Except LoopError (LoopReply call) × LoopState)
  | .listWorkflowRuns, ⟨true, _⟩, s => some (.error .aborted, s.struck true)
  | .listWorkflowRuns, ⟨false, .ok⟩, s => some (.ok (), s)
  | .listWorkflowRuns, ⟨false, .threw⟩, s => some (.error .failed, s)
  -- the signal may still abort between the answer and the check that follows it
  | .createRun, ⟨strikes, .ok⟩, s => some (.ok (), { s.struck strikes with taken := true })
  | .createRun, ⟨true, .threw⟩, s => some (.error .aborted, s.struck true)
  | .createRun, ⟨false, .threw⟩, s => some (.error .failed, s)
  | .cancelRun, _, s => some (.ok (), { s with run := .canceled })
  | .startStep, _, s => some (.ok (), { s with run := .running })
  | .endStep run, ⟨false, _⟩, s => some (.ok (), { s with run })
  | .endStep _, ⟨true, _⟩, s => some (.error .aborted, { s.struck true with run := .canceled })
  | .signalAborted, _, s => some (.ok s.aborted, s)
  | .generateDisposition _, ⟨strikes, .disposition disposition⟩, s =>
    some (.ok disposition, s.struck strikes)
  | .generateDisposition _, ⟨strikes, .threw⟩, s => some (.error .failed, s.struck strikes)
  | .resume change, ⟨strikes, .persisted receipt readback⟩, s =>
    let result := change.persisted receipt readback
    some (.ok result, { (s.struck strikes).hear .resuming true with resumed := some result })
  | .resume change, ⟨strikes, .unresolved reason⟩, s =>
    let result := change.unresolved reason
    some (.ok result, { (s.struck strikes).hear .resuming true with resumed := some result })
  | .resume _, ⟨strikes, .threw⟩, s => some (.error .failed, (s.struck strikes).hear .resuming false)
  | .cancel _, ⟨strikes, .ok⟩, s =>
    some (.ok (), { (s.struck strikes).hear .cancelling true with closed := true })
  | .cancel _, ⟨strikes, .unheard⟩, s =>
    some (.error .failed, { (s.struck strikes).hear .cancelling false with closed := true })
  | .cancel _, ⟨strikes, .threw⟩, s => some (.error .failed, (s.struck strikes).hear .cancelling false)
  | .runTeamLead _, ⟨strikes, .captured result⟩, s =>
    some (.ok result, (s.struck strikes).hear .capturing true)
  | .runTeamLead _, ⟨strikes, .threw⟩, s => some (.error .failed, (s.struck strikes).hear .capturing false)
  | .synthesize site _, ⟨strikes, answer⟩, s =>
    if s.aborted then some (.error .aborted, s)
    else if strikes then some (.error .aborted, (s.struck true).hear site.await false)
    else
      match answer with
      | .ok => some (.ok (), s.hear site.await true)
      | .threw => some (.error .failed, s.hear site.await false)
      | _ => none
  | _, _, _ => none

/-- The turn against everything it calls. -/
def loopCell : Cell LoopCall LoopReply LoopError LoopState := ⟨LoopChoice, LoopCall.run⟩

end PlusOne
