import PlusOne.Verification.Invocations

/-! # Work cells

`TeamExecutor.executeWorkCell` drives one task from its creation to its end: a maker turn, a checker
turn, the stop condition. One attempt is all that is allowed, so its loops run once. -/

namespace PlusOne

open Interleaving

/-- The identities of the policies a `RuntimePolicyRegistry` was built from; it parsed them. -/
structure RuntimePolicyRegistry where
  policies : List PolicyIdentity
  parsed : ∀ policy ∈ policies, policy.valid = true

/-! ## Definitions of work cells and their results -/

structure AgentRole where
  identity : RoleIdentity
  runtimePolicy : PolicyIdentity

inductive Confirmation
  | required | optional | forbidden
  deriving DecidableEq

structure MutationProposal where
  schema : SchemaIdentity
  confirmation : Confirmation
  deriving DecidableEq

inductive WorkCellEffectPolicy
  | none
  | checked_mutation (proposals : List MutationProposal)

inductive CheckedEffectRequirement
  | none
  | checked_mutation (proposal : MutationProposal)
  deriving DecidableEq

/-- The schemas accept a value by listing no issues; `none` stands for `undefined`. -/
structure WorkCell where
  workCellId : String
  maker : AgentRole
  checker : AgentRole
  makerInputSchema : Json → Bool
  makerOutputSchema : Option Json → Option (List ZodIssue)
  inputSchemaIdentity : SchemaIdentity
  outputSchemaIdentity : SchemaIdentity
  effectPolicy : WorkCellEffectPolicy
  checkerRubric : CheckerRubric
  allowedSkillNames : List String

inductive TeamResultStatus
  | verified | partialResult | insufficient_evidence | conflicted | failed
  deriving DecidableEq

namespace TeamResultStatus

def text : TeamResultStatus → String
  | verified => "verified"
  | partialResult => "partial"
  | insufficient_evidence => "insufficient_evidence"
  | conflicted => "conflicted"
  | failed => "failed"

def all : List TeamResultStatus := [verified, partialResult, insufficient_evidence, conflicted, failed]

def completion : TeamResultStatus → VerificationRuntime.Completion
  | verified => .verified
  | partialResult => .partialResult
  | insufficient_evidence => .insufficient_evidence
  | conflicted => .conflicted
  | failed => .failed

end TeamResultStatus

inductive CompletionState
  | terminal | checked_mutation_pending
  deriving DecidableEq

structure CheckedWorkCellResult where
  householdId : HouseholdId
  taskId : TaskId
  team : String
  workCellId : String
  status : TeamResultStatus
  completionState : CompletionState
  effectRequirement : CheckedEffectRequirement
  makerArtifacts : List ArtifactEnvelope
  checkerVerdicts : List CheckerReview
  acceptedMaker : Option Json
  failure : Option LeadExecutionFailure
  completionReason : String
  outstanding : List String
  deriving DecidableEq

structure WorkCellInput where
  householdId : HouseholdId
  taskId : TaskId
  parentTaskId : Option TaskId
  team : String
  workCell : WorkCell
  selectedSkill : SkillIdentity
  makerInput : Json
  permittedEvidence : List ArtifactEnvelope
  policyLabels : List String
  stopCondition : StopCondition

def WorkCellInput.key (input : WorkCellInput) : TaskKey := (input.householdId, input.taskId)

/-- A JSON value that a JavaScript program can hold. -/
abbrev JsonResult := { value : Json // value.keyed = true }

/-- How everything that a work cell calls beside the ledger turns out. A turn is all that comes
of the role's context and of its run; the two lists are what `zod` reports about an invocation
and about a verdict, and `exceedsZero` is JavaScript's `value > 0`. -/
structure WorkCellTurns where
  maker : Except RaisedError JsonResult
  checker : Except RaisedError JsonResult
  /-- What `evaluateStopCondition` answers; `none` stands for `undefined`. -/
  evaluation : Except RaisedError (Option Json)
  makerArtifactId : ArtifactId
  checkerArtifactId : ArtifactId
  invocationIssues : List ZodIssue
  verdictIssues : List ZodIssue
  exceedsZero : Json → Bool

/-! ## The maker's output -/

/-- `{ ...value, [key]: replacement }` of an object that has the key. -/
def Json.withField (value : Json) (key : String) (replacement : Json) : Json :=
  match value with
  | .obj fields => .obj (fields.map fun entry => if entry.1 = key then (key, replacement) else entry)
  | other => other

/-- `claims.length > 0` of anything but `undefined` and `null`. -/
def hasLength (exceedsZero : Json → Bool) : Json → Bool
  | .arr items => !items.isEmpty
  | .str text => !text.isEmpty
  | .obj fields => ((Json.obj fields).field? "length").any exceedsZero
  | .null | .bool _ | .num _ => false

def rowLabel (rows : Nat) : String := if rows = 1 then "row" else "rows"

def synthesizedClaim (relationName : String) (rows : Nat) : Json :=
  .obj [("claimId", .str "query-result-summary"),
    ("text", .str ("Query result from " ++ relationName ++ " returned " ++ toString rows ++ " " ++
      rowLabel rows ++ ".")),
    ("evidenceArtifactIds", .arr [])]

def synthesizeClaimsIfNeeded (exceedsZero : Json → Bool) (makerOutput : Json)
    (outputSchemaName : String) : Except RaisedError Json :=
  match makerOutput.field? "claims" with
  | none | some .null => .error typeError
  | some claims =>
    if hasLength exceedsZero claims ∨ outputSchemaName ≠ "query-result" then .ok makerOutput
    else
      match (makerOutput.field? "output").bind queryResult with
      | none => .ok makerOutput
      | some (relationName, rows) =>
        .ok (makerOutput.withField "claims" (.arr [synthesizedClaim relationName rows]))

def retainPermittedEvidence (permittedEvidence : List ArtifactEnvelope) (claim : Json) :
    Except RaisedError Json :=
  match claim.field? "evidenceArtifactIds" with
  | some (.arr ids) =>
    .ok (claim.withField "evidenceArtifactIds" (.arr (ids.filter (isPermitted permittedEvidence))))
  | _ => .error typeError

def retainPermittedMakerClaimEvidence (makerOutput : Json) (permittedEvidence : List ArtifactEnvelope) :
    Except RaisedError Json :=
  match makerOutput.field? "claims" with
  | some (.arr claims) => do
    let retained ← claims.mapM (retainPermittedEvidence permittedEvidence)
    return makerOutput.withField "claims" (.arr retained)
  | _ => .error typeError

def makerOutputSchemaIdentityMismatch (expected : SchemaIdentity) : PlusOneError :=
  { category := .validation_rejected
    code := "maker_output_schema_identity_mismatch"
    message := "Maker output schema identity does not match the selected work-cell contract"
    retry := .never
    receiptLookupRequired := false
    details := [("expectedSchemaName", .text expected.schemaName),
      ("expectedSchemaVersion", .number expected.schemaVersion)] }

def assertMakerOutputSchemaIdentity (actual : Option Json) (expected : SchemaIdentity) :
    Except RaisedError Unit :=
  match actual with
  | none | some .null => .error typeError
  | some actual =>
    if actual.field? "schemaName" = some (.str expected.schemaName) ∧
        actual.field? "schemaVersion" = some (.ofNat expected.schemaVersion) then .ok ()
    else .error ⟨.plusOne (makerOutputSchemaIdentityMismatch expected), []⟩

/-- `schema.parse(output)` -/
def parseMakerOutput (workCell : WorkCell) (output : Option Json) : Except RaisedError Unit :=
  match workCell.makerOutputSchema output with
  | none => .ok ()
  | some issues => .error ⟨.zod issues, []⟩

def makerClaimEvidenceNotPermitted (taskId : TaskId) (invalid : List Json) : PlusOneError :=
  { category := .validation_rejected
    code := "maker_claim_evidence_not_permitted"
    message := "Maker claim references evidence outside permittedEvidence"
    retry := .safe
    receiptLookupRequired := false
    details := [("taskId", .text taskId.text),
      ("artifactIds", .text (",".intercalate (invalid.filterMap Json.asString).dedup))] }

def assertMakerClaimsUsePermittedEvidence (makerOutput : Json)
    (permittedEvidence : List ArtifactEnvelope) (taskId : TaskId) : Except RaisedError Unit :=
  let invalid := (claimsOf makerOutput).flatMap fun claim =>
    (evidenceOf claim).filter fun artifactId => !isPermitted permittedEvidence artifactId
  if invalid.isEmpty then .ok ()
  else .error ⟨.plusOne (makerClaimEvidenceNotPermitted taskId invalid), []⟩

namespace WorkCellInput

def makerInvocation (input : WorkCellInput) : MakerInvocation :=
  { householdId := input.householdId, taskId := input.taskId, team := input.team
    role := input.workCell.maker.identity, skill := input.selectedSkill
    inputSchema := input.workCell.inputSchemaIdentity
    outputSchema := input.workCell.outputSchemaIdentity, input := input.makerInput
    permittedEvidence := input.permittedEvidence, policyLabels := input.policyLabels
    stopCondition := input.stopCondition }

/-- What the maker's `try` does up to the end of its run. -/
def generateMaker (input : WorkCellInput) (turns : WorkCellTurns) : Except RaisedError Json :=
  if input.makerInvocation.valid then turns.maker.map Subtype.val
  else .error ⟨.zod turns.invocationIssues, []⟩

/-- The rest of the maker's `try`. -/
def checkMaker (input : WorkCellInput) (turns : WorkCellTurns) (generated : Json) :
    Except RaisedError Json := do
  let synthesized ← synthesizeClaimsIfNeeded turns.exceedsZero generated
    input.workCell.outputSchemaIdentity.schemaName
  let makerOutput ← retainPermittedMakerClaimEvidence synthesized input.permittedEvidence
  assertMakerOutputSchemaIdentity (makerOutput.field? "outputSchema")
    input.workCell.outputSchemaIdentity
  parseMakerOutput input.workCell (makerOutput.field? "output")
  assertMakerClaimsUsePermittedEvidence makerOutput input.permittedEvidence input.taskId
  return makerOutput

/-- The maker's `try`; a failure comes with the phase it belongs to. -/
def makerTurn (input : WorkCellInput) (turns : WorkCellTurns) :
    Except (ExecutionPhase × RaisedError) Json :=
  match input.generateMaker turns with
  | .error raised => .error (.maker_generation, raised)
  | .ok generated =>
    match input.checkMaker turns generated with
    | .error raised => .error (.maker_validation, raised)
    | .ok makerOutput => .ok makerOutput

/-! ## The checker's verdict -/

def verificationTask (input : WorkCellInput) (makerArtifact : ArtifactEnvelope) : VerificationTask :=
  { householdId := input.householdId, taskId := input.taskId
    checkerRole := input.workCell.checker.identity, makerArtifact, makerInput := input.makerInput
    permittedEvidence := input.permittedEvidence, selectedSkill := input.selectedSkill
    rubric := input.workCell.checkerRubric, policyLabels := input.policyLabels
    requiredOutputSchema := ⟨"checker-verdict", 1⟩ }

end WorkCellInput

/-- `{ ...value }`; what an array or a text spreads into has no key that a verdict has. -/
def Json.spread : Json → List (String × Json)
  | .obj fields => fields
  | .null | .bool _ | .num _ | .str _ | .arr _ => []

/-- `{ ...fields, [key]: value }` -/
def setField (fields : List (String × Json)) (key : String) (value : Json) : List (String × Json) :=
  if key ∈ fields.map Prod.fst then
    fields.map fun entry => if entry.1 = key then (key, value) else entry
  else fields ++ [(key, value)]

/-- The decision, bound to the artifact it is about. -/
def boundVerdict (decision : Json) (makerArtifact : ArtifactEnvelope) : Json :=
  .obj (setField (setField decision.spread "coveredArtifactId" (.str makerArtifact.artifactId.text))
    "coveredArtifactHash" (.str makerArtifact.artifactHash.hex))

/-- The checker's `try`: the verdict as it is recorded, and as the rest of the code reads it. -/
def checkerTurn (turns : WorkCellTurns) (makerArtifact : ArtifactEnvelope) :
    Except RaisedError (Json × CheckerReview) := do
  let decision ← turns.checker
  let payload := boundVerdict decision.1 makerArtifact
  match CheckerReview.parse payload with
  | none => .error ⟨.zod turns.verdictIssues, []⟩
  | some review => .ok (payload, review)

/-! ## The stop condition -/

structure TerminalResult where
  status : TeamResultStatus
  reason : String
  outstanding : List String

def terminalFor (review : CheckerReview) : TerminalResult :=
  let outstanding := review.findings.map CheckerFinding.message
  match review.verdict.verdict with
  | .insufficient_evidence =>
    ⟨.insufficient_evidence, "The checker found required evidence absent or too weak.", outstanding⟩
  | .conflicted => ⟨.conflicted, "The checker found irreconcilable checked evidence.", outstanding⟩
  | .accepted | .rejected | .revision_requested =>
    ⟨.failed, "The checker rejected the artifact or revision attempts were exhausted.", outstanding⟩

def endsWith (text ending : String) : Bool := ending.toList.isSuffixOf text.toList

def acceptedClarification (output : Option Json) : Option TerminalResult := do
  let output ← output
  let schemaName ← (output.field? "schemaName").bind Json.asString
  if !endsWith schemaName "clarification" then none
  else
    let reason := ((output.field? "reason").bind Json.asString).getD "Maker requested clarification."
    let questions := (((output.field? "questions").map Json.items).getD []).filterMap Json.asString
    some ⟨.insufficient_evidence, reason, if questions.isEmpty then [reason] else questions⟩

/-- The three `parse` calls on an evaluation. -/
def parseEvaluation (evaluated : Json) : Option TerminalResult := do
  let statusText ← (← evaluated.field? "status").asString
  let status ← TeamResultStatus.all.find? fun status => status.text == statusText
  let reason ← (← evaluated.field? "reason").asString
  let outstanding ← evaluated.field? "outstanding"
  if isNonemptyText reason && Json.isArrayOf Json.isNonemptyString outstanding then
    some ⟨status, reason, outstanding.items.filterMap Json.asString⟩
  else none

def TerminalResult.parse (terminal : TerminalResult) : Option TerminalResult :=
  if isNonemptyText terminal.reason && terminal.outstanding.all isNonemptyText then some terminal
  else none

/-- `status`, `reason` and `outstanding` of whatever the stop condition answered. -/
def parseAnswer (answer : Option Json) : Except RaisedError TerminalResult :=
  match answer with
  | none | some .null => .error typeError
  | some evaluated =>
    match parseEvaluation evaluated with
    | none => .error ⟨.zod [], []⟩
    | some terminal => .ok terminal

def verifiedStopWithoutClaims (taskId : TaskId) : PlusOneError :=
  { category := .validation_rejected
    code := "verified_stop_without_claims"
    message := "A verified stop condition requires at least one checked claim"
    retry := .never
    receiptLookupRequired := false
    details := [("taskId", .text taskId.text)] }

/-- `schema.parse` of a result that the code itself spelled out. -/
def parseTerminal (terminal : TerminalResult) : Except RaisedError TerminalResult :=
  match terminal.parse with
  | none => .error ⟨.zod [], []⟩
  | some terminal => .ok terminal

/-- A clarification, else the answer of the stop condition, else what the verdict alone decides. -/
def evaluateTerminal (turns : WorkCellTurns) (makerOutput : Json) (review : CheckerReview) :
    Except RaisedError TerminalResult :=
  if review.verdict.verdict = .accepted then
    match acceptedClarification (makerOutput.field? "output") with
    | some clarification => parseTerminal clarification
    | none => turns.evaluation.bind parseAnswer
  else parseTerminal (terminalFor review)

/-- The `try` around the stop condition. -/
def evaluateStop (taskId : TaskId) (turns : WorkCellTurns) (makerOutput : Json)
    (review : CheckerReview) : Except RaisedError TerminalResult :=
  match evaluateTerminal turns makerOutput review with
  | .error raised => .error raised
  | .ok terminal =>
    if terminal.status = .verified ∧ claimsOf makerOutput = [] then
      .error ⟨.plusOne (verifiedStopWithoutClaims taskId), []⟩
    else .ok terminal

def effectRequirementFor (workCell : WorkCell) (output : Option Json) : CheckedEffectRequirement :=
  match workCell.effectPolicy, output with
  | .none, _ | _, none => .none
  | .checked_mutation proposals, some output =>
    match output.field? "schemaName", output.field? "schemaVersion" with
    | some (.str schemaName), some (.num schemaVersion) =>
      match proposals.find? fun candidate => candidate.schema.schemaName == schemaName &&
          Json.ofNat candidate.schema.schemaVersion == .num schemaVersion with
      | none => .none
      | some proposal => .checked_mutation proposal
    | _, _ => .none

/-! ## The execution -/

section Execution

variable (P : Platform) (policies : List PolicyIdentity) (input : WorkCellInput) (turns : WorkCellTurns)

def workCellSkillNotAllowed (workCellId : String) : PlusOneError :=
  { category := .policy_rejected
    code := "work_cell_skill_not_allowed"
    message := "Selected skill is not allowed by the work cell"
    retry := .never
    receiptLookupRequired := false
    details := [("workCellId", .text workCellId)] }

def coverageMismatch (taskId : TaskId) : PlusOneError :=
  { category := .checker_rejected
    code := "checker_coverage_mismatch"
    message := "Checker verdict does not cover the exact current maker artifact"
    retry := .never
    receiptLookupRequired := false
    details := [("taskId", .text taskId.text)] }

/-- The public error that names a failed work cell, if there is one. -/
def RaisedError.plusOne? (raised : RaisedError) : Option PlusOneError := raised.value.plusOne?

def failedResult (makerArtifacts : List ArtifactEnvelope) (raised : RaisedError) (phase : ExecutionPhase)
    (role : RoleIdentity) : Except Thrown CheckedWorkCellResult := do
  let failure ← normalizeExecutionFailure raised phase role
  return { householdId := input.householdId, taskId := input.taskId, team := input.team
           workCellId := input.workCell.workCellId, status := .failed, completionState := .terminal
           effectRequirement := .none, makerArtifacts, checkerVerdicts := [], acceptedMaker := none
           failure := some failure
           completionReason := (raised.plusOne?.map PlusOneError.message).getD
             "Work cell execution failed."
           outstanding := (raised.plusOne?.map PlusOneError.code).toList }

/-- The `catch` of either role: the task fails from where the role was running. -/
def closeFailed (source : TaskStatus) (makerArtifacts : List ArtifactEnvelope) (raised : RaisedError)
    (phase : ExecutionPhase) (role : RoleIdentity) : LedgerProgram CheckedWorkCellResult := do
  if raised.plusOne?.map PlusOneError.code = some "agent_call_cancelled" then
    let _ ← VerificationRuntime.fail input.key source "cancelled" false
    .throw raised.thrown
  else
    let _ ← VerificationRuntime.fail input.key source "runtime_failure" false
    .ofExcept (failedResult input makerArtifacts raised phase role)

/-- What follows a stop condition that was met. -/
def finishWorkCell (makerArtifact : ArtifactEnvelope) (makerOutput : Json) (review : CheckerReview)
    (terminal : TerminalResult) : LedgerProgram CheckedWorkCellResult := do
  let effectRequirement : CheckedEffectRequirement :=
    if review.verdict.verdict = .accepted ∧ terminal.status = .verified then
      effectRequirementFor input.workCell (makerOutput.field? "output")
    else .none
  let result : CheckedWorkCellResult :=
    { householdId := input.householdId, taskId := input.taskId, team := input.team
      workCellId := input.workCell.workCellId, status := terminal.status, completionState := .terminal
      effectRequirement, makerArtifacts := [makerArtifact], checkerVerdicts := [review]
      acceptedMaker := if review.verdict.verdict = .accepted then some makerOutput else none
      failure := none, completionReason := terminal.reason, outstanding := terminal.outstanding }
  match effectRequirement with
  | .checked_mutation _ => return { result with completionState := .checked_mutation_pending }
  | .none =>
    let _ ← VerificationRuntime.complete input.key terminal.status.completion
    if terminal.status = .failed then
      let failure ← .ofExcept (normalizeCheckerFailure review input.workCell.checker.identity)
      return { result with failure := some failure }
    else return result

/-- What follows a checker turn that gave a verdict. -/
def judgeWorkCell (makerArtifact : ArtifactEnvelope) (makerOutput payload : Json)
    (review : CheckerReview) : LedgerProgram CheckedWorkCellResult := do
  if review.verdict.coveredArtifactId ≠ makerArtifact.artifactId ∨
      review.verdict.coveredArtifactHash ≠ makerArtifact.artifactHash then
    let _ ← VerificationRuntime.fail input.key .checker_running "checker_rejected" false
    .throw (.plusOne (coverageMismatch input.taskId))
  else
    let _ ← VerificationRuntime.validateChecker P input.key turns.checkerArtifactId payload
    match evaluateStop input.taskId turns makerOutput review with
    | .error raised =>
      let _ ← VerificationRuntime.complete input.key .failed
      .throw raised.thrown
    | .ok terminal => finishWorkCell input makerArtifact makerOutput review terminal

/-- What follows a maker turn that gave an output. The verification task is parsed outside of
any `try`. -/
def checkWorkCell (makerOutput : Json) : LedgerProgram CheckedWorkCellResult := do
  let makerArtifact ← VerificationRuntime.validateMaker P input.key turns.makerArtifactId
    ⟨"maker-artifact", 1⟩ makerOutput
  let _ ← VerificationRuntime.beginChecker input.key
  if !(input.verificationTask makerArtifact).valid then .throw .zodError
  else
    match checkerTurn turns makerArtifact with
    | .error raised =>
      closeFailed input .checker_running [makerArtifact] raised .checker_generation
        input.workCell.checker.identity
    | .ok (payload, review) => judgeWorkCell P input turns makerArtifact makerOutput payload review

/-- What comes before the task is created; the identity of the maker's policy is kept. -/
def admitWorkCell : Except Thrown PolicyIdentity := do
  if input.selectedSkill.skillName ∉ input.workCell.allowedSkillNames then
    throw (.plusOne (workCellSkillNotAllowed input.workCell.workCellId))
  let makerPolicy ← resolvePolicy policies input.workCell.maker.runtimePolicy
  let _ ← resolvePolicy policies input.workCell.checker.runtimePolicy
  if !input.workCell.makerInputSchema input.makerInput then throw .zodError
  return makerPolicy

def executeWorkCell : LedgerProgram CheckedWorkCellResult := do
  let makerPolicy ← .ofExcept (admitWorkCell policies input)
  let _ ← VerificationRuntime.createTask
    { householdId := input.householdId, taskId := input.taskId, parentTaskId := input.parentTaskId
      attemptLimit := 1 }
  let _ ← VerificationRuntime.selectContract policies
    { householdId := input.householdId, taskId := input.taskId, skill := input.selectedSkill
      inputSchema := input.workCell.inputSchemaIdentity
      outputSchema := input.workCell.outputSchemaIdentity, policy := makerPolicy }
  let _ ← VerificationRuntime.beginMaker input.key
  match input.makerTurn turns with
  | .error (phase, raised) =>
    closeFailed input .maker_running [] raised phase input.workCell.maker.identity
  | .ok makerOutput => checkWorkCell P input turns makerOutput

end Execution

end PlusOne
