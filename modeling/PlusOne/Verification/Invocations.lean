import PlusOne.Contracts.Time
import PlusOne.Verification.Runtime

/-! # Invocations of makers and checkers

What the schemas of the invocations require of values of their types, the errors that a role
can raise, and the failure that such an error is reported as. -/

namespace PlusOne

/-! ## Schemas -/

/-- `z.string().min(lo).max(hi)` -/
def isTextBetween (lo hi : Nat) (text : String) : Bool :=
  Json.isStringBetween lo hi (.str text)

def isNonemptyText (text : String) : Bool := Json.isNonemptyString (.str text)

structure RoleIdentity where
  roleName : String
  roleVersion : Nat
  deriving DecidableEq

/-- `RoleIdentitySchemaV1` -/
def RoleIdentity.valid (role : RoleIdentity) : Bool :=
  isKebabName role.roleName && decide (0 < role.roleVersion)

/-- `SkillIdentitySchemaV1` -/
def SkillIdentity.valid (skill : SkillIdentity) : Bool :=
  isKebabName skill.skillName && decide (0 < skill.skillVersion) &&
    decide (skill.contentHash.length = 64) && skill.contentHash.toList.all isHexDigit

structure StopCondition where
  code : String
  description : String
  deriving DecidableEq

/-- `StopConditionSchemaV1` -/
def StopCondition.valid (condition : StopCondition) : Bool :=
  isKebabName condition.code && isTextBetween 1 2000 condition.description

structure CheckerRubric where
  rubricName : String
  rubricVersion : Nat
  instructions : List String

/-- `CheckerRubricSchemaV1` -/
def CheckerRubric.valid (rubric : CheckerRubric) : Bool :=
  isKebabName rubric.rubricName && decide (0 < rubric.rubricVersion) &&
    rubric.instructions.all (isTextBetween 1 2000) && !rubric.instructions.isEmpty

/-- `z.array(z.string().min(1)).max(32)` -/
def arePolicyLabels (policyLabels : List String) : Bool :=
  policyLabels.all isNonemptyText && decide (policyLabels.length ≤ 32)

/-- `ArtifactEnvelopeSchemaV1`: the other fields are well formed by their types. -/
def ArtifactEnvelope.valid (artifact : ArtifactEnvelope) : Bool := artifact.schema.valid

/-- What `MakerInvocationSchemaV1` and `VerificationTaskSchemaV1` are both about. -/
structure MakerInvocation where
  householdId : HouseholdId
  taskId : TaskId
  team : String
  role : RoleIdentity
  skill : SkillIdentity
  inputSchema : SchemaIdentity
  outputSchema : SchemaIdentity
  input : Json
  permittedEvidence : List ArtifactEnvelope
  policyLabels : List String
  stopCondition : StopCondition

/-- `MakerInvocationSchemaV1` -/
def MakerInvocation.valid (invocation : MakerInvocation) : Bool :=
  isKebabName invocation.team && invocation.role.valid && invocation.skill.valid &&
    invocation.inputSchema.valid && invocation.outputSchema.valid &&
    invocation.permittedEvidence.all ArtifactEnvelope.valid &&
    arePolicyLabels invocation.policyLabels && invocation.stopCondition.valid

structure VerificationTask where
  householdId : HouseholdId
  taskId : TaskId
  checkerRole : RoleIdentity
  makerArtifact : ArtifactEnvelope
  makerInput : Json
  permittedEvidence : List ArtifactEnvelope
  selectedSkill : SkillIdentity
  rubric : CheckerRubric
  policyLabels : List String
  requiredOutputSchema : SchemaIdentity

/-- The items of an array; there are none in anything else. -/
def Json.items : Json → List Json
  | .arr items => items
  | _ => []

/-- `permitted.has(artifactId)` of the identifiers of the permitted evidence. -/
def isPermitted (permittedEvidence : List ArtifactEnvelope) (artifactId : Json) : Bool :=
  permittedEvidence.any fun artifact => artifactId == .str artifact.artifactId.text

/-- The claims of a maker artifact, and the evidence of a claim. -/
def claimsOf (makerOutput : Json) : List Json := ((makerOutput.field? "claims").map Json.items).getD []

def evidenceOf (claim : Json) : List Json :=
  ((claim.field? "evidenceArtifactIds").map Json.items).getD []

/-- `VerificationTaskSchemaV1` -/
def VerificationTask.valid (task : VerificationTask) : Bool :=
  task.checkerRole.valid && task.makerArtifact.valid &&
    task.permittedEvidence.all ArtifactEnvelope.valid && task.selectedSkill.valid &&
    task.rubric.valid && arePolicyLabels task.policyLabels && task.requiredOutputSchema.valid &&
    decide (task.makerArtifact.householdId = task.householdId) &&
    decide (task.makerArtifact.taskId = task.taskId) &&
    (makerOutput task.makerArtifact.payload).isSome &&
    (claimsOf task.makerArtifact.payload).all fun claim =>
      (evidenceOf claim).all (isPermitted task.permittedEvidence)

/-! ## Query results -/

/-- `z.array(...).min(lo).max(hi)` -/
def Json.isArrayBetween (lo hi : Nat) (check : Json → Bool) : Json → Bool
  | .arr items => items.all check && decide (lo ≤ items.length) && decide (items.length ≤ hi)
  | _ => false

/-- `^reporting\.[a-z_]+$` -/
def isReportingRelation (text : String) : Bool :=
  startsWith text "reporting." && decide (10 < text.length) &&
    (text.toList.drop 10).all fun c => isLower c || c == '_'

def isQueryResult : Json → Bool :=
  Json.isStrictObject
    [("schemaName", fun value => value == .str "query-result"),
      ("schemaVersion", fun value => value == .ofNat 1),
      ("relationName", fun value => value.asString.any isReportingRelation),
      ("grain", Json.isArrayBetween 1 16 (Json.isStringBetween 1 128)),
      ("rows", fun value => Json.isArrayOf Json.isObject value && decide (value.items.length ≤ 500)),
      ("fieldDefinitions", fun value =>
        Json.isArrayOf (Json.isStringBetween 1 1000) value && !value.items.isEmpty),
      ("sourceReferences", fun value =>
        Json.isArrayOf (Json.isStringBetween 1 512) value && !value.items.isEmpty),
      ("freshness", Json.isStringBetween 1 1000),
      ("coverageWarnings", Json.isArrayOf (Json.isStringBetween 1 1000))]

/-- `QueryResultSchemaV1.safeParse(output)`, reduced to the relation and the number of its rows. -/
def queryResult (output : Json) : Option (String × Nat) :=
  if isQueryResult output then
    match output.field? "relationName", output.field? "rows" with
    | some (.str relationName), some rows => some (relationName, rows.items.length)
    | _, _ => none
  else none

/-! ## What roles raise -/

/-- An issue of a `ZodError`; the steps of its path are texts. -/
structure ZodIssue where
  path : List String
  code : String

inductive RaisedValue
  | plusOne (error : PlusOneError)
  | zod (issues : List ZodIssue)
  | error (message : String)
  | notAnError

/-- A thrown value, and the causes it was raised for, the nearest one first. -/
structure RaisedError where
  value : RaisedValue
  causes : List RaisedValue

def RaisedValue.isError : RaisedValue → Bool
  | .notAnError => false
  | .plusOne _ | .zod _ | .error _ => true

def RaisedValue.plusOne? : RaisedValue → Option PlusOneError
  | .plusOne failure => some failure
  | .zod _ | .error _ | .notAnError => none

/-- What a caller that looks neither at issues nor at causes sees of it. -/
def RaisedError.thrown (raised : RaisedError) : Thrown :=
  match raised.value with
  | .plusOne error => .plusOne error
  | .zod _ => .zodError
  | .error message => .error message
  | .notAnError => .error ""

/-- `undefined.length` and the like. -/
def typeError : RaisedError := ⟨.error "TypeError", []⟩

/-! ## Normalised failures -/

inductive ExecutionPhase
  | lead_planning | maker_generation | maker_validation | checker_generation
  | checker_validation | checker_rejection | execution
  deriving DecidableEq

structure FailureIssue where
  path : String
  code : String
  deriving DecidableEq

structure LeadExecutionFailure where
  phase : ExecutionPhase
  role : RoleIdentity
  category : ErrorCategory
  code : String
  retry : RetryDirective
  issues : Option (List FailureIssue)
  deriving DecidableEq

def isCodeChar (c : Char) : Bool := isLower c || c.isDigit || c == '_'

/-- `^[a-z][a-z0-9_]+$`, at most 128 characters long -/
def isFailureCode (code : String) : Bool :=
  match code.toList with
  | first :: second :: rest =>
    isLower first && (second :: rest).all isCodeChar && decide (code.length ≤ 128)
  | _ => false

/-- `LeadExecutionFailureSchemaV1` -/
def LeadExecutionFailure.valid (failure : LeadExecutionFailure) : Bool :=
  failure.role.valid && isFailureCode failure.code &&
    failure.issues.all fun issues => decide (issues.length ≤ 16) &&
      issues.all fun issue => isTextBetween 1 256 issue.path && isFailureCode issue.code

def LeadExecutionFailure.parse (failure : LeadExecutionFailure) : Except Thrown LeadExecutionFailure :=
  if failure.valid then .ok failure else .error .zodError

/-- `toLowerCase` as far as it leads to characters of a code: beside the ASCII letters only
the Kelvin sign and the dotted capital I become one. -/
def lowerCase (c : Char) : List Char :=
  if c.toNat = 0x212A then ['k']
  else if c.toNat = 0x130 then ['i', Char.ofNat 0x307]
  else [c.toLower]

/-- `replace(/[^a-z0-9_]+/g, '_')` -/
def underscored : List Char → List Char
  | [] => []
  | c :: rest =>
    if isCodeChar c then c :: underscored rest
    else
      match rest with
      | [] => ['_']
      | next :: _ => if isCodeChar next then '_' :: underscored rest else underscored rest

def normalizeErrorCode (value : String) : String :=
  let lowered := (trim value).toList.flatMap lowerCase
  let normalized := ((underscored lowered).dropWhile (· == '_')).rdropWhile (· == '_')
  match normalized with
  | first :: _ => if isLower first then String.ofList (normalized.take 128) else "execution_failed"
  | [] => "execution_failed"

def genericAgentCodes : List String := ["agent_model_failed", "agent_tool_failed"]

/-- The deepest `PlusOneError` that says more than that an agent failed, else the first one. -/
def mostSpecificPlusOneError (raised : RaisedError) : Option PlusOneError :=
  let chain := ((raised.value :: raised.causes).takeWhile RaisedValue.isError).filterMap
    RaisedValue.plusOne?
  ((chain.filter fun error => error.code ∉ genericAgentCodes).getLast?).or chain.head?

def ZodIssue.reported (issue : ZodIssue) : FailureIssue :=
  { path := if issue.path.isEmpty then "output" else ".".intercalate issue.path
    code := normalizeErrorCode issue.code }

def normalizeExecutionFailure (raised : RaisedError) (phase : ExecutionPhase) (role : RoleIdentity) :
    Except Thrown LeadExecutionFailure :=
  match mostSpecificPlusOneError raised, raised.value with
  | some error, _ => LeadExecutionFailure.parse
      { phase, role, category := error.category, code := normalizeErrorCode error.code
        retry := error.retry, issues := none }
  | none, .zod issues => LeadExecutionFailure.parse
      { phase, role, category := .validation_rejected, code := "agent_output_schema_failed"
        retry := .safe, issues := some ((issues.take 16).map ZodIssue.reported) }
  | none, _ => LeadExecutionFailure.parse
      { phase, role, category := .runtime_failure, code := "execution_failed"
        retry := .after_backoff, issues := none }

structure CheckerFinding where
  code : String
  message : String
  deriving DecidableEq

/-- A checker verdict with its findings. -/
structure CheckerReview where
  verdict : CheckerVerdict
  findings : List CheckerFinding
  deriving DecidableEq

def Json.textField (value : Json) (key : String) : String :=
  ((value.field? key).bind Json.asString).getD ""

/-- `CheckerVerdictSchemaV1.parse(payload)`, the findings kept. -/
def CheckerReview.parse (payload : Json) : Option CheckerReview :=
  (CheckerVerdict.parse payload).map fun verdict =>
    { verdict
      findings := (((payload.field? "findings").map Json.items).getD []).map fun finding =>
        ⟨finding.textField "code", finding.textField "message"⟩ }

def normalizeCheckerFailure (review : CheckerReview) (role : RoleIdentity) :
    Except Thrown LeadExecutionFailure :=
  let revision := review.verdict.verdict == .revision_requested
  LeadExecutionFailure.parse
    { phase := .checker_rejection
      role
      category := .checker_rejected
      code := if revision then "checker_revision_requested" else "checker_rejected"
      retry := if revision then .safe else .never
      issues :=
        if review.findings.isEmpty then none
        else some ((review.findings.take 16).zipIdx.map fun (finding, index) =>
          ⟨"checker.findings." ++ toString index, normalizeErrorCode finding.code⟩) }

end PlusOne
