import PlusOne.Mutations.Executor
import PlusOne.Verification.Ledger

/-! # The verification runtime

Its operations as programs over the calls of the ledger, and the reconciliations of
the command state resolver beside them. -/

namespace PlusOne

open Interleaving

/-- Code that runs against the ledger system. -/
abbrev LedgerProgram (α : Type) := Prog AnyCall AnyReply Thrown α

def ask (call : LedgerCall) : LedgerProgram (LedgerReply call) :=
  @Prog.perform AnyCall AnyReply Thrown (.inl call)

/-! ## The ledger repository -/

namespace VerificationLedger

def taskHouseholdNotFound (taskId : TaskId) : PlusOneError :=
  { category := .validation_rejected
    code := "task_household_not_found"
    message := "Verification task household was not found"
    retry := .never
    receiptLookupRequired := false
    details := [("taskId", .text taskId.text)] }

def executionContractNotSelectable (taskId : TaskId) : PlusOneError :=
  { category := .constraint_violation
    code := "execution_contract_not_selectable"
    message := "Execution contract can only be selected for a created task"
    retry := .never
    receiptLookupRequired := false
    details := [("taskId", .text taskId.text)] }

def makerArtifactNotLinkable (taskId : TaskId) : PlusOneError :=
  { category := .constraint_violation
    code := "maker_artifact_not_linkable"
    message := "Maker artifact can only be linked while the maker is running"
    retry := .never
    receiptLookupRequired := false
    details := [("taskId", .text taskId.text)] }

def checkerCoverageMismatch (taskId : TaskId) : PlusOneError :=
  { category := .checker_rejected
    code := "checker_coverage_mismatch"
    message := "Checker verdict does not cover the active maker artifact"
    retry := .never
    receiptLookupRequired := false
    details := [("taskId", .text taskId.text)] }

def checkerVerdictConflict (taskId : TaskId) (checkerArtifactId : ArtifactId) : PlusOneError :=
  { category := .constraint_violation
    code := "checker_verdict_conflict"
    message := "Checker artifact is already linked to a different verdict."
    retry := .never
    receiptLookupRequired := false
    details := [("taskId", .text taskId.text),
      ("checkerArtifactId", .text checkerArtifactId.text)] }

def createTask (input : CreateTaskRecord) : LedgerProgram TaskRow := do
  let inserted : Option TaskRow ← ask (.createTask input)
  match inserted with
  | none => .throw (.plusOne (taskHouseholdNotFound input.taskId))
  | some task => return task

def transition (input : Db.TransitionRecord) : LedgerProgram TaskRow := do
  let outcome : Db.TransitionOutcome ← ask (.transition input)
  match outcome with
  | .notFound => .throw (.plusOne (taskNotFound input.taskId))
  | .stale actual => .throw (.plusOne (staleTaskState input.taskId input.expectedFrom actual))
  | .done task => return task

def selectExecutionContract (input : ContractSelection) : LedgerProgram Unit := do
  let rowCount : Nat ← ask (.selectExecutionContract input)
  if rowCount ≠ 1 then .throw (.plusOne (executionContractNotSelectable input.taskId))
  else return ()

def linkMakerArtifact (key : TaskKey) (artifactId : ArtifactId) (artifactHash : ArtifactHash) :
    LedgerProgram Unit := do
  let rowCount : Nat ← ask (.linkMakerArtifact key artifactId artifactHash)
  if rowCount ≠ 1 then .throw (.plusOne (makerArtifactNotLinkable key.2))
  else return ()

def recordCheckerVerdict (key : TaskKey) (checkerArtifactId : ArtifactId)
    (verdict : CheckerVerdict) : LedgerProgram Unit := do
  let outcome : VerdictOutcome ← ask (.recordCheckerVerdict key checkerArtifactId verdict)
  match outcome with
  | .notFound => .throw (.plusOne (taskNotFound key.2))
  | .coverageMismatch => .throw (.plusOne (checkerCoverageMismatch key.2))
  | .conflict => .throw (.plusOne (checkerVerdictConflict key.2 checkerArtifactId))
  | .recorded => return ()

end VerificationLedger

/-! ## The artifact store -/

namespace ArtifactStore

def householdNotFound (artifactId : ArtifactId) : PlusOneError :=
  { category := .validation_rejected
    code := "artifact_household_not_found"
    message := "Artifact household was not found"
    retry := .never
    receiptLookupRequired := false
    details := [("artifactId", .text artifactId.text)] }

/-- The hash check of `save`; it is the error of `getVerified` under another category. -/
def hashMismatch (artifactId : ArtifactId) : PlusOneError :=
  { category := .validation_rejected
    code := "artifact_hash_mismatch"
    message := "Artifact payload does not match its declared hash"
    retry := .never
    receiptLookupRequired := false
    details := [("artifactId", .text artifactId.text)] }

/-- `createArtifactEnvelope` -/
def createArtifactEnvelope (P : Platform) (key : TaskKey) (artifactId : ArtifactId)
    (artifactType : ArtifactType) (schema : SchemaIdentity) (payload : Json) :
    Except Thrown ArtifactEnvelope :=
  if schema.valid then
    .ok { artifactId, householdId := key.1, taskId := key.2, artifactType, schema
          artifactHash := hashArtifact P payload, payload }
  else .error .zodError

def insert (artifact : ArtifactEnvelope) : LedgerProgram Unit := do
  let rowCount : Nat ← ask (.insertArtifact artifact)
  if rowCount ≠ 1 then .throw (.plusOne (householdNotFound artifact.artifactId))
  else return ()

def isDuplicateArtifactHash (error : Thrown) : Bool :=
  error.code == some "23505" && error.constraint == some "artifacts_household_task_hash_unique"

/-- The `catch` of `save`: the artifact that already has the hash is returned. -/
def existing (artifact : ArtifactEnvelope) (error : Thrown) : LedgerProgram ArtifactEnvelope := do
  if !isDuplicateArtifactHash error then .throw error
  else
    let existing : Option ArtifactEnvelope ← ask
      (.findByTaskAndHash (artifact.householdId, artifact.taskId) artifact.artifactHash)
    match existing with
    | some existing => return existing
    | none => .throw error

def save (P : Platform) (artifact : ArtifactEnvelope) : LedgerProgram ArtifactEnvelope :=
  if hashArtifact P artifact.payload ≠ artifact.artifactHash then
    .throw (.plusOne (hashMismatch artifact.artifactId))
  else
    ((insert artifact).bind fun _ => .ret artifact).tryCatch (existing artifact)

end ArtifactStore

/-! ## Runtime policies -/

/-- `RuntimePolicyIdentitySchemaV1` -/
def PolicyIdentity.valid (identity : PolicyIdentity) : Bool :=
  isKebabName identity.policyName && decide (0 < identity.policyVersion)

def PolicyIdentity.key (identity : PolicyIdentity) : String :=
  identity.policyName ++ "@" ++ toString identity.policyVersion

def runtimePolicyNotFound (identity : PolicyIdentity) : PlusOneError :=
  { category := .validation_rejected
    code := "runtime_policy_not_found"
    message := "Runtime policy was not found"
    retry := .never
    receiptLookupRequired := false
    details := [("policyName", .text identity.policyName),
      ("policyVersion", .number identity.policyVersion)] }

/-- `RuntimePolicyRegistry.resolve`, of the identities of the registered policies. -/
def resolvePolicy (policies : List PolicyIdentity) (identity : PolicyIdentity) :
    Except Thrown PolicyIdentity :=
  if !identity.valid then .error .zodError
  else
    match policies.find? fun policy => policy.key == identity.key with
    | some policy => .ok policy
    | none => .error (.plusOne (runtimePolicyNotFound identity))

/-! ## The runtime -/

namespace VerificationRuntime

def revisionVerdictRequired (taskId : TaskId) : PlusOneError :=
  { category := .checker_rejected
    code := "revision_verdict_required"
    message := "Revision requires a checker revision verdict"
    retry := .never
    receiptLookupRequired := false
    details := [("taskId", .text taskId.text)] }

def checkerAcceptanceRequired (taskId : TaskId) : PlusOneError :=
  { category := .checker_rejected
    code := "checker_acceptance_required"
    message := "Verified completion requires an accepting checker verdict"
    retry := .never
    receiptLookupRequired := false
    details := [("taskId", .text taskId.text)] }

def requireTask (key : TaskKey) : LedgerProgram TaskRow := do
  let task : Option TaskRow ← ask (.findTask key)
  match task with
  | none => .throw (.plusOne (taskNotFound key.2))
  | some task => return task

def requireStatus (key : TaskKey) (expected : TaskStatus) : LedgerProgram TaskRow := do
  let task ← requireTask key
  if task.status ≠ expected then .throw (.plusOne (invalidTransition task.status expected))
  else return task

/-- What a move records beside the two statuses. -/
structure MoveOptions where
  terminal : Bool
  failureCategory : Option String
  resumable : Option Bool

/-- The defaults of `move`. -/
def MoveOptions.default (target : TaskStatus) : MoveOptions :=
  ⟨Db.isTerminalStatus target, none, none⟩

def move (key : TaskKey) (source target : TaskStatus) (reasonCode : String)
    (options : MoveOptions) : LedgerProgram TaskRow := do
  .ofExcept (assertAllowedTransition source target)
  VerificationLedger.transition
    { householdId := key.1, taskId := key.2, expectedFrom := source, toStatus := target, reasonCode
      responsibleComponent := "VerificationRuntime", terminal := options.terminal
      failureCategory := options.failureCategory, resumable := options.resumable }

def moveFromCurrent (key : TaskKey) (allowedFrom : List TaskStatus) (target : TaskStatus)
    (reason : String) : LedgerProgram TaskRow := do
  let task ← requireTask key
  if task.status ∉ allowedFrom then .throw (.plusOne (invalidTransition task.status target))
  else move key task.status target reason (.default target)

def createTask (input : CreateTaskRecord) : LedgerProgram TaskRow :=
  VerificationLedger.createTask input

def selectContract (policies : List PolicyIdentity) (input : ContractSelection) :
    LedgerProgram TaskRow := do
  let policy ← .ofExcept (resolvePolicy policies input.policy)
  VerificationLedger.selectExecutionContract { input with policy }
  move (input.householdId, input.taskId) .created .skill_selected "execution_contract_selected"
    (.default .skill_selected)

def beginMaker (key : TaskKey) : LedgerProgram TaskRow :=
  moveFromCurrent key [.skill_selected, .revision_requested] .maker_running "maker_started"

def validateMaker (P : Platform) (key : TaskKey) (artifactId : ArtifactId)
    (schema : SchemaIdentity) (payload : Json) : LedgerProgram ArtifactEnvelope := do
  let task ← requireStatus key .maker_running
  let artifact ← .ofExcept
    (ArtifactStore.createArtifactEnvelope P key artifactId .maker_output schema payload)
  let stored ← ArtifactStore.save P artifact
  VerificationLedger.linkMakerArtifact key stored.artifactId stored.artifactHash
  let _ ← move key task.status .maker_validated "maker_artifact_validated"
    (.default .maker_validated)
  return stored

def beginChecker (key : TaskKey) : LedgerProgram TaskRow :=
  move key .maker_validated .checker_running "checker_started" (.default .checker_running)

/-- `CheckerVerdictSchemaV1.parse` -/
def parseVerdict (payload : Json) : Except Thrown CheckerVerdict :=
  match CheckerVerdict.parse payload with
  | some verdict => .ok verdict
  | none => .error .zodError

def validateChecker (P : Platform) (key : TaskKey) (checkerArtifactId : ArtifactId)
    (payload : Json) : LedgerProgram ArtifactEnvelope := do
  let _ ← requireStatus key .checker_running
  let verdict ← .ofExcept (parseVerdict payload)
  let artifact ← .ofExcept
    (ArtifactStore.createArtifactEnvelope P key checkerArtifactId .checker_output
      ⟨"checker-verdict", 1⟩ payload)
  let stored ← ArtifactStore.save P artifact
  VerificationLedger.recordCheckerVerdict key stored.artifactId verdict
  let _ ← move key .checker_running .checker_validated "checker_artifact_validated"
    (.default .checker_validated)
  return stored

def requestRevision (key : TaskKey) : LedgerProgram TaskRow := do
  let verdict ← (findLatestVerdict key.1 key.2).inr
  if verdict.map CheckerVerdict.verdict ≠ some .revision_requested then
    .throw (.plusOne (revisionVerdictRequired key.2))
  else
    move key .checker_validated .revision_requested "checker_requested_revision"
      (.default .revision_requested)

/-- The statuses `complete` takes. -/
inductive Completion
  | verified | partialResult | insufficient_evidence | conflicted | failed
  deriving DecidableEq

def Completion.status : Completion → TaskStatus
  | verified => .verified
  | partialResult => .partialResult
  | insufficient_evidence => .insufficient_evidence
  | conflicted => .conflicted
  | failed => .failed

def complete (key : TaskKey) (completion : Completion) : LedgerProgram TaskRow := do
  let task ← requireTask key
  let verdict ← (findLatestVerdict key.1 key.2).inr
  if completion = .verified ∧ verdict.map CheckerVerdict.verdict ≠ some .accepted then
    .throw (.plusOne (checkerAcceptanceRequired key.2))
  else
    let expected : TaskStatus :=
      if task.status = .readback_verified then .readback_verified else .checker_validated
    move key expected completion.status ("task_" ++ completion.status.text)
      { terminal := true
        failureCategory := if completion = .failed then some "runtime_failure" else none
        resumable := some false }

def fail (key : TaskKey) (expectedFrom : TaskStatus) (failureCategory : String)
    (resumable : Bool) : LedgerProgram TaskRow :=
  move key expectedFrom .failed "runtime_failed"
    { terminal := true, failureCategory := some failureCategory, resumable := some resumable }

end VerificationRuntime

/-! ## Everything that drives a task -/

/-- One operation of the runtime, or one reconciliation of the resolver. -/
inductive TaskOperation
  | createTask (input : CreateTaskRecord)
  | selectContract (input : ContractSelection)
  | beginMaker (key : TaskKey)
  | validateMaker (key : TaskKey) (artifactId : ArtifactId) (schema : SchemaIdentity)
      (payload : Json)
  | beginChecker (key : TaskKey)
  | validateChecker (key : TaskKey) (checkerArtifactId : ArtifactId) (verdict : Json)
  | requestRevision (key : TaskKey)
  | complete (key : TaskKey) (completion : VerificationRuntime.Completion)
  | fail (key : TaskKey) (expectedFrom : TaskStatus) (failureCategory : String) (resumable : Bool)
  | reconcile (key : CommandKey)

/-- The code of an operation, its result left aside. -/
def TaskOperation.program (P : Platform) (policies : List PolicyIdentity) :
    TaskOperation → LedgerProgram Unit
  | .createTask input => (VerificationRuntime.createTask input).bind fun _ => .ret ()
  | .selectContract input => (VerificationRuntime.selectContract policies input).bind fun _ => .ret ()
  | .beginMaker key => (VerificationRuntime.beginMaker key).bind fun _ => .ret ()
  | .validateMaker key artifactId schema payload =>
    (VerificationRuntime.validateMaker P key artifactId schema payload).bind fun _ => .ret ()
  | .beginChecker key => (VerificationRuntime.beginChecker key).bind fun _ => .ret ()
  | .validateChecker key checkerArtifactId verdict =>
    (VerificationRuntime.validateChecker P key checkerArtifactId verdict).bind fun _ => .ret ()
  | .requestRevision key => (VerificationRuntime.requestRevision key).bind fun _ => .ret ()
  | .complete key completion =>
    (VerificationRuntime.complete key completion).bind fun _ => .ret ()
  | .fail key expectedFrom failureCategory resumable =>
    (VerificationRuntime.fail key expectedFrom failureCategory resumable).bind fun _ => .ret ()
  | .reconcile key => (PlusOne.reconcile key).inr.bind fun _ => .ret ()

end PlusOne
