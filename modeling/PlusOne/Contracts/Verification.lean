import PlusOne.Contracts.Identifiers
import PlusOne.Contracts.Json

/-! # Verification tasks, artifacts and verdicts -/

namespace PlusOne

/-- `TaskStatusSchemaV1`; `partialResult` is the status named partial. -/
inductive TaskStatus
  | created | skill_selected | maker_running | maker_validated | checker_running
  | checker_validated | revision_requested | execution_pending | committed | readback_verified
  | execution_failed | readback_failed | verified | partialResult | insufficient_evidence
  | conflicted | failed
  deriving DecidableEq

inductive ArtifactType
  | maker_output | checker_output | evidence_package | calculation | reconciliation
  | mutation_proposal | team_result
  deriving DecidableEq

structure ArtifactEnvelope where
  artifactId : ArtifactId
  householdId : HouseholdId
  taskId : TaskId
  artifactType : ArtifactType
  schema : SchemaIdentity
  artifactHash : ArtifactHash
  payload : Json
  deriving DecidableEq

inductive Verdict
  | accepted | rejected | revision_requested | insufficient_evidence | conflicted
  deriving DecidableEq

def Verdict.text : Verdict → String
  | accepted => "accepted"
  | rejected => "rejected"
  | revision_requested => "revision_requested"
  | insufficient_evidence => "insufficient_evidence"
  | conflicted => "conflicted"

def Verdict.all : List Verdict :=
  [accepted, rejected, revision_requested, insufficient_evidence, conflicted]

structure CheckerVerdict where
  verdict : Verdict
  coveredArtifactId : ArtifactId
  coveredArtifactHash : ArtifactHash
  deriving DecidableEq

/-! ## Parsing payloads -/

/-- Read an identifier of a kind back from its text. -/
def OpaqueId.parse (kind : IdKind) (text : String) : Option (OpaqueId kind) :=
  let start := kind.idPrefix ++ "_"
  if start.toList.isPrefixOf text.toList = true then
    let suffix := String.ofList (text.toList.drop start.length)
    if h : kind.admits suffix = true then some ⟨suffix, h⟩ else none
  else none

def ArtifactHash.parse (hex : String) : Option ArtifactHash :=
  if h : (decide (hex.length = 64) && hex.toList.all isHexDigit) = true then some ⟨hex, h⟩ else none

def Json.asString : Json → Option String
  | .str s => some s
  | _ => none

def Json.isSchemaIdentity : Json → Bool :=
  Json.isStrictObject
    [("schemaName", fun value => value.asString.any isKebabName),
      ("schemaVersion", fun value =>
        match value with
        | .num n => n.text.toList.all Char.isDigit && n.text != "0"
        | _ => false)]

def Json.isMakerClaim : Json → Bool :=
  Json.isStrictObject
    [("claimId", Json.isStringBetween 1 128), ("text", Json.isStringBetween 1 8000),
      ("evidenceArtifactIds", Json.isArrayOf fun value =>
        value.asString.any fun text => (OpaqueId.parse .artifact text).isSome)]

/-- `MakerArtifactSchemaV1.safeParse(payload)`, reduced to the output it carries. -/
def makerOutput (payload : Json) : Option Json :=
  let ok := payload.isStrictObject
    [("schemaName", fun value => value == .str "maker-artifact"),
      ("schemaVersion", fun value => value == .ofNat 1),
      ("outputSchema", Json.isSchemaIdentity), ("output", fun _ => true),
      ("claims", Json.isArrayOf Json.isMakerClaim),
      ("assumptions", Json.isArrayOf (Json.isStringBetween 1 2000)),
      ("uncertainty", Json.isArrayOf (Json.isStringBetween 1 2000))]
  if ok then payload.field? "output" else none

def Json.isCheckerFinding : Json → Bool :=
  Json.isStrictObject [("code", Json.isNonemptyString), ("message", Json.isNonemptyString)]

/-- `CheckerVerdictSchemaV1.parse(payload)`; the findings are only checked. -/
def CheckerVerdict.parse (payload : Json) : Option CheckerVerdict := do
  let verdictText ← (← payload.field? "verdict").asString
  let verdict ← Verdict.all.find? fun verdict => verdict.text == verdictText
  let coveredArtifactId ← OpaqueId.parse .artifact (← (← payload.field? "coveredArtifactId").asString)
  let coveredArtifactHash ← ArtifactHash.parse (← (← payload.field? "coveredArtifactHash").asString)
  if payload.isStrictObject
      [("verdict", fun _ => true), ("coveredArtifactId", fun _ => true),
        ("coveredArtifactHash", fun _ => true), ("findings", Json.isArrayOf Json.isCheckerFinding)] then
    some { verdict, coveredArtifactId, coveredArtifactHash }
  else none

end PlusOne
