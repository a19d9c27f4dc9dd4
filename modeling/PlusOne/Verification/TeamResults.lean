import PlusOne.Relational.Computed
import PlusOne.Verification.WorkCells

/-! # Assembling the result of a team

`TeamResultAssembler.assemble` and the schema of the envelope it parses its result with. -/

namespace PlusOne

/-! ## What work cells hand over -/

/-- What `MakerClaimSchemaV1` accepts. -/
structure MakerClaim where
  claimId : String
  text : String
  evidenceArtifactIds : List ArtifactId
  claimId_length : isTextBetween 1 128 claimId = true
  text_length : isTextBetween 1 8000 text = true
  deriving DecidableEq

/-- What `MakerArtifactSchemaV1` accepts, as far as it is reported. -/
structure MakerArtifact where
  claims : List MakerClaim
  assumptions : List String
  uncertainty : List String
  assumptions_length : assumptions.all (isTextBetween 1 2000) = true
  uncertainty_length : uncertainty.all (isTextBetween 1 2000) = true
  deriving DecidableEq

inductive UnresolvedReason
  | commit_ambiguous | readback_failed
  deriving DecidableEq

inductive MutationState
  | prepared (command : CheckedCommand)
  | unresolved (commandId : MutationCommandId) (reason : UnresolvedReason)
  | persisted (receipt : MutationReceipt) (readback : ReadbackResult)
  deriving DecidableEq

def MutationState.valid : MutationState → Bool
  | prepared command => command.valid
  | unresolved _ _ => true
  | persisted receipt readback => receipt.valid && readback.valid

def CheckerReview.valid (review : CheckerReview) : Bool :=
  review.findings.all fun finding => isNonemptyText finding.code && isNonemptyText finding.message

/-- The result of a work cell with the state of its mutation and the accepted artifact as parsed;
what it holds has passed its own schemas. -/
structure TeamWorkResult extends CheckedWorkCellResult where
  mutation : Option MutationState
  maker : Option MakerArtifact
  mutation_valid : mutation.all MutationState.valid = true
  artifacts_valid : makerArtifacts.all ArtifactEnvelope.valid = true
  verdicts_valid : checkerVerdicts.all CheckerReview.valid = true
  deriving DecidableEq

/-! ## The envelope -/

structure TeamClaim where
  claimId : String
  text : String
  evidenceArtifactIds : List ArtifactId
  checkedMakerArtifactIds : List ArtifactId
  deriving DecidableEq

def TeamClaim.valid (claim : TeamClaim) : Bool :=
  isTextBetween 1 128 claim.claimId && isTextBetween 1 8000 claim.text &&
    !claim.checkedMakerArtifactIds.isEmpty

structure CheckedProposalReference where
  taskId : TaskId
  artifactId : ArtifactId
  artifactHash : ArtifactHash
  deriving DecidableEq

inductive TeamEffect
  | none
  | awaiting_confirmation (proposal : CheckedProposalReference) (command : CheckedCommand)
  | unresolved (proposal : CheckedProposalReference) (commandId : MutationCommandId)
    (reason : UnresolvedReason)
  | persisted (proposal : CheckedProposalReference) (receipt : MutationReceipt) (readback : ReadbackResult)
  deriving DecidableEq

def TeamEffect.valid : TeamEffect → Bool
  | none => true
  | awaiting_confirmation _ command => command.valid
  | unresolved _ _ _ => true
  | persisted _ receipt readback => receipt.valid && readback.valid

structure TeamResultEnvelope where
  householdId : HouseholdId
  taskId : TaskId
  team : String
  status : TeamResultStatus
  claims : List TeamClaim
  assumptions : List String
  uncertainty : List String
  freshness : List String
  coverage : List String
  makerArtifacts : List ArtifactEnvelope
  checkerVerdicts : List CheckerReview
  selectedSkill : SkillIdentity
  strategyName : String
  stopCondition : StopCondition
  completionReason : String
  outstanding : List String
  effect : TeamEffect
  deriving DecidableEq

def CheckerReview.accepts (artifactId : ArtifactId) (artifactHash : ArtifactHash) (review : CheckerReview) :
    Bool :=
  review.verdict.verdict == .accepted && review.verdict.coveredArtifactId == artifactId &&
    review.verdict.coveredArtifactHash == artifactHash

/-- `makers.get(artifactId)`: the last artifact of an identifier is the one in the map. -/
def makerHash (artifacts : List ArtifactEnvelope) (artifactId : ArtifactId) : Option ArtifactHash :=
  (artifacts.reverse.find? fun artifact => artifact.artifactId == artifactId).map
    ArtifactEnvelope.artifactHash

/-- `accepted.has(artifactId)` -/
def acceptedMaker (artifacts : List ArtifactEnvelope) (verdicts : List CheckerReview)
    (artifactId : ArtifactId) : Bool :=
  verdicts.any fun review => review.verdict.verdict == .accepted &&
    review.verdict.coveredArtifactId == artifactId &&
    makerHash artifacts artifactId == some review.verdict.coveredArtifactHash

namespace TeamResultEnvelope

variable (result : TeamResultEnvelope)

/-- `TeamResultEnvelopeBaseSchema` -/
def baseValid : Bool :=
  isKebabName result.team && result.claims.all TeamClaim.valid &&
    result.assumptions.all (isTextBetween 1 2000) && result.uncertainty.all (isTextBetween 1 2000) &&
    result.freshness.all (isTextBetween 1 2000) && result.coverage.all (isTextBetween 1 2000) &&
    result.makerArtifacts.all ArtifactEnvelope.valid && result.checkerVerdicts.all CheckerReview.valid &&
    result.selectedSkill.valid && isKebabName result.strategyName && result.stopCondition.valid &&
    isTextBetween 1 2000 result.completionReason && result.outstanding.all (isTextBetween 1 2000) &&
    result.effect.valid

/-- `refineCheckedClaims` -/
def claimsChecked : Bool :=
  (result.claims.all fun claim => claim.checkedMakerArtifactIds.all
    (acceptedMaker result.makerArtifacts result.checkerVerdicts)) &&
  !(result.status == .verified && result.claims.isEmpty)

/-- What the refinement of version 2 asks of the effect. -/
def effectProved : Bool :=
  match result.effect with
  | .none => true
  | .awaiting_confirmation proposal command =>
    result.status == .partialResult && command.confirmationId.isNone &&
      command.householdId == result.householdId && command.taskId == proposal.taskId &&
      command.checkedProposalId == proposal.artifactId && command.checkedProposalHash == proposal.artifactHash
  | .persisted proposal receipt readback =>
    result.checkerVerdicts.any (CheckerReview.accepts proposal.artifactId proposal.artifactHash) &&
      result.status == .verified && receipt.householdId == result.householdId &&
      receipt.taskId == proposal.taskId && receipt.checkedProposalId == proposal.artifactId &&
      receipt.checkedProposalHash == proposal.artifactHash && readback.commandId == receipt.commandId &&
      readback.receiptId == receipt.receiptId && readback.ok
  | .unresolved _ _ _ => result.status != .verified

/-- `TeamResultEnvelopeSchemaV2` -/
def valid : Bool := result.baseValid && result.claimsChecked && result.effectProved

def parse : Except Thrown TeamResultEnvelope :=
  if result.valid then .ok result else .error .zodError

variable {result}

theorem parse_eq_ok {parsed : TeamResultEnvelope} :
    result.parse = .ok parsed ↔ result.valid = true ∧ parsed = result := by
  unfold parse
  split_ifs with hvalid
  · simp [hvalid, eq_comm]
  · simp [hvalid]

end TeamResultEnvelope

/-! ## The assembler -/

/-- The input of `assemble`. Its names and identities come out of parsed plans and definitions,
and `createdAt` prints the instant an artifact was stored at. -/
structure AssembleInput where
  householdId : HouseholdId
  resultTaskId : TaskId
  team : String
  strategyName : String
  selectedSkill : SkillIdentity
  stopCondition : StopCondition
  results : List TeamWorkResult
  claimSources : Option (List TeamWorkResult)
  createdAt : ArtifactEnvelope → String
  team_name : isKebabName team = true
  strategy_name : isKebabName strategyName = true
  skill_valid : selectedSkill.valid = true
  stop_valid : stopCondition.valid = true
  createdAt_length : ∀ artifact, (createdAt artifact).length ≤ 40

namespace TeamResultAssembler

def multipleMutationEffects (mutationCount : Nat) : PlusOneError :=
  { category := .constraint_violation
    code := "multiple_mutation_effects_not_supported"
    message := "One team result may carry at most one mutation effect"
    retry := .never
    receiptLookupRequired := false
    details := [("mutationCount", .number mutationCount)] }

def mutationNotPrepared (taskId : TaskId) : PlusOneError :=
  { category := .constraint_violation
    code := "checked_mutation_not_prepared"
    message := "A checked mutation cannot reach synthesis without prepared effect state"
    retry := .after_state_resolution
    receiptLookupRequired := false
    details := [("taskId", .text taskId.text)] }

def preparedRequiresExecution (taskId : TaskId) : PlusOneError :=
  { category := .constraint_violation
    code := "prepared_mutation_requires_execution"
    message := "A prepared mutation without required confirmation must execute before assembly"
    retry := .after_state_resolution
    receiptLookupRequired := false
    details := [("taskId", .text taskId.text)] }

def proposalMissing (taskId : TaskId) : PlusOneError :=
  { category := .constraint_violation
    code := "checked_mutation_proposal_missing"
    message := "A checked mutation requires an immutable maker proposal artifact"
    retry := .never
    receiptLookupRequired := false
    details := [("taskId", .text taskId.text)] }

/-- `result.effectRequirement.kind === 'checked_mutation'` -/
def isMutation (result : TeamWorkResult) : Bool := result.effectRequirement != .none

/-- A prepared mutation that needed no confirmation should have been executed. -/
def unconfirmed : MutationState → CheckedEffectRequirement → Bool
  | .prepared _, .checked_mutation proposal => proposal.confirmation != Confirmation.required
  | _, _ => false

/-- The checks on the result that carries a mutation, and the effect it has. -/
def mutationEffect (result : TeamWorkResult) : Except Thrown TeamEffect :=
  match result.mutation with
  | none => .error (.plusOne (mutationNotPrepared result.taskId))
  | some mutation =>
    if unconfirmed mutation result.effectRequirement then .error (.plusOne (preparedRequiresExecution result.taskId))
    else
      match result.makerArtifacts.getLast? with
      | none => .error (.plusOne (proposalMissing result.taskId))
      | some artifact =>
        let proposal : CheckedProposalReference := ⟨result.taskId, artifact.artifactId, artifact.artifactHash⟩
        match mutation with
        | .prepared command => .ok (.awaiting_confirmation proposal command)
        | .persisted receipt readback => .ok (.persisted proposal receipt readback)
        | .unresolved commandId reason => .ok (.unresolved proposal commandId reason)

def effectOf (results : List TeamWorkResult) : Except Thrown TeamEffect :=
  match results.filter isMutation with
  | [] => .ok .none
  | [result] => mutationEffect result
  | many => .error (.plusOne (multipleMutationEffects many.length))

def aggregateStatus (results : List TeamWorkResult) (claimCount : Nat) : TeamResultStatus :=
  if results.any fun result => result.status == .failed then .failed
  else if results.any fun result => result.status == .conflicted then .conflicted
  else if results.all fun result => result.status == .insufficient_evidence then .insufficient_evidence
  else if (results.all fun result => result.status == .verified) && decide (0 < claimCount) then .verified
  else .partialResult

/-- The artifacts of verified results, each with its result and the artifact it is claimed in. -/
def accepted (input : AssembleInput) : List TeamWorkResult :=
  (input.claimSources.getD input.results).filter fun result =>
    result.status == .verified && result.maker.isSome

def claimsOf (result : TeamWorkResult) : List TeamClaim :=
  match result.makerArtifacts.getLast?, result.maker with
  | some current, some maker => maker.claims.map fun claim =>
    { claimId := claim.claimId, text := claim.text, evidenceArtifactIds := claim.evidenceArtifactIds
      checkedMakerArtifactIds := [current.artifactId] }
  | _, _ => []

def freshnessOf (createdAt : ArtifactEnvelope → String) (result : TeamWorkResult) : List String :=
  match result.makerArtifacts.getLast? with
  | some artifact => [artifact.artifactId.text ++ " created " ++ createdAt artifact]
  | none => []

def completionReason (results : List TeamWorkResult) : String :=
  " ".intercalate (results.map fun result => result.completionReason)

def statusOf (input : AssembleInput) (effect : TeamEffect) (claimCount : Nat) : TeamResultStatus :=
  match effect with
  | .awaiting_confirmation _ _ => .partialResult
  | .unresolved _ _ _ => .failed
  | .none | .persisted _ _ _ => aggregateStatus input.results claimCount

def envelope (input : AssembleInput) (effect : TeamEffect) : TeamResultEnvelope :=
  let claims := (accepted input).flatMap claimsOf
  { householdId := input.householdId
    taskId := input.resultTaskId
    team := input.team
    status := statusOf input effect claims.length
    claims
    assumptions := (accepted input).flatMap fun result => (result.maker.map MakerArtifact.assumptions).getD []
    uncertainty := (accepted input).flatMap fun result => (result.maker.map MakerArtifact.uncertainty).getD []
    freshness := (accepted input).flatMap (freshnessOf input.createdAt)
    coverage := (accepted input).map fun result => result.workCellId
    makerArtifacts := input.results.flatMap fun result => result.makerArtifacts
    checkerVerdicts := input.results.flatMap fun result => result.checkerVerdicts
    selectedSkill := input.selectedSkill
    strategyName := input.strategyName
    stopCondition := input.stopCondition
    completionReason := completionReason input.results
    outstanding := input.results.flatMap fun result => result.outstanding
    effect }

def assemble (input : AssembleInput) : Except Thrown TeamResultEnvelope := do
  let effect ← effectOf input.results
  (envelope input effect).parse

/-! ## When a persisted mutation is reported -/

/-- The result of a work cell whose mutation is committed and read back: the checker accepted its
last artifact, and the receipt and the read-back are of that artifact's command. -/
structure CarriesPersisted (input : AssembleInput) (result : TeamWorkResult) (receipt : MutationReceipt)
    (readback : ReadbackResult) : Prop where
  requirement : isMutation result = true
  mutation : result.mutation = some (.persisted receipt readback)
  proposal : ∃ artifact, result.makerArtifacts.getLast? = some artifact ∧
    result.checkerVerdicts.any (CheckerReview.accepts artifact.artifactId artifact.artifactHash) = true ∧
    receipt.checkedProposalId = artifact.artifactId ∧ receipt.checkedProposalHash = artifact.artifactHash
  household : receipt.householdId = input.householdId
  task : receipt.taskId = result.taskId
  command : readback.commandId = receipt.commandId
  receipt : readback.receiptId = receipt.receiptId
  ok : readback.ok = true

/-- What else the assembler needs of its input to report a persisted mutation. -/
structure Reportable (input : AssembleInput) (result : TeamWorkResult) : Prop where
  /-- No other result asks for a mutation. -/
  sole : input.results.filter isMutation = [result]
  /-- Every result is verified. -/
  verified : ∀ other ∈ input.results, other.status = .verified
  /-- Something is claimed. -/
  claimed : ∃ source ∈ accepted input, claimsOf source ≠ []
  /-- What is claimed is in an artifact that a verdict of the results accepts. -/
  checked : ∀ source ∈ accepted input, ∀ claim ∈ claimsOf source, ∀ artifactId ∈ claim.checkedMakerArtifactIds,
    acceptedMaker (input.results.flatMap fun result => result.makerArtifacts)
      (input.results.flatMap fun result => result.checkerVerdicts) artifactId = true
  /-- The reasons together are neither empty nor too long. -/
  reason : isTextBetween 1 2000 (completionReason input.results) = true
  outstanding : ∀ other ∈ input.results, ∀ text ∈ other.outstanding, isTextBetween 1 2000 text = true
  coverage : ∀ source ∈ accepted input, isTextBetween 1 2000 source.workCellId = true

variable {input : AssembleInput} {result : TeamWorkResult} {receipt : MutationReceipt}
  {readback : ReadbackResult}

theorem utf16Length_append (text other : String) :
    Json.utf16Length (text ++ other) = Json.utf16Length text + Json.utf16Length other := by
  simp [Json.utf16Length]

theorem utf16Length_le (text : String) : Json.utf16Length text ≤ 2 * text.length := by
  have hlist : ∀ chars : List Char,
      (chars.map fun c => if c.toNat < 0x10000 then 1 else 2).sum ≤ 2 * chars.length := by
    intro chars
    induction chars with
    | nil => simp
    | cons c chars ih =>
      simp only [List.map_cons, List.sum_cons, List.length_cons]
      split <;> omega
  calc Json.utf16Length text ≤ 2 * text.toList.length := hlist text.toList
    _ = 2 * text.length := by rw [String.length_toList]

theorem artifactId_text_length (artifactId : ArtifactId) : artifactId.text.length = 35 := by
  obtain ⟨hlengths, -⟩ := Bool.and_eq_true_iff.1 artifactId.crockford
  obtain ⟨hmin, hmax⟩ := Bool.and_eq_true_iff.1 hlengths
  have hsuffix : artifactId.suffix.length = 26 :=
    Nat.le_antisymm (of_decide_eq_true hmax) (of_decide_eq_true hmin)
  have hprefix : "artifact_".length = 9 := rfl
  simp [OpaqueId.text, IdKind.idPrefix, hsuffix, hprefix]

theorem freshness_valid : ∀ text ∈ freshnessOf input.createdAt result, isTextBetween 1 2000 text = true := by
  intro text htext
  unfold freshnessOf at htext
  cases hlast : result.makerArtifacts.getLast? with
  | none => simp [hlast] at htext
  | some artifact =>
    simp only [hlast, List.mem_singleton] at htext
    subst htext
    have hid := utf16Length_le artifact.artifactId.text
    have hdate := utf16Length_le (input.createdAt artifact)
    have hlength := input.createdAt_length artifact
    have hmiddle : Json.utf16Length " created " = 9 := by decide
    rw [artifactId_text_length] at hid
    simp only [isTextBetween, Json.isStringBetween, utf16Length_append, hmiddle, Bool.and_eq_true,
      decide_eq_true_eq]
    omega

theorem claims_valid {claim : TeamClaim} (h : claim ∈ claimsOf result) : claim.valid = true := by
  unfold claimsOf at h
  split at h
  · obtain ⟨made, -, rfl⟩ := List.mem_map.1 h
    simp [TeamClaim.valid, made.claimId_length, made.text_length]
  · simp at h

theorem effectOf_persisted (hcarries : CarriesPersisted input result receipt readback)
    (hsole : input.results.filter isMutation = [result]) :
    ∃ artifact, result.makerArtifacts.getLast? = some artifact ∧
      effectOf input.results =
        .ok (.persisted ⟨result.taskId, artifact.artifactId, artifact.artifactHash⟩ receipt readback) := by
  obtain ⟨artifact, hlast, -⟩ := hcarries.proposal
  refine ⟨artifact, hlast, ?_⟩
  unfold effectOf mutationEffect
  simp [hsole, hcarries.mutation, hlast, unconfirmed]

/-- Only one result that asks for a mutation can have its effect reported. -/
theorem sole_of_effectOf {effect : TeamEffect} (hmem : result ∈ input.results)
    (hrequirement : isMutation result = true) (h : effectOf input.results = .ok effect) :
    input.results.filter isMutation = [result] := by
  have hfilter : result ∈ input.results.filter isMutation := List.mem_filter.2 ⟨hmem, hrequirement⟩
  unfold effectOf at h
  split at h
  · rename_i hnone
    rw [hnone] at hfilter
    simp at hfilter
  · rename_i found hone
    rw [hone, List.mem_singleton] at hfilter
    rw [hone, hfilter]
  · cases h

theorem aggregateStatus_verified (hmem : result ∈ input.results) {claimCount : Nat} :
    aggregateStatus input.results claimCount = .verified ↔
      (∀ other ∈ input.results, other.status = .verified) ∧ 0 < claimCount := by
  unfold aggregateStatus
  constructor
  · intro h
    split_ifs at h with hfailed hconflicted hinsufficient hall
    simpa using hall
  · rintro ⟨hall, hcount⟩
    have hnone : ∀ status, status ≠ .verified → (input.results.any fun other => other.status == status) = false := by
      intro status hne
      rw [List.any_eq_false]
      intro other hother
      simpa [hall other hother] using hne.symm
    have hsome : (input.results.all fun other => other.status == .insufficient_evidence) = false := by
      rw [List.all_eq_false]
      exact ⟨result, hmem, by simp [hall result hmem]⟩
    have hverified : (input.results.all fun other => other.status == .verified) = true := by
      rw [List.all_eq_true]
      intro other hother
      simp [hall other hother]
    rw [hnone .failed (by decide), hnone .conflicted (by decide), hsome, hverified]
    simp [hcount]

/-- What the base schema leaves to check of an envelope the assembler builds. -/
theorem baseValid_iff {effect : TeamEffect} (heffect : effect.valid = true) :
    (envelope input effect).baseValid = true ↔
      isTextBetween 1 2000 (completionReason input.results) = true ∧
      (∀ other ∈ input.results, ∀ text ∈ other.outstanding, isTextBetween 1 2000 text = true) ∧
      ∀ source ∈ accepted input, isTextBetween 1 2000 source.workCellId = true := by
  have hclaims : ((accepted input).flatMap claimsOf).all TeamClaim.valid = true := by
    rw [List.all_eq_true]
    intro claim hclaim
    obtain ⟨source, -, hsource⟩ := List.mem_flatMap.1 hclaim
    exact claims_valid hsource
  have htexts : ∀ texts : MakerArtifact → List String,
      (∀ maker, (texts maker).all (isTextBetween 1 2000) = true) →
      ((accepted input).flatMap fun source => (source.maker.map texts).getD []).all (isTextBetween 1 2000) = true := by
    intro texts htexts
    rw [List.all_eq_true]
    intro text htext
    obtain ⟨source, -, hsource⟩ := List.mem_flatMap.1 htext
    cases hmaker : source.maker with
    | none => simp [hmaker] at hsource
    | some maker =>
      simp only [hmaker, Option.map_some, Option.getD_some] at hsource
      exact List.all_eq_true.1 (htexts maker) text hsource
  have hassumptions := htexts MakerArtifact.assumptions MakerArtifact.assumptions_length
  have huncertainty := htexts MakerArtifact.uncertainty MakerArtifact.uncertainty_length
  have hfreshness : ((accepted input).flatMap (freshnessOf input.createdAt)).all (isTextBetween 1 2000) = true := by
    rw [List.all_eq_true]
    intro text htext
    obtain ⟨source, -, hsource⟩ := List.mem_flatMap.1 htext
    exact freshness_valid text hsource
  have hartifacts : (input.results.flatMap fun other => other.makerArtifacts).all ArtifactEnvelope.valid = true := by
    rw [List.all_eq_true]
    intro artifact hartifact
    obtain ⟨other, -, hother⟩ := List.mem_flatMap.1 hartifact
    exact List.all_eq_true.1 other.artifacts_valid artifact hother
  have hverdicts : (input.results.flatMap fun other => other.checkerVerdicts).all CheckerReview.valid = true := by
    rw [List.all_eq_true]
    intro review hreview
    obtain ⟨other, -, hother⟩ := List.mem_flatMap.1 hreview
    exact List.all_eq_true.1 other.verdicts_valid review hother
  simp only [TeamResultEnvelope.baseValid, envelope, input.team_name, hclaims, hassumptions, huncertainty,
    hfreshness, hartifacts, hverdicts, input.skill_valid, input.strategy_name, input.stop_valid, heffect,
    Bool.true_and, Bool.and_true, Bool.and_eq_true, List.all_eq_true, List.mem_map, List.mem_flatMap]
  constructor
  · rintro ⟨⟨hcoverage, hreason⟩, houtstanding⟩
    exact ⟨hreason, fun other hother text htext => houtstanding text ⟨other, hother, htext⟩,
      fun source hsource => hcoverage _ ⟨source, hsource, rfl⟩⟩
  · rintro ⟨hreason, houtstanding, hcoverage⟩
    refine ⟨⟨?_, hreason⟩, ?_⟩
    · rintro _ ⟨source, hsource, rfl⟩
      exact hcoverage source hsource
    · rintro text ⟨other, hother, htext⟩
      exact houtstanding other hother text htext

theorem effect_valid_of_carries (hcarries : CarriesPersisted input result receipt readback)
    (proposal : CheckedProposalReference) : (TeamEffect.persisted proposal receipt readback).valid = true := by
  have hvalid := result.mutation_valid
  rw [hcarries.mutation] at hvalid
  exact hvalid

theorem effectProved_of_carries (hcarries : CarriesPersisted input result receipt readback)
    (hmem : result ∈ input.results) {artifact : ArtifactEnvelope}
    (hlast : result.makerArtifacts.getLast? = some artifact) (proposal : CheckedProposalReference)
    (hproposal : proposal = ⟨result.taskId, artifact.artifactId, artifact.artifactHash⟩) :
    (envelope input (.persisted proposal receipt readback)).effectProved =
      ((envelope input (.persisted proposal receipt readback)).status == .verified) := by
  obtain ⟨artifact', hlast', haccepted, hid, hhash⟩ := hcarries.proposal
  obtain rfl : artifact' = artifact := Option.some.inj (hlast'.symm.trans hlast)
  subst hproposal
  have hsome : (input.results.flatMap fun other => other.checkerVerdicts).any
      (CheckerReview.accepts artifact'.artifactId artifact'.artifactHash) = true := by
    obtain ⟨review, hreview, haccepts⟩ := List.any_eq_true.1 haccepted
    exact List.any_eq_true.2 ⟨review, List.mem_flatMap.2 ⟨result, hmem, hreview⟩, haccepts⟩
  simp [TeamResultEnvelope.effectProved, envelope, hsome, hcarries.household, hcarries.task, hid, hhash,
    hcarries.command, hcarries.receipt, hcarries.ok]

/-- A persisted mutation among the results of a team is reported exactly when nothing else in the
results stands against it. -/
theorem persisted_reported_iff (hcarries : CarriesPersisted input result receipt readback)
    (hmem : result ∈ input.results) :
    (∃ reported proposal, assemble input = .ok reported ∧ reported.valid = true ∧
      reported.effect = .persisted proposal receipt readback) ↔ Reportable input result := by
  constructor
  · rintro ⟨reported, proposal, hassemble, -, heffect⟩
    obtain ⟨effect, hofs, hparse⟩ := Relational.bind_eq_ok.1 hassemble
    obtain ⟨hvalid, rfl⟩ := TeamResultEnvelope.parse_eq_ok.1 hparse
    obtain rfl : effect = .persisted proposal receipt readback := heffect
    have hsole := sole_of_effectOf hmem hcarries.requirement hofs
    obtain ⟨artifact, hlast, hpersisted⟩ := effectOf_persisted hcarries hsole
    have hproposal : proposal = ⟨result.taskId, artifact.artifactId, artifact.artifactHash⟩ := by
      rw [hofs] at hpersisted
      cases hpersisted
      rfl
    simp only [TeamResultEnvelope.valid, Bool.and_eq_true] at hvalid
    obtain ⟨⟨hbase, hchecked⟩, hproved⟩ := hvalid
    obtain ⟨hreason, houtstanding, hcoverage⟩ := (baseValid_iff (effect_valid_of_carries hcarries _)).1 hbase
    rw [effectProved_of_carries hcarries hmem hlast proposal hproposal, beq_iff_eq] at hproved
    obtain ⟨hverified, hcount⟩ := (aggregateStatus_verified hmem).1 hproved
    have hclaimed : ∃ source ∈ accepted input, claimsOf source ≠ [] := by
      obtain ⟨claim, hclaim⟩ := List.exists_mem_of_length_pos hcount
      obtain ⟨source, hsource, hmade⟩ := List.mem_flatMap.1 hclaim
      exact ⟨source, hsource, List.ne_nil_of_mem hmade⟩
    simp only [TeamResultEnvelope.claimsChecked, Bool.and_eq_true, List.all_eq_true] at hchecked
    refine ⟨hsole, hverified, hclaimed, ?_, hreason, houtstanding, hcoverage⟩
    intro source hsource claim hclaim artifactId hartifact
    exact hchecked.1 claim (List.mem_flatMap.2 ⟨source, hsource, hclaim⟩) artifactId hartifact
  · intro hreportable
    obtain ⟨artifact, hlast, hpersisted⟩ := effectOf_persisted hcarries hreportable.sole
    let proposal : CheckedProposalReference := ⟨result.taskId, artifact.artifactId, artifact.artifactHash⟩
    have hpositive : 0 < ((accepted input).flatMap claimsOf).length := by
      obtain ⟨source, hsource, hne⟩ := hreportable.claimed
      obtain ⟨claim, hclaim⟩ := List.exists_mem_of_ne_nil _ hne
      exact List.length_pos_of_mem (List.mem_flatMap.2 ⟨source, hsource, hclaim⟩)
    have hstatus : (envelope input (.persisted proposal receipt readback)).status = .verified :=
      (aggregateStatus_verified hmem).2 ⟨hreportable.verified, hpositive⟩
    have hbase := (baseValid_iff (effect_valid_of_carries hcarries proposal)).2
      ⟨hreportable.reason, hreportable.outstanding, hreportable.coverage⟩
    have hproved := effectProved_of_carries hcarries hmem hlast proposal rfl
    rw [hstatus] at hproved
    have hchecked : (envelope input (.persisted proposal receipt readback)).claimsChecked = true := by
      simp only [TeamResultEnvelope.claimsChecked, Bool.and_eq_true, List.all_eq_true]
      constructor
      · intro claim hclaim artifactId hartifact
        obtain ⟨source, hsource, hmade⟩ := List.mem_flatMap.1 hclaim
        exact hreportable.checked source hsource claim hmade artifactId hartifact
      · have hne : (envelope input (.persisted proposal receipt readback)).claims ≠ [] :=
          List.ne_nil_of_length_pos hpositive
        simp [hne]
    have hvalid : (envelope input (.persisted proposal receipt readback)).valid = true := by
      simp [TeamResultEnvelope.valid, hbase, hchecked, hproved]
    refine ⟨_, proposal, ?_, hvalid, rfl⟩
    exact Relational.bind_eq_ok.2 ⟨_, hpersisted, TeamResultEnvelope.parse_eq_ok.2 ⟨hvalid, rfl⟩⟩

end TeamResultAssembler

/-! ## A committed budget whose plan claims nothing -/

namespace TestTeam

open TeamResultAssembler

def suffix : String := "01JNZQ4A9B8C7D6E5F4G3H2J1K"

def hash : ArtifactHash := ⟨"0123456789abcdef0123456789abcdef0123456789abcdef0123456789abcdef", Eq.refl true⟩

def artifact : ArtifactEnvelope where
  artifactId := ⟨suffix, by decide⟩
  householdId := ⟨suffix, by decide⟩
  taskId := ⟨suffix, by decide⟩
  artifactType := .maker_output
  schema := ⟨"maker-artifact", 1⟩
  artifactHash := hash
  payload := .null

def review : CheckerReview := ⟨⟨.accepted, artifact.artifactId, hash⟩, []⟩

def receipt : MutationReceipt where
  receiptId := ⟨suffix, by decide⟩
  commandId := ⟨suffix, by decide⟩
  householdId := artifact.householdId
  taskId := artifact.taskId
  checkedProposalId := artifact.artifactId
  checkedProposalHash := hash
  commandType := "activate_budget"
  idempotencyKey := ⟨suffix, by decide⟩
  committedRecords := [⟨"planning.budget", "budget_1"⟩]
  expectedState := .null
  expectedStateHash := hash
  committedAt := 0

def readback : ReadbackResult where
  readbackId := ⟨suffix, by decide⟩
  commandId := receipt.commandId
  receiptId := receipt.receiptId
  ok := true
  checks := [⟨.idempotency_receipt, .passed, none⟩]
  mismatches := []
  observedStateHash := hash

def claim : MakerClaim :=
  ⟨"claim-1", "The plan covers every allocation.", [], by decide, by decide⟩

/-- The committed budget plan, with what its maker claims. -/
def budgetPlan (claims : List MakerClaim) : TeamWorkResult where
  householdId := artifact.householdId
  taskId := artifact.taskId
  team := "budgeting"
  workCellId := "budget-plan"
  status := .verified
  completionState := .terminal
  effectRequirement := .checked_mutation ⟨⟨"activate-budget-proposal", 1⟩, .optional⟩
  makerArtifacts := [artifact]
  checkerVerdicts := [review]
  acceptedMaker := some artifact.payload
  failure := none
  completionReason := "The plan is checked."
  outstanding := []
  mutation := some (.persisted receipt readback)
  maker := some ⟨claims, [], [], by decide, by decide⟩
  mutation_valid := by decide
  artifacts_valid := by decide
  verdicts_valid := by decide

def input (claims : List MakerClaim) : AssembleInput where
  householdId := artifact.householdId
  resultTaskId := ⟨"01JNZQ4A9B8C7D6E5F4G3H2J2K", by decide⟩
  team := "budgeting"
  strategyName := "single-maker-checker"
  selectedSkill := ⟨"budget-planning", 1, hash.hex⟩
  stopCondition := ⟨"checked-budget-plan", "Return one checked budget plan."⟩
  results := [budgetPlan claims]
  claimSources := none
  createdAt _ := "2026-01-31T00:00:00.000Z"
  team_name := by decide
  strategy_name := by decide
  skill_valid := by decide
  stop_valid := by decide
  createdAt_length _ := by decide

theorem budgetPlan_carries (claims : List MakerClaim) :
    CarriesPersisted (input claims) (budgetPlan claims) receipt readback where
  requirement := rfl
  mutation := rfl
  proposal := ⟨artifact, rfl, rfl, rfl, rfl⟩
  household := rfl
  task := rfl
  command := rfl
  receipt := rfl
  ok := rfl

/-- The plan is committed and read back, and the result of the team is thrown away. -/
theorem unclaimed_persisted_unreported :
    CarriesPersisted (input []) (budgetPlan []) receipt readback ∧ budgetPlan [] ∈ (input []).results ∧
      assemble (input []) = .error .zodError :=
  ⟨budgetPlan_carries [], List.mem_singleton.2 rfl, by decide⟩

theorem claimed_persisted_reported : ∃ reported proposal, assemble (input [claim]) = .ok reported ∧
    reported.valid = true ∧ reported.effect = .persisted proposal receipt readback := by
  apply (persisted_reported_iff (budgetPlan_carries [claim]) (List.mem_singleton.2 rfl)).2
  constructor <;> decide

end TestTeam

end PlusOne
