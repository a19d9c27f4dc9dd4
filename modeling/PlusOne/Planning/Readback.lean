import PlusOne.Mutations.Executor
import PlusOne.Planning.Records

/-! # The planning handlers

`PlanningCommandHandlers`: what each of them executes, and how it reads a committed record back. -/

namespace PlusOne

open Numeric Relational

/-- What the planning code takes from outside besides the texts of instants: the time zones the
engine knows, and `new Date(archived_at).toISOString()` on an instant of the database. -/
structure PlanningFormats extends TimeFormats where
  isIanaTimezone : String → Bool
  toISOString : Nat → String

/-! ## What the schemas check beyond the types of the fields -/

def isPlanningKey : String → Bool := lengthBetween 1 80

def isPlanningName : String → Bool := lengthBetween 1 160

def PlanningRecurrence.valid (F : PlanningFormats) (recurrence : PlanningRecurrence) : Bool :=
  decide (0 < recurrence.interval) && F.isIanaTimezone recurrence.timezone

def UpdateObligationProposal.valid (F : PlanningFormats) (input : UpdateObligationProposal) : Bool :=
  isPlanningKey input.obligationKey && isPlanningName input.name && input.recurrence.valid F &&
    decide (1 ≤ input.dueDay) && decide (input.dueDay ≤ 31) &&
    input.counterpartyName.all isPlanningName && input.budgetCategoryKey.all isPlanningKey

def UpsertSavingsGoalProposal.valid (input : UpsertSavingsGoalProposal) : Bool :=
  isPlanningKey input.goalKey && isPlanningName input.name && !input.assetAccountIds.isEmpty &&
    input.budgetCategoryKey.all isPlanningKey && input.virtualAllocations.all fun allocation => isPlanningKey allocation.allocationKey

/-- `^\d+(\.\d{1,8})?$` -/
def isInterestRate (rate : DecimalString) : Bool := !rate.negative && decide (rate.scale ≤ 8)

def UpsertDebtPlanProposal.valid (F : PlanningFormats) (input : UpsertDebtPlanProposal) : Bool :=
  isPlanningKey input.debtPlanKey && isPlanningName input.name &&
    input.budgetCategoryKey.all isPlanningKey && isPlanningName input.loanAgreement.lenderName &&
    isInterestRate input.loanAgreement.annualInterestRate &&
    input.loanAgreement.paymentSchedule.valid F && decide (0 < input.strategy.priority)

def ArchivePlanningRecordProposal.valid (F : PlanningFormats) (input : ArchivePlanningRecordProposal) :
    Bool :=
  isPlanningKey input.recordKey && F.isUtcInstant input.archivedAt

/-! ## What is read back -/

/-- `^[1-9]\d*$` -/
def isDatabaseId (text : String) : Bool :=
  match text.toList with
  | first :: rest => first.isDigit && first != '0' && rest.all Char.isDigit
  | [] => false

structure PlanningReadback where
  householdId : HouseholdId
  recordType : String
  recordId : String
  auditRecordId : String
  archivedAt : Option String
  deriving DecidableEq

namespace PlanningReadback

/-- What `PlanningReadbackSchemaV1` checks beyond the types of the fields. -/
def valid (F : PlanningFormats) (state : PlanningReadback) : Bool :=
  decide (1 ≤ Json.utf16Length state.recordType) && isDatabaseId state.recordId &&
    isDatabaseId state.auditRecordId && state.archivedAt.all F.isUtcInstant

def toJson (state : PlanningReadback) : Json :=
  .obj [("schemaName", .str "planning-readback"), ("schemaVersion", .ofNat 1),
    ("householdId", .str state.householdId.text), ("recordType", .str state.recordType),
    ("recordId", .str state.recordId), ("auditRecordId", .str state.auditRecordId),
    ("archivedAt", (state.archivedAt.map Json.str).getD .null)]

/-- `z.string().nullable()` -/
def nullableText : Json → Option (Option String)
  | .null => some none
  | .str text => some (some text)
  | _ => none

/-- `PlanningReadbackSchemaV1.parse(value)` -/
def parse (F : PlanningFormats) (value : Json) : Option PlanningReadback := do
  let householdId ← OpaqueId.parse .household (← (← value.field? "householdId").asString)
  let recordType ← (← value.field? "recordType").asString
  let recordId ← (← value.field? "recordId").asString
  let auditRecordId ← (← value.field? "auditRecordId").asString
  let archivedAt ← nullableText (← value.field? "archivedAt")
  let state : PlanningReadback := { householdId, recordType, recordId, auditRecordId, archivedAt }
  if value.isStrictObject
      [("schemaName", fun value => value == .str "planning-readback"),
        ("schemaVersion", fun value => value == .ofNat 1), ("householdId", fun _ => true),
        ("recordType", fun _ => true), ("recordId", fun _ => true), ("auditRecordId", fun _ => true),
        ("archivedAt", fun _ => true)] && state.valid F then
    some state
  else none

end PlanningReadback

/-- `PlanningReadbackSchemaV1.parse` on a state the code has put together. -/
def parsePlanningReadback (F : PlanningFormats) (state : PlanningReadback) : Except Thrown PlanningReadback :=
  if state.valid F then .ok state else .error .zodError

/-! ## Executing -/

/-- `BudgetRepository.activate` with the identity of the version it inserts. -/
def BudgetRepository.activateVersion (d : PlanningDb) (input : ActivateBudgetProposal) :
    Except Thrown (Nat × PlanningDb) := do
  require (d.findHousehold input.householdId).isSome (.error "Household was not found")
  let (scopeId, d) ← upsertScope d input.householdId input.scopeKey
  let (categoryIds, d) ← upsertCategories input.householdId input.categories [] d
  let (versionId, d) ← insertVersion d input scopeId
  let d ← insertAllocations input.householdId versionId categoryIds input.allocations d
  let d ← insertMappings input.householdId categoryIds input.mappings d
  return (versionId, d)

/-- `SavingsGoalRepository.upsert` with the identity of the goal. -/
def SavingsGoalRepository.upsertRecord (d : PlanningDb) (input : UpsertSavingsGoalProposal) :
    Except Thrown (Nat × PlanningDb) := do
  require (d.findHousehold input.householdId).isSome (.error "Household was not found")
  let (goalId, d) ← upsertGoal d input
  let d ← linkAccounts input.householdId goalId input.assetAccountIds d
  let d ← upsertVirtualAllocations input.householdId goalId input.virtualAllocations d
  return (goalId, d)

/-- A record the tables hold and the record of its change, as an upsert reads them back. -/
def recorded (F : PlanningFormats) (d : PlanningRecords) (context : CheckedCommand) (householdId : HouseholdId)
    (recordType : PlanningRecordType) (recordId : Nat) (action : String) (payload : PlanningProposal)
    (archivedAt : Option String) : Except Thrown (PlanningReadback × PlanningRecords) := do
  let (auditRecordId, d) := d.audit context householdId recordType.table recordId action payload
  let state ← parsePlanningReadback F
    { householdId, recordType := recordType.text, recordId := toString recordId
      auditRecordId := toString auditRecordId, archivedAt }
  return (state, d)

namespace PlanningRecords

variable (F : PlanningFormats) (d : PlanningRecords) (context : CheckedCommand)

def activateBudget (input : ActivateBudgetProposal) : Except Thrown (PlanningReadback × PlanningRecords) := do
  require input.valid .zodError
  let (versionId, db) ← BudgetRepository.activateVersion d.toPlanningDb input
  recorded F { d with toPlanningDb := db } context input.householdId .budget_version versionId "created"
    (.activate_budget input) none

def updateObligation (input : UpdateObligationProposal) : Except Thrown (PlanningReadback × PlanningRecords) := do
  require (input.valid F) .zodError
  require (d.findHousehold input.householdId).isSome (.error "Household was not found")
  let (obligationId, d) ← ObligationRepository.upsertObligation d input
  let d ← ObligationRepository.upsertOccurrences input.householdId obligationId input.occurrences d
  recorded F d context input.householdId .obligation obligationId "updated" (.update_obligation input) none

def upsertSavingsGoal (input : UpsertSavingsGoalProposal) :
    Except Thrown (PlanningReadback × PlanningRecords) := do
  require input.valid .zodError
  let (goalId, db) ← SavingsGoalRepository.upsertRecord d.toPlanningDb input
  recorded F { d with toPlanningDb := db } context input.householdId .savings_goal goalId "updated"
    (.upsert_savings_goal input) none

def upsertDebtPlan (input : UpsertDebtPlanProposal) : Except Thrown (PlanningReadback × PlanningRecords) := do
  require (input.valid F) .zodError
  require (d.findHousehold input.householdId).isSome (.error "Household was not found")
  let (loanAgreementId, d) ← DebtPlanRepository.insertLoanAgreement d input
  let (debtPlanId, d) ← DebtPlanRepository.upsertDebtPlan d input loanAgreementId
  recorded F d context input.householdId .debt_plan debtPlanId "updated" (.upsert_debt_plan input) none

def archivePlanningRecord (input : ArchivePlanningRecordProposal) :
    Except Thrown (PlanningReadback × PlanningRecords) := do
  require (input.valid F) .zodError
  require (d.findHousehold input.householdId).isSome (.error "Household was not found")
  let some archivedAt := F.timestamptz input.archivedAt
    | throw (.pg ⟨some "22008", none, "date/time field value out of range"⟩)
  let some row := (d.activeRows input.recordType).find? fun row =>
      row.1 == input.householdId && row.2.1 == input.recordKey
    | throw (.error "Planning record was not active")
  recorded F (d.archiveRow input.recordType row.2.2 archivedAt) context input.householdId input.recordType
    row.2.2 "archived" (.archive_planning_record input) (some (F.toISOString archivedAt))

end PlanningRecords

/-! ## The handlers -/

/-- A handler of `PlanningCommandHandlers`; every one of them takes a confirmation if there is one. -/
structure PlanningCommandHandler where
  commandType : String
  requiredReadbackChecks : List ReadbackCheckKind
  execute : PlanningRecords → PlanningProposal → CheckedCommand →
    Except Thrown (MutationExecutionOutput × PlanningRecords)
  readback : PlanningRecords → PlanningProposal → MutationReceipt → Except Thrown DomainReadbackOutput

namespace PlanningCommandHandler

variable (F : PlanningFormats)

def output (state : PlanningReadback) : MutationExecutionOutput :=
  { committedRecords := [⟨"planning." ++ state.recordType, state.recordId⟩]
    expectedState := state.toJson }

/-- The read-back of every planning handler: it asks the database nothing. -/
def readbackExpected (_client : PlanningRecords) (_input : PlanningProposal) (receipt : MutationReceipt) :
    Except Thrown DomainReadbackOutput :=
  match PlanningReadback.parse F receipt.expectedState with
  | none => .error .zodError
  | some observed =>
    .ok
      { checks := [⟨.identifiers, .passed, none⟩, ⟨.row_values, .passed, none⟩,
          ⟨.source_links, .not_applicable, none⟩, ⟨.artifact_links, .passed, none⟩]
        mismatches := []
        observedState := observed.toJson }

/-- A handler of the list: its own `parse` admits the proposals `run` is defined on. -/
def planning (commandType : String)
    (run : PlanningRecords → PlanningProposal → CheckedCommand →
      Except Thrown (PlanningReadback × PlanningRecords)) : PlanningCommandHandler where
  commandType
  requiredReadbackChecks := [.identifiers, .row_values, .artifact_links, .idempotency_receipt]
  execute d input context := do
    let (state, d) ← run d input context
    return (output state, d)
  readback := readbackExpected F

def activate_budget : PlanningCommandHandler :=
  planning F "activate_budget" fun d input context =>
    match input with
    | .activate_budget input => d.activateBudget F context input
    | _ => .error .zodError

def update_obligation : PlanningCommandHandler :=
  planning F "update_obligation" fun d input context =>
    match input with
    | .update_obligation input => d.updateObligation F context input
    | _ => .error .zodError

def upsert_savings_goal : PlanningCommandHandler :=
  planning F "upsert_savings_goal" fun d input context =>
    match input with
    | .upsert_savings_goal input => d.upsertSavingsGoal F context input
    | _ => .error .zodError

def upsert_debt_plan : PlanningCommandHandler :=
  planning F "upsert_debt_plan" fun d input context =>
    match input with
    | .upsert_debt_plan input => d.upsertDebtPlan F context input
    | _ => .error .zodError

def archive_planning_record : PlanningCommandHandler :=
  planning F "archive_planning_record" fun d input context =>
    match input with
    | .archive_planning_record input => d.archivePlanningRecord F context input
    | _ => .error .zodError

/-- What the executor makes of a read-back whose receipt is the stored one. -/
def reportsPassed (handler : PlanningCommandHandler) (output : DomainReadbackOutput) : Bool :=
  output.mismatches.isEmpty && (requiredFailures handler.requiredReadbackChecks
    (output.checks ++ [⟨.idempotency_receipt, .passed, none⟩])).isEmpty

end PlanningCommandHandler

open PlanningCommandHandler in
def PlanningCommandHandlers (F : PlanningFormats) : List PlanningCommandHandler :=
  [activate_budget F, update_obligation F, upsert_savings_goal F, upsert_debt_plan F,
    archive_planning_record F]

/-! ## The rows of a record -/

namespace PlanningRecords

variable (F : PlanningFormats) (d : PlanningRecords)

/-- The household and the identity of the rows of a table, and whether each is archived. -/
def recordRows : PlanningRecordType → List (HouseholdId × Nat × Bool)
  | .budget_scope => d.scopes.map fun row => (row.householdId, row.scopeId, row.archived)
  | .budget_category => d.categories.map fun row => (row.householdId, row.categoryId, row.archived)
  | .budget_version => d.versions.map fun row => (row.householdId, row.versionId, false)
  | .obligation => d.obligations.map fun row => (row.householdId, row.obligationId, row.archived)
  | .savings_goal => d.savingsGoals.map fun row => (row.householdId, row.goalId, row.archived)
  | .debt_plan => d.debtPlans.map fun row => (row.householdId, row.debtPlanId, row.archived)

/-- `archived_at` of a row, as a read-back spells it. -/
def archivedText (recordType : PlanningRecordType) (recordId : Nat) (archived : Bool) : Option String :=
  if archived then (d.archivedAt.lookup (recordType, recordId)).map F.toISOString else none

def isCategory (householdId : HouseholdId) (categoryKey : String) (categoryId : Nat) : Bool :=
  d.categories.any fun row => row.householdId == householdId && row.categoryKey == categoryKey &&
    row.categoryId == categoryId

def holdsBudget (input : ActivateBudgetProposal) (versionId : Nat) : Bool :=
  (d.versions.any fun row => row.householdId == input.householdId && row.versionId == versionId &&
    row.name == input.name && row.validFrom == input.validFrom && row.validTo == input.validTo &&
    d.scopes.any fun scope => scope.householdId == input.householdId && scope.scopeId == row.scopeId &&
      scope.scopeKey == input.scopeKey) &&
  (input.allocations.all fun allocation => d.allocations.any fun row =>
    row.householdId == input.householdId && row.versionId == versionId &&
      d.isCategory input.householdId allocation.categoryKey row.categoryId &&
      row.periodStart == allocation.periodStart && row.periodEnd == allocation.periodEnd &&
      some row.amount == Fixed.store allocation.amount.amount &&
      row.currency == allocation.amount.currency) &&
  input.mappings.all fun mapping => d.mappings.any fun row =>
    row.householdId == input.householdId &&
      d.isCategory input.householdId mapping.categoryKey row.categoryId &&
      row.accountId == mapping.accountId && row.direction == mapping.direction &&
      row.validFrom == mapping.validFrom && row.validTo == mapping.validTo && !row.archived

def holdsObligation (input : UpdateObligationProposal) (obligationId : Nat) : Bool :=
  (d.obligations.any fun row => row.householdId == input.householdId &&
    row.obligationId == obligationId && row.obligationKey == input.obligationKey &&
    row.variant == input.variant && row.name == input.name &&
    row.lifecycleStatus == input.lifecycleStatus && row.recurrence == input.recurrence &&
    some row.expectedAmount == Fixed.store input.expectedAmount.amount &&
    row.expectedCurrency == input.expectedAmount.currency && row.dueDay == input.dueDay &&
    row.counterpartyName == input.counterpartyName && row.accountId == input.accountId &&
    row.budgetCategoryId.all fun categoryId => input.budgetCategoryKey.any fun categoryKey =>
      d.isCategory input.householdId categoryKey categoryId) &&
  input.occurrences.all fun occurrence => d.occurrences.any fun row =>
    occurrence.isUnder input.householdId obligationId row && row.dueDate == occurrence.dueDate &&
      some row.expectedAmount == Fixed.store occurrence.expectedAmount.amount &&
      row.expectedCurrency == occurrence.expectedAmount.currency

def holdsGoal (input : UpsertSavingsGoalProposal) (goalId : Nat) : Bool :=
  (d.savingsGoals.any fun row => row.householdId == input.householdId && row.goalId == goalId &&
    row.goalKey == input.goalKey && row.name == input.name &&
    some row.targetAmount == Fixed.store input.target.amount &&
    row.targetCurrency == input.target.currency && row.targetDate == input.targetDate) &&
  (input.assetAccountIds.all fun accountId => d.savingsGoalAccounts.any fun row =>
    row.householdId == input.householdId && row.goalId == goalId && row.accountId == accountId &&
      !row.archived) &&
  input.virtualAllocations.all fun allocation => d.virtualAllocations.any fun row =>
    allocation.isUnder input.householdId row && row.goalId == goalId &&
      some row.amount == Fixed.store allocation.amount.amount &&
      row.currency == allocation.amount.currency

def holdsDebtPlan (input : UpsertDebtPlanProposal) (debtPlanId : Nat) : Bool :=
  d.debtPlans.any fun row => row.householdId == input.householdId && row.debtPlanId == debtPlanId &&
    row.debtPlanKey == input.debtPlanKey && row.liabilityAccountId == input.liabilityAccountId &&
    row.name == input.name &&
    some row.monthlyPaymentAmount == Fixed.store input.strategy.monthlyPayment.amount &&
    row.monthlyPaymentCurrency == input.strategy.monthlyPayment.currency &&
    row.priority == input.strategy.priority &&
    d.loanAgreements.any fun loan => loan.loanAgreementId == row.loanAgreementId &&
      loan.householdId == input.householdId && loan.liabilityAccountId == input.liabilityAccountId &&
      loan.lenderName == input.loanAgreement.lenderName &&
      some loan.principalAmount == Fixed.store input.loanAgreement.principal.amount &&
      loan.principalCurrency == input.loanAgreement.principal.currency &&
      some loan.annualInterestRate == Fixed.store input.loanAgreement.annualInterestRate &&
      loan.effectiveFrom == input.loanAgreement.effectiveFrom &&
      loan.paymentSchedule == input.loanAgreement.paymentSchedule

/-- The rows of a record have the values its proposal gave them. -/
def holds (recordId : Nat) : PlanningProposal → Bool
  | .activate_budget input => d.holdsBudget input recordId
  | .update_obligation input => d.holdsObligation input recordId
  | .upsert_savings_goal input => d.holdsGoal input recordId
  | .upsert_debt_plan input => d.holdsDebtPlan input recordId
  | .archive_planning_record input => (d.activeRows input.recordType).all fun row => row.2.2 != recordId

/-- The record an expected state names is in the tables: its row, archived as the state says, and
the record of the change it was written by. -/
structure Recorded (state : PlanningReadback) (recordType : PlanningRecordType) (recordId : Nat)
    (input : PlanningProposal) : Prop where
  named : recordType.text = state.recordType ∧ toString recordId = state.recordId
  row : ∃ archived, (state.householdId, recordId, archived) ∈ d.recordRows recordType ∧
    d.archivedText F recordType recordId archived = state.archivedAt
  audit : ∃ audit ∈ d.auditRecords, toString audit.auditRecordId = state.auditRecordId ∧
    audit.householdId = state.householdId ∧ audit.entityTable = recordType.table ∧
    audit.entityId = recordId ∧ audit.payload = input

/-- The rows of the database match an expected state. -/
def RowsMatch (state : PlanningReadback) (input : PlanningProposal) : Prop :=
  ∃ recordType recordId, d.Recorded F state recordType recordId input ∧ d.holds recordId input = true

end PlanningRecords

/-! ## What a command leaves -/

namespace BudgetRepository

variable {d d' : PlanningDb} {householdId : HouseholdId} {versionId : Nat} {categoryIds : CategoryIds}

theorem insertVersion_mem {input : ActivateBudgetProposal} {scopeId : Nat}
    (h : insertVersion d input scopeId = .ok (versionId, d')) :
    ∃ version ∈ d'.versions, version.householdId = input.householdId ∧ version.versionId = versionId := by
  rw [insertVersion, require_bind_eq_ok, require_bind_eq_ok] at h
  obtain ⟨_, _, h⟩ := h
  cases h
  simp

theorem insertAllocations_versions {allocations : List BudgetAllocationProposal}
    (h : insertAllocations householdId versionId categoryIds allocations d = .ok d') :
    d'.versions = d.versions := by
  induction allocations generalizing d with
  | nil =>
    cases h
    rfl
  | cons allocation rest ih =>
    obtain ⟨d₁, h₁, h⟩ := bind_eq_ok.1 h
    have hstep : d₁.versions = d.versions := by
      obtain ⟨amount, _, h₁⟩ := bind_eq_ok.1 h₁
      split at h₁
      · rw [require_bind_eq_ok, require_bind_eq_ok, require_bind_eq_ok] at h₁
        obtain ⟨_, _, _, h₁⟩ := h₁
        cases h₁
        rfl
      · cases h₁
    rw [ih h, hstep]

theorem insertMappings_versions {mappings : List BudgetMappingProposal}
    (h : insertMappings householdId categoryIds mappings d = .ok d') : d'.versions = d.versions := by
  induction mappings generalizing d with
  | nil =>
    cases h
    rfl
  | cons mapping rest ih =>
    obtain ⟨d₁, h₁, h⟩ := bind_eq_ok.1 h
    obtain ⟨mappings, rfl⟩ := insertMapping_spec h₁
    rw [ih h]

/-- The identity is that of the version the budget has. -/
theorem activateVersion_mem {input : ActivateBudgetProposal}
    (h : activateVersion d input = .ok (versionId, d')) :
    ∃ version ∈ d'.versions, version.householdId = input.householdId ∧ version.versionId = versionId := by
  rw [activateVersion, require_bind_eq_ok] at h
  obtain ⟨_, h⟩ := h
  obtain ⟨⟨scopeId, d₁⟩, _, h⟩ := bind_eq_ok.1 h
  obtain ⟨⟨categoryIds, d₂⟩, _, h⟩ := bind_eq_ok.1 h
  obtain ⟨⟨versionId', d₃⟩, h₃, h⟩ := bind_eq_ok.1 h
  obtain ⟨d₄, h₄, h⟩ := bind_eq_ok.1 h
  obtain ⟨d₅, h₅, h⟩ := bind_eq_ok.1 h
  cases h
  rw [insertMappings_versions h₅, insertAllocations_versions h₄]
  exact insertVersion_mem h₃

end BudgetRepository

namespace SavingsGoalRepository

variable {d d' : PlanningDb} {goalId : Nat}

theorem upsertGoal_mem {input : UpsertSavingsGoalProposal} (h : upsertGoal d input = .ok (goalId, d')) :
    ∃ goal ∈ d'.savingsGoals, goal.householdId = input.householdId ∧ goal.goalId = goalId ∧
      goal.archived = false := by
  obtain ⟨targetAmount, _, h⟩ := bind_eq_ok.1 h
  rw [require_bind_eq_ok, require_bind_eq_ok, require_bind_eq_ok, require_bind_eq_ok] at h
  obtain ⟨_, _, _, _, h⟩ := h
  split at h
  case h_1 goal hfind =>
    cases h
    have hmem := List.mem_of_find?_eq_some hfind
    have hmatch := List.find?_some hfind
    simp only [Bool.and_eq_true, beq_iff_eq, Bool.not_eq_true'] at hmatch
    refine ⟨_, List.mem_map_of_mem hmem, ?_⟩
    simp [hmatch]
  case h_2 =>
    cases h
    simp

theorem upsertRecord_mem {input : UpsertSavingsGoalProposal} (h : upsertRecord d input = .ok (goalId, d')) :
    ∃ goal ∈ d'.savingsGoals, goal.householdId = input.householdId ∧ goal.goalId = goalId ∧
      goal.archived = false := by
  rw [upsertRecord, require_bind_eq_ok] at h
  obtain ⟨_, h⟩ := h
  obtain ⟨⟨goalId', d₁⟩, h₁, h⟩ := bind_eq_ok.1 h
  obtain ⟨d₂, h₂, h⟩ := bind_eq_ok.1 h
  obtain ⟨d₃, h₃, h⟩ := bind_eq_ok.1 h
  cases h
  obtain ⟨links, rfl⟩ := linkAccounts_spec h₂
  obtain ⟨allocated, rfl⟩ := upsertVirtualAllocations_spec h₃
  obtain ⟨goal, hmem, hgoal⟩ := upsertGoal_mem h₁
  exact ⟨goal, hmem, hgoal⟩

end SavingsGoalRepository

namespace ObligationRepository

variable {d d' : PlanningRecords} {householdId : HouseholdId} {obligationId : Nat}

theorem upsertObligation_mem {input : UpdateObligationProposal}
    (h : upsertObligation d input = .ok (obligationId, d')) :
    ∃ obligation ∈ d'.obligations, obligation.householdId = input.householdId ∧
      obligation.obligationId = obligationId ∧ obligation.archived = false := by
  obtain ⟨expectedAmount, _, h⟩ := bind_eq_ok.1 h
  rw [require_bind_eq_ok, require_bind_eq_ok, require_bind_eq_ok, require_bind_eq_ok,
    require_bind_eq_ok] at h
  obtain ⟨_, _, _, _, _, h⟩ := h
  split at h
  case h_1 obligation hfind =>
    cases h
    have hmem := List.mem_of_find?_eq_some hfind
    have hmatch := List.find?_some hfind
    simp only [Bool.and_eq_true, beq_iff_eq, Bool.not_eq_true'] at hmatch
    refine ⟨_, List.mem_map_of_mem hmem, ?_⟩
    simp [hmatch]
  case h_2 =>
    cases h
    simp

theorem upsertOccurrences_spec {occurrences : List ObligationOccurrenceProposal}
    (h : upsertOccurrences householdId obligationId occurrences d = .ok d') :
    ∃ occurrences, d' = { d with occurrences } := by
  induction occurrences generalizing d with
  | nil =>
    cases h
    exact ⟨_, rfl⟩
  | cons occurrence rest ih =>
    obtain ⟨d₁, h₁, h⟩ := bind_eq_ok.1 h
    have hoccurrence : ∃ occurrences, d₁ = { d with occurrences } := by
      obtain ⟨expectedAmount, _, h₁⟩ := bind_eq_ok.1 h₁
      rw [require_bind_eq_ok, require_bind_eq_ok] at h₁
      obtain ⟨_, _, h₁⟩ := h₁
      split at h₁
      · cases h₁
        exact ⟨_, rfl⟩
      · cases h₁
        exact ⟨_, rfl⟩
    obtain ⟨expected, rfl⟩ := hoccurrence
    obtain ⟨expected', rfl⟩ := ih h
    exact ⟨expected', rfl⟩

end ObligationRepository

namespace DebtPlanRepository

theorem upsertDebtPlan_mem {d d' : PlanningRecords} {input : UpsertDebtPlanProposal}
    {loanAgreementId debtPlanId : Nat} (h : upsertDebtPlan d input loanAgreementId = .ok (debtPlanId, d')) :
    ∃ plan ∈ d'.debtPlans, plan.householdId = input.householdId ∧ plan.debtPlanId = debtPlanId ∧
      plan.archived = false := by
  obtain ⟨monthlyPaymentAmount, _, h⟩ := bind_eq_ok.1 h
  rw [require_bind_eq_ok, require_bind_eq_ok, require_bind_eq_ok, require_bind_eq_ok] at h
  obtain ⟨_, _, _, _, h⟩ := h
  split at h
  case h_1 plan hfind =>
    cases h
    have hmem := List.mem_of_find?_eq_some hfind
    have hmatch := List.find?_some hfind
    simp only [Bool.and_eq_true, beq_iff_eq, Bool.not_eq_true'] at hmatch
    refine ⟨_, List.mem_map_of_mem hmem, ?_⟩
    simp [hmatch]
  case h_2 =>
    cases h
    simp

end DebtPlanRepository

namespace PlanningRecords

variable {F : PlanningFormats} {d d' : PlanningRecords} {context : CheckedCommand}
  {householdId : HouseholdId} {recordType : PlanningRecordType} {recordId : Nat} {state : PlanningReadback}

theorem mem_recordRows_of_activeRows {key : String}
    (h : (householdId, key, recordId) ∈ d.activeRows recordType) :
    (householdId, recordId, false) ∈ d.recordRows recordType := by
  cases recordType with
  | budget_version => cases h
  | budget_scope | budget_category | obligation | savings_goal | debt_plan =>
    simp only [activeRows, List.mem_filterMap, Option.ite_none_left_eq_some, Option.some.injEq,
      Prod.mk.injEq] at h
    obtain ⟨row, hrow, hactive, rfl, _, rfl⟩ := h
    simp only [recordRows, List.mem_map, Prod.mk.injEq]
    exact ⟨row, hrow, rfl, rfl, by simpa using hactive⟩

/-- An archived row keeps its identity; its instant comes before any it had. -/
theorem archiveRow_spec {archivedAt : Nat} (harchivable : recordType ≠ .budget_version)
    (h : (householdId, recordId, false) ∈ d.recordRows recordType) :
    (householdId, recordId, true) ∈ (d.archiveRow recordType recordId archivedAt).recordRows recordType ∧
      (d.archiveRow recordType recordId archivedAt).archivedText F recordType recordId true =
        some (F.toISOString archivedAt) := by
  cases recordType with
  | budget_version => exact absurd rfl harchivable
  | budget_scope | budget_category | obligation | savings_goal | debt_plan =>
    simp only [recordRows, List.mem_map, Prod.mk.injEq] at h
    obtain ⟨row, hrow, rfl, rfl, _⟩ := h
    constructor
    · simp only [recordRows, archiveRow, List.mem_map, Prod.mk.injEq]
      exact ⟨_, ⟨row, hrow, rfl⟩, by simp, by simp, by simp⟩
    · simp [archivedText, archiveRow]

/-- A record that has been written is read back as it is. -/
theorem recorded_spec {action : String} {input : PlanningProposal} {archivedAt : Option String}
    (hrow : ∃ archived, (householdId, recordId, archived) ∈ d.recordRows recordType ∧
      d.archivedText F recordType recordId archived = archivedAt)
    (h : recorded F d context householdId recordType recordId action input archivedAt = .ok (state, d')) :
    state.valid F = true ∧ d'.Recorded F state recordType recordId input := by
  obtain ⟨parsed, hparsed, h⟩ := bind_eq_ok.1 h
  unfold parsePlanningReadback at hparsed
  split at hparsed
  case isFalse => cases hparsed
  case isTrue hvalid =>
    cases hparsed
    cases h
    obtain ⟨archived, hmem, htext⟩ := hrow
    have hsame : (d.audit context householdId recordType.table recordId action input).2.recordRows recordType =
        d.recordRows recordType := by
      cases recordType <;> rfl
    constructor
    · exact hvalid
    · constructor
      · exact ⟨rfl, rfl⟩
      · refine ⟨archived, ?_, htext⟩
        rw [← hsame] at hmem
        exact hmem
      · refine ⟨_, List.mem_append_right _ (List.mem_singleton_self _), ?_⟩
        simp [audit]

theorem activateBudget_spec {input : ActivateBudgetProposal}
    (h : activateBudget F d context input = .ok (state, d')) :
    state.valid F = true ∧ ∃ versionId, d'.Recorded F state .budget_version versionId (.activate_budget input) := by
  rw [activateBudget, require_bind_eq_ok] at h
  obtain ⟨_, h⟩ := h
  obtain ⟨⟨versionId, db⟩, hactivate, h⟩ := bind_eq_ok.1 h
  obtain ⟨version, hversion, hhousehold, hid⟩ := BudgetRepository.activateVersion_mem hactivate
  have hrow : (input.householdId, versionId, false) ∈
      ({ d with toPlanningDb := db } : PlanningRecords).recordRows .budget_version := by
    simp only [recordRows, List.mem_map, Prod.mk.injEq]
    exact ⟨version, hversion, hhousehold, hid, trivial⟩
  obtain ⟨hvalid, hrecorded⟩ := recorded_spec ⟨false, hrow, rfl⟩ h
  exact ⟨hvalid, versionId, hrecorded⟩

theorem updateObligation_spec {input : UpdateObligationProposal}
    (h : updateObligation F d context input = .ok (state, d')) :
    state.valid F = true ∧ ∃ obligationId, d'.Recorded F state .obligation obligationId (.update_obligation input) := by
  rw [updateObligation, require_bind_eq_ok, require_bind_eq_ok] at h
  obtain ⟨_, _, h⟩ := h
  obtain ⟨⟨obligationId, d₁⟩, hupsert, h⟩ := bind_eq_ok.1 h
  obtain ⟨d₂, hoccurrences, h⟩ := bind_eq_ok.1 h
  obtain ⟨obligation, hobligation, hhousehold, hid, hactive⟩ := ObligationRepository.upsertObligation_mem hupsert
  obtain ⟨occurrences, rfl⟩ := ObligationRepository.upsertOccurrences_spec hoccurrences
  have hrow : (input.householdId, obligationId, false) ∈
      ({ d₁ with occurrences } : PlanningRecords).recordRows .obligation := by
    simp only [recordRows, List.mem_map, Prod.mk.injEq]
    exact ⟨obligation, hobligation, hhousehold, hid, hactive⟩
  obtain ⟨hvalid, hrecorded⟩ := recorded_spec ⟨false, hrow, rfl⟩ h
  exact ⟨hvalid, obligationId, hrecorded⟩

theorem upsertSavingsGoal_spec {input : UpsertSavingsGoalProposal}
    (h : upsertSavingsGoal F d context input = .ok (state, d')) :
    state.valid F = true ∧ ∃ goalId, d'.Recorded F state .savings_goal goalId (.upsert_savings_goal input) := by
  rw [upsertSavingsGoal, require_bind_eq_ok] at h
  obtain ⟨_, h⟩ := h
  obtain ⟨⟨goalId, db⟩, hupsert, h⟩ := bind_eq_ok.1 h
  obtain ⟨goal, hgoal, hhousehold, hid, hactive⟩ := SavingsGoalRepository.upsertRecord_mem hupsert
  have hrow : (input.householdId, goalId, false) ∈
      ({ d with toPlanningDb := db } : PlanningRecords).recordRows .savings_goal := by
    simp only [recordRows, List.mem_map, Prod.mk.injEq]
    exact ⟨goal, hgoal, hhousehold, hid, hactive⟩
  obtain ⟨hvalid, hrecorded⟩ := recorded_spec ⟨false, hrow, rfl⟩ h
  exact ⟨hvalid, goalId, hrecorded⟩

theorem upsertDebtPlan_spec {input : UpsertDebtPlanProposal}
    (h : upsertDebtPlan F d context input = .ok (state, d')) :
    state.valid F = true ∧ ∃ debtPlanId, d'.Recorded F state .debt_plan debtPlanId (.upsert_debt_plan input) := by
  rw [upsertDebtPlan, require_bind_eq_ok, require_bind_eq_ok] at h
  obtain ⟨_, _, h⟩ := h
  obtain ⟨⟨loanAgreementId, d₁⟩, _, h⟩ := bind_eq_ok.1 h
  obtain ⟨⟨debtPlanId, d₂⟩, hupsert, h⟩ := bind_eq_ok.1 h
  obtain ⟨plan, hplan, hhousehold, hid, hactive⟩ := DebtPlanRepository.upsertDebtPlan_mem hupsert
  have hrow : (input.householdId, debtPlanId, false) ∈ d₂.recordRows .debt_plan := by
    simp only [recordRows, List.mem_map, Prod.mk.injEq]
    exact ⟨plan, hplan, hhousehold, hid, hactive⟩
  obtain ⟨hvalid, hrecorded⟩ := recorded_spec ⟨false, hrow, rfl⟩ h
  exact ⟨hvalid, debtPlanId, hrecorded⟩

theorem archivePlanningRecord_spec {input : ArchivePlanningRecordProposal}
    (h : archivePlanningRecord F d context input = .ok (state, d')) :
    state.valid F = true ∧ ∃ recordId,
      d'.Recorded F state input.recordType recordId (.archive_planning_record input) := by
  rw [archivePlanningRecord, require_bind_eq_ok, require_bind_eq_ok] at h
  obtain ⟨_, _, h⟩ := h
  split at h
  case h_2 => cases h
  case h_1 archivedAt _ =>
    split at h
    case h_2 => cases h
    case h_1 row hfind =>
      obtain ⟨householdId, key, recordId⟩ := row
      have hmem := List.mem_of_find?_eq_some hfind
      have hmatch := List.find?_some hfind
      simp only [Bool.and_eq_true, beq_iff_eq] at hmatch
      obtain ⟨rfl, rfl⟩ := hmatch
      have hactive := mem_recordRows_of_activeRows hmem
      obtain ⟨hvalid, hrecorded⟩ := recorded_spec ⟨true, archiveRow_spec input.archivable hactive⟩ h
      exact ⟨hvalid, recordId, hrecorded⟩

end PlanningRecords

/-! ## Reading back -/

theorem OpaqueId.parse_text {kind : IdKind} (id : OpaqueId kind) : OpaqueId.parse kind id.text = some id := by
  have hlist : id.text.toList = (kind.idPrefix ++ "_").toList ++ id.suffix.toList := by
    simp [OpaqueId.text]
  have hprefix : (kind.idPrefix ++ "_").toList.isPrefixOf id.text.toList = true := by
    rw [hlist, List.isPrefixOf_iff_prefix]
    exact List.prefix_append _ _
  have hsuffix : String.ofList (id.text.toList.drop (kind.idPrefix ++ "_").length) = id.suffix := by
    rw [hlist, ← String.length_toList, List.drop_left, String.ofList_toList]
  simp only [OpaqueId.parse, hprefix, hsuffix, id.crockford, if_true, dif_pos]

namespace PlanningReadback

variable {F : PlanningFormats}

theorem parse_toJson {state : PlanningReadback} (hvalid : state.valid F = true) :
    parse F state.toJson = some state := by
  have harchived : nullableText ((state.archivedAt.map Json.str).getD .null) = some state.archivedAt := by
    cases state.archivedAt <;> rfl
  simp [parse, toJson, Json.field?, Json.asString, Json.isStrictObject, OpaqueId.parse_text, harchived,
    hvalid]

end PlanningReadback

namespace PlanningCommandHandler

variable {F : PlanningFormats} {handler : PlanningCommandHandler} {before after d : PlanningRecords}
  {input : PlanningProposal} {context : CheckedCommand} {output : MutationExecutionOutput}
  {receipt : MutationReceipt}

/-- Right after a command its record is in the tables as the expected state says. -/
theorem execute_spec (hmem : handler ∈ PlanningCommandHandlers F)
    (h : handler.execute before input context = .ok (output, after)) :
    ∃ state recordType recordId, output.expectedState = state.toJson ∧ state.valid F = true ∧
      after.Recorded F state recordType recordId input := by
  simp only [PlanningCommandHandlers, List.mem_cons, List.not_mem_nil, or_false] at hmem
  rcases hmem with rfl | rfl | rfl | rfl | rfl
  all_goals
    obtain ⟨⟨state, d'⟩, hrun, h⟩ := bind_eq_ok.1 h
    cases h
    cases input <;> try cases hrun
  case activate_budget input =>
    obtain ⟨hvalid, recordId, hrecorded⟩ := PlanningRecords.activateBudget_spec hrun
    exact ⟨state, _, recordId, rfl, hvalid, hrecorded⟩
  case update_obligation input =>
    obtain ⟨hvalid, recordId, hrecorded⟩ := PlanningRecords.updateObligation_spec hrun
    exact ⟨state, _, recordId, rfl, hvalid, hrecorded⟩
  case upsert_savings_goal input =>
    obtain ⟨hvalid, recordId, hrecorded⟩ := PlanningRecords.upsertSavingsGoal_spec hrun
    exact ⟨state, _, recordId, rfl, hvalid, hrecorded⟩
  case upsert_debt_plan input =>
    obtain ⟨hvalid, recordId, hrecorded⟩ := PlanningRecords.upsertDebtPlan_spec hrun
    exact ⟨state, _, recordId, rfl, hvalid, hrecorded⟩
  case archive_planning_record input =>
    obtain ⟨hvalid, recordId, hrecorded⟩ := PlanningRecords.archivePlanningRecord_spec hrun
    exact ⟨state, _, recordId, rfl, hvalid, hrecorded⟩

theorem reads_alike (hmem : handler ∈ PlanningCommandHandlers F) :
    handler.readback = readbackExpected F ∧
      handler.requiredReadbackChecks = [.identifiers, .row_values, .artifact_links, .idempotency_receipt] := by
  simp only [PlanningCommandHandlers, List.mem_cons, List.not_mem_nil, or_false] at hmem
  rcases hmem with rfl | rfl | rfl | rfl | rfl
  all_goals exact ⟨rfl, rfl⟩

theorem readback_passes {state : PlanningReadback} (hmem : handler ∈ PlanningCommandHandlers F)
    (hparse : PlanningReadback.parse F receipt.expectedState = some state) :
    ∃ out, handler.readback d input receipt = .ok out ∧ handler.reportsPassed out = true := by
  obtain ⟨hreadback, hrequired⟩ := reads_alike hmem
  rw [hreadback]
  simp only [readbackExpected, hparse]
  refine ⟨_, rfl, ?_⟩
  rw [reportsPassed, hrequired]
  rfl

/-- The claimed meaning of a passed read-back, for one receipt and one state of the tables. -/
def ReadbackSound (F : PlanningFormats) (handler : PlanningCommandHandler) (d : PlanningRecords)
    (input : PlanningProposal) (receipt : MutationReceipt) : Prop :=
  ∀ out, handler.readback d input receipt = .ok out → handler.reportsPassed out = true →
    ∃ state, PlanningReadback.parse F receipt.expectedState = some state ∧ d.RowsMatch F state input

/-- A passed read-back means that the rows match exactly where they match anyway: the record the
command left is still there, archived or not as it left it, with the values of its proposal. -/
theorem readback_sound_iff (hmem : handler ∈ PlanningCommandHandlers F)
    (hexecute : handler.execute before input context = .ok (output, after))
    (hreceipt : receipt.expectedState = output.expectedState) :
    ∃ state recordType recordId, output.expectedState = state.toJson ∧
      after.Recorded F state recordType recordId input ∧
      ∀ d : PlanningRecords, ReadbackSound F handler d input receipt ↔
        ∃ recordType recordId, d.Recorded F state recordType recordId input ∧
          d.holds recordId input = true := by
  obtain ⟨state, recordType, recordId, houtput, hvalid, hrecorded⟩ := execute_spec hmem hexecute
  have hparse : PlanningReadback.parse F receipt.expectedState = some state := by
    rw [hreceipt, houtput]
    exact PlanningReadback.parse_toJson hvalid
  refine ⟨state, recordType, recordId, houtput, hrecorded, ?_⟩
  intro d
  constructor
  · intro hsound
    obtain ⟨out, hout, hpassed⟩ := readback_passes hmem hparse
    obtain ⟨read, hread, hrows⟩ := hsound out hout hpassed
    obtain rfl := Option.some.inj (hparse.symm.trans hread)
    exact hrows
  · intro hrows out _ _
    exact ⟨state, hparse, hrows⟩

end PlanningCommandHandler

namespace TestPlanning

open PlanningCommandHandler

def suffix : String := "01JNZQ4A9B8C7D6E5F4G3H2J1K"

def householdId : HouseholdId := ⟨suffix, by decide⟩

def usd : CurrencyCode := ⟨"USD", Eq.refl true⟩

def midsummer : String := "2026-06-19T00:00:00.000Z"

/-- The formats on one instant and one time zone. -/
def formats : PlanningFormats where
  datetime text := text == midsummer
  dateParse text := if text = midsummer then some 1781827200000 else none
  timestamptz text := if text = midsummer then some 1781827200000000 else none
  toChar _ := midsummer
  isIanaTimezone timezone := timezone == "America/New_York"
  toISOString _ := midsummer

def records : PlanningRecords where
  households := [⟨householdId, usd⟩]
  currencies := [⟨usd, 2, true⟩]
  books := []
  accounts := []
  periods := []
  counterparties := []
  tags := []
  artifacts := []
  verdicts := []
  drafts := []
  draftPostings := []
  journals := []
  postings := []
  journalTags := []
  postingTags := []
  scopes := []
  categories := []
  versions := []
  allocations := []
  mappings := []
  savingsGoals := []
  savingsGoalAccounts := []
  virtualAllocations := []
  obligations := []
  occurrences := []
  loanAgreements := []
  debtPlans := []
  archivedAt := []
  auditRecords := []

def rent : PlanningProposal :=
  .update_obligation
    { householdId, obligationKey := "rent", variant := .bill, name := "Rent", lifecycleStatus := .active
      recurrence := ⟨.monthly, 1, "America/New_York"⟩, expectedAmount := ⟨⟨false, 2500, 0⟩, usd⟩
      dueDay := 1, counterpartyName := none, accountId := none, budgetCategoryKey := none
      occurrences := [] }

def archiveRent : PlanningProposal :=
  .archive_planning_record ⟨householdId, .obligation, by decide, "rent", midsummer⟩

def command (commandType : String) : CheckedCommand where
  commandId := ⟨suffix, Eq.refl true⟩
  householdId := householdId
  taskId := ⟨suffix, Eq.refl true⟩
  checkedProposalId := ⟨suffix, Eq.refl true⟩
  checkedProposalHash := ⟨"224444a4cb3f2eef0120684b545f924dc0d9ccf8da6c0a2c92fd79a031e12590", Eq.refl true⟩
  commandType := commandType
  idempotencyKey := ⟨suffix, Eq.refl true⟩
  confirmationId := none
  payloadSchema := ⟨"update-obligation-proposal", 1⟩
  payload := .obj []
  payload_keyed := Eq.refl true

/-- The state the obligation is expected to be read back in. -/
def expected : PlanningReadback := ⟨householdId, "obligation", "1", "1", none⟩

def receipt : MutationReceipt where
  receiptId := ⟨suffix, by decide⟩
  commandId := ⟨suffix, by decide⟩
  householdId := householdId
  taskId := ⟨suffix, by decide⟩
  checkedProposalId := ⟨suffix, by decide⟩
  checkedProposalHash := (command "update_obligation").checkedProposalHash
  commandType := "update_obligation"
  idempotencyKey := ⟨suffix, by decide⟩
  committedRecords := [⟨"planning.obligation", "1"⟩]
  expectedState := expected.toJson
  expectedStateHash := (command "update_obligation").checkedProposalHash
  committedAt := 0

def withRent : PlanningRecords :=
  { records with
    obligations := [⟨1, householdId, "rent", .bill, "Rent", .active, ⟨.monthly, 1, "America/New_York"⟩,
      ⟨2500 * 10 ^ 12, by decide⟩, usd, 1, none, none, none, false⟩]
    auditRecords := [⟨1, householdId, "planning.recurring_obligations", 1, "updated", ⟨suffix, by decide⟩,
      ⟨suffix, by decide⟩, (command "update_obligation").checkedProposalHash, rent⟩] }

def withRentArchived : PlanningRecords :=
  { withRent with
    obligations := [⟨1, householdId, "rent", .bill, "Rent", .active, ⟨.monthly, 1, "America/New_York"⟩,
      ⟨2500 * 10 ^ 12, by decide⟩, usd, 1, none, none, none, true⟩]
    archivedAt := [((.obligation, 1), 1781827200000000)]
    auditRecords := withRent.auditRecords ++
      [⟨2, householdId, "planning.recurring_obligations", 1, "archived", ⟨suffix, by decide⟩,
        ⟨suffix, by decide⟩, (command "update_obligation").checkedProposalHash, archiveRent⟩] }

theorem rent_committed : (update_obligation formats).execute records rent (command "update_obligation") =
    .ok (output expected, withRent) := by
  decide +kernel

theorem rent_read_back_iff :
    ∃ state recordType recordId, (output expected).expectedState = state.toJson ∧
      withRent.Recorded formats state recordType recordId rent ∧
      ∀ d : PlanningRecords, ReadbackSound formats (update_obligation formats) d rent receipt ↔
        ∃ recordType recordId, d.Recorded formats state recordType recordId rent ∧
          d.holds recordId rent = true :=
  readback_sound_iff (by simp [PlanningCommandHandlers]) rent_committed rfl

/-- The obligation is archived between its commit and its read-back, which passes all the same. -/
theorem archived_rent_passes :
    ¬∀ handler ∈ PlanningCommandHandlers formats, ∀ before input context out after,
      handler.execute before input context = .ok (out, after) → ∀ d receipt,
        receipt.expectedState = out.expectedState → ReadbackSound formats handler d input receipt := by
  intro hall
  have hsound := hall (update_obligation formats) (by simp [PlanningCommandHandlers]) _ _ _ _ _
    rent_committed withRentArchived receipt rfl
  have hparse : PlanningReadback.parse formats receipt.expectedState = some expected := by decide +kernel
  obtain ⟨state, hstate, recordType, recordId, hrecorded, _⟩ :=
    hsound _ rfl (by decide +kernel)
  obtain rfl := Option.some.inj (hparse.symm.trans hstate)
  obtain rfl := PlanningRecordType.text_injective (hrecorded.named.1.trans (show _ = PlanningRecordType.text .obligation from rfl))
  obtain ⟨archived, hmem, htext⟩ := hrecorded.row
  simp [PlanningRecords.recordRows, withRentArchived] at hmem
  obtain ⟨_, rfl, rfl⟩ := hmem
  revert htext
  decide +kernel

end TestPlanning

end PlusOne
