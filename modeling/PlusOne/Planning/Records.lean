import PlusOne.Contracts.Time
import PlusOne.Contracts.Verification
import PlusOne.Planning.SavingsGoals

/-! # The planning commands

What `execute` of each planning handler writes, one statement after the other, and the state it
expects to be read back. -/

namespace PlusOne

open Numeric Relational

/-- The records a planning command is about, as a read-back names them. -/
inductive PlanningRecordType
  | budget_scope | budget_category | budget_version | obligation | savings_goal | debt_plan
  deriving DecidableEq

namespace PlanningRecordType

def text : PlanningRecordType → String
  | budget_scope => "budget_scope"
  | budget_category => "budget_category"
  | budget_version => "budget_version"
  | obligation => "obligation"
  | savings_goal => "savings_goal"
  | debt_plan => "debt_plan"

def table : PlanningRecordType → String
  | budget_scope => "planning.budget_scopes"
  | budget_category => "planning.budget_categories"
  | budget_version => "planning.budget_versions"
  | obligation => "planning.recurring_obligations"
  | savings_goal => "planning.savings_goals"
  | debt_plan => "planning.debt_plans"

theorem text_injective : Function.Injective text := by
  intro recordType other h
  cases recordType <;> cases other <;> simp_all [text]

end PlanningRecordType

/-! ## The proposals -/

inductive RecurrenceFrequency
  | weekly | monthly | yearly
  deriving DecidableEq

structure PlanningRecurrence where
  frequency : RecurrenceFrequency
  interval : Nat
  timezone : String
  deriving DecidableEq

inductive ObligationVariant
  | bill | subscription
  deriving DecidableEq

inductive LifecycleStatus
  | active | paused | ended
  deriving DecidableEq

structure ObligationOccurrenceProposal where
  occurrenceDate : LocalDate
  dueDate : LocalDate
  expectedAmount : Money
  deriving DecidableEq

structure UpdateObligationProposal where
  householdId : HouseholdId
  obligationKey : String
  variant : ObligationVariant
  name : String
  lifecycleStatus : LifecycleStatus
  recurrence : PlanningRecurrence
  expectedAmount : Money
  dueDay : Nat
  counterpartyName : Option String
  accountId : Option AccountId
  budgetCategoryKey : Option String
  occurrences : List ObligationOccurrenceProposal
  deriving DecidableEq

structure LoanAgreementProposal where
  lenderName : String
  principal : Money
  annualInterestRate : DecimalString
  effectiveFrom : LocalDate
  paymentSchedule : PlanningRecurrence
  deriving DecidableEq

structure DebtPlanStrategy where
  monthlyPayment : Money
  priority : Nat
  deriving DecidableEq

structure UpsertDebtPlanProposal where
  householdId : HouseholdId
  debtPlanKey : String
  liabilityAccountId : AccountId
  name : String
  budgetCategoryKey : Option String := none
  loanAgreement : LoanAgreementProposal
  strategy : DebtPlanStrategy
  deriving DecidableEq

/-- No proposal archives a version of a budget. -/
structure ArchivePlanningRecordProposal where
  householdId : HouseholdId
  recordType : PlanningRecordType
  archivable : recordType ≠ .budget_version
  recordKey : String
  archivedAt : String
  deriving DecidableEq

inductive PlanningProposal
  | activate_budget (input : ActivateBudgetProposal)
  | update_obligation (input : UpdateObligationProposal)
  | upsert_savings_goal (input : UpsertSavingsGoalProposal)
  | upsert_debt_plan (input : UpsertDebtPlanProposal)
  | archive_planning_record (input : ArchivePlanningRecordProposal)
  deriving DecidableEq

def PlanningProposal.commandType : PlanningProposal → String
  | activate_budget _ => "activate_budget"
  | update_obligation _ => "update_obligation"
  | upsert_savings_goal _ => "upsert_savings_goal"
  | upsert_debt_plan _ => "upsert_debt_plan"
  | archive_planning_record _ => "archive_planning_record"

/-! ## The tables -/

structure RecurringObligationRow where
  obligationId : Nat
  householdId : HouseholdId
  obligationKey : String
  variant : ObligationVariant
  name : String
  lifecycleStatus : LifecycleStatus
  recurrence : PlanningRecurrence
  expectedAmount : DecimalAmount
  expectedCurrency : CurrencyCode
  dueDay : Nat
  counterpartyName : Option String
  accountId : Option AccountId
  budgetCategoryId : Option Nat
  archived : Bool
  deriving DecidableEq

structure ObligationOccurrenceRow where
  householdId : HouseholdId
  obligationId : Nat
  occurrenceDate : LocalDate
  dueDate : LocalDate
  expectedAmount : DecimalAmount
  expectedCurrency : CurrencyCode
  deriving DecidableEq

/-- The type of the column `annual_interest_rate`. -/
abbrev InterestRate := Fixed 18 8

structure LoanAgreementRow where
  loanAgreementId : Nat
  householdId : HouseholdId
  liabilityAccountId : AccountId
  lenderName : String
  principalAmount : DecimalAmount
  principalCurrency : CurrencyCode
  annualInterestRate : InterestRate
  effectiveFrom : LocalDate
  paymentSchedule : PlanningRecurrence
  deriving DecidableEq

structure DebtPlanRow where
  debtPlanId : Nat
  householdId : HouseholdId
  debtPlanKey : String
  liabilityAccountId : AccountId
  loanAgreementId : Nat
  budgetCategoryId : Option Nat := none
  name : String
  monthlyPaymentAmount : DecimalAmount
  monthlyPaymentCurrency : CurrencyCode
  priority : Nat
  archived : Bool
  deriving DecidableEq

structure DomainAuditRow where
  auditRecordId : Nat
  householdId : HouseholdId
  entityTable : String
  entityId : Nat
  action : String
  commandId : MutationCommandId
  checkedProposalId : ArtifactId
  checkedProposalHash : ArtifactHash
  payload : PlanningProposal
  deriving DecidableEq

/-- A row says whether it is archived; `archivedAt` holds the instants, the latest first. -/
structure PlanningRecords extends PlanningDb where
  obligations : List RecurringObligationRow
  occurrences : List ObligationOccurrenceRow
  loanAgreements : List LoanAgreementRow
  debtPlans : List DebtPlanRow
  archivedAt : List ((PlanningRecordType × Nat) × Nat)
  auditRecords : List DomainAuditRow
  deriving DecidableEq

/-! ## Obligations -/

def PlanningRecords.hasCurrency (d : PlanningRecords) (currency : CurrencyCode) : Bool :=
  d.currencies.any fun row => row.currencyCode == currency

def PlanningRecords.hasAccount (d : PlanningRecords) (householdId : HouseholdId) (accountId : AccountId) :
    Bool :=
  d.accounts.any fun account => account.householdId == householdId && account.accountId == accountId

/-- The row of the obligation on the date of the occurrence. -/
def ObligationOccurrenceProposal.isUnder (householdId : HouseholdId) (obligationId : Nat)
    (occurrence : ObligationOccurrenceProposal) (row : ObligationOccurrenceRow) : Bool :=
  row.householdId == householdId && row.obligationId == obligationId &&
    row.occurrenceDate == occurrence.occurrenceDate

namespace ObligationRepository

variable (d : PlanningRecords)

/-- A key no active category has gives NULL. -/
def categoryId (householdId : HouseholdId) (key : Option String) : Option Nat :=
  key.bind fun key => (d.categories.find? fun row => row.householdId == householdId &&
    row.categoryKey == key && !row.archived).map BudgetCategoryRow.categoryId

/-- `INSERT INTO planning.recurring_obligations … ON CONFLICT … DO UPDATE` -/
def upsertObligation (input : UpdateObligationProposal) : Except Thrown (Nat × PlanningRecords) := do
  let budgetCategoryId := categoryId d input.householdId input.budgetCategoryKey
  let expectedAmount ← stored (Fixed.store input.expectedAmount.amount)
  require (isNotBlank input.obligationKey) (failedCheck "recurring_obligations_obligation_key_check")
  require (isNotBlank input.name) (failedCheck "recurring_obligations_name_check")
  require (decide (0 ≤ expectedAmount.units)) (failedCheck "recurring_obligations_expected_amount_check")
  require (d.hasCurrency input.expectedAmount.currency)
    (missingReference "recurring_obligations_expected_currency_fkey")
  require (input.accountId.all (d.hasAccount input.householdId))
    (missingReference "recurring_obligations_household_id_account_id_fkey")
  match d.obligations.find? fun row => row.householdId == input.householdId &&
      row.obligationKey == input.obligationKey && !row.archived with
  | some obligation =>
    return (obligation.obligationId, { d with obligations := d.obligations.map fun row =>
      if row.obligationId = obligation.obligationId then
        { row with
          variant := input.variant, name := input.name, lifecycleStatus := input.lifecycleStatus
          recurrence := input.recurrence, expectedAmount, expectedCurrency := input.expectedAmount.currency
          dueDay := input.dueDay, counterpartyName := input.counterpartyName, accountId := input.accountId
          budgetCategoryId }
      else row })
  | none =>
    let obligationId := nextIdentity (d.obligations.map RecurringObligationRow.obligationId)
    return (obligationId, { d with obligations := d.obligations ++
      [{ obligationId, householdId := input.householdId, obligationKey := input.obligationKey
         variant := input.variant, name := input.name, lifecycleStatus := input.lifecycleStatus
         recurrence := input.recurrence, expectedAmount, expectedCurrency := input.expectedAmount.currency
         dueDay := input.dueDay, counterpartyName := input.counterpartyName, accountId := input.accountId
         budgetCategoryId, archived := false }] })

/-- An occurrence of the obligation on the same date takes the new values. -/
def upsertOccurrence (householdId : HouseholdId) (obligationId : Nat)
    (occurrence : ObligationOccurrenceProposal) : Except Thrown PlanningRecords := do
  let expectedAmount ← stored (Fixed.store occurrence.expectedAmount.amount)
  require (decide (0 ≤ expectedAmount.units)) (failedCheck "obligation_occurrences_expected_amount_check")
  require (d.hasCurrency occurrence.expectedAmount.currency)
    (missingReference "obligation_occurrences_expected_currency_fkey")
  if d.occurrences.any (occurrence.isUnder householdId obligationId) then
    let updated : ObligationOccurrenceRow → ObligationOccurrenceRow := fun row =>
      if occurrence.isUnder householdId obligationId row then
        { row with
          dueDate := occurrence.dueDate, expectedAmount
          expectedCurrency := occurrence.expectedAmount.currency }
      else row
    return { d with occurrences := d.occurrences.map updated }
  else
    return { d with occurrences := d.occurrences ++
      [{ householdId, obligationId, occurrenceDate := occurrence.occurrenceDate
         dueDate := occurrence.dueDate, expectedAmount
         expectedCurrency := occurrence.expectedAmount.currency }] }

def upsertOccurrences (householdId : HouseholdId) (obligationId : Nat) :
    List ObligationOccurrenceProposal → PlanningRecords → Except Thrown PlanningRecords
  | [], d => .ok d
  | occurrence :: rest, d => do
    let d ← upsertOccurrence d householdId obligationId occurrence
    upsertOccurrences householdId obligationId rest d

end ObligationRepository

/-! ## Debt plans -/

namespace DebtPlanRepository

variable (d : PlanningRecords)

def insertLoanAgreement (input : UpsertDebtPlanProposal) : Except Thrown (Nat × PlanningRecords) := do
  let loan := input.loanAgreement
  let principalAmount ← stored (Fixed.store loan.principal.amount)
  let annualInterestRate ← stored (Fixed.store loan.annualInterestRate)
  require (isNotBlank loan.lenderName) (failedCheck "loan_agreements_lender_name_check")
  require (decide (0 ≤ principalAmount.units)) (failedCheck "loan_agreements_principal_amount_check")
  require (decide (0 ≤ annualInterestRate.units)) (failedCheck "loan_agreements_annual_interest_rate_check")
  require (d.hasCurrency loan.principal.currency) (missingReference "loan_agreements_principal_currency_fkey")
  require (d.hasAccount input.householdId input.liabilityAccountId)
    (missingReference "loan_agreements_household_id_liability_account_id_fkey")
  let loanAgreementId := nextIdentity (d.loanAgreements.map LoanAgreementRow.loanAgreementId)
  return (loanAgreementId, { d with loanAgreements := d.loanAgreements ++
    [{ loanAgreementId, householdId := input.householdId, liabilityAccountId := input.liabilityAccountId
       lenderName := loan.lenderName, principalAmount, principalCurrency := loan.principal.currency
       annualInterestRate, effectiveFrom := loan.effectiveFrom
       paymentSchedule := loan.paymentSchedule }] })

/-- `INSERT INTO planning.debt_plans … ON CONFLICT … DO UPDATE` -/
def upsertDebtPlan (input : UpsertDebtPlanProposal) (loanAgreementId : Nat) :
    Except Thrown (Nat × PlanningRecords) := do
  let payment := input.strategy.monthlyPayment
  let monthlyPaymentAmount ← stored (Fixed.store payment.amount)
  require (isNotBlank input.debtPlanKey) (failedCheck "debt_plans_debt_plan_key_check")
  require (isNotBlank input.name) (failedCheck "debt_plans_name_check")
  require (decide (0 ≤ monthlyPaymentAmount.units)) (failedCheck "debt_plans_monthly_payment_amount_check")
  require (d.hasCurrency payment.currency) (missingReference "debt_plans_monthly_payment_currency_fkey")
  match d.debtPlans.find? fun row => row.householdId == input.householdId &&
      row.debtPlanKey == input.debtPlanKey && !row.archived with
  | some plan =>
    return (plan.debtPlanId, { d with debtPlans := d.debtPlans.map fun row =>
      if row.debtPlanId = plan.debtPlanId then
        { row with
          liabilityAccountId := input.liabilityAccountId, loanAgreementId, name := input.name
          monthlyPaymentAmount, monthlyPaymentCurrency := payment.currency
          priority := input.strategy.priority }
      else row })
  | none =>
    let debtPlanId := nextIdentity (d.debtPlans.map DebtPlanRow.debtPlanId)
    return (debtPlanId, { d with debtPlans := d.debtPlans ++
      [{ debtPlanId, householdId := input.householdId, debtPlanKey := input.debtPlanKey
         liabilityAccountId := input.liabilityAccountId, loanAgreementId, name := input.name
         monthlyPaymentAmount, monthlyPaymentCurrency := payment.currency
         priority := input.strategy.priority, archived := false }] })

end DebtPlanRepository

/-! ## Archiving -/

namespace PlanningRecords

variable (d : PlanningRecords)

/-- The household, the key and the identity of the active rows of a table; no version is ever
archived, and it has no key. -/
def activeRows : PlanningRecordType → List (HouseholdId × String × Nat)
  | .budget_scope => d.scopes.filterMap fun row =>
    if row.archived then none else some (row.householdId, row.scopeKey, row.scopeId)
  | .budget_category => d.categories.filterMap fun row =>
    if row.archived then none else some (row.householdId, row.categoryKey, row.categoryId)
  | .budget_version => []
  | .obligation => d.obligations.filterMap fun row =>
    if row.archived then none else some (row.householdId, row.obligationKey, row.obligationId)
  | .savings_goal => d.savingsGoals.filterMap fun row =>
    if row.archived then none else some (row.householdId, row.goalKey, row.goalId)
  | .debt_plan => d.debtPlans.filterMap fun row =>
    if row.archived then none else some (row.householdId, row.debtPlanKey, row.debtPlanId)

/-- `SET archived_at = $1` on the row of an identity. -/
def archiveRow (recordType : PlanningRecordType) (recordId archivedAt : Nat) : PlanningRecords :=
  let d := { d with archivedAt := ((recordType, recordId), archivedAt) :: d.archivedAt }
  match recordType with
  | .budget_scope => { d with scopes := d.scopes.map fun row =>
      if row.scopeId = recordId then { row with archived := true } else row }
  | .budget_category => { d with categories := d.categories.map fun row =>
      if row.categoryId = recordId then { row with archived := true } else row }
  | .budget_version => d
  | .obligation => { d with obligations := d.obligations.map fun row =>
      if row.obligationId = recordId then { row with archived := true } else row }
  | .savings_goal => { d with savingsGoals := d.savingsGoals.map fun row =>
      if row.goalId = recordId then { row with archived := true } else row }
  | .debt_plan => { d with debtPlans := d.debtPlans.map fun row =>
      if row.debtPlanId = recordId then { row with archived := true } else row }

/-- `INSERT INTO planning.domain_audit_records` -/
def audit (context : CheckedCommand) (householdId : HouseholdId) (entityTable : String) (entityId : Nat)
    (action : String) (payload : PlanningProposal) : Nat × PlanningRecords :=
  let auditRecordId := nextIdentity (d.auditRecords.map DomainAuditRow.auditRecordId)
  (auditRecordId, { d with auditRecords := d.auditRecords ++
    [{ auditRecordId, householdId, entityTable, entityId, action, commandId := context.commandId
       checkedProposalId := context.checkedProposalId, checkedProposalHash := context.checkedProposalHash
       payload }] })

end PlanningRecords

end PlusOne
