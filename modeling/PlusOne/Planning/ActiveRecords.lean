import PlusOne.Numeric.Values
import PlusOne.Planning.Readback
import PlusOne.Relational.ActiveRows

/-! # The active records of the planning schema

A goal with its accounts and allocations, an obligation with its occurrences, a debt plan with its
loan: what is active under a key, and when it is what a proposal says. -/

namespace PlusOne

open Numeric Relational

/-! ## The keys of the unique indexes -/

def SavingsGoalRow.activeKey (row : SavingsGoalRow) : Option (HouseholdId × String) :=
  if row.archived then none else some (row.householdId, row.goalKey)

def SavingsGoalAccountRow.activeKey (row : SavingsGoalAccountRow) : Option (HouseholdId × Nat × AccountId) :=
  if row.archived then none else some (row.householdId, row.goalId, row.accountId)

/-- The goal an active link belongs to. -/
def SavingsGoalAccountRow.activeGoal (row : SavingsGoalAccountRow) : Option (HouseholdId × Nat) :=
  if row.archived then none else some (row.householdId, row.goalId)

def VirtualAllocationRow.activeKey (row : VirtualAllocationRow) : Option (HouseholdId × AccountId × String) :=
  if row.archived then none else some (row.householdId, row.accountId, row.allocationKey)

/-- The goal an active allocation belongs to. -/
def VirtualAllocationRow.activeGoal (row : VirtualAllocationRow) : Option (HouseholdId × Nat) :=
  if row.archived then none else some (row.householdId, row.goalId)

def RecurringObligationRow.activeKey (row : RecurringObligationRow) : Option (HouseholdId × String) :=
  if row.archived then none else some (row.householdId, row.obligationKey)

/-- No code archives an occurrence. -/
def ObligationOccurrenceRow.key (row : ObligationOccurrenceRow) : Option (HouseholdId × Nat × LocalDate) :=
  some (row.householdId, row.obligationId, row.occurrenceDate)

def ObligationOccurrenceRow.obligation (row : ObligationOccurrenceRow) : Option (HouseholdId × Nat) :=
  some (row.householdId, row.obligationId)

def DebtPlanRow.activeKey (row : DebtPlanRow) : Option (HouseholdId × String) :=
  if row.archived then none else some (row.householdId, row.debtPlanKey)

/-! ## The records -/

structure SavingsGoalRecord where
  goal : SavingsGoalRow
  accounts : List SavingsGoalAccountRow
  allocations : List VirtualAllocationRow

structure ObligationRecord where
  obligation : RecurringObligationRow
  occurrences : List ObligationOccurrenceRow

structure DebtPlanRecord where
  plan : DebtPlanRow
  loanAgreements : List LoanAgreementRow

namespace PlanningRecords

variable (d : PlanningRecords)

/-- A goal with the rows that refer to it. -/
def goalRecord (goal : SavingsGoalRow) : SavingsGoalRecord where
  goal := goal
  accounts := d.savingsGoalAccounts.filter fun row => decide (row.activeGoal = some (goal.householdId, goal.goalId))
  allocations := d.virtualAllocations.filter fun row => decide (row.activeGoal = some (goal.householdId, goal.goalId))

def goalRecords (householdId : HouseholdId) (goalKey : String) : List SavingsGoalRecord :=
  (d.savingsGoals.filter fun row => decide (row.activeKey = some (householdId, goalKey))).map d.goalRecord

def obligationRecord (obligation : RecurringObligationRow) : ObligationRecord where
  obligation := obligation
  occurrences := d.occurrences.filter fun row =>
    decide (row.obligation = some (obligation.householdId, obligation.obligationId))

def obligationRecords (householdId : HouseholdId) (obligationKey : String) : List ObligationRecord :=
  (d.obligations.filter fun row => decide (row.activeKey = some (householdId, obligationKey))).map
    d.obligationRecord

def debtPlanRecord (plan : DebtPlanRow) : DebtPlanRecord where
  plan := plan
  loanAgreements := d.loanAgreements.filter fun row => decide (row.loanAgreementId = plan.loanAgreementId)

def debtPlanRecords (householdId : HouseholdId) (debtPlanKey : String) : List DebtPlanRecord :=
  (d.debtPlans.filter fun row => decide (row.activeKey = some (householdId, debtPlanKey))).map d.debtPlanRecord

/-- No active record but those under one key has changed. -/
structure OthersKept (before after : PlanningRecords) (recordType : PlanningRecordType)
    (householdId : HouseholdId) (recordKey : String) : Prop where
  budgets : after.scopes = before.scopes ∧ after.categories = before.categories ∧
    after.versions = before.versions
  goals : ∀ household goalKey, (PlanningRecordType.savings_goal, household, goalKey) ≠
      (recordType, householdId, recordKey) →
    after.goalRecords household goalKey = before.goalRecords household goalKey
  obligations : ∀ household obligationKey, (PlanningRecordType.obligation, household, obligationKey) ≠
      (recordType, householdId, recordKey) →
    after.obligationRecords household obligationKey = before.obligationRecords household obligationKey
  debtPlans : ∀ household debtPlanKey, (PlanningRecordType.debt_plan, household, debtPlanKey) ≠
      (recordType, householdId, recordKey) →
    after.debtPlanRecords household debtPlanKey = before.debtPlanRecords household debtPlanKey

/-- An active category is under the key. -/
def HasCategory (householdId : HouseholdId) (categoryKey : String) : Prop :=
  ∃ row ∈ d.categories, row.householdId = householdId ∧ row.categoryKey = categoryKey ∧ row.archived = false

/-- The column names the active category under the key, and none where there is no key. -/
def CategoryIs (householdId : HouseholdId) : Option String → Option Nat → Prop
  | none, categoryId => categoryId = none
  | some categoryKey, categoryId => ∃ row ∈ d.categories, row.householdId = householdId ∧
      row.categoryKey = categoryKey ∧ row.archived = false ∧ categoryId = some row.categoryId

end PlanningRecords

/-! ## A record and its proposal -/

/-- The columns hold the amount of money, to its last digit. -/
def Money.IsStored (money : Money) (amount : DecimalAmount) (currency : CurrencyCode) : Prop :=
  amount.value = money.amount.value ∧ currency = money.currency

/-- The same number of the same currency, however it is written. -/
def Money.Same (money other : Money) : Prop :=
  money.amount.value = other.amount.value ∧ money.currency = other.currency

/-- The amount has no more digits than a column of amounts keeps. -/
abbrev Money.Exact (money : Money) : Prop := money.amount.ExactAt 12

def VirtualAllocationProposal.HeldBy (allocation : VirtualAllocationProposal) (row : VirtualAllocationRow) : Prop :=
  row.accountId = allocation.accountId ∧ row.allocationKey = allocation.allocationKey ∧
    allocation.amount.IsStored row.amount row.currency

def ObligationOccurrenceProposal.HeldBy (occurrence : ObligationOccurrenceProposal)
    (row : ObligationOccurrenceRow) : Prop :=
  row.occurrenceDate = occurrence.occurrenceDate ∧ row.dueDate = occurrence.dueDate ∧
    occurrence.expectedAmount.IsStored row.expectedAmount row.expectedCurrency

/-- A goal equals its proposal, with its accounts and its allocations. -/
structure SavingsGoalRecord.Equals (record : SavingsGoalRecord) (d : PlanningRecords)
    (input : UpsertSavingsGoalProposal) : Prop where
  name : record.goal.name = input.name
  target : input.target.IsStored record.goal.targetAmount record.goal.targetCurrency
  targetDate : record.goal.targetDate = input.targetDate
  category : d.CategoryIs input.householdId input.budgetCategoryKey record.goal.budgetCategoryId
  accounts : Relational.HeldBy (fun accountId row => row.accountId = accountId) input.assetAccountIds record.accounts
  allocations : Relational.HeldBy VirtualAllocationProposal.HeldBy input.virtualAllocations record.allocations

/-- An obligation equals its proposal, with its occurrences. -/
structure ObligationRecord.Equals (record : ObligationRecord) (d : PlanningRecords)
    (input : UpdateObligationProposal) : Prop where
  variant : record.obligation.variant = input.variant
  name : record.obligation.name = input.name
  lifecycleStatus : record.obligation.lifecycleStatus = input.lifecycleStatus
  recurrence : record.obligation.recurrence = input.recurrence
  expectedAmount : input.expectedAmount.IsStored record.obligation.expectedAmount record.obligation.expectedCurrency
  dueDay : record.obligation.dueDay = input.dueDay
  counterpartyName : record.obligation.counterpartyName = input.counterpartyName
  accountId : record.obligation.accountId = input.accountId
  category : d.CategoryIs input.householdId input.budgetCategoryKey record.obligation.budgetCategoryId
  occurrences : Relational.HeldBy ObligationOccurrenceProposal.HeldBy input.occurrences record.occurrences

/-- A loan equals the one of a proposal. -/
structure LoanAgreementRow.Equals (loan : LoanAgreementRow) (input : UpsertDebtPlanProposal) : Prop where
  householdId : loan.householdId = input.householdId
  liabilityAccountId : loan.liabilityAccountId = input.liabilityAccountId
  lenderName : loan.lenderName = input.loanAgreement.lenderName
  principal : input.loanAgreement.principal.IsStored loan.principalAmount loan.principalCurrency
  annualInterestRate : loan.annualInterestRate.value = input.loanAgreement.annualInterestRate.value
  effectiveFrom : loan.effectiveFrom = input.loanAgreement.effectiveFrom
  paymentSchedule : loan.paymentSchedule = input.loanAgreement.paymentSchedule

/-- A debt plan equals its proposal, with its one loan. -/
structure DebtPlanRecord.Equals (record : DebtPlanRecord) (d : PlanningRecords)
    (input : UpsertDebtPlanProposal) : Prop where
  liabilityAccountId : record.plan.liabilityAccountId = input.liabilityAccountId
  name : record.plan.name = input.name
  category : d.CategoryIs input.householdId input.budgetCategoryKey record.plan.budgetCategoryId
  monthlyPayment : input.strategy.monthlyPayment.IsStored record.plan.monthlyPaymentAmount
    record.plan.monthlyPaymentCurrency
  priority : record.plan.priority = input.strategy.priority
  loanAgreement : ∃ loan, record.loanAgreements = [loan] ∧ loan.Equals input

/-! ## What an upsert stores -/

namespace PlanningRecords

/-- The active records under the key of the goal are its proposal, and no other has changed. -/
def StoresGoal (before after : PlanningRecords) (input : UpsertSavingsGoalProposal) : Prop :=
  (∃ record, after.goalRecords input.householdId input.goalKey = [record] ∧ record.Equals after input) ∧
    OthersKept before after .savings_goal input.householdId input.goalKey

def StoresObligation (before after : PlanningRecords) (input : UpdateObligationProposal) : Prop :=
  (∃ record, after.obligationRecords input.householdId input.obligationKey = [record] ∧
      record.Equals after input) ∧
    OthersKept before after .obligation input.householdId input.obligationKey

def StoresDebtPlan (before after : PlanningRecords) (input : UpsertDebtPlanProposal) : Prop :=
  (∃ record, after.debtPlanRecords input.householdId input.debtPlanKey = [record] ∧
      record.Equals after input) ∧
    OthersKept before after .debt_plan input.householdId input.debtPlanKey

end PlanningRecords

/-! ## When they do -/

/-- The goal names no category; its amounts have no more digits than the columns; the accounts and the
allocations it had before are among its own, an allocation it names twice is the same both times, and
none is another goal's. -/
structure UpsertSavingsGoalProposal.Storable (input : UpsertSavingsGoalProposal) (d : PlanningRecords) :
    Prop where
  category : input.budgetCategoryKey = none
  target : input.target.Exact
  amounts : ∀ allocation ∈ input.virtualAllocations, allocation.amount.Exact
  repeated : ∀ allocation ∈ input.virtualAllocations, ∀ other ∈ input.virtualAllocations,
    allocation.accountId = other.accountId → allocation.allocationKey = other.allocationKey →
      allocation.amount.Same other.amount
  accounts : ∀ record ∈ d.goalRecords input.householdId input.goalKey, ∀ row ∈ record.accounts,
    row.accountId ∈ input.assetAccountIds
  allocations : ∀ record ∈ d.goalRecords input.householdId input.goalKey, ∀ row ∈ record.allocations,
    ∃ allocation ∈ input.virtualAllocations,
      row.accountId = allocation.accountId ∧ row.allocationKey = allocation.allocationKey
  others : ∀ goalKey, goalKey ≠ input.goalKey → ∀ record ∈ d.goalRecords input.householdId goalKey,
    ∀ row ∈ record.allocations, ∀ allocation ∈ input.virtualAllocations,
      ¬(row.accountId = allocation.accountId ∧ row.allocationKey = allocation.allocationKey)

/-- The category of the obligation is active; its amounts have no more digits than the columns; the
dates it had before are among its own, and a date it names twice is the same both times. -/
structure UpdateObligationProposal.Storable (input : UpdateObligationProposal) (d : PlanningRecords) : Prop where
  category : ∀ categoryKey, input.budgetCategoryKey = some categoryKey → d.HasCategory input.householdId categoryKey
  expectedAmount : input.expectedAmount.Exact
  amounts : ∀ occurrence ∈ input.occurrences, occurrence.expectedAmount.Exact
  repeated : ∀ occurrence ∈ input.occurrences, ∀ other ∈ input.occurrences,
    occurrence.occurrenceDate = other.occurrenceDate →
      occurrence.dueDate = other.dueDate ∧ occurrence.expectedAmount.Same other.expectedAmount
  occurrences : ∀ record ∈ d.obligationRecords input.householdId input.obligationKey, ∀ row ∈ record.occurrences,
    ∃ occurrence ∈ input.occurrences, row.occurrenceDate = occurrence.occurrenceDate

/-- The plan names no category, and its amounts have no more digits than the columns. -/
structure UpsertDebtPlanProposal.Storable (input : UpsertDebtPlanProposal) : Prop where
  category : input.budgetCategoryKey = none
  principal : input.loanAgreement.principal.Exact
  monthlyPayment : input.strategy.monthlyPayment.Exact

/-! ## What every command keeps -/

/-- The tables as the constraints of the schema keep them, with the columns no code writes. -/
structure PlanningRecords.Consistent (d : PlanningRecords) : Prop where
  goals : ActiveTable SavingsGoalRow.goalId SavingsGoalRow.activeKey d.savingsGoals
  goalCategories : ∀ goal ∈ d.savingsGoals, goal.budgetCategoryId = none
  accounts : UniquelyKeyed SavingsGoalAccountRow.activeKey d.savingsGoalAccounts
  accountGoals : ∀ row ∈ d.savingsGoalAccounts, row.goalId ∈ d.savingsGoals.map SavingsGoalRow.goalId
  allocations : UniquelyKeyed VirtualAllocationRow.activeKey d.virtualAllocations
  allocationGoals : ∀ row ∈ d.virtualAllocations, row.goalId ∈ d.savingsGoals.map SavingsGoalRow.goalId
  obligations : ActiveTable RecurringObligationRow.obligationId RecurringObligationRow.activeKey d.obligations
  occurrences : UniquelyKeyed ObligationOccurrenceRow.key d.occurrences
  occurrenceObligations : ∀ row ∈ d.occurrences,
    row.obligationId ∈ d.obligations.map RecurringObligationRow.obligationId
  loanAgreements : Distinct LoanAgreementRow.loanAgreementId d.loanAgreements
  debtPlans : ActiveTable DebtPlanRow.debtPlanId DebtPlanRow.activeKey d.debtPlans
  planCategories : ∀ plan ∈ d.debtPlans, plan.budgetCategoryId = none
  planLoans : ∀ plan ∈ d.debtPlans, plan.loanAgreementId ∈ d.loanAgreements.map LoanAgreementRow.loanAgreementId

end PlusOne
