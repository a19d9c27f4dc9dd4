import PlusOne.Ledger.Tables
import PlusOne.Relational.Insert

/-! # The tables of the planning schema

Budgets and savings goals, with the ledger whose accounts they refer to. A row has the number its
identity column gave it. -/

namespace PlusOne

open Numeric Relational

structure BudgetScopeRow where
  scopeId : Nat
  householdId : HouseholdId
  scopeKey : String
  name : String
  archived : Bool
  deriving DecidableEq

structure BudgetCategoryRow where
  categoryId : Nat
  householdId : HouseholdId
  categoryKey : String
  name : String
  archived : Bool
  deriving DecidableEq

structure BudgetVersionRow where
  versionId : Nat
  householdId : HouseholdId
  scopeId : Nat
  name : String
  validFrom : LocalDate
  validTo : Option LocalDate
  deriving DecidableEq

structure BudgetAllocationRow where
  householdId : HouseholdId
  versionId : Nat
  categoryId : Nat
  periodStart : LocalDate
  periodEnd : LocalDate
  amount : DecimalAmount
  currency : CurrencyCode
  deriving DecidableEq

inductive MappingDirection
  | income | expense | transfer
  deriving DecidableEq

structure BudgetMappingRow where
  householdId : HouseholdId
  categoryId : Nat
  accountId : AccountId
  direction : MappingDirection
  validFrom : LocalDate
  validTo : Option LocalDate
  archived : Bool
  deriving DecidableEq

structure SavingsGoalRow where
  goalId : Nat
  householdId : HouseholdId
  goalKey : String
  name : String
  targetAmount : DecimalAmount
  targetCurrency : CurrencyCode
  targetDate : Option LocalDate
  budgetCategoryId : Option Nat := none
  archived : Bool
  deriving DecidableEq

structure SavingsGoalAccountRow where
  householdId : HouseholdId
  goalId : Nat
  accountId : AccountId
  archived : Bool
  deriving DecidableEq

structure VirtualAllocationRow where
  householdId : HouseholdId
  goalId : Nat
  accountId : AccountId
  allocationKey : String
  amount : DecimalAmount
  currency : CurrencyCode
  archived : Bool
  deriving DecidableEq

structure PlanningDb extends LedgerDb where
  scopes : List BudgetScopeRow
  categories : List BudgetCategoryRow
  versions : List BudgetVersionRow
  allocations : List BudgetAllocationRow
  mappings : List BudgetMappingRow
  savingsGoals : List SavingsGoalRow
  savingsGoalAccounts : List SavingsGoalAccountRow
  virtualAllocations : List VirtualAllocationRow
  deriving DecidableEq

/-- `btrim(text) <> ''` -/
def isNotBlank (text : String) : Bool := text.toList.any fun c => c != ' '

/-- A CHECK constraint that a row does not meet. -/
def failedCheck (constraint : String) : Thrown :=
  .pg (constraintFailure "23514" constraint "new row violates check constraint")

def missingValue (column : String) : Thrown :=
  .pg ⟨some "23502", none, "null value in column \"" ++ column ++ "\" violates not-null constraint"⟩

def missingReference (constraint : String) : Thrown :=
  .pg (constraintFailure "23503" constraint "insert or update on table violates foreign key constraint")

namespace PlanningDb

variable (d : PlanningDb)

def findVersion (householdId : HouseholdId) (versionId : Nat) : Option BudgetVersionRow :=
  find (fun row => (row.householdId, row.versionId)) (householdId, versionId) d.versions

def findScope (householdId : HouseholdId) (scopeId : Nat) : Option BudgetScopeRow :=
  find (fun row => (row.householdId, row.scopeId)) (householdId, scopeId) d.scopes

def findCategory (householdId : HouseholdId) (categoryId : Nat) : Option BudgetCategoryRow :=
  find (fun row => (row.householdId, row.categoryId)) (householdId, categoryId) d.categories

end PlanningDb

end PlusOne
