import PlusOne.Planning.Budgets

/-! # Savings goals

`SavingsGoalRepository.upsert`, one statement after the other. -/

namespace PlusOne

open Numeric Relational

structure VirtualAllocationProposal where
  accountId : AccountId
  allocationKey : String
  amount : Money
  deriving DecidableEq

structure UpsertSavingsGoalProposal where
  householdId : HouseholdId
  goalKey : String
  name : String
  target : Money
  targetDate : Option LocalDate
  assetAccountIds : List AccountId
  budgetCategoryKey : Option String := none
  virtualAllocations : List VirtualAllocationProposal
  deriving DecidableEq

/-- The active row under the key of the account. -/
def VirtualAllocationProposal.isUnder (householdId : HouseholdId) (allocation : VirtualAllocationProposal)
    (row : VirtualAllocationRow) : Bool :=
  row.householdId == householdId && row.accountId == allocation.accountId &&
    row.allocationKey == allocation.allocationKey && !row.archived

namespace SavingsGoalRepository

variable (d : PlanningDb)

def hasCurrency (currency : CurrencyCode) : Bool :=
  d.currencies.any fun row => row.currencyCode == currency

def hasAccount (householdId : HouseholdId) (accountId : AccountId) : Bool :=
  d.accounts.any fun account => account.householdId == householdId && account.accountId == accountId

/-- `INSERT INTO planning.savings_goals … ON CONFLICT … DO UPDATE` -/
def upsertGoal (input : UpsertSavingsGoalProposal) : Except Thrown (Nat × PlanningDb) := do
  let targetAmount ← stored (Fixed.store input.target.amount)
  require (isNotBlank input.goalKey) (failedCheck "savings_goals_goal_key_check")
  require (isNotBlank input.name) (failedCheck "savings_goals_name_check")
  require (decide (0 ≤ targetAmount.units)) (failedCheck "savings_goals_target_amount_check")
  require (hasCurrency d input.target.currency) (missingReference "savings_goals_target_currency_fkey")
  match d.savingsGoals.find? fun row => row.householdId == input.householdId &&
      row.goalKey == input.goalKey && !row.archived with
  | some goal =>
    return (goal.goalId, { d with savingsGoals := d.savingsGoals.map fun row =>
      if row.goalId = goal.goalId then
        { row with
          name := input.name, targetAmount, targetCurrency := input.target.currency
          targetDate := input.targetDate }
      else row })
  | none =>
    let goalId := nextIdentity (d.savingsGoals.map SavingsGoalRow.goalId)
    return (goalId, { d with savingsGoals := d.savingsGoals ++
      [{ goalId, householdId := input.householdId, goalKey := input.goalKey, name := input.name
         targetAmount, targetCurrency := input.target.currency, targetDate := input.targetDate
         archived := false }] })

/-- `ON CONFLICT … DO NOTHING` -/
def linkAccount (householdId : HouseholdId) (goalId : Nat) (accountId : AccountId) : Except Thrown PlanningDb :=
  if d.savingsGoalAccounts.any fun row => row.householdId == householdId && row.goalId == goalId &&
      row.accountId == accountId && !row.archived then
    .ok d
  else do
    require (hasAccount d householdId accountId) (missingReference "savings_goal_accounts_household_id_account_id_fkey")
    return { d with savingsGoalAccounts :=
      d.savingsGoalAccounts ++ [{ householdId, goalId, accountId, archived := false }] }

def linkAccounts (householdId : HouseholdId) (goalId : Nat) :
    List AccountId → PlanningDb → Except Thrown PlanningDb
  | [], d => .ok d
  | accountId :: rest, d => do
    let d ← linkAccount d householdId goalId accountId
    linkAccounts householdId goalId rest d

/-- An allocation under the key of an account moves to the goal. -/
def upsertVirtualAllocation (householdId : HouseholdId) (goalId : Nat)
    (allocation : VirtualAllocationProposal) : Except Thrown PlanningDb := do
  let amount ← stored (Fixed.store allocation.amount.amount)
  require (isNotBlank allocation.allocationKey) (failedCheck "virtual_allocations_allocation_key_check")
  require (decide (0 ≤ amount.units)) (failedCheck "virtual_allocations_amount_check")
  require (hasCurrency d allocation.amount.currency) (missingReference "virtual_allocations_currency_fkey")
  if d.virtualAllocations.any (allocation.isUnder householdId) then
    let updated : VirtualAllocationRow → VirtualAllocationRow := fun row =>
      if allocation.isUnder householdId row then
        { row with goalId, amount, currency := allocation.amount.currency }
      else row
    return { d with virtualAllocations := d.virtualAllocations.map updated }
  else
    require (hasAccount d householdId allocation.accountId)
      (missingReference "virtual_allocations_household_id_account_id_fkey")
    return { d with virtualAllocations := d.virtualAllocations ++
      [{ householdId, goalId, accountId := allocation.accountId, allocationKey := allocation.allocationKey
         amount, currency := allocation.amount.currency, archived := false }] }

def upsertVirtualAllocations (householdId : HouseholdId) (goalId : Nat) :
    List VirtualAllocationProposal → PlanningDb → Except Thrown PlanningDb
  | [], d => .ok d
  | allocation :: rest, d => do
    let d ← upsertVirtualAllocation d householdId goalId allocation
    upsertVirtualAllocations householdId goalId rest d

def upsert (input : UpsertSavingsGoalProposal) : Except Thrown PlanningDb := do
  require (d.findHousehold input.householdId).isSome (.error "Household was not found")
  let (goalId, d) ← upsertGoal d input
  let d ← linkAccounts input.householdId goalId input.assetAccountIds d
  upsertVirtualAllocations input.householdId goalId input.virtualAllocations d

/-! ## What it leaves alone -/

variable {d} {d' : PlanningDb} {householdId : HouseholdId} {goalId : Nat}

theorem upsertGoal_spec {input : UpsertSavingsGoalProposal} (h : upsertGoal d input = .ok (goalId, d')) :
    ∃ savingsGoals, d' = { d with savingsGoals } := by
  obtain ⟨targetAmount, _, h⟩ := bind_eq_ok.1 h
  rw [require_bind_eq_ok, require_bind_eq_ok, require_bind_eq_ok, require_bind_eq_ok] at h
  obtain ⟨_, _, _, _, h⟩ := h
  split at h
  · cases h
    exact ⟨_, rfl⟩
  · cases h
    exact ⟨_, rfl⟩

theorem linkAccounts_spec {accountIds : List AccountId}
    (h : linkAccounts householdId goalId accountIds d = .ok d') :
    ∃ savingsGoalAccounts, d' = { d with savingsGoalAccounts } := by
  induction accountIds generalizing d with
  | nil =>
    cases h
    exact ⟨_, rfl⟩
  | cons accountId rest ih =>
    obtain ⟨d₁, h₁, h⟩ := bind_eq_ok.1 h
    have hlink : ∃ savingsGoalAccounts, d₁ = { d with savingsGoalAccounts } := by
      unfold linkAccount at h₁
      split at h₁
      · cases h₁
        exact ⟨_, rfl⟩
      · rw [require_bind_eq_ok] at h₁
        obtain ⟨_, h₁⟩ := h₁
        cases h₁
        exact ⟨_, rfl⟩
    obtain ⟨links, rfl⟩ := hlink
    obtain ⟨links', rfl⟩ := ih h
    exact ⟨links', rfl⟩

theorem upsertVirtualAllocations_spec {allocations : List VirtualAllocationProposal}
    (h : upsertVirtualAllocations householdId goalId allocations d = .ok d') :
    ∃ virtualAllocations, d' = { d with virtualAllocations } := by
  induction allocations generalizing d with
  | nil =>
    cases h
    exact ⟨_, rfl⟩
  | cons allocation rest ih =>
    obtain ⟨d₁, h₁, h⟩ := bind_eq_ok.1 h
    have hallocation : ∃ virtualAllocations, d₁ = { d with virtualAllocations } := by
      obtain ⟨amount, _, h₁⟩ := bind_eq_ok.1 h₁
      rw [require_bind_eq_ok, require_bind_eq_ok, require_bind_eq_ok] at h₁
      obtain ⟨_, _, _, h₁⟩ := h₁
      split at h₁
      · cases h₁
        exact ⟨_, rfl⟩
      · rw [require_bind_eq_ok] at h₁
        obtain ⟨_, h₁⟩ := h₁
        cases h₁
        exact ⟨_, rfl⟩
    obtain ⟨allocated, rfl⟩ := hallocation
    obtain ⟨allocated', rfl⟩ := ih h
    exact ⟨allocated', rfl⟩

theorem upsert_spec {input : UpsertSavingsGoalProposal} (hd : d.Budgeted) (h : upsert d input = .ok d') :
    d'.Budgeted ∧ d'.toLedgerDb = d.toLedgerDb := by
  rw [upsert, require_bind_eq_ok] at h
  obtain ⟨_, h⟩ := h
  obtain ⟨⟨goalId, d₁⟩, h₁, h⟩ := bind_eq_ok.1 h
  obtain ⟨d₂, h₂, h⟩ := bind_eq_ok.1 h
  obtain ⟨goals, rfl⟩ := upsertGoal_spec h₁
  obtain ⟨links, rfl⟩ := linkAccounts_spec h₂
  obtain ⟨allocated, rfl⟩ := upsertVirtualAllocations_spec h
  exact ⟨{ hd with }, rfl⟩

end SavingsGoalRepository

end PlusOne
