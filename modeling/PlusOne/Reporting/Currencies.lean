import PlusOne.Planning.SavingsGoals
import PlusOne.Relational.Parts
import PlusOne.Reporting.BudgetVariance
import PlusOne.Reporting.DailyBalances

/-! # The currencies of what is reported

The monthly views and the progress of savings goals, and what it is for an amount to be in the currency
that its row shows. -/

namespace PlusOne

open Numeric Relational

theorem LocalDate.firstOfMonth_real (date : LocalDate) : isRealLocalDate date.year date.month 1 = true := by
  have hreal := date.real
  have hday : 1 ≤ daysInMonth date.year date.month := by
    simp only [isRealLocalDate, Bool.and_eq_true, decide_eq_true_eq] at hreal
    omega
  simp only [isRealLocalDate, Bool.and_eq_true, decide_eq_true_eq] at hreal ⊢
  omega

/-- `date_trunc('month', date)` -/
def LocalDate.monthStart (date : LocalDate) : LocalDate where
  year := date.year
  month := date.month
  day := 1
  real := date.firstOfMonth_real

/-! ## The monthly views -/

/-- A posting with its journal and its account. -/
abbrev PostedRow := (PostingRow × JournalRow) × AccountRow

namespace PostedRow

def posting (row : PostedRow) : PostingRow := row.1.1

def journal (row : PostedRow) : JournalRow := row.1.2

def account (row : PostedRow) : AccountRow := row.2

/-- The amount by the normal balance of the account, and its currency. -/
def summand (row : PostedRow) : Int × CurrencyCode :=
  (signedAmount row.account row.posting, row.posting.accountNativeCurrency)

end PostedRow

structure CashFlowKey where
  householdId : HouseholdId
  monthStart : LocalDate
  accountingClass : AccountingClass
  nativeCurrency : CurrencyCode
  deriving DecidableEq

structure CashFlowRow extends CashFlowKey where
  nativeAmount : Int

structure CategorySpendKey where
  householdId : HouseholdId
  monthStart : LocalDate
  accountId : AccountId
  nativeCurrency : CurrencyCode
  deriving DecidableEq

structure CategorySpendRow extends CategorySpendKey where
  nativeAmount : Int

structure SavingsGoalKey where
  householdId : HouseholdId
  goalKey : String
  name : String
  targetAmount : DecimalAmount
  targetCurrency : CurrencyCode
  targetDate : Option LocalDate
  deriving DecidableEq

structure SavingsGoalProgressRow extends SavingsGoalKey where
  currentAmount : Int

namespace LedgerDb

variable (L : LedgerDb)

/-- The joins of the monthly views. -/
def postedRows : List PostedRow :=
  (join (fun row account => account.householdId == row.1.householdId && account.accountId == row.1.accountId)
    (join (fun posting journal => journal.householdId == posting.householdId &&
      journal.journalId == posting.journalId) L.postings L.journals) L.accounts).filter
    fun row => L.households.any fun household => household.householdId == row.posting.householdId

def cashFlowKey (row : PostedRow) : CashFlowKey where
  householdId := row.posting.householdId
  monthStart := row.journal.effectiveOn.monthStart
  accountingClass := row.account.accountingClass
  nativeCurrency := row.account.nativeCurrency

/-- `WHERE account.accounting_class IN ('income','expense')` -/
def cashFlowRows : List PostedRow :=
  L.postedRows.filter fun row =>
    row.account.accountingClass == .income || row.account.accountingClass == .expense

/-- The rows one row of `reporting.cash_flow_monthly` sums. -/
def cashFlowGroup (key : CashFlowKey) : List PostedRow :=
  L.cashFlowRows.filter fun row => decide (cashFlowKey row = key)

/-- `reporting.cash_flow_monthly` -/
def cashFlowMonthly : List CashFlowRow :=
  (L.cashFlowRows.map cashFlowKey).dedup.map fun key =>
    { key with nativeAmount := ((L.cashFlowGroup key).map fun row => signedAmount row.account row.posting).sum }

def categorySpendKey (row : PostedRow) : CategorySpendKey where
  householdId := row.posting.householdId
  monthStart := row.journal.effectiveOn.monthStart
  accountId := row.account.accountId
  nativeCurrency := row.account.nativeCurrency

/-- `WHERE account.accounting_class = 'expense'` -/
def categorySpendRows : List PostedRow :=
  L.postedRows.filter fun row => row.account.accountingClass == .expense

def categorySpendGroup (key : CategorySpendKey) : List PostedRow :=
  L.categorySpendRows.filter fun row => decide (categorySpendKey row = key)

/-- `reporting.category_spend_monthly` -/
def categorySpendMonthly : List CategorySpendRow :=
  (L.categorySpendRows.map categorySpendKey).dedup.map fun key =>
    { key with nativeAmount :=
        ((L.categorySpendGroup key).map fun row => signedAmount row.account row.posting).sum }

end LedgerDb

namespace PlanningDb

variable (d : PlanningDb) (P : Projections)

/-- The key of an active goal. -/
def savingsGoalKey (goal : SavingsGoalRow) : Option SavingsGoalKey :=
  if goal.archived then none
  else (d.findHousehold goal.householdId).map fun household =>
    { householdId := household.householdId, goalKey := goal.goalKey, name := goal.name
      targetAmount := goal.targetAmount, targetCurrency := goal.targetCurrency
      targetDate := goal.targetDate }

/-- The active links of a goal with the current balances of their accounts. -/
def goalBalances (key : SavingsGoalKey) : List ((SavingsGoalRow × SavingsGoalAccountRow) × CurrentBalanceRow) :=
  join (fun row balance => balance.householdId == row.2.householdId && balance.accountId == row.2.accountId)
    (join (fun goal link => link.householdId == goal.householdId && link.goalId == goal.goalId && !link.archived)
      (d.savingsGoals.filter fun goal => decide (d.savingsGoalKey goal = some key)) d.savingsGoalAccounts)
    P.currentBalances

/-- `reporting.savings_goal_progress` -/
def savingsGoalProgress : List SavingsGoalProgressRow :=
  (d.savingsGoals.filterMap d.savingsGoalKey).dedup.map fun key =>
    { key with currentAmount := ((d.goalBalances P key).map fun row => row.2.nativeAmount.units).sum }

/-! ## Amounts in a currency -/

/-- A posting on an account, in a currency. -/
def Booked (householdId : HouseholdId) (accountId : AccountId) (currency : CurrencyCode)
    (posting : PostingRow) : Prop :=
  posting.householdId = householdId ∧ posting.accountId = accountId ∧
    posting.accountNativeCurrency = currency

/-- The amount is a sum of postings on the account, each taken once, all in the currency. -/
def BalanceIn (householdId : HouseholdId) (accountId : AccountId) (currency : CurrencyCode)
    (amount : DecimalAmount) : Prop :=
  PartSum d.signedPosting (Booked householdId accountId currency) d.postings amount.units

/-- The amount is a sum of postings of the household, each taken once, all in the currency. -/
def TotalIn (householdId : HouseholdId) (currency : CurrencyCode) (amount : DecimalAmount) : Prop :=
  PartSum d.signedPosting (fun posting => ∃ accountId, Booked householdId accountId currency posting)
    d.postings amount.units

/-- The amount is the sum of the summands, and they are all in the currency. -/
def SumsIn (currency : CurrencyCode) (summands : List (Int × CurrencyCode)) (amount : Int) : Prop :=
  amount = (summands.map Prod.fst).sum ∧ ∀ summand ∈ summands, summand.2 = currency

/-- What is derived from the ledger is in the currency shown with it. -/
structure LedgerAmountsShown : Prop where
  current : ∀ row ∈ P.currentBalances,
    d.BalanceIn row.householdId row.accountId row.nativeCurrency row.nativeAmount ∧
      d.BalanceIn row.householdId row.accountId row.reportingCurrency row.reportingAmount
  daily : ∀ row ∈ P.dailyBalances,
    d.BalanceIn row.householdId row.accountId row.nativeCurrency row.nativeAmount ∧
      d.BalanceIn row.householdId row.accountId row.reportingCurrency row.reportingAmount
  netWorth : ∀ row ∈ P.netWorthDaily,
    d.TotalIn row.householdId row.reportingCurrency row.assetReportingAmount ∧
      d.TotalIn row.householdId row.reportingCurrency row.liabilityReportingAmount ∧
      row.netWorthReportingAmount.units =
        row.assetReportingAmount.units - row.liabilityReportingAmount.units
  cashFlow : ∀ row ∈ d.cashFlowMonthly,
    SumsIn row.nativeCurrency ((d.cashFlowGroup row.toCashFlowKey).map PostedRow.summand) row.nativeAmount
  categorySpend : ∀ row ∈ d.categorySpendMonthly,
    SumsIn row.nativeCurrency ((d.categorySpendGroup row.toCategorySpendKey).map PostedRow.summand)
      row.nativeAmount

/-- The actual amounts are in the currency of the planned amounts. -/
def BudgetAmountsShown : Prop :=
  ∀ row ∈ d.budgetVariance,
    SumsIn row.plannedCurrency ((d.varianceRows row.toBudgetVarianceKey).map fun counted =>
      (signedAmount counted.account counted.posting, counted.posting.accountNativeCurrency)) row.actualAmount

/-- The current amounts are in the currency of the target amounts. -/
def GoalAmountsShown : Prop :=
  ∀ row ∈ d.savingsGoalProgress P,
    SumsIn row.targetCurrency ((d.goalBalances P row.toSavingsGoalKey).map fun linked =>
      (linked.2.nativeAmount.units, linked.2.nativeCurrency)) row.currentAmount

/-- Every amount reported is a sum of amounts in the currency shown with it. -/
structure ShownCurrencies : Prop extends d.LedgerAmountsShown P where
  budget : d.BudgetAmountsShown
  savings : d.GoalAmountsShown P

/-! ## What the currencies depend on -/

/-- The accounts of postings are in the currency of the postings. -/
def Denominated : Prop :=
  ∀ posting ∈ d.postings, ∀ account ∈ d.accounts, account.householdId = posting.householdId →
    account.accountId = posting.accountId → posting.accountNativeCurrency = account.nativeCurrency

/-- What a budget counts is in the currency of the allocation. -/
def BudgetsInCurrency : Prop :=
  ∀ allocation ∈ d.allocations, ∀ posting ∈ d.postings, d.counted allocation posting = true →
    posting.accountNativeCurrency = allocation.currency

/-- The balances of the accounts linked to a goal are in the currency of the goal. -/
def GoalsInCurrency : Prop :=
  ∀ goal ∈ d.savingsGoals, (d.savingsGoalKey goal).isSome → ∀ link ∈ d.savingsGoalAccounts,
    link.householdId = goal.householdId → link.goalId = goal.goalId → link.archived = false →
      ∀ balance ∈ P.currentBalances, balance.householdId = link.householdId →
        balance.accountId = link.accountId → balance.nativeCurrency = goal.targetCurrency

variable {d P}

theorem mem_postedRows {row : PostedRow} (h : row ∈ d.postedRows) :
    row.posting ∈ d.postings ∧ row.account ∈ d.accounts ∧
      row.account.householdId = row.posting.householdId ∧ row.account.accountId = row.posting.accountId := by
  obtain ⟨hjoin, _⟩ := List.mem_filter.1 h
  obtain ⟨hjournal, haccount, hon⟩ := mem_join.1 hjoin
  obtain ⟨hposting, _, _⟩ := mem_join.1 hjournal
  simp only [Bool.and_eq_true, beq_iff_eq] at hon
  exact ⟨hposting, haccount, hon.1, hon.2⟩

theorem cashFlow_shown (hd : d.Denominated) {row : CashFlowRow} (h : row ∈ d.cashFlowMonthly) :
    SumsIn row.nativeCurrency ((d.cashFlowGroup row.toCashFlowKey).map PostedRow.summand)
      row.nativeAmount := by
  obtain ⟨key, _, rfl⟩ := List.mem_map.1 h
  constructor
  · simp [PostedRow.summand, Function.comp_def]
  · intro summand hsummand
    obtain ⟨counted, hcounted, rfl⟩ := List.mem_map.1 hsummand
    obtain ⟨hrows, hkey⟩ := List.mem_filter.1 hcounted
    obtain ⟨hposting, haccount, hhousehold, hid⟩ := mem_postedRows (List.mem_filter.1 hrows).1
    have hcurrency := hd _ hposting _ haccount hhousehold hid
    rw [← of_decide_eq_true hkey]
    exact hcurrency

theorem categorySpend_shown (hd : d.Denominated) {row : CategorySpendRow} (h : row ∈ d.categorySpendMonthly) :
    SumsIn row.nativeCurrency ((d.categorySpendGroup row.toCategorySpendKey).map PostedRow.summand)
      row.nativeAmount := by
  obtain ⟨key, _, rfl⟩ := List.mem_map.1 h
  constructor
  · simp [PostedRow.summand, Function.comp_def]
  · intro summand hsummand
    obtain ⟨counted, hcounted, rfl⟩ := List.mem_map.1 hsummand
    obtain ⟨hrows, hkey⟩ := List.mem_filter.1 hcounted
    obtain ⟨hposting, haccount, hhousehold, hid⟩ := mem_postedRows (List.mem_filter.1 hrows).1
    have hcurrency := hd _ hposting _ haccount hhousehold hid
    rw [← of_decide_eq_true hkey]
    exact hcurrency

/-- A posting that the view joins with copies of an allocation is one that it counts. -/
theorem mem_budgetPostings_iff (hkeyed : d.toLedgerDb.Keyed) {allocation : BudgetAllocationRow} {n : Nat}
    (hn : 0 < n) {posting : PostingRow} :
    (∃ row ∈ d.budgetPostings (List.replicate n allocation), row.posting = posting) ↔
      posting ∈ d.postings ∧ d.counted allocation posting = true := by
  have hcount : ∀ posting ∈ d.postings, (0 < (d.mappedJournals (List.replicate n allocation)).countP
      fun row => posting.householdId == row.2.householdId && posting.journalId == row.2.journalId &&
        posting.accountId == row.1.1.2.accountId) ↔ d.counted allocation posting = true := by
    intro posting hposting
    rw [countP_mappedJournals hkeyed hposting, counted, Bool.and_eq_true, List.any_eq_true,
      ← List.countP_pos_iff]
    split
    · next heffective =>
      have hpos : 0 < n * d.mappings.countP (pays allocation posting) ↔
          0 < d.mappings.countP (pays allocation posting) := Nat.mul_pos_iff_of_pos_left hn
      simp [heffective, hpos]
    · next heffective => simp [heffective]
  constructor
  · rintro ⟨⟨row, posting'⟩, hrow, rfl⟩
    obtain ⟨hjournals, hposting, hon⟩ := mem_join.1 hrow
    exact ⟨hposting, (hcount _ hposting).1 (List.countP_pos_iff.2 ⟨row, hjournals, hon⟩)⟩
  · rintro ⟨hposting, hcounted⟩
    obtain ⟨row, hjournals, hon⟩ := List.countP_pos_iff.1 ((hcount posting hposting).2 hcounted)
    exact ⟨(row, posting), mem_join.2 ⟨hjournals, hposting, hon⟩, rfl⟩

theorem varianceKey_currency {allocation : BudgetAllocationRow} {key : BudgetVarianceKey}
    (h : d.varianceKey allocation = some key) : key.plannedCurrency = allocation.currency := by
  simp only [varianceKey, Option.bind_eq_bind, Option.bind_eq_some_iff, Option.pure_def,
    Option.some.injEq] at h
  obtain ⟨version, _, scope, _, category, _, household, _, rfl⟩ := h
  rfl

theorem budget_shown_iff (hd : d.Budgeted) : d.BudgetAmountsShown ↔ d.BudgetsInCurrency := by
  constructor
  · intro hshown allocation hmem posting hposting hcounted
    obtain ⟨row, hrow, hkey⟩ := exists_shown hd hmem
    have hcopies : 0 < d.allocations.count allocation := List.count_pos_iff.2 hmem
    obtain ⟨counted, hin, rfl⟩ := (mem_budgetPostings_iff hd.keyed hcopies).2 ⟨hposting, hcounted⟩
    rw [← hd.allocationsOf_eq hkey] at hin
    have hsame := (hshown row hrow).2 _ (List.mem_map_of_mem hin)
    rw [← varianceKey_currency hkey]
    exact hsame
  · intro hbudgets row hrow
    obtain ⟨key, hkey, rfl⟩ := List.mem_map.1 hrow
    obtain ⟨allocation, hmem, hkey⟩ := List.mem_filterMap.1 (List.mem_dedup.1 hkey)
    have hcopies : 0 < d.allocations.count allocation := List.count_pos_iff.2 hmem
    constructor
    · simp [Function.comp_def]
    · intro summand hsummand
      obtain ⟨counted, hin, rfl⟩ := List.mem_map.1 hsummand
      rw [varianceRows, hd.allocationsOf_eq hkey] at hin
      obtain ⟨hposting, hcounted⟩ := (mem_budgetPostings_iff hd.keyed hcopies).1 ⟨counted, hin, rfl⟩
      rw [varianceKey_currency hkey]
      exact hbudgets allocation hmem _ hposting hcounted

theorem savingsGoalKey_currency {goal : SavingsGoalRow} {key : SavingsGoalKey}
    (h : d.savingsGoalKey goal = some key) : key.targetCurrency = goal.targetCurrency := by
  unfold savingsGoalKey at h
  split at h
  · cases h
  · obtain ⟨household, _, rfl⟩ := Option.map_eq_some_iff.1 h
    rfl

theorem savings_shown_iff : d.GoalAmountsShown P ↔ d.GoalsInCurrency P := by
  constructor
  · intro hshown goal hgoal hkey link hlink hhousehold hid hactive balance hbalance hof haccount
    obtain ⟨key, hkey⟩ := Option.isSome_iff_exists.1 hkey
    have hrow : key ∈ (d.savingsGoals.filterMap d.savingsGoalKey).dedup :=
      List.mem_dedup.2 (List.mem_filterMap.2 ⟨goal, hgoal, hkey⟩)
    have hgroup : goal ∈ d.savingsGoals.filter fun goal => decide (d.savingsGoalKey goal = some key) :=
      List.mem_filter.2 ⟨hgoal, decide_eq_true hkey⟩
    have hlinked : ((goal, link), balance) ∈ d.goalBalances P key := by
      apply mem_join.2
      constructor
      · apply mem_join.2
        exact ⟨hgroup, hlink, by simp [hhousehold, hid, hactive]⟩
      · exact ⟨hbalance, by simp [hof, haccount]⟩
    have hsame := (hshown _ (List.mem_map_of_mem hrow)).2 _ (List.mem_map_of_mem hlinked)
    rw [← savingsGoalKey_currency hkey]
    exact hsame
  · intro hgoals row hrow
    obtain ⟨key, hkey, rfl⟩ := List.mem_map.1 hrow
    constructor
    · simp [Function.comp_def]
    · intro summand hsummand
      obtain ⟨⟨⟨goal, link⟩, balance⟩, hlinked, rfl⟩ := List.mem_map.1 hsummand
      obtain ⟨hinner, hbalance, hon⟩ := mem_join.1 hlinked
      obtain ⟨hgroup, hlink, hlinkOn⟩ := mem_join.1 hinner
      obtain ⟨hgoal, hgoalKey⟩ := List.mem_filter.1 hgroup
      have hkey' := of_decide_eq_true hgoalKey
      simp only [Bool.and_eq_true, beq_iff_eq, Bool.not_eq_true'] at hon hlinkOn
      rw [savingsGoalKey_currency hkey']
      exact hgoals goal hgoal (by rw [hkey']; rfl) link hlink hlinkOn.1.1 hlinkOn.1.2 hlinkOn.2 balance
        hbalance hon.1 hon.2

end PlanningDb

end PlusOne
