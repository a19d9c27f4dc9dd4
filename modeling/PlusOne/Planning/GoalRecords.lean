import PlusOne.Planning.ActiveRecords

/-! # The records of savings goals

`SavingsGoalRepository.upsert` as upserts under the keys of three tables, and when what it leaves
under the key of a goal is the proposal. -/

namespace PlusOne

open Numeric Relational

/-! ## The three upserts -/

/-- An allocation whose amount the column takes. -/
structure StoredAllocation where
  allocation : VirtualAllocationProposal
  amount : DecimalAmount
  stored : Fixed.store allocation.amount.amount = some amount

namespace SavingsGoalRepository

def goalWrite (rows : List SavingsGoalRow) (input : UpsertSavingsGoalProposal) (targetAmount : DecimalAmount) :
    IdentityWrite SavingsGoalRow.goalId SavingsGoalRow.activeKey rows where
  under := (input.householdId, input.goalKey)
  update row :=
    { row with
      name := input.name, targetAmount, targetCurrency := input.target.currency
      targetDate := input.targetDate }
  new :=
    { goalId := nextIdentity (rows.map SavingsGoalRow.goalId), householdId := input.householdId
      goalKey := input.goalKey, name := input.name, targetAmount, targetCurrency := input.target.currency
      targetDate := input.targetDate, archived := false }
  updated _ h := h
  inserted := rfl
  keepsIdentity _ := rfl
  newIdentity := rfl

def accountWrite (householdId : HouseholdId) (goalId : Nat) (accountId : AccountId) :
    KeyedWrite SavingsGoalAccountRow.activeKey where
  under := (householdId, goalId, accountId)
  update row := row
  new := { householdId, goalId, accountId, archived := false }
  updated _ h := h
  inserted := rfl

def allocationWrite (householdId : HouseholdId) (goalId : Nat) (stored : StoredAllocation) :
    KeyedWrite VirtualAllocationRow.activeKey where
  under := (householdId, stored.allocation.accountId, stored.allocation.allocationKey)
  update row := { row with goalId, amount := stored.amount, currency := stored.allocation.amount.currency }
  new :=
    { householdId, goalId, accountId := stored.allocation.accountId
      allocationKey := stored.allocation.allocationKey, amount := stored.amount
      currency := stored.allocation.amount.currency, archived := false }
  updated _ h := h
  inserted := rfl

theorem goal_activeKey_iff {row : SavingsGoalRow} {householdId : HouseholdId} {goalKey : String} :
    row.activeKey = some (householdId, goalKey) ↔
      (row.householdId == householdId && row.goalKey == goalKey && !row.archived) = true := by
  unfold SavingsGoalRow.activeKey
  cases row.archived <;> simp

theorem account_activeKey_iff {row : SavingsGoalAccountRow} {householdId : HouseholdId} {goalId : Nat}
    {accountId : AccountId} : row.activeKey = some (householdId, goalId, accountId) ↔
      (row.householdId == householdId && row.goalId == goalId && row.accountId == accountId &&
        !row.archived) = true := by
  unfold SavingsGoalAccountRow.activeKey
  cases row.archived <;> simp [and_assoc]

theorem allocation_activeKey_iff {row : VirtualAllocationRow} {householdId : HouseholdId}
    {allocation : VirtualAllocationProposal} :
    row.activeKey = some (householdId, allocation.accountId, allocation.allocationKey) ↔
      allocation.isUnder householdId row = true := by
  unfold VirtualAllocationRow.activeKey VirtualAllocationProposal.isUnder
  cases row.archived <;> simp [and_assoc]

theorem account_activeKey_iff_owned {row : SavingsGoalAccountRow} {householdId : HouseholdId} {goalId : Nat}
    {accountId : AccountId} : row.activeKey = some (householdId, goalId, accountId) ↔
      row.activeGoal = some (householdId, goalId) ∧ row.accountId = accountId := by
  unfold SavingsGoalAccountRow.activeKey SavingsGoalAccountRow.activeGoal
  cases row.archived <;> simp [and_assoc]

theorem allocation_activeKey_iff_of_owned {row : VirtualAllocationRow} {householdId : HouseholdId} {goalId : Nat}
    {accountId : AccountId} {allocationKey : String} (howned : row.activeGoal = some (householdId, goalId)) :
    row.activeKey = some (householdId, accountId, allocationKey) ↔
      row.accountId = accountId ∧ row.allocationKey = allocationKey := by
  unfold VirtualAllocationRow.activeGoal at howned
  unfold VirtualAllocationRow.activeKey
  cases harchived : row.archived <;> simp_all

theorem account_holding (householdId : HouseholdId) (goalId : Nat) :
    Relational.Holding SavingsGoalAccountRow.activeGoal (householdId, goalId) (accountWrite householdId goalId)
      (fun accountId row => row.accountId = accountId) (fun _ => True) fun _ _ => True where
  owned hwrote := (account_activeKey_iff_owned.1 hwrote.under).1
  under howned hholds := account_activeKey_iff_owned.2 ⟨howned, hholds⟩
  wrote _ hwrote := (account_activeKey_iff_owned.1 hwrote.under).2
  fits _ := trivial
  agrees _ _ := trivial
  shared hunder _ hholds := by
    simp only [accountWrite, Prod.mk.injEq, true_and] at hunder
    rw [hunder, hholds]

theorem money_isStored_iff {money : Money} {amount : DecimalAmount} (h : Fixed.store money.amount = some amount) :
    money.IsStored amount money.currency ↔ money.Exact := by
  unfold Money.IsStored
  rw [Fixed.value_eq_iff h]
  simp

/-- An allocation is held by its row as far as the column can hold its amount. -/
theorem allocation_holding (householdId : HouseholdId) (goalId : Nat) :
    Relational.Holding VirtualAllocationRow.activeGoal (householdId, goalId) (allocationWrite householdId goalId)
      (fun stored => stored.allocation.HeldBy) (fun stored => stored.allocation.amount.Exact)
      fun stored other => stored.allocation.amount.Same other.allocation.amount where
  owned {stored row} hwrote := by
    rcases hwrote with rfl | ⟨old, hold, rfl⟩
    · rfl
    · have hkey := allocation_activeKey_iff.1 hold
      simp only [VirtualAllocationProposal.isUnder, Bool.and_eq_true, beq_iff_eq, Bool.not_eq_true'] at hkey
      simp [allocationWrite, VirtualAllocationRow.activeGoal, hkey.1.1.1, hkey.2]
  under howned hholds := (allocation_activeKey_iff_of_owned howned).2 ⟨hholds.1, hholds.2.1⟩
  wrote {stored row} hexact hwrote := by
    have hamount := (money_isStored_iff stored.stored).2 hexact
    have hkey := allocation_activeKey_iff.1 hwrote.under
    simp only [VirtualAllocationProposal.isUnder, Bool.and_eq_true, beq_iff_eq] at hkey
    refine ⟨hkey.1.1.2, hkey.1.2, ?_⟩
    rcases hwrote with rfl | ⟨old, _, rfl⟩
    · exact hamount
    · exact hamount
  fits hholds := Fixed.exactAt_of_value hholds.2.2.1
  agrees hholds hholds' := ⟨hholds.2.2.1.symm.trans hholds'.2.2.1, hholds.2.2.2.symm.trans hholds'.2.2.2⟩
  shared {stored other row} hunder hagree hholds := by
    simp only [allocationWrite, Prod.mk.injEq, true_and] at hunder
    exact ⟨hholds.1.trans hunder.1.symm, hholds.2.1.trans hunder.2.symm, hholds.2.2.1.trans hagree.1.symm,
      hholds.2.2.2.trans hagree.2.symm⟩

variable {d d' : PlanningDb} {input : UpsertSavingsGoalProposal} {householdId : HouseholdId} {goalId : Nat}

theorem upsertGoal_write (ht : ActiveTable SavingsGoalRow.goalId SavingsGoalRow.activeKey d.savingsGoals)
    (h : upsertGoal d input = .ok (goalId, d')) :
    ∃ targetAmount goal, Fixed.store input.target.amount = some targetAmount ∧ goal.goalId = goalId ∧
      ActiveTable.Written (goalWrite d.savingsGoals input targetAmount) goal ∧
      d' = { d with savingsGoals := (goalWrite d.savingsGoals input targetAmount).apply d.savingsGoals } := by
  obtain ⟨targetAmount, hstored, h⟩ := bind_eq_ok.1 h
  rw [require_bind_eq_ok, require_bind_eq_ok, require_bind_eq_ok, require_bind_eq_ok] at h
  obtain ⟨_, _, _, _, h⟩ := h
  obtain ⟨goal, hgoal⟩ := ht.apply_written (goalWrite d.savingsGoals input targetAmount)
  refine ⟨targetAmount, goal, stored_eq_ok.1 hstored, ?_⟩
  split at h
  case h_1 old hfind =>
    obtain ⟨hid, happly⟩ := hgoal.of_found ht (fun _ => goal_activeKey_iff) hfind
    cases h
    refine ⟨hid, hgoal, ?_⟩
    rw [happly]
    rfl
  case h_2 hfind =>
    obtain ⟨hnew, happly⟩ := hgoal.of_missing (fun _ => goal_activeKey_iff) hfind
    cases h
    refine ⟨by rw [hnew]; rfl, hgoal, ?_⟩
    rw [happly]
    rfl

theorem linkAccount_write {accountId : AccountId} (h : linkAccount d householdId goalId accountId = .ok d') :
    d' = { d with savingsGoalAccounts :=
      (accountWrite householdId goalId accountId).apply d.savingsGoalAccounts } := by
  unfold linkAccount at h
  split at h
  case isTrue hany =>
    obtain ⟨row, hrow, hmatch⟩ := List.any_eq_true.1 hany
    cases h
    have hsame : (accountWrite householdId goalId accountId).apply d.savingsGoalAccounts =
        d.savingsGoalAccounts := by
      rw [KeyedWrite.apply_of_some hrow (account_activeKey_iff.2 hmatch)]
      exact (List.map_congr_left fun row _ => ite_self row).trans (List.map_id _)
    rw [hsame]
  case isFalse hany =>
    rw [require_bind_eq_ok] at h
    obtain ⟨_, h⟩ := h
    cases h
    have hnone : ∀ row ∈ d.savingsGoalAccounts,
        row.activeKey ≠ some (accountWrite householdId goalId accountId).under := by
      intro row hrow hkey
      exact hany (List.any_eq_true.2 ⟨row, hrow, account_activeKey_iff.1 hkey⟩)
    rw [KeyedWrite.apply_of_none hnone]
    rfl

theorem linkAccounts_write {accountIds : List AccountId}
    (h : linkAccounts householdId goalId accountIds d = .ok d') :
    d' = { d with savingsGoalAccounts :=
      KeyedWrite.applyAll (accountIds.map (accountWrite householdId goalId)) d.savingsGoalAccounts } := by
  induction accountIds generalizing d with
  | nil =>
    cases h
    rfl
  | cons accountId rest ih =>
    obtain ⟨d₁, h₁, h⟩ := bind_eq_ok.1 h
    obtain rfl := linkAccount_write h₁
    exact ih h

theorem upsertVirtualAllocation_write {allocation : VirtualAllocationProposal}
    (h : upsertVirtualAllocation d householdId goalId allocation = .ok d') :
    ∃ stored : StoredAllocation, stored.allocation = allocation ∧
      d' = { d with virtualAllocations :=
        (allocationWrite householdId goalId stored).apply d.virtualAllocations } := by
  obtain ⟨amount, hstored, h⟩ := bind_eq_ok.1 h
  rw [require_bind_eq_ok, require_bind_eq_ok, require_bind_eq_ok] at h
  obtain ⟨_, _, _, h⟩ := h
  refine ⟨⟨allocation, amount, stored_eq_ok.1 hstored⟩, rfl, ?_⟩
  split at h
  case isTrue hany =>
    obtain ⟨row, hrow, hmatch⟩ := List.any_eq_true.1 hany
    cases h
    rw [KeyedWrite.apply_of_some
      (w := allocationWrite householdId goalId ⟨allocation, amount, stored_eq_ok.1 hstored⟩) hrow
      (allocation_activeKey_iff.2 hmatch)]
    simp only [allocationWrite, allocation_activeKey_iff]
  case isFalse hany =>
    rw [require_bind_eq_ok] at h
    obtain ⟨_, h⟩ := h
    cases h
    have hnone : ∀ row ∈ d.virtualAllocations, row.activeKey ≠
        some (allocationWrite householdId goalId ⟨allocation, amount, stored_eq_ok.1 hstored⟩).under := by
      intro row hrow hkey
      exact hany (List.any_eq_true.2 ⟨row, hrow, allocation_activeKey_iff.1 hkey⟩)
    rw [KeyedWrite.apply_of_none hnone]
    rfl

theorem upsertVirtualAllocations_write {allocations : List VirtualAllocationProposal}
    (h : upsertVirtualAllocations householdId goalId allocations d = .ok d') :
    ∃ stored : List StoredAllocation, stored.map StoredAllocation.allocation = allocations ∧
      d' = { d with virtualAllocations :=
        KeyedWrite.applyAll (stored.map (allocationWrite householdId goalId)) d.virtualAllocations } := by
  induction allocations generalizing d with
  | nil =>
    cases h
    exact ⟨[], rfl, rfl⟩
  | cons allocation rest ih =>
    obtain ⟨d₁, h₁, h⟩ := bind_eq_ok.1 h
    obtain ⟨first, rfl, rfl⟩ := upsertVirtualAllocation_write h₁
    obtain ⟨stored, rfl, rfl⟩ := ih h
    exact ⟨first :: stored, rfl, rfl⟩

end SavingsGoalRepository

namespace PlanningRecords

open SavingsGoalRepository

variable {F : PlanningFormats} {d d' : PlanningRecords} {context : CheckedCommand}
  {input : UpsertSavingsGoalProposal} {state : PlanningReadback}

/-- What an upsert of a goal has done to the tables. -/
structure GoalUpserted (d d' : PlanningRecords) (input : UpsertSavingsGoalProposal)
    (targetAmount : DecimalAmount) (goal : SavingsGoalRow) (stored : List StoredAllocation) : Prop where
  target : Fixed.store input.target.amount = some targetAmount
  proposed : stored.map StoredAllocation.allocation = input.virtualAllocations
  written : ActiveTable.Written (goalWrite d.savingsGoals input targetAmount) goal
  goals : d'.savingsGoals = (goalWrite d.savingsGoals input targetAmount).apply d.savingsGoals
  accounts : d'.savingsGoalAccounts = KeyedWrite.applyAll
    (input.assetAccountIds.map (accountWrite input.householdId goal.goalId)) d.savingsGoalAccounts
  allocations : d'.virtualAllocations = KeyedWrite.applyAll
    (stored.map (allocationWrite input.householdId goal.goalId)) d.virtualAllocations
  rest : d' = { d with
    savingsGoals := d'.savingsGoals, savingsGoalAccounts := d'.savingsGoalAccounts
    virtualAllocations := d'.virtualAllocations, auditRecords := d'.auditRecords }

theorem recorded_rest {householdId : HouseholdId} {recordType : PlanningRecordType} {recordId : Nat}
    {action : String} {payload : PlanningProposal} {archivedAt : Option String}
    (h : recorded F d context householdId recordType recordId action payload archivedAt = .ok (state, d')) :
    d' = { d with auditRecords := d'.auditRecords } := by
  obtain ⟨parsed, _, h⟩ := bind_eq_ok.1 h
  cases h
  rfl

theorem upsertSavingsGoal_writes (hd : d.Consistent)
    (h : d.upsertSavingsGoal F context input = .ok (state, d')) :
    ∃ targetAmount goal stored, GoalUpserted d d' input targetAmount goal stored := by
  rw [upsertSavingsGoal, require_bind_eq_ok] at h
  obtain ⟨_, h⟩ := h
  obtain ⟨⟨goalId, db⟩, hupsert, h⟩ := bind_eq_ok.1 h
  rw [upsertRecord, require_bind_eq_ok] at hupsert
  obtain ⟨_, hupsert⟩ := hupsert
  obtain ⟨⟨goalId', d₁⟩, h₁, hupsert⟩ := bind_eq_ok.1 hupsert
  obtain ⟨d₂, h₂, hupsert⟩ := bind_eq_ok.1 hupsert
  obtain ⟨d₃, h₃, hupsert⟩ := bind_eq_ok.1 hupsert
  cases hupsert
  obtain ⟨targetAmount, goal, htarget, rfl, hgoal, rfl⟩ := upsertGoal_write hd.goals h₁
  obtain rfl := linkAccounts_write h₂
  obtain ⟨stored, hproposed, rfl⟩ := upsertVirtualAllocations_write h₃
  have hrest := recorded_rest h
  generalize d'.auditRecords = auditRecords at hrest
  subst hrest
  exact ⟨targetAmount, goal, stored, htarget, hproposed, hgoal, rfl, rfl, rfl, rfl⟩

namespace GoalUpserted

variable {targetAmount : DecimalAmount} {goal : SavingsGoalRow} {stored : List StoredAllocation}

theorem forall_stored (hu : GoalUpserted d d' input targetAmount goal stored)
    {P : VirtualAllocationProposal → Prop} :
    (∀ s ∈ stored, P s.allocation) ↔ ∀ allocation ∈ input.virtualAllocations, P allocation := by
  rw [← hu.proposed, List.forall_mem_map]

theorem heldBy_stored (hu : GoalUpserted d d' input targetAmount goal stored) {rows : List VirtualAllocationRow} :
    HeldBy (fun s => StoredAllocation.allocation s |>.HeldBy) stored rows ↔
      HeldBy VirtualAllocationProposal.HeldBy input.virtualAllocations rows := by
  unfold HeldBy
  rw [← hu.proposed, List.forall_mem_map]
  simp

theorem goal_fields (hu : GoalUpserted d d' input targetAmount goal stored) :
    goal.householdId = input.householdId ∧ goal.name = input.name ∧ goal.targetAmount = targetAmount ∧
      goal.targetCurrency = input.target.currency ∧ goal.targetDate = input.targetDate := by
  have hunder := goal_activeKey_iff.1 hu.written.wrote.under
  simp only [Bool.and_eq_true, beq_iff_eq] at hunder
  refine ⟨hunder.1.1, ?_⟩
  rcases hu.written.wrote with rfl | ⟨old, _, rfl⟩
  · exact ⟨rfl, rfl, rfl, rfl⟩
  · exact ⟨rfl, rfl, rfl, rfl⟩

/-- The tables stay consistent. -/
theorem consistent (hd : d.Consistent) (hu : GoalUpserted d d' input targetAmount goal stored) :
    d'.Consistent := by
  have hgoal : goal.goalId ∈ d'.savingsGoals.map SavingsGoalRow.goalId := by
    rw [hu.goals]
    exact List.mem_map_of_mem hu.written.mem
  have hkept : ∀ n ∈ d.savingsGoals.map SavingsGoalRow.goalId, n ∈ d'.savingsGoals.map SavingsGoalRow.goalId := by
    intro n hn
    rw [hu.goals]
    exact ActiveTable.identity_mem_apply _ hn
  have hcategories : ∀ row ∈ d'.savingsGoals, row.budgetCategoryId = none := by
    rw [hu.goals]
    exact KeyedWrite.forall_apply hd.goalCategories (fun _ h => h) rfl
  have haccounts : ∀ row ∈ d'.savingsGoalAccounts, row.goalId ∈ d'.savingsGoals.map SavingsGoalRow.goalId := by
    rw [hu.accounts]
    refine KeyedWrite.forall_applyAll (fun row hrow => hkept _ (hd.accountGoals row hrow)) ?_ ?_
    · intro w hw row hrow
      obtain ⟨accountId, _, rfl⟩ := List.mem_map.1 hw
      exact hrow
    · intro w hw
      obtain ⟨accountId, _, rfl⟩ := List.mem_map.1 hw
      exact hgoal
  have hallocations : ∀ row ∈ d'.virtualAllocations, row.goalId ∈ d'.savingsGoals.map SavingsGoalRow.goalId := by
    rw [hu.allocations]
    refine KeyedWrite.forall_applyAll (fun row hrow => hkept _ (hd.allocationGoals row hrow)) ?_ ?_
    · intro w hw row _
      obtain ⟨s, _, rfl⟩ := List.mem_map.1 hw
      exact hgoal
    · intro w hw
      obtain ⟨s, _, rfl⟩ := List.mem_map.1 hw
      exact hgoal
  have hrest := hu.rest
  constructor
  case goals => exact hu.goals ▸ hd.goals.apply _
  case goalCategories => exact hcategories
  case accounts => exact hu.accounts ▸ KeyedWrite.applyAll_unique hd.accounts
  case accountGoals => exact haccounts
  case allocations => exact hu.allocations ▸ KeyedWrite.applyAll_unique hd.allocations
  case allocationGoals => exact hallocations
  all_goals rw [hrest]
  case obligations => exact hd.obligations
  case occurrences => exact hd.occurrences
  case occurrenceObligations => exact hd.occurrenceObligations
  case loanAgreements => exact hd.loanAgreements
  case debtPlans => exact hd.debtPlans
  case planCategories => exact hd.planCategories
  case planLoans => exact hd.planLoans

/-! ### The goal itself -/

theorem forall_goalRecords {householdId : HouseholdId} {goalKey : String} {P : SavingsGoalRecord → Prop} :
    (∀ record ∈ d.goalRecords householdId goalKey, P record) ↔
      ∀ goal ∈ d.savingsGoals, goal.activeKey = some (householdId, goalKey) → P (d.goalRecord goal) := by
  rw [goalRecords, List.forall_mem_map]
  simp

theorem goalRecords_self (hu : GoalUpserted d d' input targetAmount goal stored) :
    d'.goalRecords input.householdId input.goalKey = [d'.goalRecord goal] := by
  have halone := hu.written.alone
  rw [← hu.goals] at halone
  exact congrArg (List.map d'.goalRecord) halone

/-- What belongs to the goal is what belonged to the goal that was under its key. -/
theorem earlier_iff (hu : GoalUpserted d d' input targetAmount goal stored) {C : Type} {children : List C}
    {owner : C → Option (HouseholdId × Nat)} {P : C → Prop}
    (hrefers : ∀ c ∈ children, ∀ household n, owner c = some (household, n) →
      n ∈ d.savingsGoals.map SavingsGoalRow.goalId) :
    (∀ c ∈ children, owner c = some (input.householdId, goal.goalId) → P c) ↔
      ∀ old ∈ d.savingsGoals, old.activeKey = some (input.householdId, input.goalKey) →
        ∀ c ∈ children, owner c = some (old.householdId, old.goalId) → P c := by
  have hiff : (∀ c ∈ children, owner c = some (input.householdId, goal.goalId) → P c) ↔
      ∀ old ∈ d.savingsGoals, old.activeKey = some (input.householdId, input.goalKey) →
        ∀ c ∈ children, owner c = some (input.householdId, old.goalId) → P c :=
    hu.written.forall_belonging_iff (fun c n => owner c = some (input.householdId, n))
      fun c hc n hn => hrefers c hc _ n hn
  rw [hiff]
  refine forall₃_congr fun old _ hkey => ?_
  have hold := goal_activeKey_iff.1 hkey
  simp only [Bool.and_eq_true, beq_iff_eq] at hold
  rw [hold.1.1]

theorem accounts_iff (hd : d.Consistent) (hu : GoalUpserted d d' input targetAmount goal stored) :
    HeldBy (fun accountId row => row.accountId = accountId) input.assetAccountIds (d'.goalRecord goal).accounts ↔
      ∀ record ∈ d.goalRecords input.householdId input.goalKey, ∀ row ∈ record.accounts,
        row.accountId ∈ input.assetAccountIds := by
  have hgoal := hu.goal_fields.1
  have hrefers : ∀ row ∈ d.savingsGoalAccounts, ∀ household n, row.activeGoal = some (household, n) →
      n ∈ d.savingsGoals.map SavingsGoalRow.goalId := by
    intro row hrow household n hn
    unfold SavingsGoalAccountRow.activeGoal at hn
    split at hn
    · cases hn
    · cases hn
      exact hd.accountGoals row hrow
  have hafter : (d'.goalRecord goal).accounts = (KeyedWrite.applyAll
      (input.assetAccountIds.map (accountWrite input.householdId goal.goalId)) d.savingsGoalAccounts).filter
        fun row => decide (row.activeGoal = some (input.householdId, goal.goalId)) := by
    rw [goalRecord, hgoal, hu.accounts]
  have hkey : ∀ row : SavingsGoalAccountRow, row.activeGoal = some (input.householdId, goal.goalId) →
      ((∃ accountId ∈ input.assetAccountIds,
        row.activeKey = some (accountWrite input.householdId goal.goalId accountId).under) ↔
          row.accountId ∈ input.assetAccountIds) := by
    intro row howned
    simp [accountWrite, account_activeKey_iff_owned, howned]
  have hearlier := hu.earlier_iff (P := fun row => row.accountId ∈ input.assetAccountIds) hrefers
  rw [hafter, (account_holding input.householdId goal.goalId).heldBy_iff hd.accounts, forall_goalRecords]
  simp only [goalRecord, List.mem_filter, decide_eq_true_eq, and_imp]
  rw [← hearlier]
  simp only [implies_true, true_and]
  exact forall₃_congr fun row _ howned => hkey row howned

theorem allocations_iff (hd : d.Consistent) (hu : GoalUpserted d d' input targetAmount goal stored) :
    HeldBy VirtualAllocationProposal.HeldBy input.virtualAllocations (d'.goalRecord goal).allocations ↔
      (∀ allocation ∈ input.virtualAllocations, allocation.amount.Exact) ∧
      (∀ allocation ∈ input.virtualAllocations, ∀ other ∈ input.virtualAllocations,
        allocation.accountId = other.accountId → allocation.allocationKey = other.allocationKey →
          allocation.amount.Same other.amount) ∧
      ∀ record ∈ d.goalRecords input.householdId input.goalKey, ∀ row ∈ record.allocations,
        ∃ allocation ∈ input.virtualAllocations,
          row.accountId = allocation.accountId ∧ row.allocationKey = allocation.allocationKey := by
  have hgoal := hu.goal_fields.1
  have hrefers : ∀ row ∈ d.virtualAllocations, ∀ household n, row.activeGoal = some (household, n) →
      n ∈ d.savingsGoals.map SavingsGoalRow.goalId := by
    intro row hrow household n hn
    unfold VirtualAllocationRow.activeGoal at hn
    split at hn
    · cases hn
    · cases hn
      exact hd.allocationGoals row hrow
  have hafter : (d'.goalRecord goal).allocations = (KeyedWrite.applyAll
      (stored.map (allocationWrite input.householdId goal.goalId)) d.virtualAllocations).filter
        fun row => decide (row.activeGoal = some (input.householdId, goal.goalId)) := by
    rw [goalRecord, hgoal, hu.allocations]
  have hkey : ∀ row : VirtualAllocationRow, row.activeGoal = some (input.householdId, goal.goalId) →
      ((∃ s ∈ stored, row.activeKey = some (allocationWrite input.householdId goal.goalId s).under) ↔
        ∃ allocation ∈ input.virtualAllocations,
          row.accountId = allocation.accountId ∧ row.allocationKey = allocation.allocationKey) := by
    intro row howned
    rw [← hu.proposed]
    simp [allocationWrite, allocation_activeKey_iff_of_owned howned]
  have hearlier := hu.earlier_iff (P := fun row => ∃ allocation ∈ input.virtualAllocations,
    row.accountId = allocation.accountId ∧ row.allocationKey = allocation.allocationKey) hrefers
  rw [← hu.heldBy_stored, hafter, (allocation_holding input.householdId goal.goalId).heldBy_iff hd.allocations,
    forall_goalRecords]
  simp only [goalRecord, List.mem_filter, decide_eq_true_eq, and_imp]
  rw [← hearlier, hu.forall_stored (P := fun allocation => allocation.amount.Exact)]
  refine and_congr_right fun _ => and_congr ?_ (forall₃_congr fun row _ howned => hkey row howned)
  simp only [← hu.proposed, List.forall_mem_map]
  simp [allocationWrite]

/-! ### The other goals -/

/-- The record of another goal stays exactly when the upsert takes none of its allocations. -/
theorem goalRecord_other_iff (hd : d.Consistent) (hu : GoalUpserted d d' input targetAmount goal stored)
    {other : SavingsGoalRow} (hne : other.goalId ≠ goal.goalId) :
    d'.goalRecord other = d.goalRecord other ↔ ∀ row ∈ (d.goalRecord other).allocations,
      ∀ allocation ∈ input.virtualAllocations,
        row.activeKey ≠ some (input.householdId, allocation.accountId, allocation.allocationKey) := by
  have howner : (other.householdId, other.goalId) ≠ (input.householdId, goal.goalId) := by
    intro hsame
    exact hne (Prod.mk.inj hsame).2
  have haccounts : (d'.goalRecord other).accounts = (d.goalRecord other).accounts := by
    rw [goalRecord, goalRecord, hu.accounts]
    refine (owned_other_iff (fun _ _ row hwrote => (account_holding _ _).owned hwrote) hd.accounts howner).2 ?_
    intro accountId _ row _ hkey howned
    have hgoal := (account_activeKey_iff_owned.1 hkey).1
    rw [howned] at hgoal
    exact howner (Option.some.inj hgoal)
  have hafter : (d'.goalRecord other).allocations = (KeyedWrite.applyAll
      (stored.map (allocationWrite input.householdId goal.goalId)) d.virtualAllocations).filter
        fun row => decide (row.activeGoal = some (other.householdId, other.goalId)) := by
    rw [goalRecord, hu.allocations]
  have hbefore : (d.goalRecord other).allocations = d.virtualAllocations.filter
      fun row => decide (row.activeGoal = some (other.householdId, other.goalId)) := rfl
  have hrecord : d'.goalRecord other = d.goalRecord other ↔
      (d'.goalRecord other).allocations = (d.goalRecord other).allocations := by
    constructor
    · intro hsame
      rw [hsame]
    · intro hsame
      rw [SavingsGoalRecord.mk.injEq]
      exact ⟨rfl, haccounts, hsame⟩
  rw [hrecord, hafter, hbefore, owned_other_iff
    (fun _ _ row hwrote => (allocation_holding _ _).owned hwrote) hd.allocations howner]
  simp only [List.mem_filter, decide_eq_true_eq, and_imp, ← hu.proposed, List.forall_mem_map]
  constructor
  · intro h row hrow howned s hs hkey
    exact h s hs row hrow hkey howned
  · intro h s hs row hrow hkey howned
    exact h row hrow howned s hs hkey

theorem goalRecords_other_iff (hd : d.Consistent) (hu : GoalUpserted d d' input targetAmount goal stored)
    {household : HouseholdId} {goalKey : String} (hne : (household, goalKey) ≠ (input.householdId, input.goalKey)) :
    d'.goalRecords household goalKey = d.goalRecords household goalKey ↔
      ∀ record ∈ d.goalRecords household goalKey, ∀ row ∈ record.allocations,
        ∀ allocation ∈ input.virtualAllocations,
          row.activeKey ≠ some (input.householdId, allocation.accountId, allocation.allocationKey) := by
  have hsame : d'.savingsGoals.filter (fun row => decide (row.activeKey = some (household, goalKey))) =
      d.savingsGoals.filter fun row => decide (row.activeKey = some (household, goalKey)) := by
    rw [hu.goals]
    exact ActiveTable.filter_other _ hne
  rw [forall_goalRecords, goalRecords, goalRecords, hsame, List.map_inj_left]
  simp only [List.mem_filter, decide_eq_true_eq, and_imp]
  refine forall₃_congr fun other hother hkey => hu.goalRecord_other_iff hd ?_
  have hafter : other ∈ (goalWrite d.savingsGoals input targetAmount).apply d.savingsGoals :=
    KeyedWrite.apply_keeps hother fun hunder => hne (Option.some.inj (hkey.symm.trans hunder))
  exact hu.written.identity_ne hd.goals hafter hkey hne

/-- All other goals stay exactly when none of them has an allocation of the proposal. -/
theorem others_iff (hd : d.Consistent) (hu : GoalUpserted d d' input targetAmount goal stored) :
    OthersKept d d' .savings_goal input.householdId input.goalKey ↔
      ∀ goalKey, goalKey ≠ input.goalKey → ∀ record ∈ d.goalRecords input.householdId goalKey,
        ∀ row ∈ record.allocations, ∀ allocation ∈ input.virtualAllocations,
          ¬(row.accountId = allocation.accountId ∧ row.allocationKey = allocation.allocationKey) := by
  have howned : ∀ household goalKey, ∀ record ∈ d.goalRecords household goalKey, ∀ row ∈ record.allocations,
      ∃ goalId, row.activeGoal = some (household, goalId) := by
    intro household goalKey
    rw [forall_goalRecords]
    intro other _ hkey row hrow
    simp only [goalRecord, List.mem_filter, decide_eq_true_eq] at hrow
    have hother := goal_activeKey_iff.1 hkey
    simp only [Bool.and_eq_true, beq_iff_eq] at hother
    exact ⟨other.goalId, hother.1.1 ▸ hrow.2⟩
  constructor
  · intro hkept goalKey hgoalKey record hrecord row hrow allocation hallocation hsame
    have hne : (input.householdId, goalKey) ≠ (input.householdId, input.goalKey) := by simp [hgoalKey]
    have hrecords := hkept.goals input.householdId goalKey (by simp [hgoalKey])
    obtain ⟨goalId, hgoal⟩ := howned _ _ record hrecord row hrow
    exact (hu.goalRecords_other_iff hd hne).1 hrecords record hrecord row hrow allocation hallocation
      ((allocation_activeKey_iff_of_owned hgoal).2 hsame)
  · intro hnone
    have hgoals : ∀ household goalKey, (PlanningRecordType.savings_goal, household, goalKey) ≠
        (PlanningRecordType.savings_goal, input.householdId, input.goalKey) →
        d'.goalRecords household goalKey = d.goalRecords household goalKey := by
      intro household goalKey hne
      rw [Ne, Prod.mk.injEq, not_and] at hne
      refine (hu.goalRecords_other_iff hd (hne rfl)).2 ?_
      intro record hrecord row hrow allocation hallocation hkey
      obtain ⟨goalId, hgoal⟩ := howned _ _ record hrecord row hrow
      obtain rfl : household = input.householdId := by
        have hallocationKey := allocation_activeKey_iff.1 hkey
        simp only [VirtualAllocationProposal.isUnder, Bool.and_eq_true, beq_iff_eq] at hallocationKey
        unfold VirtualAllocationRow.activeGoal at hgoal
        split at hgoal
        · cases hgoal
        · cases hgoal
          exact hallocationKey.1.1.1
      have hgoalKey : goalKey ≠ input.goalKey := fun h => hne rfl (by rw [h])
      exact hnone goalKey hgoalKey record hrecord row hrow allocation hallocation
        ((allocation_activeKey_iff_of_owned hgoal).1 hkey)
    have hrest := hu.rest
    constructor
    case goals => exact hgoals
    all_goals rw [hrest]
    case budgets => exact ⟨rfl, rfl, rfl⟩
    case obligations =>
      intro household obligationKey _
      rfl
    case debtPlans =>
      intro household debtPlanKey _
      rfl

/-- An upsert stores the goal as proposed exactly when the proposal is storable. -/
theorem storesGoal_iff (hd : d.Consistent) (hu : GoalUpserted d d' input targetAmount goal stored) :
    StoresGoal d d' input ↔ input.Storable d := by
  obtain ⟨_, hname, htarget, hcurrency, hdate⟩ := hu.goal_fields
  have hd' := hu.consistent hd
  have hcategory : goal.budgetCategoryId = none := by
    refine hd'.goalCategories goal ?_
    rw [hu.goals]
    exact hu.written.mem
  have hcategoryIs : d'.CategoryIs input.householdId input.budgetCategoryKey goal.budgetCategoryId ↔
      input.budgetCategoryKey = none := by
    rw [hcategory]
    cases input.budgetCategoryKey <;> simp [CategoryIs]
  have htargetIs : input.target.IsStored goal.targetAmount goal.targetCurrency ↔ input.target.Exact := by
    rw [htarget, hcurrency]
    exact money_isStored_iff hu.target
  unfold StoresGoal
  rw [hu.others_iff hd, hu.goalRecords_self]
  constructor
  · intro hstores
    obtain ⟨⟨record, hrecord, hequals⟩, hothers⟩ := hstores
    obtain rfl := List.singleton_inj.1 hrecord
    obtain ⟨hamounts, hrepeated, hallocations⟩ := (hu.allocations_iff hd).1 hequals.allocations
    exact ⟨hcategoryIs.1 hequals.category, htargetIs.1 hequals.target, hamounts, hrepeated,
      (hu.accounts_iff hd).1 hequals.accounts, hallocations, hothers⟩
  · intro hmeets
    refine ⟨⟨_, rfl, ?_⟩, hmeets.others⟩
    constructor
    case name => exact hname
    case target => exact htargetIs.2 hmeets.target
    case targetDate => exact hdate
    case category => exact hcategoryIs.2 hmeets.category
    case accounts => exact (hu.accounts_iff hd).2 hmeets.accounts
    case allocations => exact (hu.allocations_iff hd).2 ⟨hmeets.amounts, hmeets.repeated, hmeets.allocations⟩

end GoalUpserted

end PlanningRecords

end PlusOne
