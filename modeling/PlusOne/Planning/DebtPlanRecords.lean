import PlusOne.Planning.ObligationRecords

/-! # The records of debt plans

Every upsert of a debt plan inserts a loan of its own and has the plan name it. -/

namespace PlusOne

open Numeric Relational

namespace DebtPlanRepository

def planWrite (rows : List DebtPlanRow) (input : UpsertDebtPlanProposal) (loanAgreementId : Nat)
    (monthlyPaymentAmount : DecimalAmount) : IdentityWrite DebtPlanRow.debtPlanId DebtPlanRow.activeKey rows where
  under := (input.householdId, input.debtPlanKey)
  update row :=
    { row with
      liabilityAccountId := input.liabilityAccountId, loanAgreementId, name := input.name
      monthlyPaymentAmount, monthlyPaymentCurrency := input.strategy.monthlyPayment.currency
      priority := input.strategy.priority }
  new :=
    { debtPlanId := nextIdentity (rows.map DebtPlanRow.debtPlanId), householdId := input.householdId
      debtPlanKey := input.debtPlanKey, liabilityAccountId := input.liabilityAccountId, loanAgreementId
      name := input.name, monthlyPaymentAmount
      monthlyPaymentCurrency := input.strategy.monthlyPayment.currency, priority := input.strategy.priority
      archived := false }
  updated _ h := h
  inserted := rfl
  keepsIdentity _ := rfl
  newIdentity := rfl

theorem plan_activeKey_iff {row : DebtPlanRow} {householdId : HouseholdId} {debtPlanKey : String} :
    row.activeKey = some (householdId, debtPlanKey) ↔
      (row.householdId == householdId && row.debtPlanKey == debtPlanKey && !row.archived) = true := by
  unfold DebtPlanRow.activeKey
  cases row.archived <;> simp

variable {d d' : PlanningRecords} {input : UpsertDebtPlanProposal} {loanAgreementId debtPlanId : Nat}

/-- The loan a statement inserts for a proposal. -/
structure InsertedLoan (d : PlanningRecords) (input : UpsertDebtPlanProposal) (loan : LoanAgreementRow) : Prop where
  loanAgreementId : loan.loanAgreementId = nextIdentity (d.loanAgreements.map LoanAgreementRow.loanAgreementId)
  householdId : loan.householdId = input.householdId
  liabilityAccountId : loan.liabilityAccountId = input.liabilityAccountId
  lenderName : loan.lenderName = input.loanAgreement.lenderName
  principal : Fixed.store input.loanAgreement.principal.amount = some loan.principalAmount
  currency : loan.principalCurrency = input.loanAgreement.principal.currency
  annualInterestRate : Fixed.store input.loanAgreement.annualInterestRate = some loan.annualInterestRate
  effectiveFrom : loan.effectiveFrom = input.loanAgreement.effectiveFrom
  paymentSchedule : loan.paymentSchedule = input.loanAgreement.paymentSchedule

theorem insertLoanAgreement_write (h : insertLoanAgreement d input = .ok (loanAgreementId, d')) :
    ∃ loan, InsertedLoan d input loan ∧ loan.loanAgreementId = loanAgreementId ∧
      d' = { d with loanAgreements := d.loanAgreements ++ [loan] } := by
  obtain ⟨principalAmount, hprincipal, h⟩ := bind_eq_ok.1 h
  obtain ⟨annualInterestRate, hrate, h⟩ := bind_eq_ok.1 h
  rw [require_bind_eq_ok, require_bind_eq_ok, require_bind_eq_ok, require_bind_eq_ok, require_bind_eq_ok] at h
  obtain ⟨_, _, _, _, _, h⟩ := h
  cases h
  exact ⟨_, ⟨rfl, rfl, rfl, rfl, stored_eq_ok.1 hprincipal, rfl, stored_eq_ok.1 hrate, rfl, rfl⟩, rfl, rfl⟩

theorem upsertDebtPlan_write (ht : ActiveTable DebtPlanRow.debtPlanId DebtPlanRow.activeKey d.debtPlans)
    (h : upsertDebtPlan d input loanAgreementId = .ok (debtPlanId, d')) :
    ∃ monthlyPaymentAmount plan, Fixed.store input.strategy.monthlyPayment.amount = some monthlyPaymentAmount ∧
      ActiveTable.Written (planWrite d.debtPlans input loanAgreementId monthlyPaymentAmount) plan ∧
      d' = { d with
        debtPlans := (planWrite d.debtPlans input loanAgreementId monthlyPaymentAmount).apply d.debtPlans } := by
  obtain ⟨monthlyPaymentAmount, hstored, h⟩ := bind_eq_ok.1 h
  rw [require_bind_eq_ok, require_bind_eq_ok, require_bind_eq_ok, require_bind_eq_ok] at h
  obtain ⟨_, _, _, _, h⟩ := h
  obtain ⟨plan, hplan⟩ := ht.apply_written (planWrite d.debtPlans input loanAgreementId monthlyPaymentAmount)
  refine ⟨monthlyPaymentAmount, plan, stored_eq_ok.1 hstored, hplan, ?_⟩
  split at h
  case h_1 old hfind =>
    obtain ⟨_, happly⟩ := hplan.of_found ht (fun _ => plan_activeKey_iff) hfind
    cases h
    rw [happly]
    rfl
  case h_2 hfind =>
    obtain ⟨_, happly⟩ := hplan.of_missing (fun _ => plan_activeKey_iff) hfind
    cases h
    rw [happly]
    rfl

end DebtPlanRepository

namespace PlanningRecords

open DebtPlanRepository

variable {F : PlanningFormats} {d d' : PlanningRecords} {context : CheckedCommand}
  {input : UpsertDebtPlanProposal} {state : PlanningReadback}

/-- What an upsert of a debt plan has done to the tables. -/
structure DebtPlanUpserted (d d' : PlanningRecords) (input : UpsertDebtPlanProposal)
    (monthlyPaymentAmount : DecimalAmount) (plan : DebtPlanRow) (loan : LoanAgreementRow) : Prop where
  rate : isInterestRate input.loanAgreement.annualInterestRate = true
  payment : Fixed.store input.strategy.monthlyPayment.amount = some monthlyPaymentAmount
  inserted : InsertedLoan d input loan
  written : ActiveTable.Written (planWrite d.debtPlans input loan.loanAgreementId monthlyPaymentAmount) plan
  loanAgreements : d'.loanAgreements = d.loanAgreements ++ [loan]
  debtPlans : d'.debtPlans =
    (planWrite d.debtPlans input loan.loanAgreementId monthlyPaymentAmount).apply d.debtPlans
  rest : d' = { d with
    loanAgreements := d'.loanAgreements, debtPlans := d'.debtPlans, auditRecords := d'.auditRecords }

theorem upsertDebtPlan_writes (hd : d.Consistent) (h : d.upsertDebtPlan F context input = .ok (state, d')) :
    ∃ monthlyPaymentAmount plan loan, DebtPlanUpserted d d' input monthlyPaymentAmount plan loan := by
  rw [upsertDebtPlan, require_bind_eq_ok, require_bind_eq_ok] at h
  obtain ⟨hvalid, _, h⟩ := h
  obtain ⟨⟨loanAgreementId, d₁⟩, h₁, h⟩ := bind_eq_ok.1 h
  obtain ⟨⟨debtPlanId, d₂⟩, h₂, h⟩ := bind_eq_ok.1 h
  have hrate : isInterestRate input.loanAgreement.annualInterestRate = true := by
    simp only [UpsertDebtPlanProposal.valid, Bool.and_eq_true] at hvalid
    exact hvalid.1.1.2
  obtain ⟨loan, hloan, rfl, rfl⟩ := insertLoanAgreement_write h₁
  obtain ⟨monthlyPaymentAmount, plan, hpayment, hwritten, rfl⟩ :=
    upsertDebtPlan_write (d := { d with loanAgreements := d.loanAgreements ++ [loan] }) hd.debtPlans h₂
  have hrest := recorded_rest h
  generalize d'.auditRecords = auditRecords at hrest
  subst hrest
  exact ⟨monthlyPaymentAmount, plan, loan, hrate, hpayment, hloan, hwritten, rfl, rfl, rfl⟩

namespace DebtPlanUpserted

variable {monthlyPaymentAmount : DecimalAmount} {plan : DebtPlanRow} {loan : LoanAgreementRow}

theorem fresh (hu : DebtPlanUpserted d d' input monthlyPaymentAmount plan loan) :
    loan.loanAgreementId ∉ d.loanAgreements.map LoanAgreementRow.loanAgreementId := by
  intro hmem
  rw [hu.inserted.loanAgreementId] at hmem
  exact Nat.lt_irrefl _ (lt_nextIdentity hmem)

theorem consistent (hd : d.Consistent) (hu : DebtPlanUpserted d d' input monthlyPaymentAmount plan loan) :
    d'.Consistent := by
  have hloans : Distinct LoanAgreementRow.loanAgreementId d'.loanAgreements := by
    rw [hu.loanAgreements, Distinct, List.map_append, List.map_singleton, List.nodup_append]
    refine ⟨hd.loanAgreements, List.nodup_singleton _, ?_⟩
    intro n hn n' hn' heq
    rw [List.mem_singleton] at hn'
    exact hu.fresh (hn' ▸ heq ▸ hn)
  have hkept : ∀ row ∈ d.debtPlans,
      row.loanAgreementId ∈ d'.loanAgreements.map LoanAgreementRow.loanAgreementId := by
    intro row hrow
    rw [hu.loanAgreements, List.map_append]
    exact List.mem_append_left _ (hd.planLoans row hrow)
  have hnew : loan.loanAgreementId ∈ d'.loanAgreements.map LoanAgreementRow.loanAgreementId := by
    rw [hu.loanAgreements]
    simp
  have hplanLoans : ∀ row ∈ d'.debtPlans,
      row.loanAgreementId ∈ d'.loanAgreements.map LoanAgreementRow.loanAgreementId := by
    rw [hu.debtPlans]
    exact KeyedWrite.forall_apply hkept (fun _ _ => hnew) hnew
  have hcategories : ∀ row ∈ d'.debtPlans, row.budgetCategoryId = none := by
    rw [hu.debtPlans]
    exact KeyedWrite.forall_apply hd.planCategories (fun _ h => h) rfl
  have hrest := hu.rest
  constructor
  case loanAgreements => exact hloans
  case debtPlans => exact hu.debtPlans ▸ hd.debtPlans.apply _
  case planCategories => exact hcategories
  case planLoans => exact hplanLoans
  all_goals rw [hrest]
  case goals => exact hd.goals
  case goalCategories => exact hd.goalCategories
  case accounts => exact hd.accounts
  case accountGoals => exact hd.accountGoals
  case allocations => exact hd.allocations
  case allocationGoals => exact hd.allocationGoals
  case obligations => exact hd.obligations
  case occurrences => exact hd.occurrences
  case occurrenceObligations => exact hd.occurrenceObligations

theorem debtPlanRecords_self (hu : DebtPlanUpserted d d' input monthlyPaymentAmount plan loan) :
    d'.debtPlanRecords input.householdId input.debtPlanKey = [d'.debtPlanRecord plan] := by
  have halone := hu.written.alone
  rw [← hu.debtPlans] at halone
  exact congrArg (List.map d'.debtPlanRecord) halone

theorem loanAgreements_self (hu : DebtPlanUpserted d d' input monthlyPaymentAmount plan loan)
    (hplan : plan.loanAgreementId = loan.loanAgreementId) : (d'.debtPlanRecord plan).loanAgreements = [loan] := by
  have hnone : d.loanAgreements.filter (fun row => decide (row.loanAgreementId = loan.loanAgreementId)) = [] := by
    rw [List.filter_eq_nil_iff]
    intro row hrow hsame
    rw [decide_eq_true_eq] at hsame
    exact hu.fresh (hsame ▸ List.mem_map_of_mem hrow)
  rw [debtPlanRecord, hplan, hu.loanAgreements, List.filter_append, hnone]
  simp

theorem debtPlanRecords_other (hd : d.Consistent) (hu : DebtPlanUpserted d d' input monthlyPaymentAmount plan loan)
    {household : HouseholdId} {debtPlanKey : String}
    (hne : (household, debtPlanKey) ≠ (input.householdId, input.debtPlanKey)) :
    d'.debtPlanRecords household debtPlanKey = d.debtPlanRecords household debtPlanKey := by
  have hsame : d'.debtPlans.filter (fun row => decide (row.activeKey = some (household, debtPlanKey))) =
      d.debtPlans.filter fun row => decide (row.activeKey = some (household, debtPlanKey)) := by
    rw [hu.debtPlans]
    exact ActiveTable.filter_other _ hne
  rw [debtPlanRecords, debtPlanRecords, hsame, List.map_inj_left]
  intro other hother
  have hloan : loan.loanAgreementId ≠ other.loanAgreementId := by
    intro heq
    exact hu.fresh (heq ▸ hd.planLoans other (List.mem_filter.1 hother).1)
  rw [debtPlanRecord, debtPlanRecord, hu.loanAgreements, List.filter_append,
    List.filter_cons_of_neg (by simpa using hloan), List.filter_nil, List.append_nil]

theorem others_kept (hd : d.Consistent) (hu : DebtPlanUpserted d d' input monthlyPaymentAmount plan loan) :
    OthersKept d d' .debt_plan input.householdId input.debtPlanKey := by
  have hplans : ∀ household debtPlanKey, (PlanningRecordType.debt_plan, household, debtPlanKey) ≠
      (PlanningRecordType.debt_plan, input.householdId, input.debtPlanKey) →
      d'.debtPlanRecords household debtPlanKey = d.debtPlanRecords household debtPlanKey := by
    intro household debtPlanKey hne
    rw [Ne, Prod.mk.injEq, not_and] at hne
    exact hu.debtPlanRecords_other hd (hne rfl)
  have hrest := hu.rest
  constructor
  case debtPlans => exact hplans
  all_goals rw [hrest]
  case budgets => exact ⟨rfl, rfl, rfl⟩
  case goals =>
    intro household goalKey _
    rfl
  case obligations =>
    intro household obligationKey _
    rfl

/-- An upsert stores the debt plan as proposed exactly when the proposal is storable. -/
theorem storesDebtPlan_iff (hd : d.Consistent) (hu : DebtPlanUpserted d d' input monthlyPaymentAmount plan loan) :
    StoresDebtPlan d d' input ↔ input.Storable := by
  have hfields : plan.liabilityAccountId = input.liabilityAccountId ∧
      plan.loanAgreementId = loan.loanAgreementId ∧ plan.name = input.name ∧
      plan.monthlyPaymentAmount = monthlyPaymentAmount ∧
      plan.monthlyPaymentCurrency = input.strategy.monthlyPayment.currency ∧
      plan.priority = input.strategy.priority := by
    rcases hu.written.wrote with hnew | ⟨old, _, hold⟩
    · rw [hnew]
      exact ⟨rfl, rfl, rfl, rfl, rfl, rfl⟩
    · rw [hold]
      exact ⟨rfl, rfl, rfl, rfl, rfl, rfl⟩
  obtain ⟨hliability, hloan, hname, hpayment, hcurrency, hpriority⟩ := hfields
  have hcategory : plan.budgetCategoryId = none := by
    refine (hu.consistent hd).planCategories plan ?_
    rw [hu.debtPlans]
    exact hu.written.mem
  have hcategoryIs : d'.CategoryIs input.householdId input.budgetCategoryKey plan.budgetCategoryId ↔
      input.budgetCategoryKey = none := by
    rw [hcategory]
    cases input.budgetCategoryKey <;> simp [CategoryIs]
  have hpaymentIs : input.strategy.monthlyPayment.IsStored plan.monthlyPaymentAmount
      plan.monthlyPaymentCurrency ↔ input.strategy.monthlyPayment.Exact := by
    rw [hpayment, hcurrency]
    exact SavingsGoalRepository.money_isStored_iff hu.payment
  have hprincipalIs : input.loanAgreement.principal.IsStored loan.principalAmount loan.principalCurrency ↔
      input.loanAgreement.principal.Exact := by
    rw [hu.inserted.currency]
    exact SavingsGoalRepository.money_isStored_iff hu.inserted.principal
  -- the schema takes no more digits of the rate than the column has
  have hrate : loan.annualInterestRate.value = input.loanAgreement.annualInterestRate.value := by
    have hdigits := hu.rate
    simp only [isInterestRate, Bool.and_eq_true, decide_eq_true_eq] at hdigits
    refine (Fixed.value_eq_iff hu.inserted.annualInterestRate).2 ?_
    rw [Decimal.ExactAt, Nat.sub_eq_zero_of_le hdigits.2, pow_zero]
    exact Nat.one_dvd _
  unfold StoresDebtPlan
  rw [hu.debtPlanRecords_self]
  constructor
  · intro hstores
    obtain ⟨⟨record, hrecord, hequals⟩, _⟩ := hstores
    obtain rfl := List.singleton_inj.1 hrecord
    obtain ⟨stored, hstored, hequalsLoan⟩ := hequals.loanAgreement
    rw [hu.loanAgreements_self hloan] at hstored
    obtain rfl := List.singleton_inj.1 hstored
    exact ⟨hcategoryIs.1 hequals.category, hprincipalIs.1 hequalsLoan.principal,
      hpaymentIs.1 hequals.monthlyPayment⟩
  · intro hmeets
    have hequalsLoan : loan.Equals input :=
      ⟨hu.inserted.householdId, hu.inserted.liabilityAccountId, hu.inserted.lenderName,
        hprincipalIs.2 hmeets.principal, hrate, hu.inserted.effectiveFrom, hu.inserted.paymentSchedule⟩
    refine ⟨⟨_, rfl, ?_⟩, hu.others_kept hd⟩
    constructor
    case liabilityAccountId => exact hliability
    case name => exact hname
    case category => exact hcategoryIs.2 hmeets.category
    case monthlyPayment => exact hpaymentIs.2 hmeets.monthlyPayment
    case priority => exact hpriority
    case loanAgreement => exact ⟨loan, hu.loanAgreements_self hloan, hequalsLoan⟩

end DebtPlanUpserted

end PlanningRecords

end PlusOne
