import PlusOne.Planning.DebtPlanRecords
import PlusOne.Transitions.Runs

/-! # Runs of planning commands

From a database without goals, obligations and debt plans, by any upserts and archivings: which
upserts store their proposals as they are. -/

namespace PlusOne

open Numeric Relational

structure PlanningCommand where
  context : CheckedCommand
  proposal : PlanningProposal

namespace PlanningRecords

/-- A command that fails is rolled back. -/
def committed (d : PlanningRecords) : Except Thrown (PlanningReadback × PlanningRecords) → PlanningRecords
  | .ok (_, d') => d'
  | .error _ => d

/-- No goal, obligation or debt plan has been written. -/
structure NothingPlanned (d : PlanningRecords) : Prop where
  goals : d.savingsGoals = []
  accounts : d.savingsGoalAccounts = []
  allocations : d.virtualAllocations = []
  obligations : d.obligations = []
  occurrences : d.occurrences = []
  loanAgreements : d.loanAgreements = []
  debtPlans : d.debtPlans = []

end PlanningRecords

/-- The commands about goals, obligations and debt plans, with the archivings. -/
def planningStep (F : PlanningFormats) (d : PlanningRecords) (command : PlanningCommand) :
    Option PlanningRecords :=
  match command.proposal with
  | .activate_budget _ => none
  | .update_obligation input => some (d.committed (d.updateObligation F command.context input))
  | .upsert_savings_goal input => some (d.committed (d.upsertSavingsGoal F command.context input))
  | .upsert_debt_plan input => some (d.committed (d.upsertDebtPlan F command.context input))
  | .archive_planning_record input => some (d.committed (d.archivePlanningRecord F command.context input))

namespace PlanningRecords

variable {F : PlanningFormats} {start d d' : PlanningRecords} {context : CheckedCommand}
  {state : PlanningReadback}

theorem NothingPlanned.consistent (h : d.NothingPlanned) : d.Consistent := by
  obtain ⟨hgoals, haccounts, hallocations, hobligations, hoccurrences, hloans, hplans⟩ := h
  constructor
  case goals => exact hgoals ▸ ⟨List.nodup_nil, List.nodup_nil⟩
  case goalCategories => simp [hgoals]
  case accounts => exact haccounts ▸ List.nodup_nil
  case accountGoals => simp [haccounts]
  case allocations => exact hallocations ▸ List.nodup_nil
  case allocationGoals => simp [hallocations]
  case obligations => exact hobligations ▸ ⟨List.nodup_nil, List.nodup_nil⟩
  case occurrences => exact hoccurrences ▸ List.nodup_nil
  case occurrenceObligations => simp [hoccurrences]
  case loanAgreements => exact hloans ▸ List.nodup_nil
  case debtPlans => exact hplans ▸ ⟨List.nodup_nil, List.nodup_nil⟩
  case planCategories => simp [hplans]
  case planLoans => simp [hplans]

theorem archived_table {R K : Type} {identity : R → Nat} {key : R → Option K} {archive : R → R} {rows : List R}
    {recordId : Nat} (ht : ActiveTable identity key rows) (hid : ∀ row, identity (archive row) = identity row)
    (hkey : ∀ row, key (archive row) = none) :
    ActiveTable identity key (rows.map fun row => if identity row = recordId then archive row else row) := by
  refine ht.map_of_le (fun row => ?_) fun row => ?_
  · split
    · exact hid row
    · rfl
  · split
    · exact .inl (hkey row)
    · exact .inr rfl

theorem archived_identities {R : Type} {identity : R → Nat} {archive : R → R} (rows : List R) (recordId : Nat)
    (hid : ∀ row, identity (archive row) = identity row) :
    (rows.map fun row => if identity row = recordId then archive row else row).map identity =
      rows.map identity := by
  rw [List.map_map]
  refine List.map_congr_left fun row _ => ?_
  simp only [Function.comp]
  split
  · exact hid row
  · rfl

theorem archived_forall {R : Type} {identity : R → Nat} {archive : R → R} {rows : List R} {recordId : Nat}
    {P : R → Prop} (hrows : ∀ row ∈ rows, P row) (harchive : ∀ row, P row → P (archive row)) :
    ∀ row ∈ rows.map fun row => if identity row = recordId then archive row else row, P row := by
  rw [List.forall_mem_map]
  intro row hrow
  split
  · exact harchive row (hrows row hrow)
  · exact hrows row hrow

theorem archiveRow_consistent (hd : d.Consistent) (recordType : PlanningRecordType) (recordId archivedAt : Nat) :
    (d.archiveRow recordType recordId archivedAt).Consistent := by
  cases recordType with
  | budget_scope => exact { hd with }
  | budget_category => exact { hd with }
  | budget_version => exact { hd with }
  | obligation =>
    have hids := archived_identities d.obligations recordId
      fun row : RecurringObligationRow => (rfl : { row with archived := true }.obligationId = row.obligationId)
    exact { hd with
      obligations := archived_table hd.obligations (fun _ => rfl) fun _ => rfl
      occurrenceObligations := fun row hrow => hids ▸ hd.occurrenceObligations row hrow }
  | savings_goal =>
    have hids := archived_identities d.savingsGoals recordId
      fun row : SavingsGoalRow => (rfl : { row with archived := true }.goalId = row.goalId)
    exact { hd with
      goals := archived_table hd.goals (fun _ => rfl) fun _ => rfl
      goalCategories := archived_forall hd.goalCategories fun _ h => h
      accountGoals := fun row hrow => hids ▸ hd.accountGoals row hrow
      allocationGoals := fun row hrow => hids ▸ hd.allocationGoals row hrow }
  | debt_plan =>
    exact { hd with
      debtPlans := archived_table hd.debtPlans (fun _ => rfl) fun _ => rfl
      planCategories := archived_forall hd.planCategories fun _ h => h
      planLoans := archived_forall hd.planLoans fun _ h => h }

theorem archivePlanningRecord_consistent {input : ArchivePlanningRecordProposal} (hd : d.Consistent)
    (h : d.archivePlanningRecord F context input = .ok (state, d')) : d'.Consistent := by
  rw [archivePlanningRecord, require_bind_eq_ok, require_bind_eq_ok] at h
  obtain ⟨_, _, h⟩ := h
  split at h
  case h_2 => cases h
  case h_1 archivedAt _ =>
    split at h
    case h_2 => cases h
    case h_1 row _ =>
      have hrest := recorded_rest h
      rw [hrest]
      exact { archiveRow_consistent hd input.recordType row.2.2 archivedAt with }

/-- Every command keeps the tables consistent. -/
theorem planningStep_consistent {command : PlanningCommand} (hd : d.Consistent)
    (h : planningStep F d command = some d') : d'.Consistent := by
  unfold planningStep at h
  cases hproposal : command.proposal with
  | activate_budget input =>
    rw [hproposal] at h
    cases h
  | update_obligation input =>
    rw [hproposal] at h
    cases h
    cases hrun : d.updateObligation F command.context input with
    | error failure => exact hd
    | ok result =>
      obtain ⟨expectedAmount, obligation, stored, hu⟩ := updateObligation_writes hd hrun
      exact hu.consistent hd
  | upsert_savings_goal input =>
    rw [hproposal] at h
    cases h
    cases hrun : d.upsertSavingsGoal F command.context input with
    | error failure => exact hd
    | ok result =>
      obtain ⟨targetAmount, goal, stored, hu⟩ := upsertSavingsGoal_writes hd hrun
      exact hu.consistent hd
  | upsert_debt_plan input =>
    rw [hproposal] at h
    cases h
    cases hrun : d.upsertDebtPlan F command.context input with
    | error failure => exact hd
    | ok result =>
      obtain ⟨monthlyPaymentAmount, plan, loan, hu⟩ := upsertDebtPlan_writes hd hrun
      exact hu.consistent hd
  | archive_planning_record input =>
    rw [hproposal] at h
    cases h
    cases hrun : d.archivePlanningRecord F command.context input with
    | error failure => exact hd
    | ok result => exact archivePlanningRecord_consistent hd hrun

theorem reachable_consistent (hstart : start.NothingPlanned)
    (h : Transitions.Reachable (planningStep F) start d) : d.Consistent :=
  h.invariant (fun _ _ _ hd hstep => planningStep_consistent hd hstep) hstart.consistent

/-- After any sequence of planning commands, an upsert that commits leaves exactly its proposal under
its key, and every other active record as it was, if and only if the proposal is storable there. -/
theorem planning_upserts_store_iff (hstart : start.NothingPlanned)
    (h : Transitions.Reachable (planningStep F) start d) :
    (∀ input, d.upsertSavingsGoal F context input = .ok (state, d') →
      (StoresGoal d d' input ↔ input.Storable d)) ∧
    (∀ input, d.updateObligation F context input = .ok (state, d') →
      (StoresObligation d d' input ↔ input.Storable d)) ∧
    ∀ input, d.upsertDebtPlan F context input = .ok (state, d') →
      (StoresDebtPlan d d' input ↔ input.Storable) := by
  have hd := reachable_consistent hstart h
  refine ⟨?_, ?_, ?_⟩
  · intro input hrun
    obtain ⟨targetAmount, goal, stored, hu⟩ := upsertSavingsGoal_writes hd hrun
    exact hu.storesGoal_iff hd
  · intro input hrun
    obtain ⟨expectedAmount, obligation, stored, hu⟩ := updateObligation_writes hd hrun
    exact hu.storesObligation_iff hd
  · intro input hrun
    obtain ⟨monthlyPaymentAmount, plan, loan, hu⟩ := upsertDebtPlan_writes hd hrun
    exact hu.storesDebtPlan_iff hd

end PlanningRecords

namespace TestPlanning

open PlanningRecords

def checking : AccountId := ⟨"01JNZQ4A9B8C7D6E5F4G3H2J1C", by decide⟩

def savings : AccountId := ⟨"01JNZQ4A9B8C7D6E5F4G3H2J1S", by decide⟩

def account (accountId : AccountId) : AccountRow where
  householdId := householdId
  bookId := ⟨suffix, by decide⟩
  accountId := accountId
  accountingClass := .asset
  normalBalance := .debit
  nativeCurrency := usd
  archived := false

def withAccounts : PlanningRecords := { records with accounts := [account checking, account savings] }

/-- A reserve on the accounts. -/
def reserve (assetAccountIds : List AccountId) : UpsertSavingsGoalProposal where
  householdId := householdId
  goalKey := "reserve"
  name := "Reserve"
  target := ⟨⟨false, 20000, 0⟩, usd⟩
  targetDate := none
  assetAccountIds := assetAccountIds
  virtualAllocations := [⟨savings, "reserve-cash", ⟨⟨false, 5000, 0⟩, usd⟩⟩]

def goalCommand (assetAccountIds : List AccountId) : PlanningCommand :=
  ⟨command "upsert_savings_goal", .upsert_savings_goal (reserve assetAccountIds)⟩

/-- The reserve on both accounts. -/
def withReserve : PlanningRecords :=
  withAccounts.committed
    (withAccounts.upsertSavingsGoal formats (command "upsert_savings_goal") (reserve [checking, savings]))

/-- The reserve after it was proposed on its savings account alone. -/
def withReserveNarrowed : PlanningRecords :=
  withReserve.committed
    (withReserve.upsertSavingsGoal formats (command "upsert_savings_goal") (reserve [savings]))

theorem withAccounts_nothing : withAccounts.NothingPlanned := ⟨rfl, rfl, rfl, rfl, rfl, rfl, rfl⟩

theorem withReserve_reachable : Transitions.Reachable (planningStep formats) withAccounts withReserve :=
  ⟨[goalCommand [checking, savings]], rfl⟩

theorem reserve_narrowed : withReserve.upsertSavingsGoal formats (command "upsert_savings_goal") (reserve [savings]) =
    .ok (⟨householdId, "savings_goal", "1", "2", none⟩, withReserveNarrowed) := by
  decide +kernel

theorem reserve_narrowed_stores_iff :
    StoresGoal withReserve withReserveNarrowed (reserve [savings]) ↔ (reserve [savings]).Storable withReserve :=
  (planning_upserts_store_iff withAccounts_nothing withReserve_reachable).1 _ reserve_narrowed

/-- The goal keeps the account its new proposal has left out. -/
theorem reserve_keeps_left_out_account :
    ¬∀ (F : PlanningFormats) (start d d' : PlanningRecords) (context : CheckedCommand) (state : PlanningReadback)
      (input : UpsertSavingsGoalProposal), start.NothingPlanned →
        Transitions.Reachable (planningStep F) start d →
          d.upsertSavingsGoal F context input = .ok (state, d') → StoresGoal d d' input := by
  intro hall
  have hstores := hall _ _ _ _ _ _ _ withAccounts_nothing withReserve_reachable reserve_narrowed
  obtain ⟨⟨record, hrecord, hequals⟩, _⟩ := hstores
  have hkept : ∃ row ∈ ((withReserveNarrowed.goalRecords householdId "reserve").flatMap SavingsGoalRecord.accounts),
      row.accountId = checking := by decide +kernel
  obtain ⟨row, hrow, haccount⟩ := hkept
  have hrecords : withReserveNarrowed.goalRecords householdId "reserve" = [record] := hrecord
  rw [hrecords, List.flatMap_singleton] at hrow
  obtain ⟨accountId, hmem, hsame⟩ := hequals.accounts.2 row hrow
  have hnot : checking ∉ (reserve [savings]).assetAccountIds := by decide
  exact hnot (haccount ▸ hsame ▸ hmem)

end TestPlanning

end PlusOne
