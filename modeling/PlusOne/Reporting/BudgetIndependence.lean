import PlusOne.Reporting.BudgetFrames

/-! # Activating a budget beside others

Which activations succeed, and what they show of other budgets, in every state that planning commands
and any ledger lead to. -/

namespace PlusOne

open Numeric Relational

namespace PlanningRecords

/-- A planning command, as its handler executes it. -/
def execute (F : PlanningFormats) (d : PlanningRecords) (command : PlanningCommand) :
    Except Thrown (PlanningReadback × PlanningRecords) :=
  match command.proposal with
  | .activate_budget input => d.activateBudget F command.context input
  | .update_obligation input => d.updateObligation F command.context input
  | .upsert_savings_goal input => d.upsertSavingsGoal F command.context input
  | .upsert_debt_plan input => d.upsertDebtPlan F command.context input
  | .archive_planning_record input => d.archivePlanningRecord F command.context input

end PlanningRecords

/-- What planning commands make of empty tables, beside any ledger. -/
inductive PlanningRun (F : PlanningFormats) : PlanningRecords → Prop
  | start {d : PlanningRecords} (nothing : d.NothingPlanned) (scopes : d.scopes = [])
      (categories : d.categories = []) (versions : d.versions = []) (allocations : d.allocations = [])
      (mappings : d.mappings = []) : PlanningRun F d
  | command {d : PlanningRecords} (run : PlanningRun F d) (command : PlanningCommand) :
      PlanningRun F (d.committed (d.execute F command))
  | ledger {d : PlanningRecords} (L : LedgerDb) (run : PlanningRun F d) : PlanningRun F { d with toLedgerDb := L }

namespace PlanningRecords

variable {F : PlanningFormats} {d d' : PlanningRecords} {context : CheckedCommand} {state : PlanningReadback}

theorem archived_cores {R : Type} {identity : R → Nat} {archive : R → R} {rows : List R} {recordId : Nat}
    {core : R → HouseholdId × Nat × String × Bool}
    (harchive : ∀ row, core (archive row) = ((core row).1, (core row).2.1, (core row).2.2.1, true))
    {householdId : HouseholdId} {id : Nat} (h : ∃ key archived, (householdId, id, key, archived) ∈ rows.map core) :
    ∃ key archived, (householdId, id, key, archived) ∈
      (rows.map fun row => if identity row = recordId then archive row else row).map core := by
  obtain ⟨key, archived, hmem⟩ := h
  obtain ⟨row, hrow, hcore⟩ := List.mem_map.1 hmem
  by_cases hid : identity row = recordId
  · refine ⟨key, true, List.mem_map.2 ⟨archive row, List.mem_map.2 ⟨row, hrow, if_pos hid⟩, ?_⟩⟩
    rw [harchive, hcore]
  · exact ⟨key, archived, List.mem_map.2 ⟨row, List.mem_map.2 ⟨row, hrow, if_neg hid⟩, hcore⟩⟩

theorem archiveRow_tables (hd : d.BudgetTables) (recordType : PlanningRecordType) (recordId archivedAt : Nat) :
    (d.archiveRow recordType recordId archivedAt).BudgetTables := by
  cases recordType with
  | budget_scope =>
    exact { hd with scope := fun version hversion => archived_cores (fun _ => rfl) (hd.scope version hversion) }
  | budget_category =>
    have hids := archived_identities d.categories recordId
      fun row : BudgetCategoryRow => (rfl : { row with archived := true }.categoryId = row.categoryId)
    exact { hd with
      categories := archived_table hd.categories (fun _ => rfl) fun _ => rfl
      category := fun allocation hmem => archived_cores (fun _ => rfl) (hd.category allocation hmem)
      mappingCategories := fun row hrow => hids ▸ hd.mappingCategories row hrow }
  | budget_version => exact { hd with }
  | obligation => exact { hd with }
  | savings_goal => exact { hd with }
  | debt_plan => exact { hd with }

theorem archivePlanningRecord_tables {input : ArchivePlanningRecordProposal} (hd : d.BudgetTables)
    (h : d.archivePlanningRecord F context input = .ok (state, d')) : d'.BudgetTables := by
  rw [archivePlanningRecord, require_bind_eq_ok, require_bind_eq_ok] at h
  obtain ⟨_, _, h⟩ := h
  split at h
  case h_2 => cases h
  case h_1 archivedAt _ =>
    split at h
    case h_2 => cases h
    case h_1 row _ =>
      have hrest := recorded_rest h
      rw [hrest]
      exact archiveRow_tables hd input.recordType row.2.2 archivedAt

/-- What every command keeps of all the planning tables. -/
theorem execute_keeps {command : PlanningCommand} (hc : d.Consistent) (hb : d.BudgetTables)
    (h : d.execute F command = .ok (state, d')) : d'.Consistent ∧ d'.BudgetTables := by
  unfold execute at h
  cases hproposal : command.proposal with
  | activate_budget input =>
    rw [hproposal] at h
    obtain ⟨versionId, hactivated, htables, hrest⟩ := activateBudget_core hb h
    have hgoals := hactivated.rest
    refine ⟨?_, htables⟩
    rw [hrest, hgoals]
    exact { hc with }
  | update_obligation input =>
    rw [hproposal] at h
    obtain ⟨expectedAmount, obligation, stored, hu⟩ := updateObligation_writes hc h
    have hrest := hu.rest
    refine ⟨hu.consistent hc, ?_⟩
    rw [hrest]
    exact { hb with }
  | upsert_savings_goal input =>
    rw [hproposal] at h
    obtain ⟨targetAmount, goal, stored, hu⟩ := upsertSavingsGoal_writes hc h
    have hrest := hu.rest
    refine ⟨hu.consistent hc, ?_⟩
    rw [hrest]
    exact { hb with }
  | upsert_debt_plan input =>
    rw [hproposal] at h
    obtain ⟨monthlyPaymentAmount, plan, loan, hu⟩ := upsertDebtPlan_writes hc h
    have hrest := hu.rest
    refine ⟨hu.consistent hc, ?_⟩
    rw [hrest]
    exact { hb with }
  | archive_planning_record input =>
    rw [hproposal] at h
    exact ⟨archivePlanningRecord_consistent hc h, archivePlanningRecord_tables hb h⟩

end PlanningRecords

theorem PlanningRun.keeps {F : PlanningFormats} {d : PlanningRecords} (h : PlanningRun F d) :
    d.Consistent ∧ d.BudgetTables := by
  induction h with
  | start nothing scopes categories versions allocations mappings =>
    refine ⟨nothing.consistent, ?_⟩
    constructor
    case categories => exact categories ▸ ⟨List.nodup_nil, List.nodup_nil⟩
    case version => simp [allocations]
    case category => simp [allocations]
    case scope => simp [versions]
    case mappingCategories => simp [mappings]
    case mappings => exact mappings ▸ ⟨by simp, List.Pairwise.nil⟩
  | @command d _ command ih =>
    cases hrun : d.execute F command with
    | error failure => exact ih
    | ok result => exact PlanningRecords.execute_keeps ih.1 ih.2 hrun
  | ledger L _ ih => exact ⟨{ ih.1 with }, { ih.2 with }⟩

namespace PlanningRecords

variable {F : PlanningFormats} {d d' : PlanningRecords} {context : CheckedCommand}
  {input : ActivateBudgetProposal} {state : PlanningReadback}

end PlanningRecords

namespace TestBudget

open TestReporting

/-- The ledger with its ten euros, and nothing planned. -/
def budgetless : PlanningRecords := { TestPlanning.records with toPlanningDb := planning }

def context : CheckedCommand := TestPlanning.command "activate_budget"

/-- January is budgeted with its account mapped for the whole month. -/
def januaryCommand : PlanningCommand :=
  ⟨context, .activate_budget (proposal [mapping (january 1 (Eq.refl true)) (january 31 (Eq.refl true))])⟩

def withJanuary : PlanningRecords := budgetless.committed (budgetless.execute TestPlanning.formats januaryCommand)

theorem withJanuary_run : PlanningRun TestPlanning.formats withJanuary :=
  .command (.start ⟨rfl, rfl, rfl, rfl, rfl, rfl, rfl⟩ rfl rfl rfl rfl rfl) januaryCommand

/-- A second budget for the same account. -/
def secondBudget (mappings : List BudgetMappingProposal) : ActivateBudgetProposal :=
  { proposal mappings with scopeKey := "travel", name := "Travel" }

theorem secondBudget_refers (first last : LocalDate) :
    (secondBudget [mapping first last]).Refers withJanuary.toPlanningDb := by
  have haccount : (withJanuary.accounts.any fun account => account.householdId == householdId &&
      account.accountId == cash.accountId) = true := by decide +kernel
  have hcurrencies : ∀ allocation ∈ (proposal []).allocations,
      (withJanuary.currencies.any fun row => row.currencyCode == allocation.amount.currency) = true := by
    decide +kernel
  have hhousehold : (withJanuary.findHousehold householdId).isSome = true := by decide +kernel
  refine ⟨hhousehold, ?_, hcurrencies⟩
  intro row hrow
  obtain rfl := List.mem_singleton.1 hrow
  exact haccount

end TestBudget

end PlusOne
