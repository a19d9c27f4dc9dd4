import PlusOne.Planning.Activated
import PlusOne.Reporting.BudgetVariance

/-! # What an activation shows of other budgets

The view `reporting.budget_variance` before and after an activation. Its rows of other versions are
about the same allocations and sum over the mappings of their categories, which versions share. -/

namespace PlusOne

open Numeric Relational

namespace PlanningDb

variable {d d' : PlanningDb} {allocation : BudgetAllocationRow} {versionId : Nat}

/-! ## More mappings -/

/-- With more mappings the joins bring up what each part of the mappings does. -/
theorem budgetPostings_append (allocations : List BudgetAllocationRow) (mappings : List BudgetMappingRow) :
    (({ d with mappings := d.mappings ++ mappings } : PlanningDb).budgetPostings allocations).Perm
      (d.budgetPostings allocations ++ ({ d with mappings } : PlanningDb).budgetPostings allocations) := by
  have haccounts : (({ d with mappings := d.mappings ++ mappings } : PlanningDb).mappedAccounts allocations).Perm
      (d.mappedAccounts allocations ++ ({ d with mappings } : PlanningDb).mappedAccounts allocations) := by
    refine (join_perm_left join_append_right).trans ?_
    rw [join_append_left]
    exact .refl _
  have hjournals : (({ d with mappings := d.mappings ++ mappings } : PlanningDb).mappedJournals allocations).Perm
      (d.mappedJournals allocations ++ ({ d with mappings } : PlanningDb).mappedJournals allocations) := by
    refine (join_perm_left haccounts).trans ?_
    rw [join_append_left]
    exact .refl _
  refine (join_perm_left hjournals).trans ?_
  rw [join_append_left]
  exact .refl _

/-- The sum of the postings the view takes for the allocations. -/
def actualOf (d : PlanningDb) (allocations : List BudgetAllocationRow) : Int :=
  ((d.budgetPostings allocations).map fun row => signedAmount row.account row.posting).sum

theorem actualOf_append (allocations : List BudgetAllocationRow) (mappings : List BudgetMappingRow) :
    ({ d with mappings := d.mappings ++ mappings } : PlanningDb).actualOf allocations =
      d.actualOf allocations + ({ d with mappings } : PlanningDb).actualOf allocations := by
  rw [actualOf, ((budgetPostings_append allocations mappings).map _).sum_eq, List.map_append, List.sum_append]
  rfl

/-! ## The same allocations -/

theorem find_append {R K : Type} [DecidableEq K] {key : R → K} {k : K} {rows more : List R} {row : R}
    (hrow : row ∈ rows) (hkey : key row = k) : find key k (rows ++ more) = find key k rows := by
  have hsome : (find key k rows).isSome = true := by
    rw [Option.isSome_iff_ne_none, Ne, find_eq_none]
    intro hnone
    exact hnone row hrow hkey
  obtain ⟨found, hfound⟩ := Option.isSome_iff_exists.1 hsome
  unfold find at hfound ⊢
  rw [List.find?_append, hfound]
  rfl

theorem find_core {R : Type} {core : R → HouseholdId × Nat × String × Bool} {before after : List R}
    {added : List (HouseholdId × Nat × String × Bool)} (h : after.map core = before.map core ++ added)
    {householdId : HouseholdId} {identity : Nat} {key : String} {archived : Bool}
    (hmem : (householdId, identity, key, archived) ∈ before.map core) :
    (find (fun row => ((core row).1, (core row).2.1)) (householdId, identity) after).map core =
      (find (fun row => ((core row).1, (core row).2.1)) (householdId, identity) before).map core := by
  have hcores : ∀ rows : List R, (find (fun row => ((core row).1, (core row).2.1)) (householdId, identity) rows).map
      core = find (fun row => (row.1, row.2.1)) (householdId, identity) (rows.map core) := by
    intro rows
    rw [find_map fun row => rfl]
  rw [hcores, hcores, h]
  exact find_append hmem rfl

theorem varianceKey_maps : d.varianceKey allocation =
    (d.findVersion allocation.householdId allocation.versionId).bind fun version =>
      ((d.findScope version.householdId version.scopeId).map BudgetScopeRow.scopeKey).bind fun scopeKey =>
        ((d.findCategory allocation.householdId allocation.categoryId).map BudgetCategoryRow.categoryKey).bind
          fun categoryKey => (d.findHousehold allocation.householdId).map fun household =>
            { householdId := household.householdId, scopeKey, categoryKey
              periodStart := allocation.periodStart, periodEnd := allocation.periodEnd
              plannedAmount := allocation.amount, plannedCurrency := allocation.currency
              budgetVersionId := version.versionId, budgetName := version.name } := by
  simp only [varianceKey, Option.bind_eq_bind, Option.pure_def, Option.map_eq_bind, Option.bind_assoc,
    Option.bind_some, Function.comp_def]

/-- What an allocation shows of its version, its scope and its category stays. -/
theorem varianceKey_eq (hd : d.BudgetTables) (ha : BudgetRepository.Activated d d' versionId)
    (hmem : allocation ∈ d.allocations) : d'.varianceKey allocation = d.varianceKey allocation := by
  obtain ⟨version, hversions, _⟩ := ha.versions
  obtain ⟨newScopes, hscopes⟩ := ha.scopes
  obtain ⟨newCategories, hcategories⟩ := ha.categories
  obtain ⟨old, hold, hhousehold, hid⟩ := hd.version allocation hmem
  obtain ⟨categoryKey, categoryArchived, hcategory⟩ := hd.category allocation hmem
  have hversion : d'.findVersion allocation.householdId allocation.versionId =
      d.findVersion allocation.householdId allocation.versionId := by
    rw [findVersion, findVersion, hversions]
    exact find_append hold (by rw [hhousehold, hid])
  have hcategoryKey : (d'.findCategory allocation.householdId allocation.categoryId).map
      BudgetCategoryRow.categoryKey =
      (d.findCategory allocation.householdId allocation.categoryId).map BudgetCategoryRow.categoryKey := by
    have hcore := congrArg (Option.map fun core : HouseholdId × Nat × String × Bool => core.2.2.1)
      (find_core hcategories.core hcategory)
    rw [Option.map_map, Option.map_map] at hcore
    exact hcore
  have hledger : d'.findHousehold allocation.householdId = d.findHousehold allocation.householdId := by
    rw [ha.rest]
  rw [varianceKey_maps, varianceKey_maps, hversion, hledger, hcategoryKey]
  cases hfind : d.findVersion allocation.householdId allocation.versionId with
  | none => rfl
  | some found =>
    obtain ⟨scopeKey, scopeArchived, hscope⟩ := hd.scope found (find_some hfind).1
    have hscopeKey : (d'.findScope found.householdId found.scopeId).map BudgetScopeRow.scopeKey =
        (d.findScope found.householdId found.scopeId).map BudgetScopeRow.scopeKey := by
      have hcore := congrArg (Option.map fun core : HouseholdId × Nat × String × Bool => core.2.2.1)
        (find_core hscopes hscope)
      rw [Option.map_map, Option.map_map] at hcore
      exact hcore
    simp only [Option.bind_some, hscopeKey]

theorem budgetVersionId_eq {key : BudgetVarianceKey} (h : d.varianceKey allocation = some key) :
    key.budgetVersionId = allocation.versionId := by
  rw [varianceKey_maps] at h
  simp only [Option.bind_eq_some_iff, Option.map_eq_some_iff] at h
  obtain ⟨version, hversion, scopeKey, _, categoryKey, _, household, _, rfl⟩ := h
  exact (Prod.mk.inj (find_some hversion).2).2

/-! ## The rows of other versions -/

/-- What the mappings that only `after` has add to a row: the postings of their accounts in the periods
of its allocations. -/
def newlyMapped (before after : PlanningDb) (key : BudgetVarianceKey) : Int :=
  ({ before with mappings := after.mappings.drop before.mappings.length } : PlanningDb).actualOf
    (before.allocationsOf key)

theorem allocationsOf_eq (hd : d.BudgetTables) (ha : BudgetRepository.Activated d d' versionId)
    {key : BudgetVarianceKey} (hkey : key.budgetVersionId ≠ versionId) :
    d'.allocationsOf key = d.allocationsOf key := by
  obtain ⟨added, hallocations, hadded⟩ := ha.allocations
  have hold : d.allocations.filter (fun row => decide (d'.varianceKey row = some key)) = d.allocationsOf key := by
    refine List.filter_congr fun row hrow => ?_
    rw [varianceKey_eq hd ha hrow]
  have hnew : added.filter (fun row => decide (d'.varianceKey row = some key)) = [] := by
    rw [List.filter_eq_nil_iff]
    intro row hrow hshown
    rw [decide_eq_true_eq] at hshown
    exact hkey ((budgetVersionId_eq hshown).trans (hadded row hrow))
  rw [allocationsOf, hallocations, List.filter_append, hold, hnew, List.append_nil]

theorem actualOf_eq (ha : BudgetRepository.Activated d d' versionId) (allocations : List BudgetAllocationRow) :
    d'.actualOf allocations = d.actualOf allocations +
      ({ d with mappings := d'.mappings.drop d.mappings.length } : PlanningDb).actualOf allocations := by
  obtain ⟨added, hmappings⟩ := ha.mappings
  have hsame : d'.actualOf allocations =
      ({ d with mappings := d.mappings ++ added } : PlanningDb).actualOf allocations := by
    rw [ha.rest, hmappings]
    rfl
  rw [hsame, actualOf_append, hmappings, List.drop_left]

/-- After an activation the rows of the other versions are the rows of before, each with what the new
mappings of its category add. -/
theorem budgetVariance_others (hd : d.BudgetTables) (ha : BudgetRepository.Activated d d' versionId) :
    d'.budgetVariance.filter (fun row => decide (row.budgetVersionId ≠ versionId)) =
      d.budgetVariance.map fun row =>
        { row with actualAmount := row.actualAmount + d.newlyMapped d' row.toBudgetVarianceKey } := by
  obtain ⟨added, hallocations, hadded⟩ := ha.allocations
  have hold : d.allocations.filterMap d'.varianceKey = d.allocations.filterMap d.varianceKey :=
    List.filterMap_congr fun row hrow => varianceKey_eq hd ha hrow
  have hothers : ∀ key ∈ d.allocations.filterMap d.varianceKey, key.budgetVersionId ≠ versionId := by
    intro key hkey
    obtain ⟨allocation, hmem, hshown⟩ := List.mem_filterMap.1 hkey
    obtain ⟨version, hversion, _, hid⟩ := hd.version allocation hmem
    rw [budgetVersionId_eq hshown, ← hid]
    exact ha.fresh version hversion
  have hnew : ∀ key ∈ added.filterMap d'.varianceKey, key.budgetVersionId = versionId := by
    intro key hkey
    obtain ⟨allocation, hmem, hshown⟩ := List.mem_filterMap.1 hkey
    exact (budgetVersionId_eq hshown).trans (hadded allocation hmem)
  have hdisjoint : List.Disjoint (d.allocations.filterMap d.varianceKey)
      (added.filterMap d'.varianceKey).dedup := by
    intro key hkey hkey'
    exact hothers key hkey (hnew key (List.mem_dedup.1 hkey'))
  have hkeys : (d'.allocations.filterMap d'.varianceKey).dedup =
      (d.allocations.filterMap d.varianceKey).dedup ++ (added.filterMap d'.varianceKey).dedup := by
    rw [hallocations, List.filterMap_append, hold, List.dedup_append, hdisjoint.union_eq]
  have hkept : (d'.allocations.filterMap d'.varianceKey).dedup.filter
      (fun key => decide (key.budgetVersionId ≠ versionId)) = (d.allocations.filterMap d.varianceKey).dedup := by
    have hall : (d.allocations.filterMap d.varianceKey).dedup.filter
        (fun key => decide (key.budgetVersionId ≠ versionId)) = (d.allocations.filterMap d.varianceKey).dedup := by
      rw [List.filter_eq_self]
      intro key hkey
      exact decide_eq_true (hothers key (List.mem_dedup.1 hkey))
    have hnone : (added.filterMap d'.varianceKey).dedup.filter
        (fun key => decide (key.budgetVersionId ≠ versionId)) = [] := by
      rw [List.filter_eq_nil_iff]
      intro key hkey
      simpa using hnew key (List.mem_dedup.1 hkey)
    rw [hkeys, List.filter_append, hall, hnone, List.append_nil]
  have hrow : ∀ key ∈ (d.allocations.filterMap d.varianceKey).dedup,
      d'.actualOf (d'.allocationsOf key) = d.actualOf (d.allocationsOf key) + d.newlyMapped d' key := by
    intro key hkey
    rw [allocationsOf_eq hd ha (hothers key (List.mem_dedup.1 hkey)), actualOf_eq ha]
    rfl
  have hview : ∀ d : PlanningDb, d.budgetVariance = (d.allocations.filterMap d.varianceKey).dedup.map fun key =>
      { key with actualAmount := d.actualOf (d.allocationsOf key) } := fun d => rfl
  rw [hview d', hview d, List.filter_map, List.map_map]
  have hpred : ((fun row : BudgetVarianceRow => decide (row.budgetVersionId ≠ versionId)) ∘ fun key : BudgetVarianceKey =>
      ({ key with actualAmount := d'.actualOf (d'.allocationsOf key) } : BudgetVarianceRow)) =
      fun key => decide (key.budgetVersionId ≠ versionId) := rfl
  rw [hpred, hkept]
  refine List.map_congr_left fun key hkey => ?_
  rw [hrow key hkey]
  rfl

end PlanningDb

end PlusOne
