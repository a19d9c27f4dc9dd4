import PlusOne.Contracts.Accounting
import PlusOne.Planning.Tables

/-! # Activating a budget

`BudgetRepository.activate`, one statement after the other. -/

namespace PlusOne

open Numeric Relational

structure Money where
  amount : DecimalString
  currency : CurrencyCode
  deriving DecidableEq

structure BudgetCategoryProposal where
  categoryKey : String
  parentCategoryKey : Option String
  name : String
  deriving DecidableEq

structure BudgetAllocationProposal where
  categoryKey : String
  periodStart : LocalDate
  periodEnd : LocalDate
  amount : Money
  deriving DecidableEq

structure BudgetMappingProposal where
  categoryKey : String
  accountId : AccountId
  direction : MappingDirection
  validFrom : LocalDate
  validTo : Option LocalDate
  deriving DecidableEq

structure ActivateBudgetProposal where
  householdId : HouseholdId
  scopeKey : String
  name : String
  validFrom : LocalDate
  validTo : Option LocalDate
  categories : List BudgetCategoryProposal
  allocations : List BudgetAllocationProposal
  mappings : List BudgetMappingProposal
  deriving DecidableEq

/-- What `ActivateBudgetProposalSchemaV1` checks beyond the types of the fields. -/
def ActivateBudgetProposal.valid (input : ActivateBudgetProposal) : Bool :=
  let isKey := lengthBetween 1 80
  let isName := lengthBetween 1 160
  isKey input.scopeKey && isName input.name && !input.categories.isEmpty &&
    (input.categories.all fun category => isKey category.categoryKey && isName category.name &&
      category.parentCategoryKey.all isKey) &&
    (input.allocations.all fun allocation => isKey allocation.categoryKey) &&
    input.mappings.all fun mapping => isKey mapping.categoryKey

/-- The `categoryIds` map: the latest entry of a key comes first. -/
abbrev CategoryIds := List (String × Nat)

namespace BudgetRepository

variable (d : PlanningDb)

/-- `INSERT INTO planning.budget_scopes … ON CONFLICT … DO UPDATE SET name` -/
def upsertScope (householdId : HouseholdId) (scopeKey : String) : Except Thrown (Nat × PlanningDb) := do
  require (isNotBlank scopeKey) (failedCheck "budget_scopes_scope_key_check")
  match d.scopes.find? fun row => row.householdId == householdId && row.scopeKey == scopeKey &&
      !row.archived with
  | some scope =>
    return (scope.scopeId, { d with scopes := d.scopes.map fun row =>
      if row.scopeId = scope.scopeId then { row with name := scopeKey } else row })
  | none =>
    let scopeId := nextIdentity (d.scopes.map BudgetScopeRow.scopeId)
    return (scopeId, { d with scopes :=
      d.scopes ++ [{ scopeId, householdId, scopeKey, name := scopeKey, archived := false }] })

/-- `INSERT INTO planning.budget_categories … ON CONFLICT … DO UPDATE SET name` -/
def upsertCategory (householdId : HouseholdId) (category : BudgetCategoryProposal) :
    Except Thrown (Nat × PlanningDb) := do
  require (isNotBlank category.categoryKey) (failedCheck "budget_categories_category_key_check")
  require (isNotBlank category.name) (failedCheck "budget_categories_name_check")
  match d.categories.find? fun row => row.householdId == householdId &&
      row.categoryKey == category.categoryKey && !row.archived with
  | some old =>
    return (old.categoryId, { d with categories := d.categories.map fun row =>
      if row.categoryId = old.categoryId then { row with name := category.name } else row })
  | none =>
    let categoryId := nextIdentity (d.categories.map BudgetCategoryRow.categoryId)
    return (categoryId, { d with categories := d.categories ++
      [{ categoryId, householdId, categoryKey := category.categoryKey, name := category.name
         archived := false }] })

def upsertCategories (householdId : HouseholdId) :
    List BudgetCategoryProposal → CategoryIds → PlanningDb → Except Thrown (CategoryIds × PlanningDb)
  | [], categoryIds, d => .ok (categoryIds, d)
  | category :: rest, categoryIds, d => do
    let (categoryId, d) ← upsertCategory d householdId category
    upsertCategories householdId rest ((category.categoryKey, categoryId) :: categoryIds) d

def insertVersion (input : ActivateBudgetProposal) (scopeId : Nat) : Except Thrown (Nat × PlanningDb) := do
  require (isNotBlank input.name) (failedCheck "budget_versions_name_check")
  require (input.validTo.all fun validTo => decide (input.validFrom ≤ validTo))
    (failedCheck "budget_versions_check")
  let versionId := nextIdentity (d.versions.map BudgetVersionRow.versionId)
  return (versionId, { d with versions := d.versions ++
    [{ versionId, householdId := input.householdId, scopeId, name := input.name
       validFrom := input.validFrom, validTo := input.validTo }] })

/-- A key that no category of the proposal has gives NULL. -/
def insertAllocation (householdId : HouseholdId) (versionId : Nat) (categoryIds : CategoryIds)
    (allocation : BudgetAllocationProposal) : Except Thrown PlanningDb := do
  let amount ← stored (Fixed.store allocation.amount.amount)
  let some categoryId := categoryIds.lookup allocation.categoryKey
    | throw (missingValue "category_id")
  require (decide (0 ≤ amount.units)) (failedCheck "budget_allocations_amount_check")
  require (decide (allocation.periodStart ≤ allocation.periodEnd)) (failedCheck "budget_allocations_check")
  require (d.currencies.any fun row => row.currencyCode == allocation.amount.currency)
    (missingReference "budget_allocations_currency_fkey")
  return { d with allocations := d.allocations ++
    [{ householdId, versionId, categoryId, periodStart := allocation.periodStart
       periodEnd := allocation.periodEnd, amount, currency := allocation.amount.currency }] }

def insertAllocations (householdId : HouseholdId) (versionId : Nat) (categoryIds : CategoryIds) :
    List BudgetAllocationProposal → PlanningDb → Except Thrown PlanningDb
  | [], d => .ok d
  | allocation :: rest, d => do
    let d ← insertAllocation d householdId versionId categoryIds allocation
    insertAllocations householdId versionId categoryIds rest d

/-- Two ranges of dates, the later end open where it is missing, have a day in common. -/
def overlap (from₁ : LocalDate) (to₁ : Option LocalDate) (from₂ : LocalDate) (to₂ : Option LocalDate) : Bool :=
  (to₂.all fun last => decide (from₁ ≤ last)) && to₁.all fun last => decide (from₂ ≤ last)

/-- The statement with its `WHERE NOT EXISTS`. The trigger `budget_mappings_no_active_overlap` comes
before the constraints. -/
def insertMapping (householdId : HouseholdId) (categoryIds : CategoryIds) (mapping : BudgetMappingProposal) :
    Except Thrown PlanningDb := do
  let categoryId? := categoryIds.lookup mapping.categoryKey
  let active := d.mappings.filter fun row => row.householdId == householdId &&
    some row.categoryId == categoryId? && row.accountId == mapping.accountId && !row.archived
  if active.any fun row => row.direction == mapping.direction && row.validFrom == mapping.validFrom &&
      row.validTo == mapping.validTo then
    return d
  else
    require (mapping.validTo.all fun validTo => decide (mapping.validFrom ≤ validTo))
      (.pg ⟨some "22000", none, "range lower bound must be less than or equal to range upper bound"⟩)
    require (!(active.any fun row => overlap row.validFrom row.validTo mapping.validFrom mapping.validTo))
      (.pg ⟨some "P0001", none, "active budget category mappings cannot overlap"⟩)
    let some categoryId := categoryId? | throw (missingValue "category_id")
    require (d.accounts.any fun account => account.householdId == householdId &&
        account.accountId == mapping.accountId)
      (missingReference "budget_category_account_mappings_household_id_account_id_fkey")
    return { d with mappings := d.mappings ++
      [{ householdId, categoryId, accountId := mapping.accountId, direction := mapping.direction
         validFrom := mapping.validFrom, validTo := mapping.validTo, archived := false }] }

def insertMappings (householdId : HouseholdId) (categoryIds : CategoryIds) :
    List BudgetMappingProposal → PlanningDb → Except Thrown PlanningDb
  | [], d => .ok d
  | mapping :: rest, d => do
    let d ← insertMapping d householdId categoryIds mapping
    insertMappings householdId categoryIds rest d

def activate (input : ActivateBudgetProposal) : Except Thrown PlanningDb := do
  require (d.findHousehold input.householdId).isSome (.error "Household was not found")
  let (scopeId, d) ← upsertScope d input.householdId input.scopeKey
  let (categoryIds, d) ← upsertCategories input.householdId input.categories [] d
  let (versionId, d) ← insertVersion d input scopeId
  let d ← insertAllocations input.householdId versionId categoryIds input.allocations d
  insertMappings input.householdId categoryIds input.mappings d

end BudgetRepository

/-! ## What the tables promise -/

/-- The references of the rows a budget is made of, and that no two active categories share a key. -/
structure PlanningDb.Budgeted (d : PlanningDb) : Prop where
  keyed : d.toLedgerDb.Keyed
  version : ∀ allocation ∈ d.allocations, ∃ version ∈ d.versions,
    version.householdId = allocation.householdId ∧ version.versionId = allocation.versionId
  category : ∀ allocation ∈ d.allocations, ∃ category ∈ d.categories,
    category.householdId = allocation.householdId ∧ category.categoryId = allocation.categoryId
  household : ∀ allocation ∈ d.allocations, ∃ household ∈ d.households,
    household.householdId = allocation.householdId
  scope : ∀ version ∈ d.versions, ∃ scope ∈ d.scopes,
    scope.householdId = version.householdId ∧ scope.scopeId = version.scopeId
  active : ∀ category ∈ d.categories, category.archived = false
  one_key : ∀ category ∈ d.categories, ∀ other ∈ d.categories, category.householdId = other.householdId →
    category.categoryKey = other.categoryKey → category.categoryId = other.categoryId

namespace BudgetRepository

open PlanningDb

variable {d d' : PlanningDb} {householdId : HouseholdId}

theorem upsertScope_spec {scopeKey : String} {scopeId : Nat} (hd : d.Budgeted)
    (h : upsertScope d householdId scopeKey = .ok (scopeId, d')) :
    d'.Budgeted ∧ d'.toLedgerDb = d.toLedgerDb ∧
      ∃ scope ∈ d'.scopes, scope.householdId = householdId ∧ scope.scopeId = scopeId := by
  rw [upsertScope, require_bind_eq_ok] at h
  obtain ⟨_, h⟩ := h
  split at h
  case h_1 scope hfind =>
    cases h
    have hmem := List.mem_of_find?_eq_some hfind
    have hmatch := List.find?_some hfind
    simp only [Bool.and_eq_true, beq_iff_eq] at hmatch
    have hkept : ∀ row ∈ d.scopes, ∃ row' ∈ d.scopes.map fun row =>
        if row.scopeId = scope.scopeId then { row with name := scopeKey } else row,
        row'.householdId = row.householdId ∧ row'.scopeId = row.scopeId := by
      intro row hrow
      have hrow' := List.mem_map_of_mem (f := fun row : BudgetScopeRow =>
        if row.scopeId = scope.scopeId then { row with name := scopeKey } else row) hrow
      refine ⟨_, hrow', ?_⟩
      split
      · simp
      · simp
    constructor
    · refine { hd with scope := ?_ }
      intro version hversion
      obtain ⟨row, hrow, hhousehold, hid⟩ := hd.scope version hversion
      obtain ⟨row', hrow', hhousehold', hid'⟩ := hkept row hrow
      exact ⟨row', hrow', hhousehold'.trans hhousehold, hid'.trans hid⟩
    constructor
    · rfl
    · obtain ⟨row', hrow', hhousehold', hid'⟩ := hkept scope hmem
      exact ⟨row', hrow', hhousehold'.trans hmatch.1.1, hid'⟩
  case h_2 =>
    cases h
    constructor
    · refine { hd with scope := ?_ }
      intro version hversion
      obtain ⟨row, hrow, hsame⟩ := hd.scope version hversion
      exact ⟨row, List.mem_append_left _ hrow, hsame⟩
    constructor
    · rfl
    · refine ⟨_, List.mem_append_right _ (List.mem_singleton_self _), ?_⟩
      simp

theorem upsertCategory_spec {category : BudgetCategoryProposal} {categoryId : Nat} (hd : d.Budgeted)
    (h : upsertCategory d householdId category = .ok (categoryId, d')) :
    d'.Budgeted ∧ d'.toLedgerDb = d.toLedgerDb ∧ d'.scopes = d.scopes ∧
      (∀ row ∈ d.categories, ∃ row' ∈ d'.categories,
        row'.householdId = row.householdId ∧ row'.categoryId = row.categoryId) ∧
      ∃ row ∈ d'.categories, row.householdId = householdId ∧ row.categoryId = categoryId := by
  rw [upsertCategory, require_bind_eq_ok, require_bind_eq_ok] at h
  obtain ⟨_, _, h⟩ := h
  split at h
  case h_1 old hfind =>
    cases h
    have hmem := List.mem_of_find?_eq_some hfind
    have hmatch := List.find?_some hfind
    simp only [Bool.and_eq_true, beq_iff_eq] at hmatch
    have hrename : ∀ row' ∈ d.categories.map (fun row : BudgetCategoryRow =>
        if row.categoryId = old.categoryId then { row with name := category.name } else row),
        ∃ row ∈ d.categories, row'.householdId = row.householdId ∧ row'.categoryId = row.categoryId ∧
          row'.categoryKey = row.categoryKey ∧ row'.archived = row.archived := by
      intro row' hrow'
      obtain ⟨row, hrow, rfl⟩ := List.mem_map.1 hrow'
      refine ⟨row, hrow, ?_⟩
      split
      · simp
      · simp
    have hkept : ∀ row ∈ d.categories, ∃ row' ∈ d.categories.map (fun row : BudgetCategoryRow =>
        if row.categoryId = old.categoryId then { row with name := category.name } else row),
        row'.householdId = row.householdId ∧ row'.categoryId = row.categoryId := by
      intro row hrow
      refine ⟨_, List.mem_map_of_mem hrow, ?_⟩
      split
      · simp
      · simp
    constructor
    · refine { hd with category := ?_, active := ?_, one_key := ?_ }
      · intro allocation hallocation
        obtain ⟨row, hrow, hhousehold, hid⟩ := hd.category allocation hallocation
        obtain ⟨row', hrow', hhousehold', hid'⟩ := hkept row hrow
        exact ⟨row', hrow', hhousehold'.trans hhousehold, hid'.trans hid⟩
      · intro row' hrow'
        obtain ⟨row, hrow, _, _, _, harchived⟩ := hrename row' hrow'
        exact harchived.trans (hd.active row hrow)
      · intro row' hrow' other' hother' hhousehold hkey
        obtain ⟨row, hrow, hrow₁, hrow₂, hrow₃, _⟩ := hrename row' hrow'
        obtain ⟨other, hother, hother₁, hother₂, hother₃, _⟩ := hrename other' hother'
        have hsame := hd.one_key row hrow other hother (by rw [← hrow₁, ← hother₁, hhousehold])
          (by rw [← hrow₃, ← hother₃, hkey])
        rw [hrow₂, hother₂, hsame]
    constructor
    · rfl
    constructor
    · rfl
    constructor
    · exact hkept
    · obtain ⟨row', hrow', hhousehold', hid'⟩ := hkept old hmem
      exact ⟨row', hrow', hhousehold'.trans hmatch.1.1, hid'⟩
  case h_2 hfind =>
    cases h
    have hfresh : ∀ row ∈ d.categories, row.householdId = householdId → row.categoryKey ≠ category.categoryKey := by
      intro row hrow hhousehold hkey
      have hnone := List.find?_eq_none.1 hfind row hrow
      simp [hhousehold, hkey, hd.active row hrow] at hnone
    have hkept : ∀ row ∈ d.categories, ∃ row' ∈ d.categories ++
        [({ categoryId := nextIdentity (d.categories.map BudgetCategoryRow.categoryId), householdId
            categoryKey := category.categoryKey, name := category.name, archived := false } : BudgetCategoryRow)],
        row'.householdId = row.householdId ∧ row'.categoryId = row.categoryId := by
      intro row hrow
      exact ⟨row, List.mem_append_left _ hrow, rfl, rfl⟩
    constructor
    · refine { hd with category := ?_, active := ?_, one_key := ?_ }
      · intro allocation hallocation
        obtain ⟨row, hrow, hsame⟩ := hd.category allocation hallocation
        exact ⟨row, List.mem_append_left _ hrow, hsame⟩
      · intro row hrow
        rcases List.mem_append.1 hrow with hrow | hrow
        · exact hd.active row hrow
        · rw [List.mem_singleton.1 hrow]
      · intro row hrow other hother hhousehold hkey
        rcases List.mem_append.1 hrow with hrow | hrow
        · rcases List.mem_append.1 hother with hother | hother
          · exact hd.one_key row hrow other hother hhousehold hkey
          · rw [List.mem_singleton.1 hother] at hhousehold hkey
            exact absurd hkey (hfresh row hrow hhousehold)
        · rcases List.mem_append.1 hother with hother | hother
          · rw [List.mem_singleton.1 hrow] at hhousehold hkey
            exact absurd hkey.symm (hfresh other hother hhousehold.symm)
          · rw [List.mem_singleton.1 hrow, List.mem_singleton.1 hother]
    constructor
    · rfl
    constructor
    · rfl
    constructor
    · exact hkept
    · refine ⟨_, List.mem_append_right _ (List.mem_singleton_self _), ?_⟩
      simp

/-- Every category a proposal names has a row under the identity the map gives it. -/
theorem upsertCategories_spec {categories : List BudgetCategoryProposal} {known categoryIds : CategoryIds}
    (hd : d.Budgeted)
    (hknown : ∀ entry ∈ known, ∃ row ∈ d.categories, row.householdId = householdId ∧ row.categoryId = entry.2)
    (h : upsertCategories householdId categories known d = .ok (categoryIds, d')) :
    d'.Budgeted ∧ d'.toLedgerDb = d.toLedgerDb ∧ d'.scopes = d.scopes ∧
      ∀ entry ∈ categoryIds, ∃ row ∈ d'.categories,
        row.householdId = householdId ∧ row.categoryId = entry.2 := by
  induction categories generalizing known d with
  | nil =>
    cases h
    exact ⟨hd, rfl, rfl, hknown⟩
  | cons category rest ih =>
    obtain ⟨⟨categoryId, d₁⟩, h₁, h⟩ := bind_eq_ok.1 h
    obtain ⟨hd₁, hledger, hscopes, hkept, row, hrow, hhousehold, hid⟩ := upsertCategory_spec hd h₁
    have hknown₁ : ∀ entry ∈ (category.categoryKey, categoryId) :: known, ∃ row ∈ d₁.categories,
        row.householdId = householdId ∧ row.categoryId = entry.2 := by
      intro entry hentry
      rcases List.mem_cons.1 hentry with rfl | hentry
      · exact ⟨row, hrow, hhousehold, hid⟩
      · obtain ⟨old, hold, hhousehold', hid'⟩ := hknown entry hentry
        obtain ⟨new, hnew, hsame, hsame'⟩ := hkept old hold
        exact ⟨new, hnew, hsame.trans hhousehold', hsame'.trans hid'⟩
    obtain ⟨hd', hledger', hscopes', hids⟩ := ih hd₁ hknown₁ h
    exact ⟨hd', hledger'.trans hledger, hscopes'.trans hscopes, hids⟩

theorem insertVersion_spec {input : ActivateBudgetProposal} {scopeId versionId : Nat} (hd : d.Budgeted)
    (hscope : ∃ scope ∈ d.scopes, scope.householdId = input.householdId ∧ scope.scopeId = scopeId)
    (h : insertVersion d input scopeId = .ok (versionId, d')) :
    d'.Budgeted ∧ d'.toLedgerDb = d.toLedgerDb ∧ d'.categories = d.categories ∧
      ∃ version ∈ d'.versions, version.householdId = input.householdId ∧ version.versionId = versionId := by
  rw [insertVersion, require_bind_eq_ok, require_bind_eq_ok] at h
  obtain ⟨_, _, h⟩ := h
  cases h
  constructor
  · refine { hd with version := ?_, scope := ?_ }
    · intro allocation hallocation
      obtain ⟨version, hversion, hsame⟩ := hd.version allocation hallocation
      exact ⟨version, List.mem_append_left _ hversion, hsame⟩
    · intro version hversion
      rcases List.mem_append.1 hversion with hversion | hversion
      · exact hd.scope version hversion
      · rw [List.mem_singleton.1 hversion]
        exact hscope
  constructor
  · rfl
  constructor
  · rfl
  · refine ⟨_, List.mem_append_right _ (List.mem_singleton_self _), ?_⟩
    simp

theorem insertAllocation_spec {versionId : Nat} {categoryIds : CategoryIds}
    {allocation : BudgetAllocationProposal} (hd : d.Budgeted)
    (hhousehold : ∃ household ∈ d.households, household.householdId = householdId)
    (hversion : ∃ version ∈ d.versions, version.householdId = householdId ∧ version.versionId = versionId)
    (hids : ∀ entry ∈ categoryIds, ∃ row ∈ d.categories,
      row.householdId = householdId ∧ row.categoryId = entry.2)
    (h : insertAllocation d householdId versionId categoryIds allocation = .ok d') :
    d'.Budgeted ∧ d'.toLedgerDb = d.toLedgerDb ∧ d'.versions = d.versions ∧ d'.categories = d.categories := by
  obtain ⟨amount, _, h⟩ := bind_eq_ok.1 h
  split at h
  case h_2 => cases h
  case h_1 categoryId hlookup =>
    rw [require_bind_eq_ok, require_bind_eq_ok, require_bind_eq_ok] at h
    obtain ⟨_, _, _, h⟩ := h
    cases h
    have hentry : (allocation.categoryKey, categoryId) ∈ categoryIds := by
      obtain ⟨before, after, hsplit, _⟩ := List.lookup_eq_some_iff.1 hlookup
      rw [hsplit]
      simp
    constructor
    · refine { hd with version := ?_, category := ?_, household := ?_ }
      · intro row hrow
        rcases List.mem_append.1 hrow with hrow | hrow
        · exact hd.version row hrow
        · rw [List.mem_singleton.1 hrow]
          exact hversion
      · intro row hrow
        rcases List.mem_append.1 hrow with hrow | hrow
        · exact hd.category row hrow
        · rw [List.mem_singleton.1 hrow]
          exact hids _ hentry
      · intro row hrow
        rcases List.mem_append.1 hrow with hrow | hrow
        · exact hd.household row hrow
        · rw [List.mem_singleton.1 hrow]
          exact hhousehold
    · simp

theorem insertAllocations_spec {versionId : Nat} {categoryIds : CategoryIds}
    {allocations : List BudgetAllocationProposal} (hd : d.Budgeted)
    (hhousehold : ∃ household ∈ d.households, household.householdId = householdId)
    (hversion : ∃ version ∈ d.versions, version.householdId = householdId ∧ version.versionId = versionId)
    (hids : ∀ entry ∈ categoryIds, ∃ row ∈ d.categories,
      row.householdId = householdId ∧ row.categoryId = entry.2)
    (h : insertAllocations householdId versionId categoryIds allocations d = .ok d') :
    d'.Budgeted ∧ d'.toLedgerDb = d.toLedgerDb := by
  induction allocations generalizing d with
  | nil =>
    cases h
    exact ⟨hd, rfl⟩
  | cons allocation rest ih =>
    obtain ⟨d₁, h₁, h⟩ := bind_eq_ok.1 h
    obtain ⟨hd₁, hledger, hversions, hcategories⟩ := insertAllocation_spec hd hhousehold hversion hids h₁
    rw [← hledger] at hhousehold
    rw [← hversions] at hversion
    rw [← hcategories] at hids
    obtain ⟨hd', hledger'⟩ := ih hd₁ hhousehold hversion hids h
    exact ⟨hd', hledger'.trans hledger⟩

/-- A mapping changes the table of mappings only. -/
theorem insertMapping_spec {categoryIds : CategoryIds} {mapping : BudgetMappingProposal}
    (h : insertMapping d householdId categoryIds mapping = .ok d') :
    ∃ mappings, d' = { d with mappings } := by
  rw [insertMapping] at h
  split at h
  · cases h
    exact ⟨d.mappings, rfl⟩
  · rw [require_bind_eq_ok, require_bind_eq_ok] at h
    obtain ⟨_, _, h⟩ := h
    split at h
    · rw [require_bind_eq_ok] at h
      obtain ⟨_, h⟩ := h
      cases h
      exact ⟨_, rfl⟩
    · cases h

theorem insertMappings_spec {categoryIds : CategoryIds} {mappings : List BudgetMappingProposal}
    (hd : d.Budgeted) (h : insertMappings householdId categoryIds mappings d = .ok d') :
    d'.Budgeted ∧ d'.toLedgerDb = d.toLedgerDb := by
  induction mappings generalizing d with
  | nil =>
    cases h
    exact ⟨hd, rfl⟩
  | cons mapping rest ih =>
    obtain ⟨d₁, h₁, h⟩ := bind_eq_ok.1 h
    have hd₁ : d₁.Budgeted ∧ d₁.toLedgerDb = d.toLedgerDb := by
      obtain ⟨mappings, rfl⟩ := insertMapping_spec h₁
      exact ⟨{ hd with }, rfl⟩
    obtain ⟨hd', hledger⟩ := ih hd₁.1 h
    exact ⟨hd', hledger.trans hd₁.2⟩

theorem activate_spec {input : ActivateBudgetProposal} (hd : d.Budgeted)
    (h : activate d input = .ok d') : d'.Budgeted ∧ d'.toLedgerDb = d.toLedgerDb := by
  rw [activate, require_bind_eq_ok] at h
  obtain ⟨hhousehold, h⟩ := h
  obtain ⟨⟨scopeId, d₁⟩, h₁, h⟩ := bind_eq_ok.1 h
  obtain ⟨⟨categoryIds, d₂⟩, h₂, h⟩ := bind_eq_ok.1 h
  obtain ⟨⟨versionId, d₃⟩, h₃, h⟩ := bind_eq_ok.1 h
  obtain ⟨d₄, h₄, h⟩ := bind_eq_ok.1 h
  obtain ⟨hd₁, hledger₁, hscope⟩ := upsertScope_spec hd h₁
  obtain ⟨hd₂, hledger₂, hscopes₂, hids⟩ := upsertCategories_spec hd₁ (by simp) h₂
  rw [← hscopes₂] at hscope
  obtain ⟨hd₃, hledger₃, hcategories₃, hversion⟩ := insertVersion_spec hd₂ hscope h₃
  rw [← hcategories₃] at hids
  have hledger : d₃.toLedgerDb = d.toLedgerDb := hledger₃.trans (hledger₂.trans hledger₁)
  have hexists : ∃ household ∈ d₃.households, household.householdId = input.householdId := by
    rw [hledger]
    obtain ⟨household, hfind⟩ := Option.isSome_iff_exists.1 hhousehold
    obtain ⟨hmem, hid⟩ := find_some hfind
    exact ⟨household, hmem, hid⟩
  obtain ⟨hd₄, hledger₄⟩ := insertAllocations_spec hd₃ hexists hversion hids h₄
  obtain ⟨hd', hledger₅⟩ := insertMappings_spec hd₄ h
  exact ⟨hd', hledger₅.trans (hledger₄.trans hledger)⟩

end BudgetRepository

/-- What activating budgets and keeping the ledger can make of the tables: the ledger is any with the
same households or more. -/
inductive BudgetRun : PlanningDb → Prop
  | start {d : PlanningDb} (ledger : d.toLedgerDb.Keyed) (scopes : d.scopes = [])
      (categories : d.categories = []) (versions : d.versions = []) (allocations : d.allocations = [])
      (mappings : d.mappings = []) : BudgetRun d
  | activate {d d' : PlanningDb} {input : ActivateBudgetProposal} (run : BudgetRun d)
      (activated : BudgetRepository.activate d input = .ok d') : BudgetRun d'
  | ledger {d : PlanningDb} {L : LedgerDb} (run : BudgetRun d) (keyed : L.Keyed)
      (households : ∀ household ∈ d.households, household ∈ L.households) :
      BudgetRun { d with toLedgerDb := L }

theorem BudgetRun.budgeted {d : PlanningDb} (h : BudgetRun d) : d.Budgeted := by
  induction h with
  | start keyed scopes categories versions allocations mappings =>
    exact ⟨keyed, by simp [allocations], by simp [allocations], by simp [allocations], by simp [versions],
      by simp [categories], by simp [categories]⟩
  | activate _ activated ih => exact (BudgetRepository.activate_spec ih activated).1
  | ledger _ keyed households ih =>
    refine { ih with keyed := keyed, household := ?_ }
    intro allocation hallocation
    obtain ⟨household, hmem, hid⟩ := ih.household allocation hallocation
    exact ⟨household, households household hmem, hid⟩

end PlusOne
