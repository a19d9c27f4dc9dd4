import PlusOne.Planning.Activation

/-! # What an activation makes of the tables

The budget tables before and after `BudgetRepository.activate`, and when it succeeds. -/

namespace PlusOne

open Numeric Relational

/-- The references of the budget tables, and the keys and days their indexes and triggers guard. -/
structure PlanningDb.BudgetTables (d : PlanningDb) : Prop where
  categories : CategoryTable d.categories
  version : ∀ allocation ∈ d.allocations, ∃ version ∈ d.versions,
    version.householdId = allocation.householdId ∧ version.versionId = allocation.versionId
  category : ∀ allocation ∈ d.allocations, ∃ key archived,
    (allocation.householdId, allocation.categoryId, key, archived) ∈ d.categories.map BudgetCategoryRow.core
  scope : ∀ version ∈ d.versions, ∃ key archived,
    (version.householdId, version.scopeId, key, archived) ∈ d.scopes.map BudgetScopeRow.core
  mappingCategories : ∀ row ∈ d.mappings, row.categoryId ∈ d.categories.map BudgetCategoryRow.categoryId
  mappings : MappingsApart d.mappings

namespace BudgetRepository

variable {d d' : PlanningDb} {input : ActivateBudgetProposal} {versionId : Nat}

/-- Scopes and categories are renamed and added, versions, allocations and mappings are added, and the
new allocations are those of the new version. -/
structure Activated (d d' : PlanningDb) (versionId : Nat) : Prop where
  rest : d' = { d with
    scopes := d'.scopes, categories := d'.categories, versions := d'.versions
    allocations := d'.allocations, mappings := d'.mappings }
  scopes : ∃ added, d'.scopes.map BudgetScopeRow.core = d.scopes.map BudgetScopeRow.core ++ added
  categories : ∃ added, CategoriesGained d.categories d'.categories added
  versions : ∃ version, d'.versions = d.versions ++ [version] ∧ version.versionId = versionId
  positive : 0 < versionId
  fresh : ∀ version ∈ d.versions, version.versionId ≠ versionId
  allocations : ∃ added, d'.allocations = d.allocations ++ added ∧ ∀ row ∈ added, row.versionId = versionId
  mappings : ∃ added, d'.mappings = d.mappings ++ added

theorem activateVersion_core (hd : d.BudgetTables) (h : activateVersion d input = .ok (versionId, d')) :
    Activated d d' versionId ∧ d'.BudgetTables := by
  rw [activateVersion, require_bind_eq_ok] at h
  obtain ⟨_, h⟩ := h
  obtain ⟨⟨scopeId, d₁⟩, h₁, h⟩ := bind_eq_ok.1 h
  obtain ⟨⟨categoryIds, d₂⟩, h₂, h⟩ := bind_eq_ok.1 h
  obtain ⟨⟨newVersionId, d₃⟩, h₃, h⟩ := bind_eq_ok.1 h
  obtain ⟨d₄, h₄, h⟩ := bind_eq_ok.1 h
  obtain ⟨d₅, h₅, h⟩ := bind_eq_ok.1 h
  cases h
  obtain ⟨scopes, newScopes, rfl, hscopes, scopeKey, scopeArchived, hscope⟩ := upsertScope_core h₁
  obtain ⟨categories, newCategories, rfl, hcategories, hids, _⟩ :=
    upsertCategories_core (d := { d with scopes }) hd.categories (by simp) h₂
  obtain ⟨version, rfl, hid, hhousehold, hscopeId, hnext⟩ := insertVersion_core h₃
  obtain ⟨allocations, rfl, hallocations⟩ := insertAllocations_core h₄
  obtain ⟨mappings, rfl, hapart, hmappings⟩ := insertMappings_core (by exact hd.mappings) h₅
  have hknown : ∀ categoryId ∈ categoryIds.map Prod.snd, ∃ key,
      (input.householdId, categoryId, key, false) ∈ categories.map BudgetCategoryRow.core := by
    intro categoryId hmem
    obtain ⟨entry, hentry, rfl⟩ := List.mem_map.1 hmem
    exact ⟨entry.1, hids entry hentry⟩
  have hfresh : ∀ old ∈ d.versions, old.versionId ≠ versionId := by
    intro old hold heq
    have hlt := lt_nextIdentity (List.mem_map_of_mem (f := BudgetVersionRow.versionId) hold)
    rw [heq, hnext] at hlt
    exact Nat.lt_irrefl _ hlt
  refine ⟨⟨rfl, ⟨newScopes, hscopes⟩, ⟨newCategories, hcategories⟩, ⟨version, rfl, hid⟩,
    hnext ▸ Nat.succ_pos _, hfresh,
    ⟨allocations, rfl, fun row hrow => (hallocations row hrow).1⟩, ⟨mappings, rfl⟩⟩, ?_⟩
  constructor
  case categories => exact hcategories.table
  case version =>
    intro allocation hmem
    rcases List.mem_append.1 hmem with hmem | hmem
    · obtain ⟨old, hold, hsame⟩ := hd.version allocation hmem
      exact ⟨old, List.mem_append_left _ hold, hsame⟩
    · obtain ⟨hversion, _, hrow⟩ := hallocations allocation hmem
      exact ⟨version, by simp, hhousehold.trans hrow.symm, hid.trans hversion.symm⟩
  case category =>
    intro allocation hmem
    rcases List.mem_append.1 hmem with hmem | hmem
    · obtain ⟨key, archived, hcore⟩ := hd.category allocation hmem
      refine ⟨key, archived, ?_⟩
      rw [hcategories.core]
      exact List.mem_append_left _ hcore
    · obtain ⟨_, hcategory, hrow⟩ := hallocations allocation hmem
      obtain ⟨key, hcore⟩ := hknown _ hcategory
      exact ⟨key, false, hrow ▸ hcore⟩
  case scope =>
    intro other hmem
    rcases List.mem_append.1 hmem with hmem | hmem
    · obtain ⟨key, archived, hcore⟩ := hd.scope other hmem
      refine ⟨key, archived, ?_⟩
      rw [hscopes]
      exact List.mem_append_left _ hcore
    · rw [List.mem_singleton.1 hmem, hhousehold, hscopeId]
      exact ⟨scopeKey, scopeArchived, hscope⟩
  case mappingCategories =>
    intro row hmem
    rcases List.mem_append.1 hmem with hmem | hmem
    · rw [hcategories.identities]
      exact List.mem_append_left _ (hd.mappingCategories row hmem)
    · obtain ⟨key, hcore⟩ := hknown _ (hmappings row hmem)
      obtain ⟨category, hcategory, hsame⟩ := List.mem_map.1 hcore
      simp only [BudgetCategoryRow.core, Prod.mk.injEq] at hsame
      exact List.mem_map.2 ⟨category, hcategory, hsame.2.1⟩
  case mappings => exact hapart

/-! ## When an activation succeeds -/

end BudgetRepository

/-- The constraints of the columns: keys and names are not all blanks, no range of dates ends before it
starts, amounts are not negative and fit, and allocations and mappings are about categories of the
proposal. -/
structure ActivateBudgetProposal.Admissible (input : ActivateBudgetProposal) : Prop where
  scopeKey : isNotBlank input.scopeKey = true
  name : isNotBlank input.name = true
  dates : (input.validTo.all fun validTo => decide (input.validFrom ≤ validTo)) = true
  categories : ∀ category ∈ input.categories,
    isNotBlank category.categoryKey = true ∧ isNotBlank category.name = true
  allocations : ∀ allocation ∈ input.allocations, allocation.Fits ∧
    allocation.categoryKey ∈ input.categories.map BudgetCategoryProposal.categoryKey
  mappings : ∀ mapping ∈ input.mappings, mapping.terms.Ordered ∧
    mapping.categoryKey ∈ input.categories.map BudgetCategoryProposal.categoryKey

/-- Each mapping agrees with the active mappings of its account to the active category of its key, and
with the mappings of the same account and key before it. -/
structure ActivateBudgetProposal.Agreeing (input : ActivateBudgetProposal) (d : PlanningDb) : Prop where
  stored : ∀ mapping ∈ input.mappings, ∀ category ∈ d.categories,
    category.activeKey = some (input.householdId, mapping.categoryKey) →
      ∀ row ∈ d.mappings, row.Maps input.householdId category.categoryId mapping.accountId →
        row.terms.Agree mapping.terms
  proposed : input.mappings.Pairwise fun mapping other =>
    mapping.categoryKey = other.categoryKey → mapping.accountId = other.accountId →
      mapping.terms.Agree other.terms

/-- The household, the accounts of the mappings and the currencies of the allocations exist. -/
structure ActivateBudgetProposal.Refers (input : ActivateBudgetProposal) (d : PlanningDb) : Prop where
  household : (d.findHousehold input.householdId).isSome = true
  accounts : BudgetRepository.AccountsExist d input.householdId input.mappings
  currencies : ∀ allocation ∈ input.allocations,
    (d.currencies.any fun row => row.currencyCode == allocation.amount.currency) = true

namespace BudgetRepository

variable {d : PlanningDb} {input : ActivateBudgetProposal}

/-- The map sends a key to the active category of the key, or to a category that was not there. -/
theorem mapping_agrees_iff (hd : d.BudgetTables) {categories : List BudgetCategoryRow}
    {added : List (HouseholdId × Nat × String × Bool)} (hgained : CategoriesGained d.categories categories added)
    {householdId : HouseholdId} {key : String} {categoryId : Nat}
    (hcore : (householdId, categoryId, key, false) ∈ categories.map BudgetCategoryRow.core)
    {accountId : AccountId} {P : BudgetMappingRow → Prop} :
    (∀ row ∈ d.mappings, row.Maps householdId categoryId accountId → P row) ↔
      ∀ category ∈ d.categories, category.activeKey = some (householdId, key) →
        ∀ row ∈ d.mappings, row.Maps householdId category.categoryId accountId → P row := by
  obtain ⟨found, hfound, hfoundCore⟩ := List.mem_map.1 hcore
  simp only [BudgetCategoryRow.core, Prod.mk.injEq] at hfoundCore
  obtain ⟨hhousehold, hid, hkey, harchived⟩ := hfoundCore
  have hactive : found.activeKey = some (householdId, key) := by
    simp [BudgetCategoryRow.activeKey, hhousehold, hkey, harchived]
  constructor
  · intro h category hcategory hactive' row hrow hmaps
    have hmem : category.core ∈ categories.map BudgetCategoryRow.core := by
      rw [hgained.core]
      exact List.mem_append_left _ (List.mem_map_of_mem hcategory)
    obtain ⟨after, hafter, hafterCore⟩ := List.mem_map.1 hmem
    simp only [BudgetCategoryRow.core, Prod.mk.injEq] at hafterCore
    have hafterActive : after.activeKey = some (householdId, key) := by
      unfold BudgetCategoryRow.activeKey at hactive' ⊢
      rw [hafterCore.1, hafterCore.2.2.1, hafterCore.2.2.2]
      exact hactive'
    have hsame := hgained.table.keys.eq hafter hfound hafterActive hactive
    rw [← hafterCore.2.1, hsame, hid] at hmaps
    exact h row hrow hmaps
  · intro h row hrow hmaps
    rw [hgained.core, List.mem_append] at hcore
    rcases hcore with hold | hnew
    · obtain ⟨category, hcategory, hsame⟩ := List.mem_map.1 hold
      simp only [BudgetCategoryRow.core, Prod.mk.injEq] at hsame
      refine h category hcategory ?_ row hrow ?_
      · simp [BudgetCategoryRow.activeKey, hsame.1, hsame.2.2.1, hsame.2.2.2]
      · rw [hsame.2.1]
        exact hmaps
    · have hmapped := hd.mappingCategories row hrow
      rw [hmaps.2.1] at hmapped
      exact absurd hmapped (hgained.fresh _ hnew)

/-- What the map of the categories knows: the keys of the proposal, each with its active category. -/
structure MapsCategories (householdId : HouseholdId) (proposed : List BudgetCategoryProposal)
    (categories : List BudgetCategoryRow) (categoryIds : CategoryIds) : Prop where
  table : CategoryTable categories
  cores : ∀ entry ∈ categoryIds, (householdId, entry.2, entry.1, false) ∈ categories.map BudgetCategoryRow.core
  keys : ∀ key, key ∈ categoryIds.map Prod.fst ↔ key ∈ proposed.map BudgetCategoryProposal.categoryKey

section Map

variable {householdId : HouseholdId} {proposed : List BudgetCategoryProposal} {categories : List BudgetCategoryRow}
  {categoryIds : CategoryIds} {key other : String} {categoryId : Nat}

theorem MapsCategories.core (hm : MapsCategories householdId proposed categories categoryIds)
    (h : categoryIds.lookup key = some categoryId) :
    (householdId, categoryId, key, false) ∈ categories.map BudgetCategoryRow.core := by
  obtain ⟨before, after, hsplit, _⟩ := List.lookup_eq_some_iff.1 h
  exact hm.cores (key, categoryId) (by simp [hsplit])

theorem MapsCategories.exists_lookup (hm : MapsCategories householdId proposed categories categoryIds) :
    (∃ categoryId, categoryIds.lookup key = some categoryId) ↔
      key ∈ proposed.map BudgetCategoryProposal.categoryKey := by
  rw [← hm.keys, ← Option.isSome_iff_exists, List.lookup_isSome_iff, List.mem_map]
  refine exists_congr fun entry => and_congr_right fun _ => ?_
  rw [beq_iff_eq]
  exact eq_comm

theorem MapsCategories.lookup_eq_iff (hm : MapsCategories householdId proposed categories categoryIds)
    (h : categoryIds.lookup key = some categoryId) :
    categoryIds.lookup key = categoryIds.lookup other ↔ key = other := by
  constructor
  · intro hsame
    obtain ⟨row, hrow, hcore⟩ := List.mem_map.1 (hm.core h)
    obtain ⟨row', hrow', hcore'⟩ := List.mem_map.1 (hm.core (hsame.symm.trans h))
    simp only [BudgetCategoryRow.core, Prod.mk.injEq] at hcore hcore'
    have heq := hm.table.eq_of_identity hrow hrow' (hcore.2.1.trans hcore'.2.1.symm)
    rw [← hcore.2.2.1, ← hcore'.2.2.1, heq]
  · intro hsame
    rw [hsame]

end Map

/-- The statements after the version, where the statements before it have left the mappings alone. -/
theorem insert_rows_ok_iff (hd : d.BudgetTables) (hrefers : input.Refers d) {d₃ : PlanningDb} {versionId : Nat}
    {categoryIds : CategoryIds} {categories : List BudgetCategoryRow}
    {added : List (HouseholdId × Nat × String × Bool)} (hgained : CategoriesGained d.categories categories added)
    (hm : MapsCategories input.householdId input.categories categories categoryIds)
    (hledger : d₃.toLedgerDb = d.toLedgerDb) (hmappings : d₃.mappings = d.mappings) :
    (∃ d₄, insertAllocations input.householdId versionId categoryIds input.allocations d₃ = .ok d₄ ∧
        ∃ d₅, insertMappings input.householdId categoryIds input.mappings d₄ = .ok d₅) ↔
      (∀ allocation ∈ input.allocations, allocation.Fits ∧
        allocation.categoryKey ∈ input.categories.map BudgetCategoryProposal.categoryKey) ∧
      (∀ mapping ∈ input.mappings, mapping.terms.Ordered ∧
        mapping.categoryKey ∈ input.categories.map BudgetCategoryProposal.categoryKey) ∧ input.Agreeing d := by
  have hcurrencies : ∀ allocation ∈ input.allocations,
      (d₃.currencies.any fun row => row.currencyCode == allocation.amount.currency) = true := by
    rw [hledger]
    exact hrefers.currencies
  have hallocations : (∃ d₄, insertAllocations input.householdId versionId categoryIds input.allocations d₃ = .ok d₄) ↔
      ∀ allocation ∈ input.allocations, allocation.Fits ∧
        allocation.categoryKey ∈ input.categories.map BudgetCategoryProposal.categoryKey := by
    rw [insertAllocations_ok_iff hcurrencies]
    simp only [hm.keys]
  have hrest : ∀ {d₄}, insertAllocations input.householdId versionId categoryIds input.allocations d₃ = .ok d₄ →
      ((∃ d₅, insertMappings input.householdId categoryIds input.mappings d₄ = .ok d₅) ↔
        (∀ mapping ∈ input.mappings, mapping.terms.Ordered ∧
          mapping.categoryKey ∈ input.categories.map BudgetCategoryProposal.categoryKey) ∧ input.Agreeing d) := by
    intro d₄ h₄
    obtain ⟨allocations, rfl, _⟩ := insertAllocations_core h₄
    have haccounts : AccountsExist { d₃ with allocations := d₃.allocations ++ allocations } input.householdId
        input.mappings := by
      intro mapping hmapping
      have haccount := hrefers.accounts mapping hmapping
      rw [← hledger] at haccount
      exact haccount
    have hapart : MappingsApart ({ d₃ with allocations := d₃.allocations ++ allocations } : PlanningDb).mappings :=
      hmappings ▸ hd.mappings
    rw [insertMappings_ok_iff hapart haccounts]
    have hrows : ({ d₃ with allocations := d₃.allocations ++ allocations } : PlanningDb).mappings = d.mappings :=
      hmappings
    rw [hrows]
    constructor
    · rintro ⟨hall, hpairs⟩
      have hkey : ∀ mapping ∈ input.mappings, ∃ categoryId,
          categoryIds.lookup mapping.categoryKey = some categoryId := by
        intro mapping hmapping
        obtain ⟨_, categoryId, hlookup, _⟩ := hall mapping hmapping
        exact ⟨categoryId, hlookup⟩
      refine ⟨?_, ?_, ?_⟩
      · intro mapping hmapping
        exact ⟨(hall mapping hmapping).1, hm.exists_lookup.1 (hkey mapping hmapping)⟩
      · intro mapping hmapping
        obtain ⟨_, categoryId, hlookup, hagree⟩ := hall mapping hmapping
        exact (mapping_agrees_iff hd hgained (hm.core hlookup)).1 hagree
      · refine hpairs.imp_of_mem ?_
        intro mapping other hmapping _ hpair hsame
        obtain ⟨categoryId, hlookup⟩ := hkey mapping hmapping
        exact hpair ((hm.lookup_eq_iff hlookup).2 hsame)
    · rintro ⟨hall, hagreeing⟩
      constructor
      · intro mapping hmapping
        obtain ⟨hordered, hkey⟩ := hall mapping hmapping
        obtain ⟨categoryId, hlookup⟩ := hm.exists_lookup.2 hkey
        exact ⟨hordered, categoryId, hlookup, (mapping_agrees_iff hd hgained (hm.core hlookup)).2
          (hagreeing.stored mapping hmapping)⟩
      · refine hagreeing.proposed.imp_of_mem ?_
        intro mapping other hmapping _ hpair hsame
        obtain ⟨categoryId, hlookup⟩ := hm.exists_lookup.2 (hall mapping hmapping).2
        exact hpair ((hm.lookup_eq_iff hlookup).1 hsame)
  constructor
  · rintro ⟨d₄, h₄, h₅⟩
    exact ⟨hallocations.1 ⟨d₄, h₄⟩, (hrest h₄).1 h₅⟩
  · rintro ⟨hall, hmapped⟩
    obtain ⟨d₄, h₄⟩ := hallocations.2 hall
    exact ⟨d₄, h₄, (hrest h₄).2 hmapped⟩

theorem upsertCategories_maps {d₁ d₂ : PlanningDb} {categoryIds : CategoryIds} (ht : CategoryTable d₁.categories)
    (h : upsertCategories input.householdId input.categories [] d₁ = .ok (categoryIds, d₂)) :
    ∃ categories added, d₂ = { d₁ with categories } ∧ CategoriesGained d₁.categories categories added ∧
      MapsCategories input.householdId input.categories categories categoryIds := by
  obtain ⟨categories, added, hrows, hgained, hids, hkeys⟩ := upsertCategories_core ht (by simp) h
  exact ⟨categories, added, hrows, hgained, hgained.table, hids, by simp [hkeys]⟩

/-- An activation succeeds exactly when the constraints admit the proposal and its mappings agree with
those that are there, whatever versions there are. -/
theorem activateVersion_ok_iff (hd : d.BudgetTables) (hrefers : input.Refers d) :
    (∃ result, activateVersion d input = .ok result) ↔ input.Admissible ∧ input.Agreeing d := by
  constructor
  · rintro ⟨result, h⟩
    rw [activateVersion, require_bind_eq_ok] at h
    obtain ⟨_, h⟩ := h
    obtain ⟨⟨scopeId, d₁⟩, h₁, h⟩ := bind_eq_ok.1 h
    obtain ⟨⟨categoryIds, d₂⟩, h₂, h⟩ := bind_eq_ok.1 h
    obtain ⟨⟨versionId, d₃⟩, h₃, h⟩ := bind_eq_ok.1 h
    obtain ⟨d₄, h₄, h⟩ := bind_eq_ok.1 h
    obtain ⟨d₅, h₅, _⟩ := bind_eq_ok.1 h
    have hscopeKey := upsertScope_ok_iff.1 ⟨_, h₁⟩
    have hcategories := upsertCategories_ok_iff.1 ⟨_, h₂⟩
    obtain ⟨hname, hdates⟩ := insertVersion_ok_iff.1 ⟨_, h₃⟩
    obtain ⟨scopes, _, rfl, _⟩ := upsertScope_core h₁
    obtain ⟨categories, added, rfl, hgained, hm⟩ := upsertCategories_maps (by exact hd.categories) h₂
    obtain ⟨version, rfl, _⟩ := insertVersion_core h₃
    obtain ⟨hallocations, hmappings, hagreeing⟩ :=
      (insert_rows_ok_iff hd hrefers hgained hm (by rfl) (by rfl)).1 ⟨d₄, h₄, d₅, h₅⟩
    exact ⟨⟨hscopeKey, hname, hdates, hcategories, hallocations, hmappings⟩, hagreeing⟩
  · rintro ⟨hadmissible, hagreeing⟩
    have hscope : ∃ result, upsertScope d input.householdId input.scopeKey = .ok result :=
      upsertScope_ok_iff.2 hadmissible.scopeKey
    obtain ⟨⟨scopeId, d₁⟩, h₁⟩ := hscope
    have hcategories : ∃ result, upsertCategories input.householdId input.categories [] d₁ = .ok result :=
      upsertCategories_ok_iff.2 hadmissible.categories
    obtain ⟨⟨categoryIds, d₂⟩, h₂⟩ := hcategories
    have hversion : ∃ result, insertVersion d₂ input scopeId = .ok result :=
      insertVersion_ok_iff.2 ⟨hadmissible.name, hadmissible.dates⟩
    obtain ⟨⟨versionId, d₃⟩, h₃⟩ := hversion
    obtain ⟨scopes, _, rfl, _⟩ := upsertScope_core h₁
    obtain ⟨categories, added, rfl, hgained, hm⟩ := upsertCategories_maps (by exact hd.categories) h₂
    obtain ⟨version, hrows, _⟩ := insertVersion_core h₃
    have hrest : ∃ d₄, insertAllocations input.householdId versionId categoryIds input.allocations d₃ = .ok d₄ ∧
        ∃ d₅, insertMappings input.householdId categoryIds input.mappings d₄ = .ok d₅ := by
      refine (insert_rows_ok_iff hd hrefers hgained hm ?_ ?_).2
        ⟨hadmissible.allocations, hadmissible.mappings, hagreeing⟩
      · rw [hrows]
      · rw [hrows]
    obtain ⟨d₄, h₄, d₅, h₅⟩ := hrest
    have hhousehold : require (d.findHousehold input.householdId).isSome (Thrown.error "Household was not found") =
        .ok () := require_eq_ok.2 hrefers.household
    rw [activateVersion]
    exact exists_bind_eq_ok.2 ⟨(), hhousehold, exists_bind_eq_ok.2 ⟨_, h₁, exists_bind_eq_ok.2 ⟨_, h₂,
      exists_bind_eq_ok.2 ⟨_, h₃, exists_bind_eq_ok.2 ⟨_, h₄, exists_bind_eq_ok.2 ⟨_, h₅, _, rfl⟩⟩⟩⟩⟩⟩

theorem toDigits_head {n : Nat} (h : 0 < n) : ∃ first rest, Nat.toDigits 10 n = first :: rest ∧ first ≠ '0' := by
  induction n using Nat.strongRecOn with
  | ind n ih =>
    by_cases hlt : n < 10
    · refine ⟨n.digitChar, [], Nat.toDigits_of_lt_base hlt, ?_⟩
      have hdigits : ∀ m < 10, 0 < m → m.digitChar ≠ '0' := by decide
      exact hdigits n hlt h
    · obtain ⟨first, rest, hrest, hfirst⟩ := ih (n / 10) (by omega) (by omega)
      refine ⟨first, rest ++ [(n % 10).digitChar], ?_, hfirst⟩
      rw [Nat.toDigits_of_base_le (by decide) (by omega), hrest, List.cons_append]

theorem isDatabaseId_toString {n : Nat} (h : 0 < n) : isDatabaseId (toString n) = true := by
  obtain ⟨first, rest, hdigits, hfirst⟩ := toDigits_head h
  have hall : ∀ c ∈ first :: rest, c.isDigit = true := by
    rw [← hdigits]
    intro c hc
    exact Nat.isDigit_of_mem_toDigits (by decide) (by decide) hc
  have hlist : (toString n).toList = first :: rest := by
    rw [Nat.toString_eq_ofList_toDigits, String.toList_ofList, hdigits]
  simp only [isDatabaseId, hlist, Bool.and_eq_true, bne_iff_ne, List.all_eq_true]
  exact ⟨⟨hall first (by simp), hfirst⟩, fun c hc => hall c (by simp [hc])⟩

end BudgetRepository

namespace PlanningRecords

variable {F : PlanningFormats} {d d' : PlanningRecords} {context : CheckedCommand}
  {input : ActivateBudgetProposal} {state : PlanningReadback}

theorem activateBudget_core (hd : d.BudgetTables) (h : d.activateBudget F context input = .ok (state, d')) :
    ∃ versionId, BudgetRepository.Activated d.toPlanningDb d'.toPlanningDb versionId ∧ d'.BudgetTables ∧
      d' = { d with toPlanningDb := d'.toPlanningDb, auditRecords := d'.auditRecords } := by
  rw [activateBudget, require_bind_eq_ok] at h
  obtain ⟨_, h⟩ := h
  obtain ⟨⟨versionId, db⟩, hactivate, h⟩ := bind_eq_ok.1 h
  obtain ⟨hactivated, htables⟩ := BudgetRepository.activateVersion_core hd hactivate
  have hrest := recorded_rest h
  generalize d'.auditRecords = auditRecords at hrest
  subst hrest
  exact ⟨versionId, hactivated, htables, rfl⟩

/-- The whole command succeeds where its statements do. -/
theorem activateBudget_ok_iff (hd : d.BudgetTables) (hvalid : input.valid = true)
    (hrefers : input.Refers d.toPlanningDb) :
    (∃ state d', d.activateBudget F context input = .ok (state, d')) ↔
      input.Admissible ∧ input.Agreeing d.toPlanningDb := by
  rw [← BudgetRepository.activateVersion_ok_iff hd hrefers]
  constructor
  · rintro ⟨state, d', h⟩
    rw [activateBudget, require_bind_eq_ok] at h
    obtain ⟨result, hresult, _⟩ := bind_eq_ok.1 h.2
    exact ⟨result, hresult⟩
  · rintro ⟨⟨versionId, db⟩, hresult⟩
    have hversion := (BudgetRepository.activateVersion_core hd hresult).1.positive
    have htype : decide (1 ≤ Json.utf16Length PlanningRecordType.budget_version.text) = true := by decide +kernel
    have hstate : ({ householdId := input.householdId, recordType := PlanningRecordType.budget_version.text
                     recordId := toString versionId
                     auditRecordId := toString (nextIdentity (d.auditRecords.map DomainAuditRow.auditRecordId))
                     archivedAt := none } : PlanningReadback).valid F = true := by
      simp only [PlanningReadback.valid, Bool.and_eq_true]
      exact ⟨⟨⟨htype, BudgetRepository.isDatabaseId_toString hversion⟩,
        BudgetRepository.isDatabaseId_toString (Nat.succ_pos _)⟩, rfl⟩
    have hrecorded : ∃ state d', recorded F { d with toPlanningDb := db } context input.householdId .budget_version
        versionId "created" (.activate_budget input) none = .ok (state, d') := by
      simp only [recorded, audit, parsePlanningReadback, hstate, if_true]
      exact ⟨_, _, rfl⟩
    obtain ⟨state, d', h⟩ := hrecorded
    refine ⟨state, d', ?_⟩
    rw [activateBudget, require_bind_eq_ok]
    exact ⟨hvalid, bind_eq_ok.2 ⟨(versionId, db), hresult, h⟩⟩

end PlanningRecords

end PlusOne
