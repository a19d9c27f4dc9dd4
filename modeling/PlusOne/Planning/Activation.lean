import PlusOne.Planning.UpsertRuns

/-! # When a budget can be activated

The statements of `BudgetRepository.activate` one by one: what each of them asks of the proposal and
of the tables, and what it appends. -/

namespace PlusOne

open Numeric Relational

/-! ## Categories -/

/-- The category but for its name, which an activation may change. -/
def BudgetCategoryRow.core (row : BudgetCategoryRow) : HouseholdId × Nat × String × Bool :=
  (row.householdId, row.categoryId, row.categoryKey, row.archived)

def BudgetScopeRow.core (row : BudgetScopeRow) : HouseholdId × Nat × String × Bool :=
  (row.householdId, row.scopeId, row.scopeKey, row.archived)

def BudgetCategoryRow.activeKey (row : BudgetCategoryRow) : Option (HouseholdId × String) :=
  if row.archived then none else some (row.householdId, row.categoryKey)

abbrev CategoryTable : List BudgetCategoryRow → Prop :=
  ActiveTable BudgetCategoryRow.categoryId BudgetCategoryRow.activeKey

/-- The column takes the amount, which is not negative, and the period does not end before it starts. -/
def BudgetAllocationProposal.Fits (allocation : BudgetAllocationProposal) : Prop :=
  ∃ amount : DecimalAmount, Fixed.store allocation.amount.amount = some amount ∧ 0 ≤ amount.units ∧
    allocation.periodStart ≤ allocation.periodEnd

namespace BudgetRepository

variable {d d' : PlanningDb} {householdId : HouseholdId}

theorem exists_bind_eq_ok {ε α β : Type} {x : Except ε α} {f : α → Except ε β} :
    (∃ b, (x >>= f) = .ok b) ↔ ∃ a, x = .ok a ∧ ∃ b, f a = .ok b := by
  simp only [bind_eq_ok]
  exact ⟨fun ⟨b, a, ha, hb⟩ => ⟨a, ha, b, hb⟩, fun ⟨a, ha, b, hb⟩ => ⟨b, a, ha, hb⟩⟩

theorem upsertScope_ok_iff {scopeKey : String} :
    (∃ result, upsertScope d householdId scopeKey = .ok result) ↔ isNotBlank scopeKey = true := by
  simp only [upsertScope, require_bind_eq_ok]
  constructor
  · intro h
    obtain ⟨_, hkey, _⟩ := h
    exact hkey
  · intro hkey
    split
    · exact ⟨_, hkey, rfl⟩
    · exact ⟨_, hkey, rfl⟩

/-- A scope is renamed or appended. -/
theorem upsertScope_core {scopeKey : String} {scopeId : Nat}
    (h : upsertScope d householdId scopeKey = .ok (scopeId, d')) :
    ∃ scopes added, d' = { d with scopes } ∧
      scopes.map BudgetScopeRow.core = d.scopes.map BudgetScopeRow.core ++ added ∧
      ∃ key archived, (householdId, scopeId, key, archived) ∈ scopes.map BudgetScopeRow.core := by
  rw [upsertScope, require_bind_eq_ok] at h
  obtain ⟨_, h⟩ := h
  split at h
  case h_1 scope hfind =>
    have hmatch := List.find?_some hfind
    simp only [Bool.and_eq_true, beq_iff_eq] at hmatch
    have hcore : (d.scopes.map fun row => if row.scopeId = scope.scopeId then { row with name := scopeKey }
        else row).map BudgetScopeRow.core = d.scopes.map BudgetScopeRow.core := by
      rw [List.map_map]
      refine List.map_congr_left fun row _ => ?_
      simp only [Function.comp]
      split
      · rfl
      · rfl
    cases h
    refine ⟨_, [], rfl, by rw [hcore, List.append_nil], scope.scopeKey, scope.archived, ?_⟩
    rw [hcore, ← hmatch.1.1]
    exact List.mem_map_of_mem (f := BudgetScopeRow.core) (List.mem_of_find?_eq_some hfind)
  case h_2 =>
    cases h
    exact ⟨_, [_], rfl, List.map_append, scopeKey, false, by simp [BudgetScopeRow.core]⟩

def categoryWrite (rows : List BudgetCategoryRow) (householdId : HouseholdId) (category : BudgetCategoryProposal) :
    IdentityWrite BudgetCategoryRow.categoryId BudgetCategoryRow.activeKey rows where
  under := (householdId, category.categoryKey)
  update row := { row with name := category.name }
  new :=
    { categoryId := nextIdentity (rows.map BudgetCategoryRow.categoryId), householdId
      categoryKey := category.categoryKey, name := category.name, archived := false }
  updated _ h := h
  inserted := rfl
  keepsIdentity _ := rfl
  newIdentity := rfl

theorem category_activeKey_iff {row : BudgetCategoryRow} {key : String} :
    row.activeKey = some (householdId, key) ↔
      (row.householdId == householdId && row.categoryKey == key && !row.archived) = true := by
  unfold BudgetCategoryRow.activeKey
  cases row.archived <;> simp

/-- The rows a table of categories has gained, with identities of their own. -/
structure CategoriesGained (before after : List BudgetCategoryRow)
    (added : List (HouseholdId × Nat × String × Bool)) : Prop where
  table : CategoryTable after
  core : after.map BudgetCategoryRow.core = before.map BudgetCategoryRow.core ++ added
  fresh : ∀ row ∈ added, row.2.1 ∉ before.map BudgetCategoryRow.categoryId

theorem CategoriesGained.identities {before after : List BudgetCategoryRow}
    {added : List (HouseholdId × Nat × String × Bool)} (h : CategoriesGained before after added) :
    after.map BudgetCategoryRow.categoryId = before.map BudgetCategoryRow.categoryId ++ added.map fun row => row.2.1 := by
  have hmap := congrArg (List.map fun core : HouseholdId × Nat × String × Bool => core.2.1) h.core
  simpa [BudgetCategoryRow.core, Function.comp_def] using hmap

theorem CategoriesGained.trans {before middle after : List BudgetCategoryRow}
    {added added' : List (HouseholdId × Nat × String × Bool)} (h : CategoriesGained before middle added)
    (h' : CategoriesGained middle after added') : CategoriesGained before after (added ++ added') where
  table := h'.table
  core := by rw [h'.core, h.core, List.append_assoc]
  fresh := by
    intro row hrow hmem
    rcases List.mem_append.1 hrow with hrow | hrow
    · exact h.fresh row hrow hmem
    · refine h'.fresh row hrow ?_
      rw [h.identities]
      exact List.mem_append_left _ hmem

theorem upsertCategory_core {category : BudgetCategoryProposal} {categoryId : Nat} (ht : CategoryTable d.categories)
    (h : upsertCategory d householdId category = .ok (categoryId, d')) :
    ∃ categories added, d' = { d with categories } ∧ CategoriesGained d.categories categories added ∧
      (householdId, categoryId, category.categoryKey, false) ∈ categories.map BudgetCategoryRow.core := by
  rw [upsertCategory, require_bind_eq_ok, require_bind_eq_ok] at h
  obtain ⟨_, _, h⟩ := h
  obtain ⟨row, hrow⟩ := ht.apply_written (categoryWrite d.categories householdId category)
  have hwritten := category_activeKey_iff.1 hrow.wrote.under
  simp only [Bool.and_eq_true, beq_iff_eq, Bool.not_eq_true'] at hwritten
  have hcore : row.core = (householdId, row.categoryId, category.categoryKey, false) := by
    rw [BudgetCategoryRow.core, hwritten.1.1, hwritten.1.2, hwritten.2]
  have hmem : (householdId, row.categoryId, category.categoryKey, false) ∈
      ((categoryWrite d.categories householdId category).apply d.categories).map BudgetCategoryRow.core := by
    rw [← hcore]
    exact List.mem_map_of_mem hrow.mem
  split at h
  case h_1 old hfind =>
    obtain ⟨hid, happly⟩ := hrow.of_found ht (fun _ => category_activeKey_iff) hfind
    cases h
    refine ⟨_, [], rfl, ⟨happly ▸ ht.apply _, ?_, by simp⟩, ?_⟩
    · rw [List.append_nil, List.map_map]
      refine List.map_congr_left fun row _ => ?_
      simp only [Function.comp]
      split
      · rfl
      · rfl
    · rw [happly, hid] at hmem
      exact hmem
  case h_2 hfind =>
    obtain ⟨hnew, happly⟩ := hrow.of_missing (fun _ => category_activeKey_iff) hfind
    cases h
    refine ⟨_, [_], rfl, ⟨happly ▸ ht.apply _, List.map_append, ?_⟩, ?_⟩
    · intro core hcoreMem hidMem
      rw [List.mem_singleton.1 hcoreMem] at hidMem
      exact Nat.lt_irrefl _ (lt_nextIdentity hidMem)
    · rw [happly, hnew] at hmem
      exact hmem

theorem upsertCategory_ok_iff {category : BudgetCategoryProposal} :
    (∃ result, upsertCategory d householdId category = .ok result) ↔
      isNotBlank category.categoryKey = true ∧ isNotBlank category.name = true := by
  simp only [upsertCategory, require_bind_eq_ok]
  constructor
  · intro h
    obtain ⟨_, hkey, hname, _⟩ := h
    exact ⟨hkey, hname⟩
  · rintro ⟨hkey, hname⟩
    split
    · exact ⟨_, hkey, hname, rfl⟩
    · exact ⟨_, hkey, hname, rfl⟩

theorem upsertCategories_core {categories : List BudgetCategoryProposal} {known categoryIds : CategoryIds}
    (ht : CategoryTable d.categories)
    (hknown : ∀ entry ∈ known, (householdId, entry.2, entry.1, false) ∈ d.categories.map BudgetCategoryRow.core)
    (h : upsertCategories householdId categories known d = .ok (categoryIds, d')) :
    ∃ rows added, d' = { d with categories := rows } ∧ CategoriesGained d.categories rows added ∧
      (∀ entry ∈ categoryIds, (householdId, entry.2, entry.1, false) ∈ rows.map BudgetCategoryRow.core) ∧
      categoryIds.map Prod.fst = (categories.map BudgetCategoryProposal.categoryKey).reverse ++ known.map Prod.fst := by
  induction categories generalizing known d with
  | nil =>
    cases h
    exact ⟨_, [], rfl, ⟨ht, by simp, by simp⟩, hknown, by simp⟩
  | cons category rest ih =>
    obtain ⟨⟨categoryId, d₁⟩, h₁, h⟩ := bind_eq_ok.1 h
    obtain ⟨rows, added, rfl, hgained, hmem⟩ := upsertCategory_core ht h₁
    have hknown₁ : ∀ entry ∈ (category.categoryKey, categoryId) :: known,
        (householdId, entry.2, entry.1, false) ∈ rows.map BudgetCategoryRow.core := by
      intro entry hentry
      rcases List.mem_cons.1 hentry with rfl | hentry
      · exact hmem
      · rw [hgained.core]
        exact List.mem_append_left _ (hknown entry hentry)
    obtain ⟨rows', added', rfl, hgained', hids, hkeys⟩ := ih (d := { d with categories := rows }) hgained.table hknown₁ h
    exact ⟨rows', added ++ added', rfl, hgained.trans hgained', hids, by simp [hkeys]⟩

theorem upsertCategories_ok_iff {categories : List BudgetCategoryProposal} {known : CategoryIds} :
    (∃ result, upsertCategories householdId categories known d = .ok result) ↔
      ∀ category ∈ categories, isNotBlank category.categoryKey = true ∧ isNotBlank category.name = true := by
  induction categories generalizing known d with
  | nil => simp [upsertCategories]
  | cons category rest ih =>
    have hfirst : (∃ result, upsertCategory d householdId category = .ok result) ↔
        isNotBlank category.categoryKey = true ∧ isNotBlank category.name = true := upsertCategory_ok_iff
    rw [upsertCategories, exists_bind_eq_ok, List.forall_mem_cons, ← hfirst]
    constructor
    · intro h
      obtain ⟨⟨categoryId, d₁⟩, h₁, hrest⟩ := h
      exact ⟨⟨_, h₁⟩, ih.1 hrest⟩
    · rintro ⟨⟨⟨categoryId, d₁⟩, h₁⟩, hrest⟩
      exact ⟨(categoryId, d₁), h₁, ih.2 hrest⟩

/-! ## The version and its allocations -/

theorem insertVersion_ok_iff {input : ActivateBudgetProposal} {scopeId : Nat} :
    (∃ result, insertVersion d input scopeId = .ok result) ↔ isNotBlank input.name = true ∧
      (input.validTo.all fun validTo => decide (input.validFrom ≤ validTo)) = true := by
  simp only [insertVersion, require_bind_eq_ok]
  constructor
  · intro h
    obtain ⟨_, hname, hdates, _⟩ := h
    exact ⟨hname, hdates⟩
  · rintro ⟨hname, hdates⟩
    exact ⟨_, hname, hdates, rfl⟩

theorem insertVersion_core {input : ActivateBudgetProposal} {scopeId versionId : Nat}
    (h : insertVersion d input scopeId = .ok (versionId, d')) :
    ∃ version : BudgetVersionRow, d' = { d with versions := d.versions ++ [version] } ∧
      version.versionId = versionId ∧ version.householdId = input.householdId ∧ version.scopeId = scopeId ∧
      versionId = nextIdentity (d.versions.map BudgetVersionRow.versionId) := by
  rw [insertVersion, require_bind_eq_ok, require_bind_eq_ok] at h
  obtain ⟨_, _, h⟩ := h
  cases h
  exact ⟨_, rfl, rfl, rfl, rfl, rfl⟩

variable {categoryIds : CategoryIds} {versionId : Nat}

theorem insertAllocation_ok_iff {allocation : BudgetAllocationProposal}
    (hcurrency : (d.currencies.any fun row => row.currencyCode == allocation.amount.currency) = true) :
    (∃ d', insertAllocation d householdId versionId categoryIds allocation = .ok d') ↔
      allocation.Fits ∧ allocation.categoryKey ∈ categoryIds.map Prod.fst := by
  rw [insertAllocation, exists_bind_eq_ok]
  constructor
  · intro h
    obtain ⟨amount, hstored, d', h⟩ := h
    split at h
    case h_2 => cases h
    case h_1 categoryId hlookup =>
      rw [require_bind_eq_ok, require_bind_eq_ok] at h
      obtain ⟨hamount, hdates, _⟩ := h
      have hkey : (categoryIds.lookup allocation.categoryKey).isSome = true := by simp [hlookup]
      rw [List.lookup_isSome_iff] at hkey
      obtain ⟨entry, hentry, hsame⟩ := hkey
      refine ⟨⟨amount, stored_eq_ok.1 hstored, of_decide_eq_true hamount, of_decide_eq_true hdates⟩, ?_⟩
      exact beq_iff_eq.1 hsame ▸ List.mem_map_of_mem hentry
  · rintro ⟨⟨amount, hstored, hamount, hdates⟩, hkey⟩
    obtain ⟨entry, hentry, hsame⟩ := List.mem_map.1 hkey
    have hlookup : (categoryIds.lookup allocation.categoryKey).isSome = true := by
      rw [List.lookup_isSome_iff]
      exact ⟨entry, hentry, beq_iff_eq.2 hsame.symm⟩
    obtain ⟨categoryId, hlookup⟩ := Option.isSome_iff_exists.1 hlookup
    refine ⟨amount, stored_eq_ok.2 hstored, ?_⟩
    rw [hlookup]
    simp only [require_bind_eq_ok]
    exact ⟨_, decide_eq_true hamount, decide_eq_true hdates, hcurrency, rfl⟩

theorem insertAllocation_core {allocation : BudgetAllocationProposal}
    (h : insertAllocation d householdId versionId categoryIds allocation = .ok d') :
    ∃ row : BudgetAllocationRow, d' = { d with allocations := d.allocations ++ [row] } ∧
      row.versionId = versionId ∧ row.categoryId ∈ categoryIds.map Prod.snd ∧ row.householdId = householdId := by
  obtain ⟨amount, _, h⟩ := bind_eq_ok.1 h
  split at h
  case h_2 => cases h
  case h_1 categoryId hlookup =>
    rw [require_bind_eq_ok, require_bind_eq_ok, require_bind_eq_ok] at h
    obtain ⟨_, _, _, h⟩ := h
    cases h
    obtain ⟨before, after, hsplit, _⟩ := List.lookup_eq_some_iff.1 hlookup
    exact ⟨_, rfl, rfl, by simp [hsplit], rfl⟩

theorem insertAllocations_ok_iff {allocations : List BudgetAllocationProposal}
    (hcurrencies : ∀ allocation ∈ allocations,
      (d.currencies.any fun row => row.currencyCode == allocation.amount.currency) = true) :
    (∃ d', insertAllocations householdId versionId categoryIds allocations d = .ok d') ↔
      ∀ allocation ∈ allocations, allocation.Fits ∧ allocation.categoryKey ∈ categoryIds.map Prod.fst := by
  induction allocations generalizing d with
  | nil => simp [insertAllocations]
  | cons allocation rest ih =>
    have hrest : ∀ {d₁}, insertAllocation d householdId versionId categoryIds allocation = .ok d₁ →
        ∀ other ∈ rest, (d₁.currencies.any fun row => row.currencyCode == other.amount.currency) = true := by
      intro d₁ h₁ other hother
      obtain ⟨row, rfl, _⟩ := insertAllocation_core h₁
      exact hcurrencies other (by simp [hother])
    have hfirst : (∃ d₁, insertAllocation d householdId versionId categoryIds allocation = .ok d₁) ↔
        allocation.Fits ∧ allocation.categoryKey ∈ categoryIds.map Prod.fst :=
      insertAllocation_ok_iff (hcurrencies allocation (by simp))
    rw [insertAllocations, exists_bind_eq_ok, List.forall_mem_cons, ← hfirst]
    constructor
    · intro h
      obtain ⟨d₁, h₁, h⟩ := h
      exact ⟨⟨d₁, h₁⟩, (ih (hrest h₁)).1 h⟩
    · rintro ⟨⟨d₁, h₁⟩, h⟩
      exact ⟨d₁, h₁, (ih (hrest h₁)).2 h⟩

theorem insertAllocations_core {allocations : List BudgetAllocationProposal}
    (h : insertAllocations householdId versionId categoryIds allocations d = .ok d') :
    ∃ added : List BudgetAllocationRow, d' = { d with allocations := d.allocations ++ added } ∧
      ∀ row ∈ added, row.versionId = versionId ∧ row.categoryId ∈ categoryIds.map Prod.snd ∧
        row.householdId = householdId := by
  induction allocations generalizing d with
  | nil =>
    cases h
    exact ⟨[], by simp, by simp⟩
  | cons allocation rest ih =>
    obtain ⟨d₁, h₁, h⟩ := bind_eq_ok.1 h
    obtain ⟨row, rfl, hrow⟩ := insertAllocation_core h₁
    obtain ⟨added, rfl, hadded⟩ := ih h
    exact ⟨row :: added, by simp, List.forall_mem_cons.2 ⟨hrow, hadded⟩⟩

/-! ## Mappings -/

end BudgetRepository

/-- What a mapping says of its account and its category. -/
abbrev MappingTerms := MappingDirection × LocalDate × Option LocalDate

def BudgetMappingProposal.terms (mapping : BudgetMappingProposal) : MappingTerms :=
  (mapping.direction, mapping.validFrom, mapping.validTo)

def BudgetMappingRow.terms (row : BudgetMappingRow) : MappingTerms := (row.direction, row.validFrom, row.validTo)

namespace MappingTerms

def Ordered (terms : MappingTerms) : Prop := ∀ validTo, terms.2.2 = some validTo → terms.2.1 ≤ validTo

/-- A day is in both ranges. -/
def Overlap (terms other : MappingTerms) : Prop :=
  BudgetRepository.overlap terms.2.1 terms.2.2 other.2.1 other.2.2 = true

instance (terms other : MappingTerms) : Decidable (terms.Overlap other) :=
  inferInstanceAs (Decidable (_ = true))

/-- Two mappings of one account to one category can both be there: they are one mapping, or have no day
in common. -/
def Agree (terms other : MappingTerms) : Prop := terms = other ∨ ¬terms.Overlap other

theorem Overlap.symm {terms other : MappingTerms} (h : terms.Overlap other) : other.Overlap terms := by
  unfold Overlap BudgetRepository.overlap at h ⊢
  rw [Bool.and_comm]
  exact h

end MappingTerms

/-- The row is an active mapping of the account to the category. -/
def BudgetMappingRow.Maps (row : BudgetMappingRow) (householdId : HouseholdId) (categoryId : Nat)
    (accountId : AccountId) : Prop :=
  row.householdId = householdId ∧ row.categoryId = categoryId ∧ row.accountId = accountId ∧ row.archived = false

/-- Two active mappings of one account to one category have no day in common. -/
def BudgetMappingRow.Apart (row other : BudgetMappingRow) : Prop :=
  ∀ householdId categoryId accountId, row.Maps householdId categoryId accountId →
    other.Maps householdId categoryId accountId → ¬row.terms.Overlap other.terms

instance : Std.Symm BudgetMappingRow.Apart where
  symm _ _ h _ _ _ hrow hother hoverlap := h _ _ _ hother hrow hoverlap.symm

/-- What the trigger and the constraints keep. -/
structure MappingsApart (rows : List BudgetMappingRow) : Prop where
  ordered : ∀ row ∈ rows, row.terms.Ordered
  apart : rows.Pairwise BudgetMappingRow.Apart

theorem MappingsApart.agree_of_same {rows : List BudgetMappingRow} (hapart : MappingsApart rows)
    {row other : BudgetMappingRow} {householdId : HouseholdId} {categoryId : Nat} {accountId : AccountId} (hrow : row ∈ rows) (hother : other ∈ rows)
    (hmaps : row.Maps householdId categoryId accountId) (hmaps' : other.Maps householdId categoryId accountId) :
    other.terms.Agree row.terms := by
  by_cases heq : row = other
  · exact .inl (by rw [heq])
  · have hnot := hapart.apart.forall hrow hother heq _ _ _ hmaps hmaps'
    exact .inr fun hoverlap => hnot hoverlap.symm

namespace BudgetRepository

def mappingRow (householdId : HouseholdId) (categoryId : Nat) (mapping : BudgetMappingProposal) :
    BudgetMappingRow :=
  { householdId, categoryId, accountId := mapping.accountId, direction := mapping.direction
    validFrom := mapping.validFrom, validTo := mapping.validTo, archived := false }

variable {categoryIds : CategoryIds} {mapping : BudgetMappingProposal} {categoryId : Nat}

theorem maps_iff {row : BudgetMappingRow} {accountId : AccountId} :
    (row.householdId == householdId && some row.categoryId == some categoryId && row.accountId == accountId &&
        !row.archived) = true ↔ row.Maps householdId categoryId accountId := by
  simp [BudgetMappingRow.Maps, and_assoc]

theorem same_terms_iff {row : BudgetMappingRow} : (row.direction == mapping.direction &&
    row.validFrom == mapping.validFrom && row.validTo == mapping.validTo) = true ↔ row.terms = mapping.terms := by
  simp [BudgetMappingRow.terms, BudgetMappingProposal.terms, and_assoc]

/-- What the statement appends, if anything. -/
theorem insertMapping_eq (hlookup : categoryIds.lookup mapping.categoryKey = some categoryId) :
    insertMapping d householdId categoryIds mapping = .ok d' ↔
      (∃ row ∈ d.mappings, row.Maps householdId categoryId mapping.accountId ∧ row.terms = mapping.terms) ∧ d' = d ∨
      (¬∃ row ∈ d.mappings, row.Maps householdId categoryId mapping.accountId ∧ row.terms = mapping.terms) ∧
        mapping.terms.Ordered ∧
        (∀ row ∈ d.mappings, row.Maps householdId categoryId mapping.accountId → ¬row.terms.Overlap mapping.terms) ∧
        (d.accounts.any fun account => account.householdId == householdId &&
          account.accountId == mapping.accountId) = true ∧
        d' = { d with mappings := d.mappings ++ [mappingRow householdId categoryId mapping] } := by
  have hsame : ((d.mappings.filter fun row => row.householdId == householdId &&
      some row.categoryId == categoryIds.lookup mapping.categoryKey && row.accountId == mapping.accountId &&
        !row.archived).any fun row => row.direction == mapping.direction && row.validFrom == mapping.validFrom &&
      row.validTo == mapping.validTo) = true ↔
      ∃ row ∈ d.mappings, row.Maps householdId categoryId mapping.accountId ∧ row.terms = mapping.terms := by
    rw [hlookup, List.any_eq_true]
    simp only [List.mem_filter, maps_iff, same_terms_iff, and_assoc]
  have hordered : (mapping.validTo.all fun validTo => decide (mapping.validFrom ≤ validTo)) = true ↔
      mapping.terms.Ordered := by
    simp [MappingTerms.Ordered, BudgetMappingProposal.terms, Option.all_eq_true]
  have hoverlap : (!((d.mappings.filter fun row => row.householdId == householdId &&
      some row.categoryId == categoryIds.lookup mapping.categoryKey && row.accountId == mapping.accountId &&
        !row.archived).any fun row => overlap row.validFrom row.validTo mapping.validFrom mapping.validTo)) = true ↔
      ∀ row ∈ d.mappings, row.Maps householdId categoryId mapping.accountId → ¬row.terms.Overlap mapping.terms := by
    rw [hlookup, Bool.not_eq_true', List.any_eq_false]
    simp only [List.mem_filter, maps_iff, and_imp]
    rfl
  by_cases hthere : ∃ row ∈ d.mappings, row.Maps householdId categoryId mapping.accountId ∧ row.terms = mapping.terms
  · rw [insertMapping, if_pos (hsame.2 hthere)]
    constructor
    · intro h
      cases h
      exact .inl ⟨hthere, rfl⟩
    · intro h
      rcases h with ⟨_, rfl⟩ | ⟨hnot, _⟩
      · rfl
      · exact absurd hthere hnot
  · rw [insertMapping, if_neg fun h => hthere (hsame.1 h), require_bind_eq_ok, require_bind_eq_ok, hordered,
      hoverlap, hlookup]
    simp only [require_bind_eq_ok]
    constructor
    · rintro ⟨hord, hapart, haccount, h⟩
      cases h
      exact .inr ⟨hthere, hord, hapart, haccount, rfl⟩
    · intro h
      rcases h with ⟨hexists, _⟩ | ⟨_, hord, hapart, haccount, rfl⟩
      · exact absurd hexists hthere
      · exact ⟨hord, hapart, haccount, rfl⟩

/-- A mapping of an account of the household can be there exactly when its dates are in order and it
agrees with every active mapping of the account to its category. -/
theorem insertMapping_ok_iff (hapart : MappingsApart d.mappings)
    (hlookup : categoryIds.lookup mapping.categoryKey = some categoryId)
    (haccount : (d.accounts.any fun account => account.householdId == householdId &&
      account.accountId == mapping.accountId) = true) :
    (∃ d', insertMapping d householdId categoryIds mapping = .ok d') ↔ mapping.terms.Ordered ∧
      ∀ row ∈ d.mappings, row.Maps householdId categoryId mapping.accountId → row.terms.Agree mapping.terms := by
  constructor
  · rintro ⟨d', h⟩
    rcases (insertMapping_eq hlookup).1 h with ⟨⟨row, hrow, hmaps, hsame⟩, _⟩ | ⟨_, hordered, hnone, _⟩
    · rw [← hsame]
      exact ⟨hapart.ordered row hrow, fun other hother hmaps' =>
        hapart.agree_of_same hrow hother hmaps hmaps'⟩
    · exact ⟨hordered, fun row hrow hmaps => .inr (hnone row hrow hmaps)⟩
  · rintro ⟨hordered, hagree⟩
    by_cases hthere : ∃ row ∈ d.mappings, row.Maps householdId categoryId mapping.accountId ∧
        row.terms = mapping.terms
    · exact ⟨d, (insertMapping_eq hlookup).2 (.inl ⟨hthere, rfl⟩)⟩
    · refine ⟨_, (insertMapping_eq hlookup).2 (.inr ⟨hthere, hordered, ?_, haccount, rfl⟩)⟩
      intro row hrow hmaps
      rcases hagree row hrow hmaps with hsame | hapart'
      · exact absurd ⟨row, hrow, hmaps, hsame⟩ hthere
      · exact hapart'

theorem mappingRow_maps : (mappingRow householdId categoryId mapping).Maps householdId categoryId mapping.accountId :=
  ⟨rfl, rfl, rfl, rfl⟩

/-- The mapping is there afterwards, and the mappings are as far apart as before. -/
theorem insertMapping_core (hapart : MappingsApart d.mappings)
    (hlookup : categoryIds.lookup mapping.categoryKey = some categoryId)
    (h : insertMapping d householdId categoryIds mapping = .ok d') :
    ∃ added, d' = { d with mappings := d.mappings ++ added } ∧ MappingsApart (d.mappings ++ added) ∧
      (∀ row ∈ added, row = mappingRow householdId categoryId mapping) ∧
      ∃ row ∈ d.mappings ++ added, row.Maps householdId categoryId mapping.accountId ∧
        row.terms = mapping.terms := by
  rcases (insertMapping_eq hlookup).1 h with ⟨⟨row, hrow, hmaps⟩, rfl⟩ | ⟨_, hordered, hnone, _, rfl⟩
  · exact ⟨[], by simp, by simpa using hapart, by simp, row, by simpa using hrow, hmaps⟩
  · refine ⟨[mappingRow householdId categoryId mapping], rfl, ?_, by simp, mappingRow householdId categoryId mapping,
      by simp, mappingRow_maps, rfl⟩
    constructor
    · intro row hrow
      rcases List.mem_append.1 hrow with hrow | hrow
      · exact hapart.ordered row hrow
      · rw [List.mem_singleton.1 hrow]
        exact hordered
    · rw [List.pairwise_append]
      refine ⟨hapart.apart, List.pairwise_singleton _ _, ?_⟩
      intro row hrow other hother household category account hmaps hmaps' hoverlap
      rw [List.mem_singleton.1 hother] at hmaps' hoverlap
      obtain ⟨rfl, rfl, rfl, _⟩ := hmaps'
      exact hnone row hrow hmaps hoverlap

/-- The accounts of the mappings are accounts of the household. -/
def AccountsExist (d : PlanningDb) (householdId : HouseholdId) (mappings : List BudgetMappingProposal) : Prop :=
  ∀ mapping ∈ mappings, (d.accounts.any fun account => account.householdId == householdId &&
    account.accountId == mapping.accountId) = true

/-- A mapping to a category the proposal does not name is refused. -/
theorem insertMapping_known (h : insertMapping d householdId categoryIds mapping = .ok d') :
    ∃ categoryId, categoryIds.lookup mapping.categoryKey = some categoryId := by
  cases hlookup : categoryIds.lookup mapping.categoryKey with
  | some categoryId => exact ⟨categoryId, rfl⟩
  | none =>
    simp only [insertMapping, hlookup] at h
    split at h
    case isTrue hany =>
      obtain ⟨row, hrow, _⟩ := List.any_eq_true.1 hany
      simp at hrow
    case isFalse =>
      simp only [require_bind_eq_ok] at h
      cases h.2.2

/-- The mappings of a list can be there exactly when each has a category and its dates in order, and each
agrees with the active mappings of its account to its category, those before it in the list included. -/
theorem insertMappings_ok_iff {mappings : List BudgetMappingProposal} (hapart : MappingsApart d.mappings)
    (haccounts : AccountsExist d householdId mappings) :
    (∃ d', insertMappings householdId categoryIds mappings d = .ok d') ↔
      (∀ mapping ∈ mappings, mapping.terms.Ordered ∧
        ∃ categoryId, categoryIds.lookup mapping.categoryKey = some categoryId ∧
          ∀ row ∈ d.mappings, row.Maps householdId categoryId mapping.accountId →
            row.terms.Agree mapping.terms) ∧
      mappings.Pairwise fun mapping other =>
        categoryIds.lookup mapping.categoryKey = categoryIds.lookup other.categoryKey →
          mapping.accountId = other.accountId → mapping.terms.Agree other.terms := by
  induction mappings generalizing d with
  | nil => simp [insertMappings]
  | cons mapping rest ih =>
    have haccount := haccounts mapping (by simp)
    have haccounts' : AccountsExist d householdId rest := fun other hother => haccounts other (by simp [hother])
    rw [insertMappings, exists_bind_eq_ok, List.pairwise_cons, List.forall_mem_cons]
    constructor
    · rintro ⟨d₁, h₁, hrest⟩
      obtain ⟨categoryId, hlookup⟩ := insertMapping_known h₁
      obtain ⟨hordered, hagree⟩ := (insertMapping_ok_iff hapart hlookup haccount).1 ⟨d₁, h₁⟩
      obtain ⟨added, rfl, hapart₁, _, row, hrow, hmaps, hterms⟩ := insertMapping_core hapart hlookup h₁
      obtain ⟨hall, hpairs⟩ := (ih (d := { d with mappings := d.mappings ++ added }) hapart₁ haccounts').1 hrest
      refine ⟨⟨⟨hordered, categoryId, hlookup, hagree⟩, ?_⟩, ?_, hpairs⟩
      · intro other hother
        obtain ⟨hordered', categoryId', hlookup', hagree'⟩ := hall other hother
        exact ⟨hordered', categoryId', hlookup', fun row hrow => hagree' row (List.mem_append_left _ hrow)⟩
      · intro other hother hsame haccountSame
        obtain ⟨_, categoryId', hlookup', hagree'⟩ := hall other hother
        obtain rfl : categoryId = categoryId' := Option.some.inj (hlookup.symm.trans (hsame.trans hlookup'))
        rw [← hterms]
        exact hagree' row hrow (haccountSame ▸ hmaps)
    · rintro ⟨⟨⟨hordered, categoryId, hlookup, hagree⟩, hall⟩, hfirst, hpairs⟩
      obtain ⟨d₁, h₁⟩ := (insertMapping_ok_iff hapart hlookup haccount).2 ⟨hordered, hagree⟩
      obtain ⟨added, rfl, hapart₁, hadded, _⟩ := insertMapping_core hapart hlookup h₁
      refine ⟨_, h₁, (ih (d := { d with mappings := d.mappings ++ added }) hapart₁ haccounts').2 ⟨?_, hpairs⟩⟩
      intro other hother
      obtain ⟨hordered', categoryId', hlookup', hagree'⟩ := hall other hother
      refine ⟨hordered', categoryId', hlookup', ?_⟩
      intro row hrow hmaps
      rcases List.mem_append.1 hrow with hrow | hrow
      · exact hagree' row hrow hmaps
      · obtain rfl := hadded row hrow
        obtain ⟨_, hcategory, haccountSame, _⟩ := hmaps
        exact hfirst other hother (by rw [hlookup, hlookup', ← hcategory]; rfl) haccountSame

theorem insertMappings_core {mappings : List BudgetMappingProposal} (hapart : MappingsApart d.mappings)
    (h : insertMappings householdId categoryIds mappings d = .ok d') :
    ∃ added, d' = { d with mappings := d.mappings ++ added } ∧ MappingsApart (d.mappings ++ added) ∧
      ∀ row ∈ added, row.categoryId ∈ categoryIds.map Prod.snd := by
  induction mappings generalizing d with
  | nil =>
    cases h
    exact ⟨[], by simp, by simpa using hapart, by simp⟩
  | cons mapping rest ih =>
    obtain ⟨d₁, h₁, h⟩ := bind_eq_ok.1 h
    obtain ⟨categoryId, hlookup⟩ := insertMapping_known h₁
    obtain ⟨added, rfl, hapart₁, hadded, _⟩ := insertMapping_core hapart hlookup h₁
    obtain ⟨added', rfl, hapart', hadded'⟩ := ih (d := { d with mappings := d.mappings ++ added }) hapart₁ h
    refine ⟨added ++ added', by simp, by simpa using hapart', ?_⟩
    intro row hrow
    rcases List.mem_append.1 hrow with hrow | hrow
    · obtain rfl := hadded row hrow
      obtain ⟨before, after, hsplit, _⟩ := List.lookup_eq_some_iff.1 hlookup
      simp [hsplit, mappingRow]
    · exact hadded' row hrow

end BudgetRepository

end PlusOne
