import Mathlib.Data.List.Dedup
import PlusOne.Planning.Budgets
import PlusOne.Relational.Joins
import PlusOne.Reporting.Rebuild

/-! # Budgets beside what was spent

The view `reporting.budget_variance` sums the postings of the accounts mapped to the category of an
allocation. It takes a mapping that is valid on any day of the period of the allocation, and joins it
with all the postings of that period. -/

namespace PlusOne

open Numeric Relational

/-- What the view groups by. -/
structure BudgetVarianceKey where
  householdId : HouseholdId
  scopeKey : String
  categoryKey : String
  periodStart : LocalDate
  periodEnd : LocalDate
  plannedAmount : DecimalAmount
  plannedCurrency : CurrencyCode
  budgetVersionId : Nat
  budgetName : String
  deriving DecidableEq

structure BudgetVarianceRow extends BudgetVarianceKey where
  actualAmount : Int
  deriving DecidableEq

/-- A row of the joins below. -/
abbrev BudgetPosting := (((BudgetAllocationRow × BudgetMappingRow) × AccountRow) × JournalRow) × PostingRow

namespace BudgetPosting

def account (row : BudgetPosting) : AccountRow := row.1.1.2

def posting (row : BudgetPosting) : PostingRow := row.2

end BudgetPosting

/-- The mapping is valid on a day of the period of the allocation. -/
def BudgetMappingRow.touches (allocation : BudgetAllocationRow) (mapping : BudgetMappingRow) : Bool :=
  mapping.householdId == allocation.householdId && mapping.categoryId == allocation.categoryId &&
    !mapping.archived && decide (mapping.validFrom ≤ allocation.periodEnd) &&
    mapping.validTo.all fun validTo => decide (allocation.periodStart ≤ validTo)

/-- `BETWEEN allocation.period_start AND allocation.period_end` -/
def BudgetAllocationRow.contains (allocation : BudgetAllocationRow) (date : LocalDate) : Bool :=
  decide (allocation.periodStart ≤ date) && decide (date ≤ allocation.periodEnd)

namespace PlanningDb

variable (d : PlanningDb)

/-- The inner joins of an allocation. -/
def varianceKey (allocation : BudgetAllocationRow) : Option BudgetVarianceKey := do
  let version ← d.findVersion allocation.householdId allocation.versionId
  let scope ← d.findScope version.householdId version.scopeId
  let category ← d.findCategory allocation.householdId allocation.categoryId
  let household ← d.findHousehold allocation.householdId
  return {
    householdId := household.householdId
    scopeKey := scope.scopeKey
    categoryKey := category.categoryKey
    periodStart := allocation.periodStart
    periodEnd := allocation.periodEnd
    plannedAmount := allocation.amount
    plannedCurrency := allocation.currency
    budgetVersionId := version.versionId
    budgetName := version.name }

def mappedAccounts (allocations : List BudgetAllocationRow) :
    List ((BudgetAllocationRow × BudgetMappingRow) × AccountRow) :=
  join (fun row account => account.householdId == row.2.householdId && account.accountId == row.2.accountId)
    (join BudgetMappingRow.touches allocations d.mappings) d.accounts

def mappedJournals (allocations : List BudgetAllocationRow) :
    List (((BudgetAllocationRow × BudgetMappingRow) × AccountRow) × JournalRow) :=
  join (fun row journal => journal.householdId == row.1.2.householdId && row.1.1.contains journal.effectiveOn)
    (d.mappedAccounts allocations) d.journals

/-- The left joins of allocations, the rows without a posting left out: they add nothing. -/
def budgetPostings (allocations : List BudgetAllocationRow) : List BudgetPosting :=
  join (fun row posting => posting.householdId == row.2.householdId &&
      posting.journalId == row.2.journalId && posting.accountId == row.1.1.2.accountId)
    (d.mappedJournals allocations) d.postings

/-- The allocations of one group. -/
def allocationsOf (key : BudgetVarianceKey) : List BudgetAllocationRow :=
  d.allocations.filter fun allocation => decide (d.varianceKey allocation = some key)

/-- The postings that the row of a group sums. -/
def varianceRows (key : BudgetVarianceKey) : List BudgetPosting := d.budgetPostings (d.allocationsOf key)

/-- `reporting.budget_variance` -/
def budgetVariance : List BudgetVarianceRow :=
  (d.allocations.filterMap d.varianceKey).dedup.map fun key =>
    { key with actualAmount :=
        ((d.varianceRows key).map fun row => signedAmount row.account row.posting).sum }

/-! ## What the view is for -/

def effectiveIn (allocation : BudgetAllocationRow) (posting : PostingRow) : Bool :=
  (d.journalOf posting).any fun journal => allocation.contains journal.effectiveOn

/-- An account is mapped to the category of the allocation by a mapping in force on the effective date
of the posting, which lies in the period. -/
def inForce (allocation : BudgetAllocationRow) (posting : PostingRow) : Bool :=
  (d.journalOf posting).any fun journal => allocation.contains journal.effectiveOn &&
    d.mappings.any fun mapping =>
      mapping.householdId == allocation.householdId && mapping.householdId == posting.householdId &&
      mapping.categoryId == allocation.categoryId && mapping.accountId == posting.accountId &&
      !mapping.archived && decide (mapping.validFrom ≤ journal.effectiveOn) &&
      mapping.validTo.all fun validTo => decide (journal.effectiveOn ≤ validTo)

/-- A posting by the normal balance of its account. -/
def signedPosting (posting : PostingRow) : Int :=
  (find AccountRow.accountId posting.accountId d.accounts).elim 0 fun account => signedAmount account posting

/-- The signed sum over the distinct postings. -/
def actualOnce (allocation : BudgetAllocationRow) : Int :=
  sumWhere (d.inForce allocation) d.signedPosting d.postings

/-- A mapping that the view joins with the posting. -/
def pays (allocation : BudgetAllocationRow) (posting : PostingRow) (mapping : BudgetMappingRow) : Bool :=
  mapping.touches allocation && (mapping.householdId == posting.householdId &&
    mapping.accountId == posting.accountId)

/-- The view takes the posting for the allocation. -/
def counted (allocation : BudgetAllocationRow) (posting : PostingRow) : Bool :=
  d.effectiveIn allocation posting && d.mappings.any (pays allocation posting)

/-- The budget allocates the amount once, no account with a posting in the period has two mappings
valid in it, and what was posted in the period while no mapping was in force comes to nothing. -/
structure CountsOnce (allocation : BudgetAllocationRow) : Prop where
  allocated_once : ∀ posting ∈ d.postings, d.counted allocation posting = true →
    d.allocations.count allocation = 1
  mapped_once : ∀ posting ∈ d.postings, d.effectiveIn allocation posting = true →
    d.mappings.countP (pays allocation posting) ≤ 1
  out_of_force : sumWhere (fun posting => d.counted allocation posting && !d.inForce allocation posting)
    d.signedPosting d.postings = 0

/-! ## The row of an allocation -/

variable {d} {allocation other : BudgetAllocationRow} {key : BudgetVarianceKey}

/-- Every allocation has a row. -/
theorem Budgeted.exists_key (hd : d.Budgeted) (hmem : allocation ∈ d.allocations) :
    ∃ key, d.varianceKey allocation = some key := by
  have hversion : (d.findVersion allocation.householdId allocation.versionId).isSome := by
    obtain ⟨version, hrow, hhousehold, hid⟩ := hd.version allocation hmem
    rw [findVersion, Option.isSome_iff_ne_none, Ne, find_eq_none]
    intro hnone
    exact hnone version hrow (by rw [hhousehold, hid])
  have hcategory : (d.findCategory allocation.householdId allocation.categoryId).isSome := by
    obtain ⟨category, hrow, hhousehold, hid⟩ := hd.category allocation hmem
    rw [findCategory, Option.isSome_iff_ne_none, Ne, find_eq_none]
    intro hnone
    exact hnone category hrow (by rw [hhousehold, hid])
  have hhousehold : (d.findHousehold allocation.householdId).isSome := by
    obtain ⟨household, hrow, hid⟩ := hd.household allocation hmem
    rw [LedgerDb.findHousehold, Option.isSome_iff_ne_none, Ne, find_eq_none]
    intro hnone
    exact hnone household hrow hid
  obtain ⟨version, hversion⟩ := Option.isSome_iff_exists.1 hversion
  obtain ⟨category, hcategory⟩ := Option.isSome_iff_exists.1 hcategory
  obtain ⟨household, hhousehold⟩ := Option.isSome_iff_exists.1 hhousehold
  have hscope : (d.findScope version.householdId version.scopeId).isSome := by
    obtain ⟨scope, hrow, hsame, hid⟩ := hd.scope version (find_some hversion).1
    rw [findScope, Option.isSome_iff_ne_none, Ne, find_eq_none]
    intro hnone
    exact hnone scope hrow (by rw [hsame, hid])
  obtain ⟨scope, hscope⟩ := Option.isSome_iff_exists.1 hscope
  simp [varianceKey, hversion, hcategory, hhousehold, hscope]

/-- What the row of an allocation shows determines it: a key of a category stands for one category. -/
theorem Budgeted.varianceKey_injective (hd : d.Budgeted) (h : d.varianceKey allocation = some key)
    (h' : d.varianceKey other = some key) : other = allocation := by
  simp only [varianceKey, Option.bind_eq_bind, Option.bind_eq_some_iff, Option.pure_def,
    Option.some.injEq] at h h'
  obtain ⟨version, hversion, scope, _, category, hcategory, household, hhousehold, rfl⟩ := h
  obtain ⟨version', hversion', scope', _, category', hcategory', household', hhousehold', heq⟩ := h'
  obtain ⟨_, hversionId⟩ := find_some hversion
  obtain ⟨_, hversionId'⟩ := find_some hversion'
  obtain ⟨hcategoryRow, hcategoryId⟩ := find_some hcategory
  obtain ⟨hcategoryRow', hcategoryId'⟩ := find_some hcategory'
  obtain ⟨_, hid⟩ := find_some hhousehold
  obtain ⟨_, hid'⟩ := find_some hhousehold'
  simp only [Prod.mk.injEq] at hversionId hversionId' hcategoryId hcategoryId'
  simp only [BudgetVarianceKey.mk.injEq] at heq
  obtain ⟨hsame, _, hkey, hstart, hend, hamount, hcurrency, hversionSame, _⟩ := heq
  have hhouseholdSame : other.householdId = allocation.householdId := by rw [← hid, ← hid', hsame]
  have hcategorySame : category'.categoryId = category.categoryId :=
    hd.one_key category' hcategoryRow' category hcategoryRow
      (by rw [hcategoryId'.1, hcategoryId.1, hhouseholdSame]) hkey
  cases other
  cases allocation
  simp_all

theorem Budgeted.allocationsOf_eq (hd : d.Budgeted) (h : d.varianceKey allocation = some key) :
    d.allocationsOf key = List.replicate (d.allocations.count allocation) allocation := by
  have hsame : ∀ row ∈ d.allocations, decide (d.varianceKey row = some key) = (row == allocation) := by
    intro row _
    by_cases heq : row = allocation
    · simp [heq, h]
    · have hne : d.varianceKey row ≠ some key := fun h' => heq (hd.varianceKey_injective h h')
      simp [heq, hne]
  rw [allocationsOf, List.filter_congr hsame, List.filter_beq]

/-! ## How often a posting is counted -/

theorem journalOf_eq_some (hkeyed : d.toLedgerDb.Keyed) {posting : PostingRow} {journal : JournalRow}
    (h : d.journalOf posting = some journal) :
    journal ∈ d.journals ∧ journal.householdId = posting.householdId ∧
      journal.journalId = posting.journalId ∧
      ∀ other ∈ d.journals, other.journalId = posting.journalId → other = journal := by
  have hmem := List.mem_of_find?_eq_some h
  have hmatch := List.find?_some h
  simp only [Bool.and_eq_true, beq_iff_eq] at hmatch
  refine ⟨hmem, hmatch.1, hmatch.2, ?_⟩
  intro other hother heq
  exact List.inj_on_of_nodup_map hkeyed.journals hother hmem (heq.trans hmatch.2.symm)

/-- The joins bring a posting up once for each copy of the allocation and each mapping that pays it. -/
theorem countP_mappedJournals (hkeyed : d.toLedgerDb.Keyed) {posting : PostingRow} (hposting : posting ∈ d.postings)
    (n : Nat) :
    (d.mappedJournals (List.replicate n allocation)).countP (fun row => posting.householdId == row.2.householdId &&
        posting.journalId == row.2.journalId && posting.accountId == row.1.1.2.accountId) =
      if d.effectiveIn allocation posting then n * d.mappings.countP (pays allocation posting) else 0 := by
  obtain ⟨journal, hjournal⟩ := Option.isSome_iff_exists.1 (hkeyed.posting_journal posting hposting)
  obtain ⟨hmem, hhousehold, hid, honly⟩ := journalOf_eq_some hkeyed hjournal
  obtain ⟨account, haccount, hof, haccountId⟩ := hkeyed.posting_account posting hposting
  have hjournals := List.Nodup.of_map _ hkeyed.journals
  have haccounts := List.Nodup.of_map _ hkeyed.accounts
  have heffective : d.effectiveIn allocation posting = allocation.contains journal.effectiveOn := by
    rw [effectiveIn, hjournal]
    rfl
  rw [mappedJournals, countP_join hjournals hmem, mappedAccounts, countP_join haccounts haccount,
    countP_join_replicate, heffective]
  · by_cases hcontains : allocation.contains journal.effectiveOn = true
    · rw [if_pos hcontains]
      congr 1
      apply List.countP_congr
      intro mapping _
      simp only [pays, hcontains, hhousehold, hid, hof, haccountId, Bool.and_eq_true, beq_iff_eq, and_true,
        true_and]
      constructor
      · rintro ⟨htouches, ⟨hmapped, _⟩, _, haccount'⟩
        exact ⟨htouches, hmapped.symm, haccount'.symm⟩
      · rintro ⟨htouches, hmapped, haccount'⟩
        exact ⟨htouches, ⟨hmapped.symm, haccount'.symm⟩, hmapped.symm, haccount'.symm⟩
    · simp [hcontains]
  · intro row _ other hother hon hpred
    simp only [Bool.and_eq_true, beq_iff_eq] at hon hpred
    refine List.inj_on_of_nodup_map hkeyed.accounts hother haccount ?_
    rw [hon.2, haccountId, hpred.2.2]
  · intro row _ other hother _ hpred
    simp only [Bool.and_eq_true, beq_iff_eq] at hpred
    exact honly other hother hpred.1.2.symm

/-- No posting comes up twice for an allocation that is there once, where no account has two mappings. -/
theorem nodup_varianceRows_iff (hd : d.Budgeted) (h : d.varianceKey allocation = some key) :
    ((d.varianceRows key).map fun row => row.posting.postingId).Nodup ↔
      ∀ posting ∈ d.postings, d.effectiveIn allocation posting = true →
        d.allocations.count allocation * d.mappings.countP (pays allocation posting) ≤ 1 := by
  have hjoin := @nodup_join_right_iff _ _ _ (fun (row : ((BudgetAllocationRow × BudgetMappingRow) × AccountRow) × JournalRow)
      (posting : PostingRow) => posting.householdId == row.2.householdId &&
      posting.journalId == row.2.journalId && posting.accountId == row.1.1.2.accountId)
    (d.mappedJournals (d.allocationsOf key)) d.postings PostingRow.postingId hd.keyed.postings
  rw [varianceRows]
  refine hjoin.trans ?_
  rw [hd.allocationsOf_eq h]
  constructor
  · intro hone posting hposting heffective
    have hcount := hone posting hposting
    rwa [countP_mappedJournals hd.keyed hposting, if_pos heffective] at hcount
  · intro hone posting hposting
    rw [countP_mappedJournals hd.keyed hposting]
    split
    · next heffective => exact hone posting hposting heffective
    · omega

theorem signedPosting_eq (hkeyed : d.toLedgerDb.Keyed) {allocations : List BudgetAllocationRow}
    {row : BudgetPosting} (h : row ∈ d.budgetPostings allocations) :
    signedAmount row.account row.posting = d.signedPosting row.posting := by
  obtain ⟨⟨⟨⟨allocation, mapping⟩, account⟩, journal⟩, posting⟩ := row
  obtain ⟨hjournals, _, hposting⟩ := mem_join.1 h
  obtain ⟨haccounts, _, _⟩ := mem_join.1 hjournals
  obtain ⟨_, haccount, hmapped⟩ := mem_join.1 haccounts
  simp only [Bool.and_eq_true, beq_iff_eq] at hposting hmapped
  have hfind : find AccountRow.accountId posting.accountId d.accounts = some account := by
    rw [hposting.2, ← hmapped.2]
    exact hkeyed.accounts.find_eq haccount
  simp only [BudgetPosting.account, BudgetPosting.posting, signedPosting, hfind, Option.elim_some]

/-- A row that counts no posting twice shows what was posted in the period on the mapped accounts. -/
theorem sum_varianceRows (hd : d.Budgeted) (hmem : allocation ∈ d.allocations)
    (h : d.varianceKey allocation = some key)
    (hone : ((d.varianceRows key).map fun row => row.posting.postingId).Nodup) :
    ((d.varianceRows key).map fun row => signedAmount row.account row.posting).sum =
      sumWhere (d.counted allocation) d.signedPosting d.postings := by
  have hpostings := List.Nodup.of_map _ hd.keyed.postings
  have hcopies : 0 < d.allocations.count allocation := List.count_pos_iff.2 hmem
  have htwice := (nodup_varianceRows_iff hd h).1 hone
  rw [varianceRows, budgetPostings, sum_join_right (g := d.signedPosting) hpostings]
  · apply sumWhere_congr
    · intro posting hposting
      have hcount := @countP_mappedJournals d allocation hd.keyed posting hposting (d.allocations.count allocation)
      rw [Bool.eq_iff_iff, List.any_eq_true, ← List.countP_pos_iff, hd.allocationsOf_eq h, hcount, counted,
        Bool.and_eq_true, List.any_eq_true, ← List.countP_pos_iff]
      split
      · next heffective =>
        have hpos : 0 < d.allocations.count allocation * d.mappings.countP (pays allocation posting) ↔
            0 < d.mappings.countP (pays allocation posting) := Nat.mul_pos_iff_of_pos_left hcopies
        simp [heffective, hpos]
      · next heffective => simp [heffective]
    · simp
  · intro posting hposting
    rw [hd.allocationsOf_eq h, countP_mappedJournals hd.keyed hposting]
    split
    · next heffective => exact htwice posting hposting heffective
    · omega
  · intro row posting hrow
    exact signedPosting_eq hd.keyed hrow

theorem counted_of_inForce (hkeyed : d.toLedgerDb.Keyed) {posting : PostingRow}
    (h : d.inForce allocation posting = true) : d.counted allocation posting = true := by
  simp only [inForce, Option.any_eq_true, Bool.and_eq_true, List.any_eq_true, beq_iff_eq, Bool.not_eq_true',
    decide_eq_true_eq] at h
  obtain ⟨journal, hjournal, hcontains, mapping, hmem, hmapping⟩ := h
  obtain ⟨⟨⟨⟨⟨⟨hhousehold, howner⟩, hcategory⟩, haccount⟩, hactive⟩, hfrom⟩, hto⟩ := hmapping
  have hdates := hcontains
  simp only [BudgetAllocationRow.contains, Bool.and_eq_true, decide_eq_true_eq] at hdates
  have heffective : d.effectiveIn allocation posting = true := by
    rw [effectiveIn, hjournal]
    exact hcontains
  have htouches : mapping.touches allocation = true := by
    have hfrom' : mapping.validFrom ≤ allocation.periodEnd := hfrom.trans hdates.2
    have hto' : (mapping.validTo.all fun validTo => decide (allocation.periodStart ≤ validTo)) = true := by
      cases hvalidTo : mapping.validTo with
      | none => rfl
      | some validTo =>
        rw [hvalidTo] at hto
        have hlast : journal.effectiveOn ≤ validTo := by simpa using hto
        simpa using hdates.1.trans hlast
    simp [BudgetMappingRow.touches, hhousehold, hcategory, hactive, hfrom', hto']
  have hpays : pays allocation posting mapping = true := by simp [pays, htouches, howner, haccount]
  rw [counted, heffective, Bool.true_and]
  exact List.any_eq_true.2 ⟨mapping, hmem, hpays⟩

/-- What the accounts mapped at some time took in the period is what they took while they were mapped,
and the rest. -/
theorem sumWhere_counted (hkeyed : d.toLedgerDb.Keyed) :
    sumWhere (d.counted allocation) d.signedPosting d.postings = d.actualOnce allocation +
      sumWhere (fun posting => d.counted allocation posting && !d.inForce allocation posting)
        d.signedPosting d.postings := by
  rw [actualOnce, ← sumWhere_or]
  · apply sumWhere_congr
    · intro posting _
      cases hforce : d.inForce allocation posting with
      | false => simp
      | true => simp [counted_of_inForce hkeyed hforce]
    · simp
  · intro posting _ hboth
    simp [hboth.1] at hboth

/-- The row of an allocation is right, and counts no posting twice, exactly where the allocation and
the mappings do not bring a posting up again or on a day without a mapping. -/
theorem Budgeted.countsOnce_iff (hd : d.Budgeted) (hmem : allocation ∈ d.allocations)
    (h : d.varianceKey allocation = some key) :
    (((d.varianceRows key).map fun row => signedAmount row.account row.posting).sum = d.actualOnce allocation ∧
        ((d.varianceRows key).map fun row => row.posting.postingId).Nodup) ↔ d.CountsOnce allocation := by
  have hcopies : 0 < d.allocations.count allocation := List.count_pos_iff.2 hmem
  constructor
  · rintro ⟨hsum, hnodup⟩
    have htwice := (nodup_varianceRows_iff hd h).1 hnodup
    rw [sum_varianceRows hd hmem h hnodup, sumWhere_counted hd.keyed] at hsum
    constructor
    · intro posting hposting hcounted
      rw [counted, Bool.and_eq_true, List.any_eq_true, ← List.countP_pos_iff] at hcounted
      have hle := htwice posting hposting hcounted.1
      have hmul := Nat.le_mul_of_pos_right (d.allocations.count allocation) hcounted.2
      omega
    · intro posting hposting heffective
      have hle := htwice posting hposting heffective
      have hmul := Nat.le_mul_of_pos_left (d.mappings.countP (pays allocation posting)) hcopies
      omega
    · omega
  · intro hcounts
    have hnodup : ((d.varianceRows key).map fun row => row.posting.postingId).Nodup := by
      rw [nodup_varianceRows_iff hd h]
      intro posting hposting heffective
      have hone := hcounts.mapped_once posting hposting heffective
      by_cases hcounted : d.counted allocation posting = true
      · rw [hcounts.allocated_once posting hposting hcounted, Nat.one_mul]
        exact hone
      · have hnone : d.mappings.countP (pays allocation posting) = 0 := by
          rw [counted, heffective, Bool.true_and, List.any_eq_true, ← List.countP_pos_iff] at hcounted
          omega
        rw [hnone]
        omega
    rw [sum_varianceRows hd hmem h hnodup, sumWhere_counted hd.keyed, hcounts.out_of_force]
    exact ⟨by omega, hnodup⟩

/-- The row of the view that shows an allocation. -/
def ShowsAllocation (d : PlanningDb) (allocation : BudgetAllocationRow) (row : BudgetVarianceRow) : Prop :=
  row ∈ d.budgetVariance ∧ d.varianceKey allocation = some row.toBudgetVarianceKey

instance : Decidable (d.ShowsAllocation allocation row) := inferInstanceAs (Decidable (_ ∧ _))

/-- The row shows the signed sum over the distinct postings, and adds no posting up twice. -/
def CountedOnce (d : PlanningDb) (allocation : BudgetAllocationRow) (row : BudgetVarianceRow) : Prop :=
  row.actualAmount = d.actualOnce allocation ∧
    ((d.varianceRows row.toBudgetVarianceKey).map fun counted => counted.posting.postingId).Nodup

theorem exists_shown (hd : d.Budgeted) (hmem : allocation ∈ d.allocations) :
    ∃ row, d.ShowsAllocation allocation row := by
  obtain ⟨key, hkey⟩ := hd.exists_key hmem
  have hrow : key ∈ (d.allocations.filterMap d.varianceKey).dedup :=
    List.mem_dedup.2 (List.mem_filterMap.2 ⟨allocation, hmem, hkey⟩)
  exact ⟨_, List.mem_map_of_mem hrow, hkey⟩

/-- The budget variance view counts each posting once exactly when the allocation is there once for the
postings it takes, no account with postings in its period has two mappings valid in the period, and the
postings made while no mapping was in force come to nothing. -/
theorem budgetVariance_counts_once_iff (hrun : BudgetRun d) (hmem : allocation ∈ d.allocations) :
    (∃ row, d.ShowsAllocation allocation row) ∧
      ∀ row, d.ShowsAllocation allocation row → (d.CountedOnce allocation row ↔ d.CountsOnce allocation) := by
  have hd := hrun.budgeted
  constructor
  · exact exists_shown hd hmem
  · rintro row ⟨hrow, hkey⟩
    obtain ⟨key, _, rfl⟩ := List.mem_map.1 hrow
    exact hd.countsOnce_iff hmem hkey

end PlanningDb

namespace TestBudget

open TestReporting

/-- The ledger with ten euros put into the cash account on the tenth, and no budget yet. -/
def planning : PlanningDb where
  toLedgerDb := ledger
  scopes := []
  categories := []
  versions := []
  allocations := []
  mappings := []
  savingsGoals := []
  savingsGoalAccounts := []
  virtualAllocations := []

def mapping (first last : LocalDate) : BudgetMappingProposal :=
  ⟨"savings", cash.accountId, .income, first, some last⟩

/-- A hundred euros for January. -/
def proposal (mappings : List BudgetMappingProposal) : ActivateBudgetProposal where
  householdId := householdId
  scopeKey := "home"
  name := "January"
  validFrom := january 1 (Eq.refl true)
  validTo := none
  categories := [⟨"savings", none, "Savings"⟩]
  allocations := [⟨"savings", january 1 (Eq.refl true), january 31 (Eq.refl true), ⟨⟨false, 100, 0⟩, eur⟩⟩]
  mappings := mappings

def allocation : BudgetAllocationRow :=
  ⟨householdId, 1, 1, january 1 (Eq.refl true), january 31 (Eq.refl true), euros 100 (by decide), eur⟩

def mappingRow (first last : LocalDate) : BudgetMappingRow :=
  ⟨householdId, 1, cash.accountId, .income, first, some last, false⟩

def activated (mappings : List BudgetMappingRow) : PlanningDb :=
  { planning with
    scopes := [⟨1, householdId, "home", "home", false⟩]
    categories := [⟨1, householdId, "savings", "Savings", false⟩]
    versions := [⟨1, householdId, 1, "January", january 1 (Eq.refl true), none⟩]
    allocations := [allocation]
    mappings := mappings }

theorem planning_run : BudgetRun planning := .start ledger_keyed rfl rfl rfl rfl rfl

/-- The account is mapped for the first half of the month, and for the second half. -/
def halves : PlanningDb :=
  activated [mappingRow (january 1 (Eq.refl true)) (january 15 (Eq.refl true)),
    mappingRow (january 16 (Eq.refl true)) (january 31 (Eq.refl true))]

theorem halves_run : BudgetRun halves := by
  have hactivated : BudgetRepository.activate planning
      (proposal [mapping (january 1 (by decide)) (january 15 (by decide)),
        mapping (january 16 (by decide)) (january 31 (by decide))]) = .ok halves := by decide +kernel
  exact planning_run.activate hactivated

/-- Two mappings that follow each other count one posting twice. -/
theorem posting_counted_twice :
    ¬∀ d : PlanningDb, BudgetRun d → ∀ allocation ∈ d.allocations, ∀ row,
      d.ShowsAllocation allocation row → d.CountedOnce allocation row := by
  intro hall
  have hrow : halves.ShowsAllocation allocation
      { householdId := householdId, scopeKey := "home", categoryKey := "savings"
        periodStart := january 1 (by decide), periodEnd := january 31 (by decide)
        plannedAmount := euros 100 (by decide), plannedCurrency := eur, budgetVersionId := 1
        budgetName := "January", actualAmount := 20 * 10 ^ 12 } := by decide +kernel
  have honce := (hall halves halves_run allocation (by decide) _ hrow).1
  have hactual : halves.actualOnce allocation = 10 * 10 ^ 12 := by decide +kernel
  rw [hactual] at honce
  simp at honce

/-- The account is mapped for the whole month. -/
def wholeMonth : PlanningDb := activated [mappingRow (january 1 (Eq.refl true)) (january 31 (Eq.refl true))]

theorem wholeMonth_run : BudgetRun wholeMonth := by
  have hactivated : BudgetRepository.activate planning
      (proposal [mapping (january 1 (by decide)) (january 31 (by decide))]) = .ok wholeMonth := by
    decide +kernel
  exact planning_run.activate hactivated

theorem budgetVariance_counts_once_wholeMonth :
    (∃ row, wholeMonth.ShowsAllocation allocation row) ∧
      ∀ row, wholeMonth.ShowsAllocation allocation row →
        (wholeMonth.CountedOnce allocation row ↔ wholeMonth.CountsOnce allocation) :=
  PlanningDb.budgetVariance_counts_once_iff wholeMonth_run (by decide)

end TestBudget

end PlusOne
