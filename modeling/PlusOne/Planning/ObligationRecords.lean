import PlusOne.Planning.GoalRecords

/-! # The records of obligations

`ObligationRepository.upsert` as upserts under the keys of two tables, and when what it leaves under
the key of an obligation is the proposal. -/

namespace PlusOne

open Numeric Relational

/-- An occurrence whose amount the column takes. -/
structure StoredOccurrence where
  occurrence : ObligationOccurrenceProposal
  expectedAmount : DecimalAmount
  stored : Fixed.store occurrence.expectedAmount.amount = some expectedAmount

namespace ObligationRepository

def obligationWrite (rows : List RecurringObligationRow) (input : UpdateObligationProposal)
    (expectedAmount : DecimalAmount) (budgetCategoryId : Option Nat) :
    IdentityWrite RecurringObligationRow.obligationId RecurringObligationRow.activeKey rows where
  under := (input.householdId, input.obligationKey)
  update row :=
    { row with
      variant := input.variant, name := input.name, lifecycleStatus := input.lifecycleStatus
      recurrence := input.recurrence, expectedAmount, expectedCurrency := input.expectedAmount.currency
      dueDay := input.dueDay, counterpartyName := input.counterpartyName, accountId := input.accountId
      budgetCategoryId }
  new :=
    { obligationId := nextIdentity (rows.map RecurringObligationRow.obligationId)
      householdId := input.householdId, obligationKey := input.obligationKey
      variant := input.variant, name := input.name, lifecycleStatus := input.lifecycleStatus
      recurrence := input.recurrence, expectedAmount, expectedCurrency := input.expectedAmount.currency
      dueDay := input.dueDay, counterpartyName := input.counterpartyName, accountId := input.accountId
      budgetCategoryId, archived := false }
  updated _ h := h
  inserted := rfl
  keepsIdentity _ := rfl
  newIdentity := rfl

def occurrenceWrite (householdId : HouseholdId) (obligationId : Nat) (stored : StoredOccurrence) :
    KeyedWrite ObligationOccurrenceRow.key where
  under := (householdId, obligationId, stored.occurrence.occurrenceDate)
  update row :=
    { row with
      dueDate := stored.occurrence.dueDate, expectedAmount := stored.expectedAmount
      expectedCurrency := stored.occurrence.expectedAmount.currency }
  new :=
    { householdId, obligationId, occurrenceDate := stored.occurrence.occurrenceDate
      dueDate := stored.occurrence.dueDate, expectedAmount := stored.expectedAmount
      expectedCurrency := stored.occurrence.expectedAmount.currency }
  updated _ h := h
  inserted := rfl

theorem obligation_activeKey_iff {row : RecurringObligationRow} {householdId : HouseholdId}
    {obligationKey : String} : row.activeKey = some (householdId, obligationKey) ↔
      (row.householdId == householdId && row.obligationKey == obligationKey && !row.archived) = true := by
  unfold RecurringObligationRow.activeKey
  cases row.archived <;> simp

theorem occurrence_key_iff {row : ObligationOccurrenceRow} {householdId : HouseholdId} {obligationId : Nat}
    {occurrence : ObligationOccurrenceProposal} :
    row.key = some (householdId, obligationId, occurrence.occurrenceDate) ↔
      occurrence.isUnder householdId obligationId row = true := by
  simp [ObligationOccurrenceRow.key, ObligationOccurrenceProposal.isUnder, and_assoc]

theorem occurrence_key_iff_owned {row : ObligationOccurrenceRow} {householdId : HouseholdId} {obligationId : Nat}
    {occurrenceDate : LocalDate} : row.key = some (householdId, obligationId, occurrenceDate) ↔
      row.obligation = some (householdId, obligationId) ∧ row.occurrenceDate = occurrenceDate := by
  simp [ObligationOccurrenceRow.key, ObligationOccurrenceRow.obligation, and_assoc]

/-- An occurrence is held by its row as far as the column can hold its amount. -/
theorem occurrence_holding (householdId : HouseholdId) (obligationId : Nat) :
    Relational.Holding ObligationOccurrenceRow.obligation (householdId, obligationId)
      (occurrenceWrite householdId obligationId) (fun stored => stored.occurrence.HeldBy)
      (fun stored => stored.occurrence.expectedAmount.Exact)
      fun stored other => stored.occurrence.dueDate = other.occurrence.dueDate ∧
        stored.occurrence.expectedAmount.Same other.occurrence.expectedAmount where
  owned hwrote := (occurrence_key_iff_owned.1 hwrote.under).1
  under howned hholds := occurrence_key_iff_owned.2 ⟨howned, hholds.1⟩
  wrote {stored row} hexact hwrote := by
    have hamount := (SavingsGoalRepository.money_isStored_iff stored.stored).2 hexact
    refine ⟨(occurrence_key_iff_owned.1 hwrote.under).2, ?_⟩
    rcases hwrote with rfl | ⟨old, _, rfl⟩
    · exact ⟨rfl, hamount⟩
    · exact ⟨rfl, hamount⟩
  fits hholds := Fixed.exactAt_of_value hholds.2.2.1
  agrees hholds hholds' := ⟨hholds.2.1.symm.trans hholds'.2.1, hholds.2.2.1.symm.trans hholds'.2.2.1,
    hholds.2.2.2.symm.trans hholds'.2.2.2⟩
  shared {stored other row} hunder hagree hholds := by
    simp only [occurrenceWrite, Prod.mk.injEq, true_and] at hunder
    exact ⟨hholds.1.trans hunder.symm, hholds.2.1.trans hagree.1.symm, hholds.2.2.1.trans hagree.2.1.symm,
      hholds.2.2.2.trans hagree.2.2.symm⟩

variable {d d' : PlanningRecords} {input : UpdateObligationProposal} {householdId : HouseholdId}
  {obligationId : Nat}

theorem upsertObligation_write
    (ht : ActiveTable RecurringObligationRow.obligationId RecurringObligationRow.activeKey d.obligations)
    (h : upsertObligation d input = .ok (obligationId, d')) :
    ∃ expectedAmount obligation, Fixed.store input.expectedAmount.amount = some expectedAmount ∧
      obligation.obligationId = obligationId ∧
      ActiveTable.Written (obligationWrite d.obligations input expectedAmount
        (categoryId d input.householdId input.budgetCategoryKey)) obligation ∧
      d' = { d with
        obligations := (obligationWrite d.obligations input expectedAmount
          (categoryId d input.householdId input.budgetCategoryKey)).apply d.obligations } := by
  obtain ⟨expectedAmount, hstored, h⟩ := bind_eq_ok.1 h
  rw [require_bind_eq_ok, require_bind_eq_ok, require_bind_eq_ok, require_bind_eq_ok, require_bind_eq_ok] at h
  obtain ⟨_, _, _, _, _, h⟩ := h
  obtain ⟨obligation, hobligation⟩ := ht.apply_written (obligationWrite d.obligations input expectedAmount
    (categoryId d input.householdId input.budgetCategoryKey))
  refine ⟨expectedAmount, obligation, stored_eq_ok.1 hstored, ?_⟩
  split at h
  case h_1 old hfind =>
    obtain ⟨hid, happly⟩ := hobligation.of_found ht (fun _ => obligation_activeKey_iff) hfind
    cases h
    refine ⟨hid, hobligation, ?_⟩
    rw [happly]
    rfl
  case h_2 hfind =>
    obtain ⟨hnew, happly⟩ := hobligation.of_missing (fun _ => obligation_activeKey_iff) hfind
    cases h
    refine ⟨by rw [hnew]; rfl, hobligation, ?_⟩
    rw [happly]
    rfl

theorem upsertOccurrence_write {occurrence : ObligationOccurrenceProposal}
    (h : upsertOccurrence d householdId obligationId occurrence = .ok d') :
    ∃ stored : StoredOccurrence, stored.occurrence = occurrence ∧
      d' = { d with occurrences := (occurrenceWrite householdId obligationId stored).apply d.occurrences } := by
  obtain ⟨expectedAmount, hstored, h⟩ := bind_eq_ok.1 h
  rw [require_bind_eq_ok, require_bind_eq_ok] at h
  obtain ⟨_, _, h⟩ := h
  refine ⟨⟨occurrence, expectedAmount, stored_eq_ok.1 hstored⟩, rfl, ?_⟩
  split at h
  case isTrue hany =>
    obtain ⟨row, hrow, hmatch⟩ := List.any_eq_true.1 hany
    cases h
    rw [KeyedWrite.apply_of_some
      (w := occurrenceWrite householdId obligationId ⟨occurrence, expectedAmount, stored_eq_ok.1 hstored⟩) hrow
      (occurrence_key_iff.2 hmatch)]
    simp only [occurrenceWrite, occurrence_key_iff]
  case isFalse hany =>
    cases h
    have hnone : ∀ row ∈ d.occurrences, row.key ≠ some (occurrenceWrite householdId obligationId
        ⟨occurrence, expectedAmount, stored_eq_ok.1 hstored⟩).under := by
      intro row hrow hkey
      exact hany (List.any_eq_true.2 ⟨row, hrow, occurrence_key_iff.1 hkey⟩)
    rw [KeyedWrite.apply_of_none hnone]
    rfl

theorem upsertOccurrences_write {occurrences : List ObligationOccurrenceProposal}
    (h : upsertOccurrences householdId obligationId occurrences d = .ok d') :
    ∃ stored : List StoredOccurrence, stored.map StoredOccurrence.occurrence = occurrences ∧
      d' = { d with
        occurrences := KeyedWrite.applyAll (stored.map (occurrenceWrite householdId obligationId))
          d.occurrences } := by
  induction occurrences generalizing d with
  | nil =>
    cases h
    exact ⟨[], rfl, rfl⟩
  | cons occurrence rest ih =>
    obtain ⟨d₁, h₁, h⟩ := bind_eq_ok.1 h
    obtain ⟨first, rfl, rfl⟩ := upsertOccurrence_write h₁
    obtain ⟨stored, rfl, rfl⟩ := ih h
    exact ⟨first :: stored, rfl, rfl⟩

end ObligationRepository

namespace PlanningRecords

open ObligationRepository

variable {F : PlanningFormats} {d d' : PlanningRecords} {context : CheckedCommand}
  {input : UpdateObligationProposal} {state : PlanningReadback}

/-- What an upsert of an obligation has done to the tables. -/
structure ObligationUpserted (d d' : PlanningRecords) (input : UpdateObligationProposal)
    (expectedAmount : DecimalAmount) (obligation : RecurringObligationRow) (stored : List StoredOccurrence) :
    Prop where
  amount : Fixed.store input.expectedAmount.amount = some expectedAmount
  proposed : stored.map StoredOccurrence.occurrence = input.occurrences
  written : ActiveTable.Written (obligationWrite d.obligations input expectedAmount
    (categoryId d input.householdId input.budgetCategoryKey)) obligation
  obligations : d'.obligations = (obligationWrite d.obligations input expectedAmount
    (categoryId d input.householdId input.budgetCategoryKey)).apply d.obligations
  occurrences : d'.occurrences = KeyedWrite.applyAll
    (stored.map (occurrenceWrite input.householdId obligation.obligationId)) d.occurrences
  rest : d' = { d with
    obligations := d'.obligations, occurrences := d'.occurrences, auditRecords := d'.auditRecords }

theorem updateObligation_writes (hd : d.Consistent) (h : d.updateObligation F context input = .ok (state, d')) :
    ∃ expectedAmount obligation stored, ObligationUpserted d d' input expectedAmount obligation stored := by
  rw [updateObligation, require_bind_eq_ok, require_bind_eq_ok] at h
  obtain ⟨_, _, h⟩ := h
  obtain ⟨⟨obligationId, d₁⟩, h₁, h⟩ := bind_eq_ok.1 h
  obtain ⟨d₂, h₂, h⟩ := bind_eq_ok.1 h
  obtain ⟨expectedAmount, obligation, hamount, rfl, hwritten, rfl⟩ := upsertObligation_write hd.obligations h₁
  obtain ⟨stored, hproposed, rfl⟩ := upsertOccurrences_write h₂
  have hrest := recorded_rest h
  generalize d'.auditRecords = auditRecords at hrest
  subst hrest
  exact ⟨expectedAmount, obligation, stored, hamount, hproposed, hwritten, rfl, rfl, rfl⟩

namespace ObligationUpserted

variable {expectedAmount : DecimalAmount} {obligation : RecurringObligationRow} {stored : List StoredOccurrence}

theorem household (hu : ObligationUpserted d d' input expectedAmount obligation stored) :
    obligation.householdId = input.householdId := by
  have hunder := obligation_activeKey_iff.1 hu.written.wrote.under
  simp only [Bool.and_eq_true, beq_iff_eq] at hunder
  exact hunder.1.1

theorem consistent (hd : d.Consistent) (hu : ObligationUpserted d d' input expectedAmount obligation stored) :
    d'.Consistent := by
  have hobligation : obligation.obligationId ∈ d'.obligations.map RecurringObligationRow.obligationId := by
    rw [hu.obligations]
    exact List.mem_map_of_mem hu.written.mem
  have hkept : ∀ row ∈ d.occurrences, row.obligationId ∈ d'.obligations.map RecurringObligationRow.obligationId := by
    intro row hrow
    rw [hu.obligations]
    exact ActiveTable.identity_mem_apply _ (hd.occurrenceObligations row hrow)
  have hoccurrences : ∀ row ∈ d'.occurrences,
      row.obligationId ∈ d'.obligations.map RecurringObligationRow.obligationId := by
    rw [hu.occurrences]
    refine KeyedWrite.forall_applyAll hkept ?_ ?_
    · intro w hw row hrow
      obtain ⟨s, _, rfl⟩ := List.mem_map.1 hw
      exact hrow
    · intro w hw
      obtain ⟨s, _, rfl⟩ := List.mem_map.1 hw
      exact hobligation
  have hrest := hu.rest
  constructor
  case obligations => exact hu.obligations ▸ hd.obligations.apply _
  case occurrences => exact hu.occurrences ▸ KeyedWrite.applyAll_unique hd.occurrences
  case occurrenceObligations => exact hoccurrences
  all_goals rw [hrest]
  case goals => exact hd.goals
  case goalCategories => exact hd.goalCategories
  case accounts => exact hd.accounts
  case accountGoals => exact hd.accountGoals
  case allocations => exact hd.allocations
  case allocationGoals => exact hd.allocationGoals
  case loanAgreements => exact hd.loanAgreements
  case debtPlans => exact hd.debtPlans
  case planCategories => exact hd.planCategories
  case planLoans => exact hd.planLoans

/-! ### The obligation itself -/

theorem forall_obligationRecords {householdId : HouseholdId} {obligationKey : String}
    {P : ObligationRecord → Prop} :
    (∀ record ∈ d.obligationRecords householdId obligationKey, P record) ↔
      ∀ row ∈ d.obligations, row.activeKey = some (householdId, obligationKey) → P (d.obligationRecord row) := by
  rw [obligationRecords, List.forall_mem_map]
  simp

theorem obligationRecords_self (hu : ObligationUpserted d d' input expectedAmount obligation stored) :
    d'.obligationRecords input.householdId input.obligationKey = [d'.obligationRecord obligation] := by
  have halone := hu.written.alone
  rw [← hu.obligations] at halone
  exact congrArg (List.map d'.obligationRecord) halone

theorem occurrences_iff (hd : d.Consistent) (hu : ObligationUpserted d d' input expectedAmount obligation stored) :
    HeldBy ObligationOccurrenceProposal.HeldBy input.occurrences (d'.obligationRecord obligation).occurrences ↔
      (∀ occurrence ∈ input.occurrences, occurrence.expectedAmount.Exact) ∧
      (∀ occurrence ∈ input.occurrences, ∀ other ∈ input.occurrences,
        occurrence.occurrenceDate = other.occurrenceDate →
          occurrence.dueDate = other.dueDate ∧ occurrence.expectedAmount.Same other.expectedAmount) ∧
      ∀ record ∈ d.obligationRecords input.householdId input.obligationKey, ∀ row ∈ record.occurrences,
        ∃ occurrence ∈ input.occurrences, row.occurrenceDate = occurrence.occurrenceDate := by
  have hafter : (d'.obligationRecord obligation).occurrences = (KeyedWrite.applyAll
      (stored.map (occurrenceWrite input.householdId obligation.obligationId)) d.occurrences).filter
        fun row => decide (row.obligation = some (input.householdId, obligation.obligationId)) := by
    rw [obligationRecord, hu.household, hu.occurrences]
  have hkey : ∀ row : ObligationOccurrenceRow,
      row.obligation = some (input.householdId, obligation.obligationId) →
      ((∃ s ∈ stored, row.key = some (occurrenceWrite input.householdId obligation.obligationId s).under) ↔
        ∃ occurrence ∈ input.occurrences, row.occurrenceDate = occurrence.occurrenceDate) := by
    intro row howned
    rw [← hu.proposed]
    simp [occurrenceWrite, occurrence_key_iff_owned, howned]
  have hheld : HeldBy ObligationOccurrenceProposal.HeldBy input.occurrences (d'.obligationRecord obligation).occurrences ↔
      HeldBy (fun s => (StoredOccurrence.occurrence s).HeldBy) stored
        (d'.obligationRecord obligation).occurrences := by
    unfold HeldBy
    rw [← hu.proposed, List.forall_mem_map]
    simp
  have hearlier : (∀ row ∈ d.occurrences, row.obligation = some (input.householdId, obligation.obligationId) →
      ∃ occurrence ∈ input.occurrences, row.occurrenceDate = occurrence.occurrenceDate) ↔
      ∀ old ∈ d.obligations, old.activeKey = some (input.householdId, input.obligationKey) →
        ∀ row ∈ d.occurrences, row.obligation = some (input.householdId, old.obligationId) →
          ∃ occurrence ∈ input.occurrences, row.occurrenceDate = occurrence.occurrenceDate := by
    refine hu.written.forall_belonging_iff (fun (row : ObligationOccurrenceRow) n => row.obligation = some (input.householdId, n))
      fun row hrow n hn => ?_
    obtain rfl := (Prod.mk.inj (Option.some.inj hn)).2
    exact hd.occurrenceObligations row hrow
  have hhousehold : ∀ old : RecurringObligationRow,
      old.activeKey = some (input.householdId, input.obligationKey) → old.householdId = input.householdId := by
    intro old hold
    have hmatch := obligation_activeKey_iff.1 hold
    simp only [Bool.and_eq_true, beq_iff_eq] at hmatch
    exact hmatch.1.1
  have hrecords : (∀ record ∈ d.obligationRecords input.householdId input.obligationKey,
      ∀ row ∈ record.occurrences,
        ∃ occurrence ∈ input.occurrences, row.occurrenceDate = occurrence.occurrenceDate) ↔
      ∀ row ∈ d.occurrences, row.obligation = some (input.householdId, obligation.obligationId) →
        ∃ occurrence ∈ input.occurrences, row.occurrenceDate = occurrence.occurrenceDate := by
    rw [hearlier, forall_obligationRecords]
    refine forall₃_congr fun old _ hold => ?_
    rw [obligationRecord, hhousehold old hold]
    simp only [List.mem_filter, decide_eq_true_eq, and_imp]
  rw [hheld, hafter, (occurrence_holding input.householdId obligation.obligationId).heldBy_iff hd.occurrences,
    hrecords]
  simp only [← hu.proposed, List.forall_mem_map]
  refine and_congr_right fun _ => and_congr (by simp [occurrenceWrite]) ?_
  rw [hu.proposed]
  exact forall₃_congr fun row _ howned => hkey row howned

/-! ### The other obligations -/

theorem obligationRecords_other (hd : d.Consistent)
    (hu : ObligationUpserted d d' input expectedAmount obligation stored) {household : HouseholdId}
    {obligationKey : String} (hne : (household, obligationKey) ≠ (input.householdId, input.obligationKey)) :
    d'.obligationRecords household obligationKey = d.obligationRecords household obligationKey := by
  have hsame : d'.obligations.filter (fun row => decide (row.activeKey = some (household, obligationKey))) =
      d.obligations.filter fun row => decide (row.activeKey = some (household, obligationKey)) := by
    rw [hu.obligations]
    exact ActiveTable.filter_other _ hne
  rw [obligationRecords, obligationRecords, hsame, List.map_inj_left]
  intro other hother
  simp only [List.mem_filter, decide_eq_true_eq] at hother
  obtain ⟨hmem, hkey⟩ := hother
  have hafter : other ∈ (obligationWrite d.obligations input expectedAmount
      (categoryId d input.householdId input.budgetCategoryKey)).apply d.obligations :=
    KeyedWrite.apply_keeps hmem fun hunder => hne (Option.some.inj (hkey.symm.trans hunder))
  have hid := hu.written.identity_ne hd.obligations hafter hkey hne
  have howner : (other.householdId, other.obligationId) ≠ (input.householdId, obligation.obligationId) := by
    intro hsame
    exact hid (Prod.mk.inj hsame).2
  rw [obligationRecord, obligationRecord, hu.occurrences, ObligationRecord.mk.injEq]
  refine ⟨rfl, (owned_other_iff (fun _ _ row hwrote => (occurrence_holding _ _).owned hwrote)
    hd.occurrences howner).2 ?_⟩
  intro s _ row _ hunder howned
  have hobligation := (occurrence_key_iff_owned.1 hunder).1
  rw [howned] at hobligation
  exact howner (Option.some.inj hobligation)

theorem others_kept (hd : d.Consistent) (hu : ObligationUpserted d d' input expectedAmount obligation stored) :
    OthersKept d d' .obligation input.householdId input.obligationKey := by
  have hobligations : ∀ household obligationKey, (PlanningRecordType.obligation, household, obligationKey) ≠
      (PlanningRecordType.obligation, input.householdId, input.obligationKey) →
      d'.obligationRecords household obligationKey = d.obligationRecords household obligationKey := by
    intro household obligationKey hne
    rw [Ne, Prod.mk.injEq, not_and] at hne
    exact hu.obligationRecords_other hd (hne rfl)
  have hrest := hu.rest
  constructor
  case obligations => exact hobligations
  all_goals rw [hrest]
  case budgets => exact ⟨rfl, rfl, rfl⟩
  case goals =>
    intro household goalKey _
    rfl
  case debtPlans =>
    intro household debtPlanKey _
    rfl

/-- The statement finds the active category under a key exactly when there is one. -/
theorem categoryIs_iff {householdId : HouseholdId} {key : Option String} :
    d.CategoryIs householdId key (categoryId d householdId key) ↔
      ∀ categoryKey, key = some categoryKey → d.HasCategory householdId categoryKey := by
  cases key with
  | none => simp [CategoryIs, categoryId]
  | some categoryKey =>
    constructor
    · intro h key hkey
      obtain ⟨row, hrow, hhousehold, hrowKey, harchived, _⟩ := h
      exact ⟨row, hrow, hhousehold, Option.some.inj hkey ▸ hrowKey, harchived⟩
    · intro h
      obtain ⟨row, hrow, hhousehold, hrowKey, harchived⟩ := h categoryKey rfl
      cases hfind : d.categories.find? fun row => row.householdId == householdId &&
          row.categoryKey == categoryKey && !row.archived with
      | none =>
        have hnot := List.find?_eq_none.1 hfind row hrow
        simp [hhousehold, hrowKey, harchived] at hnot
      | some found =>
        have hmatch := List.find?_some hfind
        simp only [Bool.and_eq_true, beq_iff_eq, Bool.not_eq_true'] at hmatch
        refine ⟨found, List.mem_of_find?_eq_some hfind, hmatch.1.1, hmatch.1.2, hmatch.2, ?_⟩
        simp [categoryId, hfind]

/-- An upsert stores the obligation as proposed exactly when the proposal is storable. -/
theorem storesObligation_iff (hd : d.Consistent)
    (hu : ObligationUpserted d d' input expectedAmount obligation stored) :
    StoresObligation d d' input ↔ input.Storable d := by
  have hfields : obligation.variant = input.variant ∧ obligation.name = input.name ∧
      obligation.lifecycleStatus = input.lifecycleStatus ∧ obligation.recurrence = input.recurrence ∧
      obligation.expectedAmount = expectedAmount ∧
      obligation.expectedCurrency = input.expectedAmount.currency ∧ obligation.dueDay = input.dueDay ∧
      obligation.counterpartyName = input.counterpartyName ∧ obligation.accountId = input.accountId ∧
      obligation.budgetCategoryId = categoryId d input.householdId input.budgetCategoryKey := by
    rcases hu.written.wrote with hnew | ⟨old, _, hold⟩
    · rw [hnew]
      exact ⟨rfl, rfl, rfl, rfl, rfl, rfl, rfl, rfl, rfl, rfl⟩
    · rw [hold]
      exact ⟨rfl, rfl, rfl, rfl, rfl, rfl, rfl, rfl, rfl, rfl⟩
  obtain ⟨hvariant, hname, hstatus, hrecurrence, hamount, hcurrency, hday, hcounterparty, haccount,
    hcategory⟩ := hfields
  have hcategories : d'.categories = d.categories := congrArg (fun d => d.categories) hu.rest
  have hcategoryIs : d'.CategoryIs input.householdId input.budgetCategoryKey obligation.budgetCategoryId ↔
      ∀ categoryKey, input.budgetCategoryKey = some categoryKey → d.HasCategory input.householdId categoryKey := by
    rw [hcategory, ← categoryIs_iff]
    cases input.budgetCategoryKey <;> simp only [CategoryIs, hcategories]
  have hamountIs : input.expectedAmount.IsStored obligation.expectedAmount obligation.expectedCurrency ↔
      input.expectedAmount.Exact := by
    rw [hamount, hcurrency]
    exact SavingsGoalRepository.money_isStored_iff hu.amount
  unfold StoresObligation
  rw [hu.obligationRecords_self]
  constructor
  · intro hstores
    obtain ⟨⟨record, hrecord, hequals⟩, _⟩ := hstores
    obtain rfl := List.singleton_inj.1 hrecord
    obtain ⟨hamounts, hrepeated, hoccurrences⟩ := (hu.occurrences_iff hd).1 hequals.occurrences
    exact ⟨hcategoryIs.1 hequals.category, hamountIs.1 hequals.expectedAmount, hamounts, hrepeated, hoccurrences⟩
  · intro hmeets
    refine ⟨⟨_, rfl, ?_⟩, hu.others_kept hd⟩
    constructor
    case variant => exact hvariant
    case name => exact hname
    case lifecycleStatus => exact hstatus
    case recurrence => exact hrecurrence
    case expectedAmount => exact hamountIs.2 hmeets.expectedAmount
    case dueDay => exact hday
    case counterpartyName => exact hcounterparty
    case accountId => exact haccount
    case category => exact hcategoryIs.2 hmeets.category
    case occurrences => exact (hu.occurrences_iff hd).2 ⟨hmeets.amounts, hmeets.repeated, hmeets.occurrences⟩

end ObligationUpserted

end PlanningRecords

end PlusOne
