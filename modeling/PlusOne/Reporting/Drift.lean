import PlusOne.Reporting.DailyBalances

/-! # Drift detection

The current check compares rows that are there, and the daily check compares finalised rows with
current ones. What they report is set against the balances the postings add up to. -/

namespace PlusOne

open Numeric Relational

variable {L : LedgerDb} {household : HouseholdRow} {date : LocalDate} {P P' : Projections}

/-- A check ends and leaves a health row that says healthy. -/
def ReportsHealthy (key : ProjectionKey) (householdId : HouseholdId) (date : LocalDate)
    (check : Except Thrown (List Drift × Projections)) : Prop :=
  ∃ drifts P', check = .ok (drifts, P') ∧ P'.isHealthy householdId key date

theorem rehealth_key {new old merged : HealthRow} (h : rehealth new old = .ok merged) :
    merged.key = old.key := by
  cases h
  rfl

theorem recordDrifts_healthy {key : ProjectionKey} {drifts : List Drift}
    (h : recordDrifts household key date drifts P = .ok P') :
    P'.isHealthy household.householdId key date ↔ drifts = [] := by
  obtain ⟨records, -, h⟩ := bind_eq_ok.1 h
  obtain ⟨health, hhealth, h⟩ := bind_eq_ok.1 h
  cases pure_eq_ok.1 h
  have hupserted := find_upsertAll_singleton (fun _ _ _ => rehealth_key) hhealth
  simp only [HealthRow.key] at hupserted
  have hstatus : ∃ row, find HealthRow.key (household.householdId, key, date) health = some row ∧
      row.status = if drifts.length = 0 then .healthy else .unhealthy := by
    generalize find HealthRow.key (household.householdId, key, date) P.health = old at hupserted
    generalize find HealthRow.key (household.householdId, key, date) health = now at hupserted ⊢
    cases hupserted with
    | inserted => exact ⟨_, rfl, rfl⟩
    | merged hmerged =>
      cases hmerged
      exact ⟨_, rfl, rfl⟩
  obtain ⟨row, hrow, hstatus⟩ := hstatus
  have hiff : row.status = .healthy ↔ drifts = [] := by
    rw [hstatus, ← List.length_eq_zero_iff]
    split
    · simp [*]
    · simp [*]
  constructor
  · rintro ⟨found, hfound, hhealthy⟩
    cases hrow.symm.trans hfound
    exact hiff.1 hhealthy
  · intro hnil
    exact ⟨row, hrow, hiff.2 hnil⟩

theorem recordDrifts_nil {key : ProjectionKey} :
    ∃ P', recordDrifts household key date [] P = .ok P' := by
  have hmerge : ∀ row old, ∃ merged, rehealth row old = .ok merged := fun _ _ => ⟨_, rfl⟩
  have hhealth : ∀ row, ∃ health, upsertAll HealthRow.key rehealth [row] P.health = .ok health :=
    fun row => upsertAll_total hmerge [row] P.health
  obtain ⟨health, hhealth⟩ := hhealth ⟨household.householdId, key, date, .healthy, 0⟩
  exact ⟨_, bind_eq_ok.2 ⟨[], rfl, bind_eq_ok.2 ⟨health, hhealth, rfl⟩⟩⟩

/-- A check reports healthy exactly when its query returns no row. -/
theorem reportsHealthy_iff {key : ProjectionKey} {drifts : List Drift} :
    ReportsHealthy key household.householdId date
        ((recordDrifts household key date drifts P).map fun P' => (drifts, P')) ↔ drifts = [] := by
  constructor
  · rintro ⟨found, P', hok, hhealthy⟩
    cases hrecord : recordDrifts household key date drifts P with
    | error e =>
      rw [hrecord] at hok
      cases hok
    | ok recorded =>
      rw [hrecord] at hok
      cases hok
      exact (recordDrifts_healthy hrecord).1 hhealthy
  · rintro rfl
    have hrecord : ∃ P', recordDrifts household key date [] P = .ok P' := recordDrifts_nil
    obtain ⟨P', hP'⟩ := hrecord
    exact ⟨[], P', by rw [hP']; rfl, (recordDrifts_healthy hP').2 rfl⟩

/-! ## The current check -/

/-- What the claim of a healthy account is: its row holds the balance, or it has neither row nor
postings. -/
def CurrentRight (L : LedgerDb) (P : Projections) (balance : AccountRow → Int)
    (account : AccountRow) : Prop :=
  match P.currentBalance account.householdId account.accountId with
  | some row => row.nativeAmount.units = balance account
  | none => L.postingsOn account = []

/-- An account with postings has no current row. -/
def RowMissing (L : LedgerDb) (P : Projections) (householdId : HouseholdId) : Prop :=
  ∃ account ∈ L.accountsOf householdId, L.postingsOn account ≠ [] ∧
    P.currentBalance account.householdId account.accountId = none

/-- A current row differs from the balance. -/
def RowWrong (L : LedgerDb) (P : Projections) (householdId : HouseholdId)
    (balance : AccountRow → Int) : Prop :=
  ∃ account ∈ L.accountsOf householdId, ∃ row,
    P.currentBalance account.householdId account.accountId = some row ∧
      row.nativeAmount.units ≠ balance account

/-- An account with a current row has postings after the date that do not cancel out. -/
def MovedAfter (L : LedgerDb) (P : Projections) (householdId : HouseholdId) (date : LocalDate) : Prop :=
  ∃ account ∈ L.accountsOf householdId,
    (P.currentBalance account.householdId account.accountId).isSome ∧
      L.nativeBalance account ≠ L.nativeBalanceOn date account

theorem currentRight_iff {householdId : HouseholdId} {balance : AccountRow → Int} :
    (∀ account ∈ L.accountsOf householdId, CurrentRight L P balance account) ↔
      ¬RowMissing L P householdId ∧ ¬RowWrong L P householdId balance := by
  constructor
  · intro hright
    constructor
    · rintro ⟨account, haccount, hne, hnone⟩
      have hone := hright account haccount
      rw [CurrentRight, hnone] at hone
      exact hne hone
    · rintro ⟨account, haccount, row, hrow, hne⟩
      have hone := hright account haccount
      rw [CurrentRight, hrow] at hone
      exact hne hone
  · rintro ⟨hmissing, hwrong⟩ account haccount
    unfold CurrentRight
    split
    · rename_i row hrow
      by_contra hne
      exact hwrong ⟨account, haccount, row, hrow, hne⟩
    · rename_i hnone
      by_contra hne
      exact hmissing ⟨account, haccount, hne, hnone⟩

theorem currentDrift_eq_none {account : AccountRow} : currentDrift L date P account = none ↔
    ∀ row, P.currentBalance account.householdId account.accountId = some row →
      row.nativeAmount.units = L.nativeBalanceOn date account := by
  unfold currentDrift
  cases P.currentBalance account.householdId account.accountId with
  | none => simp
  | some current => simp

/-- The current check finds nothing exactly when no row differs from the balance up to its date. -/
theorem checkCurrent_reports (hL : L.Keyed) (hhousehold : household ∈ L.households) :
    ReportsHealthy .current_balances household.householdId date
        (checkCurrentBalanceDrift L household.householdId date P) ↔
      ¬RowWrong L P household.householdId (L.nativeBalanceOn date) := by
  have hcheck : checkCurrentBalanceDrift L household.householdId date P =
      (recordDrifts household .current_balances date
        ((L.accountsOf household.householdId).filterMap (currentDrift L date P)) P).map
          fun P' => ((L.accountsOf household.householdId).filterMap (currentDrift L date P), P') := by
    unfold checkCurrentBalanceDrift
    simp only [hL.findHousehold hhousehold]
    rfl
  rw [hcheck, reportsHealthy_iff, List.filterMap_eq_nil_iff]
  constructor
  · rintro hnone ⟨account, haccount, row, hrow, hne⟩
    exact hne (currentDrift_eq_none.1 (hnone account haccount) row hrow)
  · intro hright account haccount
    rw [currentDrift_eq_none]
    intro row hrow
    by_contra hne
    exact hright ⟨account, haccount, row, hrow, hne⟩

/-- Rows are wrong about all postings as they are about those up to a date, when later postings on
accounts with a row cancel out. -/
theorem rowWrong_congr {householdId : HouseholdId} (h : ¬MovedAfter L P householdId date) :
    RowWrong L P householdId L.nativeBalance ↔ RowWrong L P householdId (L.nativeBalanceOn date) := by
  have hsame : ∀ account ∈ L.accountsOf householdId, ∀ row,
      P.currentBalance account.householdId account.accountId = some row →
        L.nativeBalance account = L.nativeBalanceOn date account := by
    intro account haccount row hrow
    by_contra hne
    exact h ⟨account, haccount, by rw [hrow]; rfl, hne⟩
  constructor
  · rintro ⟨account, haccount, row, hrow, hne⟩
    exact ⟨account, haccount, row, hrow, by rwa [← hsame account haccount row hrow]⟩
  · rintro ⟨account, haccount, row, hrow, hne⟩
    exact ⟨account, haccount, row, hrow, by rwa [hsame account haccount row hrow]⟩

theorem rowWrong_of_moved {householdId : HouseholdId} (h : MovedAfter L P householdId date) :
    RowWrong L P householdId L.nativeBalance ∨ RowWrong L P householdId (L.nativeBalanceOn date) := by
  obtain ⟨account, haccount, hsome, hne⟩ := h
  obtain ⟨row, hrow⟩ := Option.isSome_iff_exists.1 hsome
  by_cases hall : row.nativeAmount.units = L.nativeBalance account
  · right
    exact ⟨account, haccount, row, hrow, by rwa [hall]⟩
  · left
    exact ⟨account, haccount, row, hrow, hall⟩

/-! ## The daily check -/

/-- A finalised row of an account, and whether it differs from the current row it is compared with. -/
def Flagged (P : Projections) (date : LocalDate) (account : AccountRow) (daily : DailyBalanceRow) :
    Prop :=
  ∃ current, P.currentBalance account.householdId account.accountId = some current ∧
    current.asOf ≤ date ∧ daily.nativeAmount ≠ current.nativeAmount

/-- Some finalised row of the household and day satisfies a condition. -/
def SomeDaily (L : LedgerDb) (P : Projections) (householdId : HouseholdId) (date : LocalDate)
    (p : AccountRow → DailyBalanceRow → Prop) : Prop :=
  ∃ account ∈ L.accountsOf householdId, ∃ daily,
    P.dailyBalance account.householdId account.accountId date = some daily ∧ p account daily

/-- A finalised row holds the native balance of its account up to its date. -/
def Final (L : LedgerDb) (date : LocalDate) (account : AccountRow) (daily : DailyBalanceRow) : Prop :=
  daily.nativeAmount.units = L.nativeBalanceOn date account

theorem dailyDrift_eq_none {account : AccountRow} : dailyDrift date P account = none ↔
    ∀ daily, P.dailyBalance account.householdId account.accountId date = some daily →
      ¬Flagged P date account daily := by
  unfold dailyDrift Flagged
  cases P.currentBalance account.householdId account.accountId with
  | none => simp
  | some current =>
    cases P.dailyBalance account.householdId account.accountId date with
    | none => simp
    | some daily => simp

theorem checkDaily_reports (hL : L.Keyed) (hhousehold : household ∈ L.households) :
    ReportsHealthy .daily_balances household.householdId date
        (checkDailyBalanceDrift L household.householdId date P) ↔
      ¬SomeDaily L P household.householdId date (Flagged P date) := by
  have hcheck : checkDailyBalanceDrift L household.householdId date P =
      (recordDrifts household .daily_balances date
        ((L.accountsOf household.householdId).filterMap (dailyDrift date P)) P).map
          fun P' => ((L.accountsOf household.householdId).filterMap (dailyDrift date P), P') := by
    unfold checkDailyBalanceDrift
    simp only [hL.findHousehold hhousehold]
    rfl
  rw [hcheck, reportsHealthy_iff, List.filterMap_eq_nil_iff]
  constructor
  · rintro hnone ⟨account, haccount, daily, hdaily, hflagged⟩
    exact dailyDrift_eq_none.1 (hnone account haccount) daily hdaily hflagged
  · intro hnone account haccount
    rw [dailyDrift_eq_none]
    intro daily hdaily hflagged
    exact hnone ⟨account, haccount, daily, hdaily, hflagged⟩

theorem someDaily_split {householdId : HouseholdId} (p q : AccountRow → DailyBalanceRow → Prop) :
    SomeDaily L P householdId date p ↔
      SomeDaily L P householdId date (fun account daily => p account daily ∧ q account daily) ∨
      SomeDaily L P householdId date (fun account daily => p account daily ∧ ¬q account daily) := by
  constructor
  · rintro ⟨account, haccount, daily, hdaily, hp⟩
    by_cases hq : q account daily
    · exact .inl ⟨account, haccount, daily, hdaily, hp, hq⟩
    · exact .inr ⟨account, haccount, daily, hdaily, hp, hq⟩
  · rintro (⟨account, haccount, daily, hdaily, hp, -⟩ | ⟨account, haccount, daily, hdaily, hp, -⟩)
    · exact ⟨account, haccount, daily, hdaily, hp⟩
    · exact ⟨account, haccount, daily, hdaily, hp⟩

/-! ## Soundness and completeness -/

/-- When the checks report healthy exactly where the projections are right. The current rows are
judged by the balance up to the check's date and by the balance over all postings. -/
theorem drift_checks_exact_iff (hL : L.Keyed) (hhousehold : household ∈ L.households)
    (date : LocalDate) (P : Projections) :
    ((ReportsHealthy .current_balances household.householdId date
          (checkCurrentBalanceDrift L household.householdId date P) ↔
        ∀ account ∈ L.accountsOf household.householdId,
          CurrentRight L P (L.nativeBalanceOn date) account) ↔
      ¬RowMissing L P household.householdId ∨
        RowWrong L P household.householdId (L.nativeBalanceOn date)) ∧
    ((ReportsHealthy .current_balances household.householdId date
          (checkCurrentBalanceDrift L household.householdId date P) ↔
        ∀ account ∈ L.accountsOf household.householdId,
          CurrentRight L P L.nativeBalance account) ↔
      (¬MovedAfter L P household.householdId date ∧
        (¬RowMissing L P household.householdId ∨
          RowWrong L P household.householdId (L.nativeBalanceOn date))) ∨
      (MovedAfter L P household.householdId date ∧
        RowWrong L P household.householdId (L.nativeBalanceOn date) ∧
        (RowMissing L P household.householdId ∨
          RowWrong L P household.householdId L.nativeBalance))) ∧
    ((ReportsHealthy .daily_balances household.householdId date
          (checkDailyBalanceDrift L household.householdId date P) ↔
        ∀ account ∈ L.accountsOf household.householdId, ∀ daily,
          P.dailyBalance account.householdId account.accountId date = some daily →
            Final L date account daily) ↔
      SomeDaily L P household.householdId date
          (fun account daily => ¬Final L date account daily ∧ Flagged P date account daily) ∨
        (SomeDaily L P household.householdId date
            (fun account daily => ¬Final L date account daily ∧ ¬Flagged P date account daily) ↔
          SomeDaily L P household.householdId date
            (fun account daily => Flagged P date account daily ∧ Final L date account daily))) := by
  have hfinal : (∀ account ∈ L.accountsOf household.householdId, ∀ daily,
      P.dailyBalance account.householdId account.accountId date = some daily →
        Final L date account daily) ↔
      ¬SomeDaily L P household.householdId date (fun account daily => ¬Final L date account daily) := by
    constructor
    · rintro hall ⟨account, haccount, daily, hdaily, hwrong⟩
      exact hwrong (hall account haccount daily hdaily)
    · intro hnone account haccount daily hdaily
      by_contra hwrong
      exact hnone ⟨account, haccount, daily, hdaily, hwrong⟩
  have hflagged : SomeDaily L P household.householdId date (Flagged P date) ↔
      SomeDaily L P household.householdId date
          (fun account daily => Flagged P date account daily ∧ Final L date account daily) ∨
        SomeDaily L P household.householdId date
          (fun account daily => ¬Final L date account daily ∧ Flagged P date account daily) := by
    rw [someDaily_split _ (Final L date)]
    simp only [and_comm]
  rw [checkCurrent_reports hL hhousehold, checkDaily_reports hL hhousehold, currentRight_iff,
    currentRight_iff, hfinal, hflagged,
    someDaily_split (fun account daily => ¬Final L date account daily) (Flagged P date)]
  have hmoved : MovedAfter L P household.householdId date →
      RowWrong L P household.householdId L.nativeBalance ∨
        RowWrong L P household.householdId (L.nativeBalanceOn date) := rowWrong_of_moved
  have hsame : ¬MovedAfter L P household.householdId date →
      (RowWrong L P household.householdId L.nativeBalance ↔
        RowWrong L P household.householdId (L.nativeBalanceOn date)) := rowWrong_congr
  -- What is left is about which of the rows there are.
  generalize RowMissing L P household.householdId = missing
  generalize MovedAfter L P household.householdId date = moved at *
  generalize RowWrong L P household.householdId L.nativeBalance = wrong at *
  generalize RowWrong L P household.householdId (L.nativeBalanceOn date) = wrongBy at *
  generalize SomeDaily L P household.householdId date
    (fun account daily => ¬Final L date account daily ∧ Flagged P date account daily) = found
  generalize SomeDaily L P household.householdId date
    (fun account daily => ¬Final L date account daily ∧ ¬Flagged P date account daily) = overlooked
  generalize SomeDaily L P household.householdId date
    (fun account daily => Flagged P date account daily ∧ Final L date account daily) = mistaken
  clear hfinal hflagged
  refine ⟨?_, ?_, ?_⟩
  · tauto
  · by_cases h : moved
    · have hwrong := hmoved h
      tauto
    · have hiff := hsame h
      tauto
  · tauto

namespace TestReporting

def emptyChecked : Projections :=
  { Projections.empty with health := [⟨householdId, .current_balances, today, .healthy, 0⟩] }

/-- Ten euros were posted and there is no row at all: the check reports healthy. -/
theorem missing_row_healthy :
    checkCurrentBalanceDrift ledger householdId today .empty = .ok ([], emptyChecked) ∧
      (find HealthRow.key (householdId, .current_balances, today) emptyChecked.health).map
        HealthRow.status = some .healthy ∧
      Projections.empty.currentBalance householdId cash.accountId = none ∧
      ledger.nativeBalanceOn today cash = ten.units := by
  decide +kernel

theorem drift_checks_exact_iff_empty :
    (ReportsHealthy .current_balances householdId today
          (checkCurrentBalanceDrift ledger householdId today .empty) ↔
        ∀ account ∈ ledger.accountsOf householdId,
          CurrentRight ledger .empty (ledger.nativeBalanceOn today) account) ↔
      ¬RowMissing ledger .empty householdId ∨
        RowWrong ledger .empty householdId (ledger.nativeBalanceOn today) := by
  have hhousehold : household ∈ ledger.households := by decide
  exact (drift_checks_exact_iff ledger_keyed hhousehold today .empty).1

end TestReporting

end PlusOne
