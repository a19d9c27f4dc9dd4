import PlusOne.Ledger.Tables
import PlusOne.Relational.Computed

/-! # The projections and the statements that write and check them

The statements read the ledger and the projections and give the projections they leave. A sum that a
column cannot hold is an error. -/

namespace PlusOne

open Numeric Relational

structure CurrentBalanceRow where
  householdId : HouseholdId
  accountId : AccountId
  asOf : LocalDate
  nativeAmount : DecimalAmount
  nativeCurrency : CurrencyCode
  reportingAmount : DecimalAmount
  reportingCurrency : CurrencyCode
  lastJournalId : JournalId
  deriving DecidableEq

def CurrentBalanceRow.key (row : CurrentBalanceRow) : HouseholdId × AccountId :=
  (row.householdId, row.accountId)

structure DailyBalanceRow where
  householdId : HouseholdId
  accountId : AccountId
  balanceDate : LocalDate
  nativeAmount : DecimalAmount
  nativeCurrency : CurrencyCode
  reportingAmount : DecimalAmount
  reportingCurrency : CurrencyCode
  deriving DecidableEq

def DailyBalanceRow.key (row : DailyBalanceRow) : HouseholdId × AccountId × LocalDate :=
  (row.householdId, row.accountId, row.balanceDate)

structure NetWorthRow where
  householdId : HouseholdId
  balanceDate : LocalDate
  assetReportingAmount : DecimalAmount
  liabilityReportingAmount : DecimalAmount
  netWorthReportingAmount : DecimalAmount
  reportingCurrency : CurrencyCode
  deriving DecidableEq

def NetWorthRow.key (row : NetWorthRow) : HouseholdId × LocalDate := (row.householdId, row.balanceDate)

inductive ProjectionKey
  | current_balances | daily_balances | net_worth
  deriving DecidableEq

inductive HealthStatus
  | healthy | unhealthy
  deriving DecidableEq

structure HealthRow where
  householdId : HouseholdId
  projectionKey : ProjectionKey
  projectionDate : LocalDate
  status : HealthStatus
  driftCount : Nat
  deriving DecidableEq

def HealthRow.key (row : HealthRow) : HouseholdId × ProjectionKey × LocalDate :=
  (row.householdId, row.projectionKey, row.projectionDate)

structure DriftRow where
  householdId : HouseholdId
  projectionKey : ProjectionKey
  accountId : Option AccountId
  projectionDate : LocalDate
  projectedAmount : DecimalAmount
  authoritativeAmount : DecimalAmount
  currency : CurrencyCode
  resolved : Bool
  deriving DecidableEq

structure Projections where
  currentBalances : List CurrentBalanceRow
  dailyBalances : List DailyBalanceRow
  netWorthDaily : List NetWorthRow
  health : List HealthRow
  driftRecords : List DriftRow
  deriving DecidableEq

namespace Projections

def empty : Projections := ⟨[], [], [], [], []⟩

variable (P : Projections)

def currentBalance (householdId : HouseholdId) (accountId : AccountId) : Option CurrentBalanceRow :=
  find CurrentBalanceRow.key (householdId, accountId) P.currentBalances

def dailyBalance (householdId : HouseholdId) (accountId : AccountId) (date : LocalDate) :
    Option DailyBalanceRow :=
  find DailyBalanceRow.key (householdId, accountId, date) P.dailyBalances

def netWorth (householdId : HouseholdId) (date : LocalDate) : Option NetWorthRow :=
  find NetWorthRow.key (householdId, date) P.netWorthDaily

/-- What the primary keys of the projections promise. -/
structure Keyed : Prop where
  currentBalances : Distinct CurrentBalanceRow.key P.currentBalances
  dailyBalances : Distinct DailyBalanceRow.key P.dailyBalances
  netWorthDaily : Distinct NetWorthRow.key P.netWorthDaily
  health : Distinct HealthRow.key P.health

end Projections

/-! ## `ProjectionWriter` -/

structure ApplyJournalInput where
  householdId : HouseholdId
  journalId : JournalId
  postingIds : List PostingId
  effectiveOn : LocalDate

/-- The postings of the input on an account, one group of the statement. -/
def appliedPostings (L : LedgerDb) (input : ApplyJournalInput) (account : AccountRow) :
    List PostingRow :=
  (L.postingsOn account).filter fun posting =>
    posting.journalId == input.journalId && input.postingIds.contains posting.postingId

/-- The row the statement makes of a group. -/
def appliedRow (L : LedgerDb) (household : HouseholdRow) (input : ApplyJournalInput)
    (account : AccountRow) : Except Thrown CurrentBalanceRow := do
  let group := appliedPostings L input account
  let nativeAmount ← stored (Fixed.ofUnits (group.map (signedAmount account)).sum)
  let reportingAmount ← stored (Fixed.ofUnits (group.map (reportingAmount household account)).sum)
  return { householdId := household.householdId, accountId := account.accountId
           asOf := input.effectiveOn, nativeAmount, nativeCurrency := account.nativeCurrency
           reportingAmount, reportingCurrency := household.reportingCurrency
           lastJournalId := input.journalId }

/-- The assignments of `ON CONFLICT (household_id, account_id) DO UPDATE`. -/
def accumulate (excluded old : CurrentBalanceRow) : Except Thrown CurrentBalanceRow := do
  let nativeAmount ← stored (Fixed.ofUnits (old.nativeAmount.units + excluded.nativeAmount.units))
  let reportingAmount ←
    stored (Fixed.ofUnits (old.reportingAmount.units + excluded.reportingAmount.units))
  return { old with
    asOf := max old.asOf excluded.asOf, nativeAmount, reportingAmount
    lastJournalId := excluded.lastJournalId }

def applyJournal (L : LedgerDb) (input : ApplyJournalInput) (P : Projections) :
    Except Thrown Projections := do
  match L.findHousehold input.householdId with
  | none => return P
  | some household =>
    let groups := (L.accountsOf household.householdId).filter fun account =>
      !(appliedPostings L input account).isEmpty
    let rows ← groups.mapM (appliedRow L household input)
    let currentBalances ← upsertAll CurrentBalanceRow.key accumulate rows P.currentBalances
    return { P with currentBalances }

/-! ## `ProjectionRebuilder` -/

/-- The postings on an account that are effective by the date: those whose journal the left join
finds. -/
def settledPostings (L : LedgerDb) (asOf : LocalDate) (account : AccountRow) : List PostingRow :=
  (L.postingsOn account).filter (L.effectiveBy asOf)

/-- The row of the rebuild; the first amount column gets the reporting sum and the second the native
sum. -/
def rebuiltRow (L : LedgerDb) (household : HouseholdRow) (asOf : LocalDate) (account : AccountRow)
    (lastJournalId : JournalId) : Except Thrown CurrentBalanceRow := do
  let group := settledPostings L asOf account
  let nativeAmount ← stored (Fixed.ofUnits (group.map (reportingAmount household account)).sum)
  let reportingAmount ← stored (Fixed.ofUnits (group.map (signedAmount account)).sum)
  return { householdId := household.householdId, accountId := account.accountId, asOf, nativeAmount
           nativeCurrency := account.nativeCurrency, reportingAmount
           reportingCurrency := household.reportingCurrency, lastJournalId }

/-- `max(journal.id)`: the journal inserted last of those the postings belong to. -/
def lastJournal (L : LedgerDb) (postings : List PostingRow) : Option JournalId :=
  ((L.journals.filter fun journal => postings.any fun posting =>
    posting.householdId == journal.householdId && posting.journalId == journal.journalId).map
      JournalRow.journalId).getLast?

def alreadyThere (_ _ : CurrentBalanceRow) : Except Thrown CurrentBalanceRow :=
  .error (.pg (uniqueViolation "account_current_balances_pkey"))

/-- The update that marks the open drift records of a projection as resolved. -/
def resolveDrift (householdId : HouseholdId) (key : ProjectionKey) (rows : List DriftRow) :
    List DriftRow :=
  rows.map fun row =>
    if row.householdId = householdId ∧ row.projectionKey = key then { row with resolved := true }
    else row

def rebuildCurrentBalances (L : LedgerDb) (householdId : HouseholdId) (asOf : LocalDate)
    (P : Projections) : Except Thrown Projections := do
  match L.findHousehold householdId with
  | none => return P
  | some household =>
    let others := P.currentBalances.filter fun row => row.householdId != household.householdId
    let groups := (L.accountsOf household.householdId).filterMap fun account =>
      (lastJournal L (settledPostings L asOf account)).map fun journalId => (account, journalId)
    let rows ← groups.mapM fun (account, journalId) =>
      rebuiltRow L household asOf account journalId
    let currentBalances ← upsertAll CurrentBalanceRow.key alreadyThere rows others
    return { P with
      currentBalances
      driftRecords := resolveDrift household.householdId .current_balances P.driftRecords }

/-! ## `ProjectionFinalizer` -/

def finalizedRow (balanceDate : LocalDate) (current : CurrentBalanceRow) : DailyBalanceRow :=
  { householdId := current.householdId, accountId := current.accountId, balanceDate
    nativeAmount := current.nativeAmount, nativeCurrency := current.nativeCurrency
    reportingAmount := current.reportingAmount, reportingCurrency := current.reportingCurrency }

def refinalize (excluded old : DailyBalanceRow) : Except Thrown DailyBalanceRow :=
  .ok { old with
    nativeAmount := excluded.nativeAmount, reportingAmount := excluded.reportingAmount }

/-- The daily rows of a household and date whose account is of a class. -/
def dailyOfClass (L : LedgerDb) (householdId : HouseholdId) (balanceDate : LocalDate)
    (accountingClass : AccountingClass) (row : DailyBalanceRow) : Bool :=
  row.householdId == householdId && row.balanceDate == balanceDate &&
    L.accounts.any fun account => account.householdId == row.householdId &&
      account.accountId == row.accountId && account.accountingClass == accountingClass

/-- `sum(daily.reporting_amount) FILTER (WHERE account.accounting_class = …)` -/
def classTotal (L : LedgerDb) (householdId : HouseholdId) (balanceDate : LocalDate)
    (accountingClass : AccountingClass) (rows : List DailyBalanceRow) : Int :=
  sumWhere (dailyOfClass L householdId balanceDate accountingClass)
    (fun row => row.reportingAmount.units) rows

def netWorthRow (L : LedgerDb) (household : HouseholdRow) (balanceDate : LocalDate)
    (rows : List DailyBalanceRow) : Except Thrown NetWorthRow := do
  let assets := classTotal L household.householdId balanceDate .asset rows
  let liabilities := classTotal L household.householdId balanceDate .liability rows
  let assetReportingAmount ← stored (Fixed.ofUnits assets)
  let liabilityReportingAmount ← stored (Fixed.ofUnits liabilities)
  let netWorthReportingAmount ← stored (Fixed.ofUnits (assets - liabilities))
  return { householdId := household.householdId, balanceDate, assetReportingAmount
           liabilityReportingAmount, netWorthReportingAmount
           reportingCurrency := household.reportingCurrency }

def renetWorth (excluded old : NetWorthRow) : Except Thrown NetWorthRow :=
  .ok { old with
    assetReportingAmount := excluded.assetReportingAmount
    liabilityReportingAmount := excluded.liabilityReportingAmount
    netWorthReportingAmount := excluded.netWorthReportingAmount }

def finalizeDay (L : LedgerDb) (householdId : HouseholdId) (balanceDate : LocalDate)
    (P : Projections) : Except Thrown Projections := do
  match L.findHousehold householdId with
  | none => return P
  | some household =>
    let current := P.currentBalances.filter fun row =>
      row.householdId == household.householdId && decide (row.asOf ≤ balanceDate)
    let dailyBalances ← upsertAll DailyBalanceRow.key refinalize
      (current.map (finalizedRow balanceDate)) P.dailyBalances
    let row ← netWorthRow L household balanceDate dailyBalances
    let netWorthDaily ← upsertAll NetWorthRow.key renetWorth [row] P.netWorthDaily
    return { P with dailyBalances, netWorthDaily }

/-! ## `ProjectionHealthRepository` -/

/-- A row the drift query returns: the projected amount is a column, the authoritative one a sum. -/
structure Drift where
  accountId : AccountId
  projected : DecimalAmount
  authoritative : Int
  currency : CurrencyCode
  deriving DecidableEq

def driftRow (householdId : HouseholdId) (key : ProjectionKey) (date : LocalDate) (drift : Drift) :
    Except Thrown DriftRow := do
  let authoritativeAmount ← stored (Fixed.ofUnits drift.authoritative)
  return { householdId, projectionKey := key, accountId := some drift.accountId
           projectionDate := date, projectedAmount := drift.projected, authoritativeAmount
           currency := drift.currency, resolved := false }

def rehealth (excluded old : HealthRow) : Except Thrown HealthRow :=
  .ok { old with status := excluded.status, driftCount := excluded.driftCount }

/-- The drift records and the health row a check leaves for the drifts it found. -/
def recordDrifts (household : HouseholdRow) (key : ProjectionKey) (date : LocalDate)
    (drifts : List Drift) (P : Projections) : Except Thrown Projections := do
  let records ← drifts.mapM (driftRow household.householdId key date)
  let row : HealthRow :=
    { householdId := household.householdId, projectionKey := key, projectionDate := date
      status := if drifts.length = 0 then .healthy else .unhealthy, driftCount := drifts.length }
  let health ← upsertAll HealthRow.key rehealth [row] P.health
  return { P with health, driftRecords := P.driftRecords ++ records }

/-- The drift of an account whose current row differs from the sum of its postings effective by the
date. -/
def currentDrift (L : LedgerDb) (asOf : LocalDate) (P : Projections) (account : AccountRow) :
    Option Drift :=
  match P.currentBalance account.householdId account.accountId with
  | none => none
  | some current =>
    let amount := L.nativeBalanceOn asOf account
    if current.nativeAmount.units ≠ amount then
      some ⟨account.accountId, current.nativeAmount, amount, account.nativeCurrency⟩
    else none

def checkCurrentBalanceDrift (L : LedgerDb) (householdId : HouseholdId) (asOf : LocalDate)
    (P : Projections) : Except Thrown (List Drift × Projections) := do
  match L.findHousehold householdId with
  | none => return ([], P)
  | some household =>
    let drifts := (L.accountsOf household.householdId).filterMap (currentDrift L asOf P)
    return (drifts, ← recordDrifts household .current_balances asOf drifts P)

/-- The drift of an account whose finalised row differs from its current row, if that is dated on or
before the day. -/
def dailyDrift (balanceDate : LocalDate) (P : Projections) (account : AccountRow) : Option Drift :=
  match P.currentBalance account.householdId account.accountId,
    P.dailyBalance account.householdId account.accountId balanceDate with
  | some current, some daily =>
    if current.asOf ≤ balanceDate ∧ daily.nativeAmount ≠ current.nativeAmount then
      some ⟨account.accountId, daily.nativeAmount, current.nativeAmount.units, current.nativeCurrency⟩
    else none
  | _, _ => none

def checkDailyBalanceDrift (L : LedgerDb) (householdId : HouseholdId) (balanceDate : LocalDate)
    (P : Projections) : Except Thrown (List Drift × Projections) := do
  match L.findHousehold householdId with
  | none => return ([], P)
  | some household =>
    let drifts := (L.accountsOf household.householdId).filterMap (dailyDrift balanceDate P)
    return (drifts, ← recordDrifts household .daily_balances balanceDate drifts P)

/-- The health row of a projection, if it says healthy. -/
def Projections.isHealthy (P : Projections) (householdId : HouseholdId) (key : ProjectionKey)
    (date : LocalDate) : Prop :=
  ∃ row, find HealthRow.key (householdId, key, date) P.health = some row ∧ row.status = .healthy

end PlusOne
