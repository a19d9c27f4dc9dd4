import PlusOne.Reporting.Rebuild

/-! # Finalising a day

`finalizeDay` copies the current rows dated on or before the day. A current row is dated by the
latest journal applied to its account, so an account with a later posting, or with none, gets no new
row. -/

namespace PlusOne

open Numeric Relational

/-- What happens to the projections: a posted journal is applied, a day is finalised. -/
inductive ProjectionEvent
  | applied (journal : JournalRow)
  | finalized (householdId : HouseholdId) (balanceDate : LocalDate)

def runEvent (L : LedgerDb) : ProjectionEvent → Projections → Except Thrown Projections
  | .applied journal => applyJournal L (applyInput L journal)
  | .finalized householdId balanceDate => finalizeDay L householdId balanceDate

def runEvents (L : LedgerDb) (events : List ProjectionEvent) (P : Projections) :
    Except Thrown Projections :=
  events.foldlM (fun P event => runEvent L event P) P

def ProjectionEvent.journal? : ProjectionEvent → Option JournalRow
  | applied journal => some journal
  | finalized _ _ => none

/-- The journals applied in a history. -/
def appliedIn (events : List ProjectionEvent) : List JournalRow :=
  events.filterMap ProjectionEvent.journal?

/-! ## The rows of a history -/

/-- Two amounts of an account of the ledger: the reporting one is the native one, or 0 where the
account is not in the reporting currency. -/
def Converted (L : LedgerDb) (householdId : HouseholdId) (accountId : AccountId)
    (native reporting : DecimalAmount) : Prop :=
  ∃ household ∈ L.households, ∃ account ∈ L.accountsOf household.householdId,
    household.householdId = householdId ∧ account.accountId = accountId ∧
    reporting.units =
      if account.nativeCurrency = household.reportingCurrency then native.units else 0

/-- What holds of the projections after any history in which the journals have been applied. -/
structure Projected (L : LedgerDb) (journals : List JournalRow) (P : Projections) : Prop where
  currentKeys : Distinct CurrentBalanceRow.key P.currentBalances
  dailyKeys : Distinct DailyBalanceRow.key P.dailyBalances
  holds : ∀ household ∈ L.households, ∀ account ∈ L.accountsOf household.householdId,
    Holds L household account (inJournals journals)
      (P.currentBalance household.householdId account.accountId)
  current : ∀ row ∈ P.currentBalances, ∃ household ∈ L.households,
    ∃ account ∈ L.accountsOf household.householdId,
      row.key = (household.householdId, account.accountId)
  daily : ∀ row ∈ P.dailyBalances,
    Converted L row.householdId row.accountId row.nativeAmount row.reportingAmount

section Step

variable {L : LedgerDb} {journals : List JournalRow} {P P' : Projections}

theorem projected_empty : Projected L [] .empty where
  currentKeys := List.nodup_nil
  dailyKeys := List.nodup_nil
  holds _ _ _ _ := .absent fun _ _ => rfl
  current row hrow := by simp [Projections.empty] at hrow
  daily row hrow := by simp [Projections.empty] at hrow

theorem applyJournal_dailyBalances {input : ApplyJournalInput}
    (h : applyJournal L input P = .ok P') : P'.dailyBalances = P.dailyBalances := by
  unfold applyJournal at h
  split at h
  · cases h
    rfl
  · obtain ⟨rows, -, h⟩ := bind_eq_ok.1 h
    obtain ⟨currentBalances, -, h⟩ := bind_eq_ok.1 h
    cases pure_eq_ok.1 h
    rfl

variable {balanceDate : LocalDate} {householdId : HouseholdId}

theorem finalizeDay_currentBalances (h : finalizeDay L householdId balanceDate P = .ok P') :
    P'.currentBalances = P.currentBalances := by
  unfold finalizeDay at h
  split at h
  · cases h
    rfl
  · obtain ⟨dailyBalances, -, h⟩ := bind_eq_ok.1 h
    obtain ⟨row, -, h⟩ := bind_eq_ok.1 h
    obtain ⟨netWorthDaily, -, h⟩ := bind_eq_ok.1 h
    cases pure_eq_ok.1 h
    rfl

/-- A new current row stands under the key of an account of the ledger. -/
theorem applyJournal_current {input : ApplyJournalInput} (h : applyJournal L input P = .ok P')
    (hkeys : Distinct CurrentBalanceRow.key P.currentBalances)
    (hP : ∀ row ∈ P.currentBalances, ∃ household ∈ L.households,
      ∃ account ∈ L.accountsOf household.householdId,
        row.key = (household.householdId, account.accountId)) :
    Distinct CurrentBalanceRow.key P'.currentBalances ∧
      ∀ row ∈ P'.currentBalances, ∃ household ∈ L.households,
        ∃ account ∈ L.accountsOf household.householdId,
          row.key = (household.householdId, account.accountId) := by
  unfold applyJournal at h
  split at h
  · cases h
    exact ⟨hkeys, hP⟩
  · rename_i household hfound
    obtain ⟨rows, hrows, h⟩ := bind_eq_ok.1 h
    obtain ⟨currentBalances, hcurrent, h⟩ := bind_eq_ok.1 h
    cases pure_eq_ok.1 h
    have hnew : ∀ row ∈ rows, ∃ household ∈ L.households,
        ∃ account ∈ L.accountsOf household.householdId,
          row.key = (household.householdId, account.accountId) := by
      intro row hrow
      obtain ⟨account, haccount, hmade⟩ := exists_of_mem_mapM hrows hrow
      exact ⟨household, (LedgerDb.findHousehold_some hfound).1, account,
        (List.mem_filter.1 haccount).1, appliedRow_key hmade⟩
    constructor
    · exact hkeys.upsertAll (fun _ _ _ => accumulate_key) hcurrent
    · refine forall_upsertAll hP hnew ?_ hcurrent
      intro row _ old merged _ hold hmerged
      rw [accumulate_key hmerged]
      exact hold

theorem Projected.applyJournal (hP : Projected L journals P) (hL : L.Keyed) {journal : JournalRow}
    (hjournal : journal ∈ L.journals)
    (hnew : ∀ other ∈ journals, other.journalId ≠ journal.journalId)
    (h : PlusOne.applyJournal L (applyInput L journal) P = .ok P') :
    Projected L (journals ++ [journal]) P' := by
  have hcurrent := applyJournal_current h hP.currentKeys hP.current
  have hdaily := applyJournal_dailyBalances h
  refine ⟨hcurrent.1, by rw [hdaily]; exact hP.dailyKeys, ?_, hcurrent.2, by
    rw [hdaily]; exact hP.daily⟩
  intro household hhousehold account haccount
  have hfresh : ∀ posting, inJournals journals posting = true →
      (journal.journalId == posting.journalId) = false := by
    intro posting hin
    obtain ⟨other, hother, hid⟩ := List.any_eq_true.1 hin
    have hid' : other.journalId = posting.journalId := by simpa using hid
    simpa [← hid'] using (hnew other hother).symm
  have hstep := applyJournal_holds hL hjournal hfresh h hhousehold haccount
    (hP.holds household hhousehold account haccount)
  apply hstep.congr
  intro posting _
  simp [inJournals]

/-- A current row of an account has converted amounts. -/
theorem Projected.converted (hP : Projected L journals P) {row : CurrentBalanceRow}
    (hrow : row ∈ P.currentBalances) :
    Converted L row.householdId row.accountId row.nativeAmount row.reportingAmount := by
  obtain ⟨household, hhousehold, account, haccount, hkey⟩ := hP.current row hrow
  have hfound : P.currentBalance household.householdId account.accountId = some row := by
    rw [Projections.currentBalance, ← hkey]
    exact hP.currentKeys.find_eq hrow
  have hholds := hP.holds household hhousehold account haccount
  rw [hfound] at hholds
  cases hholds with
  | present _ hnative hreporting _ =>
  have hids := Prod.mk.inj hkey
  refine ⟨household, hhousehold, account, haccount, hids.1.symm, hids.2.symm, ?_⟩
  rw [hreporting, reportingBalance_eq, hnative]

theorem refinalize_key {new old merged : DailyBalanceRow} (h : refinalize new old = .ok merged) :
    merged.key = old.key := by
  cases h
  rfl

/-- The current rows a finalisation copies. -/
def currentBy (P : Projections) (householdId : HouseholdId) (balanceDate : LocalDate) :
    List CurrentBalanceRow :=
  P.currentBalances.filter fun row =>
    row.householdId == householdId && decide (row.asOf ≤ balanceDate)

/-- The statements of a finalisation, one after the other. -/
theorem finalizeDay_eq_ok (hL : L.Keyed) {household : HouseholdRow} (hhousehold : household ∈ L.households) :
    finalizeDay L household.householdId balanceDate P = .ok P' ↔
      ∃ dailyBalances row netWorthDaily,
        upsertAll DailyBalanceRow.key refinalize
          ((currentBy P household.householdId balanceDate).map (finalizedRow balanceDate))
          P.dailyBalances = .ok dailyBalances ∧
        netWorthRow L household balanceDate dailyBalances = .ok row ∧
        upsertAll NetWorthRow.key renetWorth [row] P.netWorthDaily = .ok netWorthDaily ∧
        P' = { P with dailyBalances, netWorthDaily } := by
  unfold finalizeDay
  simp only [hL.findHousehold hhousehold]
  constructor
  · intro h
    obtain ⟨dailyBalances, hdaily, h⟩ := bind_eq_ok.1 h
    obtain ⟨row, hrow, h⟩ := bind_eq_ok.1 h
    obtain ⟨netWorthDaily, hnet, h⟩ := bind_eq_ok.1 h
    exact ⟨dailyBalances, row, netWorthDaily, hdaily, hrow, hnet, (pure_eq_ok.1 h).symm⟩
  · rintro ⟨dailyBalances, row, netWorthDaily, hdaily, hrow, hnet, rfl⟩
    exact bind_eq_ok.2 ⟨_, hdaily, bind_eq_ok.2 ⟨_, hrow, bind_eq_ok.2 ⟨_, hnet, rfl⟩⟩⟩

theorem converted_upsertAll (hP : Projected L journals P) {dailyBalances : List DailyBalanceRow}
    (h : upsertAll DailyBalanceRow.key refinalize
      ((currentBy P householdId balanceDate).map (finalizedRow balanceDate)) P.dailyBalances =
        .ok dailyBalances) :
    ∀ row ∈ dailyBalances,
      Converted L row.householdId row.accountId row.nativeAmount row.reportingAmount := by
  have hnew : ∀ row ∈ (currentBy P householdId balanceDate).map (finalizedRow balanceDate),
      Converted L row.householdId row.accountId row.nativeAmount row.reportingAmount := by
    intro row hrow
    obtain ⟨current, hcurrent, rfl⟩ := List.mem_map.1 hrow
    exact hP.converted (List.mem_filter.1 hcurrent).1
  refine forall_upsertAll hP.daily hnew ?_ h
  intro row hrow old merged hkey _ hmerged
  cases hmerged
  have hconverted := hnew row hrow
  have hhousehold : old.householdId = row.householdId := congrArg Prod.fst hkey
  have haccount : old.accountId = row.accountId := congrArg (fun key => key.2.1) hkey
  rwa [← hhousehold, ← haccount] at hconverted

theorem Projected.finalizeDay (hP : Projected L journals P) (hL : L.Keyed)
    (h : PlusOne.finalizeDay L householdId balanceDate P = .ok P') : Projected L journals P' := by
  have hsame := finalizeDay_currentBalances h
  have hcurrent : ∀ householdId accountId,
      P'.currentBalance householdId accountId = P.currentBalance householdId accountId := by
    intro householdId accountId
    rw [Projections.currentBalance, Projections.currentBalance, hsame]
  have hdaily : Distinct DailyBalanceRow.key P'.dailyBalances ∧ ∀ row ∈ P'.dailyBalances,
      Converted L row.householdId row.accountId row.nativeAmount row.reportingAmount := by
    cases hfound : L.findHousehold householdId with
    | none =>
      rw [PlusOne.finalizeDay, hfound] at h
      cases h
      exact ⟨hP.dailyKeys, hP.daily⟩
    | some household =>
      obtain ⟨hhousehold, rfl⟩ := LedgerDb.findHousehold_some hfound
      obtain ⟨dailyBalances, row, netWorthDaily, hupsert, -, -, rfl⟩ :=
        (finalizeDay_eq_ok hL hhousehold).1 h
      exact ⟨hP.dailyKeys.upsertAll (fun _ _ _ => refinalize_key) hupsert,
        converted_upsertAll hP hupsert⟩
  refine ⟨hsame ▸ hP.currentKeys, hdaily.1, ?_, hsame ▸ hP.current, hdaily.2⟩
  intro household hhousehold account haccount
  rw [hcurrent]
  exact hP.holds household hhousehold account haccount

/-- Any history leaves projected rows for the journals it applied. -/
theorem Projected.runEvents (hP : Projected L journals P) (hL : L.Keyed)
    {events : List ProjectionEvent}
    (hdistinct : Distinct JournalRow.journalId (journals ++ appliedIn events))
    (hjournals : ∀ journal ∈ appliedIn events, journal ∈ L.journals)
    (h : PlusOne.runEvents L events P = .ok P') : Projected L (journals ++ appliedIn events) P' := by
  induction events generalizing journals P with
  | nil =>
    cases h
    simpa [appliedIn] using hP
  | cons event events ih =>
    unfold PlusOne.runEvents at h
    rw [List.foldlM_cons] at h
    obtain ⟨mid, hmid, hrest⟩ := bind_eq_ok.1 h
    cases event with
    | applied journal =>
      have happlied : appliedIn (.applied journal :: events) = journal :: appliedIn events := rfl
      rw [happlied] at hdistinct hjournals ⊢
      have hassoc : journals ++ journal :: appliedIn events =
          (journals ++ [journal]) ++ appliedIn events := by simp
      have hnew : ∀ other ∈ journals, other.journalId ≠ journal.journalId := by
        intro other hother
        have hsplit : (journals.map JournalRow.journalId ++
            journal.journalId :: (appliedIn events).map JournalRow.journalId).Nodup := by
          simpa [Distinct] using hdistinct
        exact (List.nodup_append.1 hsplit).2.2 other.journalId (List.mem_map_of_mem hother)
          journal.journalId (by simp)
      have hstep := hP.applyJournal hL (hjournals journal (by simp)) hnew hmid
      rw [hassoc] at hdistinct ⊢
      exact ih hstep hdistinct (fun j hj => hjournals j (by simp [hj])) hrest
    | finalized householdId balanceDate =>
      have happlied : appliedIn (.finalized householdId balanceDate :: events) = appliedIn events := rfl
      rw [happlied] at hdistinct hjournals ⊢
      exact ih (hP.finalizeDay hL hmid) hdistinct hjournals hrest

end Step

/-! ## What a finalisation writes -/

/-- The account has postings, and all of them are effective by the date. -/
def Settled (L : LedgerDb) (date : LocalDate) (account : AccountRow) : Prop :=
  L.postingsOn account ≠ [] ∧ ∀ posting ∈ L.postingsOn account, L.effectiveBy date posting = true

/-- The daily row of an account holds its native balance up to the day. -/
def DailyRight (L : LedgerDb) (P : Projections) (date : LocalDate) (account : AccountRow) : Prop :=
  ∃ row, P.dailyBalance account.householdId account.accountId date = some row ∧
    row.nativeAmount.units = L.nativeBalanceOn date account

/-- The same of the rows of a table, for every account of a household. -/
def RowsRight (L : LedgerDb) (household : HouseholdRow) (date : LocalDate)
    (rows : List DailyBalanceRow) : Prop :=
  ∀ account ∈ L.accountsOf household.householdId, ∃ row,
    find DailyBalanceRow.key (household.householdId, account.accountId, date) rows = some row ∧
      row.nativeAmount.units = L.nativeBalanceOn date account

/-- The reporting balances of the accounts of a class up to a day, added up. -/
def ledgerTotal (L : LedgerDb) (household : HouseholdRow) (date : LocalDate)
    (accountingClass : AccountingClass) : Int :=
  sumWhere (fun account : AccountRow => account.accountingClass == accountingClass)
    (L.reportingBalanceOn household date) (L.accountsOf household.householdId)

section Finalize

variable {L : LedgerDb} {journals : List JournalRow} {P : Projections} {household : HouseholdRow}
  {account : AccountRow} {date : LocalDate} {dailyBalances : List DailyBalanceRow}

theorem find_currentBy (hP : Projected L journals P) (accountId : AccountId) :
    find CurrentBalanceRow.key (household.householdId, accountId)
        (currentBy P household.householdId date) =
      (P.currentBalance household.householdId accountId).filter fun row =>
        decide (row.asOf ≤ date) := by
  cases hfound : P.currentBalance household.householdId accountId with
  | none =>
    rw [Option.filter_none, find_eq_none]
    intro row hrow
    exact find_eq_none.1 hfound row (List.mem_filter.1 hrow).1
  | some row =>
    obtain ⟨hmem, hkey⟩ := find_some hfound
    have hhousehold : row.householdId = household.householdId := congrArg Prod.fst hkey
    rw [← hkey, currentBy, hP.currentKeys.find_filter hmem, hhousehold, Option.filter_some]
    simp

/-- An account whose postings are all effective by the day gets a row with its balance; the row of
every other account stays as it was. -/
theorem finalized_row (hP : Projected L journals P)
    (hall : ∀ posting ∈ L.postings, inJournals journals posting = true)
    (hhousehold : household ∈ L.households)
    (haccount : account ∈ L.accountsOf household.householdId)
    (h : upsertAll DailyBalanceRow.key refinalize
      ((currentBy P household.householdId date).map (finalizedRow date)) P.dailyBalances =
        .ok dailyBalances) :
    (Settled L date account ∧
      ∃ row, find DailyBalanceRow.key (household.householdId, account.accountId, date)
          dailyBalances = some row ∧ row.nativeAmount.units = L.nativeBalanceOn date account) ∨
    (¬Settled L date account ∧
      find DailyBalanceRow.key (household.householdId, account.accountId, date) dailyBalances =
        P.dailyBalance household.householdId account.accountId date) := by
  have hcurrentKeys : Distinct (fun row : CurrentBalanceRow => (row.householdId, row.accountId, date))
      (currentBy P household.householdId date) := by
    apply (hP.currentKeys.filter _).of_imp
    intro row _ other _ hsame
    simp only [Prod.mk.injEq, and_true] at hsame
    exact Prod.ext hsame.1 hsame.2
  have hmapKeys : Distinct DailyBalanceRow.key
      ((currentBy P household.householdId date).map (finalizedRow date)) := by
    unfold Distinct at *
    rwa [List.map_map]
  have hupserted := find_upsertAll (fun _ _ _ => refinalize_key) hmapKeys h
    (household.householdId, account.accountId, date)
  have hmap : find DailyBalanceRow.key (household.householdId, account.accountId, date)
      ((currentBy P household.householdId date).map (finalizedRow date)) =
        ((P.currentBalance household.householdId account.accountId).filter fun row =>
          decide (row.asOf ≤ date)).map (finalizedRow date) := by
    have hkey : ∀ row, (finalizedRow date row).key = (row.householdId, row.accountId, date) :=
      fun _ => rfl
    rw [find_map hkey, ← find_currentBy hP]
    congr 1
    apply find_congr
    intro row _
    simp [CurrentBalanceRow.key]
  rw [hmap] at hupserted
  have hholds := (hP.holds household hhousehold account haccount).congr fun posting hposting =>
    (hall posting (mem_postingsOn.1 hposting).1).trans (Eq.refl true)
  generalize P.currentBalance household.householdId account.accountId = current at hholds hupserted
  change Upserted refinalize _ (P.dailyBalance household.householdId account.accountId date) _
    at hupserted
  cases hholds with
  | absent hnone =>
    right
    constructor
    · intro hsettled
      exact hsettled.1 (postingsOn_eq_nil hnone)
    · exact hupserted.of_none
  | @present current hsome hnative hreporting hasOf =>
    have hiff : current.asOf ≤ date ↔ Settled L date account := by
      rw [hasOf date]
      obtain ⟨posting, hposting, -⟩ := hsome
      constructor
      · intro heffective
        exact ⟨List.ne_nil_of_mem hposting, fun p hp => heffective p hp rfl⟩
      · intro hsettled p hp _
        exact hsettled.2 p hp
    by_cases hle : current.asOf ≤ date
    · left
      have hsettled := hiff.1 hle
      have hamount : current.nativeAmount.units = L.nativeBalanceOn date account := by
        rw [hnative, LedgerDb.nativeBalanceOn]
        exact sumWhere_congr (fun p hp => (hsettled.2 p hp).symm) fun _ _ _ => rfl
      rw [Option.filter_some, if_pos (decide_eq_true hle), Option.map_some] at hupserted
      generalize P.dailyBalance household.householdId account.accountId date = old at hupserted
      generalize find DailyBalanceRow.key (household.householdId, account.accountId, date)
        dailyBalances = now at hupserted ⊢
      cases hupserted with
      | inserted => exact ⟨hsettled, _, rfl, hamount⟩
      | merged hmerged =>
        cases hmerged
        exact ⟨hsettled, _, rfl, hamount⟩
    · right
      rw [Option.filter_some, if_neg (by simpa using hle), Option.map_none] at hupserted
      exact ⟨fun hsettled => hle (hiff.2 hsettled), hupserted.of_none⟩

/-- When the daily row of every account is right, the totals over the rows are those of the ledger. -/
theorem classTotal_eq (hL : L.Keyed) (hhousehold : household ∈ L.households)
    (hkeys : Distinct DailyBalanceRow.key dailyBalances)
    (hconverted : ∀ row ∈ dailyBalances,
      Converted L row.householdId row.accountId row.nativeAmount row.reportingAmount)
    (hright : RowsRight L household date dailyBalances) (accountingClass : AccountingClass) :
    classTotal L household.householdId date accountingClass dailyBalances =
      ledgerTotal L household date accountingClass := by
  have hselected : ∀ row, dailyOfClass L household.householdId date accountingClass row = true ↔
      row.householdId = household.householdId ∧ row.balanceDate = date ∧
        ∃ account ∈ L.accountsOf household.householdId, account.accountId = row.accountId ∧
          account.accountingClass = accountingClass := by
    intro row
    simp only [dailyOfClass, Bool.and_eq_true, beq_iff_eq, List.any_eq_true]
    constructor
    · rintro ⟨⟨hid, hdate⟩, account, hmem, ⟨hhouse, haccount⟩, hclass⟩
      exact ⟨hid, hdate, account, mem_accountsOf.2 ⟨hmem, hhouse.trans hid⟩, haccount, hclass⟩
    · rintro ⟨hid, hdate, account, hmem, haccount, hclass⟩
      obtain ⟨hmem, hhouse⟩ := mem_accountsOf.1 hmem
      exact ⟨⟨hid, hdate⟩, account, hmem, ⟨hhouse.trans hid.symm, haccount⟩, hclass⟩
  have hrows : Distinct DailyBalanceRow.accountId
      (dailyBalances.filter (dailyOfClass L household.householdId date accountingClass)) := by
    apply (hkeys.filter _).of_imp
    intro row hrow other hother hsame
    obtain ⟨hid, hdate, -⟩ := (hselected row).1 (List.mem_filter.1 hrow).2
    obtain ⟨hid', hdate', -⟩ := (hselected other).1 (List.mem_filter.1 hother).2
    rw [DailyBalanceRow.key, DailyBalanceRow.key, hid, hid', hdate, hdate', hsame]
  have haccounts : Distinct AccountRow.accountId ((L.accountsOf household.householdId).filter
      fun account : AccountRow => account.accountingClass == accountingClass) :=
    (hL.accounts.filter _).filter _
  have hids : ∀ k, k ∈ (dailyBalances.filter
        (dailyOfClass L household.householdId date accountingClass)).map DailyBalanceRow.accountId ↔
      k ∈ ((L.accountsOf household.householdId).filter fun account : AccountRow =>
        account.accountingClass == accountingClass).map AccountRow.accountId := by
    intro k
    constructor
    · intro hk
      obtain ⟨row, hrow, rfl⟩ := List.mem_map.1 hk
      obtain ⟨-, -, account, hmem, haccount, hclass⟩ := (hselected row).1 (List.mem_filter.1 hrow).2
      exact List.mem_map.2 ⟨account, List.mem_filter.2 ⟨hmem, by simpa using hclass⟩, haccount⟩
    · intro hk
      obtain ⟨account, haccount, rfl⟩ := List.mem_map.1 hk
      obtain ⟨hmem, hclass⟩ := List.mem_filter.1 haccount
      obtain ⟨row, hfound, -⟩ := hright account hmem
      obtain ⟨hrow, hkey⟩ := find_some hfound
      simp only [DailyBalanceRow.key, Prod.mk.injEq] at hkey
      have hchosen : dailyOfClass L household.householdId date accountingClass row = true :=
        (hselected row).2
          ⟨hkey.1, hkey.2.2, account, hmem, hkey.2.1.symm, by simpa using hclass⟩
      exact List.mem_map.2 ⟨row, List.mem_filter.2 ⟨hrow, hchosen⟩, hkey.2.1⟩
  have hvalues : ∀ row ∈ dailyBalances.filter
        (dailyOfClass L household.householdId date accountingClass),
      ∀ account ∈ (L.accountsOf household.householdId).filter fun account : AccountRow =>
        account.accountingClass == accountingClass,
      row.accountId = account.accountId →
        row.reportingAmount.units = L.reportingBalanceOn household date account := by
    intro row hrow account haccount hsame
    obtain ⟨hrow, hchosen⟩ := List.mem_filter.1 hrow
    obtain ⟨hid, hdate, -⟩ := (hselected row).1 hchosen
    have hmem := (List.mem_filter.1 haccount).1
    obtain ⟨found, hfound, hnative⟩ := hright account hmem
    have hkey : row.key = (household.householdId, account.accountId, date) := by
      rw [DailyBalanceRow.key, hid, hdate, hsame]
    rw [← hkey, hkeys.find_eq hrow] at hfound
    cases hfound
    obtain ⟨owner, howner, known, hknown, hownerId, hknownId, hreporting⟩ := hconverted row hrow
    obtain rfl : owner = household := by
      have hfind := hL.findHousehold howner
      rw [hownerId, hid, hL.findHousehold hhousehold] at hfind
      exact (Option.some.inj hfind).symm
    obtain rfl : known = account := by
      have hfind := hL.accounts.find_eq (mem_accountsOf.1 hknown).1
      rw [hknownId, hsame, hL.accounts.find_eq (mem_accountsOf.1 hmem).1] at hfind
      exact (Option.some.inj hfind).symm
    rw [hreporting, LedgerDb.reportingBalanceOn, reportingBalance_eq, hnative,
      LedgerDb.nativeBalanceOn]
  unfold classTotal ledgerTotal sumWhere
  exact sum_eq_of_keys hrows haccounts hids hvalues

/-- The net-worth row is there exactly when the totals fit their columns. -/
theorem netWorthRow_eq_ok {assets liabilities : Int} {row : NetWorthRow}
    (hassets : classTotal L household.householdId date .asset dailyBalances = assets)
    (hliabilities : classTotal L household.householdId date .liability dailyBalances = liabilities) :
    netWorthRow L household date dailyBalances = .ok row ↔
      row.key = (household.householdId, date) ∧
        row.reportingCurrency = household.reportingCurrency ∧
        row.assetReportingAmount.units = assets ∧ row.liabilityReportingAmount.units = liabilities ∧
        row.netWorthReportingAmount.units = assets - liabilities := by
  unfold netWorthRow
  simp only [hassets, hliabilities, bind_eq_ok, pure_eq_ok, stored_eq_ok, Fixed.ofUnits_eq_some]
  constructor
  · rintro ⟨assetAmount, hasset, liabilityAmount, hliability, netAmount, hnet, rfl⟩
    exact ⟨rfl, rfl, hasset, hliability, hnet⟩
  · rintro ⟨hkey, hcurrency, hasset, hliability, hnet⟩
    refine ⟨_, hasset, _, hliability, _, hnet, ?_⟩
    cases row
    simp only [NetWorthRow.key, Prod.mk.injEq] at hkey
    obtain ⟨rfl, rfl⟩ := hkey
    cases hcurrency
    rfl

theorem renetWorth_key {new old merged : NetWorthRow} (h : renetWorth new old = .ok merged) :
    merged.key = old.key := by
  cases h
  rfl

theorem netWorth_finalized {row : NetWorthRow} {rows netWorthDaily : List NetWorthRow}
    (h : upsertAll NetWorthRow.key renetWorth [row] rows = .ok netWorthDaily) :
    ∃ found, find NetWorthRow.key row.key netWorthDaily = some found ∧
      found.netWorthReportingAmount = row.netWorthReportingAmount := by
  have hupserted := find_upsertAll_singleton (fun _ _ _ => renetWorth_key) h
  generalize find NetWorthRow.key row.key rows = old at hupserted
  generalize find NetWorthRow.key row.key netWorthDaily = now at hupserted ⊢
  cases hupserted with
  | inserted => exact ⟨row, rfl, rfl⟩
  | merged hmerged =>
    cases hmerged
    exact ⟨_, rfl, rfl⟩

end Finalize

/-- A sum a `decimal_amount` column can hold. -/
def FitsAmount (units : Int) : Prop := units.natAbs < 10 ^ 38

/-- Every account of the household has its native balance up to the day in its daily row, and the net
worth of the day is that of the same balances. -/
def DayRight (L : LedgerDb) (household : HouseholdRow) (date : LocalDate) (P : Projections) : Prop :=
  (∀ account ∈ L.accountsOf household.householdId, DailyRight L P date account) ∧
    ∃ row, P.netWorth household.householdId date = some row ∧
      row.netWorthReportingAmount.units =
        ledgerTotal L household date .asset - ledgerTotal L household date .liability

/-- After any history that has applied the posted journals, finalising a day leaves it right exactly
when every account has postings, none of them later than the day, or its daily row was right before,
and the totals fit their columns. -/
theorem finalizeDay_right_iff {L : LedgerDb} (hL : L.Keyed) {events : List ProjectionEvent}
    (happlied : (appliedIn events).Perm L.journals) {P : Projections}
    (hrun : runEvents L events .empty = .ok P) {household : HouseholdRow}
    (hhousehold : household ∈ L.households) (date : LocalDate) :
    (∃ P', finalizeDay L household.householdId date P = .ok P' ∧ DayRight L household date P') ↔
      (∀ account ∈ L.accountsOf household.householdId,
        Settled L date account ∨ DailyRight L P date account) ∧
      FitsAmount (ledgerTotal L household date .asset) ∧
      FitsAmount (ledgerTotal L household date .liability) ∧
      FitsAmount (ledgerTotal L household date .asset - ledgerTotal L household date .liability) := by
  have hdistinct : Distinct JournalRow.journalId ([] ++ appliedIn events) :=
    (happlied.map JournalRow.journalId).nodup_iff.2 hL.journals
  have hP : Projected L (appliedIn events) P :=
    projected_empty.runEvents hL hdistinct (fun j hj => happlied.mem_iff.1 hj) hrun
  have hall : ∀ posting ∈ L.postings, inJournals (appliedIn events) posting = true :=
    fun posting hposting => hL.inJournals (fun j hj => happlied.mem_iff.2 hj) hposting
  have hhouse : ∀ account ∈ L.accountsOf household.householdId,
      account.householdId = household.householdId := fun _ haccount => (mem_accountsOf.1 haccount).2
  have hmerge : ∀ row old, ∃ merged, refinalize row old = .ok merged := fun _ _ => ⟨_, rfl⟩
  have hnetMerge : ∀ row old, ∃ merged, renetWorth row old = .ok merged := fun _ _ => ⟨_, rfl⟩
  have hupsert : ∃ dailyBalances, upsertAll DailyBalanceRow.key refinalize
      ((currentBy P household.householdId date).map (finalizedRow date)) P.dailyBalances =
        .ok dailyBalances := upsertAll_total hmerge _ _
  obtain ⟨dailyBalances, hdaily⟩ := hupsert
  have hkeys : Distinct DailyBalanceRow.key dailyBalances :=
    hP.dailyKeys.upsertAll (fun _ _ _ => refinalize_key) hdaily
  have htotals := fun (hright : RowsRight L household date dailyBalances) =>
    classTotal_eq hL hhousehold hkeys (converted_upsertAll hP hdaily) hright
  have hrow := fun account (haccount : account ∈ L.accountsOf household.householdId) =>
    finalized_row hP hall hhousehold haccount hdaily
  constructor
  · rintro ⟨P', hfinal, hright, -⟩
    obtain ⟨daily, row, netWorthDaily, hdaily', hnet, -, rfl⟩ := (finalizeDay_eq_ok hL hhousehold).1 hfinal
    obtain rfl : dailyBalances = daily := Except.ok.inj (hdaily.symm.trans hdaily')
    have hrights : RowsRight L household date dailyBalances := by
      intro account haccount
      have hone := hright account haccount
      rwa [DailyRight, hhouse account haccount] at hone
    obtain ⟨-, -, hassets, hliabilities, hworth⟩ :=
      (netWorthRow_eq_ok (htotals hrights .asset) (htotals hrights .liability)).1 hnet
    refine ⟨?_, ?_, ?_, ?_⟩
    · intro account haccount
      rcases hrow account haccount with ⟨hsettled, -⟩ | ⟨-, hkept⟩
      · exact .inl hsettled
      · right
        obtain ⟨found, hfound, hamount⟩ := hrights account haccount
        rw [hkept] at hfound
        exact ⟨found, by rw [hhouse account haccount, hfound], hamount⟩
    · rw [FitsAmount, ← hassets]
      exact row.assetReportingAmount.fits
    · rw [FitsAmount, ← hliabilities]
      exact row.liabilityReportingAmount.fits
    · rw [FitsAmount, ← hworth]
      exact row.netWorthReportingAmount.fits
  · rintro ⟨hsettled, hassets, hliabilities, hworth⟩
    have hrights : RowsRight L household date dailyBalances := by
      intro account haccount
      rcases hrow account haccount with ⟨-, hfound⟩ | ⟨hnot, hkept⟩
      · exact hfound
      · obtain ⟨found, hfound, hamount⟩ := (hsettled account haccount).resolve_left hnot
        rw [hhouse account haccount] at hfound
        exact ⟨found, by rw [hkept, hfound], hamount⟩
    let row : NetWorthRow :=
      { householdId := household.householdId, balanceDate := date
        assetReportingAmount := ⟨_, hassets⟩, liabilityReportingAmount := ⟨_, hliabilities⟩
        netWorthReportingAmount := ⟨_, hworth⟩, reportingCurrency := household.reportingCurrency }
    have hnet : netWorthRow L household date dailyBalances = .ok row :=
      (netWorthRow_eq_ok (htotals hrights .asset) (htotals hrights .liability)).2
        ⟨rfl, rfl, rfl, rfl, rfl⟩
    have hnets : ∃ netWorthDaily, upsertAll NetWorthRow.key renetWorth [row] P.netWorthDaily =
        .ok netWorthDaily := upsertAll_total hnetMerge _ _
    obtain ⟨netWorthDaily, hnetDaily⟩ := hnets
    obtain ⟨found, hfound, hamount⟩ := netWorth_finalized hnetDaily
    refine ⟨{ P with dailyBalances, netWorthDaily },
      (finalizeDay_eq_ok hL hhousehold).2 ⟨_, _, _, hdaily, hnet, hnetDaily, rfl⟩, ?_, ?_⟩
    · intro account haccount
      rw [DailyRight, hhouse account haccount]
      exact hrights account haccount
    · exact ⟨found, hfound, by rw [hamount]⟩

namespace TestReporting

/-- The same journal again, ten days later. -/
def later : JournalRow :=
  { journal with
    journalId := ⟨"01JNZQ4A9B8C7D6E5F4G3H2JJ2", by decide⟩
    draftId := ⟨"01JNZQ4A9B8C7D6E5F4G3H2JD2", by decide⟩
    checkedArtifactId := ⟨"01JNZQ4A9B8C7D6E5F4G3H2JR2", by decide⟩
    occurredOn := january 20 (by decide), effectiveOn := january 20 (by decide) }

def laterPosting (ordinal : Nat) (account : AccountRow) (direction : PostingDirection)
    (postingId : PostingId) : PostingRow :=
  { posting ordinal account direction postingId with journalId := later.journalId }

def twoJournals : LedgerDb :=
  { ledger with
    journals := [journal, later]
    postings := ledger.postings ++
      [laterPosting 1 cash .debit ⟨"01JNZQ4A9B8C7D6E5F4G3H2JS3", by decide⟩,
        laterPosting 2 opening .credit ⟨"01JNZQ4A9B8C7D6E5F4G3H2JS4", by decide⟩] }

def twenty : DecimalAmount := euros 20 (by decide)

def bothApplied : Projections :=
  { Projections.empty with
    currentBalances := [
      { row cash later.effectiveOn twenty zero with lastJournalId := later.journalId },
      { row opening later.effectiveOn twenty zero with lastJournalId := later.journalId }] }

def tenth : LocalDate := january 10 (Eq.refl true)

def tenthFinalized : Projections :=
  { bothApplied with netWorthDaily := [⟨householdId, tenth, zero, zero, zero, usd⟩] }

/-- A posting of the 20th keeps the balance of the 10th from being written. -/
theorem later_posting_hides_balance :
    runEvents twoJournals [.applied journal, .applied later] .empty = .ok bothApplied ∧
      finalizeDay twoJournals householdId tenth bothApplied = .ok tenthFinalized ∧
      twoJournals.nativeBalanceOn tenth cash = ten.units ∧
      tenthFinalized.dailyBalance householdId cash.accountId tenth = none := by
  decide +kernel

theorem finalizeDay_right_iff_opening :
    (∃ P', finalizeDay ledger householdId today applied = .ok P' ∧
        DayRight ledger household today P') ↔
      (∀ account ∈ ledger.accountsOf householdId,
        Settled ledger today account ∨ DailyRight ledger applied today account) ∧
      FitsAmount (ledgerTotal ledger household today .asset) ∧
      FitsAmount (ledgerTotal ledger household today .liability) ∧
      FitsAmount (ledgerTotal ledger household today .asset -
        ledgerTotal ledger household today .liability) := by
  have happlied : (appliedIn [.applied journal]).Perm ledger.journals := List.Perm.refl [journal]
  have hrun : runEvents ledger [.applied journal] .empty = .ok applied := by decide +kernel
  have hhousehold : household ∈ ledger.households := by decide
  exact finalizeDay_right_iff ledger_keyed happlied hrun hhousehold today

end TestReporting

end PlusOne
