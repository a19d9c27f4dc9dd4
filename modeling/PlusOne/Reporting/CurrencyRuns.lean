import PlusOne.Reporting.Currencies

/-! # The currencies over whole runs

Posting, finalising, rebuilding and planning in any order. What the projections hold stays a sum of
postings in the currency of the row as long as a rebuild meets no account in another currency. -/

namespace PlusOne

open Numeric Relational

namespace PlanningDb

/-- The ledger with one journal more. -/
def withJournal (d : PlanningDb) (journal : JournalRow) (postings : List PostingRow) : PlanningDb :=
  { d with journals := d.journals ++ [journal], postings := d.postings ++ postings }

/-- The accounts of the household whose settled postings do not come to nothing are in its reporting
currency. -/
def RebuildsInCurrency (d : PlanningDb) (householdId : HouseholdId) (asOf : LocalDate) : Prop :=
  ∀ household ∈ d.households, household.householdId = householdId → ∀ account ∈ d.accountsOf householdId,
    account.nativeCurrency = household.reportingCurrency ∨
      ((settledPostings d.toLedgerDb asOf account).map (signedAmount account)).sum = 0

/-- What a later state keeps of the postings and the households. -/
structure Keeps (d d' : PlanningDb) : Prop where
  postings : ∀ posting ∈ d.postings, posting ∈ d'.postings ∧ d'.signedPosting posting = d.signedPosting posting
  households : ∀ household ∈ d.households, household ∈ d'.households

end PlanningDb

open PlanningDb

/-- The histories of a ledger, its plans and its projections. A journal is projected in the transaction
that posts it; an account with postings keeps its currency and its normal balance. -/
inductive ReportRun (admits : PlanningDb → HouseholdId → LocalDate → Prop) : PlanningDb → Projections → Prop
  | start {d : PlanningDb} (keyed : d.toLedgerDb.Keyed) (postings : d.postings = [])
      (scopes : d.scopes = []) (categories : d.categories = []) (versions : d.versions = [])
      (allocations : d.allocations = []) (mappings : d.mappings = []) : ReportRun admits d .empty
  | post {d : PlanningDb} {P P' : Projections} {journal : JournalRow} {postings : List PostingRow}
      (run : ReportRun admits d P) (keyed : (d.withJournal journal postings).toLedgerDb.Keyed)
      (denominated : ∀ posting ∈ postings, ∀ account ∈ d.accounts, account.householdId = posting.householdId →
        account.accountId = posting.accountId → posting.accountNativeCurrency = account.nativeCurrency)
      (applied : applyJournal (d.withJournal journal postings).toLedgerDb
        (applyInput (d.withJournal journal postings).toLedgerDb journal) P = .ok P') :
      ReportRun admits (d.withJournal journal postings) P'
  | ledger {d : PlanningDb} {P : Projections} {L : LedgerDb} (run : ReportRun admits d P) (keyed : L.Keyed)
      (postings : L.postings = d.postings)
      (households : ∀ household ∈ d.households, household ∈ L.households)
      (accounts : ∀ posting ∈ d.postings, ∀ account ∈ d.accounts, account.householdId = posting.householdId →
        account.accountId = posting.accountId → ∃ account' ∈ L.accounts,
          account'.householdId = account.householdId ∧ account'.accountId = account.accountId ∧
            account'.normalBalance = account.normalBalance ∧
            account'.nativeCurrency = account.nativeCurrency) :
      ReportRun admits { d with toLedgerDb := L } P
  | finalize {d : PlanningDb} {P P' : Projections} {householdId : HouseholdId} {balanceDate : LocalDate}
      (run : ReportRun admits d P) (finalized : finalizeDay d.toLedgerDb householdId balanceDate P = .ok P') :
      ReportRun admits d P'
  | rebuild {d : PlanningDb} {P P' : Projections} {householdId : HouseholdId} {asOf : LocalDate}
      (run : ReportRun admits d P) (admitted : admits d householdId asOf)
      (rebuilt : rebuildCurrentBalances d.toLedgerDb householdId asOf P = .ok P') : ReportRun admits d P'
  | activate {d d' : PlanningDb} {P : Projections} {input : ActivateBudgetProposal}
      (run : ReportRun admits d P) (activated : BudgetRepository.activate d input = .ok d') :
      ReportRun admits d' P
  | save {d d' : PlanningDb} {P : Projections} {input : UpsertSavingsGoalProposal}
      (run : ReportRun admits d P) (saved : SavingsGoalRepository.upsert d input = .ok d') :
      ReportRun admits d' P

namespace PlanningDb

variable {d d' : PlanningDb} {P P' : Projections} {householdId : HouseholdId} {accountId : AccountId}
  {currency : CurrencyCode}

/-! ## Balances in their currencies -/

/-- A row about a posted account and its household, with both amounts in their currencies. -/
structure BalanceRight (d : PlanningDb) (householdId : HouseholdId) (accountId : AccountId)
    (nativeAmount : DecimalAmount) (nativeCurrency : CurrencyCode) (reportingAmount : DecimalAmount)
    (reportingCurrency : CurrencyCode) : Prop where
  posted : ∃ posting ∈ d.postings, Booked householdId accountId nativeCurrency posting
  household : ∃ household ∈ d.households, household.householdId = householdId ∧
    household.reportingCurrency = reportingCurrency
  native : d.BalanceIn householdId accountId nativeCurrency nativeAmount
  reporting : d.BalanceIn householdId accountId reportingCurrency reportingAmount

def CurrentRight (d : PlanningDb) (row : CurrentBalanceRow) : Prop :=
  d.BalanceRight row.householdId row.accountId row.nativeAmount row.nativeCurrency row.reportingAmount
    row.reportingCurrency

def DailyRight (d : PlanningDb) (row : DailyBalanceRow) : Prop :=
  d.BalanceRight row.householdId row.accountId row.nativeAmount row.nativeCurrency row.reportingAmount
    row.reportingCurrency

structure NetWorthRight (d : PlanningDb) (row : NetWorthRow) : Prop where
  household : ∃ household ∈ d.households, household.householdId = row.householdId ∧
    household.reportingCurrency = row.reportingCurrency
  assets : d.TotalIn row.householdId row.reportingCurrency row.assetReportingAmount
  liabilities : d.TotalIn row.householdId row.reportingCurrency row.liabilityReportingAmount
  netWorth : row.netWorthReportingAmount.units =
    row.assetReportingAmount.units - row.liabilityReportingAmount.units

/-- What holds of the tables and the projections all along. -/
structure Reported (d : PlanningDb) (P : Projections) : Prop where
  budgeted : d.Budgeted
  denominated : d.Denominated
  current : ∀ row ∈ P.currentBalances, d.CurrentRight row
  daily : ∀ row ∈ P.dailyBalances, d.DailyRight row
  dailyKeys : Distinct DailyBalanceRow.key P.dailyBalances
  netWorth : ∀ row ∈ P.netWorthDaily, d.NetWorthRight row

variable {amount : DecimalAmount}

theorem BalanceIn.mono (hkeeps : d.Keeps d') (h : d.BalanceIn householdId accountId currency amount) :
    d'.BalanceIn householdId accountId currency amount := by
  refine PartSum.mono h ?_
  intro posting hposting hbooked
  obtain ⟨hmem, hsign⟩ := hkeeps.postings posting hposting
  exact ⟨hmem, hbooked, hsign⟩

theorem TotalIn.mono (hkeeps : d.Keeps d') (h : d.TotalIn householdId currency amount) :
    d'.TotalIn householdId currency amount := by
  refine PartSum.mono h ?_
  intro posting hposting hbooked
  obtain ⟨hmem, hsign⟩ := hkeeps.postings posting hposting
  exact ⟨hmem, hbooked, hsign⟩

theorem BalanceRight.mono (hkeeps : d.Keeps d') {native reporting : DecimalAmount}
    {nativeCurrency reportingCurrency : CurrencyCode}
    (h : d.BalanceRight householdId accountId native nativeCurrency reporting reportingCurrency) :
    d'.BalanceRight householdId accountId native nativeCurrency reporting reportingCurrency := by
  obtain ⟨posting, hposting, hbooked⟩ := h.posted
  obtain ⟨household, hhousehold, hsame⟩ := h.household
  exact ⟨⟨posting, (hkeeps.postings posting hposting).1, hbooked⟩,
    ⟨household, hkeeps.households household hhousehold, hsame⟩, h.native.mono hkeeps, h.reporting.mono hkeeps⟩

theorem NetWorthRight.mono (hkeeps : d.Keeps d') {row : NetWorthRow} (h : d.NetWorthRight row) :
    d'.NetWorthRight row := by
  obtain ⟨household, hhousehold, hsame⟩ := h.household
  exact ⟨⟨household, hkeeps.households household hhousehold, hsame⟩, h.assets.mono hkeeps,
    h.liabilities.mono hkeeps, h.netWorth⟩

theorem Reported.mono (h : d.Reported P) (hkeeps : d.Keeps d') (hbudgeted : d'.Budgeted)
    (hdenominated : d'.Denominated) : d'.Reported P where
  budgeted := hbudgeted
  denominated := hdenominated
  current row hrow := BalanceRight.mono hkeeps (h.current row hrow)
  daily row hrow := BalanceRight.mono hkeeps (h.daily row hrow)
  dailyKeys := h.dailyKeys
  netWorth row hrow := (h.netWorth row hrow).mono hkeeps

theorem Keeps.of_ledger (h : d'.toLedgerDb = d.toLedgerDb) : d.Keeps d' := by
  have haccounts : d'.accounts = d.accounts := by rw [h]
  constructor
  · intro posting hposting
    constructor
    · rw [h]
      exact hposting
    · rw [signedPosting, signedPosting, haccounts]
  · intro household hhousehold
    rw [h]
    exact hhousehold

variable {account : AccountRow}

theorem signedPosting_account (hkeyed : d.toLedgerDb.Keyed) (haccount : account ∈ d.accounts) {posting : PostingRow}
    (hid : account.accountId = posting.accountId) :
    d.signedPosting posting = signedAmount account posting := by
  have hfind : find AccountRow.accountId posting.accountId d.accounts = some account := by
    rw [← hid]
    exact hkeyed.accounts.find_eq haccount
  rw [signedPosting, hfind]
  rfl

theorem Denominated.eq (hd : d.Denominated) (hkeyed : d.toLedgerDb.Keyed) {posting other : PostingRow}
    (hposting : posting ∈ d.postings) (hother : other ∈ d.postings)
    (hhousehold : posting.householdId = other.householdId) (haccount : posting.accountId = other.accountId) :
    posting.accountNativeCurrency = other.accountNativeCurrency := by
  obtain ⟨account, hmem, hof, hid⟩ := hkeyed.posting_account other hother
  have hleft := hd posting hposting account hmem (by rw [hof, hhousehold]) (by rw [hid, haccount])
  have hright := hd other hother account hmem hof hid
  rw [hleft, hright]

/-- Two rows about one account show the same currencies. -/
theorem BalanceRight.same (hreported : d.Denominated) (hkeyed : d.toLedgerDb.Keyed)
    {native reporting native' reporting' : DecimalAmount}
    {nativeCurrency reportingCurrency nativeCurrency' reportingCurrency' : CurrencyCode}
    (h : d.BalanceRight householdId accountId native nativeCurrency reporting reportingCurrency)
    (h' : d.BalanceRight householdId accountId native' nativeCurrency' reporting' reportingCurrency') :
    nativeCurrency = nativeCurrency' ∧ reportingCurrency = reportingCurrency' := by
  obtain ⟨posting, hposting, hof, haccount, rfl⟩ := h.posted
  obtain ⟨posting', hposting', hof', haccount', rfl⟩ := h'.posted
  obtain ⟨household, hhousehold, hid, rfl⟩ := h.household
  obtain ⟨household', hhousehold', hid', rfl⟩ := h'.household
  have hsame : household = household' :=
    List.inj_on_of_nodup_map hkeyed.households hhousehold hhousehold' (hid.trans hid'.symm)
  constructor
  · exact hreported.eq hkeyed hposting hposting' (hof.trans hof'.symm) (haccount.trans haccount'.symm)
  · rw [hsame]

/-! ## Posting a journal -/

section Post

variable {journal : JournalRow} {postings : List PostingRow}

theorem withJournal_keeps : d.Keeps (d.withJournal journal postings) where
  postings posting hposting := ⟨List.mem_append_left _ hposting, rfl⟩
  households household hhousehold := hhousehold

theorem notMem_of_journal (hd : d.toLedgerDb.Keyed) (hkeyed : (d.withJournal journal postings).toLedgerDb.Keyed)
    {posting : PostingRow} (h : posting.journalId = journal.journalId) : posting ∉ d.postings := by
  intro hmem
  obtain ⟨old, hold⟩ := Option.isSome_iff_exists.1 (hd.posting_journal posting hmem)
  obtain ⟨holdMem, _, hid⟩ := journalOf_mem hold
  have hjournals : ((d.journals ++ [journal]).map JournalRow.journalId).Nodup := hkeyed.journals
  rw [List.map_append, List.nodup_append] at hjournals
  exact hjournals.2.2 _ (List.mem_map_of_mem holdMem) _ (by simp) (hid.trans h)

/-- The sum over the postings of the new journal on an account. -/
theorem applied_partSum (hd : d.toLedgerDb.Keyed) (hkeyed : (d.withJournal journal postings).toLedgerDb.Keyed)
    (hdenominated : (d.withJournal journal postings).Denominated) {input : ApplyJournalInput}
    (hinput : input.journalId = journal.journalId) (haccount : account ∈ d.accounts) :
    PartSum (d.withJournal journal postings).signedPosting
      (fun posting => Booked account.householdId account.accountId account.nativeCurrency posting ∧
        posting ∉ d.postings) (d.withJournal journal postings).postings
      ((appliedPostings (d.withJournal journal postings).toLedgerDb input account).map (signedAmount account)).sum := by
  have hmem : ∀ posting ∈ appliedPostings (d.withJournal journal postings).toLedgerDb input account,
      posting ∈ (d.withJournal journal postings).postings ∧ posting.householdId = account.householdId ∧
        posting.accountId = account.accountId ∧ posting.journalId = journal.journalId := by
    intro posting hposting
    obtain ⟨hon, hof⟩ := List.mem_filter.1 hposting
    obtain ⟨hin, hhousehold, hid⟩ := mem_postingsOn.1 hon
    simp only [Bool.and_eq_true, beq_iff_eq] at hof
    exact ⟨hin, hhousehold, hid, hof.1.trans hinput⟩
  have hnodup : (appliedPostings (d.withJournal journal postings).toLedgerDb input account).Nodup :=
    ((List.Nodup.of_map _ hkeyed.postings).filter _).filter _
  refine ⟨_, hnodup, ?_, ?_⟩
  · intro posting hposting
    obtain ⟨hin, hhousehold, hid, hjournal⟩ := hmem posting hposting
    have hcurrency := hdenominated posting hin account haccount hhousehold.symm hid.symm
    exact ⟨hin, ⟨hhousehold, hid, hcurrency⟩, notMem_of_journal hd hkeyed hjournal⟩
  · congr 1
    apply List.map_congr_left
    intro posting hposting
    obtain ⟨_, _, hid, _⟩ := hmem posting hposting
    exact signedPosting_account hkeyed haccount hid.symm

theorem sum_reportingAmount {household : HouseholdRow} {group : List PostingRow} :
    (group.map (reportingAmount household account)).sum =
      if account.nativeCurrency = household.reportingCurrency then (group.map (signedAmount account)).sum
      else 0 := by
  induction group with
  | nil => simp
  | cons posting group ih =>
    rw [List.map_cons, List.sum_cons, ih, List.map_cons, List.sum_cons]
    unfold reportingAmount
    by_cases hsame : account.nativeCurrency = household.reportingCurrency
    · simp [hsame]
    · simp [hsame]

/-- The row made of the postings of the new journal on an account. -/
theorem appliedRow_right (hd : d.toLedgerDb.Keyed) (hkeyed : (d.withJournal journal postings).toLedgerDb.Keyed)
    (hdenominated : (d.withJournal journal postings).Denominated) {input : ApplyJournalInput}
    (hinput : input.journalId = journal.journalId) {household : HouseholdRow}
    (hhousehold : household ∈ d.households) (haccount : account ∈ d.accounts)
    (hof : account.householdId = household.householdId)
    (hgroup : appliedPostings (d.withJournal journal postings).toLedgerDb input account ≠ [])
    {row : CurrentBalanceRow}
    (h : appliedRow (d.withJournal journal postings).toLedgerDb household input account = .ok row) :
    (d.withJournal journal postings).CurrentRight row ∧
      PartSum (d.withJournal journal postings).signedPosting (fun posting =>
        Booked row.householdId row.accountId row.nativeCurrency posting ∧ posting ∉ d.postings)
        (d.withJournal journal postings).postings row.nativeAmount.units ∧
      PartSum (d.withJournal journal postings).signedPosting (fun posting =>
        Booked row.householdId row.accountId row.reportingCurrency posting ∧ posting ∉ d.postings)
        (d.withJournal journal postings).postings row.reportingAmount.units := by
  obtain ⟨nativeAmount, hnative, h⟩ := bind_eq_ok.1 h
  obtain ⟨reportingAmount, hreporting, h⟩ := bind_eq_ok.1 h
  rw [stored_eq_ok, Fixed.ofUnits_eq_some] at hnative hreporting
  cases pure_eq_ok.1 h
  have hsum := applied_partSum hd hkeyed hdenominated hinput haccount
  rw [← hnative, hof] at hsum
  rw [sum_reportingAmount, ← hnative] at hreporting
  have hsum' : PartSum (d.withJournal journal postings).signedPosting (fun posting =>
      Booked household.householdId account.accountId household.reportingCurrency posting ∧
        posting ∉ d.postings) (d.withJournal journal postings).postings reportingAmount.units := by
    by_cases hsame : account.nativeCurrency = household.reportingCurrency
    · rw [hreporting, if_pos hsame, ← hsame]
      exact hsum
    · rw [hreporting, if_neg hsame]
      exact PartSum.zero
  obtain ⟨posting, hposting⟩ := List.exists_mem_of_ne_nil _ hgroup
  obtain ⟨hin, hposted, hid⟩ := mem_postingsOn.1 (List.mem_filter.1 hposting).1
  have hcurrency := hdenominated posting hin account haccount hposted.symm hid.symm
  refine ⟨⟨⟨posting, hin, hposted.trans hof, hid, hcurrency⟩, ⟨household, hhousehold, rfl, rfl⟩, ?_, ?_⟩, hsum, hsum'⟩
  · exact hsum.mono fun posting hposting hbooked => ⟨hposting, hbooked.1, rfl⟩
  · exact hsum'.mono fun posting hposting hbooked => ⟨hposting, hbooked.1, rfl⟩

/-- New postings add to a balance over the old ones. -/
theorem BalanceIn.add_new {old new total : DecimalAmount} (hold : d.BalanceIn householdId accountId currency old)
    (hnew : PartSum (d.withJournal journal postings).signedPosting (fun posting =>
      Booked householdId accountId currency posting ∧ posting ∉ d.postings)
      (d.withJournal journal postings).postings new.units)
    (htotal : total.units = old.units + new.units) :
    (d.withJournal journal postings).BalanceIn householdId accountId currency total := by
  have hkept : PartSum (d.withJournal journal postings).signedPosting (fun posting =>
      Booked householdId accountId currency posting ∧ posting ∈ d.postings)
      (d.withJournal journal postings).postings old.units := by
    refine PartSum.mono hold ?_
    intro posting hposting hbooked
    obtain ⟨hmem, hsign⟩ := withJournal_keeps.postings posting hposting
    exact ⟨hmem, ⟨hbooked, hposting⟩, hsign⟩
  have hadd := hkept.add hnew fun posting hbooked hbooked' => hbooked'.2 hbooked.2
  rw [← htotal] at hadd
  refine hadd.mono ?_
  intro posting hposting hbooked
  rcases hbooked with hbooked | hbooked
  · exact ⟨hposting, hbooked.1, rfl⟩
  · exact ⟨hposting, hbooked.1, rfl⟩

theorem Reported.post (h : d.Reported P) (hkeyed : (d.withJournal journal postings).toLedgerDb.Keyed)
    (hdenominated : ∀ posting ∈ postings, ∀ account ∈ d.accounts, account.householdId = posting.householdId →
      account.accountId = posting.accountId → posting.accountNativeCurrency = account.nativeCurrency)
    (happlied : applyJournal (d.withJournal journal postings).toLedgerDb
      (applyInput (d.withJournal journal postings).toLedgerDb journal) P = .ok P') :
    (d.withJournal journal postings).Reported P' := by
  have hall : (d.withJournal journal postings).Denominated := by
    intro posting hposting account haccount
    rcases List.mem_append.1 hposting with hold | hnew
    · exact h.denominated posting hold account haccount
    · exact hdenominated posting hnew account haccount
  have hreported : (d.withJournal journal postings).Reported P :=
    h.mono withJournal_keeps { h.budgeted with keyed := hkeyed } hall
  unfold applyJournal at happlied
  split at happlied
  case h_1 =>
    cases happlied
    exact hreported
  case h_2 household hfound =>
    obtain ⟨rows, hrows, happlied⟩ := bind_eq_ok.1 happlied
    obtain ⟨currentBalances, hcurrent, happlied⟩ := bind_eq_ok.1 happlied
    cases pure_eq_ok.1 happlied
    refine { hreported with current := ?_ }
    have hhousehold : household ∈ d.households := (LedgerDb.findHousehold_some hfound).1
    have hgroups : ∀ row ∈ rows, ∃ account ∈ d.accounts, account.householdId = household.householdId ∧
        appliedPostings (d.withJournal journal postings).toLedgerDb
          (applyInput (d.withJournal journal postings).toLedgerDb journal) account ≠ [] ∧
        appliedRow (d.withJournal journal postings).toLedgerDb household
          (applyInput (d.withJournal journal postings).toLedgerDb journal) account = .ok row := by
      intro row hrow
      obtain ⟨account, hgroup, hmade⟩ := exists_of_mem_mapM hrows hrow
      obtain ⟨hof, hsome⟩ := List.mem_filter.1 hgroup
      obtain ⟨haccount, hid⟩ := mem_accountsOf.1 hof
      exact ⟨account, haccount, hid, by simpa using hsome, hmade⟩
    have hdistinct : Distinct CurrentBalanceRow.key rows := by
      refine Distinct.mapM ?_ ((hkeyed.accountKey.filter _).filter _) hrows
      intro account hgroup row hmade
      have hid := (mem_accountsOf.1 (List.mem_filter.1 hgroup).1).2
      rw [appliedRow_key hmade, accountKey, hid]
    intro row hrow
    rcases mem_upsertAll (fun _ _ _ => accumulate_key) hdistinct hcurrent hrow with
      hold | hnew | ⟨new, hnew, old, hold, hkey, hmerged⟩
    · exact hreported.current row hold
    · obtain ⟨account, haccount, hof, hgroup, hmade⟩ := hgroups row hnew
      exact (appliedRow_right h.budgeted.keyed hkeyed hall rfl hhousehold haccount hof hgroup hmade).1
    · obtain ⟨account, haccount, hof, hgroup, hmade⟩ := hgroups new hnew
      obtain ⟨hright, hnative, hreporting⟩ :=
        appliedRow_right h.budgeted.keyed hkeyed hall rfl hhousehold haccount hof hgroup hmade
      have hids : old.householdId = new.householdId ∧ old.accountId = new.accountId := by
        simpa [CurrentBalanceRow.key] using hkey
      have holdRight := hreported.current old hold
      unfold CurrentRight at hright holdRight
      rw [hids.1, hids.2] at holdRight
      obtain ⟨hsame, hsame'⟩ := holdRight.same hall hkeyed hright
      have holdIn := h.current old hold
      unfold CurrentRight at holdIn
      rw [← hsame, ← hids.1, ← hids.2] at hnative
      rw [← hsame', ← hids.1, ← hids.2] at hreporting
      rw [← hids.1, ← hids.2] at holdRight
      obtain ⟨nativeAmount, hsumNative, hmerged⟩ := bind_eq_ok.1 hmerged
      obtain ⟨reportingAmount, hsumReporting, hmerged⟩ := bind_eq_ok.1 hmerged
      rw [stored_eq_ok, Fixed.ofUnits_eq_some] at hsumNative hsumReporting
      cases pure_eq_ok.1 hmerged
      exact ⟨holdRight.posted, holdRight.household, holdIn.native.add_new hnative hsumNative,
        holdIn.reporting.add_new hreporting hsumReporting⟩

end Post

/-! ## Finalising a day -/

variable {balanceDate : LocalDate}

theorem daily_right (h : d.Reported P) {current : List CurrentBalanceRow}
    (hcurrent : ∀ row ∈ current, d.CurrentRight row) {dailyBalances : List DailyBalanceRow}
    (hupsert : upsertAll DailyBalanceRow.key refinalize (current.map (finalizedRow balanceDate)) P.dailyBalances =
      .ok dailyBalances) : ∀ row ∈ dailyBalances, d.DailyRight row := by
  have hnew : ∀ row ∈ current.map (finalizedRow balanceDate), d.DailyRight row := by
    intro row hrow
    obtain ⟨source, hsource, rfl⟩ := List.mem_map.1 hrow
    exact hcurrent source hsource
  refine forall_upsertAll h.daily hnew ?_ hupsert
  intro row hrow old merged hkey hold hmerged
  cases hmerged
  have hids : old.householdId = row.householdId ∧ old.accountId = row.accountId ∧
      old.balanceDate = row.balanceDate := by
    simpa [DailyBalanceRow.key] using hkey
  have hright := hnew row hrow
  unfold DailyRight at hold hright ⊢
  rw [← hids.1, ← hids.2.1] at hright
  obtain ⟨hsame, hsame'⟩ := hold.same h.denominated h.budgeted.keyed hright
  rw [← hsame, ← hsame'] at hright
  exact hright

/-- The reporting amounts of one class and day are a sum of postings in the reporting currency. -/
theorem classTotal_in (hkeyed : d.toLedgerDb.Keyed) {rows : List DailyBalanceRow}
    (hkeys : Distinct DailyBalanceRow.key rows) (hrows : ∀ row ∈ rows, d.DailyRight row) {household : HouseholdRow}
    (hhousehold : household ∈ d.households) {accountingClass : AccountingClass} (hamount : amount.units =
      classTotal d.toLedgerDb household.householdId balanceDate accountingClass rows) :
    d.TotalIn household.householdId household.reportingCurrency amount := by
  have hof : ∀ row ∈ rows.filter (dailyOfClass d.toLedgerDb household.householdId balanceDate accountingClass),
      row ∈ rows ∧ row.householdId = household.householdId ∧ row.balanceDate = balanceDate := by
    intro row hrow
    obtain ⟨hmem, hclass⟩ := List.mem_filter.1 hrow
    simp only [dailyOfClass, Bool.and_eq_true, beq_iff_eq] at hclass
    exact ⟨hmem, hclass.1.1, hclass.1.2⟩
  have hdistinct : Distinct DailyBalanceRow.accountId
      (rows.filter (dailyOfClass d.toLedgerDb household.householdId balanceDate accountingClass)) := by
    refine (hkeys.filter _).of_imp ?_
    intro row hrow other hother hsame
    obtain ⟨_, hid, hdate⟩ := hof row hrow
    obtain ⟨_, hid', hdate'⟩ := hof other hother
    simp only [DailyBalanceRow.key, hid, hid', hdate, hdate', hsame]
  have hamounts : ∀ row ∈ rows.filter (dailyOfClass d.toLedgerDb household.householdId balanceDate accountingClass),
      PartSum d.signedPosting (Booked household.householdId row.accountId household.reportingCurrency) d.postings
        row.reportingAmount.units := by
    intro row hrow
    obtain ⟨hmem, hid, _⟩ := hof row hrow
    have hright := hrows row hmem
    obtain ⟨owner, howner, hownerId, hcurrency⟩ := hright.household
    have hsame : owner = household :=
      List.inj_on_of_nodup_map hkeyed.households howner hhousehold (hownerId.trans hid)
    have hreporting := hright.reporting
    rw [← hcurrency, hsame, hid] at hreporting
    exact hreporting
  have hsum := @PartSum.sum PostingRow AccountId Int _ d.signedPosting d.postings DailyBalanceRow _
    DailyBalanceRow.accountId (fun row => row.reportingAmount.units)
    (fun accountId => Booked household.householdId accountId household.reportingCurrency) hdistinct hamounts
    (fun accountId accountId' posting hbooked hbooked' => hbooked.2.1.symm.trans hbooked'.2.1)
  rw [TotalIn, hamount]
  refine hsum.mono ?_
  intro posting hposting hbooked
  obtain ⟨row, _, hbooked⟩ := hbooked
  exact ⟨hposting, ⟨row.accountId, hbooked⟩, rfl⟩

theorem Reported.finalizeDay (h : d.Reported P)
    (hfinalized : PlusOne.finalizeDay d.toLedgerDb householdId balanceDate P = .ok P') : d.Reported P' := by
  cases hfound : d.findHousehold householdId with
  | none =>
    rw [PlusOne.finalizeDay, hfound] at hfinalized
    cases hfinalized
    exact h
  | some household =>
    obtain ⟨hhousehold, rfl⟩ := LedgerDb.findHousehold_some hfound
    obtain ⟨dailyBalances, row, netWorthDaily, hupsert, hrow, hnet, rfl⟩ :=
      (finalizeDay_eq_ok h.budgeted.keyed hhousehold).1 hfinalized
    have hdaily : ∀ row ∈ dailyBalances, d.DailyRight row := by
      refine daily_right h ?_ hupsert
      intro current hcurrent
      exact h.current current (List.mem_filter.1 hcurrent).1
    have hkeys := h.dailyKeys.upsertAll (fun _ _ _ => refinalize_key) hupsert
    obtain ⟨hkey, hcurrency, hassets, hliabilities, htotal⟩ := (netWorthRow_eq_ok rfl rfl).1 hrow
    have hids : row.householdId = household.householdId ∧ row.balanceDate = balanceDate := by
      simpa [NetWorthRow.key] using hkey
    have hnew : ∀ other ∈ [row], d.NetWorthRight other := by
      intro other hother
      rw [List.mem_singleton.1 hother]
      constructor
      · exact ⟨household, hhousehold, hids.1.symm, hcurrency.symm⟩
      · rw [hids.1, hcurrency]
        exact classTotal_in h.budgeted.keyed hkeys hdaily hhousehold hassets
      · rw [hids.1, hcurrency]
        exact classTotal_in h.budgeted.keyed hkeys hdaily hhousehold hliabilities
      · rw [htotal, hassets, hliabilities]
    refine { h with daily := hdaily, dailyKeys := hkeys, netWorth := ?_ }
    refine forall_upsertAll h.netWorth hnew ?_ hnet
    intro new hin old merged hsame hold hmerged
    cases hmerged
    have hright := hnew new hin
    have hsameId : old.householdId = new.householdId := congrArg Prod.fst hsame
    have hsameCurrency : old.reportingCurrency = new.reportingCurrency := by
      obtain ⟨owner, howner, hownerId, hownerCurrency⟩ := hold.household
      obtain ⟨owner', howner', hownerId', hownerCurrency'⟩ := hright.household
      have hone : owner = owner' := List.inj_on_of_nodup_map h.budgeted.keyed.households howner howner'
        (hownerId.trans (hsameId.trans hownerId'.symm))
      rw [← hownerCurrency, ← hownerCurrency', hone]
    have hassets' := hright.assets
    have hliabilities' := hright.liabilities
    rw [← hsameId, ← hsameCurrency] at hassets' hliabilities'
    exact ⟨hold.household, hassets', hliabilities', hright.netWorth⟩

/-! ## Rebuilding -/

theorem settled_partSum (hkeyed : d.toLedgerDb.Keyed) (hdenominated : d.Denominated)
    (haccount : account ∈ d.accounts) {asOf : LocalDate} :
    PartSum d.signedPosting (Booked account.householdId account.accountId account.nativeCurrency) d.postings
      ((settledPostings d.toLedgerDb asOf account).map (signedAmount account)).sum := by
  have hmem : ∀ posting ∈ settledPostings d.toLedgerDb asOf account,
      posting ∈ d.postings ∧ posting.householdId = account.householdId ∧ posting.accountId = account.accountId :=
    fun posting hposting => mem_postingsOn.1 (List.mem_filter.1 hposting).1
  have hnodup : (settledPostings d.toLedgerDb asOf account).Nodup :=
    ((List.Nodup.of_map _ hkeyed.postings).filter _).filter _
  refine ⟨_, hnodup, ?_, ?_⟩
  · intro posting hposting
    obtain ⟨hin, hof, hid⟩ := hmem posting hposting
    exact ⟨hin, hof, hid, hdenominated posting hin account haccount hof.symm hid.symm⟩
  · congr 1
    apply List.map_congr_left
    intro posting hposting
    exact signedPosting_account hkeyed haccount (hmem posting hposting).2.2.symm

theorem rebuiltRow_right (hkeyed : d.toLedgerDb.Keyed) (hdenominated : d.Denominated) {asOf : LocalDate}
    {household : HouseholdRow} (hhousehold : household ∈ d.households) (haccount : account ∈ d.accounts)
    (hof : account.householdId = household.householdId)
    (hcurrency : account.nativeCurrency = household.reportingCurrency ∨
      ((settledPostings d.toLedgerDb asOf account).map (signedAmount account)).sum = 0) {journalId : JournalId}
    (hlast : lastJournal d.toLedgerDb (settledPostings d.toLedgerDb asOf account) = some journalId)
    {row : CurrentBalanceRow} (h : rebuiltRow d.toLedgerDb household asOf account journalId = .ok row) :
    d.CurrentRight row := by
  obtain ⟨nativeAmount, hnative, h⟩ := bind_eq_ok.1 h
  obtain ⟨reportingAmount, hreporting, h⟩ := bind_eq_ok.1 h
  rw [stored_eq_ok, Fixed.ofUnits_eq_some] at hnative hreporting
  cases pure_eq_ok.1 h
  have hsum := @settled_partSum d account hkeyed hdenominated haccount asOf
  rw [sum_reportingAmount] at hnative
  have hsettled : settledPostings d.toLedgerDb asOf account ≠ [] := by
    intro hnil
    rw [(lastJournal_eq_none hkeyed settledPostings_mem).2 hnil] at hlast
    cases hlast
  obtain ⟨posting, hposting⟩ := List.exists_mem_of_ne_nil _ hsettled
  obtain ⟨hin, hposted, hid⟩ := mem_postingsOn.1 (List.mem_filter.1 hposting).1
  have hin' := hdenominated posting hin account haccount hposted.symm hid.symm
  refine ⟨⟨posting, hin, hposted.trans hof, hid, hin'⟩, ⟨household, hhousehold, rfl, rfl⟩, ?_, ?_⟩
  · by_cases hsame : account.nativeCurrency = household.reportingCurrency
    · rw [if_pos hsame] at hnative
      rw [BalanceIn, hnative, ← hof]
      exact hsum
    · rw [if_neg hsame] at hnative
      rw [BalanceIn, hnative]
      exact PartSum.zero
  · rcases hcurrency with hsame | hzero
    · rw [BalanceIn, hreporting, ← hsame, ← hof]
      exact hsum
    · rw [BalanceIn, hreporting, hzero]
      exact PartSum.zero

theorem Reported.rebuild (h : d.Reported P) {asOf : LocalDate} (hcurrency : d.RebuildsInCurrency householdId asOf)
    (hrebuilt : rebuildCurrentBalances d.toLedgerDb householdId asOf P = .ok P') : d.Reported P' := by
  unfold rebuildCurrentBalances at hrebuilt
  split at hrebuilt
  case h_1 =>
    cases hrebuilt
    exact h
  case h_2 household hfound =>
    obtain ⟨rows, hrows, hrebuilt⟩ := bind_eq_ok.1 hrebuilt
    obtain ⟨currentBalances, hcurrent, hrebuilt⟩ := bind_eq_ok.1 hrebuilt
    cases pure_eq_ok.1 hrebuilt
    obtain ⟨hhousehold, hid⟩ := LedgerDb.findHousehold_some hfound
    refine { h with current := ?_ }
    refine forall_upsertAll ?_ ?_ ?_ hcurrent
    · intro row hrow
      exact h.current row (List.mem_filter.1 hrow).1
    · intro row hrow
      obtain ⟨⟨account, journalId⟩, hgroup, hmade⟩ := exists_of_mem_mapM hrows hrow
      obtain ⟨account', hin, hlast⟩ := List.mem_filterMap.1 hgroup
      obtain ⟨journalId', hlast, heq⟩ := Option.map_eq_some_iff.1 hlast
      cases heq
      obtain ⟨haccount, hof⟩ := mem_accountsOf.1 hin
      have hcase := hcurrency household hhousehold hid account (mem_accountsOf.2 ⟨haccount, hof.trans hid⟩)
      exact rebuiltRow_right h.budgeted.keyed h.denominated hhousehold haccount hof hcase hlast hmade
    · intro row _ old merged _ _ hmerged
      cases hmerged

/-! ## The ledger and the plans -/

theorem Denominated.of_ledger (hd : d.Denominated) (h : d'.toLedgerDb = d.toLedgerDb) : d'.Denominated := by
  intro posting hposting account haccount
  rw [h] at hposting haccount
  exact hd posting hposting account haccount

theorem Reported.ledger (h : d.Reported P) {L : LedgerDb} (hkeyed : L.Keyed) (hpostings : L.postings = d.postings)
    (hhouseholds : ∀ household ∈ d.households, household ∈ L.households)
    (haccounts : ∀ posting ∈ d.postings, ∀ account ∈ d.accounts, account.householdId = posting.householdId →
      account.accountId = posting.accountId → ∃ account' ∈ L.accounts,
        account'.householdId = account.householdId ∧ account'.accountId = account.accountId ∧
          account'.normalBalance = account.normalBalance ∧
          account'.nativeCurrency = account.nativeCurrency) :
    Reported { d with toLedgerDb := L } P := by
  have hbudgeted : Budgeted { d with toLedgerDb := L } := by
    refine { h.budgeted with keyed := hkeyed, household := ?_ }
    intro allocation hallocation
    obtain ⟨household, hmem, hid⟩ := h.budgeted.household allocation hallocation
    exact ⟨household, hhouseholds household hmem, hid⟩
  have hkept : ∀ posting ∈ d.postings, ∃ account ∈ d.accounts, ∃ account' ∈ L.accounts,
      account.householdId = posting.householdId ∧ account.accountId = posting.accountId ∧
        account'.accountId = posting.accountId ∧ account'.normalBalance = account.normalBalance ∧
        account'.nativeCurrency = account.nativeCurrency := by
    intro posting hposting
    obtain ⟨account, haccount, hof, hid⟩ := h.budgeted.keyed.posting_account posting hposting
    obtain ⟨account', haccount', _, hid', hbalance, hcurrency⟩ := haccounts posting hposting account haccount hof hid
    exact ⟨account, haccount, account', haccount', hof, hid, hid'.trans hid, hbalance, hcurrency⟩
  refine h.mono ⟨?_, hhouseholds⟩ hbudgeted ?_
  · intro posting hposting
    obtain ⟨account, haccount, account', haccount', _, hid, hid', hbalance, _⟩ := hkept posting hposting
    constructor
    · exact hpostings ▸ hposting
    · rw [signedPosting_account h.budgeted.keyed haccount hid, signedPosting_account hkeyed haccount' hid',
        signedAmount, signedAmount, hbalance]
  · intro posting hposting account hmem _ hid
    have hposting' : posting ∈ d.postings := hpostings ▸ hposting
    obtain ⟨old, hold, account', haccount', hof, holdId, hid', _, hcurrency⟩ := hkept posting hposting'
    have hsame : account = account' :=
      List.inj_on_of_nodup_map hkeyed.accounts hmem haccount' (hid.trans hid'.symm)
    rw [hsame, hcurrency]
    exact h.denominated posting hposting' old hold hof holdId

theorem Reported.of_ledger (h : d.Reported P) (hbudgeted : d'.Budgeted) (hledger : d'.toLedgerDb = d.toLedgerDb) :
    d'.Reported P :=
  h.mono (.of_ledger hledger) hbudgeted (h.denominated.of_ledger hledger)

theorem reported_of_run (h : ReportRun RebuildsInCurrency d P) : d.Reported P := by
  induction h with
  | @start d keyed postings scopes categories versions allocations mappings =>
    have hbudgeted : d.Budgeted := (BudgetRun.start keyed scopes categories versions allocations mappings).budgeted
    have hdenominated : d.Denominated := by
      intro posting hposting
      rw [postings] at hposting
      cases hposting
    exact ⟨hbudgeted, hdenominated, by simp [Projections.empty], by simp [Projections.empty],
      List.nodup_nil, by simp [Projections.empty]⟩
  | post _ keyed denominated applied ih => exact ih.post keyed denominated applied
  | ledger _ keyed postings households accounts ih => exact ih.ledger keyed postings households accounts
  | finalize _ finalized ih => exact ih.finalizeDay finalized
  | rebuild _ admitted rebuilt ih => exact ih.rebuild admitted rebuilt
  | activate _ activated ih =>
    obtain ⟨hbudgeted, hledger⟩ := BudgetRepository.activate_spec ih.budgeted activated
    exact ih.of_ledger hbudgeted hledger
  | save _ saved ih =>
    obtain ⟨hbudgeted, hledger⟩ := SavingsGoalRepository.upsert_spec ih.budgeted saved
    exact ih.of_ledger hbudgeted hledger

/-- In every run whose rebuilds meet no balance in a currency other than the reporting currency, what is
derived from the ledger is in the currencies shown. Budgets and savings goals add native amounts up, which
are in the planned currency where what is counted and what is linked is. -/
theorem shown_currencies (h : ReportRun RebuildsInCurrency d P) :
    d.LedgerAmountsShown P ∧ (d.BudgetAmountsShown ↔ d.BudgetsInCurrency) ∧
      (d.GoalAmountsShown P ↔ d.GoalsInCurrency P) := by
  have hreported := reported_of_run h
  have hledger : d.LedgerAmountsShown P := by
    constructor
    · intro row hrow
      exact ⟨(hreported.current row hrow).native, (hreported.current row hrow).reporting⟩
    · intro row hrow
      exact ⟨(hreported.daily row hrow).native, (hreported.daily row hrow).reporting⟩
    · intro row hrow
      have hright := hreported.netWorth row hrow
      exact ⟨hright.assets, hright.liabilities, hright.netWorth⟩
    · intro row hrow
      exact cashFlow_shown hreported.denominated hrow
    · intro row hrow
      exact categorySpend_shown hreported.denominated hrow
  exact ⟨hledger, budget_shown_iff hreported.budgeted, savings_shown_iff⟩

end PlanningDb

namespace TestCurrencies

open TestReporting TestBudget

/-- The household before anything is posted. -/
def unposted : PlanningDb :=
  { planning with journals := [], postings := [] }

theorem posted_run {admits : PlanningDb → HouseholdId → LocalDate → Prop} :
    ReportRun admits planning applied := by
  have hstart : ReportRun admits unposted .empty :=
    .start ⟨by decide, by decide, by decide, by decide, by decide, by decide⟩ rfl rfl rfl rfl rfl rfl
  have happlied : applyJournal (unposted.withJournal journal ledger.postings).toLedgerDb
      (applyInput (unposted.withJournal journal ledger.postings).toLedgerDb journal) .empty = .ok applied := by
    decide +kernel
  exact hstart.post ledger_keyed (by decide) happlied

/-- A hundred dollars for January, to be met by the cash account. -/
def dollars : ActivateBudgetProposal :=
  { proposal [mapping (january 1 (Eq.refl true)) (january 31 (Eq.refl true))] with
    allocations := [⟨"savings", january 1 (Eq.refl true), january 31 (Eq.refl true), ⟨⟨false, 100, 0⟩, usd⟩⟩] }

def dollarBudget : PlanningDb :=
  { wholeMonth with allocations := [{ allocation with currency := usd }] }

theorem dollarBudget_run : ReportRun (fun _ _ _ => True) dollarBudget applied := by
  have hactivated : BudgetRepository.activate planning dollars = .ok dollarBudget := by decide +kernel
  exact posted_run.activate hactivated

/-- The ten euros show as ten dollars of the hundred. -/
theorem euros_shown_as_dollars :
    ¬∀ (d : PlanningDb) (P : Projections), ReportRun (fun _ _ _ => True) d P → d.ShownCurrencies P := by
  intro hall
  have hbudget := (hall dollarBudget applied dollarBudget_run).budget
  have hrow : (⟨⟨householdId, "home", "savings", january 1 (by decide), january 31 (by decide),
      euros 100 (by decide), usd, 1, "January"⟩, 10 * 10 ^ 12⟩ : BudgetVarianceRow) ∈
        dollarBudget.budgetVariance := by decide +kernel
  have hsummand := (hbudget _ hrow).2
  revert hsummand
  decide +kernel

theorem shown_currencies_posted :
    planning.LedgerAmountsShown applied ∧ (planning.BudgetAmountsShown ↔ planning.BudgetsInCurrency) ∧
      (planning.GoalAmountsShown applied ↔ planning.GoalsInCurrency applied) :=
  PlanningDb.shown_currencies posted_run

end TestCurrencies

end PlusOne
