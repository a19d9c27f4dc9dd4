import PlusOne.Reporting.CurrentBalances

/-! # Rebuilding the current balances

The rebuild selects the sums the journals left behind, each into the column of the other. -/

namespace PlusOne

open Numeric Relational

/-- The two amounts of a current row. -/
def CurrentBalanceRow.amounts (row : CurrentBalanceRow) : DecimalAmount × DecimalAmount :=
  (row.nativeAmount, row.reportingAmount)

section Rebuild

variable {L : LedgerDb} {household : HouseholdRow} {account : AccountRow} {asOf : LocalDate}
  {Q Q' : Projections}

theorem rebuiltRow_eq_ok {journalId : JournalId} {row : CurrentBalanceRow}
    (h : rebuiltRow L household asOf account journalId = .ok row) :
    row.key = (household.householdId, account.accountId) ∧
      row.nativeAmount.units = L.reportingBalanceOn household asOf account ∧
      row.reportingAmount.units = L.nativeBalanceOn asOf account := by
  obtain ⟨nativeAmount, hnative, h⟩ := bind_eq_ok.1 h
  obtain ⟨reportingAmount, hreporting, h⟩ := bind_eq_ok.1 h
  rw [stored_eq_ok, Fixed.ofUnits_eq_some] at hnative hreporting
  cases pure_eq_ok.1 h
  exact ⟨rfl, hnative, hreporting⟩

theorem rebuiltRow_isOk {journalId : JournalId} {native reporting : DecimalAmount}
    (hnative : native.units = L.reportingBalanceOn household asOf account)
    (hreporting : reporting.units = L.nativeBalanceOn asOf account) :
    ∃ row, rebuiltRow L household asOf account journalId = .ok row := by
  have hfits : Fixed.ofUnits (L.reportingBalanceOn household asOf account) = some native :=
    Fixed.ofUnits_eq_some.2 hnative
  have hfits' : Fixed.ofUnits (L.nativeBalanceOn asOf account) = some reporting :=
    Fixed.ofUnits_eq_some.2 hreporting
  unfold rebuiltRow
  simp only [LedgerDb.reportingBalanceOn, LedgerDb.nativeBalanceOn, sumWhere] at hfits hfits'
  simp only [settledPostings, hfits, hfits']
  exact ⟨_, rfl⟩

/-- The rebuild finds a last journal for an account exactly when a posting on it is settled. -/
theorem lastJournal_eq_none (hL : L.Keyed) {postings : List PostingRow}
    (hpostings : ∀ posting ∈ postings, posting ∈ L.postings) :
    lastJournal L postings = none ↔ postings = [] := by
  rw [lastJournal, List.getLast?_eq_none_iff, List.map_eq_nil_iff, List.filter_eq_nil_iff]
  constructor
  · intro hnone
    by_contra hne
    obtain ⟨posting, hposting⟩ := List.exists_mem_of_ne_nil _ hne
    obtain ⟨journal, hjournal⟩ := Option.isSome_iff_exists.1
      (hL.posting_journal posting (hpostings posting hposting))
    obtain ⟨hmem, hhousehold, hid⟩ := journalOf_mem hjournal
    apply hnone journal hmem
    rw [List.any_eq_true]
    exact ⟨posting, hposting, by simp [hhousehold, hid]⟩
  · rintro rfl journal -
    simp

theorem settledPostings_mem : ∀ posting ∈ settledPostings L asOf account, posting ∈ L.postings := by
  intro posting hposting
  exact (mem_postingsOn.1 (List.mem_filter.1 hposting).1).1

/-- The groups of the rebuild, each with the journal inserted last. -/
def rebuiltGroup (L : LedgerDb) (asOf : LocalDate) (account : AccountRow) :
    Option (AccountRow × JournalId) :=
  (lastJournal L (settledPostings L asOf account)).map fun journalId => (account, journalId)

theorem rebuiltGroup_key {group : AccountRow × JournalId}
    (h : rebuiltGroup L asOf account = some group) : group.1 = account := by
  obtain ⟨journalId, -, rfl⟩ := Option.map_eq_some_iff.1 h
  rfl

theorem rebuiltGroup_accountKey : ∀ account group, rebuiltGroup L asOf account = some group →
    accountKey group.1 = accountKey account :=
  fun _ _ hgroup => congrArg accountKey (rebuiltGroup_key hgroup)

theorem rebuiltRow_accountKey :
    ∀ group ∈ (L.accountsOf household.householdId).filterMap (rebuiltGroup L asOf),
      ∀ row, rebuiltRow L household asOf group.1 group.2 = .ok row → row.key = accountKey group.1 := by
  intro group hgroup row hrow
  obtain ⟨member, hmember, hmade⟩ := List.mem_filterMap.1 hgroup
  rw [(rebuiltRow_eq_ok hrow).1, accountKey, rebuiltGroup_key hmade, (mem_accountsOf.1 hmember).2]

theorem others_none (rows : List CurrentBalanceRow) (accountId : AccountId) :
    find CurrentBalanceRow.key (household.householdId, accountId)
      (rows.filter fun row => row.householdId != household.householdId) = none := by
  rw [find_eq_none]
  intro row hrow hkey
  have hne : row.householdId ≠ household.householdId := by simpa using (List.mem_filter.1 hrow).2
  exact hne (congrArg Prod.fst hkey)

theorem rebuildCurrentBalances_row (hL : L.Keyed) (hhousehold : household ∈ L.households)
    (haccount : account ∈ L.accountsOf household.householdId)
    (h : rebuildCurrentBalances L household.householdId asOf Q = .ok Q') :
    (settledPostings L asOf account = [] ∧
      Q'.currentBalance household.householdId account.accountId = none) ∨
    (settledPostings L asOf account ≠ [] ∧
      ∃ row, Q'.currentBalance household.householdId account.accountId = some row ∧
        row.nativeAmount.units = L.reportingBalanceOn household asOf account ∧
        row.reportingAmount.units = L.nativeBalanceOn asOf account) := by
  have hid := (mem_accountsOf.1 haccount).2
  have hdistinct : Distinct accountKey (L.accountsOf household.householdId) := hL.accountKey.filter _
  unfold rebuildCurrentBalances at h
  simp only [hL.findHousehold hhousehold] at h
  obtain ⟨rows, hrows, h⟩ := bind_eq_ok.1 h
  obtain ⟨currentBalances, hcurrent, h⟩ := bind_eq_ok.1 h
  cases pure_eq_ok.1 h
  have hgroupsDistinct : Distinct (fun group : AccountRow × JournalId => accountKey group.1)
      ((L.accountsOf household.householdId).filterMap (rebuiltGroup L asOf)) :=
    hdistinct.filterMap rebuiltGroup_accountKey
  have hfind : find (fun group : AccountRow × JournalId => accountKey group.1)
      (household.householdId, account.accountId)
      ((L.accountsOf household.householdId).filterMap (rebuiltGroup L asOf)) =
        rebuiltGroup L asOf account := by
    have hkey : (household.householdId, account.accountId) = accountKey account := by
      rw [accountKey, hid]
    rw [hkey, hdistinct.find_filterMap rebuiltGroup_accountKey, hdistinct.find_eq haccount, Option.bind_some]
  have hupserted := find_upsertAll (fun _ _ _ hmerge => by cases hmerge)
    (hgroupsDistinct.mapM rebuiltRow_accountKey hrows) hcurrent (household.householdId, account.accountId)
  rw [others_none] at hupserted
  have hmade := find_mapM rebuiltRow_accountKey hrows (household.householdId, account.accountId)
  rw [hfind] at hmade
  rcases hmade with ⟨hnone, hfound⟩ | ⟨group, row, hgroup, hrow, hfound⟩
  · left
    have hlast : lastJournal L (settledPostings L asOf account) = none := by
      simpa [rebuiltGroup] using hnone
    rw [hfound] at hupserted
    exact ⟨(lastJournal_eq_none hL settledPostings_mem).1 hlast, hupserted.of_none⟩
  · right
    rw [rebuiltGroup_key hgroup] at hrow
    constructor
    · intro hempty
      have hlast := (lastJournal_eq_none hL settledPostings_mem).2 hempty
      simp [rebuiltGroup, hlast] at hgroup
    · rw [hfound] at hupserted
      have hnow : find CurrentBalanceRow.key (household.householdId, account.accountId)
          currentBalances = some row := by
        generalize find CurrentBalanceRow.key (household.householdId, account.accountId)
          currentBalances = now at hupserted
        cases hupserted
        rfl
      exact ⟨row, hnow, (rebuiltRow_eq_ok hrow).2⟩

/-- The rebuild succeeds when the sums it stores fit their columns. -/
theorem rebuildCurrentBalances_isOk (hL : L.Keyed) (hhousehold : household ∈ L.households)
    (hfits : ∀ account ∈ L.accountsOf household.householdId, settledPostings L asOf account ≠ [] →
      ∃ native reporting : DecimalAmount,
        native.units = L.reportingBalanceOn household asOf account ∧
        reporting.units = L.nativeBalanceOn asOf account) :
    ∃ Q', rebuildCurrentBalances L household.householdId asOf Q = .ok Q' := by
  have hdistinct : Distinct accountKey (L.accountsOf household.householdId) := hL.accountKey.filter _
  have hmade : ∀ group ∈ (L.accountsOf household.householdId).filterMap (rebuiltGroup L asOf),
      ∃ row, rebuiltRow L household asOf group.1 group.2 = .ok row := by
    intro group hgroup
    obtain ⟨member, hmember, hmade⟩ := List.mem_filterMap.1 hgroup
    have hsettled : settledPostings L asOf member ≠ [] := by
      intro hempty
      have hlast := (lastJournal_eq_none hL settledPostings_mem).2 hempty
      simp [rebuiltGroup, hlast] at hmade
    obtain ⟨native, reporting, hnative, hreporting⟩ := hfits member hmember hsettled
    rw [rebuiltGroup_key hmade]
    exact rebuiltRow_isOk hnative hreporting
  obtain ⟨rows, hrows⟩ := mapM_isOk hmade
  have hnone : ∀ row ∈ rows, ∀ old, find CurrentBalanceRow.key row.key
      (Q.currentBalances.filter fun row => row.householdId != household.householdId) = some old →
        ∃ merged, alreadyThere row old = .ok merged := by
    intro row hrow old hold
    have hmem := List.mem_map_of_mem (f := CurrentBalanceRow.key) hrow
    rw [keys_mapM rebuiltRow_accountKey hrows] at hmem
    obtain ⟨group, hgroup, hkey⟩ := List.mem_map.1 hmem
    obtain ⟨member, hmember, hmade⟩ := List.mem_filterMap.1 hgroup
    rw [← hkey, accountKey, rebuiltGroup_key hmade, (mem_accountsOf.1 hmember).2, others_none] at hold
    cases hold
  obtain ⟨currentBalances, hcurrent⟩ := upsertAll_isOk (fun _ _ _ hmerge => by cases hmerge)
    ((hdistinct.filterMap rebuiltGroup_accountKey).mapM rebuiltRow_accountKey hrows) hnone
  unfold rebuildCurrentBalances
  simp only [hL.findHousehold hhousehold]
  refine ⟨_, bind_eq_ok.2 ⟨rows, hrows, bind_eq_ok.2 ⟨currentBalances, hcurrent, rfl⟩⟩⟩

end Rebuild

/-! ## The rebuilt rows and the applied ones -/

theorem reportingBalance_eq {household : HouseholdRow} {account : AccountRow}
    (p : PostingRow → Bool) (postings : List PostingRow) :
    sumWhere p (reportingAmount household account) postings =
      if account.nativeCurrency = household.reportingCurrency then
        sumWhere p (signedAmount account) postings else 0 := by
  by_cases hcurrency : account.nativeCurrency = household.reportingCurrency
  · rw [if_pos hcurrency]
    apply sumWhere_congr
    · exact fun _ _ => rfl
    · intro posting _ _
      rw [reportingAmount, if_neg (by simp [hcurrency])]
  · rw [if_neg hcurrency, sumWhere]
    have hzero : reportingAmount household account = fun _ => 0 := by
      funext posting
      rw [reportingAmount, if_pos hcurrency]
    simp [hzero]

theorem sumWhere_true (f : PostingRow → Int) (postings : List PostingRow) :
    sumWhere (fun _ => true) f postings = (postings.map f).sum := by
  simp [sumWhere]

theorem effectiveBy_settled {L : LedgerDb} {household : HouseholdRow} {account : AccountRow}
    {asOf : LocalDate} (hL : L.Keyed) (haccount : account.householdId = household.householdId)
    (hasOf : ∀ journal ∈ L.journals, journal.householdId = household.householdId →
      journal.effectiveOn ≤ asOf) :
    ∀ posting ∈ L.postingsOn account, L.effectiveBy asOf posting = true := by
  intro posting hposting
  obtain ⟨hmem, hhousehold, -⟩ := mem_postingsOn.1 hposting
  obtain ⟨journal, hjournal⟩ := Option.isSome_iff_exists.1 (hL.posting_journal posting hmem)
  obtain ⟨hjournalMem, hjournalHousehold, -⟩ := journalOf_mem hjournal
  have hle := hasOf journal hjournalMem (by rw [hjournalHousehold, hhousehold, haccount])
  rw [LedgerDb.effectiveBy, hjournal]
  exact decide_eq_true hle

section Agreement

variable {L : LedgerDb} {household : HouseholdRow} {account : AccountRow} {asOf : LocalDate}
  {P' Q' : Projections}

theorem reportingBalance_settled (household : HouseholdRow)
    (h : settledPostings L asOf account = L.postingsOn account) :
    L.nativeBalanceOn asOf account = L.nativeBalance account ∧
      L.reportingBalanceOn household asOf account =
        if account.nativeCurrency = household.reportingCurrency then L.nativeBalance account
        else 0 := by
  have hnative : L.nativeBalanceOn asOf account = L.nativeBalance account := by
    rw [LedgerDb.nativeBalanceOn, sumWhere, ← settledPostings, h]
    rfl
  constructor
  · exact hnative
  · rw [LedgerDb.reportingBalanceOn, reportingBalance_eq, ← LedgerDb.nativeBalanceOn, hnative]

theorem postingsOn_eq_nil (hnone : ∀ posting ∈ L.postingsOn account, true = false) :
    L.postingsOn account = [] := by
  rw [List.eq_nil_iff_forall_not_mem]
  intro posting hposting
  cases hnone posting hposting

/-- The applied row of an account and its rebuilt row have their amounts the other way round. -/
theorem rebuilt_amounts (hL : L.Keyed) (hhousehold : household ∈ L.households)
    (haccount : account ∈ L.accountsOf household.householdId)
    (hsettled : settledPostings L asOf account = L.postingsOn account)
    (happlied : Holds L household account (fun _ => true)
      (P'.currentBalance household.householdId account.accountId)) {Q : Projections}
    (hrebuilt : rebuildCurrentBalances L household.householdId asOf Q = .ok Q') :
    (Q'.currentBalance household.householdId account.accountId).map CurrentBalanceRow.amounts =
      (P'.currentBalance household.householdId account.accountId).map
        fun row => row.amounts.swap := by
  have hrow := rebuildCurrentBalances_row hL hhousehold haccount hrebuilt
  generalize P'.currentBalance household.householdId account.accountId = applied at happlied ⊢
  cases happlied with
  | absent hnone =>
    have hpostings : L.postingsOn account = [] := postingsOn_eq_nil hnone
    rcases hrow with ⟨-, hnone'⟩ | ⟨hne, -⟩
    · rw [hnone']
      rfl
    · exact absurd (hsettled.trans hpostings) hne
  | @present row hsome hnative hreporting hasOf =>
    obtain ⟨posting, hposting, -⟩ := hsome
    rcases hrow with ⟨hempty, -⟩ | ⟨-, rebuilt, hfound, hnative', hreporting'⟩
    · rw [hsettled] at hempty
      rw [hempty] at hposting
      simp at hposting
    · have hboth := reportingBalance_settled household hsettled
      have hfirst : rebuilt.nativeAmount = row.reportingAmount := by
        apply Fixed.ext
        rw [hnative', hreporting, reportingBalance_eq, hboth.2, sumWhere_true]
        rfl
      have hsecond : rebuilt.reportingAmount = row.nativeAmount := by
        apply Fixed.ext
        rw [hreporting', hnative, hboth.1, sumWhere_true]
        rfl
      rw [hfound, Option.map_some, Option.map_some, CurrentBalanceRow.amounts, hfirst, hsecond]
      rfl

/-- Swapped amounts are the amounts exactly when the account is in the reporting currency or has a
native balance of zero. -/
theorem amounts_eq_swap_iff (happlied : Holds L household account (fun _ => true)
      (P'.currentBalance household.householdId account.accountId)) :
    (P'.currentBalance household.householdId account.accountId).map CurrentBalanceRow.amounts =
        (P'.currentBalance household.householdId account.accountId).map
          (fun row => row.amounts.swap) ↔
      account.nativeCurrency = household.reportingCurrency ∨ L.nativeBalance account = 0 := by
  generalize P'.currentBalance household.householdId account.accountId = applied at happlied ⊢
  cases happlied with
  | absent hnone =>
    have hpostings : L.postingsOn account = [] := postingsOn_eq_nil hnone
    have hzero : L.nativeBalance account = 0 := by
      rw [LedgerDb.nativeBalance, hpostings]
      rfl
    simp [hzero]
  | @present row hsome hnative hreporting hasOf =>
    rw [reportingBalance_eq] at hreporting
    rw [sumWhere_true, ← LedgerDb.nativeBalance] at hnative hreporting
    have hswap : row.amounts = row.amounts.swap ↔ row.nativeAmount.units = row.reportingAmount.units := by
      constructor
      · intro h
        exact congrArg (fun amounts : DecimalAmount × DecimalAmount => amounts.1.units) h
      · intro h
        have hamounts : row.nativeAmount = row.reportingAmount := Fixed.ext h
        rw [CurrentBalanceRow.amounts, hamounts]
        rfl
    rw [Option.map_some, Option.map_some, Option.some.injEq, hswap, hnative, hreporting]
    by_cases hcurrency : account.nativeCurrency = household.reportingCurrency
    · simp [hcurrency]
    · simp [hcurrency]

end Agreement

/-- However the journals were applied, the rebuild writes the rows they left exactly when every account
is in the reporting currency or has a native balance of zero. -/
theorem rebuild_agrees_with_applied {L : LedgerDb} (hL : L.Keyed) {order : List JournalRow}
    (horder : order.Perm L.journals) {P P' : Projections} (hempty : P.currentBalances = [])
    (happlied : applyJournals L order P = .ok P') {household : HouseholdRow}
    (hhousehold : household ∈ L.households) {asOf : LocalDate}
    (hasOf : ∀ journal ∈ L.journals, journal.householdId = household.householdId →
      journal.effectiveOn ≤ asOf) (Q : Projections) :
    ∃ Q', rebuildCurrentBalances L household.householdId asOf Q = .ok Q' ∧
      ((∀ account ∈ L.accountsOf household.householdId,
          (P'.currentBalance household.householdId account.accountId).map CurrentBalanceRow.amounts =
            (Q'.currentBalance household.householdId account.accountId).map
              CurrentBalanceRow.amounts) ↔
        ∀ account ∈ L.accountsOf household.householdId,
          account.nativeCurrency = household.reportingCurrency ∨ L.nativeBalance account = 0) := by
  have hsettled : ∀ account ∈ L.accountsOf household.householdId,
      settledPostings L asOf account = L.postingsOn account := by
    intro account haccount
    exact List.filter_eq_self.2 (effectiveBy_settled hL (mem_accountsOf.1 haccount).2 hasOf)
  have hholds : ∀ account ∈ L.accountsOf household.householdId,
      Holds L household account (fun _ => true)
        (P'.currentBalance household.householdId account.accountId) :=
    fun _ haccount => applyJournals_all hL horder hempty happlied hhousehold haccount
  have hfits : ∀ account ∈ L.accountsOf household.householdId, settledPostings L asOf account ≠ [] →
      ∃ native reporting : DecimalAmount,
        native.units = L.reportingBalanceOn household asOf account ∧
        reporting.units = L.nativeBalanceOn asOf account := by
    intro account haccount hne
    have hrow := hholds account haccount
    generalize P'.currentBalance household.householdId account.accountId = applied at hrow
    cases hrow with
    | absent hnone =>
      obtain ⟨posting, hposting⟩ := List.exists_mem_of_ne_nil _ hne
      rw [hsettled account haccount] at hposting
      cases hnone posting hposting
    | @present row hsome hnative hreporting hasOf' =>
      have hboth := reportingBalance_settled household (hsettled account haccount)
      rw [reportingBalance_eq, sumWhere_true, ← LedgerDb.nativeBalance, ← hboth.2] at hreporting
      rw [sumWhere_true, ← LedgerDb.nativeBalance, ← hboth.1] at hnative
      exact ⟨row.reportingAmount, row.nativeAmount, hreporting, hnative⟩
  obtain ⟨Q', hrebuilt⟩ := rebuildCurrentBalances_isOk (Q := Q) hL hhousehold hfits
  refine ⟨Q', hrebuilt, forall₂_congr fun account haccount => ?_⟩
  rw [rebuilt_amounts hL hhousehold haccount (hsettled account haccount) (hholds account haccount)
    hrebuilt]
  exact amounts_eq_swap_iff (hholds account haccount)

namespace TestReporting

def householdId : HouseholdId := ⟨"01JNZQ4A9B8C7D6E5F4G3H2J1K", Eq.refl true⟩

def bookId : BookId := ⟨"01JNZQ4A9B8C7D6E5F4G3H2J1K", by decide⟩

def usd : CurrencyCode := ⟨"USD", Eq.refl true⟩

def eur : CurrencyCode := ⟨"EUR", by decide⟩

def january (day : Nat) (h : isRealLocalDate 2026 1 day = true) : LocalDate := ⟨2026, 1, day, h⟩

def household : HouseholdRow := ⟨householdId, usd⟩

def cash : AccountRow :=
  ⟨householdId, bookId, ⟨"01JNZQ4A9B8C7D6E5F4G3H2JA1", by decide⟩, .asset, .debit, eur, false⟩

def opening : AccountRow :=
  ⟨householdId, bookId, ⟨"01JNZQ4A9B8C7D6E5F4G3H2JA2", by decide⟩, .equity, .credit, eur, false⟩

def journalId : JournalId := ⟨"01JNZQ4A9B8C7D6E5F4G3H2JJ1", by decide⟩

def period : PeriodRow :=
  ⟨householdId, bookId, ⟨"01JNZQ4A9B8C7D6E5F4G3H2JP1", by decide⟩, january 1 (by decide),
    january 31 (by decide), true⟩

/-- Ten euros put into the cash account. -/
def journal : JournalRow where
  householdId := householdId
  bookId := bookId
  draftId := ⟨"01JNZQ4A9B8C7D6E5F4G3H2JD1", Eq.refl true⟩
  taskId := ⟨"01JNZQ4A9B8C7D6E5F4G3H2JT1", Eq.refl true⟩
  checkedArtifactId := ⟨"01JNZQ4A9B8C7D6E5F4G3H2JR1", Eq.refl true⟩
  checkedArtifactHash :=
    ⟨"0123456789abcdef0123456789abcdef0123456789abcdef0123456789abcdef", Eq.refl true⟩
  journalType := .ordinary
  transactionCurrency := eur
  occurredOn := january 10 (Eq.refl true)
  effectiveOn := january 10 (Eq.refl true)
  settlementOn := none
  sourceOn := none
  description := "Opening balance"
  counterpartyId := none
  journalId := journalId
  periodId := period.periodId
  reversesJournalId := none
  replacesJournalId := none

def euros (n : Nat) (h : ((n : Int) * 10 ^ 12).natAbs < 10 ^ 38) : DecimalAmount := ⟨n * 10 ^ 12, h⟩

def posting (ordinal : Nat) (account : AccountRow) (direction : PostingDirection)
    (postingId : PostingId) : PostingRow where
  ordinal := ordinal
  accountId := account.accountId
  direction := direction
  transactionAmount := euros 10 (by decide)
  accountNativeAmount := euros 10 (by decide)
  accountNativeCurrency := account.nativeCurrency
  rate := none
  memo := none
  householdId := householdId
  postingId := postingId
  journalId := journalId

def ledger : LedgerDb where
  households := [household]
  currencies := [⟨usd, 2, true⟩, ⟨eur, 2, true⟩]
  books := [⟨householdId, bookId⟩]
  accounts := [cash, opening]
  periods := [period]
  counterparties := []
  tags := []
  artifacts := []
  verdicts := []
  drafts := []
  draftPostings := []
  journals := [journal]
  postings := [posting 1 cash .debit ⟨"01JNZQ4A9B8C7D6E5F4G3H2JS1", by decide⟩,
    posting 2 opening .credit ⟨"01JNZQ4A9B8C7D6E5F4G3H2JS2", by decide⟩]
  journalTags := []
  postingTags := []

theorem ledger_keyed : ledger.Keyed where
  households := by decide
  accounts := by decide
  journals := by decide
  postings := by decide
  posting_journal := by decide
  posting_account := by decide

def today : LocalDate := january 31 (by decide)

def row (account : AccountRow) (asOf : LocalDate) (native reporting : DecimalAmount) :
    CurrentBalanceRow :=
  ⟨householdId, account.accountId, asOf, native, eur, reporting, usd, journalId⟩

def zero : DecimalAmount := euros 0 (by decide)

def ten : DecimalAmount := euros 10 (by decide)

def applied : Projections :=
  { Projections.empty with
    currentBalances := [row cash journal.effectiveOn ten zero, row opening journal.effectiveOn ten zero] }

def rebuilt : Projections :=
  { Projections.empty with currentBalances := [row cash today zero ten, row opening today zero ten] }

/-- Ten euros in a household that reports in dollars: the rebuild makes them none, and ten dollars. -/
theorem rebuild_swaps_amounts :
    applyJournals ledger [journal] .empty = .ok applied ∧
      rebuildCurrentBalances ledger householdId today applied = .ok rebuilt ∧
      (applied.currentBalance householdId cash.accountId).map CurrentBalanceRow.amounts =
        some (ten, zero) ∧
      (rebuilt.currentBalance householdId cash.accountId).map CurrentBalanceRow.amounts =
        some (zero, ten) := by
  decide +kernel

theorem rebuild_agrees_with_applied_opening :
    ∃ Q', rebuildCurrentBalances ledger householdId today applied = .ok Q' ∧
      ((∀ account ∈ ledger.accountsOf householdId,
          (applied.currentBalance householdId account.accountId).map CurrentBalanceRow.amounts =
            (Q'.currentBalance householdId account.accountId).map CurrentBalanceRow.amounts) ↔
        ∀ account ∈ ledger.accountsOf householdId,
          account.nativeCurrency = usd ∨ ledger.nativeBalance account = 0) := by
  have happlied : applyJournals ledger [journal] .empty = .ok applied := by decide +kernel
  have hhousehold : household ∈ ledger.households := by decide
  exact rebuild_agrees_with_applied ledger_keyed (List.Perm.refl [journal]) rfl happlied hhousehold
    (by decide) applied

end TestReporting

end PlusOne
