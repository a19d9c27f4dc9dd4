import PlusOne.Reporting.Projections

/-! # Current balances

Applying journals one after the other leaves, for every account, the sums over the postings of the
journals applied so far. -/

namespace PlusOne

open Numeric Relational

/-- The input the posting service gives for a journal it has posted. -/
def applyInput (L : LedgerDb) (journal : JournalRow) : ApplyJournalInput :=
  { householdId := journal.householdId, journalId := journal.journalId
    postingIds := (L.postings.filter fun posting => posting.householdId == journal.householdId &&
      posting.journalId == journal.journalId).map PostingRow.postingId
    effectiveOn := journal.effectiveOn }

def applyJournals (L : LedgerDb) (order : List JournalRow) (P : Projections) :
    Except Thrown Projections :=
  order.foldlM (fun P journal => applyJournal L (applyInput L journal) P) P

/-- The posting belongs to one of the journals. -/
def inJournals (journals : List JournalRow) (posting : PostingRow) : Bool :=
  journals.any fun journal => journal.journalId == posting.journalId

/-- What the current row of an account says of the postings a condition selects. -/
inductive Holds (L : LedgerDb) (household : HouseholdRow) (account : AccountRow)
    (p : PostingRow → Bool) : Option CurrentBalanceRow → Prop
  | absent (none_selected : ∀ posting ∈ L.postingsOn account, p posting = false) :
    Holds L household account p none
  | present {row : CurrentBalanceRow}
    (selected : ∃ posting ∈ L.postingsOn account, p posting = true)
    (native : row.nativeAmount.units = sumWhere p (signedAmount account) (L.postingsOn account))
    (reporting : row.reportingAmount.units =
      sumWhere p (reportingAmount household account) (L.postingsOn account))
    (asOf : ∀ date, row.asOf ≤ date ↔
      ∀ posting ∈ L.postingsOn account, p posting = true → L.effectiveBy date posting = true) :
    Holds L household account p (some row)

/-! ## The ledger's keys -/

section Keys

variable {L : LedgerDb} {household : HouseholdRow} {account : AccountRow} {posting : PostingRow}
  {journal : JournalRow}

def accountKey (account : AccountRow) : HouseholdId × AccountId :=
  (account.householdId, account.accountId)

theorem mem_accountsOf {householdId : HouseholdId} :
    account ∈ L.accountsOf householdId ↔ account ∈ L.accounts ∧ account.householdId = householdId := by
  simp [LedgerDb.accountsOf]

theorem mem_postingsOn : posting ∈ L.postingsOn account ↔
    posting ∈ L.postings ∧ posting.householdId = account.householdId ∧
      posting.accountId = account.accountId := by
  simp [LedgerDb.postingsOn]

theorem LedgerDb.Keyed.findHousehold (hL : L.Keyed) (h : household ∈ L.households) :
    L.findHousehold household.householdId = some household :=
  hL.households.find_eq h

theorem LedgerDb.findHousehold_some {householdId : HouseholdId}
    (h : L.findHousehold householdId = some household) :
    household ∈ L.households ∧ household.householdId = householdId :=
  find_some h

theorem LedgerDb.Keyed.accountKey (hL : L.Keyed) : Distinct accountKey L.accounts := by
  have hids : (L.accounts.map AccountRow.accountId).Nodup := hL.accounts
  have hpairs : L.accounts.map AccountRow.accountId =
      (L.accounts.map PlusOne.accountKey).map Prod.snd := by
    simp [PlusOne.accountKey]
  rw [hpairs] at hids
  exact List.Nodup.of_map _ hids

theorem journalOf_mem (h : L.journalOf posting = some journal) :
    journal ∈ L.journals ∧ journal.householdId = posting.householdId ∧
      journal.journalId = posting.journalId := by
  have hfound := List.find?_some h
  have hmem := List.mem_of_find?_eq_some h
  simp only [Bool.and_eq_true, beq_iff_eq] at hfound
  exact ⟨hmem, hfound⟩

theorem LedgerDb.Keyed.journalOf (hL : L.Keyed) (hjournal : journal ∈ L.journals)
    (hposting : posting ∈ L.postings) (hid : journal.journalId = posting.journalId) :
    L.journalOf posting = some journal := by
  obtain ⟨found, hfound⟩ := Option.isSome_iff_exists.1 (hL.posting_journal posting hposting)
  obtain ⟨hmem, -, hid'⟩ := journalOf_mem hfound
  have hsame : some found = some journal := by
    rw [← hL.journals.find_eq hmem, hid', ← hid, hL.journals.find_eq hjournal]
  rw [hfound, hsame]

theorem LedgerDb.Keyed.effectiveBy (hL : L.Keyed) (hjournal : journal ∈ L.journals)
    (hposting : posting ∈ L.postings) (hid : journal.journalId = posting.journalId)
    (date : LocalDate) : L.effectiveBy date posting = decide (journal.effectiveOn ≤ date) := by
  rw [LedgerDb.effectiveBy, hL.journalOf hjournal hposting hid]
  rfl

end Keys

/-! ## One account -/

section Account

variable {L : LedgerDb} {household : HouseholdRow} {account : AccountRow} {p q : PostingRow → Bool}
  {journal : JournalRow}

theorem Holds.congr {o : Option CurrentBalanceRow} (h : Holds L household account p o)
    (hpq : ∀ posting ∈ L.postingsOn account, p posting = q posting) :
    Holds L household account q o := by
  cases h with
  | absent hnone =>
    apply Holds.absent
    intro posting hposting
    rw [← hpq posting hposting, hnone posting hposting]
  | present hsome hnative hreporting hasOf =>
    obtain ⟨posting, hposting, hp⟩ := hsome
    apply Holds.present
    · exact ⟨posting, hposting, by rw [← hpq posting hposting, hp]⟩
    · rw [hnative]
      exact sumWhere_congr hpq fun _ _ _ => rfl
    · rw [hreporting]
      exact sumWhere_congr hpq fun _ _ _ => rfl
    · intro date
      rw [hasOf date]
      constructor
      · intro hall other hother hq
        exact hall other hother (by rw [hpq other hother, hq])
      · intro hall other hother hp
        exact hall other hother (by rw [← hpq other hother, hp])

/-- Adding up the row of some postings and the row of others gives the row of both. -/
theorem Holds.accumulate {old new merged : CurrentBalanceRow}
    (hold : Holds L household account p (some old)) (hnew : Holds L household account q (some new))
    (hdisjoint : ∀ posting ∈ L.postingsOn account, ¬(p posting = true ∧ q posting = true))
    (h : PlusOne.accumulate new old = .ok merged) :
    Holds L household account (fun posting => p posting || q posting) (some merged) := by
  cases hold with
  | present hsome hnative hreporting hasOf =>
  cases hnew with
  | present hsome' hnative' hreporting' hasOf' =>
  obtain ⟨nativeAmount, hnativeSum, h⟩ := bind_eq_ok.1 h
  obtain ⟨reportingAmount, hreportingSum, h⟩ := bind_eq_ok.1 h
  rw [stored_eq_ok, Fixed.ofUnits_eq_some] at hnativeSum hreportingSum
  cases pure_eq_ok.1 h
  obtain ⟨posting, hposting, hp⟩ := hsome
  apply Holds.present
  · exact ⟨posting, hposting, by simp [hp]⟩
  · rw [sumWhere_or hdisjoint, ← hnative, ← hnative', hnativeSum]
  · rw [sumWhere_or hdisjoint, ← hreporting, ← hreporting', hreportingSum]
  · intro date
    have hmax : max old.asOf new.asOf ≤ date ↔ old.asOf ≤ date ∧ new.asOf ≤ date := max_le_iff
    rw [hmax, hasOf date, hasOf' date]
    constructor
    · rintro ⟨hall, hall'⟩ other hother hor
      rcases Bool.or_eq_true_iff.1 hor with hp | hq
      · exact hall other hother hp
      · exact hall' other hother hq
    · intro hall
      constructor
      · intro other hother hp
        exact hall other hother (by simp [hp])
      · intro other hother hq
        exact hall other hother (by simp [hq])

theorem appliedPostings_applyInput (h : account.householdId = journal.householdId) :
    appliedPostings L (applyInput L journal) account =
      (L.postingsOn account).filter fun posting => journal.journalId == posting.journalId := by
  unfold appliedPostings
  apply List.filter_congr
  intro posting hposting
  obtain ⟨hmem, hhousehold, -⟩ := mem_postingsOn.1 hposting
  rw [Bool.eq_iff_iff]
  simp only [applyInput, Bool.and_eq_true, beq_iff_eq, List.contains_iff_mem, List.mem_map,
    List.mem_filter]
  constructor
  · rintro ⟨hid, -⟩
    exact hid.symm
  · intro hid
    exact ⟨hid.symm, posting, ⟨hmem, by rw [hhousehold, h], hid.symm⟩, rfl⟩

/-- The row made of a journal's postings on an account. -/
theorem appliedRow_holds (hL : L.Keyed) (hjournal : journal ∈ L.journals)
    (hhousehold : account.householdId = journal.householdId) {row : CurrentBalanceRow}
    (hgroup : appliedPostings L (applyInput L journal) account ≠ [])
    (h : appliedRow L household (applyInput L journal) account = .ok row) :
    Holds L household account (fun posting => journal.journalId == posting.journalId) (some row) := by
  obtain ⟨nativeAmount, hnative, h⟩ := bind_eq_ok.1 h
  obtain ⟨reportingAmount, hreporting, h⟩ := bind_eq_ok.1 h
  rw [stored_eq_ok, Fixed.ofUnits_eq_some] at hnative hreporting
  cases pure_eq_ok.1 h
  rw [appliedPostings_applyInput hhousehold] at hnative hreporting hgroup
  obtain ⟨first, hfirst⟩ := List.exists_mem_of_ne_nil _ hgroup
  obtain ⟨hfirst, hid⟩ := List.mem_filter.1 hfirst
  have heffective : ∀ date, ∀ posting ∈ L.postingsOn account,
      (journal.journalId == posting.journalId) = true →
        L.effectiveBy date posting = decide (journal.effectiveOn ≤ date) := by
    intro date posting hposting hsame
    exact hL.effectiveBy hjournal (mem_postingsOn.1 hposting).1 (by simpa using hsame) date
  apply Holds.present
  · exact ⟨first, hfirst, hid⟩
  · exact hnative
  · exact hreporting
  · intro date
    constructor
    · intro hle posting hposting hsame
      have hle' : journal.effectiveOn ≤ date := hle
      rw [heffective date posting hposting hsame, decide_eq_true hle']
    · intro hall
      have htrue := hall first hfirst hid
      rw [heffective date first hfirst hid] at htrue
      exact of_decide_eq_true htrue

end Account

/-! ## One journal -/

section Journal

variable {L : LedgerDb} {household : HouseholdRow} {account : AccountRow} {p : PostingRow → Bool}
  {journal : JournalRow} {P P' : Projections}

theorem LedgerDb.Keyed.elsewhere (hL : L.Keyed) (hjournal : journal ∈ L.journals)
    (h : account.householdId ≠ journal.householdId) :
    ∀ posting ∈ L.postingsOn account, (journal.journalId == posting.journalId) = false := by
  intro posting hposting
  obtain ⟨hmem, hhousehold, -⟩ := mem_postingsOn.1 hposting
  by_contra hid
  have hfound := hL.journalOf hjournal hmem (by simpa using hid)
  exact h (hhousehold ▸ (journalOf_mem hfound).2.1.symm)

theorem find_groups (hL : L.Keyed) (haccount : account ∈ L.accountsOf household.householdId)
    (q : AccountRow → Bool) :
    find accountKey (household.householdId, account.accountId)
      ((L.accountsOf household.householdId).filter q) = if q account then some account else none := by
  obtain ⟨hmem, hhousehold⟩ := mem_accountsOf.1 haccount
  have hkey : (household.householdId, account.accountId) = accountKey account := by
    rw [accountKey, hhousehold]
  have hdistinct : Distinct accountKey (L.accountsOf household.householdId) :=
    hL.accountKey.filter _
  rw [hkey]
  exact hdistinct.find_filter haccount q

theorem accumulate_key {new old merged : CurrentBalanceRow} (h : accumulate new old = .ok merged) :
    merged.key = old.key := by
  obtain ⟨nativeAmount, -, h⟩ := bind_eq_ok.1 h
  obtain ⟨reportingAmount, -, h⟩ := bind_eq_ok.1 h
  cases pure_eq_ok.1 h
  rfl

theorem appliedRow_key {input : ApplyJournalInput} {row : CurrentBalanceRow}
    (h : appliedRow L household input account = .ok row) :
    row.key = (household.householdId, account.accountId) := by
  obtain ⟨nativeAmount, -, h⟩ := bind_eq_ok.1 h
  obtain ⟨reportingAmount, -, h⟩ := bind_eq_ok.1 h
  cases pure_eq_ok.1 h
  rfl

/-- What `applyJournal` does to the current row of an account: it makes a row for each group and puts
it in. -/
theorem applyJournal_cases (hL : L.Keyed) {input : ApplyJournalInput}
    (h : applyJournal L input P = .ok P') (hhousehold : household ∈ L.households)
    (haccount : account ∈ L.accountsOf household.householdId) :
    (household.householdId = input.householdId ∧ appliedPostings L input account ≠ [] ∧
      ∃ row, appliedRow L household input account = .ok row ∧
        Upserted accumulate (some row) (P.currentBalance household.householdId account.accountId)
          (P'.currentBalance household.householdId account.accountId)) ∨
    ((household.householdId = input.householdId → appliedPostings L input account = []) ∧
      P'.currentBalance household.householdId account.accountId =
        P.currentBalance household.householdId account.accountId) := by
  unfold applyJournal at h
  cases hfound : L.findHousehold input.householdId with
  | none =>
    rw [hfound] at h
    cases h
    right
    constructor
    · intro heq
      rw [← heq, hL.findHousehold hhousehold] at hfound
      cases hfound
    · rfl
  | some found =>
    simp only [hfound] at h
    obtain ⟨rows, hrows, h⟩ := bind_eq_ok.1 h
    obtain ⟨currentBalances, hcurrent, h⟩ := bind_eq_ok.1 h
    cases pure_eq_ok.1 h
    obtain ⟨hfoundMem, hfoundId⟩ := LedgerDb.findHousehold_some hfound
    have hkeys : ∀ group ∈ (L.accountsOf found.householdId).filter fun account =>
        !(appliedPostings L input account).isEmpty, ∀ row, appliedRow L found input group = .ok row →
          row.key = accountKey group := by
      intro group hgroup row hrow
      have hmem := (mem_accountsOf.1 (List.mem_filter.1 hgroup).1).2
      rw [appliedRow_key hrow, accountKey, hmem]
    have hdistinct : Distinct accountKey ((L.accountsOf found.householdId).filter fun account =>
        !(appliedPostings L input account).isEmpty) := (hL.accountKey.filter _).filter _
    have hupserted := find_upsertAll (fun _ _ _ => accumulate_key) (hdistinct.mapM hkeys hrows) hcurrent
      (household.householdId, account.accountId)
    have hmade := find_mapM hkeys hrows (household.householdId, account.accountId)
    by_cases heq : household.householdId = input.householdId
    · have hsame : some household = some found := by
        rw [← hL.findHousehold hhousehold, heq, hfound]
      obtain rfl : household = found := by simpa using hsame
      rw [find_groups hL haccount] at hmade
      by_cases hempty : appliedPostings L input account = []
      · right
        constructor
        · intro _
          exact hempty
        · simp only [hempty, List.isEmpty_nil, Bool.not_true, Bool.false_eq_true, if_false, true_and,
            reduceCtorEq, false_and, exists_false, or_false] at hmade
          rw [hmade] at hupserted
          exact hupserted.of_none
      · left
        have hnot : (!(appliedPostings L input account).isEmpty) = true := by simpa using hempty
        rw [if_pos hnot] at hmade
        rcases hmade with ⟨habsurd, -⟩ | ⟨group, row, hgroup, hrow, hfind⟩
        · cases habsurd
        · cases hgroup
          rw [hfind] at hupserted
          exact ⟨heq, hempty, row, hrow, hupserted⟩
    · right
      constructor
      · intro habsurd
        exact absurd habsurd heq
      · rcases hmade with ⟨-, hnone⟩ | ⟨group, row, hgroup, -, -⟩
        · rw [hnone] at hupserted
          exact hupserted.of_none
        · obtain ⟨hmem, hkey⟩ := find_some hgroup
          have hgroupId := (mem_accountsOf.1 (List.mem_filter.1 hmem).1).2
          have hids : group.householdId = household.householdId := congrArg Prod.fst hkey
          rw [hids, hfoundId] at hgroupId
          exact absurd hgroupId heq

/-- Applying a journal not applied before adds its postings to what the rows say. -/
theorem applyJournal_holds (hL : L.Keyed) (hjournal : journal ∈ L.journals)
    (hnew : ∀ posting, p posting = true → (journal.journalId == posting.journalId) = false)
    (h : applyJournal L (applyInput L journal) P = .ok P') (hhousehold : household ∈ L.households)
    (haccount : account ∈ L.accountsOf household.householdId)
    (hP : Holds L household account p (P.currentBalance household.householdId account.accountId)) :
    Holds L household account (fun posting => p posting || journal.journalId == posting.journalId)
      (P'.currentBalance household.householdId account.accountId) := by
  have hid := (mem_accountsOf.1 haccount).2
  rcases applyJournal_cases hL h hhousehold haccount with
    ⟨heq, hgroup, row, hrow, hupserted⟩ | ⟨hgroup, hkept⟩
  · have hrowHolds := appliedRow_holds hL hjournal (hid.trans heq) hgroup hrow
    generalize P.currentBalance household.householdId account.accountId = old at hP hupserted
    generalize P'.currentBalance household.householdId account.accountId = now at hupserted ⊢
    cases hupserted with
    | inserted =>
      apply hrowHolds.congr
      intro posting hposting
      cases hP with
      | absent hnone => rw [hnone posting hposting, Bool.false_or]
    | merged hmerged =>
      apply hP.accumulate hrowHolds _ hmerged
      rintro posting - ⟨hp, hq⟩
      rw [hnew posting hp] at hq
      cases hq
  · rw [hkept]
    apply hP.congr
    intro posting hposting
    have hnone : (journal.journalId == posting.journalId) = false := by
      by_cases heq : household.householdId = journal.householdId
      · have hempty := hgroup heq
        rw [appliedPostings_applyInput (hid.trans heq), List.filter_eq_nil_iff] at hempty
        simpa using hempty posting hposting
      · exact hL.elsewhere hjournal (hid ▸ heq) posting hposting
    rw [hnone, Bool.or_false]

end Journal

/-! ## Any number of journals -/

section Journals

variable {L : LedgerDb} {household : HouseholdRow} {account : AccountRow} {P P' : Projections}

theorem applyJournals_holds (hL : L.Keyed) {applied order : List JournalRow}
    (hdistinct : Distinct JournalRow.journalId (applied ++ order))
    (hjournals : ∀ journal ∈ order, journal ∈ L.journals) (h : applyJournals L order P = .ok P')
    (hhousehold : household ∈ L.households)
    (haccount : account ∈ L.accountsOf household.householdId)
    (hP : Holds L household account (inJournals applied)
      (P.currentBalance household.householdId account.accountId)) :
    Holds L household account (inJournals (applied ++ order))
      (P'.currentBalance household.householdId account.accountId) := by
  induction order generalizing applied P with
  | nil =>
    cases h
    rwa [List.append_nil]
  | cons journal order ih =>
    unfold applyJournals at h
    rw [List.foldlM_cons] at h
    obtain ⟨mid, hmid, hrest⟩ := bind_eq_ok.1 h
    have hassoc : applied ++ journal :: order = (applied ++ [journal]) ++ order := by simp
    have hnew : ∀ posting, inJournals applied posting = true →
        (journal.journalId == posting.journalId) = false := by
      intro posting hin
      obtain ⟨old, hold, hid⟩ := List.any_eq_true.1 hin
      have hid' : old.journalId = posting.journalId := by simpa using hid
      have hdisjoint := (List.nodup_append.1 (by simpa [Distinct] using hdistinct)).2.2
      have hne := hdisjoint old.journalId (List.mem_map_of_mem hold) journal.journalId (by simp)
      simpa [← hid'] using hne.symm
    have hstep := applyJournal_holds hL (hjournals journal (by simp)) hnew hmid hhousehold haccount hP
    have hsame : (fun posting => inJournals applied posting || journal.journalId == posting.journalId) =
        inJournals (applied ++ [journal]) := by
      funext posting
      simp [inJournals]
    rw [hsame] at hstep
    rw [hassoc] at hdistinct ⊢
    exact ih hdistinct (fun j hj => hjournals j (by simp [hj])) hrest hstep

theorem LedgerDb.Keyed.inJournals (hL : L.Keyed) {order : List JournalRow}
    (horder : ∀ journal ∈ L.journals, journal ∈ order) {posting : PostingRow}
    (hposting : posting ∈ L.postings) : PlusOne.inJournals order posting = true := by
  obtain ⟨journal, hjournal⟩ := Option.isSome_iff_exists.1 (hL.posting_journal posting hposting)
  obtain ⟨hmem, -, hid⟩ := journalOf_mem hjournal
  exact List.any_eq_true.2 ⟨journal, horder journal hmem, by simpa using hid⟩

/-- When every journal has been applied once, the rows hold the sums over all postings. -/
theorem applyJournals_all (hL : L.Keyed) {order : List JournalRow} (horder : order.Perm L.journals)
    (hempty : P.currentBalances = []) (h : applyJournals L order P = .ok P')
    (hhousehold : household ∈ L.households)
    (haccount : account ∈ L.accountsOf household.householdId) :
    Holds L household account (fun _ => true)
      (P'.currentBalance household.householdId account.accountId) := by
  have hdistinct : Distinct JournalRow.journalId ([] ++ order) :=
    (horder.map JournalRow.journalId).nodup_iff.2 hL.journals
  have hstart : Holds L household account (inJournals [])
      (P.currentBalance household.householdId account.accountId) := by
    have hnone : P.currentBalance household.householdId account.accountId = none := by
      rw [Projections.currentBalance, hempty]
      rfl
    rw [hnone]
    exact .absent fun _ _ => rfl
  have hrun := applyJournals_holds hL hdistinct (fun j hj => horder.mem_iff.1 hj) h hhousehold haccount
    hstart
  apply hrun.congr
  intro posting hposting
  exact hL.inJournals (fun j hj => horder.mem_iff.2 hj) (mem_postingsOn.1 hposting).1

end Journals

end PlusOne
