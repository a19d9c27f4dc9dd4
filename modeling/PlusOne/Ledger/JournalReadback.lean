import Mathlib.Data.List.Forall2
import PlusOne.Ledger.Tables
import PlusOne.Mutations.Executor
import PlusOne.Numeric.Values
import PlusOne.Relational.Computed
import PlusOne.Runtime.CanonicalJson

/-! # Reading a posted journal back

`LedgerReadback.verifyPostedJournal` compares a stored journal with the one that was expected, and
the accounting handler makes checks of what it reports. -/

namespace PlusOne

open Numeric Relational

/-! ## Journals as they are read -/

structure ReadPosting extends PostingFacts where
  postingId : PostingId
  tagIds : List TagId

structure PostedJournalReadback extends JournalFacts where
  journalId : JournalId
  periodId : PeriodId
  reversesJournalId : Option JournalId
  replacesJournalId : Option JournalId
  tagIds : List TagId
  postings : List ReadPosting

namespace LedgerReadback

variable (L : LedgerDb)

/-- `ORDER BY tag_id`: identifiers of one kind are in one order in every collation. -/
def orderTags (tagIds : List TagId) : List TagId :=
  tagIds.insertionSort fun tagId other => codeUnitLe tagId.text other.text

def journalTagIds (journal : JournalRow) : List TagId :=
  orderTags ((L.journalTags.filter fun link => link.householdId == journal.householdId &&
    link.journalId == journal.journalId).map JournalTagRow.tagId)

def postingTagIds (posting : PostingRow) : List TagId :=
  orderTags ((L.postingTags.filter fun link => link.householdId == posting.householdId &&
    link.postingId == posting.postingId).map PostingTagRow.tagId)

/-- The postings of a journal, by their ordinals. -/
def postingsOf (householdId : HouseholdId) (journalId : JournalId) : List PostingRow :=
  (L.postings.filter fun posting => posting.householdId == householdId &&
    posting.journalId == journalId).insertionSort fun posting other => posting.ordinal ≤ other.ordinal

def readPostedJournal (householdId : HouseholdId) (journalId : JournalId) : Option PostedJournalReadback :=
  (L.journals.find? fun journal => journal.householdId == householdId && journal.journalId == journalId).map
    fun journal =>
      { toJournalFacts := journal.toJournalFacts
        journalId := journal.journalId
        periodId := journal.periodId
        reversesJournalId := journal.reversesJournalId
        replacesJournalId := journal.replacesJournalId
        tagIds := journalTagIds L journal
        postings := (postingsOf L householdId journalId).map fun posting =>
          { toPostingFacts := posting.toPostingFacts
            postingId := posting.postingId
            tagIds := postingTagIds L posting } }

end LedgerReadback

/-! ## Journals as they are expected -/

/-- A posting of `PostJournalInputSchemaV1`, which may name the posting it is stored as. -/
structure ExpectedPosting extends DraftPostingInput where
  postingId : Option PostingId

structure ExpectedJournal extends JournalFacts where
  journalId : JournalId
  periodId : PeriodId
  reversesJournalId : Option JournalId
  replacesJournalId : Option JournalId
  tagIds : List TagId
  postings : List ExpectedPosting

/-- What `PostJournalInputSchemaV1` checks beyond the types of the fields. -/
def ExpectedJournal.valid (journal : ExpectedJournal) : Bool :=
  lengthBetween 1 4000 journal.description && decide (journal.tagIds.length ≤ 32) &&
    decide (2 ≤ journal.postings.length) &&
    (journal.postings.all fun posting => posting.toDraftPostingInput.valid &&
      postingAdmitted journal.transactionCurrency posting.toDraftPostingInput) &&
    (journal.journalType != .reversal || journal.reversesJournalId.isSome) &&
    (journal.journalType != .replacement || journal.replacesJournalId.isSome)

/-! ## Comparing -/

structure JournalVerification where
  ok : Bool
  journalId : JournalId
  mismatches : List String
  deriving DecidableEq

namespace LedgerReadback

/-- `if (JSON.stringify(observed) !== JSON.stringify(wanted)) mismatches.push(field)` -/
def mismatch (field : String) (same : Bool) : List String := if same then [] else [field]

/-- `JSON.stringify(observed) === JSON.stringify([...wanted].sort())` on identifiers. -/
def sameTags (observed wanted : List TagId) : Bool :=
  observed.map OpaqueId.text == sortTexts (wanted.map OpaqueId.text)

def topLevel (actual : PostedJournalReadback) (expected : ExpectedJournal) : List String :=
  mismatch "book_id" (actual.bookId == expected.bookId) ++
  mismatch "period_id" (actual.periodId == expected.periodId) ++
  mismatch "draft_id" (actual.draftId == expected.draftId) ++
  mismatch "task_id" (actual.taskId == expected.taskId) ++
  mismatch "checked_artifact_id" (actual.checkedArtifactId == expected.checkedArtifactId) ++
  mismatch "checked_artifact_hash" (actual.checkedArtifactHash == expected.checkedArtifactHash) ++
  mismatch "journal_type" (actual.journalType == expected.journalType) ++
  mismatch "transaction_currency" (actual.transactionCurrency == expected.transactionCurrency) ++
  mismatch "occurred_on" (actual.occurredOn == expected.occurredOn) ++
  mismatch "effective_on" (actual.effectiveOn == expected.effectiveOn) ++
  mismatch "settlement_on" (actual.settlementOn == expected.settlementOn) ++
  mismatch "source_on" (actual.sourceOn == expected.sourceOn) ++
  mismatch "description" (actual.description == expected.description) ++
  mismatch "counterparty_id" (actual.counterpartyId == expected.counterpartyId) ++
  mismatch "reverses_journal_id" (actual.reversesJournalId == expected.reversesJournalId) ++
  mismatch "replaces_journal_id" (actual.replacesJournalId == expected.replacesJournalId) ++
  mismatch "tag_ids" (sameTags actual.tagIds expected.tagIds)

def sameDecimal (observed : Decimal) (wanted : DecimalString) : Bool :=
  compareDecimalStrings observed wanted == .eq

/-- Both rates are missing, or both are there and equal. -/
def sameRate (observed : Option RateColumns) (wanted : Option ExchangeRate) : Bool :=
  match observed, wanted with
  | none, none => true
  | some observed, some wanted => sameDecimal observed.exchangeRate.text wanted.exchangeRate
  | _, _ => false

def postingLevel (start : String) (observed : ReadPosting) (wanted : ExpectedPosting) : List String :=
  mismatch (start ++ "account_id") (observed.accountId == wanted.accountId) ++
  mismatch (start ++ "direction") (observed.direction == wanted.direction) ++
  mismatch (start ++ "account_native_currency") (observed.accountNativeCurrency == wanted.accountNativeCurrency) ++
  mismatch (start ++ "exchange_rate_quote")
    (observed.rate.map RateColumns.exchangeRateQuote == wanted.rate.map ExchangeRate.exchangeRateQuote) ++
  mismatch (start ++ "exchange_rate_date")
    (observed.rate.map RateColumns.exchangeRateDate == wanted.rate.map ExchangeRate.exchangeRateDate) ++
  mismatch (start ++ "exchange_rate_source")
    (observed.rate.map RateColumns.exchangeRateSource == wanted.rate.map ExchangeRate.exchangeRateSource) ++
  mismatch (start ++ "memo") (observed.memo == wanted.memo) ++
  mismatch (start ++ "tag_ids") (sameTags observed.tagIds wanted.tagIds) ++
  mismatch (start ++ "transaction_amount") (sameDecimal observed.transactionAmount.text wanted.transactionAmount) ++
  mismatch (start ++ "account_native_amount")
    (sameDecimal observed.accountNativeAmount.text wanted.accountNativeAmount) ++
  mismatch (start ++ "exchange_rate") (sameRate observed.rate wanted.rate)

/-- The expected postings at the indexes from `index` on, each against the stored one there. -/
def postingLevels (index : Nat) : List ReadPosting → List ExpectedPosting → List String
  | observed :: rest, wanted :: others =>
    postingLevel ("postings[" ++ toString index ++ "].") observed wanted ++ postingLevels (index + 1) rest others
  | _, _ => []

def mismatchesOf (actual : PostedJournalReadback) (expected : ExpectedJournal) : List String :=
  topLevel actual expected ++
    mismatch "posting_count" (actual.postings.length == expected.postings.length) ++
    postingLevels 0 actual.postings expected.postings

def verifyPostedJournal (L : LedgerDb) (householdId : HouseholdId) (expected : ExpectedJournal) :
    Except Thrown JournalVerification := do
  if expected.valid then
    match readPostedJournal L householdId expected.journalId with
    | none => return { ok := false, journalId := expected.journalId, mismatches := ["journal_missing"] }
    | some actual =>
      let mismatches := mismatchesOf actual expected
      return { ok := mismatches.isEmpty, journalId := actual.journalId, mismatches }
  else throw .zodError

end LedgerReadback

/-! ## The handler -/

structure BalanceSnapshot where
  accountId : AccountId
  currency : CurrencyCode
  amount : DecimalString

/-- The expected state of a receipt, `JournalExpectedStateSchema`. -/
structure JournalExpectedState where
  journals : List ExpectedJournal
  balances : List BalanceSnapshot

def JournalExpectedState.valid (expected : JournalExpectedState) : Bool :=
  decide (1 ≤ expected.journals.length) && decide (expected.journals.length ≤ 2) &&
    expected.journals.all ExpectedJournal.valid

namespace LedgerReadback

variable (L : LedgerDb)

def accountNotFound (accountId : AccountId) : PlusOneError :=
  { category := .validation_rejected
    code := "account_not_found"
    message := "Account was not found"
    retry := .never
    receiptLookupRequired := false
    details := [("accountId", .text accountId.text)] }

/-- A sum of columns is printed with their scale, the sum of nothing as `0`. -/
def accountNativeBalance (householdId : HouseholdId) (accountId : AccountId) (asOf : LocalDate) :
    Except Thrown (CurrencyCode × DecimalString) :=
  match L.accounts.find? fun account => account.householdId == householdId && account.accountId == accountId with
  | none => .error (.plusOne (accountNotFound accountId))
  | some account =>
    let units := L.nativeBalanceOn asOf account
    let scale := if (L.postingsOn account).any (L.effectiveBy asOf) then 12 else 0
    .ok (account.nativeCurrency, ⟨decide (units < 0), units.natAbs, scale⟩)

/-- `expected.journals.map((entry) => entry.effectiveOn).sort().at(-1)` -/
def latestEffectiveOn (first : ExpectedJournal) (rest : List ExpectedJournal) : LocalDate :=
  (rest.map fun journal => journal.effectiveOn).foldl max first.effectiveOn

def journalMismatches : List ExpectedJournal → Except Thrown (List String)
  | [] => .ok []
  | journal :: rest => do
    let result ← verifyPostedJournal L journal.householdId journal
    let others ← journalMismatches rest
    return (result.mismatches.map fun entry => journal.journalId.text ++ "." ++ entry) ++ others

def balanceMismatches (householdId : HouseholdId) (asOf : LocalDate) :
    List BalanceSnapshot → Except Thrown (List String)
  | [] => .ok []
  | balance :: rest => do
    let observed ← accountNativeBalance L householdId balance.accountId asOf
    let others ← balanceMismatches householdId asOf rest
    return mismatch ("balance." ++ balance.accountId.text)
      (observed.1 == balance.currency && observed.2 == balance.amount) ++ others

/-- `text.endsWith(ending)` -/
def hasEnding (ending text : String) : Bool := ending.toList.isSuffixOf text.toList

def isArtifactMismatch (entry : String) : Bool :=
  hasEnding ".checked_artifact_id" entry || hasEnding ".checked_artifact_hash" entry

def isIdentifierMismatch (entry : String) : Bool :=
  hasEnding ".journal_missing" entry || hasEnding ".posting_id" entry

def isBalanceMismatch (entry : String) : Bool := startsWith entry "balance."

def isRowMismatch (entry : String) : Bool :=
  !isBalanceMismatch entry && !isIdentifierMismatch entry && !isArtifactMismatch entry

/-- A check that fails with a code of its own. -/
def readbackCheck (kind : ReadbackCheckKind) (failed : Bool) (detailCode : String) : ReadbackCheck :=
  if failed then ⟨kind, .failed, some detailCode⟩ else ⟨kind, .passed, none⟩

/-- `readback` of `createAccountingJournalMutationHandler`, on the expected state of the receipt. -/
def readback (expected : JournalExpectedState) : Except Thrown DomainReadbackOutput := do
  if expected.valid then
    match expected.journals with
    | [] => throw .zodError
    | first :: rest =>
      let journals ← journalMismatches L expected.journals
      let balances ← balanceMismatches L first.householdId (latestEffectiveOn first rest) expected.balances
      let mismatches := journals ++ balances
      return {
        checks := [
          readbackCheck .identifiers (mismatches.any isIdentifierMismatch) "journal_identifier_mismatch",
          readbackCheck .row_values (mismatches.any isRowMismatch) "journal_row_mismatch",
          readbackCheck .balances (mismatches.any isBalanceMismatch) "balance_mismatch",
          ⟨.source_links, .not_applicable, none⟩,
          readbackCheck .artifact_links (mismatches.any isArtifactMismatch) "artifact_link_mismatch"]
        mismatches
        observedState := .obj [("journalCount", .ofNat expected.journals.length),
          ("mismatches", .ofStrings mismatches)] }
  else throw .zodError

end LedgerReadback

/-! ## Agreement -/

/-- Two lists have the same elements, in whatever order and however often. -/
def SameElements {α : Type} (as bs : List α) : Prop := ∀ a, a ∈ as ↔ a ∈ bs

/-- A stored rate and an expected one. -/
structure RateAgrees (observed : RateColumns) (wanted : ExchangeRate) : Prop where
  exchangeRate : observed.exchangeRate.value = wanted.exchangeRate.value
  quote : observed.exchangeRateQuote = wanted.exchangeRateQuote
  date : observed.exchangeRateDate = wanted.exchangeRateDate
  source : observed.exchangeRateSource = wanted.exchangeRateSource

/-- A stored posting agrees with the expected one in everything but its identifier. -/
structure PostingAgrees (observed : ReadPosting) (wanted : ExpectedPosting) : Prop where
  accountId : observed.accountId = wanted.accountId
  direction : observed.direction = wanted.direction
  transactionAmount : observed.transactionAmount.value = wanted.transactionAmount.value
  accountNativeAmount : observed.accountNativeAmount.value = wanted.accountNativeAmount.value
  accountNativeCurrency : observed.accountNativeCurrency = wanted.accountNativeCurrency
  rate : Option.Rel RateAgrees observed.rate wanted.rate
  memo : observed.memo = wanted.memo
  tagIds : SameElements observed.tagIds wanted.tagIds

/-- A stored journal agrees with the expected one in everything but the identifiers of its postings. -/
structure JournalAgrees (actual : PostedJournalReadback) (expected : ExpectedJournal) : Prop where
  facts : actual.toJournalFacts = expected.toJournalFacts
  journalId : actual.journalId = expected.journalId
  periodId : actual.periodId = expected.periodId
  reversesJournalId : actual.reversesJournalId = expected.reversesJournalId
  replacesJournalId : actual.replacesJournalId = expected.replacesJournalId
  tagIds : SameElements actual.tagIds expected.tagIds
  postings : List.Forall₂ PostingAgrees actual.postings expected.postings

/-- Each identifier an expected posting names is that of the stored posting. -/
def PostingIdsAgree (actual : PostedJournalReadback) (expected : ExpectedJournal) : Prop :=
  List.Forall₂ (fun observed wanted => ∀ postingId, wanted.postingId = some postingId →
    observed.postingId = postingId) actual.postings expected.postings

/-- No tag is listed twice. -/
structure TagsListedOnce (expected : ExpectedJournal) : Prop where
  journal : expected.tagIds.Nodup
  postings : ∀ posting ∈ expected.postings, posting.tagIds.Nodup

/-- What the primary keys of the link tables promise. -/
structure LedgerDb.TagsLinkedOnce (L : LedgerDb) : Prop where
  journalTags : L.journalTags.Nodup
  postingTags : L.postingTags.Nodup

namespace LedgerReadback

theorem mismatch_eq_nil {field : String} {same : Bool} : mismatch field same = [] ↔ same = true := by
  cases same <;> simp [mismatch]

theorem sameDecimal_iff {precision scale : Nat} {observed : Fixed precision scale} {wanted : DecimalString} :
    sameDecimal observed.text wanted = true ↔ observed.value = wanted.value := by
  rw [sameDecimal, beq_iff_eq, compareDecimalStrings, Decimal.compare_eq_iff, Fixed.value_text]

theorem map_orderTags (tagIds : List TagId) :
    (orderTags tagIds).map OpaqueId.text = sortTexts (tagIds.map OpaqueId.text) :=
  List.map_insertionSort _ _ _ _ fun _ _ _ _ => Iff.rfl

theorem sameTags_iff {stored wanted : List TagId} (hstored : stored.Nodup) :
    sameTags (orderTags stored) wanted = true ↔ wanted.Nodup ∧ SameElements (orderTags stored) wanted := by
  have hordered : (orderTags stored).Perm stored := List.perm_insertionSort _ _
  have hmem : SameElements (orderTags stored) wanted ↔ SameElements stored wanted := by
    simp only [SameElements, hordered.mem_iff]
  rw [sameTags, beq_iff_eq, map_orderTags, sortTexts_eq_iff, hmem,
    List.map_perm_map_iff OpaqueId.text_injective]
  constructor
  · intro hperm
    exact ⟨hperm.nodup_iff.1 hstored, fun tagId => hperm.mem_iff⟩
  · rintro ⟨hwanted, hsame⟩
    exact (List.perm_ext_iff_of_nodup hstored hwanted).2 hsame

/-- Tags as a query returns them. -/
def Ordered (tagIds : List TagId) : Prop := ∃ stored : List TagId, stored.Nodup ∧ tagIds = orderTags stored

theorem sameTags_iff_of_ordered {observed wanted : List TagId} (h : Ordered observed) :
    sameTags observed wanted = true ↔ wanted.Nodup ∧ SameElements observed wanted := by
  obtain ⟨stored, hstored, rfl⟩ := h
  exact sameTags_iff hstored

theorem rel_rate_iff {observed : Option RateColumns} {wanted : Option ExchangeRate} :
    Option.Rel RateAgrees observed wanted ↔
      observed.map RateColumns.exchangeRateQuote = wanted.map ExchangeRate.exchangeRateQuote ∧
      observed.map RateColumns.exchangeRateDate = wanted.map ExchangeRate.exchangeRateDate ∧
      observed.map RateColumns.exchangeRateSource = wanted.map ExchangeRate.exchangeRateSource ∧
      sameRate observed wanted = true := by
  cases observed with
  | none =>
    cases wanted with
    | none => simp [sameRate, Option.Rel.none]
    | some wanted =>
      constructor
      · intro h
        cases h
      · intro h
        simp at h
  | some observed =>
    cases wanted with
    | none =>
      constructor
      · intro h
        cases h
      · intro h
        simp at h
    | some wanted =>
      simp only [Option.map_some, Option.some.injEq, sameRate, sameDecimal_iff]
      constructor
      · intro h
        cases h with
        | some h => exact ⟨h.quote, h.date, h.source, h.exchangeRate⟩
      · rintro ⟨hquote, hdate, hsource, hrate⟩
        exact .some ⟨hrate, hquote, hdate, hsource⟩

theorem postingLevel_eq_nil {start : String} {observed : ReadPosting} {wanted : ExpectedPosting}
    (hordered : Ordered observed.tagIds) :
    postingLevel start observed wanted = [] ↔ PostingAgrees observed wanted ∧ wanted.tagIds.Nodup := by
  simp only [postingLevel, List.append_eq_nil_iff, mismatch_eq_nil, sameDecimal_iff, beq_iff_eq,
    sameTags_iff_of_ordered hordered]
  constructor
  · rintro ⟨⟨⟨⟨⟨⟨⟨⟨⟨⟨haccount, hdirection⟩, hcurrency⟩, hquote⟩, hdate⟩, hsource⟩, hmemo⟩, hnodup, htags⟩,
      htransaction⟩, hnative⟩, hrate⟩
    have hrel := rel_rate_iff.2 ⟨hquote, hdate, hsource, hrate⟩
    exact ⟨⟨haccount, hdirection, htransaction, hnative, hcurrency, hrel, hmemo, htags⟩, hnodup⟩
  · rintro ⟨h, hnodup⟩
    obtain ⟨hquote, hdate, hsource, hrate⟩ := rel_rate_iff.1 h.rate
    exact ⟨⟨⟨⟨⟨⟨⟨⟨⟨⟨h.accountId, h.direction⟩, h.accountNativeCurrency⟩, hquote⟩, hdate⟩, hsource⟩, h.memo⟩,
      hnodup, h.tagIds⟩, h.transactionAmount⟩, h.accountNativeAmount⟩, hrate⟩

/-- As many postings as expected, and no difference at any index. -/
theorem postingLevels_eq_nil {index : Nat} {actual : List ReadPosting} {expected : List ExpectedPosting}
    (hordered : ∀ posting ∈ actual, Ordered posting.tagIds) :
    (actual.length = expected.length ∧ postingLevels index actual expected = []) ↔
      List.Forall₂ PostingAgrees actual expected ∧ ∀ posting ∈ expected, posting.tagIds.Nodup := by
  induction actual generalizing index expected with
  | nil =>
    cases expected with
    | nil => simp [postingLevels]
    | cons wanted others => simp
  | cons observed rest ih =>
    cases expected with
    | nil => simp
    | cons wanted others =>
      have hhead := hordered observed (by simp)
      have htail : ∀ posting ∈ rest, Ordered posting.tagIds := fun posting h => hordered posting (by simp [h])
      have hrest := @ih (index + 1) others htail
      simp only [postingLevels, List.append_eq_nil_iff, postingLevel_eq_nil hhead, List.length_cons,
        Nat.add_right_cancel_iff, List.forall₂_cons, List.forall_mem_cons]
      constructor
      · rintro ⟨hlength, ⟨hposting, hnodup⟩, hlevels⟩
        obtain ⟨hpostings, hnodups⟩ := hrest.1 ⟨hlength, hlevels⟩
        exact ⟨⟨hposting, hpostings⟩, hnodup, hnodups⟩
      · rintro ⟨⟨hposting, hpostings⟩, hnodup, hnodups⟩
        obtain ⟨hlength, hlevels⟩ := hrest.2 ⟨hpostings, hnodups⟩
        exact ⟨hlength, ⟨hposting, hnodup⟩, hlevels⟩

/-- No difference between two journals of one household and one identifier. -/
theorem mismatchesOf_eq_nil {actual : PostedJournalReadback} {expected : ExpectedJournal}
    (hhousehold : actual.householdId = expected.householdId) (hid : actual.journalId = expected.journalId)
    (htags : Ordered actual.tagIds) (hpostings : ∀ posting ∈ actual.postings, Ordered posting.tagIds) :
    mismatchesOf actual expected = [] ↔ JournalAgrees actual expected ∧ TagsListedOnce expected := by
  have hlevels := @postingLevels_eq_nil 0 actual.postings expected.postings hpostings
  have hfacts : actual.toJournalFacts = expected.toJournalFacts ↔
      actual.bookId = expected.bookId ∧ actual.draftId = expected.draftId ∧
      actual.taskId = expected.taskId ∧ actual.checkedArtifactId = expected.checkedArtifactId ∧
      actual.checkedArtifactHash = expected.checkedArtifactHash ∧
      actual.journalType = expected.journalType ∧
      actual.transactionCurrency = expected.transactionCurrency ∧
      actual.occurredOn = expected.occurredOn ∧ actual.effectiveOn = expected.effectiveOn ∧
      actual.settlementOn = expected.settlementOn ∧ actual.sourceOn = expected.sourceOn ∧
      actual.description = expected.description ∧ actual.counterpartyId = expected.counterpartyId := by
    obtain ⟨⟨_, _, _, _, _, _, _, _, _, _, _, _, _, _⟩, _, _, _, _, _, _⟩ := actual
    obtain ⟨⟨_, _, _, _, _, _, _, _, _, _, _, _, _, _⟩, _, _, _, _, _, _⟩ := expected
    simp only at hhousehold
    simp [hhousehold]
  simp only [mismatchesOf, topLevel, List.append_eq_nil_iff, mismatch_eq_nil, beq_iff_eq,
    sameTags_iff_of_ordered htags]
  constructor
  · rintro ⟨⟨⟨⟨⟨⟨⟨⟨⟨⟨⟨⟨⟨⟨⟨⟨⟨⟨hbook, hperiod⟩, hdraft⟩, htask⟩, hartifact⟩, hhash⟩, htype⟩, hcurrency⟩, hoccurred⟩,
      heffective⟩, hsettlement⟩, hsource⟩, hdescription⟩, hcounterparty⟩, hreverses⟩, hreplaces⟩,
      hnodup, hsame⟩, hcount⟩, hdifferences⟩
    obtain ⟨hagree, hnodups⟩ := hlevels.1 ⟨hcount, hdifferences⟩
    have hsameFacts := hfacts.2 ⟨hbook, hdraft, htask, hartifact, hhash, htype, hcurrency, hoccurred,
      heffective, hsettlement, hsource, hdescription, hcounterparty⟩
    exact ⟨⟨hsameFacts, hid, hperiod, hreverses, hreplaces, hsame, hagree⟩, ⟨hnodup, hnodups⟩⟩
  · rintro ⟨hagree, honce⟩
    obtain ⟨hbook, hdraft, htask, hartifact, hhash, htype, hcurrency, hoccurred, heffective, hsettlement,
      hsource, hdescription, hcounterparty⟩ := hfacts.1 hagree.facts
    obtain ⟨hcount, hdifferences⟩ := hlevels.2 ⟨hagree.postings, honce.postings⟩
    exact ⟨⟨⟨⟨⟨⟨⟨⟨⟨⟨⟨⟨⟨⟨⟨⟨⟨⟨hbook, hagree.periodId⟩, hdraft⟩, htask⟩, hartifact⟩, hhash⟩, htype⟩, hcurrency⟩,
      hoccurred⟩, heffective⟩, hsettlement⟩, hsource⟩, hdescription⟩, hcounterparty⟩,
      hagree.reversesJournalId⟩, hagree.replacesJournalId⟩, honce.journal, hagree.tagIds⟩, hcount⟩,
      hdifferences⟩

/-! ## What is read -/

variable {L : LedgerDb} {householdId : HouseholdId} {journalId : JournalId}
  {actual : PostedJournalReadback} {expected : ExpectedJournal}

theorem ordered_journalTagIds (hlinks : L.TagsLinkedOnce) (journal : JournalRow) :
    Ordered (journalTagIds L journal) := by
  refine ⟨_, ?_, rfl⟩
  refine (hlinks.journalTags.filter _).map_on ?_
  intro link hlink other hother htag
  simp only [List.mem_filter, Bool.and_eq_true, beq_iff_eq] at hlink hother
  cases link
  cases other
  simp_all

theorem ordered_postingTagIds (hlinks : L.TagsLinkedOnce) (posting : PostingRow) :
    Ordered (postingTagIds L posting) := by
  refine ⟨_, ?_, rfl⟩
  refine (hlinks.postingTags.filter _).map_on ?_
  intro link hlink other hother htag
  simp only [List.mem_filter, Bool.and_eq_true, beq_iff_eq] at hlink hother
  cases link
  cases other
  simp_all

theorem readPostedJournal_some (hlinks : L.TagsLinkedOnce)
    (h : readPostedJournal L householdId journalId = some actual) :
    actual.householdId = householdId ∧ actual.journalId = journalId ∧ Ordered actual.tagIds ∧
      ∀ posting ∈ actual.postings, Ordered posting.tagIds := by
  obtain ⟨journal, hfind, rfl⟩ := Option.map_eq_some_iff.1 h
  have hmatch := List.find?_some hfind
  simp only [Bool.and_eq_true, beq_iff_eq] at hmatch
  refine ⟨hmatch.1, hmatch.2, ordered_journalTagIds hlinks journal, ?_⟩
  intro posting hposting
  obtain ⟨row, _, rfl⟩ := List.mem_map.1 hposting
  exact ordered_postingTagIds hlinks row

/-- The verification of a valid expected journal succeeds exactly when the stored one agrees in
everything but the identifiers of its postings, and no tag is listed twice. -/
theorem verifyPostedJournal_ok (hlinks : L.TagsLinkedOnce) (hvalid : expected.valid = true) :
    ∃ v, verifyPostedJournal L expected.householdId expected = .ok v ∧
      (v.ok = true ↔ ∃ actual, readPostedJournal L expected.householdId expected.journalId = some actual ∧
        JournalAgrees actual expected ∧ TagsListedOnce expected) := by
  cases hread : readPostedJournal L expected.householdId expected.journalId with
  | none =>
    refine ⟨⟨false, expected.journalId, ["journal_missing"]⟩, ?_, ?_⟩
    · simp [verifyPostedJournal, hvalid, hread, pure, Except.pure]
    · simp
  | some actual =>
    obtain ⟨hhousehold, hid, htags, hpostings⟩ := readPostedJournal_some hlinks hread
    refine ⟨⟨(mismatchesOf actual expected).isEmpty, actual.journalId, mismatchesOf actual expected⟩, ?_, ?_⟩
    · simp [verifyPostedJournal, hvalid, hread, pure, Except.pure]
    · have hnil := mismatchesOf_eq_nil hhousehold hid htags hpostings
      simp only [List.isEmpty_iff, hnil, Option.some.injEq, exists_eq_left']

/-! ## What the handler makes of it -/

/-- The check a mismatch belongs to. -/
def checkOf (entry : String) : ReadbackCheckKind :=
  if isBalanceMismatch entry then .balances
  else if isIdentifierMismatch entry then .identifiers
  else if isArtifactMismatch entry then .artifact_links
  else .row_values

theorem mem_journalMismatches {journals : List ExpectedJournal} {mismatches : List String}
    {v : JournalVerification} {entry : String} (h : journalMismatches L journals = .ok mismatches)
    (hmem : expected ∈ journals) (hverify : verifyPostedJournal L expected.householdId expected = .ok v)
    (hentry : entry ∈ v.mismatches) : expected.journalId.text ++ "." ++ entry ∈ mismatches := by
  induction journals generalizing mismatches with
  | nil => simp at hmem
  | cons journal rest ih =>
    obtain ⟨result, hresult, h⟩ := bind_eq_ok.1 h
    obtain ⟨others, hothers, h⟩ := bind_eq_ok.1 h
    cases h
    rcases List.mem_cons.1 hmem with rfl | hrest
    · obtain rfl := Except.ok.inj (hverify.symm.trans hresult)
      exact List.mem_append_left _ (List.mem_map_of_mem hentry)
    · exact List.mem_append_right _ (ih hothers hrest)

/-- Any mismatch fails the check it belongs to. -/
theorem exists_failed_check {state : JournalExpectedState} {out : DomainReadbackOutput} {entry : String}
    (h : readback L state = .ok out) (hentry : entry ∈ out.mismatches) :
    ∃ check ∈ out.checks, check.status = .failed ∧ check.kind = checkOf entry := by
  unfold readback at h
  split at h
  case isFalse => cases h
  case isTrue =>
    split at h
    case h_1 => cases h
    case h_2 first rest _ =>
      obtain ⟨journals, _, h⟩ := bind_eq_ok.1 h
      obtain ⟨balances, _, h⟩ := bind_eq_ok.1 h
      cases h
      have hany : ∀ p : String → Bool, p entry = true → (journals ++ balances).any p = true :=
        fun p hp => List.any_eq_true.2 ⟨entry, hentry, hp⟩
      unfold checkOf
      split_ifs with hbalance hidentifier hartifact
      · refine ⟨readbackCheck .balances ((journals ++ balances).any isBalanceMismatch) "balance_mismatch", by simp, ?_⟩
        simp [readbackCheck, hany _ hbalance]
      · refine ⟨readbackCheck .identifiers ((journals ++ balances).any isIdentifierMismatch)
          "journal_identifier_mismatch", by simp, ?_⟩
        simp [readbackCheck, hany _ hidentifier]
      · refine ⟨readbackCheck .artifact_links ((journals ++ balances).any isArtifactMismatch)
          "artifact_link_mismatch", by simp, ?_⟩
        simp [readbackCheck, hany _ hartifact]
      · have hrow : isRowMismatch entry = true := by
          simp [isRowMismatch, hbalance, hidentifier, hartifact]
        refine ⟨readbackCheck .row_values ((journals ++ balances).any isRowMismatch)
          "journal_row_mismatch", by simp, ?_⟩
        simp [readbackCheck, hany _ hrow]

theorem journalMismatches_reported {state : JournalExpectedState} {out : DomainReadbackOutput}
    (h : readback L state = .ok out) :
    ∃ journals balances, journalMismatches L state.journals = .ok journals ∧
      out.mismatches = journals ++ balances := by
  unfold readback at h
  split at h
  case isFalse => cases h
  case isTrue =>
    split at h
    case h_1 => cases h
    case h_2 first rest hjournals =>
      obtain ⟨journals, hreported, h⟩ := bind_eq_ok.1 h
      obtain ⟨balances, _, h⟩ := bind_eq_ok.1 h
      cases h
      exact ⟨journals, balances, hreported, rfl⟩

/-- The stored journal agrees with the expected one in every field. -/
def Agrees (L : LedgerDb) (expected : ExpectedJournal) : Prop :=
  ∃ actual, readPostedJournal L expected.householdId expected.journalId = some actual ∧
    JournalAgrees actual expected ∧ PostingIdsAgree actual expected

/-- What the read-back of a journal is there for: its verification succeeds exactly when the stored
journal agrees, and in the read-back of any receipt that expects the journal each difference it
reports is a mismatch with a failed check. -/
structure DifferencesDetected (L : LedgerDb) (expected : ExpectedJournal) : Prop where
  verified : ∃ v, verifyPostedJournal L expected.householdId expected = .ok v ∧
    (v.ok = true ↔ Agrees L expected)
  checked : ∀ state out v, expected ∈ state.journals → readback L state = .ok out →
    verifyPostedJournal L expected.householdId expected = .ok v → ∀ entry ∈ v.mismatches,
      expected.journalId.text ++ "." ++ entry ∈ out.mismatches ∧
        ∃ check ∈ out.checks, check.status = .failed ∧
          check.kind = checkOf (expected.journalId.text ++ "." ++ entry)

/-- The identifiers of postings are not compared, and tags are compared as lists. Where everything
else agrees, the verification is right exactly when the identifiers the journal names are the
stored ones and no tag is listed twice, or when neither is so. -/
theorem differencesDetected_iff (hlinks : L.TagsLinkedOnce) (hvalid : expected.valid = true) :
    DifferencesDetected L expected ↔
      ∀ actual, readPostedJournal L expected.householdId expected.journalId = some actual →
        JournalAgrees actual expected → (PostingIdsAgree actual expected ↔ TagsListedOnce expected) := by
  obtain ⟨v, hverify, hok⟩ := verifyPostedJournal_ok hlinks hvalid
  constructor
  · rintro ⟨⟨v', hverify', hok'⟩, _⟩ actual hread hagree
    obtain rfl := Except.ok.inj (hverify.symm.trans hverify')
    constructor
    · intro hids
      obtain ⟨_, _, _, honce⟩ := hok.1 (hok'.2 ⟨actual, hread, hagree, hids⟩)
      exact honce
    · intro honce
      obtain ⟨stored, hstored, _, hids⟩ := hok'.1 (hok.2 ⟨actual, hread, hagree, honce⟩)
      obtain rfl := Option.some.inj (hread.symm.trans hstored)
      exact hids
  · intro hcondition
    constructor
    · refine ⟨v, hverify, hok.trans ?_⟩
      constructor
      · rintro ⟨actual, hread, hagree, honce⟩
        exact ⟨actual, hread, hagree, (hcondition actual hread hagree).2 honce⟩
      · rintro ⟨actual, hread, hagree, hids⟩
        exact ⟨actual, hread, hagree, (hcondition actual hread hagree).1 hids⟩
    · intro state out v hmem hreadback hverify entry hentry
      obtain ⟨journals, balances, hreported, hmismatches⟩ := journalMismatches_reported hreadback
      have hlisted : expected.journalId.text ++ "." ++ entry ∈ out.mismatches := by
        rw [hmismatches]
        exact List.mem_append_left _ (mem_journalMismatches hreported hmem hverify hentry)
      exact ⟨hlisted, exists_failed_check hreadback hlisted⟩

end LedgerReadback

namespace TestReadback

open LedgerReadback

def suffix : String := "01JNZQ4A9B8C7D6E5F4G3H2J1K"

def usd : CurrencyCode := ⟨"USD", Eq.refl true⟩

def today : LocalDate := ⟨2026, 6, 14, by decide⟩

def facts : JournalFacts where
  householdId := ⟨suffix, Eq.refl true⟩
  bookId := ⟨suffix, Eq.refl true⟩
  draftId := ⟨suffix, Eq.refl true⟩
  taskId := ⟨suffix, Eq.refl true⟩
  checkedArtifactId := ⟨suffix, Eq.refl true⟩
  checkedArtifactHash := ⟨"224444a4cb3f2eef0120684b545f924dc0d9ccf8da6c0a2c92fd79a031e12590", Eq.refl true⟩
  journalType := .ordinary
  transactionCurrency := usd
  occurredOn := today
  effectiveOn := today
  settlementOn := none
  sourceOn := none
  description := "Burger"
  counterpartyId := none

def debited : PostingId := ⟨"01JNZQ4A9B8C7D6E5F4G3H2JS1", Eq.refl true⟩

def credited : PostingId := ⟨"01JNZQ4A9B8C7D6E5F4G3H2JS2", Eq.refl true⟩

def twenty : DecimalAmount := ⟨20 * 10 ^ 12, by decide⟩

def posting (ordinal : Nat) (direction : PostingDirection) (postingId : PostingId) : PostingRow where
  ordinal := ordinal
  accountId := ⟨suffix, by decide⟩
  direction := direction
  transactionAmount := twenty
  accountNativeAmount := twenty
  accountNativeCurrency := usd
  rate := none
  memo := none
  householdId := ⟨suffix, by decide⟩
  postingId := postingId
  journalId := ⟨suffix, by decide⟩

def ledger : LedgerDb where
  households := []
  currencies := []
  books := []
  accounts := []
  periods := []
  counterparties := []
  tags := []
  artifacts := []
  verdicts := []
  drafts := []
  draftPostings := []
  journals := [⟨facts, ⟨suffix, by decide⟩, ⟨suffix, by decide⟩, none, none⟩]
  postings := [posting 1 .debit debited, posting 2 .credit credited]
  journalTags := []
  postingTags := []

def wanted (direction : PostingDirection) (postingId : Option PostingId) : ExpectedPosting where
  accountId := ⟨suffix, by decide⟩
  direction := direction
  transactionAmount := ⟨false, 2000, 2⟩
  accountNativeAmount := ⟨false, 2000, 2⟩
  accountNativeCurrency := usd
  rate := none
  memo := none
  tagIds := []
  postingId := postingId

/-- The journal as it is expected, the first posting under a given identifier. -/
def expected (postingId : Option PostingId) : ExpectedJournal where
  toJournalFacts := facts
  journalId := ⟨suffix, by decide⟩
  periodId := ⟨suffix, by decide⟩
  reversesJournalId := none
  replacesJournalId := none
  tagIds := []
  postings := [wanted .debit postingId, wanted .credit none]

theorem tagsLinkedOnce : ledger.TagsLinkedOnce := ⟨by decide, by decide⟩

/-- The expected journal names the second posting's identifier for the first, and passes. -/
theorem postings_confused : ¬DifferencesDetected ledger (expected (some credited)) := by
  rintro ⟨⟨v, hverify, hok⟩, _⟩
  have hpassed : verifyPostedJournal ledger facts.householdId (expected (some credited)) =
      .ok ⟨true, ⟨suffix, by decide⟩, []⟩ := by decide +kernel
  obtain rfl := Except.ok.inj (hverify.symm.trans hpassed)
  obtain ⟨actual, hread, _, hids⟩ := hok.1 rfl
  have hpostings : (readPostedJournal ledger facts.householdId ⟨suffix, by decide⟩).map
      (fun journal => journal.postings.map ReadPosting.postingId) = some [debited, credited] := by
    decide +kernel
  rw [show readPostedJournal ledger facts.householdId ⟨suffix, by decide⟩ = some actual from hread,
    Option.map_some, Option.some.injEq] at hpostings
  unfold PostingIdsAgree expected at hids
  cases hactual : actual.postings with
  | nil => simp [hactual] at hpostings
  | cons first rest =>
    rw [hactual] at hids hpostings
    cases hids with
    | cons hfirst _ =>
      have hid := hfirst credited rfl
      simp only [List.map_cons, List.cons.injEq] at hpostings
      rw [hpostings.1] at hid
      revert hid
      decide

theorem unnamed_detected :
    DifferencesDetected ledger (expected none) ↔
      ∀ actual, readPostedJournal ledger (expected none).householdId (expected none).journalId = some actual →
        JournalAgrees actual (expected none) →
        (PostingIdsAgree actual (expected none) ↔ TagsListedOnce (expected none)) :=
  differencesDetected_iff tagsLinkedOnce (by decide)

end TestReadback

end PlusOne
