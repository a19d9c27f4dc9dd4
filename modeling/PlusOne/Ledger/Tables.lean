import PlusOne.Contracts.Accounting
import PlusOne.Database.Tables
import PlusOne.Relational.Sums

/-! # The tables of the accounting schema

Rows are identified by their public identifiers, as in the operations schema, and a table is a list
in order of insertion. The ledger also holds the rows of the operations schema it refers to. -/

namespace PlusOne

open Numeric Relational

structure HouseholdRow where
  householdId : HouseholdId
  reportingCurrency : CurrencyCode
  deriving DecidableEq

structure CurrencyRow where
  currencyCode : CurrencyCode
  decimalScale : Nat
  isActive : Bool
  deriving DecidableEq

structure BookRow where
  householdId : HouseholdId
  bookId : BookId
  deriving DecidableEq

structure AccountRow where
  householdId : HouseholdId
  bookId : BookId
  accountId : AccountId
  accountingClass : AccountingClass
  normalBalance : NormalBalance
  nativeCurrency : CurrencyCode
  archived : Bool
  deriving DecidableEq

structure PeriodRow where
  householdId : HouseholdId
  bookId : BookId
  periodId : PeriodId
  periodStart : LocalDate
  periodEnd : LocalDate
  isOpen : Bool
  deriving DecidableEq

structure CounterpartyRow where
  householdId : HouseholdId
  counterpartyId : CounterpartyId
  archived : Bool
  deriving DecidableEq

structure TagRow where
  householdId : HouseholdId
  tagId : TagId
  archived : Bool
  deriving DecidableEq

/-- The columns `journal_drafts` and `journals` share. -/
structure JournalFacts where
  householdId : HouseholdId
  bookId : BookId
  draftId : JournalDraftId
  taskId : TaskId
  checkedArtifactId : ArtifactId
  checkedArtifactHash : ArtifactHash
  journalType : JournalType
  transactionCurrency : CurrencyCode
  occurredOn : LocalDate
  effectiveOn : LocalDate
  settlementOn : Option LocalDate
  sourceOn : Option LocalDate
  description : String
  counterpartyId : Option CounterpartyId
  deriving DecidableEq

structure JournalDraftRow extends JournalFacts where
  draftSeriesId : DraftSeriesId
  version : Nat
  previousDraftId : Option JournalDraftId
  tagIds : List TagId
  deriving DecidableEq

structure JournalRow extends JournalFacts where
  journalId : JournalId
  periodId : PeriodId
  reversesJournalId : Option JournalId
  replacesJournalId : Option JournalId
  deriving DecidableEq

/-- The four exchange-rate columns, which `postings_rate_shape` has NULL together. -/
structure RateColumns where
  exchangeRate : RateAmount
  exchangeRateQuote : ExchangeRateQuote
  exchangeRateDate : LocalDate
  exchangeRateSource : String
  deriving DecidableEq

/-- The columns `draft_postings` and `postings` share, the references to their parents apart. -/
structure PostingFacts where
  ordinal : Nat
  accountId : AccountId
  direction : PostingDirection
  transactionAmount : DecimalAmount
  accountNativeAmount : DecimalAmount
  accountNativeCurrency : CurrencyCode
  rate : Option RateColumns
  memo : Option String
  deriving DecidableEq

structure DraftPostingRow extends PostingFacts where
  householdId : HouseholdId
  draftId : JournalDraftId
  tagIds : List TagId
  deriving DecidableEq

structure PostingRow extends PostingFacts where
  householdId : HouseholdId
  postingId : PostingId
  journalId : JournalId
  deriving DecidableEq

structure JournalTagRow where
  householdId : HouseholdId
  journalId : JournalId
  tagId : TagId
  deriving DecidableEq

structure PostingTagRow where
  householdId : HouseholdId
  postingId : PostingId
  tagId : TagId
  deriving DecidableEq

structure LedgerDb where
  households : List HouseholdRow
  currencies : List CurrencyRow
  books : List BookRow
  accounts : List AccountRow
  periods : List PeriodRow
  counterparties : List CounterpartyRow
  tags : List TagRow
  artifacts : List ArtifactEnvelope
  verdicts : List VerdictRow
  drafts : List JournalDraftRow
  draftPostings : List DraftPostingRow
  journals : List JournalRow
  postings : List PostingRow
  journalTags : List JournalTagRow
  postingTags : List PostingTagRow
  deriving DecidableEq

namespace LedgerDb

variable (L : LedgerDb)

def findHousehold (householdId : HouseholdId) : Option HouseholdRow :=
  find HouseholdRow.householdId householdId L.households

def accountsOf (householdId : HouseholdId) : List AccountRow :=
  L.accounts.filter fun account => account.householdId == householdId

/-- The journal a posting belongs to. -/
def journalOf (posting : PostingRow) : Option JournalRow :=
  L.journals.find? fun journal =>
    journal.householdId == posting.householdId && journal.journalId == posting.journalId

/-- The postings made on an account. -/
def postingsOn (account : AccountRow) : List PostingRow :=
  L.postings.filter fun posting =>
    posting.householdId == account.householdId && posting.accountId == account.accountId

/-- What the primary keys and references of the tables promise, as far as sums over them rely on
it. -/
structure Keyed : Prop where
  households : Distinct HouseholdRow.householdId L.households
  accounts : Distinct AccountRow.accountId L.accounts
  journals : Distinct JournalRow.journalId L.journals
  postings : Distinct PostingRow.postingId L.postings
  posting_journal : ∀ posting ∈ L.postings, (L.journalOf posting).isSome
  posting_account : ∀ posting ∈ L.postings, ∃ account ∈ L.accounts,
    account.householdId = posting.householdId ∧ account.accountId = posting.accountId

end LedgerDb

/-! ## Balances -/

/-- `CASE WHEN posting.direction = account.normal_balance THEN amount ELSE -amount END` -/
def signedAmount (account : AccountRow) (posting : PostingRow) : Int :=
  if posting.direction = account.normalBalance then posting.accountNativeAmount.units
  else -posting.accountNativeAmount.units

/-- The same, counted as 0 where the account is not in the reporting currency. -/
def reportingAmount (household : HouseholdRow) (account : AccountRow) (posting : PostingRow) : Int :=
  if account.nativeCurrency ≠ household.reportingCurrency then 0 else signedAmount account posting

namespace LedgerDb

variable (L : LedgerDb)

/-- The journal of a posting is effective on a date or before it. -/
def effectiveBy (date : LocalDate) (posting : PostingRow) : Bool :=
  (L.journalOf posting).any fun journal => decide (journal.effectiveOn ≤ date)

/-- The native balance of an account over all its postings. -/
def nativeBalance (account : AccountRow) : Int :=
  ((L.postingsOn account).map (signedAmount account)).sum

/-- The native balance of an account over the postings effective by a date. -/
def nativeBalanceOn (date : LocalDate) (account : AccountRow) : Int :=
  sumWhere (L.effectiveBy date) (signedAmount account) (L.postingsOn account)

/-- The reporting balance of an account over the postings effective by a date. -/
def reportingBalanceOn (household : HouseholdRow) (date : LocalDate) (account : AccountRow) : Int :=
  sumWhere (L.effectiveBy date) (reportingAmount household account) (L.postingsOn account)

end LedgerDb

end PlusOne
