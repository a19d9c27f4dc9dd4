import Mathlib.Order.Lattice
import PlusOne.Contracts.Channels
import PlusOne.Contracts.Identifiers
import PlusOne.Contracts.Money

/-! # Journals, drafts and the proposals that carry them -/

namespace PlusOne

/-! ## Dates -/

def isLeapYear (year : Nat) : Bool := year % 4 == 0 && (year % 100 != 0 || year % 400 == 0)

def daysInMonth (year month : Nat) : Nat :=
  if month = 2 then (if isLeapYear year then 29 else 28)
  else if month = 4 ∨ month = 6 ∨ month = 9 ∨ month = 11 then 30
  else 31

/-- `isRealLocalDate`; `Date.UTC` takes a year below 100 for one of the twentieth century. -/
def isRealLocalDate (year month day : Nat) : Bool :=
  decide (100 ≤ year) && decide (year ≤ 9999) && decide (1 ≤ month) && decide (month ≤ 12) &&
    decide (1 ≤ day) && decide (day ≤ daysInMonth year month)

structure LocalDate where
  year : Nat
  month : Nat
  day : Nat
  real : isRealLocalDate year month day = true
  deriving DecidableEq

namespace LocalDate

/-- The digits of the text read as one number, which orders dates as they follow each other. -/
def digits (date : LocalDate) : Nat := date.year * 10000 + date.month * 100 + date.day

theorem month_le (date : LocalDate) : date.month ≤ 12 := by
  have hreal := date.real
  simp only [isRealLocalDate, Bool.and_eq_true, decide_eq_true_eq] at hreal
  omega

theorem daysInMonth_le (year month : Nat) : daysInMonth year month ≤ 31 := by
  unfold daysInMonth
  repeat' split
  all_goals omega

theorem day_le (date : LocalDate) : date.day ≤ 31 := by
  have hreal := date.real
  have hmonth := daysInMonth_le date.year date.month
  simp only [isRealLocalDate, Bool.and_eq_true, decide_eq_true_eq] at hreal
  omega

theorem digits_injective : Function.Injective digits := by
  rintro ⟨y, m, d, hreal⟩ ⟨y', m', d', hreal'⟩ h
  have hm := month_le ⟨y, m, d, hreal⟩
  have hm' := month_le ⟨y', m', d', hreal'⟩
  have hd := day_le ⟨y, m, d, hreal⟩
  have hd' := day_le ⟨y', m', d', hreal'⟩
  simp only [digits] at h hm hm' hd hd'
  obtain rfl : y = y' := by omega
  obtain rfl : m = m' := by omega
  obtain rfl : d = d' := by omega
  rfl

instance : LinearOrder LocalDate := LinearOrder.lift' digits digits_injective

end LocalDate

/-! ## Journals -/

abbrev BookId := OpaqueId .book
abbrev AccountId := OpaqueId .account
abbrev PeriodId := OpaqueId .period
abbrev DraftSeriesId := OpaqueId .draftSeries
abbrev JournalDraftId := OpaqueId .journalDraft
abbrev JournalId := OpaqueId .journal
abbrev PostingId := OpaqueId .posting
abbrev CounterpartyId := OpaqueId .counterparty
abbrev TagId := OpaqueId .tag

inductive AccountingClass
  | asset | liability | equity | income | expense
  deriving DecidableEq

inductive PostingDirection
  | debit | credit
  deriving DecidableEq

abbrev NormalBalance := PostingDirection

inductive JournalType
  | ordinary | transfer | reversal | replacement | adjustment | fx_realized
  deriving DecidableEq

inductive ExchangeRateQuote
  | native_per_transaction | transaction_per_native
  deriving DecidableEq

/-- The four exchange-rate fields, which are there together or not at all. -/
structure ExchangeRate where
  exchangeRate : DecimalString
  exchangeRateQuote : ExchangeRateQuote
  exchangeRateDate : LocalDate
  exchangeRateSource : String

def ExchangeRate.valid (rate : ExchangeRate) : Bool :=
  isPositiveAmount rate.exchangeRate && lengthBetween 1 256 rate.exchangeRateSource

structure DraftPostingInput where
  accountId : AccountId
  direction : PostingDirection
  transactionAmount : DecimalString
  accountNativeAmount : DecimalString
  accountNativeCurrency : CurrencyCode
  rate : Option ExchangeRate
  memo : Option String
  tagIds : List TagId

/-- `DraftPostingInputSchemaV1` beyond the types of its fields. -/
def DraftPostingInput.valid (posting : DraftPostingInput) : Bool :=
  isNonNegativeAmount posting.transactionAmount && isNonNegativeAmount posting.accountNativeAmount &&
    posting.rate.all ExchangeRate.valid && posting.memo.all (lengthBetween 0 2000) &&
    decide (posting.tagIds.length ≤ 32)

/-- The fields a draft, a proposal and the journal posted from them share. -/
structure JournalBody where
  householdId : HouseholdId
  bookId : BookId
  draftId : JournalDraftId
  taskId : TaskId
  journalType : JournalType
  transactionCurrency : CurrencyCode
  occurredOn : LocalDate
  effectiveOn : LocalDate
  settlementOn : Option LocalDate
  sourceOn : Option LocalDate
  description : String
  counterpartyId : Option CounterpartyId
  tagIds : List TagId
  postings : List DraftPostingInput

def JournalBody.valid (body : JournalBody) : Bool :=
  lengthBetween 1 4000 body.description && decide (body.tagIds.length ≤ 32) &&
    body.postings.all DraftPostingInput.valid

structure PostJournalProposal extends JournalBody where
  journalId : JournalId
  periodId : PeriodId
  reversesJournalId : Option JournalId
  replacesJournalId : Option JournalId

def PostJournalProposal.valid (journal : PostJournalProposal) : Bool :=
  journal.toJournalBody.valid && decide (2 ≤ journal.postings.length)

/-- What `PostJournalInputSchemaV1` asks of a posting, given the currency of its journal. -/
def postingAdmitted (transactionCurrency : CurrencyCode) (posting : DraftPostingInput) : Bool :=
  isPositiveAmount posting.transactionAmount && isPositiveAmount posting.accountNativeAmount &&
    posting.rate.isSome == (posting.accountNativeCurrency != transactionCurrency)

structure PostJournalInput extends PostJournalProposal where
  checkedArtifactId : ArtifactId
  checkedArtifactHash : ArtifactHash

def PostJournalInput.valid (journal : PostJournalInput) : Bool :=
  journal.toPostJournalProposal.valid &&
    journal.postings.all (postingAdmitted journal.transactionCurrency) &&
    (journal.journalType != .reversal || journal.reversesJournalId.isSome) &&
    (journal.journalType != .replacement || journal.replacesJournalId.isSome)

structure JournalDraftInput extends JournalBody where
  draftSeriesId : DraftSeriesId
  version : Nat
  previousDraftId : Option JournalDraftId
  checkedArtifactId : ArtifactId
  checkedArtifactHash : ArtifactHash

/-- A first version has no previous draft, every later one has. -/
def versionLinked (version : Nat) (previousDraftId : Option JournalDraftId) : Bool :=
  decide (0 < version) && (previousDraftId.isSome == decide (1 < version))

def JournalDraftInput.valid (draft : JournalDraftInput) : Bool :=
  draft.toJournalBody.valid && decide (1 ≤ draft.postings.length) &&
    versionLinked draft.version draft.previousDraftId

structure ReverseAndReplaceInput where
  originalJournalId : JournalId
  reversal : PostJournalInput
  replacement : PostJournalInput

def ReverseAndReplaceInput.valid (input : ReverseAndReplaceInput) : Bool :=
  input.reversal.valid && input.replacement.valid &&
    input.reversal.journalId != input.replacement.journalId &&
    input.reversal.journalType == .reversal &&
    input.reversal.reversesJournalId == some input.originalJournalId &&
    input.replacement.journalType == .replacement &&
    input.replacement.replacesJournalId == some input.originalJournalId

/-! ## Proposals -/

structure CheckedJournalDraftProposal where
  draftSeriesId : DraftSeriesId
  version : Nat
  previousDraftId : Option JournalDraftId
  journal : PostJournalProposal

def CheckedJournalDraftProposal.valid (draft : CheckedJournalDraftProposal) : Bool :=
  versionLinked draft.version draft.previousDraftId && draft.journal.valid

inductive AccountingJournalMutationProposal
  | post (draft : CheckedJournalDraftProposal)
  | reverse_replace (originalJournalId : JournalId)
      (reversal replacement : CheckedJournalDraftProposal)

def AccountingJournalMutationProposal.valid : AccountingJournalMutationProposal → Bool
  | post draft => draft.valid
  | reverse_replace originalJournalId reversal replacement =>
    reversal.valid && replacement.valid &&
      reversal.journal.householdId == replacement.journal.householdId &&
      reversal.journal.bookId == replacement.journal.bookId &&
      reversal.journal.taskId == replacement.journal.taskId &&
      reversal.journal.journalId != replacement.journal.journalId &&
      reversal.journal.draftId != replacement.journal.draftId &&
      reversal.journal.journalType == .reversal &&
      reversal.journal.reversesJournalId == some originalJournalId &&
      replacement.journal.journalType == .replacement &&
      replacement.journal.replacesJournalId == some originalJournalId

/-- `AccountingWorkResultV1`; the questions of a clarification are not read. -/
inductive AccountingWorkResult
  | proposal (proposal : AccountingJournalMutationProposal)
  | clarification

end PlusOne
