import Mathlib.Logic.Basic

/-! # Opaque identifiers

Each kind of identifier is its prefix, an underscore and a Crockford suffix of the
length its definition admits. The suffix is what is stored, so identifiers of two
kinds cannot be confused and an ill-formed one cannot be built. -/

namespace PlusOne

inductive IdKind
  | household | task | artifact | command | receipt | confirmation | mutationReadback | idempotency
  | account | accountSourceMapping | period | draftSeries | journalDraft | journal | book
  | conversation | delivery | workingMemoryEntry | workingMemoryProposal
  | posting | counterparty | tag
  | job | occurrence
  | importBatch | rawRow | normalizedRow | statementSnapshot | statementLine
  | reconciliation | reconciliationItem | periodEvent | discrepancy

namespace IdKind

/-- The prefix column of `OpaqueIdentifierDefinitions`. -/
def idPrefix : IdKind → String
  | household => "hh"
  | task => "task"
  | artifact => "artifact"
  | command => "command"
  | receipt => "receipt"
  | confirmation => "confirm"
  | mutationReadback => "readback"
  | idempotency => "idem"
  | account => "account"
  | accountSourceMapping => "accountmap"
  | period => "period"
  | draftSeries => "draftseries"
  | journalDraft => "draft"
  | journal => "journal"
  | book => "book"
  | conversation => "conversation"
  | delivery => "delivery"
  | workingMemoryEntry => "wme"
  | workingMemoryProposal => "wmproposal"
  | posting => "posting"
  | counterparty => "counterparty"
  | tag => "tag"
  | job => "job"
  | occurrence => "occurrence"
  | importBatch => "import"
  | rawRow => "rawrow"
  | normalizedRow => "normrow"
  | statementSnapshot => "snapshot"
  | statementLine => "stmtline"
  | reconciliation => "recon"
  | reconciliationItem => "reconitem"
  | periodEvent => "periodevent"
  | discrepancy => "discrepancy"

def minSuffixLength (_ : IdKind) : Nat := 26

def maxSuffixLength : IdKind → Nat
  | idempotency => 120
  | _ => 26

end IdKind

/-- `[0-9A-HJKMNP-TV-Z]` -/
def isCrockford (c : Char) : Bool :=
  c.isDigit || ('A' ≤ c && c ≤ 'Z' && !(c == 'I' || c == 'L' || c == 'O' || c == 'U'))

def IdKind.admits (kind : IdKind) (suffix : String) : Bool :=
  decide (kind.minSuffixLength ≤ suffix.length) && decide (suffix.length ≤ kind.maxSuffixLength) &&
    suffix.toList.all isCrockford

structure OpaqueId (kind : IdKind) where
  suffix : String
  crockford : kind.admits suffix = true
  deriving DecidableEq

def OpaqueId.text {kind : IdKind} (id : OpaqueId kind) : String :=
  kind.idPrefix ++ "_" ++ id.suffix

theorem OpaqueId.text_injective {kind : IdKind} : Function.Injective (@OpaqueId.text kind) := by
  intro id other h
  have hsuffix : id.suffix = other.suffix := by
    apply String.ext
    have hlist := congrArg String.toList h
    simpa [OpaqueId.text] using hlist
  cases id
  cases other
  cases hsuffix
  rfl

abbrev HouseholdId := OpaqueId .household
abbrev TaskId := OpaqueId .task
abbrev ArtifactId := OpaqueId .artifact
abbrev MutationCommandId := OpaqueId .command
abbrev MutationReceiptId := OpaqueId .receipt
abbrev ConfirmationId := OpaqueId .confirmation
abbrev MutationReadbackId := OpaqueId .mutationReadback
abbrev IdempotencyKey := OpaqueId .idempotency
abbrev ConversationId := OpaqueId .conversation
abbrev DeliveryId := OpaqueId .delivery
abbrev WorkingMemoryEntryId := OpaqueId .workingMemoryEntry
abbrev WorkingMemoryProposalId := OpaqueId .workingMemoryProposal
abbrev JobId := OpaqueId .job
abbrev OccurrenceId := OpaqueId .occurrence

def isHexDigit (c : Char) : Bool := c.isDigit || ('a' ≤ c && c ≤ 'f')

/-- A lower-case SHA-256 digest, `^[0-9a-f]{64}$`. -/
structure ArtifactHash where
  hex : String
  digest : (decide (hex.length = 64) && hex.toList.all isHexDigit) = true
  deriving DecidableEq

end PlusOne
