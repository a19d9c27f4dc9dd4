import Mathlib.Data.List.Infix
import PlusOne.Budgeting.Known
import PlusOne.Patterns.Sequence

/-! # The budgeting request of the orchestrator

Facts are taken over where a continuation has retained them or the evidence is found in the
message or in the instruction. -/

namespace PlusOne

open Patterns

/-- What the code takes from the engine: `toLocaleLowerCase` and `String(Number(text) * 1_000)`. -/
structure EvidenceEngine where
  toLocaleLowerCase : String → String
  timesThousand : List Char → List Char

def isWordChar (c : Char) : Bool := c.isAlphanum || c == '_'

def isEvidenceChar (c : Char) : Bool := isLower c || c.isDigit

/-- `\b(\d+(?:\.\d+)?)\s*k\b`; with and without a fraction it cannot match at one place. -/
def thousandsPatterns : List (List (Piece Char)) :=
  [[.boundary isWordChar, .many Char.isDigit 1 none, .lit '.', .many Char.isDigit 1 none,
      .many isTrimmed 0 none, .lit 'k', .boundary isWordChar],
    [.boundary isWordChar, .many Char.isDigit 1 none, .many isTrimmed 0 none, .lit 'k', .boundary isWordChar]]

/-- The number of a match. -/
def numberText (groups : List (List Char)) : List Char := groups.flatten.filter fun c => c.isDigit || c == '.'

def normalizedEvidenceText (E : EvidenceEngine) (value : String) : String :=
  let expanded := replaceAll thousandsPatterns (fun groups => E.timesThousand (numberText groups)) none 0
    (E.toLocaleLowerCase value).toList
  let spaced := replaceAll [[.many (fun c => !isEvidenceChar c) 1 none]] (fun _ => [' ']) none 0 expanded
  let fused := replaceAll [[.behind Char.isDigit, .many (· == ' ') 1 none, .ahead Char.isDigit]] (fun _ => [])
    none 0 spaced
  trim (String.ofList fused)

/-- The quote stands in the message at the offsets. -/
def spanIsGrounded (message : InboundMessage) (span : BudgetingEvidenceSpan) : Bool :=
  decide (span.stop ≤ Json.utf16Length message.body) &&
    ((codeUnits message.body).drop span.start).take (span.stop - span.start) == codeUnits span.sourceQuote

def spanIsContainedInInstruction (E : EvidenceEngine) (instruction : String) (span : BudgetingEvidenceSpan) : Bool :=
  decide ((normalizedEvidenceText E span.sourceQuote).toList <:+: (normalizedEvidenceText E instruction).toList)

def budgetingEvidenceIsGroundedForSpans (message : InboundMessage) (spans : List BudgetingEvidenceSpan) : Bool :=
  spans.all (spanIsGrounded message)

def budgetingEvidenceIsGrounded (message : InboundMessage) (known : BudgetingKnownInputs) : Bool :=
  budgetingEvidenceIsGroundedForSpans message (known.evidence.getD [])

def budgetingEvidenceIsContainedInInstructionForSpans (E : EvidenceEngine) (instruction : String)
    (spans : List BudgetingEvidenceSpan) : Bool :=
  spans.all (spanIsContainedInInstruction E instruction)

def budgetingEvidenceIsContainedInInstruction (E : EvidenceEngine) (instruction : String)
    (known : BudgetingKnownInputs) : Bool :=
  budgetingEvidenceIsContainedInInstructionForSpans E instruction (known.evidence.getD [])

def evidencePathCovers (requiredPath evidencePath : String) : Bool :=
  evidencePath == requiredPath || startsWith requiredPath (evidencePath ++ ".") ||
    startsWith requiredPath (evidencePath ++ "[") || startsWith evidencePath (requiredPath ++ ".") ||
    startsWith evidencePath (requiredPath ++ "[")

def budgetingEvidenceCoversPaths (evidence : List BudgetingEvidenceSpan) (requiredPaths : List String) : Bool :=
  requiredPaths.all fun requiredPath => evidence.any fun span => evidencePathCovers requiredPath span.path

def requiredBudgetEvidencePaths (known : BudgetingKnownInputs) : List String :=
  ((known.priorities.getD []).mapIdx fun index _ => (BudgetSlot.priority index).path) ++
    (match known.timeframe with
      | none => []
      | some timeframe => BudgetSlot.timeframeStart.path ::
          if timeframe.stop.isNone then [] else [BudgetSlot.timeframeEnd.path]) ++
    (if known.targetAmount.isNone then [] else [BudgetSlot.targetAmount.path]) ++
    (known.categories.getD []).mapIdx fun index _ => (BudgetSlot.category index).path

def budgetingEvidenceCoversKnownFacts (known : BudgetingKnownInputs) : Bool :=
  budgetingEvidenceCoversPaths (known.evidence.getD []) (requiredBudgetEvidencePaths known)

def moneyEqual (left right : Option Money) : Bool := left == right

def categoryEqual (left : BudgetCategory) (right : Option BudgetCategory) : Bool :=
  match right with
  | none => false
  | some right => left.name == right.name &&
      (left.targetAmount.isNone || moneyEqual left.targetAmount right.targetAmount)

/-- The paths of the values that differ from those retained. -/
def changedIndexes {α : Type} (path : Nat → String) (equal : α → Option α → Bool)
    (current retained : Option (List α)) : List String :=
  match current, retained with
  | none, _ => []
  | some current, none => current.mapIdx fun index _ => path index
  | some current, some retained =>
      (current.mapIdx fun index value => if equal value retained[index]? then [] else [path index]).flatten

def changedTimeframe (current retained : Option BudgetTimeframe) : List String :=
  match current with
  | none => []
  | some current =>
      (if retained.map BudgetTimeframe.start ≠ some current.start then [BudgetSlot.timeframeStart.path] else []) ++
        if current.stop.isSome ∧ retained.bind BudgetTimeframe.stop ≠ current.stop then
          [BudgetSlot.timeframeEnd.path] else []

def changedBudgetFactPaths (current retained : BudgetingKnownInputs) : List String :=
  changedIndexes (fun index => (BudgetSlot.priority index).path) (fun priority previous => previous == some priority)
      current.priorities retained.priorities ++
    changedTimeframe current.timeframe retained.timeframe ++
    (if current.targetAmount.isSome && !moneyEqual current.targetAmount retained.targetAmount then
      [BudgetSlot.targetAmount.path] else []) ++
    changedIndexes (fun index => (BudgetSlot.category index).path) categoryEqual
      current.categories retained.categories

def mergeIndexedValues {α : Type} (retained current : Option (List α)) : Option (List α) :=
  if retained.isNone && current.isNone then none
  else
    let length := max (retained.getD []).length (current.getD []).length
    some ((List.range length).filterMap fun index => (current.getD [])[index]?.or (retained.getD [])[index]?)

/-- `{ ...previous, ...next }` -/
def mergeCategory (previous next : BudgetCategory) : BudgetCategory :=
  ⟨next.name, next.targetAmount.or previous.targetAmount⟩

def mergeCategories (retained current : Option (List BudgetCategory)) : Option (List BudgetCategory) :=
  match retained, current with
  | none, current => current
  | retained, none => retained
  | some retained, some current =>
      some ((List.range (max retained.length current.length)).filterMap fun index =>
        match retained[index]?, current[index]? with
        | none, next => next
        | previous, none => previous
        | some previous, some next => some (mergeCategory previous next))

/-- `{ ...retained, ...current }` -/
def mergeTimeframe (retained current : Option BudgetTimeframe) : Option BudgetTimeframe :=
  match current with
  | none => retained
  | some current => some ⟨current.start, current.stop.or (retained.bind BudgetTimeframe.stop)⟩

def mergedBudgetFacts (retained current : BudgetingKnownInputs) : BudgetingKnownInputs where
  priorities := mergeIndexedValues retained.priorities current.priorities
  timeframe := mergeTimeframe retained.timeframe current.timeframe
  targetAmount := current.targetAmount.or retained.targetAmount
  categories := mergeCategories retained.categories current.categories
  evidence := none

def mergeBudgetFacts (retained current : BudgetingKnownInputs) : Except Thrown BudgetingKnownInputs :=
  (mergedBudgetFacts retained current).parse

def hasBudgetFacts (known : BudgetingKnownInputs) : Bool :=
  known.priorities.isSome || known.timeframe.isSome || known.targetAmount.isSome || known.categories.isSome

def noBudgetFacts : BudgetingKnownInputs := ⟨none, none, none, none, none⟩

def stripUngroundedBudgetFacts : Except Thrown BudgetingKnownInputs := noBudgetFacts.parse

def requestWithKnown (request : BudgetingDelegateRequest) (known : BudgetingKnownInputs) :
    Except Thrown BudgetingDelegateRequest := do
  let known ← known.parse
  BudgetingDelegateRequest.parse { request with known }

def canonicalBudgetingDraft (E : EvidenceEngine) (message : InboundMessage) (request : BudgetingDelegateRequest) :
    Except Thrown BudgetingDelegateRequest := do
  let parsed ← request.parse
  let known := parsed.known
  if !hasBudgetFacts known then return parsed
  if known.evidence.isSome &&
      (budgetingEvidenceIsGrounded message known ||
        budgetingEvidenceIsContainedInInstruction E parsed.instruction known) &&
      budgetingEvidenceCoversKnownFacts known then return parsed
  let stripped ← stripUngroundedBudgetFacts
  BudgetingDelegateRequest.parse { parsed with known := stripped }

def prepareBudgetingDraft (E : EvidenceEngine) (message : InboundMessage) (request : BudgetingDelegateRequest)
    (continuation : Option BudgetingContinuation) : Except Thrown BudgetingDelegateRequest := do
  let parsed ← request.parse
  match continuation.filter fun continuation => budgetingContinuationIsCompatible continuation parsed with
  | none => canonicalBudgetingDraft E message parsed
  | some continuation =>
    let retained ← budgetingKnownInputs continuation
    let current := parsed.known
    let changedPaths := changedBudgetFactPaths current retained
    if changedPaths.isEmpty then return ← requestWithKnown parsed retained
    let candidateEvidence := (current.evidence.getD []).filter fun span =>
      changedPaths.any fun path => evidencePathCovers path span.path
    let candidateIsGrounded := budgetingEvidenceIsGroundedForSpans message candidateEvidence ||
      budgetingEvidenceIsContainedInInstructionForSpans E parsed.instruction candidateEvidence
    let candidateIsCovered := budgetingEvidenceCoversPaths candidateEvidence changedPaths
    if !candidateIsGrounded || !candidateIsCovered then return ← requestWithKnown parsed retained
    let merged ← mergeBudgetFacts retained current
    requestWithKnown parsed merged

end PlusOne
