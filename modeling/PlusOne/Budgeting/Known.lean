import PlusOne.Planning.Budgets

/-! # What a budgeting request knows

The facts that a request of the orchestrator states and the quotes it gives as evidence. -/

namespace PlusOne

structure BudgetingEvidenceSpan where
  path : String
  sourceQuote : String
  start : Nat
  stop : Nat
  deriving DecidableEq

structure BudgetTimeframe where
  start : LocalDate
  stop : Option LocalDate
  deriving DecidableEq

structure BudgetCategory where
  name : String
  targetAmount : Option Money
  deriving DecidableEq

/-- A candidate for `BudgetingKnownInputsSchemaV1`. -/
structure BudgetingKnownInputs where
  priorities : Option (List String)
  timeframe : Option BudgetTimeframe
  targetAmount : Option Money
  categories : Option (List BudgetCategory)
  evidence : Option (List BudgetingEvidenceSpan)
  deriving DecidableEq

def BudgetingEvidenceSpan.valid (span : BudgetingEvidenceSpan) : Bool :=
  lengthBetween 1 160 span.path && lengthBetween 1 400 span.sourceQuote && decide (span.start < span.stop)

def isCountBetween {α : Type} (lo hi : Nat) (values : List α) : Bool :=
  decide (lo ≤ values.length) && decide (values.length ≤ hi)

def isBudgetText (text : String) : Bool := lengthBetween 1 400 text

/-- What `BudgetingKnownInputsSchemaV1` checks beyond the types of the fields. -/
def BudgetingKnownInputs.valid (known : BudgetingKnownInputs) : Bool :=
  (known.priorities.all fun priorities => isCountBetween 1 20 priorities && priorities.all isBudgetText) &&
    (known.categories.all fun categories => isCountBetween 1 100 categories &&
      categories.all fun category => isBudgetText category.name) &&
    known.evidence.all fun evidence => decide (evidence.length ≤ 200) && evidence.all BudgetingEvidenceSpan.valid

/-- `BudgetingKnownInputsSchemaV1.parse` -/
def BudgetingKnownInputs.parse (known : BudgetingKnownInputs) : Except Thrown BudgetingKnownInputs :=
  if known.valid then .ok known else .error .zodError

/-- The intent, with what is its own in a request: the scope of a plan or the number of scenarios.
The names of the schemas follow from it. -/
inductive BudgetingIntent where
  | budgetPlan (scopeKey : String)
  | budgetScenarios (scenarioCount : Nat)
  deriving DecidableEq

def BudgetingIntent.valid : BudgetingIntent → Bool
  | budgetPlan scopeKey => lengthBetween 1 80 scopeKey
  | budgetScenarios scenarioCount => decide (2 ≤ scenarioCount) && decide (scenarioCount ≤ 3)

/-- A candidate for `BudgetingDelegateRequestSchemaV1`. -/
structure BudgetingDelegateRequest where
  intent : BudgetingIntent
  instruction : String
  known : BudgetingKnownInputs
  deriving DecidableEq

def BudgetingDelegateRequest.valid (request : BudgetingDelegateRequest) : Bool :=
  request.intent.valid && lengthBetween 1 4000 request.instruction && request.known.valid

/-- `BudgetingDelegateRequestSchemaV1.parse` -/
def BudgetingDelegateRequest.parse (request : BudgetingDelegateRequest) :
    Except Thrown BudgetingDelegateRequest :=
  if request.valid then .ok request else .error .zodError

/-- A candidate for `BudgetingContinuationSchemaV1`, whose facts stand without evidence. -/
structure BudgetingContinuation where
  intent : BudgetingIntent
  known : BudgetingKnownInputs

def BudgetingContinuation.valid (continuation : BudgetingContinuation) : Bool :=
  continuation.intent.valid && continuation.known.valid && continuation.known.evidence.isNone

def budgetingContinuationIsCompatible (continuation : BudgetingContinuation)
    (request : BudgetingDelegateRequest) : Bool :=
  request.valid && decide (request.intent = continuation.intent)

def budgetingKnownInputs (continuation : BudgetingContinuation) : Except Thrown BudgetingKnownInputs :=
  continuation.known.parse

/-! ## Facts

A fact stands in a slot; the evidence names the slot by its path. -/

inductive BudgetSlot where
  | priority (index : Nat)
  | timeframeStart
  | timeframeEnd
  | targetAmount
  | category (index : Nat)

def BudgetSlot.path : BudgetSlot → String
  | priority index => "priorities[" ++ toString index ++ "]"
  | timeframeStart => "timeframe.start"
  | timeframeEnd => "timeframe.end"
  | targetAmount => "targetAmount"
  | category index => "categories[" ++ toString index ++ "]"

inductive BudgetFact where
  | text (text : String)
  | date (date : LocalDate)
  | money (money : Money)
  | category (category : BudgetCategory)
  deriving DecidableEq

namespace BudgetingKnownInputs

/-- The fact that stands in a slot. -/
def fact? (known : BudgetingKnownInputs) : BudgetSlot → Option BudgetFact
  | .priority index => (known.priorities.getD [])[index]?.map .text
  | .timeframeStart => known.timeframe.map fun timeframe => .date timeframe.start
  | .timeframeEnd => (known.timeframe.bind BudgetTimeframe.stop).map .date
  | .targetAmount => known.targetAmount.map .money
  | .category index => (known.categories.getD [])[index]?.map .category

end BudgetingKnownInputs

end PlusOne
