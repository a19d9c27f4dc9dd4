import PlusOne.Ledger.MonthlyBounds
import PlusOne.Ledger.Tables
import PlusOne.Transitions.Runs

/-! # The periods of the months

`resolveOrCreatePeriodIdForOccurredOn` looks for a period, inserts one and looks again, while other calls do
the same. Dates are numbers of days, as in the database. -/

namespace PlusOne

open Calendar Relational

structure MonthlyPeriodRow where
  householdId : HouseholdId
  bookId : BookId
  periodId : PeriodId
  periodStart : Int
  periodEnd : Int
  deriving DecidableEq

def MonthlyPeriodRow.ofBook (row : MonthlyPeriodRow) (householdId : HouseholdId) (bookId : BookId) : Prop :=
  row.householdId = householdId ∧ row.bookId = bookId

instance (row : MonthlyPeriodRow) (householdId : HouseholdId) (bookId : BookId) :
    Decidable (row.ofBook householdId bookId) := inferInstanceAs (Decidable (_ ∧ _))

def MonthlyPeriodRow.contains (row : MonthlyPeriodRow) (date : Int) : Prop :=
  row.periodStart ≤ date ∧ date ≤ row.periodEnd

instance (row : MonthlyPeriodRow) (date : Int) : Decidable (row.contains date) := inferInstanceAs (Decidable (_ ∧ _))

/-- The key of `periods_month_unique`. -/
def MonthlyPeriodRow.monthKey (row : MonthlyPeriodRow) : HouseholdId × BookId × Int :=
  (row.householdId, row.bookId, row.periodStart)

inductive PeriodViolation
  | periods_calendar_month | periods_public_id_unique
  deriving DecidableEq

/-- `findPeriodIdForOccurredOn`: the period of the book that contains the date, if there is exactly one. -/
def findPeriodIdForOccurredOn (periods : List MonthlyPeriodRow) (householdId : HouseholdId) (bookId : BookId)
    (occurredOn : Int) : Option PeriodId :=
  match periods.filter fun row => row.ofBook householdId bookId ∧ row.contains occurredOn with
  | [row] => some row.periodId
  | _ => none

/-- `INSERT INTO accounting.periods … ON CONFLICT (household_id, book_id, period_start) DO NOTHING` -/
def insertPeriod (books : List BookRow) (periods : List MonthlyPeriodRow) (row : MonthlyPeriodRow) :
    Except PeriodViolation (List MonthlyPeriodRow) :=
  if ⟨row.householdId, row.bookId⟩ ∉ books then .ok periods
  else if periodsCalendarMonth row.periodStart row.periodEnd = false then .error .periods_calendar_month
  else if ∃ other ∈ periods, other.monthKey = row.monthKey then .ok periods
  else if ∃ other ∈ periods, other.periodId = row.periodId then .error .periods_public_id_unique
  else .ok (periods ++ [row])

/-- Why a call throws. -/
inductive PeriodFailure
  | localDate
  | transaction_period_allocator_missing
  | transaction_period_materialization_failed
  | violated (violation : PeriodViolation)
  deriving DecidableEq

/-- What a call does next. -/
inductive PeriodCallPhase
  | finding
  | inserting (row : MonthlyPeriodRow)
  | findingAgain
  | returned (periodId : PeriodId)
  | failed (failure : PeriodFailure)
  deriving DecidableEq

/-- The identifier that a call has from the allocator. -/
def PeriodCallPhase.allocated : PeriodCallPhase → Option PeriodId
  | .inserting row => some row.periodId
  | _ => none

structure PeriodCall where
  householdId : HouseholdId
  bookId : BookId
  occurredOn : String
  /-- Whether `allocatePeriodId` is there. -/
  allocator : Bool
  phase : PeriodCallPhase := .finding
  deriving DecidableEq

structure PeriodCallState where
  books : List BookRow
  periods : List MonthlyPeriodRow
  calls : List PeriodCall
  deriving DecidableEq

/-- From the first look on: the period that is there, or the row to insert with the identifier that the
allocator gives. -/
def PeriodCall.found (call : PeriodCall) (existing : Option PeriodId) (allocated : PeriodId) : PeriodCallPhase :=
  match existing with
  | some periodId => .returned periodId
  | none =>
    match monthlyPeriodBounds call.occurredOn with
    | none => .failed .localDate
    | some (periodStart, periodEnd) =>
      if call.allocator = false then .failed .transaction_period_allocator_missing
      else
        match sqlDate periodStart, sqlDate periodEnd with
        | some first, some last => .inserting ⟨call.householdId, call.bookId, allocated, first, last⟩
        | _, _ => .failed .localDate

def PeriodCall.find (call : PeriodCall) (periods : List MonthlyPeriodRow) : Option PeriodId :=
  (sqlDate call.occurredOn).bind (findPeriodIdForOccurredOn periods call.householdId call.bookId)

/-- The next statement of a call: what it does to the table, and where the call goes on. -/
def PeriodCall.next (call : PeriodCall) (books : List BookRow) (periods : List MonthlyPeriodRow)
    (allocated : PeriodId) : Option (List MonthlyPeriodRow × PeriodCallPhase) :=
  match call.phase with
  | .finding => some (periods, call.found (call.find periods) allocated)
  | .inserting row =>
    match insertPeriod books periods row with
    | .ok periods => some (periods, .findingAgain)
    | .error violation => some (periods, .failed (.violated violation))
  | .findingAgain =>
    match call.find periods with
    | some periodId => some (periods, .returned periodId)
    | none => some (periods, .failed .transaction_period_materialization_failed)
  | .returned _ | .failed _ => none

inductive PeriodCallEvent
  /-- A call for a date that `LocalDateSchema` accepts and a book that has been resolved. -/
  | call (householdId : HouseholdId) (bookId : BookId) (occurredOn : String) (allocator : Bool)
  /-- The next statement of a call; the allocator would give the identifier. -/
  | statement (index : Nat) (allocated : PeriodId)

/-- Which rows calls are about to insert. -/
def PeriodCallState.inserting (s : PeriodCallState) : List MonthlyPeriodRow :=
  s.calls.filterMap fun call =>
    match call.phase with
    | .inserting row => some row
    | _ => none

/-- The allocator gives identifiers that no row has and that no call is about to insert. -/
def periodCallStep (s : PeriodCallState) : PeriodCallEvent → Option PeriodCallState
  | .call householdId bookId occurredOn allocator =>
    if ⟨householdId, bookId⟩ ∈ s.books ∧ isRealLocalDateText occurredOn = true then
      some { s with calls := s.calls ++ [{ householdId, bookId, occurredOn, allocator }] }
    else none
  | .statement index allocated =>
    match s.calls[index]? with
    | none => none
    | some call =>
      match call.next s.books s.periods allocated with
      | none => none
      | some (periods, phase) =>
        if ∃ periodId ∈ phase.allocated, ∃ row ∈ s.periods ++ s.inserting, row.periodId = periodId then none
        else some { s with periods, calls := s.calls.set index { call with phase } }

/-- What the constraints of the table promise. -/
structure PeriodsTable (periods : List MonthlyPeriodRow) : Prop where
  calendarMonth : ∀ row ∈ periods, periodsCalendarMonth row.periodStart row.periodEnd = true
  month_unique : Distinct MonthlyPeriodRow.monthKey periods
  public_id_unique : Distinct MonthlyPeriodRow.periodId periods

end PlusOne
