import Mathlib.Data.List.Basic

/-! # Errors

`PlusOneError` and the other values the modelled code throws. The chained `cause`
is left out: no function reads it. -/

namespace PlusOne

inductive ErrorCategory
  | validation_rejected | checker_rejected | confirmation_required | serialization_conflict
  | constraint_violation | duplicate_replay | period_closed | ambiguous_source_match
  | readback_mismatch | projection_unhealthy | timeout | storage_unavailable | policy_rejected
  | unsupported_capability | runtime_failure
  deriving DecidableEq

inductive RetryDirective
  | never | safe | after_backoff | after_state_resolution
  deriving DecidableEq

inductive ErrorDetail
  | text (s : String)
  | number (n : Nat)
  | bool (b : Bool)
  | null
  deriving DecidableEq

structure PlusOneError where
  category : ErrorCategory
  code : String
  message : String
  retry : RetryDirective
  receiptLookupRequired : Bool
  details : List (String × ErrorDetail)
  deriving DecidableEq

/-- An error as the `pg` driver raises it: an SQLSTATE or a socket error code, when there is one. -/
structure PgFailure where
  code : Option String
  constraint : Option String
  message : String
  deriving DecidableEq

/-- Whatever a modelled function can throw. -/
inductive Thrown
  | pg (failure : PgFailure)
  | plusOne (error : PlusOneError)
  | zodError
  | error (message : String)
  deriving DecidableEq

namespace Thrown

/-- `(error as { code?: string }).code` -/
def code : Thrown → Option String
  | pg failure => failure.code
  | plusOne failure => some failure.code
  | zodError | error _ => none

def constraint : Thrown → Option String
  | pg failure => failure.constraint
  | plusOne _ | zodError | error _ => none

def message : Thrown → Option String
  | pg failure => some failure.message
  | plusOne failure => some failure.message
  | error message => some message
  | zodError => none

/-- `error instanceof PlusOneError` -/
def isPlusOneError : Thrown → Bool
  | plusOne _ => true
  | pg _ | zodError | error _ => false

end Thrown

/-- `text.startsWith(start)` -/
def startsWith (text start : String) : Bool :=
  start.toList.isPrefixOf text.toList

/-- `text.includes(part)` -/
def includes (text part : String) : Bool :=
  text.toList.tails.any fun rest => part.toList.isPrefixOf rest

end PlusOne
