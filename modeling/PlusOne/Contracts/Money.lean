import PlusOne.Contracts.Errors
import PlusOne.Numeric.Decimal

/-! # Money

A text `DecimalStringSchema` admits is determined by its sign, its digits and the number of its
fraction digits, so it is stored as these. -/

namespace PlusOne

open Numeric

abbrev DecimalString := Decimal

/-- `NonNegativeAmountStringSchema` on a decimal string. -/
def isNonNegativeAmount (value : DecimalString) : Bool := !value.negative

/-- `PositiveAmountStringSchema` on a decimal string. -/
def isPositiveAmount (value : DecimalString) : Bool := isNonNegativeAmount value && value.digits != 0

def isUpper (c : Char) : Bool := 'A' ≤ c && c ≤ 'Z'

/-- `^[A-Z][A-Z0-9]{2,11}$` -/
def isCurrencyCode (text : String) : Bool :=
  match text.toList with
  | first :: rest =>
    isUpper first && decide (2 ≤ rest.length) && decide (rest.length ≤ 11) &&
      rest.all fun c => isUpper c || c.isDigit
  | [] => false

structure CurrencyCode where
  code : String
  uppercase : isCurrencyCode code = true
  deriving DecidableEq

/-- `compareDecimalStrings`, of which only the sign of the difference is read. -/
def compareDecimalStrings (left right : DecimalString) : Ordering := left.compare right

/-- The domain `operations.decimal_amount`. -/
abbrev DecimalAmount := Fixed 38 12

/-- The type of the exchange-rate columns. -/
abbrev RateAmount := Fixed 38 18

def numericOverflow : PgFailure :=
  { code := some "22003", constraint := none, message := "numeric field overflow" }

/-- A parameter or an expression as a column stores it, when it fits. -/
def stored {α : Type} (value : Option α) : Except Thrown α :=
  match value with
  | some value => .ok value
  | none => .error (.pg numericOverflow)

theorem stored_eq_ok {α : Type} {value : Option α} {a : α} : stored value = .ok a ↔ value = some a := by
  cases value <;> simp [stored]

end PlusOne
