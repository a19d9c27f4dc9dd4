import Mathlib.Data.List.Basic

/-! # Character classes

The classes of JavaScript's patterns, on code units. -/

namespace Patterns

/-- `\s` -/
def isSpace (unit : ℕ) : Bool :=
  (9 ≤ unit && unit ≤ 13) || unit == 32 || unit == 160 || unit == 5760 || (8192 ≤ unit && unit ≤ 8202) ||
    unit == 8232 || unit == 8233 || unit == 8239 || unit == 8287 || unit == 12288 || unit == 65279

/-- `\d` -/
def isDigit (unit : ℕ) : Bool := 48 ≤ unit && unit ≤ 57

/-- `[A-Za-z]` -/
def isLetter (unit : ℕ) : Bool := (65 ≤ unit && unit ≤ 90) || (97 ≤ unit && unit ≤ 122)

/-- `\w` -/
def isWord (unit : ℕ) : Bool := isLetter unit || isDigit unit || unit == 95

end Patterns
