import Mathlib.Data.List.DropRight

/-! # Instants and texts

Instants cross the repository as text. How a text is recognised, read and printed is
decided by the schema library, the JavaScript engine and the database. -/

namespace PlusOne

/-- What the code takes from outside for instants: `z.string().datetime({ offset: false })`,
`Date.parse`, the cast to `timestamptz` (in microseconds; `none` is an error), and `to_char` with
the pattern of the repositories. -/
structure TimeFormats where
  datetime : String → Bool
  dateParse : String → Option Int
  timestamptz : String → Option Nat
  toChar : Nat → String

/-- `UtcInstantSchema` -/
def TimeFormats.isUtcInstant (T : TimeFormats) (text : String) : Bool :=
  T.datetime text && text.toList.getLast? == some 'Z'

/-- The text is what the database prints for the instant it reads from it. -/
def TimeFormats.canonical (T : TimeFormats) (text : String) : Bool :=
  (T.timestamptz text).map T.toChar == some text

/-- White space and line terminators, as `String.prototype.trim` sees them. -/
def isTrimmed (c : Char) : Bool :=
  [9, 10, 11, 12, 13, 32, 160, 5760, 8232, 8233, 8239, 8287, 12288, 65279].contains c.toNat ||
    (decide (8192 ≤ c.toNat) && decide (c.toNat ≤ 8202))

/-- `text.trim()` -/
def trim (text : String) : String :=
  String.ofList ((text.toList.dropWhile isTrimmed).rdropWhile isTrimmed)

theorem dropWhile_rdropWhile_dropWhile {α : Type} (p : α → Bool) (xs : List α) :
    ((xs.dropWhile p).rdropWhile p).dropWhile p = (xs.dropWhile p).rdropWhile p := by
  have hprefix : (xs.dropWhile p).rdropWhile p <+: xs.dropWhile p := List.rdropWhile_prefix p _
  cases hdropped : (xs.dropWhile p).rdropWhile p with
  | nil => rfl
  | cons x rest =>
    obtain ⟨suffix, hsuffix⟩ := hprefix
    rw [hdropped] at hsuffix
    have hhead : ¬p x = true := by
      have hne : xs.dropWhile p ≠ [] := by simp [← hsuffix]
      have hnot := List.head_dropWhile_not p hne
      simpa [← hsuffix] using hnot
    rw [List.dropWhile_cons_of_neg hhead]

theorem trim_trim (text : String) : trim (trim text) = trim text := by
  unfold trim
  rw [String.toList_ofList, dropWhile_rdropWhile_dropWhile, List.rdropWhile_idempotent]

end PlusOne
