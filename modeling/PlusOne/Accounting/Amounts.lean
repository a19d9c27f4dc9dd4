import Mathlib.Data.Rat.Cast.Order
import Mathlib.Tactic.FieldSimp
import Mathlib.Tactic.Linarith
import Mathlib.Tactic.Ring
import PlusOne.Coding.Separated
import PlusOne.Contracts.Accounting

/-! # Exact amounts

Amounts are decimal texts. They are aligned to a common scale, compared and summed as big
integers, and printed again at that scale. A text stands for a rational number; none of
the three operations on texts loses any of it. -/

namespace PlusOne

open Numeric

/-! ## The code -/

namespace Amounts

/-- `SignedPosting` -/
structure SignedPosting where
  direction : PostingDirection
  amount : String

structure Parts where
  negative : Bool
  integer : List Char
  fraction : List Char

/-- `.replace(/^0+(?=\d)/, '')` on digits. -/
def withoutLeadingZeros : List Char → List Char
  | c :: d :: digits => if c = '0' then withoutLeadingZeros (d :: digits) else c :: d :: digits
  | digits => digits

/-- What follows the sign in `^(-?)(\d+)(?:\.(\d+))?$`. -/
def splitDigits (text : List Char) : Option (List Char × List Char) :=
  let integer := text.takeWhile Char.isDigit
  if integer.isEmpty then none
  else
    match text.dropWhile Char.isDigit with
    | [] => some (integer, [])
    | '.' :: fraction =>
      if fraction.isEmpty || !fraction.all Char.isDigit then none else some (integer, fraction)
    | _ => none

/-- `value.startsWith('-')`, and what follows the sign. -/
def signAndRest : List Char → Bool × List Char
  | '-' :: rest => (true, rest)
  | text => (false, text)

def parts (value : String) : Except Thrown Parts :=
  let (negative, text) := signAndRest value.toList
  match splitDigits text with
  | none => .error (.error "Expected a canonical decimal string")
  | some (integer, fraction) => .ok ⟨negative, withoutLeadingZeros integer, fraction⟩

/-- `BigInt` of digits. -/
def bigInt (digits : List Char) : Nat := Nat.ofDigitChars 10 digits 0

/-- `.padEnd(scale, '0')` -/
def padEnd (digits : List Char) (scale : Nat) : List Char :=
  digits ++ List.replicate (scale - digits.length) '0'

/-- `.padStart(length, '0')` -/
def padStart (digits : List Char) (length : Nat) : List Char :=
  List.replicate (length - digits.length) '0' ++ digits

def aligned (value : String) (scale : Nat) : Except Thrown Int := do
  let parsed ← parts value
  return signed parsed.negative (bigInt (parsed.integer ++ padEnd parsed.fraction scale))

def format (value : Int) (scale : Nat) : String :=
  let digits := padStart (Nat.toDigits 10 value.natAbs) (scale + 1)
  let rendered :=
    if scale = 0 then digits
    else digits.take (digits.length - scale) ++ '.' :: digits.drop (digits.length - scale)
  .ofList ((if value < 0 then ['-'] else []) ++ rendered)

def compareDecimalStrings (left right : String) : Except Thrown Ordering := do
  let scale := max (← parts left).fraction.length (← parts right).fraction.length
  let difference := (← aligned left scale) - (← aligned right scale)
  return if difference < 0 then .lt else if difference > 0 then .gt else .eq

def negateDecimalString (value : String) : String :=
  match value.toList with
  | '-' :: rest => .ofList rest
  | text => .ofList ('-' :: text)

structure Totals where
  debit : String
  credit : String
  deriving DecidableEq

/-- The `reduce` over the postings. -/
def largestScale : Nat → List SignedPosting → Except Thrown Nat
  | maximum, [] => .ok maximum
  | maximum, posting :: postings => do
    largestScale (max maximum (← parts posting.amount).fraction.length) postings

/-- The loop over the postings. -/
def addPostings (scale : Nat) : Int → Int → List SignedPosting → Except Thrown (Int × Int)
  | debit, credit, [] => .ok (debit, credit)
  | debit, credit, posting :: postings => do
    let amount ← aligned posting.amount scale
    match posting.direction with
    | .debit => addPostings scale (debit + amount) credit postings
    | .credit => addPostings scale debit (credit + amount) postings

def sumSignedPostings (postings : List SignedPosting) : Except Thrown Totals := do
  let scale ← largestScale 0 postings
  let (debit, credit) ← addPostings scale 0 0 postings
  return ⟨format debit scale, format credit scale⟩

end Amounts

/-! ## What a decimal text stands for -/

/-- A decimal text: a sign, one or more digits, and the digits after the point, if there is one. -/
structure DecimalText where
  negative : Bool
  integer : List Char
  fraction : List Char
  integer_digits : integer.all Char.isDigit = true
  integer_ne_nil : integer ≠ []
  fraction_digits : fraction.all Char.isDigit = true

namespace DecimalText

variable (d : DecimalText)

def point (fraction : List Char) : List Char := if fraction = [] then [] else '.' :: fraction

def chars : List Char := (if d.negative then ['-'] else []) ++ (d.integer ++ point d.fraction)

def text : String := .ofList d.chars

def scale : Nat := d.fraction.length

/-- The digits of the text read in base ten, before the point as they stand and after it over the
power of ten of their number. -/
def value : ℚ :=
  (if d.negative then -1 else 1) *
    (Nat.ofDigitChars 10 d.integer 0 + Nat.ofDigitChars 10 d.fraction 0 / 10 ^ d.scale)

/-- What the text is stored as where only its sign, digits and scale matter. -/
def decimal : DecimalString := ⟨d.negative, Nat.ofDigitChars 10 (d.integer ++ d.fraction) 0, d.scale⟩

/-- The digits before the point have no superfluous zero. -/
def Canonical : Prop := d.integer = ['0'] ∨ d.integer.head? ≠ some '0'

def negated : DecimalText := { d with negative := !d.negative }

end DecimalText

/-- `^-?(?:0|[1-9]\d*)(?:\.\d+)?$` -/
def isDecimalString (text : String) : Bool :=
  match Amounts.splitDigits (Amounts.signAndRest text.toList).2 with
  | none => false
  | some (integer, _) => integer == ['0'] || integer.head? != some '0'

/-! ## Reading a text -/

namespace Amounts

theorem splitDigits_text {integer fraction : List Char} (hinteger : integer.all Char.isDigit = true)
    (hne : integer ≠ []) (hfraction : fraction.all Char.isDigit = true) :
    splitDigits (integer ++ DecimalText.point fraction) = some (integer, fraction) := by
  have hpoint : ∀ c ∈ (DecimalText.point fraction).head?, c.isDigit = false := by
    intro c hc
    unfold DecimalText.point at hc
    split_ifs at hc
    · simp at hc
    · simp at hc
      subst hc
      rfl
  obtain ⟨htake, hdrop⟩ := Coding.takeWhile_append_stop hinteger hpoint
  have hnonempty : integer.isEmpty = false := by simp [hne]
  unfold splitDigits
  simp only [htake, hdrop, hnonempty, Bool.false_eq_true, if_false]
  by_cases hnil : fraction = []
  · simp [DecimalText.point, hnil]
  · have hsome : fraction.isEmpty = false := by simp [hnil]
    simp [DecimalText.point, hnil, hsome, hfraction]

/-- What is split is put together again. -/
theorem splitDigits_eq_some {text integer fraction : List Char}
    (h : splitDigits text = some (integer, fraction)) :
    integer ≠ [] ∧ integer.all Char.isDigit = true ∧ fraction.all Char.isDigit = true ∧
      text = integer ++ DecimalText.point fraction := by
  have hall : (text.takeWhile Char.isDigit).all Char.isDigit = true :=
    List.all_takeWhile
  have hsplit : text.takeWhile Char.isDigit ++ text.dropWhile Char.isDigit = text :=
    List.takeWhile_append_dropWhile
  unfold splitDigits at h
  simp only at h
  split_ifs at h with hempty
  have hne : text.takeWhile Char.isDigit ≠ [] := by simpa using hempty
  split at h
  · next hdrop =>
    cases h
    rw [hdrop] at hsplit
    exact ⟨hne, hall, rfl, by simpa [DecimalText.point] using hsplit.symm⟩
  · next rest hdrop =>
    split_ifs at h with hbad
    cases h
    simp only [Bool.or_eq_true, Bool.not_eq_true', not_or, Bool.not_eq_false] at hbad
    obtain ⟨hnonempty, hdigits⟩ := hbad
    have hfraction : fraction ≠ [] := by
      intro hnil
      simp [hnil] at hnonempty
    rw [hdrop] at hsplit
    exact ⟨hne, hall, hdigits, by simpa [DecimalText.point, hfraction] using hsplit.symm⟩
  · cases h

theorem head_isDigit {integer : List Char} (h : integer.all Char.isDigit = true) (hne : integer ≠ [])
    (rest : List Char) : signAndRest (integer ++ rest) = (false, integer ++ rest) := by
  cases integer with
  | nil => exact absurd rfl hne
  | cons c cs =>
    have hc : c.isDigit = true := List.all_eq_true.1 h c (by simp)
    have hsign : c ≠ '-' := by
      intro heq
      subst heq
      exact absurd hc (by decide)
    unfold signAndRest
    split
    · next heq =>
      simp only [List.cons_append, List.cons.injEq] at heq
      exact absurd heq.1 hsign
    · rfl

theorem signAndRest_chars (d : DecimalText) :
    signAndRest d.chars = (d.negative, d.integer ++ DecimalText.point d.fraction) := by
  have hplain := head_isDigit d.integer_digits d.integer_ne_nil (DecimalText.point d.fraction)
  cases hnegative : d.negative with
  | true => simp [DecimalText.chars, hnegative, signAndRest]
  | false => simpa [DecimalText.chars, hnegative] using hplain

theorem parts_text (d : DecimalText) :
    parts d.text = .ok ⟨d.negative, withoutLeadingZeros d.integer, d.fraction⟩ := by
  have hsplit := splitDigits_text d.integer_digits d.integer_ne_nil d.fraction_digits
  simp [parts, DecimalText.text, signAndRest_chars, hsplit]

theorem bigInt_append (digits more : List Char) :
    bigInt (digits ++ more) = bigInt digits * 10 ^ more.length + bigInt more := by
  unfold bigInt
  rw [Nat.ofDigitChars_append, Nat.ofDigitChars_eq_ofDigitChars_zero, Nat.mul_comm]

theorem bigInt_withoutLeadingZeros (digits : List Char) :
    bigInt (withoutLeadingZeros digits) = bigInt digits := by
  induction digits using withoutLeadingZeros.induct with
  | case1 d digits ih =>
    rw [withoutLeadingZeros, if_pos rfl, ih]
    simp [bigInt, Nat.ofDigitChars_cons]
  | case2 c d digits hc => rw [withoutLeadingZeros, if_neg hc]
  | case3 digits h =>
    rw [withoutLeadingZeros]
    exact h

theorem bigInt_padEnd {digits : List Char} {scale : Nat} (h : digits.length ≤ scale) :
    (padEnd digits scale).length = scale ∧
      bigInt (padEnd digits scale) = bigInt digits * 10 ^ (scale - digits.length) := by
  constructor
  · simp [padEnd]
    omega
  · rw [padEnd, bigInt_append]
    simp [bigInt]

/-- A text aligned to a scale that has room for it is its value in units of that scale. -/
theorem aligned_text {d : DecimalText} {scale : Nat} (h : d.scale ≤ scale) :
    ∃ units : Int, aligned d.text scale = .ok units ∧ (units : ℚ) = d.value * 10 ^ scale := by
  refine ⟨_, by rw [aligned, parts_text]; rfl, ?_⟩
  obtain ⟨hlength, hpad⟩ := @bigInt_padEnd d.fraction scale h
  have hmagnitude : bigInt (withoutLeadingZeros d.integer ++ padEnd d.fraction scale) =
      bigInt d.integer * 10 ^ scale + bigInt d.fraction * 10 ^ (scale - d.fraction.length) := by
    rw [bigInt_append, hlength, bigInt_withoutLeadingZeros, hpad]
  have hpow : (10 : ℚ) ^ scale = 10 ^ d.scale * 10 ^ (scale - d.fraction.length) := by
    rw [← pow_add]
    congr 1
    simp only [DecimalText.scale] at h ⊢
    omega
  have hne : (10 : ℚ) ^ d.scale ≠ 0 := by positivity
  have hvalue : (bigInt d.integer + bigInt d.fraction / 10 ^ d.scale : ℚ) * 10 ^ scale =
      bigInt d.integer * 10 ^ scale + bigInt d.fraction * 10 ^ (scale - d.fraction.length) := by
    rw [add_mul, hpow]
    field_simp
  simp only [hmagnitude]
  cases hnegative : d.negative with
  | true =>
    simp only [signed, DecimalText.value, hnegative, if_true]
    push_cast
    rw [mul_assoc]
    simp only [bigInt] at hvalue ⊢
    rw [hvalue]
    ring
  | false =>
    simp only [signed, DecimalText.value, hnegative, Bool.false_eq_true, if_false]
    push_cast
    rw [mul_assoc]
    simp only [bigInt] at hvalue ⊢
    rw [hvalue]
    ring

end Amounts

/-! ## Comparing -/

namespace Amounts

theorem units_lt_iff {a b : Int} {x y : ℚ} {scale : Nat} (ha : (a : ℚ) = x * 10 ^ scale)
    (hb : (b : ℚ) = y * 10 ^ scale) : a < b ↔ x < y := by
  have hpos : (0 : ℚ) < 10 ^ scale := by positivity
  have hcast : ((a : ℚ) < b) ↔ a < b := Int.cast_lt
  rw [← hcast, ha, hb]
  exact mul_lt_mul_iff_left₀ hpos

theorem compareDecimalStrings_text (left right : DecimalText) :
    compareDecimalStrings left.text right.text = .ok (compare left.value right.value) := by
  have hleft : left.scale ≤ max left.scale right.scale := le_max_left _ _
  have hright : right.scale ≤ max left.scale right.scale := le_max_right _ _
  obtain ⟨a, ha, hx⟩ := aligned_text hleft
  obtain ⟨b, hb, hy⟩ := aligned_text hright
  have hlt : a - b < 0 ↔ left.value < right.value := by
    rw [← units_lt_iff hx hy]
    omega
  have hgt : a - b > 0 ↔ right.value < left.value := by
    rw [← units_lt_iff hy hx]
    omega
  have hcompare : compareDecimalStrings left.text right.text =
      .ok (if a - b < 0 then .lt else if a - b > 0 then .gt else .eq) := by
    simp only [DecimalText.scale] at ha hb
    simp [compareDecimalStrings, parts_text, ha, hb, bind, Except.bind, pure, Except.pure]
  rw [hcompare]
  simp only [hlt, hgt]
  rcases lt_trichotomy left.value right.value with h | h | h
  · rw [if_pos h, compare_lt_iff_lt.2 h]
  · have hnot : ¬ left.value < right.value := by linarith
    have hnot' : ¬ right.value < left.value := by linarith
    rw [if_neg hnot, if_neg hnot', compare_eq_iff_eq.2 h]
  · have hnot : ¬ left.value < right.value := by linarith
    rw [if_neg hnot, if_pos h, compare_gt_iff_gt.2 h]

theorem aligned_decimal {d : DecimalText} {scale : Nat} (h : d.scale ≤ scale) :
    aligned d.text scale = .ok (d.decimal.aligned scale) := by
  obtain ⟨hlength, hpad⟩ := @bigInt_padEnd d.fraction scale h
  have hle : d.fraction.length ≤ scale := h
  have hpow : 10 ^ scale = 10 ^ d.fraction.length * 10 ^ (scale - d.fraction.length) := by
    rw [← pow_add, Nat.add_sub_cancel' hle]
  have hmagnitude : bigInt (withoutLeadingZeros d.integer ++ padEnd d.fraction scale) =
      bigInt (d.integer ++ d.fraction) * 10 ^ (scale - d.fraction.length) := by
    rw [bigInt_append, hlength, bigInt_withoutLeadingZeros, hpad, bigInt_append, hpow]
    ring
  simp only [aligned, parts_text, bind, Except.bind, pure, Except.pure, hmagnitude]
  rfl

/-- Texts are compared as the decimals they are stored as. -/
theorem compareDecimalStrings_decimal (left right : DecimalText) :
    compareDecimalStrings left.text right.text =
      .ok (PlusOne.compareDecimalStrings left.decimal right.decimal) := by
  have hleft := aligned_decimal (le_max_left left.scale right.scale)
  have hright := aligned_decimal (le_max_right left.scale right.scale)
  have hscale : max left.decimal.scale right.decimal.scale = max left.scale right.scale := rfl
  simp only [DecimalText.scale] at hleft hright hscale
  simp only [compareDecimalStrings, parts_text, hleft, hright, bind, Except.bind, pure, Except.pure,
    PlusOne.compareDecimalStrings, Decimal.compare, hscale, Except.ok.injEq]
  generalize left.decimal.aligned _ = a
  generalize right.decimal.aligned _ = b
  rcases lt_trichotomy a b with h | h | h
  · rw [if_pos (by omega), compare_lt_iff_lt.2 h]
  · rw [if_neg (by omega), if_neg (by omega), compare_eq_iff_eq.2 h]
  · rw [if_neg (by omega), if_pos (by omega), compare_gt_iff_gt.2 h]

/-! ## Negating -/

theorem negateDecimalString_text (d : DecimalText) : negateDecimalString d.text = d.negated.text := by
  have hsign := signAndRest_chars d
  have hplain := head_isDigit d.integer_digits d.integer_ne_nil (DecimalText.point d.fraction)
  cases hnegative : d.negative with
  | true => simp [negateDecimalString, DecimalText.text, DecimalText.chars, DecimalText.negated, hnegative]
  | false =>
    obtain ⟨c, cs, hinteger⟩ : ∃ c cs, d.integer = c :: cs := List.exists_cons_of_ne_nil d.integer_ne_nil
    have hc : c ≠ '-' := by
      intro heq
      rw [hinteger, heq] at hplain
      simp [signAndRest] at hplain
    simp [negateDecimalString, DecimalText.text, DecimalText.chars, DecimalText.negated, hnegative,
      hinteger, hc]

theorem value_negated (d : DecimalText) : d.negated.value = -d.value := by
  cases hnegative : d.negative with
  | true => simp [DecimalText.value, DecimalText.negated, DecimalText.scale, hnegative]
  | false =>
    simp [DecimalText.value, DecimalText.negated, DecimalText.scale, hnegative]

/-! ## Printing -/

theorem toDigits_head_ne_zero {n : Nat} (hn : 0 < n) : (Nat.toDigits 10 n).head? ≠ some '0' := by
  induction n using Nat.strong_induction_on with
  | _ n ih =>
    rcases lt_or_ge n 10 with hlt | hge
    · have hdigit : ∀ m : Fin 10, 0 < m.val → [m.val.digitChar].head? ≠ some '0' := by decide
      rw [Nat.toDigits_of_lt_base hlt]
      exact hdigit ⟨n, hlt⟩ hn
    · rw [Nat.toDigits_of_base_le (by decide) hge]
      have hne : Nat.toDigits 10 (n / 10) ≠ [] := Nat.toDigits_ne_nil
      rw [List.head?_append_of_ne_nil _ hne]
      exact ih (n / 10) (by omega) (by omega)

theorem all_isDigit_toDigits (n : Nat) : (Nat.toDigits 10 n).all Char.isDigit = true := by
  rw [List.all_eq_true]
  intro c hc
  exact Nat.isDigit_of_mem_toDigits (by decide) (by decide) hc

/-- The digits `format` works on. -/
def paddedDigits (value : Int) (scale : Nat) : List Char :=
  padStart (Nat.toDigits 10 value.natAbs) (scale + 1)

theorem length_paddedDigits (value : Int) (scale : Nat) :
    scale < (paddedDigits value scale).length := by
  simp [paddedDigits, padStart]
  omega

theorem all_isDigit_paddedDigits (value : Int) (scale : Nat) :
    (paddedDigits value scale).all Char.isDigit = true := by
  have hdigits := all_isDigit_toDigits value.natAbs
  have hzeros : (List.replicate (scale + 1 - (Nat.toDigits 10 value.natAbs).length) '0').all
      Char.isDigit = true := by
    rw [List.all_eq_true]
    intro c hc
    rw [(List.mem_replicate.1 hc).2]
    rfl
  rw [paddedDigits, padStart, List.all_append, hzeros, hdigits]
  rfl

theorem bigInt_paddedDigits (value : Int) (scale : Nat) :
    bigInt (paddedDigits value scale) = value.natAbs := by
  rw [paddedDigits, padStart, bigInt_append]
  simp [bigInt]

/-- The text `format` prints. -/
def formatted (value : Int) (scale : Nat) : DecimalText where
  negative := decide (value < 0)
  integer := (paddedDigits value scale).take ((paddedDigits value scale).length - scale)
  fraction := (paddedDigits value scale).drop ((paddedDigits value scale).length - scale)
  integer_digits := by
    have hall := List.all_eq_true.1 (all_isDigit_paddedDigits value scale)
    rw [List.all_eq_true]
    intro c hc
    exact hall c (List.mem_of_mem_take hc)
  integer_ne_nil := by
    have hlength := length_paddedDigits value scale
    intro hnil
    have hzero := congrArg List.length hnil
    simp only [List.length_take, List.length_nil] at hzero
    omega
  fraction_digits := by
    have hall := List.all_eq_true.1 (all_isDigit_paddedDigits value scale)
    rw [List.all_eq_true]
    intro c hc
    exact hall c (List.mem_of_mem_drop hc)

theorem scale_formatted (value : Int) (scale : Nat) : (formatted value scale).scale = scale := by
  have hlength := length_paddedDigits value scale
  simp only [formatted, DecimalText.scale, List.length_drop]
  omega

theorem format_eq (value : Int) (scale : Nat) : format value scale = (formatted value scale).text := by
  have hlength := length_paddedDigits value scale
  by_cases hscale : scale = 0
  · subst hscale
    simp [format, DecimalText.text, DecimalText.chars, formatted, DecimalText.point, paddedDigits]
  · have hne : (paddedDigits value scale).drop ((paddedDigits value scale).length - scale) ≠ [] := by
      intro hnil
      have hzero := congrArg List.length hnil
      simp only [List.length_drop, List.length_nil] at hzero
      omega
    have hpoint : DecimalText.point (formatted value scale).fraction =
        '.' :: (paddedDigits value scale).drop ((paddedDigits value scale).length - scale) := if_neg hne
    rw [DecimalText.text, DecimalText.chars, hpoint]
    simp [format, formatted, paddedDigits, hscale]

/-- Printing undoes aligning. -/
theorem value_formatted (value : Int) (scale : Nat) :
    (formatted value scale).value * 10 ^ scale = value := by
  have hscale := scale_formatted value scale
  have hlength : (formatted value scale).fraction.length = scale := hscale
  have hdigits : (formatted value scale).integer ++ (formatted value scale).fraction =
      paddedDigits value scale := List.take_append_drop _ _
  have hnat : bigInt (formatted value scale).integer * 10 ^ scale +
      bigInt (formatted value scale).fraction = value.natAbs := by
    rw [← bigInt_paddedDigits value scale, ← hdigits, bigInt_append, hlength]
  have hcast : (bigInt (formatted value scale).integer : ℚ) * 10 ^ scale +
      bigInt (formatted value scale).fraction = value.natAbs := by exact_mod_cast hnat
  have hne : (10 : ℚ) ^ scale ≠ 0 := by positivity
  have hvalue : ((bigInt (formatted value scale).integer : ℚ) +
      bigInt (formatted value scale).fraction / 10 ^ scale) * 10 ^ scale = value.natAbs := by
    rw [add_mul, div_mul_cancel₀ _ hne]
    exact hcast
  have hsigned : (signed (decide (value < 0)) value.natAbs : ℚ) = value := by
    exact_mod_cast congrArg (fun n : Int => (n : ℚ)) (signed_decide_natAbs value)
  rw [DecimalText.value, hscale, mul_assoc]
  simp only [bigInt] at hvalue
  rw [hvalue, ← hsigned]
  cases hneg : decide (value < 0) with
  | true => simp [formatted, hneg, signed]
  | false => simp [formatted, hneg, signed]

theorem canonical_formatted (value : Int) (scale : Nat) : (formatted value scale).Canonical := by
  have hlength := length_paddedDigits value scale
  rcases le_or_gt (Nat.toDigits 10 value.natAbs).length scale with hshort | hlong
  · have hzeros : ∃ digits, paddedDigits value scale = '0' :: digits := by
      obtain ⟨n, hn⟩ : ∃ n, scale + 1 - (Nat.toDigits 10 value.natAbs).length = n + 1 :=
        ⟨scale - (Nat.toDigits 10 value.natAbs).length, by omega⟩
      refine ⟨List.replicate n '0' ++ Nat.toDigits 10 value.natAbs, ?_⟩
      rw [paddedDigits, padStart, hn, List.replicate_succ, List.cons_append]
    have hone : (paddedDigits value scale).length = scale + 1 := by
      simp only [paddedDigits, padStart, List.length_append, List.length_replicate]
      omega
    obtain ⟨digits, hdigits⟩ := hzeros
    left
    simp only [formatted, hone, Nat.add_sub_cancel_left]
    simp [hdigits]
  · have hplain : paddedDigits value scale = Nat.toDigits 10 value.natAbs := by
      have hnone : scale + 1 - (Nat.toDigits 10 value.natAbs).length = 0 := by omega
      rw [paddedDigits, padStart, hnone]
      rfl
    rcases Nat.eq_zero_or_pos value.natAbs with hzero | hpos
    · have hdigits : Nat.toDigits 10 value.natAbs = ['0'] := by rw [hzero]; rfl
      have hscale : scale = 0 := by
        rw [hdigits] at hlong
        simpa using hlong
      subst hscale
      left
      simp [formatted, hplain, hdigits]
    · right
      have hhead := toDigits_head_ne_zero hpos
      have htake : (formatted value scale).integer.head? = (Nat.toDigits 10 value.natAbs).head? := by
        simp only [formatted, hplain]
        rw [hplain] at hlength
        rw [List.head?_take, if_neg (by omega)]
      rw [htake]
      exact hhead

/-! ## Summing -/

/-- The postings of decimal texts. -/
def signedPosting (posting : PostingDirection × DecimalText) : SignedPosting :=
  ⟨posting.1, posting.2.text⟩

/-- The largest number of fraction digits in a list of postings, and in what came before it. -/
def maxScale (maximum : Nat) (postings : List (PostingDirection × DecimalText)) : Nat :=
  (postings.map fun posting => posting.2.scale).foldl max maximum

/-- The sum of the values posted on one side. -/
def total (direction : PostingDirection) (postings : List (PostingDirection × DecimalText)) : ℚ :=
  ((postings.filter fun posting => posting.1 == direction).map fun posting => posting.2.value).sum

theorem largestScale_texts (maximum : Nat) (postings : List (PostingDirection × DecimalText)) :
    largestScale maximum (postings.map signedPosting) = .ok (maxScale maximum postings) := by
  induction postings generalizing maximum with
  | nil => rfl
  | cons posting postings ih =>
    have hparts := parts_text posting.2
    have hrest := ih (max maximum posting.2.scale)
    simp only [DecimalText.scale] at hrest
    simp only [List.map_cons, largestScale, signedPosting, hparts, bind, Except.bind]
    exact hrest

theorem le_maxScale (maximum : Nat) (postings : List (PostingDirection × DecimalText)) :
    maximum ≤ maxScale maximum postings ∧
      ∀ posting ∈ postings, posting.2.scale ≤ maxScale maximum postings := by
  induction postings generalizing maximum with
  | nil => simp [maxScale]
  | cons posting postings ih =>
    obtain ⟨hmaximum, hrest⟩ := ih (max maximum posting.2.scale)
    have hfold : maxScale maximum (posting :: postings) =
        maxScale (max maximum posting.2.scale) postings := rfl
    rw [hfold]
    refine ⟨le_trans (le_max_left _ _) hmaximum, ?_⟩
    intro other hother
    rcases List.mem_cons.1 hother with rfl | hmem
    · exact le_trans (le_max_right _ _) hmaximum
    · exact hrest other hmem

theorem total_cons (direction : PostingDirection) (posting : PostingDirection × DecimalText)
    (postings : List (PostingDirection × DecimalText)) :
    total direction (posting :: postings) =
      (if posting.1 = direction then posting.2.value else 0) + total direction postings := by
  by_cases h : posting.1 = direction
  · simp [total, h]
  · simp [total, h]

/-- The loop adds the exact amounts of each side, in units of the scale. -/
theorem addPostings_texts {scale : Nat} {postings : List (PostingDirection × DecimalText)}
    (h : ∀ posting ∈ postings, posting.2.scale ≤ scale) (debit credit : Int) :
    ∃ debit' credit' : Int, addPostings scale debit credit (postings.map signedPosting) =
        .ok (debit', credit') ∧
      (debit' : ℚ) = debit + total .debit postings * 10 ^ scale ∧
      (credit' : ℚ) = credit + total .credit postings * 10 ^ scale := by
  induction postings generalizing debit credit with
  | nil => exact ⟨debit, credit, rfl, by simp [total], by simp [total]⟩
  | cons posting postings ih =>
    obtain ⟨direction, amount⟩ := posting
    obtain ⟨units, haligned, hunits⟩ := aligned_text (h (direction, amount) (by simp))
    have hrest : ∀ other ∈ postings, other.2.scale ≤ scale :=
      fun other hother => h other (List.mem_cons_of_mem _ hother)
    cases direction with
    | debit =>
      obtain ⟨debit', credit', hrun, hdebit, hcredit⟩ := ih hrest (debit + units) credit
      refine ⟨debit', credit', ?_, ?_, ?_⟩
      · simpa [addPostings, signedPosting, haligned, bind, Except.bind] using hrun
      · rw [hdebit, total_cons]
        push_cast
        rw [hunits]
        simp only [if_true]
        ring
      · rw [hcredit, total_cons]
        simp
    | credit =>
      obtain ⟨debit', credit', hrun, hdebit, hcredit⟩ := ih hrest debit (credit + units)
      refine ⟨debit', credit', ?_, ?_, ?_⟩
      · simpa [addPostings, signedPosting, haligned, bind, Except.bind] using hrun
      · rw [hdebit, total_cons]
        simp
      · rw [hcredit, total_cons]
        push_cast
        rw [hunits]
        simp only [if_true]
        ring

theorem value_of_units {value : Int} {scale : Nat} {x : ℚ} (h : (value : ℚ) = x * 10 ^ scale) :
    (formatted value scale).value = x := by
  have hne : (10 : ℚ) ^ scale ≠ 0 := by positivity
  have hformatted := value_formatted value scale
  rw [h] at hformatted
  exact mul_right_cancel₀ hne hformatted

/-- A total as `sumSignedPostings` prints it: exact, at the scale asked for, in canonical form. -/
def Prints (text : String) (scale : Nat) (value : ℚ) : Prop :=
  ∃ d : DecimalText, d.text = text ∧ d.scale = scale ∧ d.value = value ∧ d.Canonical

theorem sumSignedPostings_texts (postings : List (PostingDirection × DecimalText)) :
    ∃ totals, sumSignedPostings (postings.map signedPosting) = .ok totals ∧
      Prints totals.debit (maxScale 0 postings) (total .debit postings) ∧
      Prints totals.credit (maxScale 0 postings) (total .credit postings) := by
  have hscale := (le_maxScale 0 postings).2
  obtain ⟨debit, credit, hrun, hdebit, hcredit⟩ := addPostings_texts hscale 0 0
  rw [Int.cast_zero, zero_add] at hdebit hcredit
  refine ⟨⟨format debit (maxScale 0 postings), format credit (maxScale 0 postings)⟩, ?_, ?_, ?_⟩
  · simp [sumSignedPostings, largestScale_texts, hrun, bind, Except.bind, pure, Except.pure]
  · exact ⟨formatted debit _, (format_eq _ _).symm, scale_formatted _ _, value_of_units hdebit,
      canonical_formatted _ _⟩
  · exact ⟨formatted credit _, (format_eq _ _).symm, scale_formatted _ _, value_of_units hcredit,
      canonical_formatted _ _⟩

/-! ## The contract's decimal strings -/

/-- The contract admits the decimal texts without a superfluous zero before the point. -/
theorem isDecimalString_iff {text : String} :
    isDecimalString text = true ↔ ∃ d : DecimalText, d.text = text ∧ d.Canonical := by
  constructor
  · intro h
    unfold isDecimalString at h
    split at h
    · cases h
    · next integer fraction hsplit =>
      obtain ⟨hne, hinteger, hfraction, hrest⟩ := splitDigits_eq_some hsplit
      have hcanonical : integer = ['0'] ∨ integer.head? ≠ some '0' := by simpa using h
      refine ⟨⟨(signAndRest text.toList).1, integer, fraction, hinteger, hne, hfraction⟩, ?_, hcanonical⟩
      have hchars : (if (signAndRest text.toList).1 then ['-'] else []) ++
          (signAndRest text.toList).2 = text.toList := by
        unfold signAndRest
        split
        · next rest htext => simp [htext]
        · simp
      rw [DecimalText.text, DecimalText.chars, ← hrest, hchars, String.ofList_toList]
  · rintro ⟨d, rfl, hcanonical⟩
    have hsplit := splitDigits_text d.integer_digits d.integer_ne_nil d.fraction_digits
    simp only [isDecimalString, DecimalText.text, String.toList_ofList, signAndRest_chars, hsplit]
    simpa [DecimalText.Canonical] using hcanonical

/-- Whatever their length and scale, decimal texts, those of the contract among them, are compared as
the rational numbers they stand for, summed exactly at the largest scale among them, and negated
exactly. -/
theorem decimal_arithmetic_exact :
    (∀ text, isDecimalString text = true ↔ ∃ d : DecimalText, d.text = text ∧ d.Canonical) ∧
    (∀ left right : DecimalText,
      compareDecimalStrings left.text right.text = .ok (compare left.value right.value)) ∧
    (∀ postings : List (PostingDirection × DecimalText),
      ∃ totals, sumSignedPostings (postings.map signedPosting) = .ok totals ∧
        Prints totals.debit (maxScale 0 postings) (total .debit postings) ∧
        Prints totals.credit (maxScale 0 postings) (total .credit postings)) ∧
    ∀ d : DecimalText, negateDecimalString d.text = d.negated.text ∧ d.negated.value = -d.value :=
  ⟨fun _ => isDecimalString_iff, compareDecimalStrings_text, sumSignedPostings_texts,
    fun d => ⟨negateDecimalString_text d, value_negated d⟩⟩

example : sumSignedPostings [⟨.debit, "9007199254740993.01"⟩, ⟨.credit, "-0.005"⟩] =
    .ok ⟨"9007199254740993.010", "-0.005"⟩ := by
  decide +kernel

end Amounts

end PlusOne
