import Mathlib.Data.List.Lex
import Mathlib.Data.Nat.Digits.Lemmas

/-! # Numbers as rows of digits

A row of digits with its highest digit first: its value, the order of rows of one length, and the bits
that a buffer of bits holds. -/

namespace Coding

/-! ## Values -/

/-- The value of a row of digits, the highest first. -/
def rowValue (base : ℕ) (row : List ℕ) : ℕ := Nat.ofDigits base row.reverse

variable {base : ℕ} {row row' : List ℕ}

@[simp] theorem rowValue_nil : rowValue base [] = 0 := rfl

theorem rowValue_cons (digit : ℕ) : rowValue base (digit :: row) = rowValue base row + base ^ row.length * digit := by
  rw [rowValue, List.reverse_cons, Nat.ofDigits_append, Nat.ofDigits_singleton, List.length_reverse, rowValue]

theorem rowValue_append_singleton (digit : ℕ) :
    rowValue base (row ++ [digit]) = digit + base * rowValue base row := by
  rw [rowValue, List.reverse_append, List.reverse_singleton, List.singleton_append, Nat.ofDigits_cons, rowValue]

theorem rowValue_lt (h : ∀ digit ∈ row, digit < base) : rowValue base row < base ^ row.length := by
  induction row with
  | nil => simp
  | cons digit row ih =>
    have hdigit : digit < base := h digit (by simp)
    have htail := ih fun d hd => h d (by simp [hd])
    rw [rowValue_cons, List.length_cons, Nat.pow_succ]
    calc rowValue base row + base ^ row.length * digit
        < base ^ row.length + base ^ row.length * digit := by omega
      _ = base ^ row.length * (digit + 1) := by ring
      _ ≤ base ^ row.length * base := Nat.mul_le_mul_left _ hdigit

/-- Rows of one length are in the order of their values. -/
theorem row_lt_of_rowValue_lt (hlength : row.length = row'.length) (h' : ∀ digit ∈ row', digit < base)
    (hvalue : rowValue base row < rowValue base row') : row < row' := by
  induction row generalizing row' with
  | nil =>
    cases row' with
    | nil => simp at hvalue
    | cons digit' row' => simp at hlength
  | cons digit row ih =>
    cases row' with
    | nil => simp at hlength
    | cons digit' row' =>
      have htail : row.length = row'.length := by simpa using hlength
      rw [rowValue_cons, rowValue_cons, htail] at hvalue
      rcases Nat.lt_trichotomy digit digit' with hlt | rfl | hlt
      · exact List.Lex.rel hlt
      · exact List.Lex.cons (ih htail (fun d hd => h' d (by simp [hd])) (by omega))
      · -- a higher digit outweighs whatever follows
        have hbound := rowValue_lt fun d (hd : d ∈ row') => h' d (by simp [hd])
        have hdigit : base ^ row'.length * (digit' + 1) ≤ base ^ row'.length * digit := Nat.mul_le_mul_left _ hlt
        rw [Nat.mul_add, Nat.mul_one] at hdigit
        omega

theorem append_lt_append {α : Type} [LT α] {l l' : List α} (hlength : l.length = l'.length) (h : l < l')
    (rest rest' : List α) : l ++ rest < l' ++ rest' := by
  induction h with
  | nil => simp at hlength
  | cons _ ih => exact List.Lex.cons (ih (by simpa using hlength))
  | rel hlt => exact List.Lex.rel hlt

theorem map_lt_map {α β : Type} [LT α] [LT β] {f : α → β} {l l' : List α}
    (hf : ∀ a ∈ l, ∀ b ∈ l', a < b → f a < f b) (h : l < l') : l.map f < l'.map f := by
  induction h with
  | nil => exact List.Lex.nil
  | cons _ ih => exact List.Lex.cons (ih fun a ha b hb => hf a (by simp [ha]) b (by simp [hb]))
  | rel hlt => exact List.Lex.rel (hf _ (by simp) _ (by simp) hlt)

/-! ## Bits -/

/-- The lowest `width` bits, the highest of them first. -/
def lowBits (bit : ℕ → Bool) : ℕ → List Bool
  | 0 => []
  | width + 1 => bit width :: lowBits bit width

variable {bit bit' : ℕ → Bool} {width : ℕ}

@[simp] theorem length_lowBits : (lowBits bit width).length = width := by
  induction width with
  | zero => rfl
  | succ width ih => simp [lowBits, ih]

theorem lowBits_congr (h : ∀ i < width, bit i = bit' i) : lowBits bit width = lowBits bit' width := by
  induction width with
  | zero => rfl
  | succ width ih =>
    rw [lowBits, lowBits, h width (by omega), ih fun i hi => h i (by omega)]

theorem lowBits_add (bit : ℕ → Bool) (upper width : ℕ) :
    lowBits bit (upper + width) = lowBits (fun i => bit (i + width)) upper ++ lowBits bit width := by
  induction upper with
  | zero => simp [lowBits]
  | succ upper ih =>
    rw [show upper + 1 + width = upper + width + 1 by omega, lowBits, ih]
    rfl

end Coding
