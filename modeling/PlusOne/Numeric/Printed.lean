import Mathlib.Tactic.Positivity
import PlusOne.Numeric.Decimal

/-! # Columns printed with fewer digits

A query may print a column with fewer fraction digits than it holds. The text is rounded, has exactly
these digits, and no sign when it is zero; it is the text that was written when that one had the same
digits and no sign on a zero. -/

namespace Numeric

namespace Decimal

/-- A zero with a sign, which no column holds. -/
def NegativeZero (d : Decimal) : Prop := d.negative = true ∧ d.digits = 0

instance (d : Decimal) : Decidable d.NegativeZero :=
  inferInstanceAs (Decidable (d.negative = true ∧ d.digits = 0))

end Decimal

theorem decide_signed_neg {b : Bool} {n : Nat} (h : ¬(b = true ∧ n = 0)) :
    decide (signed b n < 0) = b := by
  cases b with
  | false => simp [signed]
  | true =>
    have hpos : 0 < n := by
      have hne : n ≠ 0 := by simpa using h
      omega
    simp [signed, hpos]

/-- Digits that were written at a coarser scale come back at that scale. -/
theorem rescale_rescale {s t : Nat} (hst : t ≤ s) (b : Bool) (n : Nat) :
    rescale s t (rescale t s (signed b n)) = signed b n := by
  have hwide : rescale t s (signed b n) = signed b (n * 10 ^ (s - t)) := by
    rw [rescale, if_pos hst, signed_mul]
    push_cast
    rfl
  rw [hwide]
  rcases Nat.eq_or_lt_of_le hst with rfl | hlt
  · simp [rescale]
  · have hdvd : 10 ^ (s - t) ∣ n * 10 ^ (s - t) := Nat.dvd_mul_left _ _
    have hscaled := (rescale_mul_eq_iff hlt b (n * 10 ^ (s - t))).2 hdvd
    have hne : ((10 : Int) ^ (s - t)) ≠ 0 := by positivity
    have hright : signed b (n * 10 ^ (s - t)) = signed b n * 10 ^ (s - t) := by
      rw [signed_mul]
      push_cast
      rfl
    exact mul_right_cancel₀ hne (hscaled.trans hright)

namespace Fixed

variable {precision scale : Nat}

/-- The column printed with `places` fraction digits. -/
def printed (places : Nat) (f : Fixed precision scale) : Decimal :=
  let units := rescale scale places f.units
  ⟨decide (units < 0), units.natAbs, places⟩

/-- What is printed is what was written exactly when that had as many fraction digits and was no
negative zero. -/
theorem printed_eq_iff {places : Nat} {d : Decimal} {f : Fixed precision scale} (hplaces : places ≤ scale)
    (h : store d = some f) : f.printed places = d ↔ d.scale = places ∧ ¬d.NegativeZero := by
  have hunits : f.units = rescale d.scale scale (signed d.negative d.digits) := ofUnits_eq_some.1 h
  constructor
  · intro hprinted
    have hscale : d.scale = places := by rw [← hprinted]; rfl
    constructor
    · exact hscale
    · rintro ⟨hnegative, hzero⟩
      have hnone : rescale scale places f.units = 0 := by
        rw [hunits, hscale, rescale_rescale hplaces, hzero]
        simp [signed]
      have hsign : d.negative = false := by
        rw [← hprinted]
        simp [printed, hnone]
      rw [hsign] at hnegative
      cases hnegative
  · rintro ⟨hscale, hnonzero⟩
    have hback : rescale scale places f.units = signed d.negative d.digits := by
      rw [hunits, hscale, rescale_rescale hplaces]
    have hsign := decide_signed_neg hnonzero
    have habs := signed_natAbs d.negative d.digits
    cases d
    simp only at hscale
    subst hscale
    simp only [printed, hback, hsign, habs]

end Fixed

end Numeric
