import Mathlib.Algebra.Order.Field.Rat
import Mathlib.Tactic.FieldSimp
import Mathlib.Tactic.Linarith
import Mathlib.Tactic.Positivity
import PlusOne.Numeric.Decimal

/-! # The numbers decimals stand for -/

namespace Numeric

namespace Decimal

/-- The signed digits over the power of ten of the fraction digits. -/
def value (d : Decimal) : ℚ := signed d.negative d.digits / 10 ^ d.scale

theorem aligned_cast {d : Decimal} {s : Nat} (h : d.scale ≤ s) : (d.aligned s : ℚ) = d.value * 10 ^ s := by
  have hpow : (10 : ℚ) ^ s = 10 ^ d.scale * 10 ^ (s - d.scale) := by
    rw [← pow_add, Nat.add_sub_cancel' h]
  have hne : (10 : ℚ) ^ d.scale ≠ 0 := by positivity
  rw [aligned, signed_mul, value, hpow]
  push_cast
  field_simp

theorem compare_eq_iff {l r : Decimal} : l.compare r = .eq ↔ l.value = r.value := by
  have hl := aligned_cast (le_max_left l.scale r.scale)
  have hr := aligned_cast (le_max_right l.scale r.scale)
  have hne : (10 : ℚ) ^ max l.scale r.scale ≠ 0 := by positivity
  rw [compare, Std.LawfulEqCmp.compare_eq_iff_eq]
  constructor
  · intro h
    rw [h, hr] at hl
    exact (mul_right_cancel₀ hne hl).symm
  · intro h
    rw [h, ← hr] at hl
    exact_mod_cast hl

end Decimal

namespace Fixed

variable {precision scale : Nat}

/-- The number a column holds. -/
def value (f : Fixed precision scale) : ℚ := f.units / 10 ^ scale

theorem value_text (f : Fixed precision scale) : f.text.value = f.value := by
  rw [Decimal.value, text, signed_decide_natAbs, value]

/-- A column that holds a decimal as it is has digits enough for it. -/
theorem exactAt_of_value {f : Fixed precision scale} {d : Decimal} (h : f.value = d.value) : d.ExactAt scale := by
  rcases Nat.le_total d.scale scale with hle | hle
  · rw [Decimal.ExactAt, Nat.sub_eq_zero_of_le hle, pow_zero]
    exact Nat.one_dvd _
  · have hpow : (10 : ℚ) ^ d.scale = 10 ^ scale * 10 ^ (d.scale - scale) := by
      rw [← pow_add, Nat.add_sub_cancel' hle]
    have hne : (10 : ℚ) ^ scale ≠ 0 := by positivity
    have hne' : (10 : ℚ) ^ (d.scale - scale) ≠ 0 := by positivity
    have hsigned : (signed d.negative d.digits : ℚ) = f.units * 10 ^ (d.scale - scale) := by
      rw [value, Decimal.value, hpow] at h
      field_simp at h
      linarith
    have hint : signed d.negative d.digits = f.units * 10 ^ (d.scale - scale) := by exact_mod_cast hsigned
    have habs := congrArg Int.natAbs hint
    rw [signed_natAbs, Int.natAbs_mul, Int.natAbs_pow] at habs
    exact ⟨f.units.natAbs, by rw [habs, Nat.mul_comm]; rfl⟩

theorem value_eq_iff {f : Fixed precision scale} {d : Decimal} (h : store d = some f) :
    f.value = d.value ↔ d.ExactAt scale := by
  rw [← compare_store h, Decimal.compare_eq_iff, value_text]

end Fixed

end Numeric
