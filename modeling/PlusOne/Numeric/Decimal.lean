import Mathlib.Tactic.Ring
import Mathlib.Algebra.Order.Ring.Int

/-! # Decimals and fixed-point columns

A decimal is its sign, its digits and its scale. A column of fixed precision and scale
holds a whole number of units; what is written into it is rounded half away from zero,
and is refused when its magnitude does not fit the precision. -/

namespace Numeric

/-- A decimal text: its digits read as one number, of which `scale` are fraction digits. -/
structure Decimal where
  negative : Bool
  digits : Nat
  scale : Nat
  deriving DecidableEq

/-- The quotient rounded to the nearest whole number, a half up. -/
def roundHalfAway (n d : Nat) : Nat := (2 * n + d) / (2 * d)

def signed (negative : Bool) (magnitude : Nat) : Int :=
  if negative then -(magnitude : Int) else magnitude

/-- A value in units of `10 ^ -s`, rounded to units of `10 ^ -t`. -/
def rescale (s t : Nat) (units : Int) : Int :=
  if s ≤ t then units * 10 ^ (t - s)
  else units.sign * roundHalfAway units.natAbs (10 ^ (s - t))

namespace Decimal

/-- The value in units of `10 ^ -s`, for an `s` not below the scale. -/
def aligned (d : Decimal) (s : Nat) : Int := signed d.negative (d.digits * 10 ^ (s - d.scale))

/-- The two values compared at the finer of the two scales. -/
def compare (l r : Decimal) : Ordering :=
  Ord.compare (l.aligned (max l.scale r.scale)) (r.aligned (max l.scale r.scale))

/-- The value is a whole number of units of `10 ^ -s`. -/
def ExactAt (s : Nat) (d : Decimal) : Prop := 10 ^ (d.scale - s) ∣ d.digits

instance (s : Nat) (d : Decimal) : Decidable (d.ExactAt s) :=
  inferInstanceAs (Decidable (10 ^ (d.scale - s) ∣ d.digits))

end Decimal

/-- What a column `numeric(precision, scale)` holds. -/
structure Fixed (precision scale : Nat) where
  units : Int
  fits : units.natAbs < 10 ^ precision
  deriving DecidableEq

namespace Fixed

variable {precision scale : Nat}

@[ext] theorem ext {a b : Fixed precision scale} (h : a.units = b.units) : a = b := by
  cases a
  cases b
  cases h
  rfl

def ofUnits (units : Int) : Option (Fixed precision scale) :=
  if h : units.natAbs < 10 ^ precision then some ⟨units, h⟩ else none

/-- A decimal as the column stores it. -/
def store (d : Decimal) : Option (Fixed precision scale) :=
  ofUnits (rescale d.scale scale (signed d.negative d.digits))

/-- The column printed, with all its fraction digits. -/
def text (f : Fixed precision scale) : Decimal := ⟨decide (f.units < 0), f.units.natAbs, scale⟩

theorem ofUnits_eq_some {units : Int} {f : Fixed precision scale} :
    ofUnits units = some f ↔ f.units = units := by
  unfold ofUnits
  constructor
  · intro h
    split at h
    · cases h
      rfl
    · cases h
  · rintro rfl
    simp [f.fits]

@[simp] theorem ofUnits_units (f : Fixed precision scale) : ofUnits f.units = some f :=
  ofUnits_eq_some.2 rfl

end Fixed

/-! ## Rounding -/

theorem roundHalfAway_mul {q d : Nat} (hd : 0 < d) : roundHalfAway (q * d) d = q := by
  have hnum : 2 * (q * d) + d = d + q * (2 * d) := by ring
  have hlt : d < 2 * d := by omega
  rw [roundHalfAway, hnum, Nat.add_mul_div_right _ _ (by omega), Nat.div_eq_of_lt hlt, Nat.zero_add]

theorem roundHalfAway_mul_eq_iff {n d : Nat} (hd : 0 < d) : roundHalfAway n d * d = n ↔ d ∣ n := by
  constructor
  · intro h
    exact ⟨roundHalfAway n d, by rw [Nat.mul_comm, h]⟩
  · rintro ⟨q, rfl⟩
    rw [Nat.mul_comm d q, roundHalfAway_mul hd]

theorem signed_natAbs (b : Bool) (n : Nat) : (signed b n).natAbs = n := by
  cases b <;> simp [signed]

theorem signed_decide_natAbs (n : Int) : signed (decide (n < 0)) n.natAbs = n := by
  rcases lt_or_ge n 0 with hneg | hnonneg
  · have habs : (n.natAbs : Int) = -n := Int.ofNat_natAbs_of_nonpos hneg.le
    simp only [signed, hneg, decide_true, if_true, habs, neg_neg]
  · have habs : (n.natAbs : Int) = n := Int.natAbs_of_nonneg hnonneg
    have hnot : ¬n < 0 := by omega
    simp only [signed, hnot, decide_false, Bool.false_eq_true, if_false, habs]

theorem signed_mul (b : Bool) (m n : Nat) : signed b (m * n) = signed b m * n := by
  cases b <;> simp [signed]

theorem signed_eq_sign_mul (b : Bool) (n : Nat) : signed b n = (signed b n).sign * n := by
  have h := Int.sign_mul_natAbs (signed b n)
  rw [signed_natAbs] at h
  exact h.symm

/-- Rounding to a coarser scale loses nothing exactly when the value is a multiple of its unit. -/
theorem rescale_mul_eq_iff {s t : Nat} (hst : t < s) (b : Bool) (n : Nat) :
    rescale s t (signed b n) * 10 ^ (s - t) = signed b n ↔ 10 ^ (s - t) ∣ n := by
  have hpos : 0 < 10 ^ (s - t) := Nat.pow_pos (by decide)
  rw [rescale, if_neg (by omega), signed_natAbs, mul_assoc, ← roundHalfAway_mul_eq_iff hpos]
  constructor
  · intro h
    rcases Nat.eq_zero_or_pos n with rfl | hn
    · rw [roundHalfAway_mul_eq_iff hpos]
      exact dvd_zero _
    · have hsign : (signed b n).sign ≠ 0 := by
        rw [Ne, Int.sign_eq_zero_iff_zero]
        intro hzero
        have habs := signed_natAbs b n
        rw [hzero] at habs
        simp at habs
        omega
      have heq : (signed b n).sign * ((roundHalfAway n (10 ^ (s - t)) * 10 ^ (s - t) : Nat) : Int) =
          (signed b n).sign * (n : Int) := by
        rw [← signed_eq_sign_mul]
        push_cast
        exact h
      exact_mod_cast mul_left_cancel₀ hsign heq
  · intro h
    have hcast : (roundHalfAway n (10 ^ (s - t)) : Int) * 10 ^ (s - t) = n := by exact_mod_cast h
    rw [hcast, ← signed_eq_sign_mul]

theorem Fixed.text_aligned {precision scale s : Nat} (f : Fixed precision scale) :
    f.text.aligned s = f.units * 10 ^ (s - scale) := by
  simp only [Decimal.aligned, Fixed.text, signed_mul, signed_decide_natAbs]
  push_cast
  rfl

/-- What is read back from a column compares equal to what was written exactly when the column
can hold it without rounding. -/
theorem Fixed.compare_store {precision scale : Nat} {d : Decimal} {f : Fixed precision scale}
    (h : store d = some f) : f.text.compare d = .eq ↔ d.ExactAt scale := by
  have hunits : f.units = rescale d.scale scale (signed d.negative d.digits) := ofUnits_eq_some.1 h
  have hscale : f.text.scale = scale := rfl
  rw [Decimal.compare, Std.LawfulEqCmp.compare_eq_iff_eq, text_aligned, hunits, hscale]
  simp only [Decimal.aligned, signed_mul]
  rcases le_or_gt d.scale scale with hle | hlt
  · have hmax : max scale d.scale = scale := by omega
    rw [hmax, rescale, if_pos hle]
    simp [Decimal.ExactAt, Nat.sub_eq_zero_of_le hle]
  · have hmax : max scale d.scale = d.scale := by omega
    rw [hmax, Nat.sub_self, pow_zero, Nat.cast_one, mul_one, Decimal.ExactAt]
    exact rescale_mul_eq_iff hlt d.negative d.digits

end Numeric
