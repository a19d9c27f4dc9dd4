import Mathlib.Tactic.Common
import Mathlib.Data.Int.Order.Basic

/-! # The Gregorian calendar

Days are numbered from the first of January 1970. Months count from zero, and the calendar goes on in both
directions without end. -/

namespace Calendar

def isLeap (year : ℤ) : Bool := year % 4 == 0 && (year % 100 != 0 || year % 400 == 0)

/-- The number of the first day of a year. -/
def dayFromYear (year : ℤ) : ℤ :=
  365 * (year - 1970) + (year - 1969) / 4 - (year - 1901) / 100 + (year - 1601) / 400

def daysInYear (year : ℤ) : ℤ := if isLeap year then 366 else 365

/-- How many days of a year go before a month. -/
def daysBefore (leap : Bool) (month : ℕ) : ℤ :=
  let days : ℤ := [0, 31, 59, 90, 120, 151, 181, 212, 243, 273, 304, 334].getD month 365
  if leap ∧ 2 ≤ month then days + 1 else days

def monthLength (leap : Bool) (month : ℕ) : ℤ := daysBefore leap (month + 1) - daysBefore leap month

structure Civil where
  year : ℤ
  month : ℕ
  day : ℤ
  deriving DecidableEq

/-- A day that there is. -/
structure Civil.Valid (date : Civil) : Prop where
  month : date.month < 12
  one_le : 1 ≤ date.day
  le : date.day ≤ monthLength (isLeap date.year) date.month

def Civil.dayNumber (date : Civil) : ℤ :=
  dayFromYear date.year + daysBefore (isLeap date.year) date.month + date.day - 1

/-- The year of a day, which the mean length of a year misses by one at most. -/
def yearOf (day : ℤ) : ℤ :=
  let year := 1970 + day * 400 / 146097
  if day < dayFromYear year then year - 1
  else if dayFromYear (year + 1) ≤ day then year + 1
  else year

/-- The month of a day of the year. -/
def monthOf (leap : Bool) (dayOfYear : ℤ) : ℕ :=
  ((List.range 11).filter fun month => daysBefore leap (month + 1) ≤ dayOfYear).length

def civil (day : ℤ) : Civil :=
  let year := yearOf day
  let dayOfYear := day - dayFromYear year
  let month := monthOf (isLeap year) dayOfYear
  ⟨year, month, dayOfYear - daysBefore (isLeap year) month + 1⟩

/-! ## Years -/

theorem dayFromYear_succ (year : ℤ) : dayFromYear (year + 1) = dayFromYear year + daysInYear year := by
  unfold dayFromYear daysInYear isLeap
  split
  · next h =>
    simp only [Bool.and_eq_true, Bool.or_eq_true, bne_iff_ne, beq_iff_eq, ne_eq] at h
    omega
  · next h =>
    simp only [Bool.and_eq_true, Bool.or_eq_true, bne_iff_ne, beq_iff_eq, ne_eq, not_and_or, not_or] at h
    omega

theorem dayFromYear_mono {year year' : ℤ} (h : year ≤ year') : dayFromYear year ≤ dayFromYear year' := by
  unfold dayFromYear
  omega

theorem yearOf_spec (day : ℤ) : dayFromYear (yearOf day) ≤ day ∧ day < dayFromYear (yearOf day + 1) := by
  unfold yearOf
  have hyear := Int.mul_ediv_add_emod (day * 400) 146097
  have hmod := Int.emod_nonneg (day * 400) (b := 146097) (by decide)
  have hlt := Int.emod_lt_of_pos (day * 400) (b := 146097) (by decide)
  generalize day * 400 / 146097 = guess at hyear ⊢
  generalize day * 400 % 146097 = rest at hyear hmod hlt
  have hlow : dayFromYear (1970 + guess - 1) ≤ day := by
    unfold dayFromYear
    omega
  have hhigh : day < dayFromYear (1970 + guess + 1 + 1) := by
    unfold dayFromYear
    omega
  simp only
  split
  · next hbefore =>
    rw [Int.sub_add_cancel]
    exact ⟨hlow, hbefore⟩
  · next hbefore =>
    split
    · next hafter => exact ⟨hafter, hhigh⟩
    · next hafter => exact ⟨Int.not_lt.1 hbefore, Int.not_le.1 hafter⟩

theorem yearOf_eq {day year : ℤ} (hle : dayFromYear year ≤ day) (hlt : day < dayFromYear (year + 1)) :
    yearOf day = year := by
  obtain ⟨hle', hlt'⟩ := yearOf_spec day
  rcases Int.lt_trichotomy (yearOf day) year with h | h | h
  · have hmono := dayFromYear_mono (Int.add_one_le_of_lt h)
    omega
  · exact h
  · have hmono := dayFromYear_mono (Int.add_one_le_of_lt h)
    omega

/-! ## Months -/

theorem daysBefore_mono {leap : Bool} {month month' : ℕ} (h : month ≤ month') (hlt : month' < 13) :
    daysBefore leap month ≤ daysBefore leap month' := by
  have hall : ∀ leap : Bool, ∀ month' < 13, ∀ month ≤ month', daysBefore leap month ≤ daysBefore leap month' := by
    decide
  exact hall leap month' hlt month h

theorem daysBefore_nonneg (leap : Bool) {month : ℕ} (h : month < 13) : 0 ≤ daysBefore leap month := by
  have hzero : daysBefore leap 0 = 0 := by cases leap <;> rfl
  rw [← hzero]
  exact daysBefore_mono (Nat.zero_le month) h

theorem daysBefore_twelve (year : ℤ) : daysBefore (isLeap year) 12 = daysInYear year := by
  unfold daysInYear
  cases isLeap year <;> rfl

theorem monthLength_bounds (leap : Bool) {month : ℕ} (h : month < 12) :
    28 ≤ monthLength leap month ∧ monthLength leap month ≤ 31 := by
  have hall : ∀ leap : Bool, ∀ month < 12, 28 ≤ monthLength leap month ∧ monthLength leap month ≤ 31 := by decide
  exact hall leap month h

theorem monthOf_eq {leap : Bool} {month : ℕ} {dayOfYear : ℤ} (hmonth : month < 12)
    (hle : daysBefore leap month ≤ dayOfYear) (hlt : dayOfYear < daysBefore leap (month + 1)) :
    monthOf leap dayOfYear = month := by
  have hsame : (List.range 11).filter (fun other => daysBefore leap (other + 1) ≤ dayOfYear) =
      (List.range 11).filter fun other => other < month := by
    refine List.filter_congr ?_
    intro other hother
    rw [List.mem_range] at hother
    rw [decide_eq_decide]
    constructor
    · intro hbefore
      by_contra hlate
      have hmono : daysBefore leap (month + 1) ≤ daysBefore leap (other + 1) := daysBefore_mono (by omega) (by omega)
      omega
    · intro hearly
      have hmono : daysBefore leap (other + 1) ≤ daysBefore leap month := daysBefore_mono (by omega) (by omega)
      omega
  have hcount : ∀ month < 12, ((List.range 11).filter fun other => other < month).length = month := by decide
  rw [monthOf, hsame, hcount month hmonth]

/-- The months of a year take up all its days. -/
theorem exists_month {year dayOfYear : ℤ} (hle : 0 ≤ dayOfYear) (hlt : dayOfYear < daysInYear year) :
    ∃ month < 12, daysBefore (isLeap year) month ≤ dayOfYear ∧ dayOfYear < daysBefore (isLeap year) (month + 1) := by
  rw [← daysBefore_twelve] at hlt
  have hsearch : ∀ k ≤ 12, dayOfYear < daysBefore (isLeap year) k → ∃ month < k,
      daysBefore (isLeap year) month ≤ dayOfYear ∧ dayOfYear < daysBefore (isLeap year) (month + 1) := by
    intro k hk hbefore
    induction k with
    | zero =>
      have hzero : daysBefore (isLeap year) 0 = 0 := by cases isLeap year <;> rfl
      omega
    | succ k ih =>
      by_cases hlast : daysBefore (isLeap year) k ≤ dayOfYear
      · exact ⟨k, Nat.lt_succ_self k, hlast, hbefore⟩
      · obtain ⟨month, hmonth, hrest⟩ := ih (by omega) (Int.not_le.1 hlast)
        exact ⟨month, Nat.lt_succ_of_lt hmonth, hrest⟩
  exact hsearch 12 (Nat.le_refl 12) hlt

/-! ## Days -/

/-- A day that there is lies within its year and within its month. -/
theorem Civil.Valid.bounds {date : Civil} (h : date.Valid) :
    (dayFromYear date.year ≤ date.dayNumber ∧ date.dayNumber < dayFromYear (date.year + 1)) ∧
      daysBefore (isLeap date.year) date.month ≤ date.dayNumber - dayFromYear date.year ∧
      date.dayNumber - dayFromYear date.year < daysBefore (isLeap date.year) (date.month + 1) := by
  obtain ⟨hmonth, hone, hle⟩ := h
  have hzero : daysBefore (isLeap date.year) 0 = 0 := by cases isLeap date.year <;> rfl
  have hfirst : daysBefore (isLeap date.year) 0 ≤ daysBefore (isLeap date.year) date.month :=
    daysBefore_mono (Nat.zero_le _) (by omega)
  have hlast : daysBefore (isLeap date.year) (date.month + 1) ≤ daysBefore (isLeap date.year) 12 :=
    daysBefore_mono (by omega) (by omega)
  rw [daysBefore_twelve] at hlast
  have hsucc := dayFromYear_succ date.year
  simp only [monthLength] at hle
  simp only [Civil.dayNumber]
  omega

theorem civil_dayNumber {date : Civil} (h : date.Valid) : civil date.dayNumber = date := by
  obtain ⟨⟨hyear, hyear'⟩, hmonth, hmonth'⟩ := h.bounds
  have hyearOf := yearOf_eq hyear hyear'
  have hmonthOf := monthOf_eq h.month hmonth hmonth'
  simp only [civil, hyearOf, hmonthOf]
  cases date
  simp only [Civil.dayNumber, Civil.mk.injEq, true_and]
  omega

theorem civil_valid (day : ℤ) : (civil day).Valid ∧ (civil day).dayNumber = day := by
  obtain ⟨hle, hlt⟩ := yearOf_spec day
  rw [dayFromYear_succ] at hlt
  have hle : 0 ≤ day - dayFromYear (yearOf day) := by omega
  have hlt : day - dayFromYear (yearOf day) < daysInYear (yearOf day) := by omega
  obtain ⟨month, hmonth, hbefore, hafter⟩ := exists_month hle hlt
  have hmonthOf := monthOf_eq hmonth hbefore hafter
  constructor
  · constructor
    · simpa only [civil, hmonthOf] using hmonth
    · simp only [civil, hmonthOf]
      omega
    · simp only [civil, hmonthOf, monthLength]
      omega
  · simp only [civil, hmonthOf, Civil.dayNumber]
    omega

/-! ## The first and the last day of a month -/

def Civil.monthStart (date : Civil) : Civil := { date with day := 1 }

def Civil.monthEnd (date : Civil) : Civil := { date with day := monthLength (isLeap date.year) date.month }

def Civil.nextMonth (date : Civil) : Civil :=
  if date.month = 11 then ⟨date.year + 1, 0, 1⟩ else ⟨date.year, date.month + 1, 1⟩

section Month

variable {date other : Civil}

theorem Civil.Valid.monthStart (h : date.Valid) : date.monthStart.Valid := by
  have hbounds := monthLength_bounds (isLeap date.year) h.month
  exact ⟨h.month, le_refl 1, by simp only [Civil.monthStart]; omega⟩

theorem Civil.Valid.monthEnd (h : date.Valid) : date.monthEnd.Valid := by
  have hbounds := monthLength_bounds (isLeap date.year) h.month
  exact ⟨h.month, by simp only [Civil.monthEnd]; omega, le_refl _⟩

theorem Civil.Valid.nextMonth (h : date.Valid) : date.nextMonth.Valid := by
  have hmonth := h.month
  unfold Civil.nextMonth
  split
  · have hbounds := monthLength_bounds (isLeap (date.year + 1)) (Nat.succ_pos 11)
    exact ⟨Nat.succ_pos 11, le_refl 1, by simp only; omega⟩
  · have hlt : date.month + 1 < 12 := by omega
    have hbounds := monthLength_bounds (isLeap date.year) hlt
    exact ⟨hlt, le_refl 1, by simp only; omega⟩

theorem Civil.dayNumber_nextMonth (h : date.Valid) : date.nextMonth.dayNumber - 1 = date.monthEnd.dayNumber := by
  have hzero : ∀ leap : Bool, daysBefore leap 0 = 0 := by decide
  unfold Civil.nextMonth
  split
  · next hlast =>
    have htwelve := daysBefore_twelve date.year
    have hsucc := dayFromYear_succ date.year
    simp only [Civil.dayNumber, Civil.monthEnd, monthLength, hlast, hzero, Nat.reduceAdd]
    omega
  · simp only [Civil.dayNumber, Civil.monthEnd, monthLength]
    omega

theorem Civil.Valid.between (h : date.Valid) :
    date.monthStart.dayNumber ≤ date.dayNumber ∧ date.dayNumber ≤ date.monthEnd.dayNumber := by
  have hone := h.one_le
  have hle := h.le
  simp only [Civil.dayNumber, Civil.monthStart, Civil.monthEnd]
  omega

/-- The days from the first to the last one of a month are those of that month. -/
theorem Civil.Valid.same_month (h : date.Valid) (hother : other.Valid)
    (hle : date.monthStart.dayNumber ≤ other.dayNumber) (hlt : other.dayNumber ≤ date.monthEnd.dayNumber) :
    other.year = date.year ∧ other.month = date.month := by
  have hday : (⟨date.year, date.month, other.dayNumber - date.monthStart.dayNumber + 1⟩ : Civil).Valid := by
    refine ⟨h.month, ?_, ?_⟩
    · simp only
      omega
    · simp only [Civil.dayNumber, Civil.monthStart, Civil.monthEnd] at hlt ⊢
      omega
  have hnumber : (⟨date.year, date.month, other.dayNumber - date.monthStart.dayNumber + 1⟩ : Civil).dayNumber =
      other.dayNumber := by
    simp only [Civil.dayNumber, Civil.monthStart]
    omega
  have hcivil := civil_dayNumber hday
  rw [hnumber, civil_dayNumber hother] at hcivil
  rw [hcivil]
  exact ⟨rfl, rfl⟩

end Month

end Calendar
