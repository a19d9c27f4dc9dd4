import Mathlib.Tactic.IntervalCases
import PlusOne.Accounting.Texts
import PlusOne.Calendar.Gregorian

/-! # The bounds of a month

The dates of the accounting materializers as the texts they are, `Date.UTC` and the getters of a date in
UTC, and the dates of the database as numbers of days. -/

namespace PlusOne

open Calendar

/-! ## Dates of the language -/

/-- `new Date(Date.UTC(year, month, day))` as a number of days; a year below 100 is one of the twentieth
century, and months and days go over into the years and months around them. -/
def dateUtc (year month day : Int) : Int :=
  let year := if 0 ≤ year ∧ year ≤ 99 then 1900 + year else year
  Civil.dayNumber ⟨year + month / 12, (month % 12).toNat, 1⟩ + day - 1

def integerText (number : Int) : List Char := (toString number).toList

/-- Year, month and day, padded with zeros and joined by hyphens. -/
def dateText (year month day : Int) : String :=
  String.ofList (Amounts.padStart (integerText year) 4 ++ '-' ::
    (Amounts.padStart (integerText month) 2 ++ '-' :: Amounts.padStart (integerText day) 2))

/-- `/^(\d{4})-(\d{2})-(\d{2})$/.exec(value)`, its groups read as numbers. -/
def matchLocalDate (value : String) : Option (Nat × Nat × Nat) :=
  match value.toList with
  | [y₁, y₂, y₃, y₄, '-', m₁, m₂, '-', d₁, d₂] =>
    if [y₁, y₂, y₃, y₄, m₁, m₂, d₁, d₂].all Char.isDigit then
      some (Amounts.bigInt [y₁, y₂, y₃, y₄], Amounts.bigInt [m₁, m₂], Amounts.bigInt [d₁, d₂])
    else none
  | _ => none

/-- `isRealLocalDate` of a text -/
def isRealLocalDateText (value : String) : Bool :=
  match matchLocalDate value with
  | none => false
  | some (year, month, day) =>
    let date := civil (dateUtc year (month - 1) day)
    date.year == year && (date.month : Int) == month - 1 && date.day == day

/-- `LocalDateSchema.parse` -/
def parseLocalDate (value : String) : Option String := if isRealLocalDateText value then some value else none

/-- `Number` of a text of digits -/
def numberOf (digits : List Char) : Option Int :=
  if digits ≠ [] ∧ digits.all Char.isDigit then some (Amounts.bigInt digits) else none

/-- `value.split('-').map(Number)` -/
def dateNumbers (value : String) : Option (List Int) := (value.toList.splitOn '-').mapM numberOf

def addLocalDays (localDate : String) (offset : Int) : Option String :=
  match dateNumbers localDate with
  | some [year, month, day] =>
    let shifted := civil (dateUtc year (month - 1) (day + offset))
    parseLocalDate (dateText shifted.year (shifted.month + 1) shifted.day)
  | _ => none

def monthlyPeriodBounds (occurredOn : String) : Option (String × String) := do
  let date ← parseLocalDate occurredOn
  match dateNumbers date with
  | some (year :: month :: _) =>
    let periodStart ← parseLocalDate (dateText year month 1)
    let nextMonth := civil (dateUtc year month 1)
    let periodEnd ← addLocalDays (dateText nextMonth.year (nextMonth.month + 1) 1) (-1)
    return (periodStart, periodEnd)
  | _ => none

/-! ## Dates of the database -/

/-- `value::date` -/
def sqlDate (value : String) : Option Int :=
  match matchLocalDate value with
  | none => none
  | some (year, month, day) =>
    let date : Civil := ⟨year, month - 1, day⟩
    if 1 ≤ month ∧ (civil date.dayNumber) = date then some date.dayNumber else none

/-- `date_trunc('month', date::timestamp)::date` -/
def dateTruncMonth (date : Int) : Int := (civil date).monthStart.dayNumber

/-- `(date_trunc('month', date::timestamp) + interval '1 month - 1 day')::date`; the month is added first. -/
def monthEndOf (date : Int) : Int := (civil (dateTruncMonth date)).nextMonth.dayNumber - 1

/-- `periods_calendar_month` -/
def periodsCalendarMonth (periodStart periodEnd : Int) : Bool :=
  periodStart == dateTruncMonth periodStart && periodEnd == monthEndOf periodStart

/-! ## Texts of dates -/

section Texts

theorem integerText_natCast (number : Nat) : integerText number = Nat.toDigits 10 number := by
  rw [integerText, Int.toString_eq_repr, Int.repr_eq_if]
  simp [Nat.toList_repr]

theorem bigInt_padStart (number width : Nat) : Amounts.bigInt (Amounts.padStart (Nat.toDigits 10 number) width) = number := by
  rw [Amounts.padStart, Amounts.bigInt_append]
  simp [Amounts.bigInt]

theorem isDigit_padStart (number width : Nat) :
    (Amounts.padStart (Nat.toDigits 10 number) width).all Char.isDigit = true := by
  rw [Amounts.padStart, List.all_append, Bool.and_eq_true]
  constructor
  · simp [List.all_replicate]
  · rw [List.all_eq_true]
    intro c hc
    exact Nat.isDigit_of_mem_toDigits (by decide) (by decide) hc

theorem length_padStart {number width : Nat} (hwidth : 0 < width) (h : number < 10 ^ width) :
    (Amounts.padStart (Nat.toDigits 10 number) width).length = width := by
  have hle := (Nat.length_toDigits_le_iff (b := 10) (by decide) hwidth).2 h
  rw [Amounts.padStart, List.length_append, List.length_replicate]
  omega

theorem padStart_ne_nil (number width : Nat) : Amounts.padStart (Nat.toDigits 10 number) width ≠ [] := by
  simp [Amounts.padStart, Nat.toDigits_ne_nil]

theorem toList_dateText (year month day : Nat) : (dateText year month day).toList =
    Amounts.padStart (Nat.toDigits 10 year) 4 ++ '-' :: (Amounts.padStart (Nat.toDigits 10 month) 2 ++ '-' ::
      Amounts.padStart (Nat.toDigits 10 day) 2) := by
  simp only [dateText, String.toList_ofList, integerText_natCast]

/-- A printed date of four, two and two digits is read back. -/
theorem matchLocalDate_dateText {year month day : Nat} (hyear : year < 10000) (hmonth : month < 100)
    (hday : day < 100) : matchLocalDate (dateText year month day) = some (year, month, day) := by
  have hyears := length_padStart (Nat.succ_pos 3) hyear
  have hmonths := length_padStart (Nat.succ_pos 1) hmonth
  have hdays := length_padStart (Nat.succ_pos 1) hday
  have hy := bigInt_padStart year 4
  have hm := bigInt_padStart month 2
  have hd := bigInt_padStart day 2
  have hyd := isDigit_padStart year 4
  have hmd := isDigit_padStart month 2
  have hdd := isDigit_padStart day 2
  rw [matchLocalDate, toList_dateText]
  generalize Amounts.padStart (Nat.toDigits 10 year) 4 = ys at *
  generalize Amounts.padStart (Nat.toDigits 10 month) 2 = ms at *
  generalize Amounts.padStart (Nat.toDigits 10 day) 2 = ds at *
  obtain ⟨y₁, y₂, y₃, y₄, rfl⟩ := List.length_eq_four.1 hyears
  obtain ⟨m₁, m₂, rfl⟩ := List.length_eq_two.1 hmonths
  obtain ⟨d₁, d₂, rfl⟩ := List.length_eq_two.1 hdays
  simp_all

theorem numberOf_padStart (number width : Nat) :
    numberOf (Amounts.padStart (Nat.toDigits 10 number) width) = some (number : Int) := by
  rw [numberOf, if_pos ⟨padStart_ne_nil number width, isDigit_padStart number width⟩, bigInt_padStart]

theorem hyphen_not_mem_padStart (number width : Nat) : '-' ∉ Amounts.padStart (Nat.toDigits 10 number) width := by
  intro hmem
  have hdigit := List.all_eq_true.1 (isDigit_padStart number width) _ hmem
  exact absurd hdigit (by decide)

theorem dateNumbers_dateText (year month day : Nat) :
    dateNumbers (dateText year month day) = some [(year : Int), (month : Int), (day : Int)] := by
  have hjoined : (dateText year month day).toList = ['-'].intercalate
      [Amounts.padStart (Nat.toDigits 10 year) 4, Amounts.padStart (Nat.toDigits 10 month) 2,
        Amounts.padStart (Nat.toDigits 10 day) 2] := by
    rw [toList_dateText]
    simp [List.intercalate]
  rw [dateNumbers, hjoined, List.splitOn_intercalate]
  · simp [numberOf_padStart]
  · intro piece hpiece
    simp only [List.mem_cons, List.not_mem_nil, or_false] at hpiece
    obtain rfl | rfl | rfl := hpiece <;> exact hyphen_not_mem_padStart _ _
  · simp

end Texts

/-! ## Real dates -/

theorem isLeap_natCast (year : Nat) : isLeap year = isLeapYear year := by
  unfold isLeap isLeapYear
  have hfour : ((year : Int) % 4 == 0) = (year % 4 == 0) := by
    rw [Bool.eq_iff_iff, beq_iff_eq, beq_iff_eq]
    omega
  have hhundred : ((year : Int) % 100 != 0) = (year % 100 != 0) := by
    rw [Bool.eq_iff_iff, bne_iff_ne, bne_iff_ne]
    omega
  have hcentury : ((year : Int) % 400 == 0) = (year % 400 == 0) := by
    rw [Bool.eq_iff_iff, beq_iff_eq, beq_iff_eq]
    omega
  rw [hfour, hhundred, hcentury]

theorem monthLength_eq (year : Nat) {month : Nat} (hone : 1 ≤ month) (hmonth : month ≤ 12) :
    monthLength (isLeap year) (month - 1) = daysInMonth year month := by
  rw [isLeap_natCast, daysInMonth]
  interval_cases month <;> cases isLeapYear year <;> rfl

/-- The day of the calendar that three numbers name. -/
def civilOf (year month day : Nat) : Civil := ⟨year, month - 1, day⟩

variable {year month day : Nat}

theorem valid_civilOf_iff (hone : 1 ≤ month) :
    (civilOf year month day).Valid ↔ month ≤ 12 ∧ 1 ≤ day ∧ day ≤ daysInMonth year month := by
  constructor
  · rintro ⟨hmonth, hday, hlast⟩
    simp only [civilOf] at hmonth hday hlast
    have hle : month ≤ 12 := by omega
    rw [monthLength_eq year hone hle] at hlast
    omega
  · rintro ⟨hmonth, hday, hlast⟩
    refine ⟨?_, ?_, ?_⟩
    · simp only [civilOf]
      omega
    · simp only [civilOf]
      omega
    · simp only [civilOf]
      rw [monthLength_eq year hone hmonth]
      omega

theorem dateUtc_eq {year month : Nat} (day : Int) (hyear : 100 ≤ year) (hmonth : month < 12) :
    dateUtc year month day = Civil.dayNumber ⟨year, month, 1⟩ + day - 1 := by
  have hlate : ¬((0 : Int) ≤ year ∧ (year : Int) ≤ 99) := by omega
  have hdiv : (month : Int) / 12 = 0 := by omega
  have hmod : ((month : Int) % 12).toNat = month := by omega
  simp only [dateUtc, if_neg hlate, hdiv, hmod, Int.add_zero]

theorem civil_dateUtc (hyear : 100 ≤ year) (hone : 1 ≤ month) (h : (civilOf year month day).Valid) :
    civil (dateUtc year (month - 1) day) = civilOf year month day := by
  have hmonth := h.month
  simp only [civilOf] at hmonth
  have hcast : ((month : Int) - 1) = ((month - 1 : Nat) : Int) := by omega
  have hnumber : dateUtc year (month - 1) day = (civilOf year month day).dayNumber := by
    rw [hcast, dateUtc_eq _ hyear hmonth]
    simp only [Civil.dayNumber, civilOf]
    omega
  rw [hnumber, civil_dayNumber h]

theorem digit_le {c : Char} (h : c.isDigit = true) : c.toNat - 48 ≤ 9 := by
  have hbounds := Char.isDigit_iff_toNat.1 h
  simp at hbounds
  omega

theorem lt_of_matchLocalDate {value : String} (h : matchLocalDate value = some (year, month, day)) :
    year < 10000 := by
  unfold matchLocalDate at h
  split at h
  · next y₁ y₂ y₃ y₄ m₁ m₂ d₁ d₂ _ =>
    split at h
    · next hdigits =>
      simp only [Option.some.injEq, Prod.mk.injEq] at h
      obtain ⟨rfl, -⟩ := h
      simp only [List.all_cons, Bool.and_eq_true] at hdigits
      obtain ⟨h₁, h₂, h₃, h₄, -⟩ := hdigits
      have hle₁ := digit_le h₁
      have hle₂ := digit_le h₂
      have hle₃ := digit_le h₃
      have hle₄ := digit_le h₄
      simp only [Amounts.bigInt, Nat.ofDigitChars_cons, Nat.ofDigitChars_nil]
      have hzero : '0'.toNat = 48 := rfl
      omega
    · cases h
  · cases h

theorem isRealLocalDate_iff : isRealLocalDate year month day = true ↔
    (100 ≤ year ∧ year ≤ 9999) ∧ 1 ≤ month ∧ (civilOf year month day).Valid := by
  simp only [isRealLocalDate, Bool.and_eq_true, decide_eq_true_eq]
  constructor
  · rintro ⟨⟨⟨⟨⟨hyear, hyear'⟩, hone⟩, hmonth⟩, hday⟩, hlast⟩
    exact ⟨⟨hyear, hyear'⟩, hone, (valid_civilOf_iff hone).2 ⟨hmonth, hday, hlast⟩⟩
  · rintro ⟨⟨hyear, hyear'⟩, hone, hvalid⟩
    obtain ⟨hmonth, hday, hlast⟩ := (valid_civilOf_iff hone).1 hvalid
    exact ⟨⟨⟨⟨⟨hyear, hyear'⟩, hone⟩, hmonth⟩, hday⟩, hlast⟩

/-- The texts that `LocalDateSchema` accepts name the days of the years from 100 to 9999. -/
theorem isRealLocalDateText_iff {value : String} : isRealLocalDateText value = true ↔
    ∃ year month day, matchLocalDate value = some (year, month, day) ∧ isRealLocalDate year month day = true := by
  unfold isRealLocalDateText
  cases hmatch : matchLocalDate value with
  | none => simp
  | some numbers =>
    obtain ⟨year, month, day⟩ := numbers
    simp only [Option.some.injEq, Prod.mk.injEq, Bool.and_eq_true, beq_iff_eq]
    constructor
    · rintro ⟨⟨hyear, hmonth⟩, hday⟩
      refine ⟨year, month, day, ⟨rfl, rfl, rfl⟩, isRealLocalDate_iff.2 ?_⟩
      have hone : 1 ≤ month := by omega
      obtain ⟨hvalid, hnumber⟩ := civil_valid (dateUtc year (month - 1) day)
      have hsame : civil (dateUtc year (month - 1) day) = civilOf year month day := by
        generalize civil (dateUtc year (month - 1) day) = date at *
        cases date
        simp only [civilOf, Civil.mk.injEq]
        simp only at hyear hmonth hday
        omega
      rw [hsame] at hvalid hnumber
      have hlt := lt_of_matchLocalDate hmatch
      refine ⟨⟨?_, by omega⟩, hone, hvalid⟩
      -- `Date.UTC` has put a year below 100 into the twentieth century, so the years differ
      by_contra hearly
      have hmonth' := hvalid.month
      have hday' := hvalid.one_le
      obtain ⟨⟨-, hbefore⟩, -⟩ := hvalid.bounds
      have htwentieth : (0 : Int) ≤ year ∧ (year : Int) ≤ 99 := by omega
      have hdiv : ((month : Int) - 1) / 12 = 0 := by
        simp only [civilOf] at hmonth'
        omega
      have hpositive : 0 ≤ daysBefore (isLeap (1900 + year)) (((month : Int) - 1) % 12).toNat :=
        daysBefore_nonneg _ (by omega)
      have hmono : dayFromYear (year + 1) ≤ dayFromYear (1900 + year) := dayFromYear_mono (by omega)
      rw [hnumber] at hbefore
      simp only [civilOf] at hday' hbefore
      simp only [dateUtc, if_pos htwentieth, hdiv, Int.add_zero, Civil.dayNumber] at hbefore
      omega
    · rintro ⟨year', month', day', ⟨rfl, rfl, rfl⟩, h⟩
      obtain ⟨⟨hyear, -⟩, hone, hvalid⟩ := isRealLocalDate_iff.1 h
      rw [civil_dateUtc hyear hone hvalid]
      refine ⟨⟨rfl, ?_⟩, rfl⟩
      simp only [civilOf]
      omega

/-- A text of four, two and two digits is what its numbers are printed as. -/
theorem eq_dateText_of_matchLocalDate {value : String} (h : matchLocalDate value = some (year, month, day)) :
    value = dateText year month day := by
  unfold matchLocalDate at h
  split at h
  · next y₁ y₂ y₃ y₄ m₁ m₂ d₁ d₂ hvalue =>
    split at h
    · next hdigits =>
      simp only [Option.some.injEq, Prod.mk.injEq] at h
      obtain ⟨rfl, rfl, rfl⟩ := h
      simp only [List.all_cons, List.all_nil, Bool.and_true, Bool.and_eq_true] at hdigits
      obtain ⟨h₁, h₂, h₃, h₄, h₅, h₆, h₇, h₈⟩ := hdigits
      have hyear : Amounts.padStart (Nat.toDigits 10 (Amounts.bigInt [y₁, y₂, y₃, y₄])) 4 = [y₁, y₂, y₃, y₄] :=
        padStart_bigInt (by simp [h₁, h₂, h₃, h₄]) (by simp)
      have hmonth : Amounts.padStart (Nat.toDigits 10 (Amounts.bigInt [m₁, m₂])) 2 = [m₁, m₂] :=
        padStart_bigInt (by simp [h₅, h₆]) (by simp)
      have hday : Amounts.padStart (Nat.toDigits 10 (Amounts.bigInt [d₁, d₂])) 2 = [d₁, d₂] :=
        padStart_bigInt (by simp [h₇, h₈]) (by simp)
      apply String.toList_injective
      rw [hvalue, toList_dateText, hyear, hmonth, hday]
      rfl
    · cases h
  · cases h

theorem isRealLocalDateText_dateText (hyear : 100 ≤ year) (hyear' : year ≤ 9999) (hone : 1 ≤ month)
    (h : (civilOf year month day).Valid) : isRealLocalDateText (dateText year month day) = true := by
  have hmonth := h.month
  have hday := h.le
  have hbounds := monthLength_bounds (isLeap year) hmonth
  simp only [civilOf] at hmonth hday hbounds
  refine isRealLocalDateText_iff.2 ⟨year, month, day, ?_, isRealLocalDate_iff.2 ⟨⟨hyear, hyear'⟩, hone, h⟩⟩
  exact matchLocalDate_dateText (by omega) (by omega) (by omega)

theorem sqlDate_dateText (hyear : year ≤ 9999) (hone : 1 ≤ month) (h : (civilOf year month day).Valid) :
    sqlDate (dateText year month day) = some (civilOf year month day).dayNumber := by
  have hmonth := h.month
  have hday := h.le
  have hbounds := monthLength_bounds (isLeap year) hmonth
  simp only [civilOf] at hmonth hday hbounds
  have hmatch : matchLocalDate (dateText year month day) = some (year, month, day) :=
    matchLocalDate_dateText (by omega) (by omega) (by omega)
  rw [sqlDate, hmatch]
  exact if_pos ⟨hone, civil_dayNumber h⟩

/-! ## The bounds -/

section Bounds

variable {year month day : Nat} (hyear : 100 ≤ year) (hone : 1 ≤ month)
  (h : (civilOf year month day).Valid)

include hyear hone h

/-- The last day of the month, from the day before the first of the next one. -/
theorem addLocalDays_nextMonth {year' month' : Nat} (hnext : (civilOf year month day).nextMonth = ⟨year', month', 1⟩) :
    addLocalDays (dateText year' (month' + 1) 1) (-1) =
      parseLocalDate (dateText year month (daysInMonth year month)) := by
  have hvalid := h.nextMonth
  have hmonth := hvalid.month
  have hlater : 100 ≤ year' := by
    have hle : ((civilOf year month day).year : Int) ≤ (civilOf year month day).nextMonth.year := by
      unfold Civil.nextMonth
      split <;> simp
    rw [hnext] at hle
    simp only [civilOf] at hle
    omega
  rw [hnext] at hmonth
  change month' < 12 at hmonth
  have hnumbers : dateNumbers (dateText year' (month' + 1) 1) = some [(year' : Int), (month' : Int) + 1, 1] :=
    dateNumbers_dateText year' (month' + 1) 1
  have hshifted : civil (dateUtc year' ((month' : Int) + 1 - 1) (1 + -1)) = (civilOf year month day).monthEnd := by
    have hday : dateUtc year' ((month' : Int) + 1 - 1) (1 + -1) = (civilOf year month day).nextMonth.dayNumber - 1 := by
      rw [Int.add_sub_cancel, dateUtc_eq _ hlater hmonth, hnext, Int.add_right_neg]
      omega
    rw [hday, Civil.dayNumber_nextMonth h]
    exact civil_dayNumber h.monthEnd
  simp only [addLocalDays, hnumbers, hshifted]
  have hmonth := h.month
  have hlength := monthLength_eq year hone (by simp only [civilOf] at hmonth; omega)
  simp only [Civil.monthEnd, civilOf, hlength]
  rw [show ((month - 1 : Nat) : Int) + 1 = month by omega]

/-- `Date.UTC` with the number of the month, which counts from zero, is the first of the next one. -/
theorem exists_nextMonth : ∃ year' month' : Nat, civil (dateUtc year month 1) = ⟨year', month', 1⟩ ∧
    (civilOf year month day).nextMonth = ⟨year', month', 1⟩ := by
  have hvalid := h.nextMonth
  have hmonth := h.month
  simp only [civilOf] at hmonth
  by_cases hlast : month = 12
  · subst hlast
    have hnext : (civilOf year 12 day).nextMonth = ⟨(year + 1 : Nat), 0, 1⟩ := rfl
    refine ⟨year + 1, 0, ?_, hnext⟩
    rw [hnext] at hvalid
    have hlate : ¬((0 : Int) ≤ year ∧ (year : Int) ≤ 99) := by omega
    have hnumber : dateUtc year (12 : Nat) 1 = Civil.dayNumber ⟨(year + 1 : Nat), 0, 1⟩ := by
      simp only [dateUtc, if_neg hlate]
      exact Int.add_sub_cancel _ _
    rw [hnumber]
    exact civil_dayNumber hvalid
  · have hnext : (civilOf year month day).nextMonth = ⟨year, month, 1⟩ := by
      have hne : ¬month - 1 = 11 := by omega
      have hsucc : month - 1 + 1 = month := by omega
      simp only [Civil.nextMonth, civilOf, if_neg hne, hsucc]
    refine ⟨year, month, ?_, hnext⟩
    rw [hnext] at hvalid
    have hnumber : dateUtc year month 1 = Civil.dayNumber ⟨year, month, 1⟩ := by
      rw [dateUtc_eq 1 hyear (by omega)]
      exact Int.add_sub_cancel _ _
    rw [hnumber]
    exact civil_dayNumber hvalid

omit hyear hone in
theorem valid_first : (civilOf year month 1).Valid := h.monthStart

omit hyear in
theorem valid_last : (civilOf year month (daysInMonth year month)).Valid := by
  have hmonth := h.month
  simp only [civilOf] at hmonth
  have hend := h.monthEnd
  have hlength := monthLength_eq year hone (by omega)
  simp only [Civil.monthEnd, civilOf, hlength] at hend
  exact hend

theorem monthlyPeriodBounds_dateText (hyear' : year ≤ 9999) : monthlyPeriodBounds (dateText year month day) =
    some (dateText year month 1, dateText year month (daysInMonth year month)) := by
  have hparsed : parseLocalDate (dateText year month day) = some (dateText year month day) :=
    if_pos (isRealLocalDateText_dateText hyear hyear' hone h)
  have hstart : parseLocalDate (dateText year month 1) = some (dateText year month 1) :=
    if_pos (isRealLocalDateText_dateText hyear hyear' hone (valid_first h))
  have hend : parseLocalDate (dateText year month (daysInMonth year month)) =
      some (dateText year month (daysInMonth year month)) :=
    if_pos (isRealLocalDateText_dateText hyear hyear' hone (valid_last hone h))
  obtain ⟨year', month', hcivil, hnext⟩ := exists_nextMonth hyear hone h
  have hshifted := addLocalDays_nextMonth hyear hone h hnext
  simp only [monthlyPeriodBounds, hparsed, Option.bind_eq_bind, Option.bind_some, dateNumbers_dateText, hcivil]
  rw [hshifted, hend, hstart]
  rfl

end Bounds

/-- The bounds of a month are accepted dates, its first and its last day, as the check of the table has them. -/
theorem monthlyPeriodBounds_spec {occurredOn : String} (h : isRealLocalDateText occurredOn = true) :
    ∃ day : Civil, ∃ periodStart periodEnd, day.Valid ∧ sqlDate occurredOn = some day.dayNumber ∧
      monthlyPeriodBounds occurredOn = some (periodStart, periodEnd) ∧
      (isRealLocalDateText periodStart = true ∧ isRealLocalDateText periodEnd = true) ∧
      sqlDate periodStart = some day.monthStart.dayNumber ∧ sqlDate periodEnd = some day.monthEnd.dayNumber ∧
      periodsCalendarMonth day.monthStart.dayNumber day.monthEnd.dayNumber = true := by
  obtain ⟨year, month, day, hmatch, hreal⟩ := isRealLocalDateText_iff.1 h
  obtain ⟨⟨hyear, hyear'⟩, hone, hvalid⟩ := isRealLocalDate_iff.1 hreal
  obtain rfl := eq_dateText_of_matchLocalDate hmatch
  have hfirst := valid_first hvalid
  have hlast := valid_last hone hvalid
  have hmonth := hvalid.month
  simp only [civilOf] at hmonth
  have hlength := monthLength_eq year hone (by omega)
  have hend : civilOf year month (daysInMonth year month) = (civilOf year month day).monthEnd := by
    simp only [Civil.monthEnd, civilOf, hlength]
  refine ⟨civilOf year month day, dateText year month 1, dateText year month (daysInMonth year month), hvalid,
    sqlDate_dateText hyear' hone hvalid, monthlyPeriodBounds_dateText hyear hone hvalid hyear',
    ⟨isRealLocalDateText_dateText hyear hyear' hone hfirst, isRealLocalDateText_dateText hyear hyear' hone hlast⟩,
    sqlDate_dateText hyear' hone hfirst, ?_, ?_⟩
  · rw [← hend]
    exact sqlDate_dateText hyear' hone hlast
  · have hcivil := civil_dayNumber hvalid.monthStart
    have hstart : (civilOf year month day).monthStart.monthStart = (civilOf year month day).monthStart := rfl
    have htrunc : dateTruncMonth (civilOf year month day).monthStart.dayNumber =
        (civilOf year month day).monthStart.dayNumber := by
      rw [dateTruncMonth, hcivil, hstart]
    rw [periodsCalendarMonth, monthEndOf, htrunc, hcivil, Civil.dayNumber_nextMonth hvalid.monthStart]
    simp [Civil.monthEnd, Civil.monthStart]

end PlusOne
