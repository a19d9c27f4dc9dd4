import PlusOne.Accounting.Amounts

/-! # Decimals and dates as texts

The texts behind a decimal string and a local date, which are stored as the numbers they spell. A text
spells one decimal or date, and each text `DecimalStringSchema` admits is that of a decimal. -/

namespace PlusOne

open Numeric

/-! ## Decimals -/

namespace DecimalText

theorem text_injective : Function.Injective text := by
  intro d e h
  have hchars : d.chars = e.chars := String.ofList_injective h
  have hsign := Amounts.signAndRest_chars d
  rw [hchars, Amounts.signAndRest_chars e, Prod.mk.injEq] at hsign
  obtain ⟨hnegative, hrest⟩ := hsign
  have hsplit := Amounts.splitDigits_text d.integer_digits d.integer_ne_nil d.fraction_digits
  rw [← hrest, Amounts.splitDigits_text e.integer_digits e.integer_ne_nil e.fraction_digits,
    Option.some.injEq, Prod.mk.injEq] at hsplit
  obtain ⟨hinteger, hfraction⟩ := hsplit
  cases d
  cases e
  simp only at hnegative hinteger hfraction
  subst hnegative hinteger hfraction
  rfl

end DecimalText

/-- The text a decimal string is: its digits with the point put in, after its sign. -/
def decimalText (value : DecimalString) : DecimalText :=
  { Amounts.formatted value.digits value.scale with negative := value.negative }

def decimalStringText (value : DecimalString) : String := (decimalText value).text

theorem decimal_decimalText (value : DecimalString) : (decimalText value).decimal = value := by
  have hscale := Amounts.scale_formatted value.digits value.scale
  have hdigits : (Amounts.formatted value.digits value.scale).integer ++
      (Amounts.formatted value.digits value.scale).fraction =
        Amounts.paddedDigits value.digits value.scale := List.take_append_drop _ _
  have hnumber := Amounts.bigInt_paddedDigits value.digits value.scale
  rw [← hdigits] at hnumber
  simp only [Amounts.bigInt, Int.natAbs_natCast] at hnumber
  simp only [DecimalText.decimal, decimalText, DecimalText.scale] at hscale ⊢
  rw [hnumber, hscale]

theorem canonical_decimalText (value : DecimalString) : (decimalText value).Canonical :=
  Amounts.canonical_formatted value.digits value.scale

theorem decimalStringText_injective : Function.Injective decimalStringText := by
  intro value other h
  have htext := DecimalText.text_injective h
  rw [← decimal_decimalText value, htext, decimal_decimalText]

/-- Digits that start with no zero are printed as they stand. -/
theorem toDigits_bigInt {digits : List Char} (hdigits : digits.all Char.isDigit = true)
    (hne : digits ≠ []) (hhead : digits.head? ≠ some '0') :
    Nat.toDigits 10 (Amounts.bigInt digits) = digits := by
  have hdigit : ∀ c : Char, c.isDigit = true →
      c.toNat - 48 < 10 ∧ (c.toNat - 48).digitChar = c := by
    intro c hc
    have hbounds := Char.isDigit_iff_toNat.1 hc
    have hall : ∀ n : Fin 10, (Char.ofNat (48 + n.val)).toNat - 48 < 10 ∧
        ((Char.ofNat (48 + n.val)).toNat - 48).digitChar = Char.ofNat (48 + n.val) := by decide
    have hchar : Char.ofNat (48 + (c.toNat - 48)) = c := by
      have hsum : 48 + (c.toNat - 48) = c.toNat := by simp at hbounds; omega
      rw [hsum, Char.ofNat_toNat]
    have hlt : c.toNat - 48 < 10 := by simp at hbounds; omega
    have hc' := hall ⟨c.toNat - 48, hlt⟩
    simp only [hchar] at hc'
    exact hc'
  induction digits using List.reverseRecOn with
  | nil => exact absurd rfl hne
  | append_singleton digits c ih =>
    rw [List.all_append, Bool.and_eq_true] at hdigits
    obtain ⟨hinit, hlast⟩ := hdigits
    obtain ⟨hlt, hchar⟩ := hdigit c (by simpa using hlast)
    have hvalue : Amounts.bigInt (digits ++ [c]) = Amounts.bigInt digits * 10 + (c.toNat - 48) := by
      rw [Amounts.bigInt_append]
      simp [Amounts.bigInt, Nat.ofDigitChars_cons]
    cases digits with
    | nil =>
      have hzero : Amounts.bigInt ([] ++ [c]) = c.toNat - 48 := by
        simp [Amounts.bigInt, Nat.ofDigitChars_cons]
      rw [hzero, Nat.toDigits_of_lt_base hlt, hchar]
      rfl
    | cons first digits =>
      have hih := ih hinit (by simp) (by simpa using hhead)
      have hlarge : 0 < Amounts.bigInt (first :: digits) := by
        rcases Nat.eq_zero_or_pos (Amounts.bigInt (first :: digits)) with hzero | hlarge
        · rw [hzero] at hih
          have hfirst : '0' = first := (List.cons.inj hih).1
          rw [← hfirst] at hhead
          exact absurd rfl hhead
        · exact hlarge
      have hdiv : (Amounts.bigInt (first :: digits) * 10 + (c.toNat - 48)) / 10 =
          Amounts.bigInt (first :: digits) := by omega
      have hmod : (Amounts.bigInt (first :: digits) * 10 + (c.toNat - 48)) % 10 = c.toNat - 48 := by
        omega
      rw [hvalue, Nat.toDigits_of_base_le (by decide) (by omega), hdiv, hmod, hih, hchar]

/-- Digits are the number they spell, with as many zeros before it as they start with. -/
theorem padStart_bigInt {digits : List Char} (hdigits : digits.all Char.isDigit = true)
    (hne : digits ≠ []) :
    Amounts.padStart (Nat.toDigits 10 (Amounts.bigInt digits)) digits.length = digits := by
  induction digits with
  | nil => exact absurd rfl hne
  | cons c digits ih =>
    by_cases hc : c = '0'
    · subst hc
      have hrest : digits.all Char.isDigit = true := by simpa using hdigits
      have hvalue : Amounts.bigInt ('0' :: digits) = Amounts.bigInt digits := by
        simp [Amounts.bigInt, Nat.ofDigitChars_cons]
      rw [hvalue]
      by_cases hnil : digits = []
      · subst hnil
        rfl
      · have hih := ih hrest hnil
        have hlength := congrArg List.length hih
        simp only [Amounts.padStart, List.length_append, List.length_replicate] at hlength
        have hone : digits.length + 1 - (Nat.toDigits 10 (Amounts.bigInt digits)).length =
            digits.length - (Nat.toDigits 10 (Amounts.bigInt digits)).length + 1 := by omega
        rw [Amounts.padStart, List.length_cons, hone, List.replicate_succ, List.cons_append]
        exact congrArg (List.cons '0') hih
    · have hplain := toDigits_bigInt hdigits hne (by simpa using hc)
      rw [hplain, Amounts.padStart, Nat.sub_self]
      rfl

/-- A text the schema admits is that of its decimal. -/
theorem decimalText_decimal {d : DecimalText} (h : d.Canonical) : decimalText d.decimal = d := by
  have hdigits : (d.integer ++ d.fraction).all Char.isDigit = true := by
    simp [List.all_append, d.integer_digits, d.fraction_digits]
  have hne : d.integer ++ d.fraction ≠ [] := by simp [d.integer_ne_nil]
  have hpadded : Amounts.paddedDigits (Amounts.bigInt (d.integer ++ d.fraction) : Nat) d.fraction.length =
      d.integer ++ d.fraction := by
    rw [Amounts.paddedDigits, Int.natAbs_natCast]
    rcases h with hzero | hhead
    · have hlength : (d.integer ++ d.fraction).length = d.fraction.length + 1 := by
        simp [hzero, Nat.add_comm]
      rw [← hlength]
      exact padStart_bigInt hdigits hne
    · have hplain := toDigits_bigInt hdigits hne (by
        rw [List.head?_append_of_ne_nil _ d.integer_ne_nil]
        exact hhead)
      have hpos : 0 < d.integer.length := List.length_pos_iff.2 d.integer_ne_nil
      have hnone : d.fraction.length + 1 - (d.integer ++ d.fraction).length = 0 := by
        rw [List.length_append]
        omega
      rw [hplain, Amounts.padStart, hnone]
      rfl
  have hlength : (d.integer ++ d.fraction).length - d.fraction.length = d.integer.length := by
    simp
  have hformatted : Amounts.paddedDigits (d.decimal.digits : Nat) d.decimal.scale =
      d.integer ++ d.fraction := hpadded
  cases d
  simp only [decimalText, Amounts.formatted, hformatted, DecimalText.mk.injEq] at hlength ⊢
  simp only [DecimalText.decimal, DecimalText.scale, hlength]
  simp

/-! ## Dates -/

/-- `YYYY-MM-DD` -/
def LocalDate.text (date : LocalDate) : String :=
  let digits := Amounts.padStart (Nat.toDigits 10 date.digits) 8
  .ofList (digits.take 4 ++ '-' :: (digits.drop 4).take 2 ++ '-' :: digits.drop 6)

theorem LocalDate.text_injective : Function.Injective LocalDate.text := by
  intro date other h
  have hpadded : ∀ date : LocalDate,
      (Amounts.padStart (Nat.toDigits 10 date.digits) 8).all Char.isDigit = true := by
    intro date
    have hdigits := Amounts.all_isDigit_toDigits date.digits
    rw [Amounts.padStart, List.all_append, hdigits, Bool.and_true, List.all_eq_true]
    intro c hc
    rw [(List.mem_replicate.1 hc).2]
    rfl
  -- the digits of the text, without the two hyphens
  have hfilter : ∀ date : LocalDate, date.text.toList.filter Char.isDigit =
      Amounts.padStart (Nat.toDigits 10 date.digits) 8 := by
    intro date
    have hall := hpadded date
    generalize hd : Amounts.padStart (Nat.toDigits 10 date.digits) 8 = digits at hall
    have hkeep : ∀ part : List Char, part ⊆ digits → part.filter Char.isDigit = part := by
      intro part hpart
      rw [List.filter_eq_self]
      intro c hc
      exact List.all_eq_true.1 hall c (hpart hc)
    have hfirst := hkeep (digits.take 4) (List.take_subset 4 digits)
    have hsecond := hkeep ((digits.drop 4).take 2)
      (List.Subset.trans (List.take_subset 2 _) (List.drop_subset 4 digits))
    have hthird := hkeep (digits.drop 6) (List.drop_subset 6 digits)
    have hhyphen : Char.isDigit '-' = false := by decide
    have hjoin : digits.take 4 ++ ((digits.drop 4).take 2 ++ digits.drop 6) = digits := by
      have hdrop : digits.drop 6 = (digits.drop 4).drop 2 := by simp
      rw [hdrop, List.take_append_drop, List.take_append_drop]
    simp [LocalDate.text, hd, List.filter_cons, hhyphen, hfirst, hsecond, hthird, hjoin]
  have hdigits : Amounts.padStart (Nat.toDigits 10 date.digits) 8 =
      Amounts.padStart (Nat.toDigits 10 other.digits) 8 := by
    rw [← hfilter date, h, hfilter other]
  have hnumber : ∀ date : LocalDate,
      Amounts.bigInt (Amounts.padStart (Nat.toDigits 10 date.digits) 8) = date.digits := by
    intro date
    rw [Amounts.padStart, Amounts.bigInt_append]
    simp [Amounts.bigInt]
  apply LocalDate.digits_injective
  rw [← hnumber date, hdigits, hnumber other]

end PlusOne
