import Mathlib.Data.Fintype.Basic
import Mathlib.Data.List.Lex
import Mathlib.Data.List.Perm.Basic
import Mathlib.Tactic.FinCases
import PlusOne.Coding.Separated
import PlusOne.Mutations.Repository

/-! # Canonical JSON

`canonicalizeJson` prints a value with the keys of every object in the order of their code
units. Two values print the same exactly when they are equal up to the order of keys. -/

namespace PlusOne

open Coding

/-! ## The code -/

/-- The order RFC 8785 sorts keys in. -/
def codeUnitCompare (key other : String) : Ordering :=
  if codeUnits other < codeUnits key then .gt
  else if codeUnits key < codeUnits other then .lt
  else .eq

/-- `canonicalize` of a JSON value, as RFC 8785 specifies it. -/
def canonicalText (value : Json) : String := String.ofList (stableJson codeUnitCompare value)

/-! ## Equality up to the order of keys -/

mutual

/-- Whether two values differ at most in the order of the keys of their objects. -/
def sameJson : Json → Json → Bool
  | .null, .null => true
  | .bool a, .bool b => a == b
  | .num m, .num n => m == n
  | .str s, .str t => s == t
  | .arr items, .arr others => sameItems items others
  | .obj fields, .obj others => fields.length == others.length && sameFields fields others
  | _, _ => false

def sameItems : List Json → List Json → Bool
  | [], [] => true
  | item :: items, other :: others => sameJson item other && sameItems items others
  | _, _ => false

/-- Every field is among the others, under its key and with the same value. -/
def sameFields : List (String × Json) → List (String × Json) → Bool
  | [], _ => true
  | (key, value) :: fields, others =>
    (match (Json.obj others).field? key with
      | some other => sameJson value other
      | none => false) && sameFields fields others

end

theorem sameItems_iff {items others : List Json} :
    sameItems items others = true ↔ List.Forall₂ (fun a b => sameJson a b = true) items others := by
  induction items generalizing others with
  | nil =>
    cases others with
    | nil => simp [sameItems]
    | cons other others => simp [sameItems]
  | cons item items ih =>
    cases others with
    | nil => simp [sameItems]
    | cons other others => simp [sameItems, ih]

theorem sameFields_iff {fields others : List (String × Json)} :
    sameFields fields others = true ↔ ∀ field ∈ fields, ∃ other,
      (Json.obj others).field? field.1 = some other ∧ sameJson field.2 other = true := by
  induction fields with
  | nil => simp [sameFields]
  | cons field fields ih =>
    obtain ⟨key, value⟩ := field
    have hfield : (match (Json.obj others).field? key with
        | some other => sameJson value other
        | none => false) = true ↔
          ∃ other, (Json.obj others).field? key = some other ∧ sameJson value other = true := by
      cases (Json.obj others).field? key with
      | none => simp
      | some other => simp
    simp only [sameFields, Bool.and_eq_true, hfield, ih, List.forall_mem_cons]

/-! ## Texts inside a text -/

def hexValue (c : Char) : Nat := if c.isDigit then c.toNat - 48 else c.toNat - 87

/-- The character an escape stands for, and what follows it. -/
def unescape : List Char → Option (Char × List Char)
  | [] => none
  | '\\' :: 'u' :: '0' :: '0' :: high :: low :: rest =>
    some (Char.ofNat (16 * hexValue high + hexValue low), rest)
  | '\\' :: 'b' :: rest => some (Char.ofNat 8, rest)
  | '\\' :: 't' :: rest => some (Char.ofNat 9, rest)
  | '\\' :: 'n' :: rest => some (Char.ofNat 10, rest)
  | '\\' :: 'f' :: rest => some (Char.ofNat 12, rest)
  | '\\' :: 'r' :: rest => some (Char.ofNat 13, rest)
  | '\\' :: c :: rest => some (c, rest)
  | c :: rest => some (c, rest)

theorem unescape_escapeChar (c : Char) (rest : List Char) :
    unescape (escapeChar c ++ rest) = some (c, rest) := by
  by_cases hcontrol : c.toNat < 32
  · have hc : c = Char.ofNat c.toNat := (Char.ofNat_toNat c).symm
    have hall : ∀ n : Fin 32, unescape (escapeChar (Char.ofNat n) ++ rest) = some (Char.ofNat n, rest) := by
      intro n
      fin_cases n <;> rfl
    rw [hc]
    exact hall ⟨c.toNat, hcontrol⟩
  · by_cases hquote : c = '"'
    · subst hquote
      rfl
    · by_cases hslash : c = '\\'
      · subst hslash
        rfl
      · have hplain : escapeChar c = [c] := by
          have h8 : c.toNat ≠ 8 := by omega
          have h9 : c.toNat ≠ 9 := by omega
          have h10 : c.toNat ≠ 10 := by omega
          have h12 : c.toNat ≠ 12 := by omega
          have h13 : c.toNat ≠ 13 := by omega
          simp [escapeChar, hquote, hslash, h8, h9, h10, h12, h13, hcontrol]
        rw [hplain, List.singleton_append]
        unfold unescape
        split <;> simp_all

theorem escapeChar_decodes (c d : Char) : Decodes (fun _ => True) Eq escapeChar c d := by
  intro x y _ _ h
  have hread := unescape_escapeChar c x
  rw [h, unescape_escapeChar d y] at hread
  simp only [Option.some.injEq, Prod.mk.injEq] at hread
  exact ⟨hread.1.symm, hread.2.symm⟩

theorem escapeChar_start (c : Char) : ∃ d rest, escapeChar c = d :: rest ∧ d ≠ '"' := by
  unfold escapeChar
  split_ifs with hquote
  all_goals first
    | exact ⟨_, _, rfl, by decide⟩
    | exact ⟨c, [], rfl, hquote⟩

theorem quoteJson_inj {s t : String} {x y : List Char} (h : quoteJson s ++ x = quoteJson t ++ y) :
    s = t ∧ x = y := by
  simp only [quoteJson, List.cons_append, List.append_assoc, List.nil_append, List.cons.injEq, true_and] at h
  obtain ⟨hchars, hxy⟩ := flatMap_append_cons_inj escapeChar_decodes escapeChar_start h
  exact ⟨String.toList_inj.1 hchars, hxy⟩

/-! ## Keys in order -/

/-- The code units of one character. -/
def charUnits (c : Char) : List Nat :=
  if c.toNat < 65536 then [c.toNat]
  else [55296 + (c.toNat - 65536) / 1024, 56320 + (c.toNat - 65536) % 1024]

theorem charUnits_decodes (c d : Char) : Decodes (fun _ => True) Eq charUnits c d := by
  intro x y _ _ h
  have hc := c.valid
  have hd := d.valid
  simp only [UInt32.isValidChar, Nat.isValidChar] at hc hd
  have hcNat : c.val.toNat = c.toNat := rfl
  have hdNat : d.val.toNat = d.toNat := rfl
  rw [hcNat] at hc
  rw [hdNat] at hd
  have hsame : c.toNat = d.toNat ∧ x = y := by
    unfold charUnits at h
    split_ifs at h with hlow hlow' hlow'
    · simpa using h
    · simp only [List.cons_append, List.nil_append, List.cons.injEq] at h
      omega
    · simp only [List.cons_append, List.nil_append, List.cons.injEq] at h
      omega
    · simp only [List.cons_append, List.nil_append, List.cons.injEq] at h
      obtain ⟨hhigh, hrest, hxy⟩ := h
      exact ⟨by omega, hxy⟩
  exact ⟨Char.toNat_inj.1 hsame.1, hsame.2⟩

theorem codeUnits_injective : Function.Injective codeUnits := by
  intro s t h
  have hne : ∀ c, charUnits c ≠ [] := by
    intro c
    unfold charUnits
    split_ifs <;> simp
  exact String.toList_inj.1 (flatMap_injective charUnits_decodes hne h)

theorem localeLe_codeUnitCompare {entry other : String × List Char} :
    localeLe codeUnitCompare entry other ↔ codeUnits entry.1 ≤ codeUnits other.1 := by
  unfold localeLe codeUnitCompare
  split_ifs with hgt hlt
  · simp [hgt]
  · simp [le_of_lt hlt]
  · simp [not_lt.1 hgt]

/-- Entries under different keys have one order, whatever order they come in. -/
theorem insertionSort_eq_of_perm {entries others : List (String × List Char)} (h : entries.Perm others)
    (hkeys : (entries.map Prod.fst).Nodup) :
    entries.insertionSort (localeLe codeUnitCompare) = others.insertionSort (localeLe codeUnitCompare) := by
  have htotal : Std.Total (localeLe codeUnitCompare) := by
    constructor
    intro entry other
    simp only [localeLe_codeUnitCompare]
    exact le_total _ _
  have htrans : IsTrans (String × List Char) (localeLe codeUnitCompare) := by
    constructor
    intro a b c hab hbc
    rw [localeLe_codeUnitCompare] at hab hbc ⊢
    exact le_trans hab hbc
  have hperm : (entries.insertionSort (localeLe codeUnitCompare)).Perm
      (others.insertionSort (localeLe codeUnitCompare)) :=
    ((List.perm_insertionSort _ _).trans h).trans (List.perm_insertionSort _ _).symm
  refine hperm.eq_of_pairwise ?_ (List.pairwise_insertionSort _ _) (List.pairwise_insertionSort _ _)
  intro a b ha hb hab hba
  rw [localeLe_codeUnitCompare] at hab hba
  have hkey : a.1 = b.1 := codeUnits_injective (le_antisymm hab hba)
  have hmem : a ∈ entries := (List.perm_insertionSort _ _).mem_iff.1 ha
  have hmem' : b ∈ entries := h.mem_iff.2 ((List.perm_insertionSort _ _).mem_iff.1 hb)
  exact List.inj_on_of_nodup_map hkeys hmem hmem' hkey

theorem codeUnitLe_iff {text other : String} : codeUnitLe text other = true ↔ codeUnits text ≤ codeUnits other := by
  rw [codeUnitLe, decide_eq_true_iff]

/-- Texts have one order, whatever order they come in. -/
theorem sortTexts_eq_iff {left right : List String} : sortTexts left = sortTexts right ↔ left.Perm right := by
  constructor
  · intro h
    exact perm_of_sameSet (by simp [sameSet, h])
  · intro h
    have htotal : Std.Total fun text other : String => codeUnitLe text other = true := by
      constructor
      intro text other
      simp only [codeUnitLe_iff]
      exact le_total _ _
    have htrans : IsTrans String fun text other => codeUnitLe text other = true := by
      constructor
      intro a b c hab hbc
      rw [codeUnitLe_iff] at hab hbc ⊢
      exact le_trans hab hbc
    have hperm : (sortTexts left).Perm (sortTexts right) :=
      ((List.perm_insertionSort _ _).trans h).trans (List.perm_insertionSort _ _).symm
    refine hperm.eq_of_pairwise ?_ (List.pairwise_insertionSort _ _) (List.pairwise_insertionSort _ _)
    intro a b _ _ hab hba
    rw [codeUnitLe_iff] at hab hba
    exact codeUnits_injective (le_antisymm hab hba)

/-! ## Values told apart -/

@[elab_as_elim]
theorem Json.induction {P : Json → Prop} (null : P .null) (bool : ∀ b, P (.bool b)) (num : ∀ n, P (.num n))
    (str : ∀ s, P (.str s)) (arr : ∀ items, (∀ item ∈ items, P item) → P (.arr items))
    (obj : ∀ fields, (∀ field ∈ fields, P field.2) → P (.obj fields)) (value : Json) : P value := by
  refine @Json.rec P (fun items => ∀ item ∈ items, P item) (fun fields => ∀ field ∈ fields, P field.2)
    (fun field => P field.2) null bool num str arr obj ?_ ?_ ?_ ?_ ?_ value
  · simp
  · intro item items hitem hitems
    exact List.forall_mem_cons.2 ⟨hitem, hitems⟩
  · simp
  · intro field fields hfield hfields
    exact List.forall_mem_cons.2 ⟨hfield, hfields⟩
  · intro key value hvalue
    exact hvalue

theorem Json.keyedItems_iff {items : List Json} :
    Json.keyedItems items = true ↔ ∀ item ∈ items, item.keyed = true := by
  induction items with
  | nil => simp [Json.keyedItems]
  | cons item items ih => simp [Json.keyedItems, ih]

theorem Json.keyed_obj {fields : List (String × Json)} :
    (Json.obj fields).keyed = true ↔
      (fields.map Prod.fst).Nodup ∧ ∀ field ∈ fields, field.2.keyed = true := by
  simp only [Json.keyed, Bool.and_eq_true, decide_eq_true_eq, keyedFields_iff]

theorem Json.keyed_arr {items : List Json} :
    (Json.arr items).keyed = true ↔ ∀ item ∈ items, item.keyed = true := by
  simp only [Json.keyed, Json.keyedItems_iff]

section

variable (order : String → String → Ordering)

example (item : Json) : stableJson order (.arr [.bool true, item]) = "[true,".toList ++ stableJson order item ++ [']'] := by
  simp [stableJson, stableItems, joinComma]

theorem stableItems_eq (items : List Json) : stableItems order items = items.map (stableJson order) := by
  induction items with
  | nil => rfl
  | cons item items ih => simp [stableItems, ih]

theorem stableFields_eq (fields : List (String × Json)) :
    stableFields order fields = fields.map fun field => (field.1, stableJson order field.2) := by
  induction fields with
  | nil => rfl
  | cons field fields ih => simp [stableFields, ih]

theorem joinComma_eq (parts : List (List Char)) : joinComma parts = [','].intercalate parts := by
  induction parts with
  | nil => rfl
  | cons part parts ih =>
    cases parts with
    | nil => simp [joinComma]
    | cons next parts => simp [joinComma, List.intercalate_cons_cons, ih]

end

theorem forall₂_mem_left {α β : Type*} {R : α → β → Prop} {as : List α} {bs : List β}
    (h : List.Forall₂ R as bs) {a : α} (ha : a ∈ as) : ∃ b ∈ bs, R a b := by
  induction h with
  | nil => simp at ha
  | cons hR _ ih =>
    rcases List.mem_cons.1 ha with rfl | hmem
    · exact ⟨_, by simp, hR⟩
    · obtain ⟨b, hb, hab⟩ := ih hmem
      exact ⟨b, by simp [hb], hab⟩

/-- A field as it is printed. -/
def fieldText (field : String × Json) : List Char :=
  entryText (field.1, stableJson codeUnitCompare field.2)

/-- The fields of an object in the order they are printed in. -/
def printedFields (fields : List (String × Json)) : List (String × Json) :=
  fields.insertionSort fun field other => codeUnits field.1 ≤ codeUnits other.1

theorem stableJson_arr (items : List Json) : stableJson codeUnitCompare (.arr items) =
    '[' :: [','].intercalate (items.map (stableJson codeUnitCompare)) ++ [']'] := by
  rw [stableJson, stableItems_eq, joinComma_eq]

theorem stableJson_obj (fields : List (String × Json)) : stableJson codeUnitCompare (.obj fields) =
    '{' :: [','].intercalate ((printedFields fields).map fieldText) ++ ['}'] := by
  have hsort : (stableFields codeUnitCompare fields).insertionSort (localeLe codeUnitCompare) =
      (printedFields fields).map fun field => (field.1, stableJson codeUnitCompare field.2) := by
    rw [stableFields_eq, printedFields]
    symm
    apply List.map_insertionSort
    intro field _ other _
    have hle := @localeLe_codeUnitCompare (field.1, stableJson codeUnitCompare field.2)
      (other.1, stableJson codeUnitCompare other.2)
    exact hle.symm
  simp only [stableJson, hsort, joinComma_eq, List.map_map]
  rfl

/-- What a value is printed as starts with. -/
def startsAs : Json → Char → Bool
  | .null, c => c == 'n'
  | .bool true, c => c == 't'
  | .bool false, c => c == 'f'
  | .num _, c => isNumberChar c
  | .str _, c => c == '"'
  | .arr _, c => c == '['
  | .obj _, c => c == '{'

theorem stableJson_start (value : Json) :
    ∃ c rest, stableJson codeUnitCompare value = c :: rest ∧ startsAs value c = true := by
  cases value with
  | null => exact ⟨'n', _, rfl, rfl⟩
  | bool b =>
    cases b with
    | true => exact ⟨'t', _, rfl, rfl⟩
    | false => exact ⟨'f', _, rfl, rfl⟩
  | num n =>
    have hnonempty := n.nonempty
    have hnumeric := n.numeric
    cases htext : n.text.toList with
    | nil => simp [htext] at hnonempty
    | cons c rest =>
      rw [htext, List.all_cons, Bool.and_eq_true] at hnumeric
      exact ⟨c, rest, by simp [stableJson, htext], hnumeric.1⟩
  | str s => exact ⟨'"', _, rfl, rfl⟩
  | arr items => exact ⟨'[', _, stableJson_arr items, rfl⟩
  | obj fields => exact ⟨'{', _, stableJson_obj fields, rfl⟩

/-- Which kind of value starts with a character. -/
def kindOf (c : Char) : Nat :=
  if c = 'n' then 0 else if c = 't' then 1 else if c = 'f' then 2 else if c = '"' then 3
  else if c = '[' then 4 else if c = '{' then 5 else 6

def Json.kind : Json → Nat
  | .null => 0
  | .bool true => 1
  | .bool false => 2
  | .num _ => 6
  | .str _ => 3
  | .arr _ => 4
  | .obj _ => 5

theorem kindOf_startsAs {value : Json} {c : Char} (h : startsAs value c = true) :
    kindOf c = value.kind := by
  cases value with
  | num n =>
    have hnot : ∀ d : Char, isNumberChar d = false → c ≠ d := by
      intro d hd heq
      subst heq
      rw [startsAs, hd] at h
      cases h
    simp [kindOf, Json.kind, hnot 'n' rfl, hnot 't' rfl, hnot 'f' rfl, hnot '"' rfl, hnot '[' rfl,
      hnot '{' rfl]
  | bool b =>
    cases b with
    | true =>
      have hc : c = 't' := by simpa [startsAs] using h
      subst hc
      rfl
    | false =>
      have hc : c = 'f' := by simpa [startsAs] using h
      subst hc
      rfl
  | null | str s | arr items | obj fields =>
    simp only [startsAs, beq_iff_eq] at h
    subst h
    rfl

/-- What may stand after a value: no character a number goes on with. -/
def EndsValue (rest : List Char) : Prop := ∀ c ∈ rest.head?, isNumberChar c = false

theorem ends_cons {c : Char} (hc : isNumberChar c = false) (rest : List Char) : EndsValue (c :: rest) := by
  simpa [EndsValue] using hc

theorem kind_eq {a b : Json} {x y : List Char}
    (h : stableJson codeUnitCompare a ++ x = stableJson codeUnitCompare b ++ y) : a.kind = b.kind := by
  obtain ⟨c, rest, ha, hc⟩ := stableJson_start a
  obtain ⟨d, rest', hb, hd⟩ := stableJson_start b
  rw [ha, hb, List.cons_append, List.cons_append, List.cons.injEq] at h
  rw [← kindOf_startsAs hc, ← kindOf_startsAs hd, h.1]

/-- Two values that print as the start of one text are the same up to the order of keys. -/
theorem stableJson_decodes (a : Json) : ∀ b : Json, a.keyed = true → b.keyed = true →
    Decodes EndsValue (fun a b => sameJson a b = true) (stableJson codeUnitCompare) a b := by
  induction a using Json.induction with
  | null =>
    intro b _ _ x y _ _ h
    have hkind := kind_eq h
    cases b with
    | null => exact ⟨rfl, List.append_cancel_left h⟩
    | bool b => cases b <;> simp [Json.kind] at hkind
    | num n | str s | arr items | obj fields => simp [Json.kind] at hkind
  | bool a =>
    intro b _ _ x y _ _ h
    have hkind := kind_eq h
    cases b with
    | bool b =>
      cases a <;> cases b
      · exact ⟨rfl, List.append_cancel_left h⟩
      · simp [Json.kind] at hkind
      · simp [Json.kind] at hkind
      · exact ⟨rfl, List.append_cancel_left h⟩
    | null | num n | str s | arr items | obj fields => cases a <;> simp [Json.kind] at hkind
  | num m =>
    intro b _ _ x y hx hy h
    have hkind := kind_eq h
    cases b with
    | num n =>
      simp only [stableJson] at h
      obtain ⟨htext, hxy⟩ := append_inj_of_stop m.numeric n.numeric hx hy h
      have hmn : m = n := by
        cases m
        cases n
        simpa using String.toList_inj.1 htext
      exact ⟨by simp [sameJson, hmn], hxy⟩
    | bool b => cases b <;> simp [Json.kind] at hkind
    | null | str s | arr items | obj fields => simp [Json.kind] at hkind
  | str s =>
    intro b _ _ x y _ _ h
    have hkind := kind_eq h
    cases b with
    | str t =>
      obtain ⟨hst, hxy⟩ := quoteJson_inj h
      exact ⟨by simp [sameJson, hst], hxy⟩
    | bool b => cases b <;> simp [Json.kind] at hkind
    | null | num n | arr items | obj fields => simp [Json.kind] at hkind
  | arr items ih =>
    intro b ha hb x y _ _ h
    have hkind := kind_eq h
    cases b with
    | arr others =>
      rw [Json.keyed_arr] at ha hb
      rw [stableJson_arr, stableJson_arr] at h
      simp only [List.cons_append, List.append_assoc, List.nil_append, List.cons.injEq, true_and] at h
      have hstart : ∀ value : Json, ∃ c rest, stableJson codeUnitCompare value = c :: rest ∧ c ≠ ']' := by
        intro value
        obtain ⟨c, rest, htext, hc⟩ := stableJson_start value
        refine ⟨c, rest, htext, ?_⟩
        intro heq
        subst heq
        cases value with
        | bool b => cases b <;> simp [startsAs] at hc
        | num n => simp [startsAs, isNumberChar] at hc
        | null | str s | arr items | obj fields => simp [startsAs] at hc
      have hitems : ∀ item ∈ items, ∀ other ∈ others,
          Decodes EndsValue (fun a b => sameJson a b = true) (stableJson codeUnitCompare) item other :=
        fun item hitem other hother => ih item hitem other (ha item hitem) (hb other hother)
      obtain ⟨hsame, hxy⟩ := intercalate_decodes (by decide) (ends_cons rfl) (ends_cons rfl) hstart hitems h
      exact ⟨sameItems_iff.2 hsame, hxy⟩
    | bool b => cases b <;> simp [Json.kind] at hkind
    | null | num n | str s | obj fields => simp [Json.kind] at hkind
  | obj fields ih =>
    intro b ha hb x y _ _ h
    have hkind := kind_eq h
    cases b with
    | obj others =>
      obtain ⟨-, hvalues⟩ := Json.keyed_obj.1 ha
      obtain ⟨hkeys, hothers⟩ := Json.keyed_obj.1 hb
      rw [stableJson_obj, stableJson_obj] at h
      simp only [List.cons_append, List.append_assoc, List.nil_append, List.cons.injEq, true_and] at h
      have hmem : ∀ {fields : List (String × Json)} {field}, field ∈ printedFields fields ↔ field ∈ fields :=
        (List.perm_insertionSort _ _).mem_iff
      have hfields : ∀ field ∈ printedFields fields, ∀ other ∈ printedFields others,
          Decodes EndsValue (fun field other => field.1 = other.1 ∧ sameJson field.2 other.2 = true)
            fieldText field other := by
        intro field hfield other hother u v hu hv huv
        have hfield := hmem.1 hfield
        have hother := hmem.1 hother
        simp only [fieldText, entryText, List.append_assoc, List.cons_append] at huv
        obtain ⟨hkey, hrest⟩ := quoteJson_inj huv
        obtain ⟨hvalue, huv⟩ := ih field hfield other.2 (hvalues field hfield) (hothers other hother)
          u v hu hv (List.cons.inj hrest).2
        exact ⟨⟨hkey, hvalue⟩, huv⟩
      have hstart : ∀ field, ∃ c rest, fieldText field = c :: rest ∧ c ≠ '}' :=
        fun field => ⟨'"', _, rfl, by decide⟩
      obtain ⟨hsame, hxy⟩ := intercalate_decodes (by decide) (ends_cons rfl) (ends_cons rfl) hstart hfields h
      have hlength : fields.length = others.length := by
        have hprinted := hsame.length_eq
        simpa [printedFields] using hprinted
      have hlookups : sameFields fields others = true := by
        rw [sameFields_iff]
        intro field hfield
        obtain ⟨other, hother, hkey, hvalue⟩ := forall₂_mem_left hsame (hmem.2 hfield)
        have hfound : (other.1, other.2) ∈ others := hmem.1 hother
        refine ⟨other.2, ?_, hvalue⟩
        rw [hkey]
        exact (field?_eq_some_iff hkeys).2 hfound
      exact ⟨by simp [sameJson, hlength, hlookups], hxy⟩
    | bool b => cases b <;> simp [Json.kind] at hkind
    | null | num n | str s | arr items => simp [Json.kind] at hkind

/-- Values that are the same up to the order of keys print the same. -/
theorem stableJson_eq_of_same (a : Json) : ∀ b : Json, a.keyed = true → b.keyed = true →
    sameJson a b = true → stableJson codeUnitCompare a = stableJson codeUnitCompare b := by
  induction a using Json.induction with
  | null | bool a | num m | str s =>
    intro b _ _ h
    cases b with
    | null | bool b | num n | str t | arr items | obj fields => simp_all [sameJson]
  | arr items ih =>
    intro b ha hb h
    cases b with
    | arr others =>
      rw [Json.keyed_arr] at ha hb
      have hsame := sameItems_iff.1 h
      have htexts : items.map (stableJson codeUnitCompare) = others.map (stableJson codeUnitCompare) := by
        clear h
        induction hsame with
        | nil => rfl
        | @cons item other items others hitem _ ihrest =>
          have hhead := ih item (by simp) other (ha item (by simp)) (hb other (by simp)) hitem
          have htail := ihrest (fun item hitem => ih item (by simp [hitem]))
            (fun item hitem => ha item (by simp [hitem])) (fun other hother => hb other (by simp [hother]))
          rw [List.map_cons, List.map_cons, hhead, htail]
      rw [stableJson_arr, stableJson_arr, htexts]
    | null | bool b | num n | str t | obj fields => simp [sameJson] at h
  | obj fields ih =>
    intro b ha hb h
    cases b with
    | obj others =>
      obtain ⟨hkeys, hvalues⟩ := Json.keyed_obj.1 ha
      obtain ⟨hkeys', hothers⟩ := Json.keyed_obj.1 hb
      simp only [sameJson, Bool.and_eq_true, beq_iff_eq, sameFields_iff] at h
      obtain ⟨hlength, hfields⟩ := h
      have hentry : ∀ fields : List (String × Json), (stableFields codeUnitCompare fields).map Prod.fst =
          fields.map Prod.fst := by
        intro fields
        simp [stableFields_eq]
      have hnodup : (stableFields codeUnitCompare fields).Nodup := by
        rw [← hentry] at hkeys
        exact List.Nodup.of_map _ hkeys
      have hsubset : stableFields codeUnitCompare fields ⊆ stableFields codeUnitCompare others := by
        intro entry hmem
        rw [stableFields_eq] at hmem ⊢
        obtain ⟨field, hfield, rfl⟩ := List.mem_map.1 hmem
        obtain ⟨other, hother, hvalue⟩ := hfields field hfield
        have hfound : (field.1, other) ∈ others := (field?_eq_some_iff hkeys').1 hother
        have htext := ih field hfield other (hvalues field hfield) (hothers _ hfound) hvalue
        rw [htext]
        exact List.mem_map.2 ⟨(field.1, other), hfound, rfl⟩
      have hperm : (stableFields codeUnitCompare fields).Perm (stableFields codeUnitCompare others) := by
        refine (List.subperm_of_subset hnodup hsubset).perm_of_length_le ?_
        simp [stableFields_eq, hlength]
      have hsorted := insertionSort_eq_of_perm hperm (by rw [hentry]; exact hkeys)
      simp only [stableJson, hsorted]
    | null | bool b | num n | str t | arr items => simp [sameJson] at h

theorem canonicalText_eq_iff {a b : Json} (ha : a.keyed = true) (hb : b.keyed = true) :
    canonicalText a = canonicalText b ↔ sameJson a b = true := by
  constructor
  · intro h
    have htext : stableJson codeUnitCompare a = stableJson codeUnitCompare b := String.ofList_injective h
    have hends : EndsValue [] := by simp [EndsValue]
    exact (stableJson_decodes a b ha hb [] [] hends hends (by simpa using htext)).1
  · intro h
    rw [canonicalText, canonicalText, stableJson_eq_of_same a b ha hb h]

end PlusOne
