import Mathlib.Data.List.Sort
import Mathlib.Data.Char
import Mathlib.Data.List.Lex
import PlusOne.Contracts.Json

/-! # The `jsonb` normal form

A `jsonb` column keeps one entry per key, the last one given, ordered by the length of
the key and then by its bytes. -/

namespace PlusOne

/-- The order in which `jsonb` stores keys. -/
def keyBefore (k l : String) : Bool :=
  decide (k.utf8ByteSize < l.utf8ByteSize) ||
    (k.utf8ByteSize == l.utf8ByteSize && decide (k.toList < l.toList))

/-- Put an entry that was given before all of `fields` in its place; a later entry wins. -/
def insertField (k : String) (v : Json) : List (String × Json) → List (String × Json)
  | [] => [(k, v)]
  | (l, w) :: fields =>
    if k = l then (l, w) :: fields
    else if keyBefore k l then (k, v) :: (l, w) :: fields
    else (l, w) :: insertField k v fields

namespace Json

mutual

def jsonb : Json → Json
  | .null => .null
  | .bool b => .bool b
  | .num n => .num n
  | .str s => .str s
  | .arr items => .arr (jsonbItems items)
  | .obj fields => .obj (jsonbFields fields)

def jsonbItems : List Json → List Json
  | [] => []
  | item :: items => item.jsonb :: jsonbItems items

def jsonbFields : List (String × Json) → List (String × Json)
  | [] => []
  | (k, v) :: fields => insertField k v.jsonb (jsonbFields fields)

end

end Json

theorem keyBefore_irrefl (k : String) : keyBefore k k = false := by simp [keyBefore]

theorem keyBefore_trans {k l m : String} (h : keyBefore k l = true) (h' : keyBefore l m = true) :
    keyBefore k m = true := by
  simp only [keyBefore, Bool.or_eq_true, Bool.and_eq_true, decide_eq_true_eq, beq_iff_eq] at *
  rcases h with h | ⟨h, hlt⟩ <;> rcases h' with h' | ⟨h', hlt'⟩
  · exact .inl (h.trans h')
  · exact .inl (h' ▸ h)
  · exact .inl (h ▸ h')
  · exact .inr ⟨h.trans h', hlt.trans hlt'⟩

theorem keyBefore_total {k l : String} (h : k ≠ l) :
    keyBefore k l = true ∨ keyBefore l k = true := by
  simp only [keyBefore, Bool.or_eq_true, Bool.and_eq_true, decide_eq_true_eq, beq_iff_eq]
  rcases lt_trichotomy k.utf8ByteSize l.utf8ByteSize with hlt | heq | hgt
  · exact .inl (.inl hlt)
  · have hne : k.toList ≠ l.toList := fun h' => h (String.toList_injective h')
    rcases lt_or_gt_of_ne hne with hlt | hgt
    · exact .inl (.inr ⟨heq, hlt⟩)
    · exact .inr (.inr ⟨heq.symm, hgt⟩)
  · exact .inr (.inl hgt)

/-- Entries in `jsonb` order, hence with distinct keys. -/
def KeySorted (fields : List (String × Json)) : Prop :=
  fields.Pairwise fun a b => keyBefore a.1 b.1 = true

variable {fields : List (String × Json)} {k : String} {v : Json}

theorem mem_insertField {entry : String × Json} (h : entry ∈ insertField k v fields) :
    entry = (k, v) ∨ entry ∈ fields := by
  induction fields with
  | nil => simpa [insertField] using h
  | cons field fields ih =>
    obtain ⟨l, w⟩ := field
    unfold insertField at h
    split_ifs at h with hkl hlt
    · exact .inr h
    · simpa using h
    · rcases List.mem_cons.1 h with rfl | h
      · exact .inr (by simp)
      · exact (ih h).imp_right fun h => List.mem_cons_of_mem _ h

theorem insertField_sorted (h : KeySorted fields) : KeySorted (insertField k v fields) := by
  induction fields with
  | nil => simp [insertField, KeySorted]
  | cons field fields ih =>
    obtain ⟨l, w⟩ := field
    have htail : KeySorted fields := (List.pairwise_cons.1 h).2
    have hhead := (List.pairwise_cons.1 h).1
    unfold insertField
    split_ifs with hkl hlt
    · exact h
    · refine List.pairwise_cons.2 ⟨fun entry hentry => ?_, h⟩
      rcases List.mem_cons.1 hentry with rfl | hentry
      · exact hlt
      · exact keyBefore_trans hlt (hhead entry hentry)
    · refine List.pairwise_cons.2 ⟨fun entry hentry => ?_, ih htail⟩
      have hlk : keyBefore l k = true := (keyBefore_total hkl).resolve_left hlt
      rcases mem_insertField hentry with rfl | hentry
      · exact hlk
      · exact hhead entry hentry

theorem insertField_first (h : KeySorted ((k, v) :: fields)) : insertField k v fields = (k, v) :: fields := by
  cases fields with
  | nil => rfl
  | cons field fields =>
    obtain ⟨l, w⟩ := field
    have hkl : keyBefore k l = true := (List.pairwise_cons.1 h).1 (l, w) (by simp)
    have hne : k ≠ l := fun heq => by
      rw [heq, keyBefore_irrefl] at hkl
      exact absurd hkl (by decide)
    simp [insertField, hne, hkl]

theorem jsonbFields_sorted (fields : List (String × Json)) : KeySorted (Json.jsonbFields fields) := by
  induction fields with
  | nil => simp [Json.jsonbFields, KeySorted]
  | cons field fields ih =>
    obtain ⟨k, v⟩ := field
    simp only [Json.jsonbFields]
    exact insertField_sorted ih

theorem jsonbFields_of_sorted (h : KeySorted fields) (hv : ∀ entry ∈ fields, entry.2.jsonb = entry.2) :
    Json.jsonbFields fields = fields := by
  induction fields with
  | nil => rfl
  | cons field fields ih =>
    obtain ⟨k, v⟩ := field
    have htail := ih (List.pairwise_cons.1 h).2 fun entry hentry => hv entry (by simp [hentry])
    have hhead : v.jsonb = v := hv (k, v) (by simp)
    rw [Json.jsonbFields, htail, hhead, insertField_first h]

mutual

theorem Json.jsonb_idem : (j : Json) → j.jsonb.jsonb = j.jsonb
  | .null | .bool _ | .num _ | .str _ => rfl
  | .arr items => by simp only [Json.jsonb, Json.jsonbItems_idem items]
  | .obj fields => by
    have hvalues := Json.jsonbFields_values fields
    simp only [Json.jsonb]
    rw [jsonbFields_of_sorted (jsonbFields_sorted fields) hvalues]

theorem Json.jsonbItems_idem : (items : List Json) →
    Json.jsonbItems (Json.jsonbItems items) = Json.jsonbItems items
  | [] => rfl
  | item :: items => by
    simp only [Json.jsonbItems, Json.jsonb_idem item, Json.jsonbItems_idem items]

theorem Json.jsonbFields_values : (fields : List (String × Json)) →
    ∀ entry ∈ Json.jsonbFields fields, entry.2.jsonb = entry.2
  | [] => by simp [Json.jsonbFields]
  | (k, v) :: fields => by
    intro entry hentry
    rcases mem_insertField (by simpa [Json.jsonbFields] using hentry) with rfl | hentry
    · exact Json.jsonb_idem v
    · exact Json.jsonbFields_values fields entry hentry

end

theorem KeySorted.nodup (h : KeySorted fields) :
    (fields.map Prod.fst).Nodup := by
  rw [List.Nodup, List.pairwise_map]
  refine h.imp ?_
  intro a b hbefore heq
  rw [heq, keyBefore_irrefl] at hbefore
  cases hbefore

theorem keyedFields_of_forall (h : ∀ entry ∈ fields, entry.2.keyed = true) : Json.keyedFields fields = true := by
  induction fields with
  | nil => rfl
  | cons field fields ih =>
    obtain ⟨k, v⟩ := field
    have hhead : v.keyed = true := h (k, v) (by simp)
    have htail := ih fun entry hentry => h entry (by simp [hentry])
    simp [Json.keyedFields, hhead, htail]

mutual

theorem Json.keyed_jsonb : (j : Json) → j.jsonb.keyed = true
  | .null | .bool _ | .num _ | .str _ => rfl
  | .arr items => Json.keyed_jsonbItems items
  | .obj fields => by
    have hvalues := keyedFields_of_forall (Json.keyed_jsonbFields fields)
    have hkeys := (jsonbFields_sorted fields).nodup
    simp [Json.jsonb, Json.keyed, hvalues, hkeys]

theorem Json.keyed_jsonbItems : (items : List Json) →
    Json.keyedItems (Json.jsonbItems items) = true
  | [] => rfl
  | item :: items => by
    simp [Json.jsonbItems, Json.keyedItems, Json.keyed_jsonb item, Json.keyed_jsonbItems items]

theorem Json.keyed_jsonbFields : (fields : List (String × Json)) →
    ∀ entry ∈ Json.jsonbFields fields, entry.2.keyed = true
  | [] => by simp [Json.jsonbFields]
  | (k, v) :: fields => by
    intro entry hentry
    rcases mem_insertField (by simpa [Json.jsonbFields] using hentry) with rfl | hentry
    · exact Json.keyed_jsonb v
    · exact Json.keyed_jsonbFields fields entry hentry

end

theorem insertField_perm (h : k ∉ fields.map Prod.fst) : (insertField k v fields).Perm ((k, v) :: fields) := by
  induction fields with
  | nil => exact .refl _
  | cons field fields ih =>
    obtain ⟨l, w⟩ := field
    simp only [List.map_cons, List.mem_cons, not_or] at h
    unfold insertField
    rw [if_neg h.1]
    split_ifs
    · exact .refl _
    · exact ((ih h.2).cons (l, w)).trans (.swap (k, v) (l, w) fields)

theorem jsonbFields_perm (h : (fields.map Prod.fst).Nodup) :
    (Json.jsonbFields fields).Perm (fields.map fun entry => (entry.1, entry.2.jsonb)) := by
  induction fields with
  | nil => exact .refl _
  | cons field fields ih =>
    obtain ⟨k, v⟩ := field
    have hperm := ih (List.nodup_cons.1 h).2
    have hkeys : k ∉ (Json.jsonbFields fields).map Prod.fst := by
      rw [(hperm.map Prod.fst).mem_iff, List.map_map]
      exact (List.nodup_cons.1 h).1
    exact (insertField_perm hkeys).trans (hperm.cons (k, v.jsonb))

/-! ## What is read from a stored value -/

theorem keyedFields_iff :
    Json.keyedFields fields = true ↔ ∀ entry ∈ fields, entry.2.keyed = true := by
  constructor
  · intro h
    induction fields with
    | nil => simp
    | cons field fields ih =>
      obtain ⟨k, v⟩ := field
      simp only [Json.keyedFields, Bool.and_eq_true] at h
      simpa [h.1] using ih h.2
  · exact keyedFields_of_forall

/-- Where keys are distinct, a key finds exactly the entry it has. -/
theorem field?_eq_some_iff (h : (fields.map Prod.fst).Nodup) :
    (Json.obj fields).field? k = some v ↔ (k, v) ∈ fields := by
  induction fields with
  | nil => simp [Json.field?]
  | cons field fields ih =>
    obtain ⟨l, w⟩ := field
    have htail := ih (List.nodup_cons.1 h).2
    by_cases hkl : l = k
    · subst hkl
      have hout : (l, v) ∉ fields := fun hmem =>
        (List.nodup_cons.1 h).1 (List.mem_map.2 ⟨(l, v), hmem, rfl⟩)
      simp [Json.field?, hout, eq_comm]
    · have hstep : (Json.obj ((l, w) :: fields)).field? k = (Json.obj fields).field? k := by
        simp [Json.field?, hkl]
      rw [hstep, htail]
      simp [Ne.symm hkl]

theorem Json.keyed_field? {value item : Json} (h : value.keyed = true) (hitem : value.field? k = some item) :
    item.keyed = true := by
  cases value with
  | obj fields =>
    simp only [Json.keyed, Bool.and_eq_true, decide_eq_true_eq] at h
    have hmem := (field?_eq_some_iff h.1).1 hitem
    exact keyedFields_iff.1 h.2 _ hmem
  | _ => simp [Json.field?] at hitem

theorem Json.field?_jsonb {value : Json} (h : value.keyed = true) (k : String) :
    value.jsonb.field? k = (value.field? k).map Json.jsonb := by
  cases value with
  | obj fields =>
    simp only [Json.keyed, Bool.and_eq_true, decide_eq_true_eq] at h
    have hperm := jsonbFields_perm h.1
    apply Option.ext
    intro v
    rw [Json.jsonb, field?_eq_some_iff (jsonbFields_sorted fields).nodup, hperm.mem_iff,
      List.mem_map, Option.map_eq_some_iff]
    constructor
    · rintro ⟨⟨l, w⟩, hmem, hsame⟩
      obtain ⟨rfl, rfl⟩ := Prod.mk.inj hsame
      exact ⟨w, (field?_eq_some_iff h.1).2 hmem, rfl⟩
    · rintro ⟨w, hfield, rfl⟩
      exact ⟨(k, w), (field?_eq_some_iff h.1).1 hfield, rfl⟩
  | _ => rfl

/-- A strict object whose checks do not see what `jsonb` does is one also where it is stored. -/
theorem Json.isStrictObject_jsonb {value : Json} {shape : List (String × (Json → Bool))}
    (h : value.keyed = true)
    (hshape : ∀ rule ∈ shape, ∀ item : Json, item.keyed = true → rule.2 item.jsonb = rule.2 item) :
    value.jsonb.isStrictObject shape = value.isStrictObject shape := by
  cases value with
  | obj fields =>
    have hkeyed := h
    simp only [Json.keyed, Bool.and_eq_true, decide_eq_true_eq] at h
    have hkeys : ((Json.jsonbFields fields).all fun entry => shape.any fun rule => rule.1 == entry.1) =
        fields.all fun entry => shape.any fun rule => rule.1 == entry.1 := by
      rw [(jsonbFields_perm h.1).all_eq, List.all_map]
      rfl
    simp only [Json.jsonb, Json.isStrictObject]
    rw [hkeys]
    congr 1
    rw [Bool.eq_iff_iff, List.all_eq_true, List.all_eq_true]
    apply forall₂_congr
    intro rule hrule
    have hfield := Json.field?_jsonb hkeyed rule.1
    rw [Json.jsonb] at hfield
    rw [hfield]
    cases hitem : (Json.obj fields).field? rule.1 with
    | none => rfl
    | some item => exact Bool.eq_iff_iff.1 (hshape rule hrule item (Json.keyed_field? hkeyed hitem))
  | _ => rfl

theorem Json.isArrayOf_jsonb {value : Json} {check : Json → Bool} (h : value.keyed = true)
    (hcheck : ∀ item : Json, item.keyed = true → check item.jsonb = check item) :
    Json.isArrayOf check value.jsonb = Json.isArrayOf check value := by
  cases value with
  | arr items =>
    have hitems : Json.keyedItems items = true := h
    simp only [Json.jsonb, Json.isArrayOf]
    clear h
    induction items with
    | nil => rfl
    | cons item items ih =>
      simp only [Json.keyedItems, Bool.and_eq_true] at hitems
      simp only [Json.jsonbItems, List.all_cons, hcheck item hitems.1, ih hitems.2]
  | _ => rfl

theorem Json.isNonemptyString_jsonb (value : Json) :
    Json.isNonemptyString value.jsonb = Json.isNonemptyString value := by
  cases value <;> rfl

end PlusOne
