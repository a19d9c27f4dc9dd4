import PlusOne.Memory.Review
import PlusOne.Runtime.Records

/-! # Canonical values of working memory

A valid value has a canonical form, and two values have the same one exactly when they differ at most in
the order of their keys. -/

namespace PlusOne

/-! ## Sorted values -/

theorem sortedItems_eq (items : List Json) : sortJson.sortedItems items = items.map sortJson := by
  induction items with
  | nil => rfl
  | cons item items ih => simp [sortJson.sortedItems, sortJson, ih]

theorem sortedFields_eq (fields : List (String × Json)) :
    sortJson.sortedFields fields = fields.map fun field => (field.1, sortJson field.2) := by
  induction fields with
  | nil => rfl
  | cons field fields ih => simp [sortJson.sortedFields, sortJson, ih]

theorem sortJson_arr (items : List Json) : sortJson (.arr items) = .arr (items.map sortJson) := by
  rw [← sortedItems_eq]
  rfl

theorem sortJson_obj (fields : List (String × Json)) :
    sortJson (.obj fields) = .obj (sortFields (fields.map fun field => (field.1, sortJson field.2))) := by
  rw [← sortedFields_eq]
  rfl

theorem map_sortFields {α β : Type} (f : α → β) (fields : List (String × α)) :
    (sortFields fields).map (fun field => (field.1, f field.2)) =
      sortFields (fields.map fun field => (field.1, f field.2)) :=
  List.map_insertionSort _ _ _ _ fun _ _ _ _ => Iff.rfl

theorem insertionSort_level (entries : List (String × List Char)) :
    entries.insertionSort (localeLe fun _ _ => .eq) = entries := by
  induction entries with
  | nil => rfl
  | cons entry entries ih =>
    rw [List.insertionSort_cons, ih]
    cases entries with
    | nil => rfl
    | cons next rest => simp [List.orderedInsert, localeLe]

/-- The text of a sorted value is its canonical text. -/
theorem stableJson_sortJson (value : Json) :
    stableJson (fun _ _ => .eq) (sortJson value) = stableJson codeUnitCompare value := by
  induction value using Json.induction with
  | null | num n | str s => rfl
  | bool b => cases b <;> rfl
  | arr items ih =>
    rw [sortJson_arr]
    simp only [stableJson, stableItems_eq, List.map_map]
    have hitems : items.map (stableJson (fun _ _ => .eq) ∘ sortJson) = items.map (stableJson codeUnitCompare) :=
      List.map_congr_left ih
    rw [hitems]
  | obj fields ih =>
    have htexts : (fields.map fun field => (field.1, sortJson field.2)).map
        (fun field => (field.1, stableJson (fun _ _ => .eq) field.2)) =
          fields.map fun field => (field.1, stableJson codeUnitCompare field.2) := by
      rw [List.map_map]
      refine List.map_congr_left ?_
      intro field hfield
      simp [ih field hfield]
    have hsorted : sortFields (fields.map fun field => (field.1, stableJson codeUnitCompare field.2)) =
        (fields.map fun field => (field.1, stableJson codeUnitCompare field.2)).insertionSort
          (localeLe codeUnitCompare) := by
      have hmap := List.map_insertionSort (fun entry other : String × List Char => codeUnitLe entry.1 other.1)
        (localeLe codeUnitCompare) id (fields.map fun field => (field.1, stableJson codeUnitCompare field.2))
      simp only [List.map_id] at hmap
      refine hmap ?_
      intro entry _ other _
      rw [id_eq, id_eq, localeLe_codeUnitCompare, codeUnitLe_iff]
    rw [sortJson_obj]
    simp only [stableJson, stableFields_eq, insertionSort_level, map_sortFields, htexts, hsorted]

theorem stringify_sortJson (value : Json) : stringify (sortJson value) = canonicalText value := by
  rw [stringify, stableJson_sortJson, canonicalText]

/-! ## The canonical form of a value -/

theorem canonicalizeFields_eq (fields : List (String × Json)) :
    canonicalizeFields fields = fields.map fun field =>
      (field.1, if dangerousWorkingMemoryKeys.contains field.1 then .error (keyNotAllowed field.1)
        else canonicalizeWorkingMemoryValue field.2) := by
  induction fields with
  | nil => rfl
  | cons field fields ih => simp [canonicalizeFields, ih]

theorem canonicalizeItems_ok {items : List Json}
    (h : ∀ item ∈ items, canonicalizeWorkingMemoryValue item = .ok (sortJson item)) :
    canonicalizeItems items = .ok (items.map sortJson) := by
  induction items with
  | nil => rfl
  | cons item items ih =>
    have hitem := h item (by simp)
    have hitems := ih fun item hitem => h item (by simp [hitem])
    simp only [canonicalizeItems, hitem, hitems]
    rfl

theorem mapM_canonicalField (fields : List (String × Json)) :
    (fields.map fun field => (field.1, (.ok field.2 : Except Thrown Json))).mapM canonicalField = .ok fields := by
  induction fields with
  | nil => rfl
  | cons field fields ih =>
    rw [List.map_cons, List.mapM_cons, ih]
    rfl

theorem canonicalize_obj {fields : List (String × Json)}
    (hkeys : ∀ field ∈ fields, dangerousWorkingMemoryKeys.contains field.1 = false)
    (hvalues : ∀ field ∈ fields, canonicalizeWorkingMemoryValue field.2 = .ok (sortJson field.2)) :
    canonicalizeWorkingMemoryValue (.obj fields) = .ok (sortJson (.obj fields)) := by
  have hfields : canonicalizeFields fields = (fields.map fun field => (field.1, sortJson field.2)).map
      fun field => (field.1, (.ok field.2 : Except Thrown Json)) := by
    rw [canonicalizeFields_eq, List.map_map]
    refine List.map_congr_left ?_
    intro field hfield
    simp only [Function.comp_apply, hkeys field hfield, hvalues field hfield, Bool.false_eq_true, if_false]
  rw [canonicalizeWorkingMemoryValue, hfields, ← map_sortFields, mapM_canonicalField, sortJson_obj]
  rfl

/-- A valid value has a canonical form, the sorted value. -/
theorem canonicalize_ok (value : Json) : ∀ depth, isWorkingMemoryValue depth value = true →
    canonicalizeWorkingMemoryValue value = .ok (sortJson value) := by
  induction value using Json.induction with
  | null | bool b | num n | str s =>
    intro depth _
    rfl
  | arr items ih =>
    intro depth h
    simp only [isWorkingMemoryValue, Bool.and_eq_true, areWorkingMemoryItems_iff] at h
    have hitems := canonicalizeItems_ok fun item hitem => ih item hitem (depth + 1) (h.2 item hitem)
    rw [canonicalizeWorkingMemoryValue, hitems, sortJson_arr]
    rfl
  | obj fields ih =>
    intro depth h
    simp only [isWorkingMemoryValue, Bool.and_eq_true, areWorkingMemoryFields_iff] at h
    refine canonicalize_obj ?_ ?_
    · intro field hfield
      have hkey := (h.2 field hfield).1
      simp only [isWorkingMemoryKey, Bool.and_eq_true, Bool.not_eq_true'] at hkey
      exact hkey.2
    · intro field hfield
      exact ih field hfield (depth + 1) (h.2 field hfield).2

/-! ## Entries up to their stamps -/

namespace WorkingMemoryEntry

/-- The two entries differ at most in their lifecycles and in the order of keys in their values. -/
def sameFacts (entry other : WorkingMemoryEntry) : Bool :=
  entry.kind == other.kind && entry.summary == other.summary && entry.scope == other.scope &&
    entry.ownerPrincipalRef == other.ownerPrincipalRef && sameJson entry.value other.value

/-- What is compared of an entry. -/
def facts (entry : WorkingMemoryEntry) : List (String × Option Json) :=
  [("kind", some (.str entry.kind.text)), ("summary", some (.str entry.summary)),
    ("scope", some (.str entry.scope.text)), ("ownerPrincipalRef", entry.ownerPrincipalRef.map .str),
    ("value", some entry.value)]

variable {T : TimeFormats} {entry other : WorkingMemoryEntry}

theorem toJson_unstamped (entry : WorkingMemoryEntry) : { entry with lifecycle := none }.toJson = record entry.facts := by
  unfold toJson record facts optionalField
  cases entry.ownerPrincipalRef <;> rfl

theorem facts_named (entry : WorkingMemoryEntry) : Named entry.facts where
  distinct := by simp [facts]
  keyed := by
    have hvalue := entry.value_keyed
    unfold facts
    cases entry.ownerPrincipalRef <;> simp [Json.keyed, hvalue]

theorem kind_text_injective : Function.Injective WorkingMemoryKind.text := by
  intro kind other h
  cases kind <;> cases other <;> first | rfl | simp [WorkingMemoryKind.text] at h

theorem scope_text_injective : Function.Injective MemoryScope.text := by
  intro scope other h
  cases scope <;> cases other <;> first | rfl | simp [MemoryScope.text] at h

theorem canonicalText_facts_iff :
    canonicalText (record entry.facts) = canonicalText (record other.facts) ↔ entry.sameFacts other = true := by
  rw [canonicalText_record_iff entry.facts_named other.facts_named rfl]
  have howner : Option.Rel (fun v w => sameJson v w = true) (entry.ownerPrincipalRef.map Json.str)
      (other.ownerPrincipalRef.map Json.str) ↔ entry.ownerPrincipalRef = other.ownerPrincipalRef :=
    (Faithful.str (f := id) Function.injective_id).rel_map_iff
  simp only [facts, sameFacts, List.forall₂_cons, List.Forall₂.nil, SameEntry, true_and, and_true, howner,
    Option.rel_some_some, sameJson, beq_iff_eq, kind_text_injective.eq_iff, scope_text_injective.eq_iff,
    Bool.and_eq_true, and_assoc]

end WorkingMemoryEntry

end PlusOne
