import PlusOne.Runtime.CanonicalJson

/-! # Records as JSON

An object built from named values leaves out those that are missing. Two such objects under the same
names print the same canonical text exactly when their values do, name by name, and neither a `jsonb`
column nor the order of the keys makes a difference to that text. -/

namespace PlusOne

open List (Forall₂)

/-! ## Values the same up to the order of keys -/

theorem sameJson_refl {value : Json} (h : value.keyed = true) : sameJson value value = true :=
  (canonicalText_eq_iff h h).1 rfl

theorem sameJson_comm {a b : Json} (ha : a.keyed = true) (hb : b.keyed = true)
    (h : sameJson a b = true) : sameJson b a = true := by
  rw [← canonicalText_eq_iff ha hb] at h
  rw [← canonicalText_eq_iff hb ha]
  exact h.symm

theorem sameJson_jsonb (value : Json) : value.keyed = true → sameJson value.jsonb value = true := by
  induction value using Json.induction with
  | null | bool b | num n | str s =>
    intro h
    exact sameJson_refl h
  | arr items ih =>
    intro h
    rw [Json.keyed_arr] at h
    simp only [Json.jsonb, sameJson]
    induction items with
    | nil => rfl
    | cons item items ihitems =>
      have hhead := ih item (by simp) (h item (by simp))
      have htail := ihitems (fun item hitem => ih item (by simp [hitem]))
        (fun item hitem => h item (by simp [hitem]))
      simp [Json.jsonbItems, sameItems, hhead, htail]
  | obj fields ih =>
    intro h
    obtain ⟨hkeys, hvalues⟩ := Json.keyed_obj.1 h
    have hperm := jsonbFields_perm hkeys
    have hlength : (Json.jsonbFields fields).length = fields.length := by
      simpa using hperm.length_eq
    simp only [Json.jsonb, sameJson, hlength, BEq.rfl, Bool.true_and, sameFields_iff]
    intro field hfield
    obtain ⟨entry, hentry, rfl⟩ := List.mem_map.1 (hperm.mem_iff.1 hfield)
    have hvalue := ih entry hentry (hvalues entry hentry)
    exact ⟨entry.2, (field?_eq_some_iff hkeys).2 hentry, hvalue⟩

theorem canonicalText_jsonb {value : Json} (h : value.keyed = true) :
    canonicalText value.jsonb = canonicalText value :=
  (canonicalText_eq_iff (Json.keyed_jsonb value) h).2 (sameJson_jsonb value h)

/-! ## Records -/

/-- An object of the values that are there, under their names. -/
def record (entries : List (String × Option Json)) : Json :=
  .obj (entries.filterMap fun entry => entry.2.map fun value => (entry.1, value))

section

variable {entries others : List (String × Option Json)}

/-- The names are distinct, and so are those inside the values. -/
structure Named (entries : List (String × Option Json)) : Prop where
  distinct : (entries.map Prod.fst).Nodup
  keyed : ∀ entry ∈ entries, ∀ value ∈ entry.2, value.keyed = true

theorem mem_record {key : String} {value : Json} :
    (key, value) ∈ entries.filterMap (fun entry => entry.2.map fun value => (entry.1, value)) ↔
      (key, some value) ∈ entries := by
  simp only [List.mem_filterMap, Option.map_eq_some_iff, Prod.mk.injEq]
  constructor
  · rintro ⟨⟨name, found⟩, hmem, w, hw, rfl, rfl⟩
    have hfound : found = some w := hw
    rw [hfound] at hmem
    exact hmem
  · intro h
    exact ⟨_, h, value, rfl, rfl, rfl⟩

theorem names_sublist : List.Sublist
    ((entries.filterMap fun entry => entry.2.map fun value => (entry.1, value)).map Prod.fst)
    (entries.map Prod.fst) := by
  induction entries with
  | nil => simp
  | cons entry entries ih =>
    obtain ⟨key, value⟩ := entry
    cases value with
    | none => exact ih.cons key
    | some value => exact ih.cons_cons key

theorem Named.nodup (h : Named entries) :
    ((entries.filterMap fun entry => entry.2.map fun value => (entry.1, value)).map Prod.fst).Nodup :=
  h.distinct.sublist names_sublist

theorem keyed_record (h : Named entries) : (record entries).keyed = true := by
  rw [record, Json.keyed_obj]
  constructor
  · exact h.nodup
  · intro field hfield
    exact h.keyed _ (mem_record.1 hfield) field.2 rfl

theorem field?_record (h : Named entries) {entry : String × Option Json} (hentry : entry ∈ entries) :
    (record entries).field? entry.1 = entry.2 := by
  obtain ⟨key, value⟩ := entry
  cases value with
  | some value => exact (field?_eq_some_iff h.nodup).2 (mem_record.2 hentry)
  | none =>
    rw [Option.eq_none_iff_forall_ne_some]
    intro value hvalue
    have hmem := mem_record.1 ((field?_eq_some_iff h.nodup).1 hvalue)
    have heq := List.inj_on_of_nodup_map h.distinct hentry hmem rfl
    cases heq

/-- Equal objects have the same values under every key. -/
theorem sameJson_field? {a b : List (String × Json)} (ha : (Json.obj a).keyed = true)
    (hb : (Json.obj b).keyed = true) (h : sameJson (.obj a) (.obj b) = true) (key : String) :
    Option.Rel (fun v w => sameJson v w = true) ((Json.obj a).field? key) ((Json.obj b).field? key) := by
  have hback := sameJson_comm ha hb h
  have hsub : ∀ {a b : List (String × Json)}, (Json.obj a).keyed = true →
      sameJson (.obj a) (.obj b) = true → ∀ {v}, (Json.obj a).field? key = some v →
        ∃ w, (Json.obj b).field? key = some w ∧ sameJson v w = true := by
    intro a b ha h v hv
    simp only [sameJson, Bool.and_eq_true, sameFields_iff] at h
    exact h.2 (key, v) ((field?_eq_some_iff (Json.keyed_obj.1 ha).1).1 hv)
  cases hv : (Json.obj a).field? key with
  | some v =>
    obtain ⟨w, hw, hsame⟩ := hsub ha h hv
    rw [hw]
    exact .some hsame
  | none =>
    cases hw : (Json.obj b).field? key with
    | none => exact .none
    | some w =>
      obtain ⟨v, hv', -⟩ := hsub hb hback hw
      rw [hv] at hv'
      cases hv'

/-- Two entries have the same name, and values that are both missing or the same. -/
def SameEntry (entry other : String × Option Json) : Prop :=
  entry.1 = other.1 ∧ Option.Rel (fun v w => sameJson v w = true) entry.2 other.2

theorem forall₂_imp_mem {α β : Type*} {R S : α → β → Prop} {as : List α} {bs : List β}
    (h : Forall₂ R as bs) (himp : ∀ a ∈ as, ∀ b ∈ bs, R a b → S a b) : Forall₂ S as bs := by
  induction h with
  | nil => exact .nil
  | cons hR _ ih =>
    refine .cons (himp _ (by simp) _ (by simp) hR) (ih ?_)
    intro a ha b hb
    exact himp a (by simp [ha]) b (by simp [hb])

theorem length_record (h : Forall₂ SameEntry entries others) :
    (entries.filterMap fun entry => entry.2.map fun value => (entry.1, value)).length =
      (others.filterMap fun entry => entry.2.map fun value => (entry.1, value)).length := by
  induction h with
  | nil => rfl
  | @cons entry other entries others hsame _ ih =>
    obtain ⟨key, value⟩ := entry
    obtain ⟨key', value'⟩ := other
    obtain ⟨-, hvalue⟩ := hsame
    cases hvalue with
    | none => simpa using ih
    | some _ => simpa using ih

theorem canonicalText_record_iff (h : Named entries) (h' : Named others)
    (hnames : entries.map Prod.fst = others.map Prod.fst) :
    canonicalText (record entries) = canonicalText (record others) ↔
      Forall₂ SameEntry entries others := by
  rw [canonicalText_eq_iff (keyed_record h) (keyed_record h')]
  constructor
  · intro hsame
    have hnamed : Forall₂ (fun entry other => entry.1 = other.1) entries others := by
      have heq : Forall₂ Eq (entries.map Prod.fst) (others.map Prod.fst) := by
        rw [hnames]
        exact List.forall₂_refl _
      simpa using heq
    apply forall₂_imp_mem hnamed
    intro entry hentry other hother hname
    have hrel := sameJson_field? (keyed_record h) (keyed_record h') hsame entry.1
    have hfound := field?_record h hentry
    have hfound' := field?_record h' hother
    rw [record] at hfound hfound'
    rw [hfound, hname, hfound'] at hrel
    exact ⟨hname, hrel⟩
  · intro hsame
    have hlength := length_record hsame
    simp only [record, sameJson, hlength, BEq.rfl, Bool.true_and, sameFields_iff]
    intro field hfield
    obtain ⟨other, hother, hname, hvalue⟩ := forall₂_mem_left hsame (mem_record.1 hfield)
    have hfound := field?_record h' hother
    obtain ⟨name, found⟩ := other
    cases hvalue with
    | @some _ w hw =>
      cases hname
      exact ⟨w, hfound, hw⟩

end

/-! ## Types that can be told from their JSON -/

/-- The JSON of two values is the same, up to the order of keys, only when they are equal. -/
structure Faithful {α : Type*} (json : α → Json) : Prop where
  keyed : ∀ a, (json a).keyed = true
  same_iff : ∀ a b, sameJson (json a) (json b) = true ↔ a = b

namespace Faithful

variable {α : Type*} {json : α → Json}

theorem canonicalText_iff (h : Faithful json) {a b : α} :
    canonicalText (json a) = canonicalText (json b) ↔ a = b := by
  rw [canonicalText_eq_iff (h.keyed a) (h.keyed b), h.same_iff]

theorem str {f : α → String} (hf : Function.Injective f) : Faithful fun a => .str (f a) where
  keyed := fun _ => rfl
  same_iff := by
    intro a b
    simp only [sameJson, beq_iff_eq]
    exact hf.eq_iff

theorem arr (h : Faithful json) : Faithful fun as : List α => .arr (as.map json) where
  keyed := by
    intro as
    rw [Json.keyed_arr]
    intro item hitem
    obtain ⟨a, -, rfl⟩ := List.mem_map.1 hitem
    exact h.keyed a
  same_iff := by
    intro as bs
    simp only [sameJson, sameItems_iff]
    induction as generalizing bs with
    | nil => cases bs <;> simp
    | cons a as ih =>
      cases bs with
      | nil => simp
      | cons b bs => simp [h.same_iff, ih]

theorem rel_map_iff (h : Faithful json) {a b : Option α} :
    Option.Rel (fun v w => sameJson v w = true) (a.map json) (b.map json) ↔ a = b := by
  cases a with
  | none => cases b <;> simp
  | some a =>
    cases b with
    | none => simp
    | some b => simp [h.same_iff]

theorem of_record {entries : α → List (String × Option Json)} (hnamed : ∀ a, Named (entries a))
    (hnames : ∀ a b, (entries a).map Prod.fst = (entries b).map Prod.fst)
    (hiff : ∀ a b, Forall₂ SameEntry (entries a) (entries b) ↔ a = b) :
    Faithful fun a => record (entries a) where
  keyed := fun a => keyed_record (hnamed a)
  same_iff := by
    intro a b
    rw [← canonicalText_eq_iff (keyed_record (hnamed a)) (keyed_record (hnamed b)),
      canonicalText_record_iff (hnamed a) (hnamed b) (hnames a b), hiff]

end Faithful

end PlusOne
