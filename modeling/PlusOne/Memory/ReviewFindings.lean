import Mathlib
import PlusOne.Memory.ReviewOrder

/-! # What a review finds

The findings on the entries a principal may access, as a list before it is sorted, and the order in which
they are sorted. -/

namespace PlusOne

open Sorting

/-! ## The fingerprint of an entry -/

/-- The fingerprint by which duplicates are told. -/
def factOf (P : Platform) (item : ReviewEntry) : Option ArtifactHash :=
  (workingMemoryEntryFingerprint P item.2).toOption

theorem fingerprint_ok {T : TimeFormats} (P : Platform) {entry : WorkingMemoryEntry} (h : entry.valid T = true) :
    ∃ hash, workingMemoryEntryFingerprint P entry = .ok hash := by
  have hvalue : isWorkingMemoryValue 0 entry.value = true := by
    simp only [WorkingMemoryEntry.valid, Bool.and_eq_true] at h
    exact h.1.1.2
  have howner : canonicalizeWorkingMemoryValue (ownerOrNull entry.ownerPrincipalRef) =
      .ok (sortJson (ownerOrNull entry.ownerPrincipalRef)) := by
    cases entry.ownerPrincipalRef <;> rfl
  have hcanonical : canonicalizeWorkingMemoryValue (.obj [("kind", .str entry.kind.text),
      ("scope", .str entry.scope.text), ("ownerPrincipalRef", ownerOrNull entry.ownerPrincipalRef),
      ("value", entry.value)]) = .ok (sortJson (.obj [("kind", .str entry.kind.text),
      ("scope", .str entry.scope.text), ("ownerPrincipalRef", ownerOrNull entry.ownerPrincipalRef),
      ("value", entry.value)])) := by
    apply canonicalize_obj
    · intro field hfield
      simp only [List.mem_cons, List.not_mem_nil, or_false] at hfield
      rcases hfield with rfl | rfl | rfl | rfl <;> rfl
    · intro field hfield
      simp only [List.mem_cons, List.not_mem_nil, or_false] at hfield
      rcases hfield with rfl | rfl | rfl | rfl
      · rfl
      · rfl
      · exact howner
      · exact canonicalize_ok entry.value 0 hvalue
  unfold workingMemoryEntryFingerprint
  rw [hcanonical]
  exact ⟨_, rfl⟩

/-- The fingerprints are looked up under the identifiers of the entries. -/
theorem mapM_fingerprints {f : ReviewEntry → Except Thrown ArtifactHash} {items : List ReviewEntry}
    (hf : ∀ item ∈ items, ∃ hash, f item = .ok hash) (hdistinct : (items.map Prod.fst).Nodup) :
    ∃ hashes, items.mapM f = .ok hashes ∧ ∀ item ∈ items,
      ((items.zip hashes).find? fun pair => pair.1.1 == item.1).map Prod.snd = (f item).toOption := by
  induction items with
  | nil => exact ⟨[], rfl, by simp⟩
  | cons head rest ih =>
    obtain ⟨hash, hhash⟩ := hf head (by simp)
    rw [List.map_cons, List.nodup_cons] at hdistinct
    obtain ⟨hashes, hhashes, hfind⟩ := ih (fun item hitem => hf item (by simp [hitem])) hdistinct.2
    refine ⟨hash :: hashes, ?_, ?_⟩
    · rw [List.mapM_cons, hhash, hhashes]
      rfl
    · intro item hitem
      rw [List.zip_cons_cons, List.find?_cons]
      rcases List.mem_cons.1 hitem with rfl | hrest
      · simp [hhash, Except.toOption]
      · have hne : head.1 ≠ item.1 := by
          intro heq
          apply hdistinct.1
          rw [heq]
          exact List.mem_map_of_mem hrest
        have hbeq : (head.1 == item.1) = false := by simpa using hne
        rw [hbeq]
        exact hfind item hrest

/-! ## Identifiers in one text -/

def isIdChar (c : Char) : Bool := c.isAlphanum || c == '_' || c == ','

/-- What is relied on of `localeCompare`: it puts all texts in order, and two texts of letters, digits,
underscores and commas are level only if they are the same. -/
structure Collates (localeCompare : String → String → Ordering) : Prop where
  swap : ∀ s t, localeCompare t s = (localeCompare s t).swap
  trans : ∀ s t u, (localeCompare s t).isLE = true → (localeCompare t u).isLE = true →
    (localeCompare s u).isLE = true
  eq_of_level : ∀ s t, s.toList.all isIdChar = true → t.toList.all isIdChar = true →
    localeCompare s t = .eq → s = t

theorem text_idChars (id : WorkingMemoryEntryId) : ∀ c ∈ id.text.toList, isIdChar c = true ∧ c ≠ ',' := by
  have hsuffix := id.crockford
  simp only [IdKind.admits, Bool.and_eq_true, List.all_eq_true] at hsuffix
  intro c hc
  simp only [OpaqueId.text, String.toList_append, List.mem_append] at hc
  rcases hc with (hc | hc) | hc
  · have hprefix : c = 'w' ∨ c = 'm' ∨ c = 'e' := by simpa [IdKind.idPrefix] using hc
    rcases hprefix with rfl | rfl | rfl <;> decide
  · have hunderscore : c = '_' := by simpa using hc
    subst hunderscore
    decide
  · have hcrockford := hsuffix.2 c hc
    have halphanum : c.isAlphanum = true := by
      simp only [isCrockford, Bool.or_eq_true, Bool.and_eq_true, decide_eq_true_eq] at hcrockford
      simp only [Char.isAlphanum, Char.isAlpha, Char.isUpper, Bool.or_eq_true, decide_eq_true_eq]
      rcases hcrockford with hdigit | ⟨⟨hlow, hhigh⟩, -⟩
      · exact Or.inr hdigit
      · exact Or.inl (Or.inl ⟨hlow, hhigh⟩)
    constructor
    · simp [isIdChar, halphanum]
    · intro hcomma
      subst hcomma
      simp [Char.isAlphanum, Char.isAlpha, Char.isUpper, Char.isLower, Char.isDigit] at halphanum

theorem joinIds_toList (ids : List WorkingMemoryEntryId) :
    (joinIds ids).toList = [','].intercalate (ids.map fun id => id.text.toList) := by
  rw [joinIds, String.toList_intercalate, List.map_map]
  rfl

theorem joinIds_idChars (ids : List WorkingMemoryEntryId) : (joinIds ids).toList.all isIdChar = true := by
  rw [joinIds_toList]
  induction ids with
  | nil => rfl
  | cons id ids ih =>
    have hid : id.text.toList.all isIdChar = true := List.all_eq_true.2 fun c hc => (text_idChars id c hc).1
    cases ids with
    | nil => simpa using hid
    | cons next rest =>
      simp only [List.map_cons, List.intercalate_cons_cons, List.all_append, Bool.and_eq_true] at ih ⊢
      exact ⟨⟨hid, rfl⟩, ih⟩

theorem joinIds_injective {ids others : List WorkingMemoryEntryId} (hne : ids ≠ []) (hne' : others ≠ [])
    (h : joinIds ids = joinIds others) : ids = others := by
  have hsplit : ∀ list : List WorkingMemoryEntryId, list ≠ [] →
      (joinIds list).toList.splitOn ',' = list.map fun id => id.text.toList := by
    intro list hlist
    rw [joinIds_toList]
    apply List.splitOn_intercalate
    · intro text htext
      obtain ⟨id, -, rfl⟩ := List.mem_map.1 htext
      intro hcomma
      exact (text_idChars id ',' hcomma).2 rfl
    · simpa using hlist
  have hmap : ids.map (fun id => id.text.toList) = others.map fun id => id.text.toList := by
    rw [← hsplit ids hne, ← hsplit others hne', h]
  have hinjective : Function.Injective fun id : WorkingMemoryEntryId => id.text.toList := by
    intro id other heq
    exact OpaqueId.text_injective (String.toList_inj.1 heq)
  exact List.map_injective_iff.2 hinjective hmap

section Findings

variable (T : TimeFormats) (E : ReviewEngine)

/-! ## All findings -/

def duplicates (visible : List ReviewEntry) : List Observation :=
  (groupBy (factOf E.toPlatform) visible).flatMap (duplicateObservation T E)

def allObservations (visible : List ReviewEntry) (now : String) : List Observation :=
  visible.flatMap (reviewEntry T now) ++ duplicates T E visible ++ contradictions visible

variable {visible : List ReviewEntry} {now : String}

theorem observe_ok (hvalid : ∀ item ∈ visible, item.2.valid T = true) (hdistinct : (visible.map Prod.fst).Nodup) :
    observe T E visible now =
      .ok ((E.sort Observation (compareFindings E) (allObservations T E visible now)).take 50) := by
  obtain ⟨hashes, hhashes, hfind⟩ :=
    mapM_fingerprints (f := fun item => workingMemoryEntryFingerprint E.toPlatform item.2)
      (fun item hitem => fingerprint_ok E.toPlatform (hvalid item hitem)) hdistinct
  have hgroups : groupBy (fun item => ((visible.zip hashes).find? fun pair => pair.1.1 == item.1).map Prod.snd)
      visible = groupBy (factOf E.toPlatform) visible :=
    groupBy_congr hfind
  unfold observe
  rw [hhashes]
  simp only [allObservations, duplicates, contradictions, ← hgroups]
  rfl

/-! ## What a finding is about -/

def scopeFinding (item : ReviewEntry) : Observation :=
  ⟨.scope_mismatch, [item.1],
    (workingMemoryKindPolicy item.2.kind).label ++ " is stored with an incompatible scope.", .none⟩

def staleFinding (item : ReviewEntry) : Observation :=
  ⟨.stale, [item.1], (workingMemoryKindPolicy item.2.kind).label ++
    " should be reviewed because its lifecycle or review interval is due.", .none⟩

def duplicateFinding (group : List ReviewEntry) : Observation :=
  let ordered := E.sort ReviewEntry (compareEntryAge T E) group
  ⟨.duplicate, (ordered.take 10).map Prod.fst,
    "These Working Memory entries contain the same canonical fact.",
    if unambiguousOlder T ordered then .delete else .none⟩

variable {T E}
variable {observation other : Observation}

theorem mem_reviewEntry {item : ReviewEntry} (h : observation ∈ reviewEntry T now item) :
    observation = scopeFinding item ∨ observation = staleFinding item := by
  simp only [reviewEntry, List.mem_append] at h
  rcases h with h | h
  · split at h
    · exact Or.inl (List.mem_singleton.1 h)
    · cases h
  · split at h
    · exact Or.inr (List.mem_singleton.1 h)
    · cases h

theorem duplicateObservation_eq (group : List ReviewEntry) :
    duplicateObservation T E group = if group.length < 2 then [] else [duplicateFinding T E group] :=
  rfl

theorem mem_duplicates : observation ∈ duplicates T E visible ↔
    ∃ group ∈ groupBy (factOf E.toPlatform) visible, 2 ≤ group.length ∧ observation = duplicateFinding T E group := by
  simp only [duplicates, List.mem_flatMap, duplicateObservation_eq]
  constructor
  · rintro ⟨group, hgroup, hmem⟩
    split at hmem
    · cases hmem
    · next hlength => exact ⟨group, hgroup, not_lt.1 hlength, List.mem_singleton.1 hmem⟩
  · rintro ⟨group, hgroup, hlength, heq⟩
    refine ⟨group, hgroup, ?_⟩
    rw [if_neg (not_lt.2 hlength), heq]
    simp

/-- A contradiction is told by the identifiers of its two entries. -/
theorem contradictionObservation_shape {kind : WorkingMemoryKind} {a b : ReviewEntry}
    (h : observation ∈ contradictionObservation kind a b) :
    observation.category = .contradiction ∧ observation.entryIds = sortIds [a.1, b.1] ∧
      contradictionObservation kind a b = [observation] := by
  simp only [contradictionObservation] at h ⊢
  split at h
  · cases h
  · next hsame =>
    split at h
    · cases h
    · next hfields =>
      rw [if_neg hsame, if_neg hfields]
      rw [List.mem_singleton] at h
      subst h
      exact ⟨rfl, rfl, rfl⟩

theorem sortIds_ne_nil {ids : List WorkingMemoryEntryId} (h : ids ≠ []) : sortIds ids ≠ [] := by
  intro hnil
  have hperm : (sortIds ids).Perm ids := List.perm_insertionSort _ _
  rw [hnil] at hperm
  exact h hperm.nil_eq.symm

theorem contradiction_unique (hvisible : (visible.map Prod.fst).Nodup) (h : observation ∈ contradictions visible)
    (hother : other ∈ contradictions visible) (hids : observation.entryIds = other.entryIds) : observation = other := by
  have hnodup : visible.Nodup := List.Nodup.of_map _ hvisible
  obtain ⟨a, ha, b, hb, hne, hidentity, hpair⟩ := (mem_contradictions hnodup).1 h
  obtain ⟨c, hc, d, hd, hne', hidentity', hpair'⟩ := (mem_contradictions hnodup).1 hother
  obtain ⟨-, hab, hobservation⟩ := contradictionObservation_shape hpair
  obtain ⟨-, hcd, hobservation'⟩ := contradictionObservation_shape hpair'
  rw [hab, hcd, sortIds_eq_iff] at hids
  have hsame : ∀ x ∈ visible, ∀ y ∈ visible, x.1 = y.1 → x = y :=
    fun x hx y hy hxy => List.inj_on_of_nodup_map hvisible hx hy hxy
  have hids' : a.1 = c.1 ∧ b.1 = d.1 ∨ a.1 = d.1 ∧ b.1 = c.1 := by
    have hmem : a.1 ∈ [c.1, d.1] := hids.subset (by simp)
    have hmem' : b.1 ∈ [c.1, d.1] := hids.subset (by simp)
    have hneid : a.1 ≠ b.1 := fun heq => hne (hsame a ha b hb heq)
    simp only [List.mem_cons, List.not_mem_nil, or_false] at hmem hmem'
    rcases hmem with hac | had
    · rcases hmem' with hbc | hbd
      · exact absurd (hac.trans hbc.symm) hneid
      · exact Or.inl ⟨hac, hbd⟩
    · rcases hmem' with hbc | hbd
      · exact Or.inr ⟨had, hbc⟩
      · exact absurd (had.trans hbd.symm) hneid
  rcases hids' with ⟨hac, hbd⟩ | ⟨had, hbc⟩
  · obtain rfl := hsame a ha c hc hac
    obtain rfl := hsame b hb d hd hbd
    rw [hobservation] at hobservation'
    simpa using hobservation'
  · obtain rfl := hsame a ha d hd had
    obtain rfl := hsame b hb c hc hbc
    have hkind : a.2.kind = b.2.kind := congrArg Prod.fst hidentity
    rw [contradictionObservation_comm, ← hkind, hobservation] at hobservation'
    simpa using hobservation'

/-! ## Findings in order -/

theorem mem_allObservations (h : observation ∈ allObservations T E visible now) :
    (∃ item ∈ visible, observation = scopeFinding item ∨ observation = staleFinding item) ∨
      observation ∈ duplicates T E visible ∨ observation ∈ contradictions visible := by
  simp only [allObservations, List.mem_append, List.mem_flatMap] at h
  rcases h with (⟨item, hitem, h⟩ | h) | h
  · exact Or.inl ⟨item, hitem, mem_reviewEntry h⟩
  · exact Or.inr (Or.inl h)
  · exact Or.inr (Or.inr h)

theorem duplicate_ids (hsort : Conforming E.sort) {group : List ReviewEntry} (hlength : 2 ≤ group.length) :
    ∃ first ∈ group, (duplicateFinding T E group).entryIds.head? = some first.1 := by
  have hperm := hsort.perm ReviewEntry (compareEntryAge T E) group
  cases hordered : E.sort ReviewEntry (compareEntryAge T E) group with
  | nil =>
    rw [hordered] at hperm
    have hnil := hperm.length_eq
    simp only [List.length_nil] at hnil
    omega
  | cons first rest =>
    refine ⟨first, hperm.mem_iff.1 (by rw [hordered]; simp), ?_⟩
    simp [duplicateFinding, hordered]

theorem duplicate_unique (hsort : Conforming E.sort) (hvisible : (visible.map Prod.fst).Nodup)
    (h : observation ∈ duplicates T E visible) (hother : other ∈ duplicates T E visible)
    (hids : observation.entryIds = other.entryIds) : observation = other := by
  obtain ⟨group, hgroup, hlength, rfl⟩ := mem_duplicates.1 h
  obtain ⟨group', hgroup', hlength', rfl⟩ := mem_duplicates.1 hother
  obtain ⟨first, hfirst, hhead⟩ := duplicate_ids (T := T) hsort hlength
  obtain ⟨first', hfirst', hhead'⟩ := duplicate_ids (T := T) hsort hlength'
  rw [hids, hhead'] at hhead
  have hmem := (sublist_of_mem_groupBy hgroup).subset hfirst
  have hmem' := (sublist_of_mem_groupBy hgroup').subset hfirst'
  have hid : first'.1 = first.1 := Option.some.inj hhead
  obtain rfl : first' = first := List.inj_on_of_nodup_map hvisible hmem' hmem hid
  rw [eq_filter_of_mem_groupBy hgroup hfirst, eq_filter_of_mem_groupBy hgroup' hfirst']

theorem category_of_duplicate (h : observation ∈ duplicates T E visible) : observation.category = .duplicate := by
  obtain ⟨group, -, -, rfl⟩ := mem_duplicates.1 h
  rfl

theorem category_of_contradiction (h : observation ∈ contradictions visible) :
    observation.category = .contradiction := by
  obtain ⟨group, hgroup, hmem⟩ := List.mem_flatMap.1 h
  cases group with
  | nil => cases hmem
  | cons head rest =>
    obtain ⟨a, b, -, hpair⟩ := mem_contradictionsIn.1 hmem
    exact (contradictionObservation_shape hpair).1

theorem entryIds_ne_nil (hsort : Conforming E.sort) (hvisible : visible.Nodup)
    (h : observation ∈ allObservations T E visible now) : observation.entryIds ≠ [] := by
  rcases mem_allObservations h with ⟨item, -, rfl | rfl⟩ | h | h
  · simp [scopeFinding]
  · simp [staleFinding]
  · obtain ⟨group, -, hlength, rfl⟩ := mem_duplicates.1 h
    obtain ⟨first, -, hhead⟩ := duplicate_ids (T := T) hsort hlength
    intro hnil
    rw [hnil] at hhead
    cases hhead
  · obtain ⟨a, -, b, -, -, -, hpair⟩ := (mem_contradictions hvisible).1 h
    rw [(contradictionObservation_shape hpair).2.1]
    exact sortIds_ne_nil (by simp)

theorem order_injective : Function.Injective FindingCategory.order := by
  intro category category' h
  cases category <;> cases category' <;> first | rfl | cases h

/-- Two findings of one category are about different entries. -/
theorem finding_unique (hsort : Conforming E.sort) (hvisible : (visible.map Prod.fst).Nodup)
    (h : observation ∈ allObservations T E visible now) (hother : other ∈ allObservations T E visible now)
    (hcategory : observation.category = other.category) (hids : observation.entryIds = other.entryIds) :
    observation = other := by
  have hsame : ∀ x ∈ visible, ∀ y ∈ visible, [x.1] = [y.1] → x = y :=
    fun x hx y hy hxy => List.inj_on_of_nodup_map hvisible hx hy (by simpa using hxy)
  rcases mem_allObservations h with ⟨item, hitem, h⟩ | h | h
  · rcases mem_allObservations hother with ⟨item', hitem', h'⟩ | h' | h'
    · rcases h with rfl | rfl <;> rcases h' with rfl | rfl
      · rw [hsame item hitem item' hitem' hids]
      · cases hcategory
      · cases hcategory
      · rw [hsame item hitem item' hitem' hids]
    · rw [category_of_duplicate h'] at hcategory
      rcases h with rfl | rfl <;> cases hcategory
    · rw [category_of_contradiction h'] at hcategory
      rcases h with rfl | rfl <;> cases hcategory
  · rw [category_of_duplicate h] at hcategory
    rcases mem_allObservations hother with ⟨item', -, h'⟩ | h' | h'
    · rcases h' with rfl | rfl <;> cases hcategory
    · exact duplicate_unique hsort hvisible h h' hids
    · rw [category_of_contradiction h'] at hcategory
      cases hcategory
  · rw [category_of_contradiction h] at hcategory
    rcases mem_allObservations hother with ⟨item', -, h'⟩ | h' | h'
    · rcases h' with rfl | rfl <;> cases hcategory
    · rw [category_of_duplicate h'] at hcategory
      cases hcategory
    · exact contradiction_unique hvisible h h' hids

theorem compareFindings_strict (now : String) (hsort : Conforming E.sort) (hcollates : Collates E.localeCompare)
    (hvisible : (visible.map Prod.fst).Nodup) :
    StrictOn (compareFindings E) (allObservations T E visible now) where
  toConsistentOn := by
    apply ConsistentOn.then
    · exact consistentOn_compare (fun observation : Observation => observation.category.order) _
    · constructor
      · intro a _ b _
        exact hcollates.swap _ _
      · intro a _ b _ c _ hab hbc
        exact hcollates.trans _ _ _ hab hbc
  eq a ha b hb heq := by
    have hnodup : visible.Nodup := List.Nodup.of_map _ hvisible
    simp only [compareFindings, Ordering.then_eq_eq, compare_eq_iff_eq] at heq
    have hjoin := hcollates.eq_of_level _ _ (joinIds_idChars a.entryIds) (joinIds_idChars b.entryIds) heq.2
    have hids := joinIds_injective (entryIds_ne_nil hsort hnodup ha) (entryIds_ne_nil hsort hnodup hb) hjoin
    exact finding_unique hsort hvisible ha hb (order_injective heq.1) hids

end Findings

end PlusOne
