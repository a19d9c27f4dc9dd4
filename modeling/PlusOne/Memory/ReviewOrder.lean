import PlusOne.Memory.Canonical
import PlusOne.Sorting.Comparing

/-! # The review does not see the order of entries

What is found on the entries of a document, up to the order in which it is found. -/

namespace PlusOne

open Sorting

/-! ## Groups and pairs -/

theorem nodup_eraseDups {α : Type} [DecidableEq α] (l : List α) : l.eraseDups.Nodup := by
  induction hlength : l.length using Nat.strong_induction_on generalizing l with
  | _ n ih =>
    cases l with
    | nil => simp
    | cons a l =>
      rw [List.eraseDups_cons, List.nodup_cons]
      constructor
      · intro hmem
        have hin := List.mem_eraseDups.1 hmem
        simp at hin
      · have hle := List.length_filter_le (fun b => !b == a) l
        simp only [List.length_cons] at hlength
        exact ih _ (by omega) _ rfl

section Groups

variable {K β : Type} [DecidableEq K] {key key' : ReviewEntry → K} {items items' group : List ReviewEntry}
  {f : List ReviewEntry → List β}

theorem groupBy_congr (h : ∀ item ∈ items, key item = key' item) : groupBy key items = groupBy key' items := by
  unfold groupBy
  rw [List.map_congr_left h]
  apply List.map_congr_left
  intro k _
  apply List.filter_congr
  intro item hitem
  rw [h item hitem]

theorem mem_groupBy : group ∈ groupBy key items ↔
    ∃ item ∈ items, group = items.filter fun other => key other = key item := by
  simp only [groupBy, List.mem_map, List.mem_eraseDups]
  constructor
  · rintro ⟨k, ⟨item, hitem, hkey⟩, hgroup⟩
    exact ⟨item, hitem, by rw [hkey, hgroup]⟩
  · rintro ⟨item, hitem, hgroup⟩
    exact ⟨key item, ⟨item, hitem, rfl⟩, hgroup.symm⟩

theorem sublist_of_mem_groupBy (h : group ∈ groupBy key items) : group.Sublist items := by
  obtain ⟨item, -, rfl⟩ := mem_groupBy.1 h
  exact List.filter_sublist

theorem key_eq_of_mem_groupBy (h : group ∈ groupBy key items) {a b : ReviewEntry} (ha : a ∈ group)
    (hb : b ∈ group) : key a = key b := by
  obtain ⟨item, -, rfl⟩ := mem_groupBy.1 h
  simp only [List.mem_filter, decide_eq_true_eq] at ha hb
  rw [ha.2, hb.2]

theorem eq_filter_of_mem_groupBy (h : group ∈ groupBy key items) {a : ReviewEntry} (ha : a ∈ group) :
    group = items.filter fun other => key other = key a := by
  obtain ⟨item, -, rfl⟩ := mem_groupBy.1 h
  simp only [List.mem_filter, decide_eq_true_eq] at ha
  rw [ha.2]

theorem length_groupBy_le : (groupBy key items).length ≤ items.length := by
  have hkeys := ((nodup_eraseDups (items.map key)).subperm fun _ hk => List.mem_eraseDups.1 hk).length_le
  simpa [groupBy] using hkeys

/-- What is made of the groups does not depend on the order of the entries if what is made of each
does not. -/
theorem flatMap_groupBy_perm (hperm : items.Perm items')
    (hf : ∀ group ∈ groupBy key items, ∀ group', group.Perm group' → (f group).Perm (f group')) :
    ((groupBy key items).flatMap f).Perm ((groupBy key items').flatMap f) := by
  have hkeys : (items.map key).eraseDups.Perm (items'.map key).eraseDups := by
    rw [List.perm_ext_iff_of_nodup (nodup_eraseDups _) (nodup_eraseDups _)]
    intro k
    rw [List.mem_eraseDups, List.mem_eraseDups]
    exact (hperm.map key).mem_iff
  simp only [groupBy, List.flatMap_map]
  refine List.Perm.flatMap hkeys ?_
  intro k hk
  have hgroup : (items.filter fun item => key item = k) ∈ groupBy key items := List.mem_map_of_mem hk
  exact hf _ hgroup _ (hperm.filter _)

end Groups

/-! ## Two values disagree alike from either side -/

theorem sameCanonicalValue_comm (left right : Json) : sameCanonicalValue left right = sameCanonicalValue right left := by
  unfold sameCanonicalValue
  rw [Bool.beq_comm (a := stringify left), Bool.beq_comm (a := stringify (sortJson left))]

/-- The field is one of both objects, with another value in the other one. -/
def differsIn (others : List (String × Json)) (field : String × Json) : Bool :=
  match (Json.obj others).field? field.1 with
  | some value => !sameCanonicalValue field.2 value
  | none => false

theorem differingObjectFields_obj (fields others : List (String × Json)) :
    differingObjectFields (.obj fields) (.obj others) =
      sortTexts ((fields.filter (differsIn others)).map Prod.fst) :=
  rfl

theorem mem_differing {fields others : List (String × Json)} (hkeys : (fields.map Prod.fst).Nodup) {key : String} :
    key ∈ (fields.filter (differsIn others)).map Prod.fst ↔
      ∃ v w, (Json.obj fields).field? key = some v ∧ (Json.obj others).field? key = some w ∧
        sameCanonicalValue v w = false := by
  constructor
  · intro h
    obtain ⟨⟨name, v⟩, hfield, rfl⟩ := List.mem_map.1 h
    obtain ⟨hmem, hdiffers⟩ := List.mem_filter.1 hfield
    cases hw : (Json.obj others).field? name with
    | none => simp [differsIn, hw] at hdiffers
    | some w =>
      simp only [differsIn, hw, Bool.not_eq_true'] at hdiffers
      exact ⟨v, w, (field?_eq_some_iff hkeys).2 hmem, rfl, hdiffers⟩
  · rintro ⟨v, w, hv, hw, hdiffers⟩
    apply List.mem_map.2
    refine ⟨(key, v), List.mem_filter.2 ⟨(field?_eq_some_iff hkeys).1 hv, ?_⟩, rfl⟩
    simp [differsIn, hw, hdiffers]

theorem differingObjectFields_comm {left right : Json} (hleft : left.keyed = true) (hright : right.keyed = true) :
    differingObjectFields left right = differingObjectFields right left := by
  cases left with
  | obj fields =>
    cases right with
    | obj others =>
      have hkeys := (Json.keyed_obj.1 hleft).1
      have hkeys' := (Json.keyed_obj.1 hright).1
      rw [differingObjectFields_obj, differingObjectFields_obj, sortTexts_eq_iff, List.perm_ext_iff_of_nodup]
      · intro key
        rw [mem_differing hkeys, mem_differing hkeys']
        constructor
        · rintro ⟨v, w, hv, hw, hdiffers⟩
          exact ⟨w, v, hw, hv, by rw [sameCanonicalValue_comm, hdiffers]⟩
        · rintro ⟨v, w, hv, hw, hdiffers⟩
          exact ⟨w, v, hw, hv, by rw [sameCanonicalValue_comm, hdiffers]⟩
      · exact hkeys.sublist (List.filter_sublist.map _)
      · exact hkeys'.sublist (List.filter_sublist.map _)
    | null | bool b | num n | str s | arr items => rfl
  | null | bool b | num n | str s | arr items => cases right <;> rfl

theorem map_sortIds (ids : List WorkingMemoryEntryId) :
    (sortIds ids).map OpaqueId.text = sortTexts (ids.map OpaqueId.text) :=
  List.map_insertionSort _ _ _ _ fun _ _ _ _ => Iff.rfl

theorem sortIds_eq_iff {ids others : List WorkingMemoryEntryId} : sortIds ids = sortIds others ↔ ids.Perm others := by
  have hinjective : Function.Injective (List.map (@OpaqueId.text .workingMemoryEntry)) :=
    List.map_injective_iff.2 OpaqueId.text_injective
  rw [← hinjective.eq_iff, map_sortIds, map_sortIds, sortTexts_eq_iff]
  exact List.map_perm_map_iff OpaqueId.text_injective

theorem contradictionObservation_comm (kind : WorkingMemoryKind) (a b : ReviewEntry) :
    contradictionObservation kind a b = contradictionObservation kind b a := by
  have hfields := differingObjectFields_comm a.2.value_keyed b.2.value_keyed
  have hids : sortIds [a.1, b.1] = sortIds [b.1, a.1] := sortIds_eq_iff.2 (.swap _ _ _)
  unfold contradictionObservation
  rw [sameCanonicalValue_comm, hfields, hids]

/-! ## The contradictions of a group -/

/-- Every unordered pair is looked at once. -/
theorem contradictionsIn_perm {kind : WorkingMemoryKind} {items items' : List ReviewEntry} (hperm : items.Perm items') :
    (contradictionsIn kind items).Perm (contradictionsIn kind items') := by
  induction hperm with
  | nil => exact .refl _
  | cons a hperm ih =>
    simp only [contradictionsIn]
    apply List.Perm.append
    · exact hperm.flatMap_right _
    · exact ih
  | swap a b l =>
    simp only [contradictionsIn, List.flatMap_cons, contradictionObservation_comm kind b a, List.append_assoc]
    apply List.Perm.append_left
    rw [← List.append_assoc, ← List.append_assoc]
    exact List.perm_append_comm.append_right _
  | trans _ _ ih ih' => exact ih.trans ih'

/-- Of two members of a list, one comes before the other. -/
theorem pair_sublist {α : Type} {l : List α} {a b : α} (ha : a ∈ l) (hb : b ∈ l) (hne : a ≠ b) :
    [a, b].Sublist l ∨ [b, a].Sublist l := by
  induction l with
  | nil => cases ha
  | cons c l ih =>
    rcases List.mem_cons.1 ha with rfl | ha'
    · have hbl : b ∈ l := (List.mem_cons.1 hb).resolve_left hne.symm
      exact Or.inl ((List.singleton_sublist.2 hbl).cons_cons a)
    · rcases List.mem_cons.1 hb with rfl | hb'
      · exact Or.inr ((List.singleton_sublist.2 ha').cons_cons b)
      · rcases ih ha' hb' with h | h
        · exact Or.inl (h.cons c)
        · exact Or.inr (h.cons c)

theorem mem_contradictionsIn {kind : WorkingMemoryKind} {items : List ReviewEntry} {observation : Observation} :
    observation ∈ contradictionsIn kind items ↔
      ∃ a b, [a, b].Sublist items ∧ observation ∈ contradictionObservation kind a b := by
  induction items with
  | nil => simp [contradictionsIn]
  | cons a items ih =>
    simp only [contradictionsIn, List.mem_append, List.mem_flatMap, ih]
    constructor
    · intro h
      rcases h with ⟨b, hb, hfound⟩ | ⟨b, c, hsub, hfound⟩
      · exact ⟨a, b, (List.singleton_sublist.2 hb).cons_cons a, hfound⟩
      · exact ⟨b, c, hsub.cons a, hfound⟩
    · rintro ⟨b, c, hsub, hfound⟩
      cases hsub with
      | cons _ hsub => exact Or.inr ⟨b, c, hsub, hfound⟩
      | cons_cons _ hsub => exact Or.inl ⟨c, List.singleton_sublist.1 hsub, hfound⟩

/-- The contradictions a review finds between the entries it sees. -/
def contradictions (visible : List ReviewEntry) : List Observation :=
  (groupBy identityOf visible).flatMap identityContradictions

theorem identityContradictions_eq {visible group : List ReviewEntry} {a : ReviewEntry}
    (hgroup : group ∈ groupBy identityOf visible) (ha : a ∈ group) :
    identityContradictions group = contradictionsIn a.2.kind group := by
  cases group with
  | nil => cases ha
  | cons head rest =>
    have hidentity : identityOf head = identityOf a := key_eq_of_mem_groupBy hgroup (by simp) ha
    have hkind : head.2.kind = a.2.kind := congrArg Prod.fst hidentity
    simp only [identityContradictions, hkind]

theorem mem_contradictions {visible : List ReviewEntry} (hdistinct : visible.Nodup) {observation : Observation} :
    observation ∈ contradictions visible ↔
      ∃ a ∈ visible, ∃ b ∈ visible, a ≠ b ∧ identityOf a = identityOf b ∧
        observation ∈ contradictionObservation a.2.kind a b := by
  unfold contradictions
  rw [List.mem_flatMap]
  constructor
  · rintro ⟨group, hgroup, hfound⟩
    have hsubgroup := sublist_of_mem_groupBy hgroup
    cases group with
    | nil => cases hfound
    | cons head rest =>
      obtain ⟨a, b, hsub, hpair⟩ := mem_contradictionsIn.1 hfound
      have ha : a ∈ head :: rest := hsub.subset (by simp)
      have hb : b ∈ head :: rest := hsub.subset (by simp)
      have hne : a ≠ b := by
        have hnodup := (hsub.trans hsubgroup).nodup hdistinct
        simpa using hnodup
      have hkind : head.2.kind = a.2.kind := congrArg Prod.fst (key_eq_of_mem_groupBy hgroup (by simp) ha)
      rw [hkind] at hpair
      exact ⟨a, hsubgroup.subset ha, b, hsubgroup.subset hb, hne, key_eq_of_mem_groupBy hgroup ha hb, hpair⟩
  · rintro ⟨a, ha, b, hb, hne, hidentity, hpair⟩
    have hgroup : visible.filter (fun other => identityOf other = identityOf a) ∈ groupBy identityOf visible :=
      mem_groupBy.2 ⟨a, ha, rfl⟩
    have hamem : a ∈ visible.filter fun other => identityOf other = identityOf a := by simp [ha]
    have hbmem : b ∈ visible.filter fun other => identityOf other = identityOf a := by simp [hb, hidentity]
    refine ⟨_, hgroup, ?_⟩
    rw [identityContradictions_eq hgroup hamem, mem_contradictionsIn]
    rcases pair_sublist hamem hbmem hne with hsub | hsub
    · exact ⟨a, b, hsub, hpair⟩
    · exact ⟨b, a, hsub, by rwa [contradictionObservation_comm]⟩

theorem contradictions_perm {visible others : List ReviewEntry} (hperm : visible.Perm others) :
    (contradictions visible).Perm (contradictions others) := by
  apply flatMap_groupBy_perm hperm
  intro group hgroup group' hgroups
  cases group with
  | nil =>
    rw [hgroups.nil_eq]
  | cons head rest =>
    have hmem : head ∈ group' := hgroups.subset (by simp)
    cases group' with
    | nil => cases hmem
    | cons head' rest' =>
      have hmem' : head' ∈ head :: rest := hgroups.symm.subset (by simp)
      have hkind : head'.2.kind = head.2.kind :=
        congrArg Prod.fst (key_eq_of_mem_groupBy hgroup hmem' (by simp))
      simp only [identityContradictions, hkind]
      exact contradictionsIn_perm hgroups

end PlusOne
