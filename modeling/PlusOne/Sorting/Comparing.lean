import Mathlib.Data.List.Perm.Basic
import Mathlib.Data.List.Sort
import Mathlib.Order.Compare

/-! # Sorting by a comparison

A comparison need not be an order. A sort has to arrange a list where the comparison is consistent
on its elements; elsewhere it may leave them in any order. -/

namespace Sorting

variable {α β : Type}

structure ConsistentOn (cmp : α → α → Ordering) (l : List α) : Prop where
  swap : ∀ a ∈ l, ∀ b ∈ l, cmp b a = (cmp a b).swap
  trans : ∀ a ∈ l, ∀ b ∈ l, ∀ c ∈ l, (cmp a b).isLE = true → (cmp b c).isLE = true → (cmp a c).isLE = true

/-- No two elements are level. -/
structure StrictOn (cmp : α → α → Ordering) (l : List α) : Prop extends ConsistentOn cmp l where
  eq : ∀ a ∈ l, ∀ b ∈ l, cmp a b = .eq → a = b

/-- What any sort has to do: a stable arrangement, where there is one. -/
structure Conforming (sort : (α : Type) → (α → α → Ordering) → List α → List α) : Prop where
  perm : ∀ (α : Type) (cmp : α → α → Ordering) (l : List α), (sort α cmp l).Perm l
  sorted : ∀ (α : Type) (cmp : α → α → Ordering) (l : List α), ConsistentOn cmp l →
    (sort α cmp l).Pairwise fun a b => (cmp a b).isLE = true
  stable : ∀ (α : Type) (cmp : α → α → Ordering) (l : List α), ConsistentOn cmp l → ∀ a b : α,
    [a, b].Sublist l → (cmp a b).isLE = true → [a, b].Sublist (sort α cmp l)

variable {cmp : α → α → Ordering} {l l' : List α} {a b : α}

theorem ConsistentOn.subset (h : ConsistentOn cmp l) (hsub : ∀ a ∈ l', a ∈ l) : ConsistentOn cmp l' where
  swap a ha b hb := h.swap a (hsub a ha) b (hsub b hb)
  trans a ha b hb c hc := h.trans a (hsub a ha) b (hsub b hb) c (hsub c hc)

theorem StrictOn.subset (h : StrictOn cmp l) (hsub : ∀ a ∈ l', a ∈ l) : StrictOn cmp l' where
  toConsistentOn := h.toConsistentOn.subset hsub
  eq a ha b hb := h.eq a (hsub a ha) b (hsub b hb)

theorem ConsistentOn.refl (h : ConsistentOn cmp l) (ha : a ∈ l) : cmp a a = .eq := by
  have hswap := h.swap a ha a ha
  cases hcmp : cmp a a <;> simp_all

theorem StrictOn.antisymm (h : StrictOn cmp l) (ha : a ∈ l) (hb : b ∈ l) (hab : (cmp a b).isLE = true)
    (hba : (cmp b a).isLE = true) : a = b := by
  have hswap := h.swap a ha b hb
  apply h.eq a ha b hb
  cases hcmp : cmp a b <;> simp_all

theorem StrictOn.lt_of_isLE (h : StrictOn cmp l) (ha : a ∈ l) (hb : b ∈ l) (hab : (cmp a b).isLE = true)
    (hne : a ≠ b) : cmp a b = .lt := by
  cases hcmp : cmp a b with
  | lt => rfl
  | eq => exact absurd (h.eq a ha b hb hcmp) hne
  | gt => simp [hcmp] at hab

/-- Transitivity of what comes strictly before is enough, where no two elements are level. -/
theorem strictOn_of_lt (hswap : ∀ a ∈ l, ∀ b ∈ l, cmp b a = (cmp a b).swap)
    (heq : ∀ a ∈ l, ∀ b ∈ l, cmp a b = .eq → a = b)
    (hlt : ∀ a ∈ l, ∀ b ∈ l, ∀ c ∈ l, cmp a b = .lt → cmp b c = .lt → cmp a c = .lt) : StrictOn cmp l where
  swap := hswap
  eq := heq
  trans a ha b hb c hc hab hbc := by
    cases hcmp : cmp a b with
    | gt => simp [hcmp] at hab
    | eq => rwa [heq a ha b hb hcmp]
    | lt =>
      cases hcmp' : cmp b c with
      | gt => simp [hcmp'] at hbc
      | eq => rw [← heq b hb c hc hcmp', hcmp]; rfl
      | lt => rw [hlt a ha b hb c hc hcmp hcmp']; rfl

theorem StrictOn.lt_trans {c : α} (h : StrictOn cmp l) (ha : a ∈ l) (hb : b ∈ l) (hc : c ∈ l)
    (hab : cmp a b = .lt) (hbc : cmp b c = .lt) : cmp a c = .lt := by
  have hle : (cmp a c).isLE = true := h.trans a ha b hb c hc (by simp [hab]) (by simp [hbc])
  apply h.lt_of_isLE ha hc hle
  intro heq
  subst heq
  have hswap := h.swap a ha b hb
  simp [hab, hbc] at hswap

/-- A comparison of what is computed from the elements, first by one and then by the other. -/
theorem ConsistentOn.then {cmp' : α → α → Ordering} (h : ConsistentOn cmp l) (h' : ConsistentOn cmp' l) :
    ConsistentOn (fun a b => (cmp a b).then (cmp' a b)) l where
  swap a ha b hb := by
    simp only [h.swap a ha b hb, h'.swap a ha b hb]
    cases cmp a b <;> rfl
  trans a ha b hb c hc hab hbc := by
    have htrans := h.trans a ha b hb c hc
    have hback := h.trans c hc a ha b hb
    have hback' := h.trans b hb c hc a ha
    have htrans' := h'.trans a ha b hb c hc
    have hswap := h.swap a ha b hb
    have hswap' := h.swap b hb c hc
    have hswap'' := h.swap a ha c hc
    cases hcmp : cmp a b <;> cases hcmp' : cmp b c <;> cases hcmp'' : cmp a c <;> simp_all

theorem consistentOn_compare [LinearOrder β] (f : α → β) (l : List α) :
    ConsistentOn (fun a b => compare (f a) (f b)) l where
  swap a _ b _ := Std.OrientedCmp.eq_swap
  trans a _ b _ c _ hab hbc := by
    simp only [Ordering.isLE_iff_ne_gt, compare_gt_iff_gt, not_lt] at hab hbc ⊢
    exact hab.trans hbc

theorem eq_of_sorted (h : StrictOn cmp l) (hperm : l.Perm l')
    (hsorted : l.Pairwise fun a b => (cmp a b).isLE = true)
    (hsorted' : l'.Pairwise fun a b => (cmp a b).isLE = true) : l = l' := by
  refine hperm.eq_of_pairwise ?_ hsorted hsorted'
  intro a b ha hb hab hba
  exact h.antisymm ha (hperm.mem_iff.2 hb) hab hba

variable {sort sort' : (α : Type) → (α → α → Ordering) → List α → List α}

theorem Conforming.eq_of_perm (hs : Conforming sort) (hs' : Conforming sort') (h : StrictOn cmp l)
    (hperm : l.Perm l') : sort α cmp l = sort' α cmp l' := by
  have hmem : ∀ a ∈ sort α cmp l, a ∈ l := fun a ha => (hs.perm α cmp l).mem_iff.1 ha
  have hmem' : ∀ a ∈ l', a ∈ l := fun a ha => hperm.mem_iff.2 ha
  apply eq_of_sorted (h.subset hmem)
  · exact ((hs.perm α cmp l).trans hperm).trans (hs'.perm α cmp l').symm
  · exact hs.sorted α cmp l h.toConsistentOn
  · exact hs'.sorted α cmp l' (h.toConsistentOn.subset hmem')

/-- An element is among the first of a sorted list if few elements come before it. -/
theorem mem_take_iff (h : StrictOn cmp l) (hsorted : l.Pairwise fun a b => (cmp a b).isLE = true) (ha : a ∈ l)
    (n : Nat) : a ∈ l.take n ↔ l.countP (fun b => cmp b a == .lt) < n := by
  induction l generalizing n with
  | nil => cases ha
  | cons b l ih =>
    obtain ⟨hb, hl⟩ := List.pairwise_cons.1 hsorted
    cases n with
    | zero => simp
    | succ n =>
      by_cases hab : a = b
      · subst hab
        have hnone : (a :: l).countP (fun b => cmp b a == .lt) = 0 := by
          rw [List.countP_eq_zero]
          intro c hc hlt
          have hlt' : cmp c a = .lt := by simpa using hlt
          have hswap := h.swap c hc a (by simp)
          rcases List.mem_cons.1 hc with rfl | hc'
          · rw [h.refl ha] at hlt'
            cases hlt'
          · have hle := hb c hc'
            simp [hswap, hlt'] at hle
        simp [hnone]
      · have hal : a ∈ l := (List.mem_cons.1 ha).resolve_left hab
        have hlt : cmp b a = .lt := h.lt_of_isLE (by simp) ha (hb a hal) (Ne.symm hab)
        have hstrict : StrictOn cmp l := h.subset fun c hc => List.mem_cons_of_mem b hc
        rw [List.take_succ_cons, List.mem_cons, ih hstrict hl hal n, List.countP_cons]
        simp [hab, hlt]

/-! ## Sorts that conform -/

/-- Arrange the list where its elements can be compared consistently. -/
noncomputable def arrange (cmp : α → α → Ordering) (l : List α) : List α :=
  (l.attach.mergeSort fun a b => (cmp a.1 b.1).isLE).map Subtype.val

theorem arrange_perm (cmp : α → α → Ordering) (l : List α) : (arrange cmp l).Perm l := by
  have hperm := (List.mergeSort_perm l.attach fun a b => (cmp a.1 b.1).isLE).map Subtype.val
  rwa [List.attach_map_subtype_val] at hperm

theorem ConsistentOn.total (h : ConsistentOn cmp l) (a b : { x // x ∈ l }) :
    ((cmp a.1 b.1).isLE || (cmp b.1 a.1).isLE) = true := by
  rw [h.swap a.1 a.2 b.1 b.2]
  cases cmp a.1 b.1 <;> rfl

theorem arrange_sorted (h : ConsistentOn cmp l) : (arrange cmp l).Pairwise fun a b => (cmp a b).isLE = true := by
  rw [arrange, List.pairwise_map]
  exact List.pairwise_mergeSort (fun a b c => h.trans a.1 a.2 b.1 b.2 c.1 c.2) h.total l.attach

theorem arrange_stable (h : ConsistentOn cmp l) (hsub : [a, b].Sublist l) (hab : (cmp a b).isLE = true) :
    [a, b].Sublist (arrange cmp l) := by
  have hattach : l.attach.map Subtype.val = l := List.attach_map_subtype_val l
  rw [← hattach] at hsub
  obtain ⟨pair, hpair, heq⟩ := List.sublist_map_iff.1 hsub
  obtain ⟨x, y, rfl⟩ : ∃ x y, pair = [x, y] := by
    match pair, heq with
    | [x, y], _ => exact ⟨x, y, rfl⟩
  obtain ⟨rfl, rfl⟩ : a = x.1 ∧ b = y.1 := by simpa using heq
  have hsorted := List.pair_sublist_mergeSort (fun a b c => h.trans a.1 a.2 b.1 b.2 c.1 c.2) h.total hab hpair
  exact hsorted.map Subtype.val

open Classical in
/-- A sort that leaves a list alone where its elements cannot be compared consistently. -/
noncomputable def lazySort (α : Type) (cmp : α → α → Ordering) (l : List α) : List α :=
  if ConsistentOn cmp l then arrange cmp l else l

theorem lazySort_of_not (h : ¬ConsistentOn cmp l) : lazySort α cmp l = l := by
  rw [lazySort, if_neg h]

theorem lazySort_conforming : Conforming lazySort where
  perm α cmp l := by
    unfold lazySort
    split
    · exact arrange_perm cmp l
    · exact .refl l
  sorted α cmp l h := by
    rw [lazySort, if_pos h]
    exact arrange_sorted h
  stable α cmp l h a b hsub hab := by
    rw [lazySort, if_pos h]
    exact arrange_stable h hsub hab

end Sorting
