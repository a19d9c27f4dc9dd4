import Mathlib.Algebra.BigOperators.Group.List.Basic
import Mathlib.Data.List.Perm.Basic
import PlusOne.Relational.Upsert

/-! # Grouped sums

The aggregate of the rows a condition selects, and how it splits over conditions and over tables
with the same keys. -/

namespace Relational

variable {R S K M : Type*}

/-- `sum(f) FILTER (WHERE p)` -/
def sumWhere [AddCommMonoid M] (p : R → Bool) (f : R → M) (rows : List R) : M :=
  ((rows.filter p).map f).sum

section Sum

variable [AddCommMonoid M] {p q : R → Bool} {f g : R → M} {rows : List R}

@[simp] theorem sumWhere_nil : sumWhere p f [] = 0 := rfl

theorem sumWhere_cons {row : R} :
    sumWhere p f (row :: rows) = (if p row then f row else 0) + sumWhere p f rows := by
  unfold sumWhere
  by_cases h : p row
  · simp [h]
  · simp [h]

theorem sumWhere_congr (hp : ∀ row ∈ rows, p row = q row) (hf : ∀ row ∈ rows, p row = true → f row = g row) :
    sumWhere p f rows = sumWhere q g rows := by
  induction rows with
  | nil => rfl
  | cons row rows ih =>
    have hrest := ih (fun r hr => hp r (by simp [hr])) (fun r hr => hf r (by simp [hr]))
    have hhead := hp row (by simp)
    rw [sumWhere_cons, sumWhere_cons, hrest, ← hhead]
    by_cases h : p row
    · simp [h, hf row (by simp) h]
    · simp [h]

/-- Conditions no row meets together select what their disjunction selects. -/
theorem sumWhere_or (h : ∀ row ∈ rows, ¬(p row = true ∧ q row = true)) :
    sumWhere (fun row => p row || q row) f rows = sumWhere p f rows + sumWhere q f rows := by
  induction rows with
  | nil => simp
  | cons row rows ih =>
    have hrest := ih fun r hr => h r (by simp [hr])
    have hhead := h row (by simp)
    rw [sumWhere_cons, sumWhere_cons, sumWhere_cons, hrest]
    by_cases hp : p row
    · have hq : q row = false := by simpa [hp] using hhead
      simp [hp, hq, add_assoc]
    · by_cases hq : q row
      · simp [hp, hq, add_left_comm]
      · simp [hp, hq]

/-- Two tables with the same keys sum to the same where their rows do key by key. -/
theorem sum_eq_of_keys {keyR : R → K} {keyS : S → K} {rowsS : List S} {g : S → M}
    (hR : Distinct keyR rows) (hS : Distinct keyS rowsS)
    (hkeys : ∀ k, k ∈ rows.map keyR ↔ k ∈ rowsS.map keyS)
    (hvalue : ∀ row ∈ rows, ∀ other ∈ rowsS, keyR row = keyS other → f row = g other) :
    (rows.map f).sum = (rowsS.map g).sum := by
  induction rows generalizing rowsS with
  | nil =>
    have hnil : rowsS = [] := by
      cases rowsS with
      | nil => rfl
      | cons other rest =>
        have hmem := (hkeys (keyS other)).2 (by simp)
        simp at hmem
    simp [hnil]
  | cons row rows ih =>
    obtain ⟨other, hother, hkey⟩ := List.mem_map.1 ((hkeys (keyR row)).1 (by simp))
    obtain ⟨before, after, rfl⟩ := List.append_of_mem hother
    have hperm : (before ++ other :: after).Perm (other :: (before ++ after)) := List.perm_middle
    have hS' : Distinct keyS (other :: (before ++ after)) := (hperm.map keyS).nodup_iff.1 hS
    have hnotR : keyR row ∉ rows.map keyR := (List.nodup_cons.1 hR).1
    have hnotS : keyS other ∉ (before ++ after).map keyS := (List.nodup_cons.1 hS').1
    have hrest := ih (List.nodup_cons.1 hR).2 (List.nodup_cons.1 hS').2
      (fun k => by
        have hk := hkeys k
        have hk' := (hperm.map keyS).mem_iff (a := k)
        rw [hk'] at hk
        simp only [List.map_cons, List.mem_cons] at hk
        constructor
        · intro hmem
          rcases hk.1 (.inr hmem) with heq | hmem'
          · exact absurd (hkey ▸ heq ▸ hmem) hnotR
          · exact hmem'
        · intro hmem
          rcases hk.2 (.inr hmem) with heq | hmem'
          · exact absurd (hkey ▸ heq ▸ hmem) hnotS
          · exact hmem')
      (fun r hr s hs => hvalue r (by simp [hr]) s (by
        rcases List.mem_append.1 hs with hs | hs
        · simp [hs]
        · simp [hs]))
    have hhead := hvalue row (by simp) other (by simp) hkey.symm
    rw [((hperm.map g).sum_eq), List.map_cons, List.sum_cons, List.map_cons, List.sum_cons, hrest, hhead]

end Sum

end Relational
