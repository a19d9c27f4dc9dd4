import Mathlib.Data.List.Basic
import Mathlib.Logic.Relation

/-! # Recursive queries

A recursive query with `UNION ALL` takes the rows of its first term and then, round by round, the rows
that its recursive term finds for those of the round before, until a round finds none. -/

namespace Relational

variable {α : Type} (next : α → List α)

/-- The rows of at most `rounds` rounds; nothing if rows are still found then. -/
def withRecursive : Nat → List α → Option (List α)
  | _, [] => some []
  | 0, _ :: _ => none
  | rounds + 1, row :: rows =>
    (withRecursive rounds ((row :: rows).flatMap next)).map fun found => row :: rows ++ found

variable {next} {rounds : Nat} {working found : List α}

theorem withRecursive_succ (h : withRecursive next (rounds + 1) working = some found) (hne : working ≠ []) :
    ∃ later, withRecursive next rounds (working.flatMap next) = some later ∧ found = working ++ later := by
  cases working with
  | nil => exact absurd rfl hne
  | cons row rows =>
    simp only [withRecursive, Option.map_eq_some_iff] at h
    obtain ⟨later, hlater, rfl⟩ := h
    exact ⟨later, hlater, rfl⟩

theorem mem_of_reaches {a b : α} (h : withRecursive next rounds working = some found) (ha : a ∈ working)
    (hab : Relation.ReflTransGen (fun row other => other ∈ next row) a b) : b ∈ found := by
  induction rounds generalizing working found a with
  | zero =>
    cases working with
    | nil => cases ha
    | cons row rows => cases h
  | succ rounds ih =>
    obtain ⟨later, hlater, rfl⟩ := withRecursive_succ h (List.ne_nil_of_mem ha)
    rcases Relation.ReflTransGen.cases_head hab with rfl | ⟨c, hc, hcb⟩
    · exact List.mem_append_left _ ha
    · exact List.mem_append_right _ (ih hlater (List.mem_flatMap.2 ⟨a, ha, hc⟩) hcb)

/-- A query whose rounds lead downwards ends. -/
theorem withRecursive_ends {P : α → Prop} (rank : α → Nat)
    (hnext : ∀ row, P row → ∀ other ∈ next row, P other ∧ rank other < rank row)
    (hworking : ∀ row ∈ working, P row ∧ rank row < rounds) : ∃ found, withRecursive next rounds working = some found := by
  induction rounds generalizing working with
  | zero =>
    cases working with
    | nil => exact ⟨[], rfl⟩
    | cons row rows =>
      have hrow := (hworking row (by simp)).2
      omega
  | succ rounds ih =>
    cases working with
    | nil => exact ⟨[], by simp [withRecursive]⟩
    | cons row rows =>
      have hfurther : ∀ other ∈ (row :: rows).flatMap next, P other ∧ rank other < rounds := by
        intro other hother
        obtain ⟨source, hfrom, hin⟩ := List.mem_flatMap.1 hother
        obtain ⟨hP, hrank⟩ := hworking source hfrom
        obtain ⟨hP', hrank'⟩ := hnext source hP other hin
        exact ⟨hP', by omega⟩
      obtain ⟨later, hlater⟩ := ih hfurther
      refine ⟨row :: rows ++ later, ?_⟩
      rw [withRecursive, hlater]
      rfl

end Relational
