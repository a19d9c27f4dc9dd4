import Mathlib.Data.List.MinMax
import Mathlib.Data.List.Pairwise

/-! # Rows under a clock

A table whose rows are appended with the time on a clock that moves on: the latest row is the
last one. -/

namespace Relational

variable {R : Type*}

/-- The rows are dated one after the other, and before now. -/
structure Dated (date : R → Nat) (now : Nat) (rows : List R) : Prop where
  increasing : rows.Pairwise fun row other => date row < date other
  past : ∀ row ∈ rows, date row < now

namespace Dated

variable {date : R → Nat} {now later : Nat} {rows : List R}

theorem nil : Dated date now [] := ⟨List.Pairwise.nil, by simp⟩

theorem mono (h : Dated date now rows) (hlater : now ≤ later) : Dated date later rows :=
  ⟨h.increasing, fun row hrow => lt_of_lt_of_le (h.past row hrow) hlater⟩

theorem append {row : R} (h : Dated date now rows) (hdate : date row = now) (hlater : now < later) :
    Dated date later (rows ++ [row]) := by
  constructor
  · rw [List.pairwise_append]
    have hlast : ∀ old ∈ rows, date old < date row := by
      intro old hold
      rw [hdate]
      exact h.past old hold
    exact ⟨h.increasing, List.pairwise_singleton _ _, by simpa using hlast⟩
  · intro old hold
    rcases List.mem_append.1 hold with hold | hold
    · have hpast := h.past old hold
      omega
    · rw [List.mem_singleton.1 hold, hdate]
      exact hlater

theorem filter (p : R → Bool) (h : Dated date now rows) : Dated date now (rows.filter p) :=
  ⟨h.increasing.filter p, fun row hrow => h.past row (List.mem_of_mem_filter hrow)⟩

theorem latest (h : Dated date now rows) : rows.argmax date = rows.getLast? := by
  induction rows using List.reverseRecOn with
  | nil => simp
  | append_singleton rows row ih =>
    obtain ⟨hincreasing, -, hbefore⟩ := List.pairwise_append.1 h.increasing
    have hpast : ∀ old ∈ rows, date old < now := fun old hold => h.past old (by simp [hold])
    rw [List.argmax_concat, ih ⟨hincreasing, hpast⟩]
    cases hlast : rows.getLast? with
    | none => simp
    | some old =>
      have hlt : date old < date row := hbefore old (List.mem_of_getLast? hlast) row (by simp)
      simp [hlt]

end Dated

end Relational
