import Mathlib.Data.List.Sort
import Mathlib.Order.Basic

/-! # Rows in the order of a key -/

namespace Relational

variable {R S K : Type*} [LinearOrder K]

section

variable (key : R → K)

/-- `ORDER BY key` -/
def orderBy (rows : List R) : List R := rows.insertionSort fun row other => key row ≤ key other

/-- The rows come in the order of the key. -/
def Ascending (rows : List R) : Prop := rows.Pairwise fun row other => key row ≤ key other

instance [DecidableEq R] (rows : List R) : Decidable (Ascending key rows) :=
  inferInstanceAs (Decidable (rows.Pairwise fun row other => key row ≤ key other))

end

variable {key : R → K} {rows : List R}

theorem orderBy_perm : (orderBy key rows).Perm rows := List.perm_insertionSort _ rows

theorem ascending_orderBy : Ascending key (orderBy key rows) := by
  have htotal : Std.Total fun row other : R => key row ≤ key other := ⟨fun row other => le_total _ _⟩
  have htrans : IsTrans R fun row other => key row ≤ key other := ⟨fun _ _ _ h h' => le_trans h h'⟩
  exact List.pairwise_insertionSort _ rows

theorem orderBy_eq_self_iff : orderBy key rows = rows ↔ Ascending key rows := by
  constructor
  · intro h
    have hascending := @ascending_orderBy R K _ key rows
    rwa [h] at hascending
  · exact fun h => List.Pairwise.insertionSort_eq h

theorem orderBy_map {f : R → S} {keyS : S → K} (hkey : ∀ row, keyS (f row) = key row) :
    orderBy keyS (rows.map f) = (orderBy key rows).map f := by
  symm
  apply List.map_insertionSort
  intro row _ other _
  rw [hkey, hkey]

end Relational
