import PlusOne.Relational.Sums

/-! # Sums of some of the rows

An amount that is the sum over distinct rows of a table that meet a condition, whichever rows
these are. -/

namespace Relational

variable {R K M : Type*} [AddCommMonoid M]

/-- The amount is the sum of `f` over distinct rows of the table that meet the condition. -/
def PartSum (f : R → M) (p : R → Prop) (rows : List R) (amount : M) : Prop :=
  ∃ part : List R, part.Nodup ∧ (∀ row ∈ part, row ∈ rows ∧ p row) ∧ (part.map f).sum = amount

namespace PartSum

variable {f g : R → M} {p q : R → Prop} {rows rows' : List R} {a b : M}

theorem zero : PartSum f p rows 0 := ⟨[], List.nodup_nil, by simp, by simp⟩

/-- Rows that stay keep their amounts in the sum. -/
theorem mono (h : PartSum f p rows a) (hrows : ∀ row ∈ rows, p row → row ∈ rows' ∧ q row ∧ g row = f row) :
    PartSum g q rows' a := by
  obtain ⟨part, hnodup, hpart, hsum⟩ := h
  have hkept : ∀ row ∈ part, row ∈ rows' ∧ q row := by
    intro row hrow
    obtain ⟨hmem, hp⟩ := hpart row hrow
    exact ⟨(hrows row hmem hp).1, (hrows row hmem hp).2.1⟩
  have hsame : part.map g = part.map f := by
    apply List.map_congr_left
    intro row hrow
    obtain ⟨hmem, hp⟩ := hpart row hrow
    exact (hrows row hmem hp).2.2
  exact ⟨part, hnodup, hkept, by rw [hsame, hsum]⟩

/-- Sums over rows that are different add up. -/
theorem add (ha : PartSum f p rows a) (hb : PartSum f q rows b) (hdisjoint : ∀ row, p row → ¬q row) :
    PartSum f (fun row => p row ∨ q row) rows (a + b) := by
  obtain ⟨part, hnodup, hpart, hsum⟩ := ha
  obtain ⟨part', hnodup', hpart', hsum'⟩ := hb
  have hboth : (part ++ part').Nodup := by
    apply hnodup.append hnodup'
    intro row hrow hrow'
    exact hdisjoint row (hpart row hrow).2 (hpart' row hrow').2
  have hmem : ∀ row ∈ part ++ part', row ∈ rows ∧ (p row ∨ q row) := by
    intro row hrow
    rcases List.mem_append.1 hrow with hrow | hrow
    · exact ⟨(hpart row hrow).1, .inl (hpart row hrow).2⟩
    · exact ⟨(hpart' row hrow).1, .inr (hpart' row hrow).2⟩
  exact ⟨part ++ part', hboth, hmem, by simp [hsum, hsum']⟩

/-- The amounts of a table whose keys tell their rows apart add up. -/
theorem sum {S : Type*} {table : List S} {key : S → K} {amount : S → M} {owns : K → R → Prop}
    (hkeys : Distinct key table) (hamount : ∀ entry ∈ table, PartSum f (owns (key entry)) rows (amount entry))
    (howns : ∀ k k' row, owns k row → owns k' row → k = k') :
    PartSum f (fun row => ∃ entry ∈ table, owns (key entry) row) rows (table.map amount).sum := by
  induction table with
  | nil => exact zero
  | cons entry table ih =>
    have hrest := ih hkeys.tail fun other hother => hamount other (by simp [hother])
    have hhead := hamount entry (by simp)
    have hdisjoint : ∀ row, owns (key entry) row → ¬∃ other ∈ table, owns (key other) row := by
      intro row hrow hsome
      obtain ⟨other, hother, hrow'⟩ := hsome
      have hkey := howns _ _ row hrow hrow'
      exact (List.nodup_cons.1 hkeys).1 (hkey ▸ List.mem_map_of_mem hother)
    rw [List.map_cons, List.sum_cons]
    refine (hhead.add hrest hdisjoint).mono ?_
    intro row hmem hrow
    have hentry : ∃ other ∈ entry :: table, owns (key other) row := by
      rcases hrow with hrow | ⟨other, hother, hrow⟩
      · exact ⟨entry, by simp, hrow⟩
      · exact ⟨other, by simp [hother], hrow⟩
    exact ⟨hmem, hentry, rfl⟩

end PartSum

end Relational
