import PlusOne.Relational.Upsert

/-! # Rows computed by a function that can fail -/

namespace Relational

universe u

variable {R K ε : Type*} {S α β : Type u}

theorem bind_eq_ok {x : Except ε α} {f : α → Except ε β} {b : β} :
    (x >>= f) = .ok b ↔ ∃ a, x = .ok a ∧ f a = .ok b := by
  cases x with
  | error e =>
    constructor
    · intro h
      cases h
    · rintro ⟨a, ha, -⟩
      cases ha
  | ok a =>
    constructor
    · intro h
      exact ⟨a, rfl, h⟩
    · rintro ⟨a, ha, h⟩
      cases ha
      exact h

theorem pure_eq_ok {a b : α} : (pure a : Except ε α) = .ok b ↔ a = b := by
  constructor
  · intro h
    cases h
    rfl
  · rintro rfl
    rfl

section Rows

variable {keyR : R → K} {keyS : S → K} {f : R → Except ε S} {rows : List R} {result : List S}

theorem mapM_nil_ok (h : ([] : List R).mapM f = .ok result) : result = [] := by
  cases h
  rfl

theorem mapM_cons_ok {row : R} (h : (row :: rows).mapM f = .ok result) :
    ∃ made rest, f row = .ok made ∧ rows.mapM f = .ok rest ∧ result = made :: rest := by
  rw [List.mapM_cons, bind_eq_ok] at h
  obtain ⟨made, hmade, h⟩ := h
  obtain ⟨rest, hrest, h⟩ := bind_eq_ok.1 h
  exact ⟨made, rest, hmade, hrest, (pure_eq_ok.1 h).symm⟩

theorem exists_of_mem_mapM (h : rows.mapM f = .ok result) {made : S} (hmade : made ∈ result) :
    ∃ row ∈ rows, f row = .ok made := by
  induction rows generalizing result with
  | nil =>
    rw [mapM_nil_ok h] at hmade
    simp at hmade
  | cons row rows ih =>
    obtain ⟨first, rest, hfirst, hrest, rfl⟩ := mapM_cons_ok h
    rcases List.mem_cons.1 hmade with rfl | hmem
    · exact ⟨row, by simp, hfirst⟩
    · obtain ⟨source, hsource, hmake⟩ := ih hrest hmem
      exact ⟨source, by simp [hsource], hmake⟩

theorem keys_mapM (hf : ∀ row ∈ rows, ∀ made, f row = .ok made → keyS made = keyR row)
    (h : rows.mapM f = .ok result) : result.map keyS = rows.map keyR := by
  induction rows generalizing result with
  | nil => rw [mapM_nil_ok h, List.map_nil, List.map_nil]
  | cons row rows ih =>
    obtain ⟨made, rest, hmade, hrest, rfl⟩ := mapM_cons_ok h
    have hkeys := ih (fun r hr => hf r (by simp [hr])) hrest
    rw [List.map_cons, List.map_cons, hkeys, hf row (by simp) made hmade]

theorem Distinct.mapM (hf : ∀ row ∈ rows, ∀ made, f row = .ok made → keyS made = keyR row)
    (hdistinct : Distinct keyR rows) (h : rows.mapM f = .ok result) : Distinct keyS result := by
  unfold Distinct at *
  rwa [keys_mapM hf h]

/-- The row made for a key is made from the row under it. -/
theorem find_mapM [DecidableEq K] (hf : ∀ row ∈ rows, ∀ made, f row = .ok made → keyS made = keyR row)
    (h : rows.mapM f = .ok result) (k : K) :
    (find keyR k rows = none ∧ find keyS k result = none) ∨
    ∃ row made, find keyR k rows = some row ∧ f row = .ok made ∧ find keyS k result = some made := by
  induction rows generalizing result with
  | nil =>
    rw [mapM_nil_ok h]
    exact .inl ⟨rfl, rfl⟩
  | cons row rows ih =>
    obtain ⟨made, rest, hmade, hrest, rfl⟩ := mapM_cons_ok h
    have hkey := hf row (by simp) made hmade
    rw [find_cons, find_cons, hkey]
    split
    · exact .inr ⟨row, made, rfl, hmade, rfl⟩
    · exact ih (fun r hr => hf r (by simp [hr])) hrest

theorem keys_filterMap_sublist {g : R → Option S}
    (hg : ∀ row made, g row = some made → keyS made = keyR row) :
    ((rows.filterMap g).map keyS).Sublist (rows.map keyR) := by
  induction rows with
  | nil => simp
  | cons row rows ih =>
    cases hrow : g row with
    | none =>
      rw [List.filterMap_cons_none hrow]
      exact ih.cons _
    | some made =>
      rw [List.filterMap_cons_some hrow, List.map_cons, List.map_cons, hg row made hrow]
      exact ih.cons_cons _

theorem Distinct.filterMap {g : R → Option S} (hdistinct : Distinct keyR rows)
    (hg : ∀ row made, g row = some made → keyS made = keyR row) :
    Distinct keyS (rows.filterMap g) :=
  List.Nodup.sublist (keys_filterMap_sublist hg) hdistinct

/-- A selection that makes rows finds what the row of the key makes. -/
theorem Distinct.find_filterMap [DecidableEq K] {g : R → Option S} (hdistinct : Distinct keyR rows)
    (hg : ∀ row made, g row = some made → keyS made = keyR row) (k : K) :
    find keyS k (rows.filterMap g) = (find keyR k rows).bind g := by
  induction rows with
  | nil => rfl
  | cons row rows ih =>
    have hrest := ih hdistinct.tail
    by_cases hk : keyR row = k
    · subst hk
      rw [hdistinct.notMem] at hrest
      rw [find_cons_self, Option.bind_some]
      cases hrow : g row with
      | none => rw [List.filterMap_cons_none hrow, hrest, Option.bind_none]
      | some made => rw [List.filterMap_cons_some hrow, ← hg row made hrow, find_cons_self]
    · rw [find_cons_of_ne hk, ← hrest]
      cases hrow : g row with
      | none => rw [List.filterMap_cons_none hrow]
      | some made =>
        have hne : keyS made ≠ k := hg row made hrow ▸ hk
        rw [List.filterMap_cons_some hrow, find_cons_of_ne hne]

theorem mapM_isOk (h : ∀ row ∈ rows, ∃ made, f row = .ok made) : ∃ result, rows.mapM f = .ok result := by
  induction rows with
  | nil => exact ⟨[], rfl⟩
  | cons row rows ih =>
    obtain ⟨made, hmade⟩ := h row (by simp)
    obtain ⟨rest, hrest⟩ := ih fun r hr => h r (by simp [hr])
    have hbind : (row :: rows).mapM f = .ok (made :: rest) := by
      rw [List.mapM_cons, hmade, hrest]
      rfl
    exact ⟨made :: rest, hbind⟩

end Rows

end Relational
